import EntityQuery.Proofs.BackwardReads
import EntityQuery.Proofs.ExactNumbers
import Mathlib.Data.List.Lex
import Mathlib.Data.Sum.Order
import Mathlib.Order.Compare
/-! The order of rows. Rows whose values are integers, truth values, instants, texts or nothing stand in a total preorder, that of
their values under one term after the other, and a select answers its rows in it. -/

namespace EntityQuery.Store

/-- Where a value stands among others: numbers, truth values and instants as integers, and texts behind them by their units. -/
abbrev Standing := Lex (Int ⊕ List Nat)

/-- Where a value stands; what is nothing stands nowhere. -/
def standing? : Value → Option Standing
  | .number x => x.int?.map fun n => toLex (.inl n)
  | .integer n => some (toLex (.inl n))
  | .bool b => some (toLex (.inl (if b then 1 else 0)))
  | .date t => t.map fun t => toLex (.inl t)
  | .text s => some (toLex (.inr (Text.units s)))
  | _ => none

/-- A value by which rows can be ordered: an integer, a truth value, an instant, a text or nothing. -/
def Stands (v : Value) : Prop := v.isNothing ∨ (standing? v).isSome

instance (v : Value) : Decidable (Stands v) := inferInstanceAs (Decidable (_ ∨ _))

/-- Does a term place nulls first? Unless it says so, it does where it descends. -/
inductive NullsFirst (t : OrderTerm) : Prop
  | asked : t.nulls = some .first → NullsFirst t
  | descending : t.nulls = none → t.direction = .descending → NullsFirst t

/-- Under a term one value stands before another. Every direction that does not ascend descends. -/
inductive Precedes (t : OrderTerm) : Option Standing → Option Standing → Prop
  | first {q : Standing} : NullsFirst t → Precedes t none (some q)
  | last {p : Standing} : ¬ NullsFirst t → Precedes t (some p) none
  | ascending {p q : Standing} : t.direction = .ascending → p < q → Precedes t (some p) (some q)
  | descending {p q : Standing} : t.direction ≠ .ascending → q < p → Precedes t (some p) (some q)

/-- One row stands before another: under the first term under which their values do not stand alike. -/
inductive Before : List OrderTerm → Row → Row → Prop
  | here {t : OrderTerm} {rest : List OrderTerm} {a b : Row} :
      Precedes t (standing? (Row.value a t.column)) (standing? (Row.value b t.column)) → Before (t :: rest) a b
  | later {t : OrderTerm} {rest : List OrderTerm} {a b : Row} :
      standing? (Row.value a t.column) = standing? (Row.value b t.column) → Before rest a b → Before (t :: rest) a b

/-- Two rows tie: under no term do their values stand apart. -/
def Tie (terms : List OrderTerm) (a b : Row) : Prop :=
  ∀ t ∈ terms, standing? (Row.value a t.column) = standing? (Row.value b t.column)

instance (terms : List OrderTerm) (a b : Row) : Decidable (Tie terms a b) := List.decidableBAll _ terms

/-- A row whose values can all be ordered under terms. -/
def Orderable (terms : List OrderTerm) (row : Row) : Prop := ∀ t ∈ terms, Stands (Row.value row t.column)

instance (terms : List OrderTerm) (row : Row) : Decidable (Orderable terms row) := List.decidableBAll _ terms

/-- Rows sorted by terms: the same rows, none after one that it stands before, and those that tie in the order they had. -/
structure Sorts (terms : List OrderTerm) (rows sorted : List Row) : Prop where
  permuted : sorted.Perm rows
  ordered : sorted.Pairwise fun a b => ¬ Before terms b a
  stable : ∀ row, sorted.filter (Tie terms row) = rows.filter (Tie terms row)

section Values

theorem unitsCompares (a b : List Nat) : (Text.compareLists a b).Compares a b := by
  induction a generalizing b with
  | nil =>
    cases b with
    | nil => rfl
    | cons n others => exact List.nil_lt_cons n others
  | cons m rest ih =>
    cases b with
    | nil => exact List.nil_lt_cons m rest
    | cons n others =>
      unfold Text.compareLists
      split
      · next less => exact List.cons_lt_cons_iff.mpr (.inl less)
      · split
        · next more => exact List.cons_lt_cons_iff.mpr (.inl more)
        · obtain rfl : m = n := by omega
          have behind : StrictMono (List.cons m) := fun _ _ less => List.cons_lt_cons_iff.mpr (.inr ⟨rfl, less⟩)
          exact behind.compares.mpr (ih others)

/-- What a value is compared as shows where it stands. -/
inductive Shows : Comparable → Standing → Prop
  | number {x : Number} {n : Int} : x.int? = some n → Shows (.number x) (toLex (.inl n))
  | text (s : String) : Shows (.text (some s)) (toLex (.inr (Text.units s)))

theorem standingShows {v : Value} {p : Standing} (stands : standing? v = some p) :
    v.isNothing = false ∧ ∃ x, comparable v = .ok x ∧ isPlaced (some x) ∧ Shows x p := by
  cases v with
  | number x =>
    obtain ⟨n, whole, rfl⟩ := Option.map_eq_some_iff.mp stands
    refine ⟨rfl, .number x, rfl, ?_, .number whole⟩
    rcases Number.wholeCases whole with rfl | ⟨rfl, rfl⟩ <;> rfl
  | date t =>
    obtain ⟨n, rfl, rfl⟩ := Option.map_eq_some_iff.mp stands
    exact ⟨rfl, _, rfl, rfl, .number rfl⟩
  | integer n | bool b =>
    cases stands
    exact ⟨rfl, _, rfl, rfl, .number rfl⟩
  | text s =>
    cases stands
    exact ⟨rfl, _, rfl, rfl, .text s⟩
  | _ => cases stands

theorem showsCompares {x y : Comparable} {p q : Standing} (hx : Shows x p) (hy : Shows y q) : (x.order y).Compares p q := by
  cases hx with
  | @number x m left =>
    cases hy with
    | @number y n right =>
      change ((x.compare? y).getD .eq).Compares _ _
      rw [Number.wholeCompare left right, Option.getD_some]
      exact Sum.Lex.inl_strictMono.compares.mpr (compare_iff m n |>.mp rfl)
    | text t => exact Sum.Lex.inl_lt_inr _ _
  | text s =>
    cases hy with
    | number right => exact Sum.Lex.inl_lt_inr _ _
    | text t => exact Sum.Lex.inr_strictMono.compares.mpr (unitsCompares (Text.units s) (Text.units t))

/-- What a value is sorted by shows where it stands, or that it stands nowhere. -/
inductive KeyShows : SortKey → Option Standing → Prop
  | missing : KeyShows none none
  | placed {x : Comparable} {p : Standing} : Shows x p → KeyShows (some x) (some p)

theorem standsKey {v : Value} (stands : Stands v) : ∃ k, sortKey v = .ok k ∧ isPlaced k ∧ KeyShows k (standing? v) := by
  rcases stands with nothing | some
  · refine ⟨none, if_pos nothing, rfl, ?_⟩
    cases v <;> first | exact .missing | cases nothing
  · obtain ⟨p, stands⟩ := Option.isSome_iff_exists.mp some
    obtain ⟨present, x, compared, placed, shows⟩ := standingShows stands
    refine ⟨_, ?_, placed, stands ▸ .placed shows⟩
    rw [sortKey, present, compared]
    rfl

end Values

section Terms

variable {t : OrderTerm} {terms : List OrderTerm} {a b c row : Row}

theorem nullsFirst : missingFirst t = true ↔ NullsFirst t := by
  obtain ⟨column, direction, nulls⟩ := t
  constructor
  · intro first
    rcases nulls with _ | (_ | _ | _) <;> cases direction <;> first | exact .asked rfl | exact .descending rfl rfl | cases first
  · rintro (⟨rfl⟩ | ⟨rfl, rfl⟩) <;> rfl

theorem missingPrecedes : (missingOrder t true false = .lt ↔ NullsFirst t) ∧ missingOrder t true false ≠ .eq ∧
    (missingOrder t false true = .lt ↔ ¬ NullsFirst t) ∧ missingOrder t false true ≠ .eq := by
  rw [← nullsFirst]
  unfold missingOrder
  cases missingFirst t <;> decide

/-- Under one term keys compare as their values stand. -/
theorem termPrecedes {k l : SortKey} {p q : Option Standing} (hk : KeyShows k p) (hl : KeyShows l q) :
    (termOrder t k l = .lt ↔ Precedes t p q) ∧ (termOrder t k l = .eq ↔ p = q) := by
  obtain ⟨first, apart, last, also⟩ := @missingPrecedes t
  cases hk with
  | missing =>
    cases hl with
    | missing => exact ⟨⟨nofun, nofun⟩, ⟨fun _ => rfl, fun _ => rfl⟩⟩
    | placed => exact ⟨first.trans ⟨.first, fun | .first nulls => nulls⟩, ⟨fun equal => absurd equal apart, nofun⟩⟩
  | @placed x p hx =>
    cases hl with
    | missing => exact ⟨last.trans ⟨.last, fun | .last nulls => nulls⟩, ⟨fun equal => absurd equal also, nofun⟩⟩
    | @placed y q hy =>
      have compared := showsCompares hx hy
      change (directed t (x.order y) = .lt ↔ _) ∧ (directed t (x.order y) = .eq ↔ _)
      by_cases ascends : t.direction = .ascending
      · have forwards : directed t (x.order y) = x.order y := by rw [directed, ascends]
        rw [forwards, compared.eq_lt, compared.eq_eq, Option.some_inj]
        exact ⟨⟨.ascending ascends, fun | .ascending _ less => less | .descending falls _ => absurd ascends falls⟩, Iff.rfl⟩
      · have backwards : directed t (x.order y) = (x.order y).swap := by
          unfold directed
          split
          · next rises => exact absurd rises ascends
          · rfl
          · rfl
        rw [backwards, Ordering.swap_eq_lt, Ordering.swap_eq_eq, compared.eq_gt, compared.eq_eq, Option.some_inj]
        exact ⟨⟨.descending ascends, fun | .ascending rises _ => absurd rises ascends | .descending _ less => less⟩, Iff.rfl⟩

theorem orderableRanks (orderable : Orderable terms row) : Ranks terms row := by
  intro t mem
  obtain ⟨k, keyed, placed, -⟩ := standsKey (orderable t mem)
  exact ⟨k, keyed, placed⟩

theorem rankShows (orderable : Orderable terms row) (mem : t ∈ terms) :
    KeyShows (rank row t) (standing? (Row.value row t.column)) := by
  obtain ⟨k, keyed, -, shows⟩ := standsKey (orderable t mem)
  rw [rank, keyed]
  exact shows

/-- By induction on the terms: rows compare as their values stand under the first term that tells them apart. -/
theorem termsBefore (ha : Orderable terms a) (hb : Orderable terms b) :
    (termsOrder terms (terms.map (rank a)) (terms.map (rank b)) = .lt ↔ Before terms a b) ∧
      (termsOrder terms (terms.map (rank a)) (terms.map (rank b)) = .eq ↔ Tie terms a b) := by
  induction terms with
  | nil => exact ⟨⟨nofun, nofun⟩, ⟨fun _ => nofun, fun _ => rfl⟩⟩
  | cons t rest ih =>
    obtain ⟨less, equal⟩ := ih (fun u mem => ha u (List.mem_cons_of_mem t mem)) fun u mem => hb u (List.mem_cons_of_mem t mem)
    obtain ⟨precedes, alike⟩ := @termPrecedes t _ _ _ _ (rankShows ha List.mem_cons_self) (rankShows hb List.mem_cons_self)
    rw [List.map_cons, List.map_cons, termsOrder, Ordering.then_eq_lt, Ordering.then_eq_eq, precedes, alike, less, equal]
    constructor
    · constructor
      · rintro (here | ⟨same, later⟩)
        · exact .here here
        · exact .later same later
      · rintro (here | ⟨same, later⟩)
        · exact .inl here
        · exact .inr ⟨same, later⟩
    · simp only [Tie, List.forall_mem_cons]

/-- Rows that can be ordered have an order, which is turned round when they change places or when the terms are turned round. -/
theorem rowsCompare (ha : Orderable terms a) (hb : Orderable terms b) :
    ∃ o, rowOrder a b terms = .ok o ∧ rowOrder b a terms = .ok o.swap ∧ (o = .lt ↔ Before terms a b) ∧ (o = .eq ↔ Tie terms a b) ∧
      ((∀ t ∈ terms, t.isKnown) → rowOrder a b (terms.map .flip) = .ok o.swap) := by
  have ranksA := orderableRanks ha
  have ranksB := orderableRanks hb
  have both : ∀ row ∈ [a, b], Ranks terms row := by
    simpa using And.intro ranksA ranksB
  obtain ⟨less, equal⟩ := termsBefore ha hb
  refine ⟨_, rowOrderRanked ranksA ranksB, ?_, less, equal, fun known => ?_⟩
  · rw [rowOrderRanked ranksB ranksA, ranksSwap both (List.mem_cons_of_mem a List.mem_cons_self) List.mem_cons_self]
  · rw [rowOrderRanked (ranksFlip ranksA) (ranksFlip ranksB), rankFlip, rankFlip, termsFlip known]

theorem rowOrderAtMost (ha : Ranks terms a) (hb : Ranks terms b) : rowOrder a b terms ≠ .ok .gt ↔ atMost terms a b := by
  rw [rowOrderRanked ha hb, atMost, bne_iff_ne, Ne, Except.ok.injEq]

theorem rowOrderTrans (ha : Ranks terms a) (hb : Ranks terms b) (hc : Ranks terms c) (ab : rowOrder a b terms ≠ .ok .gt)
    (bc : rowOrder b c terms ≠ .ok .gt) : rowOrder a c terms ≠ .ok .gt := by
  have all : ∀ row ∈ [a, b, c], Ranks terms row := by simpa using And.intro ha (And.intro hb hc)
  rw [rowOrderAtMost ha hb] at ab
  rw [rowOrderAtMost hb hc] at bc
  rw [rowOrderAtMost ha hc]
  exact atMostTrans all a (by simp) b (by simp) c (by simp) ab bc

/-- A row is sorted no later than the rows that do not stand before it. -/
theorem atMostBefore (ha : Orderable terms a) (hb : Orderable terms b) : atMost terms a b ↔ ¬ Before terms b a := by
  obtain ⟨o, -, forth, before, -, -⟩ := rowsCompare hb ha
  rw [← rowOrderAtMost (orderableRanks ha) (orderableRanks hb), forth, ← before, Ne, Except.ok.injEq, Ordering.swap_eq_gt]

end Terms

section Sorted

variable {terms : List OrderTerm} {rows : List Row}

theorem rankedSorts (orderable : ∀ row ∈ rows, Orderable terms row) : Sorts terms rows (ranked terms rows) := by
  have ranks : ∀ row ∈ rows, Ranks terms row := fun row mem => orderableRanks (orderable row mem)
  have same : (ranked terms rows).Perm rows := List.mergeSort_perm rows _
  refine ⟨same, ?_, fun row => ?_⟩
  · refine (rankedPairwise ranks).imp_of_mem fun {a b} ha hb before => ?_
    exact (atMostBefore (orderable a (same.mem_iff.mp ha)) (orderable b (same.mem_iff.mp hb))).mp before
  · -- rows that all tie are sorted already
    rw [rankedFilter ranks]
    refine List.mergeSort_of_pairwise (List.pairwise_of_forall_mem_list fun a ha b hb => ?_)
    obtain ⟨memA, tieA⟩ := List.mem_filter.mp ha
    obtain ⟨memB, tieB⟩ := List.mem_filter.mp hb
    have tie : Tie terms a b := fun t mem => (of_decide_eq_true tieA t mem).symm.trans (of_decide_eq_true tieB t mem)
    rw [(termsBefore (orderable a memA) (orderable b memB)).2.mpr tie]
    rfl

/-- Rows that can be ordered are compared as a total preorder: as their values stand, one term after the other, and the other way
round where the terms are turned round. A select answers the rows that it finds sorted by it, or what is left of them between bounds. -/
theorem rowsOrdered (terms : List OrderTerm) :
    (∀ a b, Orderable terms a → Orderable terms b → ∃ o, rowOrder a b terms = .ok o ∧ rowOrder b a terms = .ok o.swap ∧
      (o = .lt ↔ Before terms a b) ∧ (o = .eq ↔ Tie terms a b) ∧
      ((∀ t ∈ terms, t.isKnown) → rowOrder a b (terms.map .flip) = .ok o.swap)) ∧
    (∀ a b c, Orderable terms a → Orderable terms b → Orderable terms c →
      rowOrder a b terms ≠ .ok .gt → rowOrder b c terms ≠ .ok .gt → rowOrder a c terms ≠ .ok .gt) ∧
    (∀ e order, (∀ o ∈ order, o.isKnown) → Window.orderTerms e order = .ok terms →
      Window.orderTerms e (order.map .flip) = .ok (terms.map .flip) ∧ ∀ t ∈ terms, t.isKnown) ∧
    ∀ (s : Store) (q : Select) (found : List Row), q.order = terms → s.matching q.table q.condition = .ok found →
      (∀ row ∈ found, Orderable terms row) → ∃ sorted, Sorts terms found sorted ∧
        s.selectRows q = (do
          let fields ← s.fieldsOf q.table
          (← page q.limit q.offset sorted).mapM (project fields q.columns)) ∧
        ∀ fields view, s.fieldsOf q.table = .ok fields → (∀ row ∈ found, project fields q.columns row = .ok (view row)) →
          q.limit = .null → q.offset = .null → s.selectRows q = .ok (sorted.map view) := by
  refine ⟨fun a b => rowsCompare, fun a b c ha hb hc => rowOrderTrans (orderableRanks ha) (orderableRanks hb) (orderableRanks hc),
    fun e order => Window.orderTermsFlip, ?_⟩
  rintro s q found rfl matched orderable
  have sorts := rankedSorts orderable
  have answered : s.selectRows q = (do
      let fields ← s.fieldsOf q.table
      (← page q.limit q.offset (ranked q.order found)).mapM (project fields q.columns)) := by
    unfold selectRows
    rw [matched]
    change sortRows q.order found >>= _ = _
    rw [sortRanked fun row mem => orderableRanks (orderable row mem)]
    rfl
  refine ⟨_, sorts, answered, fun fields view known views unlimited whole => ?_⟩
  rw [answered, known, unlimited, whole]
  exact Results.mapAllOk fun row mem => views row (sorts.permuted.mem_iff.mp mem)

end Sorted

end EntityQuery.Store

namespace EntityQuery.Sample

/-- Parts whose weights are of every kind. -/
def assorted : List Row := weighed [.text "b", .null, .date (some 5), .bool true, .int 1, .integer 5]

def heaviest : Select := ⟨"parts", ["id"], .constant true, [⟨"weight", .descending, none⟩], .null, .null⟩

/-- Of parts of six weights, the heaviest first, those of an instant and of an integer tie, and keep the order they are found in. -/
theorem rowsOrderedOfParts : (∀ row ∈ assorted, Store.Orderable heaviest.order row) ∧
    ∃ sorted, Store.Sorts heaviest.order assorted sorted ∧
      (partsSession assorted).backend.selectRows heaviest = .ok (sorted.map fun row => [("id", Row.value row "id")]) ∧
      partIds (sorted.filter (Store.Tie heaviest.order [("weight", .int 5)])) = [some 3, some 6] := by
  have orderable : ∀ row ∈ assorted, Store.Orderable heaviest.order row := by decide
  have views : ∀ row ∈ assorted, Store.project part.fields ["id"] row = .ok [("id", Row.value row "id")] := by
    simp only [assorted, weighed, List.mapIdx_cons, List.mapIdx_nil, List.forall_mem_cons]
    exact ⟨rfl, rfl, rfl, rfl, rfl, rfl, List.forall_mem_nil _⟩
  obtain ⟨-, -, -, selects⟩ := Store.rowsOrdered heaviest.order
  obtain ⟨sorted, sorts, -, answers⟩ := selects (partsSession assorted).backend heaviest assorted rfl rfl orderable
  refine ⟨orderable, sorted, sorts, answers part.fields _ rfl views rfl rfl, ?_⟩
  rw [sorts.stable]
  decide

end EntityQuery.Sample
