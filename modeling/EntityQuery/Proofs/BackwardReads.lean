import EntityQuery.Proofs.CursorPages
import EntityQuery.Proofs.MergeSorts
import Mathlib.Data.List.Pairwise
/-! Reads from the end. The order is turned round, the first rows of it are read, and they are turned back: where the
order tells all rows apart, these are the last rows of the order that was asked for. -/

namespace EntityQuery

namespace OrderTerm

/-- The term of the opposite order. -/
def flip (t : OrderTerm) : OrderTerm := ⟨t.column, t.direction.flip, t.nulls.bind NullPlacement.flip?⟩

/-- Does a term say ascending or descending, and first or last where it places nulls? -/
def isKnown (t : OrderTerm) : Bool :=
  match t.direction, t.nulls with
  | .foreign _, _ | _, some (.foreign _) => false
  | _, _ => true

end OrderTerm

namespace Store

variable {t : OrderTerm} {terms : List OrderTerm} {rows out : List Row}

theorem missingFlip (known : t.isKnown) : missingFirst t.flip = !missingFirst t := by
  obtain ⟨column, direction, nulls⟩ := t
  cases direction <;> rcases nulls with _ | (_ | _ | _) <;> first | rfl | cases known

theorem directedFlip (known : t.isKnown) (o : Ordering) : directed t.flip o = (directed t o).swap := by
  obtain ⟨column, direction, nulls⟩ := t
  cases direction with
  | ascending => rfl
  | descending => exact (Ordering.swap_swap).symm
  | foreign name => cases nulls <;> cases known

/-- Turned round, a term compares the other way, what is there and what is missing alike. -/
theorem termFlip (known : t.isKnown) (a b : SortKey) : termOrder t.flip a b = (termOrder t a b).swap := by
  have missing (a b : Bool) : missingOrder t.flip a b = (missingOrder t a b).swap := by
    unfold missingOrder
    rw [missingFlip known]
    cases a <;> cases b <;> cases missingFirst t <;> rfl
  cases a with
  | none => exact missing true b.isNone
  | some x =>
    cases b with
    | none => exact missing false true
    | some y => exact directedFlip known _

theorem termsFlip (known : ∀ t ∈ terms, t.isKnown) (as bs : List SortKey) :
    termsOrder (terms.map .flip) as bs = (termsOrder terms as bs).swap := by
  induction terms generalizing as bs with
  | nil => cases as <;> cases bs <;> rfl
  | cons t rest ih =>
    obtain ⟨here, later⟩ := List.forall_mem_cons.mp known
    cases as with
    | nil => cases bs <;> rfl
    | cons a as =>
      cases bs with
      | nil => rfl
      | cons b bs =>
        rw [List.map_cons, termsOrder, termsOrder, termFlip here, ih later, Ordering.swap_then]

theorem rankFlip (row : Row) : (terms.map .flip).map (rank row) = terms.map (rank row) := by
  rw [List.map_map]
  rfl

theorem ranksFlip {row : Row} (ranks : Ranks terms row) : Ranks (terms.map .flip) row := by
  intro t mem
  obtain ⟨u, listed, rfl⟩ := List.mem_map.mp mem
  exact ranks u listed

theorem termCompared (t : OrderTerm) {v w : Value} {k l : SortKey} (hv : sortKey v = .ok k) (hw : sortKey w = .ok l) :
    (if v.isNothing || w.isNothing then .ok (missingOrder t v.isNothing w.isNothing) else directed t <$> order v w) =
      Except.ok (ε := Failure) (termOrder t k l) := by
  unfold sortKey at hv hw
  cases missing : v.isNothing with
  | true =>
    rw [missing] at hv
    cases hv
    cases none : w.isNothing with
    | true =>
      rw [none] at hw
      cases hw
      rfl
    | false =>
      rw [none] at hw
      obtain ⟨y, -, same⟩ := Results.bindOk hw
      cases same
      rfl
  | false =>
    rw [missing] at hv
    obtain ⟨x, first, same⟩ := Results.bindOk hv
    cases same
    cases none : w.isNothing with
    | true =>
      rw [none] at hw
      cases hw
      rfl
    | false =>
      rw [none] at hw
      obtain ⟨y, second, same⟩ := Results.bindOk hw
      cases same
      simp only [Bool.or_self, Bool.false_eq_true, if_false, order, first, second]
      rfl

/-- By induction on the terms: rows whose values have a place compare as these do. -/
theorem rowOrderRanked {a b : Row} (ha : Ranks terms a) (hb : Ranks terms b) :
    rowOrder a b terms = .ok (termsOrder terms (terms.map (rank a)) (terms.map (rank b))) := by
  induction terms with
  | nil => rfl
  | cons t rest ih =>
    have later := ih (fun u mem => ha u (List.mem_cons_of_mem t mem)) fun u mem => hb u (List.mem_cons_of_mem t mem)
    have here := termCompared t (rankOk ha List.mem_cons_self).1 (rankOk hb List.mem_cons_self).1
    have first : rowOrder a b (t :: rest) =
        (if (Row.value a t.column).isNothing || (Row.value b t.column).isNothing then
            .ok (missingOrder t (Row.value a t.column).isNothing (Row.value b t.column).isNothing)
          else directed t <$> order (Row.value a t.column) (Row.value b t.column)) >>= fun o =>
        if o == .eq then rowOrder a b rest else return o := by
      rw [rowOrder]
      split <;> rfl
    rw [first, here, later]
    change (if termOrder t (rank a t) (rank b t) == .eq then _ else _) = Except.ok ((termOrder t (rank a t) (rank b t)).then _)
    cases termOrder t (rank a t) (rank b t) <;> rfl

/-- Does an order tell all rows apart? -/
def Told (terms : List OrderTerm) (rows : List Row) : Prop := rows.Pairwise fun a b => (rowOrder a b terms).toOption ≠ some .eq

instance (terms : List OrderTerm) (rows : List Row) : Decidable (Told terms rows) := List.instDecidablePairwise rows

theorem ranksSwap (ranks : ∀ row ∈ rows, Ranks terms row) {a b : Row} (ha : a ∈ rows) (hb : b ∈ rows) :
    termsOrder terms (terms.map (rank a)) (terms.map (rank b)) =
      (termsOrder terms (terms.map (rank b)) (terms.map (rank a))).swap :=
  (ranksCompare ranks).eq_swap (a := ⟨a, ha⟩) (b := ⟨b, hb⟩)

/-- Rows that are told apart stand in their order in one way. -/
theorem rankedTold (ranks : ∀ row ∈ rows, Ranks terms row) (told : Told terms rows) {l : List Row} (same : l.Perm rows)
    (ordered : l.Pairwise fun a b => atMost terms a b) : ranked terms rows = l := by
  have sorted : (ranked terms rows).Perm rows := List.mergeSort_perm rows _
  have apart : rows.Pairwise fun a b => ¬ (atMost terms a b ∧ atMost terms b a) := by
    refine told.imp_of_mem fun {a b} ha hb differ both => differ ?_
    rw [rowOrderRanked (ranks a ha) (ranks b hb)]
    obtain ⟨ab, ba⟩ := both
    unfold atMost at ab ba
    rw [ranksSwap ranks hb ha] at ba
    cases compared : termsOrder terms (terms.map (rank a)) (terms.map (rank b)) with
    | eq => rfl
    | lt => simp [compared] at ba
    | gt => simp [compared] at ab
  have symmetric : Std.Symm fun a b => ¬ (atMost terms a b ∧ atMost terms b a) := ⟨fun a b none both => none ⟨both.2, both.1⟩⟩
  refine List.Perm.eq_of_pairwise (fun a b ha hb ab ba => ?_) (rankedPairwise ranks) ordered (sorted.trans same.symm)
  by_contra other
  exact apart.forall (sorted.mem_iff.mp ha) (same.mem_iff.mp hb) other ⟨ab, ba⟩

theorem toldFlip (known : ∀ t ∈ terms, t.isKnown) (ranks : ∀ row ∈ rows, Ranks terms row) (told : Told terms rows) :
    Told (terms.map .flip) rows := by
  refine told.imp_of_mem fun {a b} ha hb differ equal => differ ?_
  rw [rowOrderRanked (ranksFlip (ranks a ha)) (ranksFlip (ranks b hb)), rankFlip, rankFlip, termsFlip known] at equal
  rw [rowOrderRanked (ranks a ha) (ranks b hb)]
  cases compared : termsOrder terms (terms.map (rank a)) (terms.map (rank b)) <;> simp [compared, Except.toOption] at equal ⊢

/-- Where an order tells all rows apart, they stand in the opposite order the other way round. -/
theorem rankedFlipped (known : ∀ t ∈ terms, t.isKnown) (ranks : ∀ row ∈ rows, Ranks terms row) (told : Told terms rows) :
    ranked (terms.map .flip) rows = (ranked terms rows).reverse := by
  have same : (ranked terms rows).reverse.Perm rows := (List.reverse_perm _).trans (List.mergeSort_perm rows _)
  refine rankedTold (fun row mem => ranksFlip (ranks row mem)) (toldFlip known ranks told) same ?_
  rw [List.pairwise_reverse]
  refine (rankedPairwise ranks).imp_of_mem fun {a b} ha hb before => ?_
  have memA := same.mem_iff.mp (List.mem_reverse.mpr ha)
  have memB := same.mem_iff.mp (List.mem_reverse.mpr hb)
  rwa [atMost, rankFlip, rankFlip, termsFlip known, ← ranksSwap ranks memA memB]

theorem sortAlone (few : rows.length ≤ 1) : sortRows terms rows = .ok rows := by
  cases rows with
  | nil =>
    unfold sortRows
    simp
  | cons row rest =>
    obtain rfl : rest = [] := List.length_eq_zero_iff.mp (by simpa using few)
    unfold sortRows
    rw [List.mapM_cons, List.mapM_nil]
    cases keyed : keyed? terms row with
    | none =>
      show Sorting.sort _ [row] = _
      simp [Sorting.sort, Sorting.runs, Sorting.leading, Sorting.leastRun, Sorting.collapse, bind, Except.bind, pure, Except.pure]
    | some k =>
      have own := keyedRow keyed
      change Except.ok (([k].mergeSort _).map (·.2)) = _
      rw [List.mergeSort_singleton, List.map_singleton, own]

end Store

namespace Window

variable {e : Entity} {order : List OrderSpec} {terms : List OrderTerm} {take skip : Value} {k n : Nat}

/-- Rows in an order, some of them passed over and some kept. -/
def plain (order : List OrderSpec) (take skip : Value) : Window := ⟨order, take, skip, none, []⟩

theorem placementFlip {o : OrderSpec} (known : o.isKnown) : placement o.flip = (placement o).bind NullPlacement.flip? := by
  obtain ⟨field, direction, nulls⟩ := o
  rcases nulls with _ | (_ | _ | _) <;> first | rfl | (cases direction <;> cases known)

/-- How many rows are passed over; both zeros pass over none. -/
inductive Passes : Value → Nat → Prop where
  | none : Passes .null 0
  | rows {x : Number} {k : Nat} (bounds : Bounds x k) : Passes (.number x) k

theorem passesBound (passes : Passes skip k) : ∃ o, bound skip = .ok o ∧ Counted o (o.map fun _ => k) ∧ (o.map fun _ => k).getD 0 = k := by
  cases passes with
  | none => exact ⟨none, rfl, .none, rfl⟩
  | @rows x k bounds => exact ⟨some x, rfl, .some bounds, rfl⟩

/-- An order that is turned round has the terms turned round. -/
theorem orderTermsFlip (known : ∀ o ∈ order, o.isKnown) (listed : orderTerms e order = .ok terms) :
    orderTerms e (order.map .flip) = .ok (terms.map .flip) ∧ ∀ t ∈ terms, t.isKnown := by
  induction order generalizing terms with
  | nil =>
    cases listed
    exact ⟨rfl, nofun⟩
  | cons o rest ih =>
    obtain ⟨here, later⟩ := List.forall_mem_cons.mp known
    unfold orderTerms at listed ih ⊢
    rw [List.mapM_cons] at listed
    obtain ⟨t, first, listed⟩ := Results.bindOk listed
    obtain ⟨f, named, first⟩ := Results.bindOk first
    obtain ⟨others, tail, listed⟩ := Results.bindOk listed
    cases first
    cases listed
    obtain ⟨flipped, all⟩ := ih later tail
    constructor
    · rw [List.map_cons, List.mapM_cons, flipped, List.map_cons, OrderTerm.flip, ← placementFlip here]
      change (e.fieldNamed o.field >>= _) >>= _ = _
      rw [named]
      rfl
    · refine List.forall_mem_cons.mpr ⟨?_, all⟩
      obtain ⟨field, direction, nulls⟩ := o
      cases direction <;> rcases nulls with _ | (_ | _ | _) <;> first | rfl | cases here

theorem plainValid (listed : orderTerms e order = .ok terms) (integer : take = .null ∨ ∃ i, take = .int i) (passes : Passes skip k) :
    (plain order take skip).validate e = .ok () := by
  have fields : ∀ o ∈ order, ∃ f, e.fieldNamed o.field = .ok f := by
    intro o mem
    obtain ⟨t, found⟩ := Results.existsMapAll.mp ⟨terms, listed⟩ o mem
    obtain ⟨f, named, -⟩ := Results.bindOk found
    exact ⟨f, named⟩
  have counted : (!skip.isNull && !isCount skip) = false := by
    cases passes with
    | none => rfl
    | rows bounds =>
      cases bounds with
      | integer n => simp [isCount, integer?, Number.int?]
      | negativeZero => rfl
  have whole : (!take.isNull && (integer? take).isNone) = false := by
    rcases integer with rfl | ⟨i, rfl⟩ <;> rfl
  unfold validate
  simp only [plain, counted, whole, Bool.false_eq_true, if_false, List.forIn_nil]
  clear listed
  induction order with
  | nil => rfl
  | cons o rest ih =>
    obtain ⟨⟨f, named⟩, later⟩ := List.forall_mem_cons.mp fields
    simp only [List.forIn_cons, named]
    exact ih later

end Window

namespace Context

variable {c : Context} {e : Entity} {s : Session Store} {filter : List Predicate} {order : List OrderSpec} {w : Window}
  {terms : List OrderTerm} {condition : Condition} {found listed : List Row} {l o : Option Number} {b : Bool}

theorem plainAnswer (uncursored : w.cursor = none) (whole : w.distinct = []) (compiled : c.condition e filter = .ok condition)
    (valid : w.validate e = .ok ()) (ordered : w.effectiveOrder e = .ok order) (listed : Window.orderTerms e order = .ok terms)
    (limited : w.limit = .ok l) (bounded : Window.bound w.skip = .ok o) (backwards : w.isBackwards = .ok b) :
    (c.findMany e filter w : Action Store (List Row)).answer s =
      ((do
        let rows ← s.backend.selectRows ⟨e.table, e.columns, .conjunction [condition], terms, .ofBound l, .ofBound o⟩
        rows.mapM fun row => e.decodeRow row).map fun decoded : List Row => if b then decoded.reverse else decoded).toOption := by
  have reached : (c.withCursor e [] w order : Action Store (Option (List Condition))).answer s = some (some []) := by
    unfold withCursor
    rw [uncursored]
    rfl
  have done : ∀ decoded : List Row, Writes (fun _ => False)
      (do if ← w.isBackwards then pure decoded.reverse else pure decoded : Action Store (List Row)) := by
    refine fun decoded => .liftBind fun backwards _ => ?_
    split <;> exact .pure _
  rw [findManySteps compiled valid ordered reached]
  unfold readWindow
  rw [liftAnswered, listed, whole]
  change Action.answer (liftM w.limit >>= _) s = _
  rw [liftAnswered, limited]
  change Action.answer (liftM (Window.bound w.skip) >>= _) s = _
  rw [liftAnswered, bounded]
  refine (selectDecoded (c := c) _ done).trans ?_
  cases (do
    let rows ← s.backend.selectRows ⟨e.table, e.columns, .conjunction [condition], terms, .ofBound l, .ofBound o⟩
    rows.mapM fun row => e.decodeRow row : Except Failure (List Row)) with
  | error f => rfl
  | ok decoded =>
    change Action.answer (liftM w.isBackwards >>= _) s = _
    rw [liftAnswered, backwards]
    cases b <;> rfl

end Context

namespace Results

/-- Two steps over a list, one after the other, are the two steps for each item. -/
theorem mapTwice {α β γ : Type} {xs : List α} {f : α → Except Failure β} {g : β → Except Failure γ} {out : List γ} :
    (do
      let ys ← xs.mapM f
      ys.mapM g) = .ok out ↔ (xs.mapM fun x => f x >>= g) = .ok out := by
  have some {δ : Type} (x : Except Failure δ) (a : δ) : x = .ok a ↔ x.toOption = .some a :=
    ⟨fun h => by rw [h]; rfl, Results.toOptionOk⟩
  have same : (do
      let ys ← xs.mapM f
      ys.mapM g).toOption = (xs.mapM fun x => f x >>= g).toOption := by
    rw [Results.toOptionBind, Options.exceptMap, Options.exceptMap, funext fun ys => Options.exceptMap ys g, Options.mapBind]
    exact congrArg (List.mapM · xs) (funext fun x => (Results.toOptionBind (f x) g).symm)
  rw [some, some, same]

end Results

namespace Store

variable {b : Store} {e : Entity} {condition : Condition} {terms turned : List OrderTerm} {found sorted listed kept : List Row}
  {limit offset : Value}

/-- What is read of the rows between bounds: each of them as it is read of all. -/
theorem selectPart (matched : b.matching e.table condition = .ok found) (sorting : sortRows terms found = .ok sorted)
    (ran : (do
      let rows ← b.selectRows ⟨e.table, e.columns, condition, terms, .null, .null⟩
      rows.mapM fun row => e.decodeRow row) = .ok listed)
    (again : sortRows turned found = .ok kept) (inside : ∀ row ∈ kept, row ∈ sorted) :
    ∃ view : Row → Row, listed = sorted.map view ∧ ∀ limit offset part, page limit offset kept = .ok part →
      (do
        let rows ← b.selectRows ⟨e.table, e.columns, condition, turned, limit, offset⟩
        rows.mapM fun row => e.decodeRow row) = .ok (part.map view) := by
  obtain ⟨outs, selecting, decoding⟩ := Results.bindOk ran
  obtain ⟨all, matching, selecting⟩ := Results.bindOk selecting
  obtain rfl := Except.ok.inj (matching.symm.trans matched)
  obtain ⟨ordered, first, selecting⟩ := Results.bindOk selecting
  obtain rfl := Except.ok.inj (first.symm.trans sorting)
  obtain ⟨fields, known, projecting⟩ := Results.bindOk selecting
  have whole : (ordered.mapM fun row => project fields e.columns row >>= e.decodeRow) = .ok listed := by
    refine Results.mapTwice.mp ?_
    change ordered.mapM (project fields e.columns) = .ok outs at projecting
    rw [projecting]
    exact decoding
  obtain ⟨views, reads⟩ := Results.mapAllValues [] whole
  refine ⟨_, views, fun limit offset part paged => ?_⟩
  have each : ∀ row ∈ part, (project fields e.columns row >>= e.decodeRow) =
      .ok (Results.valueOr [] (project fields e.columns row >>= e.decodeRow)) := fun row mem =>
    Results.eqOkValueOr [] (reads row (inside row (pageInside paged row mem)))
  unfold selectRows
  dsimp only
  rw [matched, known]
  change (do
    let rows ← (do
      let sorted ← sortRows turned all
      (← page limit offset sorted).mapM (project fields e.columns))
    rows.mapM fun row => e.decodeRow row) = _
  rw [again]
  change (do
    let rows ← (do (← page limit offset kept).mapM (project fields e.columns))
    rows.mapM fun row => e.decodeRow row) = _
  rw [paged]
  exact Results.mapTwice.mpr (Results.mapAllOk each)

/-- No rows are told apart by no terms. -/
theorem toldAlone {rows : List Row} (told : Told [] rows) : rows.length ≤ 1 := by
  rcases rows with _ | ⟨a, _ | ⟨b, rest⟩⟩
  · exact Nat.zero_le 1
  · exact Nat.le_refl 1
  · exact absurd rfl ((List.pairwise_cons.mp told).1 b List.mem_cons_self)

end Store

namespace Window

variable {e : Entity} {order : List OrderSpec} {terms : List OrderTerm} {found sorted : List Row} {skip : Value} {n : Nat}

theorem plainForward (e : Entity) (order : List OrderSpec) : (plain order .null .null).effectiveOrder e = .ok order := by
  cases order <;> rfl

theorem plainBackwards (least : 1 ≤ n) : (plain order (.int (-n)) skip).isBackwards = .ok true := by
  change Except.ok (some (compare (-(n : Int)) 0) == some .lt) = _
  rw [compare_lt_iff_lt.mpr (by omega : -(n : Int) < 0)]
  rfl

theorem plainLimit (least : 1 ≤ n) : (plain order (.int (-n)) skip).limit = .ok (some (.integer n)) := by
  change Except.ok (some (if decide (-(n : Int) < 0) then (Number.integer (-n)).neg else .integer (-n))) = _
  rw [decide_eq_true (by omega), if_pos rfl, Number.neg, if_neg (by omega), Int.neg_neg]

/-- The order of a read from the end sorts the rows the other way round. Without an order it is that of the primary key,
and there is at most one row. -/
theorem plainTurned (skip : Value) (primary : e.primaryKey ∈ e.fields) (known : ∀ o ∈ order, o.isKnown) (least : 1 ≤ n)
    (listed : orderTerms e order = .ok terms) (ranks : ∀ row ∈ found, Store.Ranks terms row) (told : Store.Told terms found) :
    ∃ order' terms', (plain order (.int (-n)) skip).effectiveOrder e = .ok order' ∧ orderTerms e order' = .ok terms' ∧
      Store.sortRows terms' found = .ok (Store.ranked terms found).reverse := by
  have effective : (plain order (.int (-n)) skip).effectiveOrder e = .ok ((plain order (.int (-n)) skip).orderOf e true) := by
    unfold effectiveOrder
    rw [plainBackwards least]
    rfl
  cases order with
  | nil =>
    obtain rfl : [] = terms := Except.ok.inj listed
    have alone := Store.toldAlone told
    obtain ⟨f, own⟩ : ∃ f, e.field? e.primaryKey.name = some f :=
      Option.isSome_iff_exists.mp (List.find?_isSome.mpr ⟨_, primary, beq_self_eq_true _⟩)
    have named : e.fieldNamed (.text e.primaryKey.name) = .ok f := by
      change e.field e.primaryKey.name = _
      rw [Entity.field, own]
    refine ⟨_, [⟨f.column, .descending, none⟩], effective, ?_, ?_⟩
    · change orderTerms e [⟨.text e.primaryKey.name, .descending, none⟩] = _
      unfold orderTerms
      rw [List.mapM_cons, List.mapM_nil, named]
      rfl
    · have sorted : Store.ranked [] found = found :=
        Except.ok.inj ((Store.sortRanked ranks).symm.trans (Store.sortAlone alone))
      have same : found.reverse = found := by
        rcases found with _ | ⟨row, _ | _⟩
        · rfl
        · rfl
        · simp at alone
      rw [Store.sortAlone alone, sorted, same]
  | cons o rest =>
    obtain ⟨flipped, all⟩ := orderTermsFlip known listed
    refine ⟨_, _, effective, flipped, ?_⟩
    rw [Store.sortRanked fun row mem => Store.ranksFlip (ranks row mem), Store.rankedFlipped all ranks told]

end Window

namespace Context

/-- A read from the end answers, in the order that was asked for, the last rows of what is left once some of the last rows of
the whole order are dropped. -/
theorem lastRows {c : Context} {e : Entity} {s : Session Store} {filter : List Predicate} {order : List OrderSpec}
    {terms : List OrderTerm} {condition : Condition} {found listed : List Row} {skip : Value} {k n : Nat}
    (primary : e.primaryKey ∈ e.fields) (known : ∀ o ∈ order, o.isKnown) (compiled : c.condition e filter = .ok condition)
    (ordered : Window.orderTerms e order = .ok terms) (matched : s.backend.matching e.table (.conjunction [condition]) = .ok found)
    (few : found.length < 2 ^ 53) (ranks : ∀ row ∈ found, Store.Ranks terms row) (told : Store.Told terms found)
    (answered : (c.findMany e filter (Window.plain order .null .null) : Action Store (List Row)).answer s = some listed)
    (passes : Window.Passes skip k) (least : 1 ≤ n) :
    (c.findMany e filter (Window.plain order (.int (-n)) skip) : Action Store (List Row)).answer s =
      some ((listed.rdrop k).rtake n) := by
  have whole : (c.findMany e filter (Window.plain order .null .null) : Action Store (List Row)).answer s = _ :=
    plainAnswer rfl rfl compiled (Window.plainValid ordered (.inl rfl) .none) (Window.plainForward e order) ordered rfl rfl rfl
  obtain ⟨decoded, ran, same⟩ := Results.bindOk (Results.toOptionOk (whole.symm.trans answered))
  obtain rfl : decoded = listed := Except.ok.inj same
  obtain ⟨order', terms', effective, turned, sorting⟩ := Window.plainTurned skip primary known least ordered ranks told
  obtain ⟨o, bounded, counted, passed⟩ := Window.passesBound passes
  have inside : ∀ row ∈ (Store.ranked terms found).reverse, row ∈ Store.ranked terms found := fun row => List.mem_reverse.mp
  obtain ⟨view, rfl, parts⟩ := Store.selectPart matched (Store.sortRanked ranks) ran sorting inside
  have length : (Store.ranked terms found).reverse.length < 2 ^ 53 := by
    rw [List.length_reverse]
    exact (List.mergeSort_perm found _).length_eq.trans_lt few
  have cut := parts _ _ _ (Window.pageCut counted (.some (.integer n)) length)
  rw [plainAnswer rfl rfl compiled (Window.plainValid ordered (.inr ⟨_, rfl⟩) passes) effective turned
    (Window.plainLimit least) bounded (Window.plainBackwards least), cut]
  change some (List.map view (((Store.ranked terms found).reverse.drop _).take n)).reverse = _
  rw [passed, List.rtake_eq_reverse_take_reverse, List.rdrop_eq_reverse_drop_reverse, List.reverse_reverse, List.map_take,
    List.map_drop, List.map_reverse]

end Context

namespace Sample

/-- Parts of some weights. -/
def weighed (weights : List Value) : List Row := weights.mapIdx fun i weight => partRow (i + 1) wheel .null weight .null

/-- Parts by their weights, those of one weight by their keys. -/
def byWeightAndKey (direction : Direction) (nulls : Option NullPlacement) : List OrderSpec :=
  [⟨.text "weight", direction, nulls⟩, ⟨.text "id", .ascending, none⟩]

/-- The parts of no other part, in a window. -/
def wholeParts (weights : List Value) (w : Window) : Option (List Row) :=
  ((⟨partsRegistry, .pooled⟩ : Context).findMany part [.field "Part" "whole" (.null false) false] w : Action Store (List Row)).answer
    (partsSession (weighed weights))

def partIds (rows : List Row) : List (Option Int) := rows.map fun row => Window.integer? (Row.value row "id")

/-- Heavier parts come first and those without a weight last: of three parts, the last one before the last one. -/
theorem lastRowsOfParts : ∃ listed, partIds listed = [some 3, some 1, some 2] ∧
    wholeParts [.int 1, .null, .int 2] (Window.plain (byWeightAndKey .descending (some .last)) .null .null) = some listed ∧
    wholeParts [.int 1, .null, .int 2] (Window.plain (byWeightAndKey .descending (some .last)) (.int (-(1 : Nat))) (.int 1)) =
      some ((listed.rdrop 1).rtake 1) := by
  have ranks : ∀ row ∈ weighed [.int 1, .null, .int 2],
      Store.Ranks [⟨"weight", .descending, some .last⟩, ⟨"id", .ascending, none⟩] row := by
    intro row mem t inside
    simp only [weighed, List.mapIdx_cons, List.mapIdx_nil, List.mem_cons, List.not_mem_nil, or_false] at mem inside
    rcases mem with rfl | rfl | rfl <;> rcases inside with rfl | rfl <;> exact ⟨_, rfl, rfl⟩
  have compiled : (⟨partsRegistry, .pooled⟩ : Context).condition part [.field "Part" "whole" (.null false) false] =
      .ok (.null ⟨"parts", "whole_code"⟩ false) := rfl
  have ordered : Window.orderTerms part (byWeightAndKey .descending (some .last)) =
      .ok [⟨"weight", .descending, some .last⟩, ⟨"id", .ascending, none⟩] := rfl
  have reads : ∀ row ∈ weighed [.int 1, .null, .int 2], ∃ decoded, part.read row = .ok decoded := by
    simp only [weighed, List.mapIdx_cons, List.mapIdx_nil, List.forall_mem_cons]
    exact ⟨⟨_, rfl⟩, ⟨_, rfl⟩, ⟨_, rfl⟩, nofun⟩
  have told : Store.Told [⟨"weight", .descending, some .last⟩, ⟨"id", .ascending, none⟩] (weighed [.int 1, .null, .int 2]) := by
    decide +kernel
  have matched : (partsSession (weighed [.int 1, .null, .int 2])).backend.matching part.table
      (.conjunction [.null ⟨"parts", "whole_code"⟩ false]) =
        (Except.ok (weighed [.int 1, .null, .int 2])).map (List.filter fun _ => true) := rfl
  have inside : ∀ l, (Except.ok (weighed [.int 1, .null, .int 2]) : Except Failure (List Row)) = .ok l →
      ∀ row ∈ l, row ∈ weighed [.int 1, .null, .int 2] := by
    rintro l ⟨⟩ row mem
    exact mem
  have sorted := Store.rankedTold ranks told
    (l := [partRow 3 wheel .null (.int 2) .null, partRow 1 wheel .null (.int 1) .null, partRow 2 wheel .null .null .null])
    ((List.Perm.swap _ _ _).trans ((List.Perm.swap _ _ _).cons _)) (by decide +kernel)
  have answered : wholeParts [.int 1, .null, .int 2] (Window.plain (byWeightAndKey .descending (some .last)) .null .null) =
      some ([(3, .int 2), (1, .int 1), (2, .null)].map fun (id, weight) =>
        [("id", .int id), ("code", .text wheel), ("whole", .null), ("weight", weight), ("due", .null)]) := by
    unfold wholeParts
    rw [Context.plainAnswer rfl rfl compiled rfl rfl ordered rfl rfl rfl,
      Store.selectViews rfl reads ranks inside matched]
    show (((Store.page .null .null ((Store.ranked _ (weighed [.int 1, .null, .int 2])).filter fun _ => true)).map _).map _).toOption = _
    rw [sorted]
    rfl
  refine ⟨_, by decide +kernel, answered, ?_⟩
  exact Context.lastRows List.mem_cons_self (by decide) compiled ordered rfl (by decide) ranks told answered
    (.rows (.integer 1)) (by decide)

/-- A weight that is no number stands beside every other, so that sorting tells another order the other way round. -/
theorem lastRowsDiffer : Store.Told [⟨"weight", .ascending, none⟩, ⟨"id", .ascending, none⟩]
      (weighed [.int 0, .int 1, .number .nan, .int 1, .int 0]) ∧
    ∃ listed, wholeParts [.int 0, .int 1, .number .nan, .int 1, .int 0]
        (Window.plain (byWeightAndKey .ascending none) .null .null) = some listed ∧
      wholeParts [.int 0, .int 1, .number .nan, .int 1, .int 0]
        (Window.plain (byWeightAndKey .ascending none) (.int (-(2 : Nat))) .null) ≠ some ((listed.rdrop 0).rtake 2) := by
  have answered : wholeParts [.int 0, .int 1, .number .nan, .int 1, .int 0]
      (Window.plain (byWeightAndKey .ascending none) .null .null) = some _ := Option.eq_some_of_isSome (by decide +kernel)
  refine ⟨by decide +kernel, _, answered, fun same => ?_⟩
  have ids := congrArg (Option.map partIds) same
  revert ids
  decide +kernel

end Sample

end EntityQuery
