import EntityQuery.Proofs.Checks
import EntityQuery.Proofs.PlainConditions
import EntityQuery.Proofs.SharedRows
import Mathlib.Data.List.DropRight
/-! Paging by the primary key. Rows that are read in the order of their keys are told apart by them, so that a page after
a cursor goes on where the cursor's row stands, and the pages from the first to an empty one are all the rows. -/

namespace EntityQuery

/-- Is a type one by whose keys rows are paged: integers, texts or UUIDs? -/
def ScalarType.isPaged : ScalarType → Bool
  | .integer _ | .text | .uuid => true
  | _ => false

/-- Is a direction one of the two that have a name? -/
def Direction.isKnown : Direction → Bool
  | .ascending | .descending => true
  | .foreign _ => false

theorem Direction.flipKnown {d : Direction} (known : d.isKnown) : d.flip.isKnown := by
  cases d with
  | foreign name => cases known
  | ascending | descending => rfl

namespace Field

/-- A key that rows are paged by: it is there, and it is as the client writes it. -/
structure PageKey (f : Field) (v : Value) : Prop where
  paged : f.type.isPaged
  there : v.isNothing = false
  holds : f.HoldsKey v

variable {f : Field} {v w : Value}

theorem PageKey.keyed (key : f.PageKey v) : f.type.isKeyType ∧ f.type ≠ .json := by
  have paged := key.paged
  cases type : f.type with
  | integer _ | text | uuid => exact ⟨rfl, nofun⟩
  | _ =>
    rw [type] at paged
    cases paged

theorem PageKey.written (key : f.PageKey v) : f.type.isKeyForm v ∧ f.encode v = .ok v ∧ f.decode v = .ok v :=
  key.holds.form key.keyed.1 key.keyed.2 key.there

theorem PageKey.cases (key : f.PageKey v) :
    (∃ width n, f.type = .integer width ∧ v = ofWidth width n) ∨ ∃ s, v = .text s ∧ Text.isJoined s.toList := by
  obtain ⟨form, written, -⟩ := key.written
  have paged := key.paged
  rw [encodeGiven rfl key.there] at written
  unfold encodePresent at written
  cases type : f.type with
  | integer width =>
    simp only [type, encodeInteger] at written
    split at written
    · cases written
    · rename_i n exact
      split at written
      · exact .inl ⟨width, n, rfl, (Except.ok.inj written).symm⟩
      · cases written
  | text | uuid =>
    rw [type] at form
    cases v with
    | text s => exact .inr ⟨s, rfl, form⟩
    | _ => cases form
  | _ =>
    rw [type] at paged
    cases paged

theorem PageKey.places (key : f.PageKey v) : ∃ x : Store.Placed, Store.comparable v = .ok x.1 := by
  rcases key.cases with ⟨width, n, -, rfl⟩ | ⟨s, rfl, -⟩
  · refine ⟨⟨.number (.integer n), rfl⟩, ?_⟩
    unfold ofWidth
    split <;> rfl
  · exact ⟨⟨.text (some s), rfl⟩, rfl⟩

end Field

namespace Store

/-- The order of two values, equal if they cannot be compared. -/
def keyOrder (v w : Value) : Ordering := Results.valueOr .eq (order v w)

/-- Does a value stand before another in a direction? -/
def leads (d : Direction) (v w : Value) : Bool := keyOrder v w == if d.ascends then .lt else .gt

variable {f : Field} {u v w : Value} {d : Direction}

theorem keyOrdered {x y : Comparable} (hv : comparable v = .ok x) (hw : comparable w = .ok y) :
    order v w = .ok (keyOrder v w) ∧ keyOrder v w = x.order y := by
  have ordered : order v w = .ok (x.order y) := by
    unfold order
    rw [hv, hw]
    rfl
  unfold keyOrder
  rw [ordered]
  exact ⟨rfl, rfl⟩

theorem keySwap (hv : f.PageKey v) (hw : f.PageKey w) : keyOrder v w = (keyOrder w v).swap := by
  obtain ⟨x, hx⟩ := hv.places
  obtain ⟨y, hy⟩ := hw.places
  rw [(keyOrdered hx hy).2, (keyOrdered hy hx).2]
  exact placedOrder.eq_swap

/-- Keys of one field that are equal in the order are the same. -/
theorem keyTold (hv : f.PageKey v) (hw : f.PageKey w) (equal : keyOrder v w = .eq) : v = w := by
  rcases hv.cases with ⟨width, m, type, rfl⟩ | ⟨s, rfl, joined⟩
  · rcases hw.cases with ⟨other, n, same, rfl⟩ | ⟨t, rfl, -⟩
    · obtain rfl := ScalarType.integer.inj (type.symm.trans same)
      have integers : ∀ k, comparable (Field.ofWidth width k) = .ok (.number (.integer k)) := by
        intro k
        unfold Field.ofWidth
        split <;> rfl
      rw [(keyOrdered (integers m) (integers n)).2] at equal
      rw [compare_eq_iff_eq.mp (show compare m n = .eq from equal)]
    · have form := hw.written.1
      rw [type] at form
      cases form
  · rcases hw.cases with ⟨width, n, type, rfl⟩ | ⟨t, rfl, other⟩
    · have form := hv.written.1
      rw [type] at form
      cases form
    · rw [(keyOrdered rfl rfl).2, Comparable.textOrder] at equal
      rw [String.toList_injective (Text.joinedInjective joined other equal)]

theorem leadsAsymm (hv : f.PageKey v) (hw : f.PageKey w) (leading : leads d v w) : leads d w v = false := by
  unfold leads at leading ⊢
  rw [keySwap hw hv]
  rw [beq_iff_eq] at leading
  rw [leading]
  cases d.ascends <;> rfl

theorem leadsSelf (hv : f.PageKey v) : leads d v v = false := by
  cases leading : leads d v v with
  | false => rfl
  | true => rw [leadsAsymm hv hv leading] at leading; cases leading

theorem leadsFlip (known : d.isKnown) (hv : f.PageKey v) (hw : f.PageKey w) : leads d.flip v w = leads d w v := by
  unfold leads
  rw [keySwap hw hv]
  cases d with
  | ascending | descending => cases keyOrder v w <;> rfl
  | foreign name => cases known

end Store

namespace Sorting

variable {α : Type} {le : α → α → Bool}

theorem filterAfter {before after : List α} {x : α} (ordered : (before ++ x :: after).Pairwise fun a b => le a b)
    (self : le x x = false) (asymm : ∀ a ∈ before, le a x → le x a = false) : (before ++ x :: after).filter (le x) = after := by
  obtain ⟨-, rest, across⟩ := List.pairwise_append.mp ordered
  have earlier : before.filter (le x) = [] := by
    refine List.filter_eq_nil_iff.mpr fun a mem => ?_
    rw [asymm a mem (across a mem x List.mem_cons_self)]
    exact Bool.false_ne_true
  have later : after.filter (le x) = after := List.filter_eq_self.mpr (List.pairwise_cons.mp rest).1
  rw [List.filter_append, earlier, List.nil_append, List.filter_cons_of_neg (by rw [self]; exact Bool.false_ne_true), later]

end Sorting

namespace Store

variable {f : Field} {d : Direction} {nulls : Option NullPlacement} {rows : List Row}

/-- The order of rows by the values of one column. -/
abbrev keyTerm (f : Field) (d : Direction) (nulls : Option NullPlacement) : OrderTerm := ⟨f.column, d, nulls⟩

/-- Does a row stand before another in the order of their keys? -/
def before (f : Field) (d : Direction) (a b : Row) : Bool := leads d (Row.value a f.column) (Row.value b f.column)

/-- Do the rows have keys to be paged by, each its own? -/
structure Keyed (f : Field) (rows : List Row) : Prop where
  keys : ∀ row ∈ rows, f.PageKey (Row.value row f.column)
  apart : (rows.map fun row => Row.value row f.column).Nodup

theorem Keyed.sublist {some : List Row} (keyed : Keyed f rows) (inside : some.Sublist rows) : Keyed f some :=
  ⟨fun row mem => keyed.keys row (inside.subset mem), keyed.apart.sublist (inside.map _)⟩

theorem Keyed.ranks (keyed : Keyed f rows) : ∀ row ∈ rows, Ranks [keyTerm f d nulls] row := by
  intro row mem t listed
  obtain rfl := List.mem_singleton.mp listed
  obtain ⟨x, compared⟩ := (keyed.keys row mem).places
  refine ⟨some x.1, ?_, x.2⟩
  show sortKey (Row.value row f.column) = _
  unfold sortKey
  rw [(keyed.keys row mem).there, if_neg Bool.false_ne_true, compared]
  rfl

theorem rankKey (d : Direction) (nulls : Option NullPlacement) {row : Row} (key : f.PageKey (Row.value row f.column)) :
    ∃ x, comparable (Row.value row f.column) = .ok x ∧ rank row (keyTerm f d nulls) = some x := by
  obtain ⟨x, compared⟩ := key.places
  refine ⟨x.1, compared, ?_⟩
  unfold rank sortKey
  rw [key.there, if_neg Bool.false_ne_true, compared]
  rfl

theorem termsKey {a b : Row} (ha : f.PageKey (Row.value a f.column)) (hb : f.PageKey (Row.value b f.column)) :
    termsOrder [keyTerm f d nulls] ([keyTerm f d nulls].map (rank a)) ([keyTerm f d nulls].map (rank b)) =
      directed (keyTerm f d nulls) (keyOrder (Row.value a f.column) (Row.value b f.column)) := by
  obtain ⟨x, hx, first⟩ := rankKey d nulls ha
  obtain ⟨y, hy, second⟩ := rankKey d nulls hb
  rw [List.map_singleton, List.map_singleton, first, second, (keyOrdered hx hy).2]
  show (directed (keyTerm f d nulls) (x.order y)).then .eq = _
  cases directed (keyTerm f d nulls) (x.order y) <;> rfl

/-- Rows of different keys stand strictly in the order of their keys. -/
theorem rankedBefore (known : d.isKnown) (keyed : Keyed f rows) :
    (ranked [keyTerm f d nulls] rows).Pairwise fun a b => before f d a b := by
  have same : (ranked [keyTerm f d nulls] rows).Perm rows := List.mergeSort_perm rows _
  have apart : (ranked [keyTerm f d nulls] rows).Pairwise fun a b => Row.value a f.column ≠ Row.value b f.column :=
    List.pairwise_map.mp ((same.map fun row => Row.value row f.column).nodup_iff.mpr keyed.apart)
  refine ((rankedPairwise keyed.ranks).and apart).imp_of_mem ?_
  rintro a b ha hb ⟨ordered, differ⟩
  have keyA := keyed.keys a (same.mem_iff.mp ha)
  have keyB := keyed.keys b (same.mem_iff.mp hb)
  rw [atMost, termsKey keyA keyB] at ordered
  unfold before leads
  cases d with
  | foreign name => cases known
  | ascending | descending =>
    cases compared : keyOrder (Row.value a f.column) (Row.value b f.column) with
    | eq => exact absurd (keyTold keyA keyB compared) differ
    | lt | gt => first | rfl | (rw [compared] at ordered; cases ordered)

/-- Rows of different keys stand in the order of their keys in one way. -/
theorem rankedOnly (known : d.isKnown) (keyed : Keyed f rows) {l : List Row} (same : l.Perm rows)
    (ordered : l.Pairwise fun a b => before f d a b) : ranked [keyTerm f d nulls] rows = l := by
  have sorted : (ranked [keyTerm f d nulls] rows).Perm rows := List.mergeSort_perm rows _
  refine List.Perm.eq_of_pairwise (fun a b ha hb ab ba => ?_) (rankedBefore known keyed) ordered (sorted.trans same.symm)
  have keyA := keyed.keys a (sorted.mem_iff.mp ha)
  have keyB := keyed.keys b (same.mem_iff.mp hb)
  unfold before at ab ba
  rw [leadsAsymm keyA keyB ab] at ba
  cases ba

/-- Read the other way round, the rows stand in the opposite order. -/
theorem rankedFlip (known : d.isKnown) {placed : Option NullPlacement} (keyed : Keyed f rows) :
    ranked [keyTerm f d.flip placed] rows = (ranked [keyTerm f d nulls] rows).reverse := by
  have sorted : (ranked [keyTerm f d nulls] rows).Perm rows := List.mergeSort_perm rows _
  refine rankedOnly (Direction.flipKnown known) keyed ((List.reverse_perm _).trans sorted) ?_
  rw [List.pairwise_reverse]
  refine (rankedBefore known keyed).imp_of_mem fun {a b} ha hb ordered => ?_
  unfold before at ordered ⊢
  rw [leadsFlip known (keyed.keys b (sorted.mem_iff.mp hb)) (keyed.keys a (sorted.mem_iff.mp ha))]
  exact ordered

/-- A statement that answers all rows that a condition picks, decoded, tells that all of them can be read. -/
theorem selectReads {s : Store} {e : Entity} {terms : List OrderTerm} {condition : Condition} {decoded : List Row}
    (columns : Record.get? s.fields e.table = some e.fields) (there : Record.get? s.tables e.table = some rows)
    (ranks : ∀ row ∈ rows, Ranks terms row)
    (ran : (do
      let outs ← s.selectRows ⟨e.table, e.columns, condition, terms, .null, .null⟩
      outs.mapM fun row => e.decodeRow row) = .ok decoded) :
    ∃ found, s.matching e.table condition = .ok found ∧ found.Sublist rows ∧
      ∀ row ∈ found, ∃ decoded, e.read row = .ok decoded := by
  obtain ⟨outs, selecting, decoding⟩ := Results.bindOk ran
  obtain ⟨found, matched, selecting⟩ := Results.bindOk selecting
  obtain ⟨sorted, sorting, selecting⟩ := Results.bindOk selecting
  obtain ⟨fields, known, projecting⟩ := Results.bindOk selecting
  have inside : found.Sublist rows := by
    unfold matching at matched
    obtain ⟨stored, stands, filtered⟩ := Results.bindOk matched
    obtain rfl := Option.some.inj ((rowsOfOk stands).symm.trans there)
    exact Results.filterSublist filtered
  obtain rfl := Option.some.inj ((fieldsOfOk known).symm.trans columns)
  obtain rfl := Except.ok.inj (sorting.symm.trans (sortRanked fun row mem => ranks row (inside.subset mem)))
  refine ⟨found, matched, inside, fun row mem => ?_⟩
  have member : row ∈ ranked terms found := (List.mergeSort_perm found _).mem_iff.mpr mem
  obtain ⟨out, listed, projected⟩ := Results.pairedLeft (Results.mapAllPaired projecting) row member
  obtain ⟨read, decodes⟩ := Results.existsMapAll.mp ⟨decoded, decoding⟩ out listed
  exact ⟨read, by rw [Entity.read, projected]; exact decodes⟩

end Store

namespace Window

/-- Rows in the order of their keys, some of them passed over and some kept. -/
def keyed (e : Entity) (d : Direction) (nulls : Option NullPlacement) (take skip : Value) (cursor : Option Predicate) : Window :=
  ⟨[⟨.text e.primaryKey.name, d, nulls⟩], take, skip, cursor, []⟩

/-- How many rows are passed over. -/
inductive Skips : Value → Nat → Prop where
  | none : Skips .null 0
  | rows (k : Nat) : Skips (.int k) k

/-- Which rows are kept: all of them, or a number of them from the start or from the end. -/
inductive Takes : Value → Bool → (List Row → List Row) → Prop where
  | all : Takes .null false id
  | first {n : Nat} (least : 1 ≤ n) : Takes (.int n) false (List.take n)
  | last {n : Nat} (least : 1 ≤ n) : Takes (.int (-n)) true (fun rows => (rows.take n).reverse)

variable {e : Entity} {d : Direction} {nulls : Option NullPlacement} {take skip : Value} {cursor : Option Predicate} {k : Nat}
  {backwards : Bool} {cut : List Row → List Row}

theorem keyedValid (found : e.field? e.primaryKey.name = some e.primaryKey) (takes : Takes take backwards cut)
    (skips : Skips skip k)
    (own : ∀ p ∈ cursor, p.entity = .text e.name) : (keyed e d nulls take skip cursor).validate e = .ok () := by
  have named : e.fieldNamed (.text e.primaryKey.name) = .ok e.primaryKey := by
    change e.field e.primaryKey.name = _
    rw [Entity.field, found]
  have cursors : checkCursor e (keyed e d nulls take skip cursor) = .ok () := by
    cases cursor with
    | none => rfl
    | some p =>
      unfold checkCursor
      change (if p.entity.text? != some e.name then _ else _) = _
      rw [own p rfl]
      simp [Value.text?, keyed, pure, Except.pure]
  have counted : isCount skip ∨ skip = .null := by
    cases skips with
    | none => exact .inr rfl
    | rows k => exact .inl (decide_eq_true (Int.natCast_nonneg k))
  have integers : (integer? take).isSome ∨ take = .null := by
    cases takes with
    | all => exact .inr rfl
    | first | last => exact .inl rfl
  have passed : (!skip.isNull && !isCount skip) = false := by
    rcases counted with count | rfl
    · rw [count, Bool.not_true, Bool.and_false]
    · rfl
  have kept : (!take.isNull && (integer? take).isNone) = false := by
    rcases integers with count | rfl
    · rw [Option.isNone_eq_false_iff.mpr count, Bool.and_false]
    · rfl
  unfold validate
  rw [cursors]
  simp only [keyed, passed, kept, Bool.false_eq_true, if_false, List.forIn_cons, List.forIn_nil, named]
  rfl

theorem keyedBackwards (takes : Takes take backwards cut) : (keyed e d nulls take skip cursor).isBackwards = .ok backwards := by
  unfold isBackwards keyed
  cases takes with
  | all => rfl
  | @first n least =>
    change Except.ok (some (compare (n : Int) 0) == some .lt) = _
    rw [compare_gt_iff_gt.mpr (by omega : (n : Int) > 0)]
    rfl
  | @last n least =>
    change Except.ok (some (compare (-(n : Int)) 0) == some .lt) = _
    rw [compare_lt_iff_lt.mpr (by omega : -(n : Int) < 0)]
    rfl

theorem keyedLimit (takes : Takes take backwards cut) :
    ∃ l, (keyed e d nulls take skip cursor).limit = .ok l ∧
      ∀ rows : List Row, cut rows =
        if backwards then (l.elim rows (Slice.takeTo · rows)).reverse else l.elim rows (Slice.takeTo · rows) := by
  have taken : ∀ (n : Nat) (rows : List Row), Slice.takeTo (.integer n) rows = rows.take n := by
    intro n rows
    rw [Slice.takeTo, Slice.position_ofNat]
  unfold limit keyed
  cases takes with
  | all => exact ⟨none, rfl, fun rows => rfl⟩
  | @first n least =>
    refine ⟨some (.integer n), ?_, fun rows => (taken n rows).symm⟩
    change Except.ok (some (if decide ((n : Int) < 0) then (Number.integer n).neg else .integer n)) = _
    rw [decide_eq_false (by omega), if_neg Bool.false_ne_true]
  | @last n least =>
    refine ⟨some (.integer n), ?_, fun rows => congrArg List.reverse (taken n rows).symm⟩
    change Except.ok (some (if decide (-(n : Int) < 0) then (Number.integer (-n)).neg else .integer (-n))) = _
    rw [decide_eq_true (by omega), if_pos rfl, Number.neg, if_neg (by omega), Int.neg_neg]

theorem keyedApply (takes : Takes take backwards cut) (skips : Skips skip k) (rows : List Row) :
    (keyed e d nulls take skip cursor).apply rows = .ok (cut (rows.drop k)) := by
  have limits : ∃ l, (keyed e d nulls take skip cursor).limit = .ok l ∧ _ := keyedLimit takes
  obtain ⟨l, limited, cuts⟩ := limits
  have passed : ∃ o, bound skip = .ok o ∧ o.elim rows (Slice.dropTo · rows) = rows.drop k := by
    cases skips with
    | none => exact ⟨none, rfl, (List.drop_zero).symm⟩
    | rows k =>
      refine ⟨some (.integer k), rfl, ?_⟩
      change Slice.dropTo (.integer k) rows = _
      rw [Slice.dropTo, Slice.position_ofNat]
  obtain ⟨o, bounded, dropped⟩ := passed
  change (keyed e d nulls take skip cursor).page rows = _
  unfold page
  rw [limited, keyedBackwards takes]
  change (bound skip >>= _) = _
  rw [bounded, cuts, ← dropped]
  cases o <;> cases l <;> cases backwards <;> rfl

/-- The order in which such a window is read: turned round where it is read backwards. -/
theorem keyedOrder (takes : Takes take backwards cut) : (keyed e d nulls take skip cursor).effectiveOrder e =
    .ok [if backwards then OrderSpec.flip ⟨.text e.primaryKey.name, d, nulls⟩ else ⟨.text e.primaryKey.name, d, nulls⟩] := by
  unfold effectiveOrder
  rw [keyedBackwards takes]
  cases backwards <;> rfl

theorem keyedTerms (found : e.field? e.primaryKey.name = some e.primaryKey) :
    orderTerms e [⟨.text e.primaryKey.name, d, nulls⟩] =
      .ok [Store.keyTerm e.primaryKey d (placement ⟨.text e.primaryKey.name, d, nulls⟩)] := by
  have named : e.fieldNamed (.text e.primaryKey.name) = .ok e.primaryKey := by
    change e.field e.primaryKey.name = _
    rw [Entity.field, found]
  unfold orderTerms
  rw [List.mapM_cons, List.mapM_nil, named]
  rfl

end Window

/-- What is asked of an entity and its stored rows to page them: fields of their own names and columns, the primary key among
them, fewer rows than a number counts, and keys to be paged by. -/
structure Entity.Paged (e : Entity) (b : Store) (rows : List Row) : Prop where
  primary : e.primaryKey ∈ e.fields
  names : (e.fields.map (·.name)).Nodup
  columns : (e.fields.map (·.column)).Nodup
  known : Record.get? b.fields e.table = some e.fields
  stored : Record.get? b.tables e.table = some rows
  few : rows.length < 2 ^ 53
  keyed : Store.Keyed e.primaryKey rows

namespace Entity

variable {e : Entity} {b : Store} {rows : List Row} {row : Row}

theorem Paged.found (paged : e.Paged b rows) : e.field? e.primaryKey.name = some e.primaryKey := by
  unfold field?
  cases first : e.fields.find? fun f => f.name == e.primaryKey.name with
  | none => exact absurd (beq_self_eq_true _) (List.find?_eq_none.mp first _ paged.primary)
  | some f =>
    have same := List.find?_some first
    rw [List.inj_on_of_nodup_map paged.names (List.mem_of_find?_eq_some first) paged.primary (eq_of_beq same)]

/-- A cursor on a stored row: the equality with its key. -/
abbrev cursorOn (e : Entity) (row : Row) (unique : Bool) : Predicate :=
  .field e.name e.primaryKey.name (.compare .eq (Row.value row e.primaryKey.column)) unique

/-- The key of a stored row is taken for a cursor, as it is. -/
theorem Paged.cursorMade (paged : e.Paged b rows) (mem : row ∈ rows) :
    ∃ unique, e.compare e.primaryKey .eq (Row.value row e.primaryKey.column) = .ok (e.cursorOn row unique) := by
  have key := paged.keyed.keys row mem
  obtain ⟨form, written, -⟩ := key.written
  have takes : e.primaryKey.type.takes (Row.value row e.primaryKey.column) := by
    rcases key.cases with ⟨width, n, type, same⟩ | ⟨s, same, -⟩
    · rw [type, same]
      unfold Field.ofWidth
      split
      · rename_i wide
        exact wide
      · rfl
    · have pages := key.paged
      rw [same] at form ⊢
      cases type : e.primaryKey.type with
      | text | uuid => rfl
      | integer _ =>
        rw [type] at form
        cases form
      | _ =>
        rw [type] at pages
        cases pages
  have kept : e.primaryKey.misses (Row.value row e.primaryKey.column) = false := by
    have pages := key.paged
    unfold Field.misses
    cases type : e.primaryKey.type with
    | integer _ | text | uuid => exact Bool.and_false _
    | _ =>
      rw [type] at pages
      cases pages
  have operand := Field.operandWritten takes key.keyed.1 kept written
  unfold Entity.compare
  rw [operand]
  exact ⟨_, rfl⟩

theorem Paged.viewKey (paged : e.Paged b rows) (mem : row ∈ rows) (reads : ∃ decoded, e.read row = .ok decoded) :
    Row.value (e.view row) e.primaryKey.name = Row.value row e.primaryKey.column := by
  have key := paged.keyed.keys row mem
  have read := Entity.readKey paged.names paged.columns paged.primary key.keyed.1 key.keyed.2 key.holds
    (Results.eqOkValueOr [] reads)
  exact read.trans (Value.orNullThere key.there)

/-- The rows whose keys meet the key of a stored row begin with one that has that key. -/
theorem Paged.picked (paged : e.Paged b rows) (mem : row ∈ rows) :
    ∃ first others, (rows.filter fun other =>
        Store.meets (Row.value other e.primaryKey.column) (Row.value row e.primaryKey.column)) = first :: others ∧
      first ∈ rows ∧ Row.value first e.primaryKey.column = Row.value row e.primaryKey.column := by
  have key := paged.keyed.keys row mem
  obtain ⟨first, others, picked⟩ : ∃ first others, (rows.filter fun other =>
      Store.meets (Row.value other e.primaryKey.column) (Row.value row e.primaryKey.column)) = first :: others := by
    obtain ⟨x, compared⟩ := key.places
    exact List.exists_cons_of_ne_nil (List.ne_nil_of_mem
      (List.mem_filter.mpr ⟨mem, Store.meetsSelf ⟨key.there, x.1, compared, x.2⟩⟩))
  obtain ⟨listed, met⟩ := List.mem_filter.mp (picked ▸ List.mem_cons_self : first ∈ _)
  have same : Store.keyOrder (Row.value first e.primaryKey.column) (Row.value row e.primaryKey.column) = .eq := by
    obtain ⟨o, ordered, equal⟩ := Results.bindOk (Store.meetsOk met).2.2
    unfold Store.keyOrder
    rw [ordered]
    exact eq_of_beq (Except.ok.inj equal)
  exact ⟨first, others, picked, listed, Store.keyTold (paged.keyed.keys first listed) key same⟩

theorem Paged.projected (paged : e.Paged b rows) (mem : row ∈ rows) :
    Store.project e.fields [e.primaryKey.column] row =
      .ok (Record.put [] e.primaryKey.column (Row.value row e.primaryKey.column)) := by
  have key := paged.keyed.keys row mem
  have returned : Store.returned e.fields e.primaryKey.column (Row.value row e.primaryKey.column) =
      .ok (Row.value row e.primaryKey.column) := by
    rcases key.cases with ⟨width, n, -, same⟩ | ⟨s, same, -⟩
    · rw [same]
      unfold Field.ofWidth
      split <;> rfl
    · rw [same]
      exact Store.returnedText paged.columns paged.primary key.keyed.2 s
  unfold Store.project
  rw [List.foldlM_cons, returned]
  rfl

end Entity

namespace Context

variable {c : Context} {e : Entity} {s : Session Store} {rows : List Row} {row : Row} {d : Direction}
  {nulls : Option NullPlacement}

theorem cursorOwn {unique : Bool} : ∀ p ∈ some (e.cursorOn row unique), p.entity = .text e.name := by
  intro p given
  cases given
  rfl

/-- A cursor on a stored row is resolved to the key of that row. -/
theorem cursorKeyAnswer (paged : e.Paged s.backend rows) (mem : row ∈ rows) (unique : Bool) :
    (c.cursorKey e (e.cursorOn row unique) : Action Store Value).answer s = some (Row.value row e.primaryKey.column) := by
  have key := paged.keyed.keys row mem
  obtain ⟨first, others, picked, listed, held⟩ := paged.picked mem
  have projected := paged.projected listed
  rw [held] at projected
  unfold Entity.cursorOn
  generalize Row.value row e.primaryKey.column = v at key picked projected ⊢
  have matched : s.backend.matching e.table (.compare ⟨e.table, e.primaryKey.column⟩ (.of .eq) v) = .ok (first :: others) := by
    unfold Store.matching Store.rowsOf Store.tableRows
    rw [paged.stored, ← picked]
    refine Results.filterOk fun row mem => ?_
    rw [Store.matchesCompare]
    exact (Field.keysMeet key.keyed.1 key.keyed.2 (paged.keyed.keys row mem).holds key.holds).1
  have selected : s.backend.selectRows
      ⟨e.table, [e.primaryKey.column], .compare ⟨e.table, e.primaryKey.column⟩ (.of .eq) v, [], .int 1, .null⟩ =
        .ok [Record.put [] e.primaryKey.column v] := by
    have known : s.backend.fieldsOf e.table = .ok e.fields := by
      unfold Store.fieldsOf
      rw [paged.known]
    rw [Store.selectOne, matched, known]
    show List.mapM (Store.project e.fields [e.primaryKey.column]) [first] = _
    rw [List.mapM_cons, List.mapM_nil, projected]
    rfl
  unfold cursorKey
  rw [show c.condition e _ = _ from Predicate.equalityCompiles paged.found key.there]
  show Action.answer (c.select _ >>= _) s = _
  rw [selectAnswered _ fun rows => .pure _, selected]
  show some (Row.value (Record.put [] e.primaryKey.column v) e.primaryKey.column).orNull = _
  rw [Row.valuePut, Value.orNullThere key.there]

/-- The condition that a row comes after a key in an order. -/
def afterKey (e : Entity) (d : Direction) (v : Value) : Condition :=
  .compare (e.ref e.primaryKey.column) (.of (if d.ascends then .gt else .lt)) v

theorem withCursorReached (paged : e.Paged s.backend rows) (mem : row ∈ rows) (unique : Bool) {w : Window}
    (given : w.cursor = some (e.cursorOn row unique))
    (spec : OrderSpec) : (c.withCursor e [] w [spec] : Action Store (Option (List Condition))).answer s =
      some (some [afterKey e spec.direction (Row.value row e.primaryKey.column)]) := by
  have conditioned : (c.cursorCondition e (e.cursorOn row unique) [spec] : Action Store (Option Condition)).answer s =
      some (some (afterKey e spec.direction (Row.value row e.primaryKey.column))) := by
    unfold cursorCondition
    rw [(c.cursorKeyWrites e _).answerBind fun key => ?_, cursorKeyAnswer paged mem unique]
    · dsimp only [Option.bind_some]
      rw [(paged.keyed.keys row mem).there, if_neg Bool.false_ne_true]
      rfl
    · split
      · exact .bind (.tell _ _) fun _ => .pure _
      · exact .pure _
  unfold withCursor
  rw [given]
  show Action.answer (c.cursorCondition e _ [spec] >>= _) s = _
  rw [(c.cursorConditionWrites e _ _).answerBind fun _ => .pure _, conditioned]
  rfl

theorem afterTruth {tables : Store.Tables} {v : Value} {other : Row} (known : d.isKnown) (key : e.primaryKey.PageKey v)
    (held : e.primaryKey.PageKey (Row.value other e.primaryKey.column)) :
    Condition.HasTruth tables [(e.table, other)] (afterKey e d v)
      (.known (Store.leads d v (Row.value other e.primaryKey.column))) := by
  refine ⟨rfl, ?_, nofun⟩
  obtain ⟨x, hx⟩ := held.places
  obtain ⟨y, hy⟩ := key.places
  have compared : Store.evaluate tables [(e.table, other)] (afterKey e d v) =
      Store.compareTruth (.of (if d.ascends then .gt else .lt)) (Row.value other e.primaryKey.column) v := by
    unfold afterKey Entity.ref
    rw [Store.evaluate, Store.readColumn]
    rfl
  rw [compared]
  unfold Store.compareTruth Store.leads
  rw [held.there, key.there, Bool.or_self, if_neg Bool.false_ne_true, (Store.keyOrdered hx hy).1, Store.keySwap key held]
  cases d with
  | foreign name => cases known
  | ascending | descending => cases Store.keyOrder (Row.value other e.primaryKey.column) v <;> rfl

/-- Of the rows that a list of predicates picks, those after a key are the ones that its condition and that of the key pick. -/
theorem afterMatched (paged : e.Paged s.backend rows) (mem : row ∈ rows) {condition : Condition} (plain : condition.Plain)
    {found : List Row} (matched : s.backend.matching e.table (.conjunction [condition]) = .ok found) (known : d.isKnown) :
    s.backend.matching e.table (.conjunction [condition, afterKey e d (Row.value row e.primaryKey.column)]) =
      .ok (found.filter (Store.before e.primaryKey d row)) := by
  unfold Store.matching Store.rowsOf Store.tableRows at matched ⊢
  rw [paged.stored] at matched ⊢
  have passed : ∀ other ∈ rows, Store.matchesRow s.backend.tables e.table (.conjunction [condition]) other =
      .ok (Store.isMatch s.backend.tables e.table (.conjunction [condition]) other) := fun other listed =>
    Results.eqOkValueOr false (Results.filterItems matched other listed)
  obtain rfl := Except.ok.inj ((Results.filterOk passed).symm.trans matched)
  have both : ∀ other ∈ rows, Store.matchesRow s.backend.tables e.table
      (.conjunction [condition, afterKey e d (Row.value row e.primaryKey.column)]) other =
        .ok (Store.before e.primaryKey d row other && Store.isMatch s.backend.tables e.table (.conjunction [condition]) other) := by
    intro other listed
    obtain ⟨t, truth, same⟩ := Store.plainMatches plain (passed other listed)
    rw [Store.matchesBoth truth (afterTruth known (paged.keyed.keys row mem) (paged.keyed.keys other listed)), same, Bool.and_comm]
    unfold Store.before
    cases Store.leads d (Row.value row e.primaryKey.column) (Row.value other e.primaryKey.column) <;> rfl
  rw [List.filter_filter]
  exact Results.filterOk both

/-- The rows that a list of predicates picks, in a window. -/
def findMany {σ : Type} [Backend σ] (c : Context) (e : Entity) (filter : List Predicate) (w : Window) : Action σ (List Row) :=
  c.find e ⟨filter, w, []⟩ w.take

variable {filter : List Predicate} {w : Window} {condition : Condition} {order : List OrderSpec} {after : List Condition}
  {found listed : List Row}

theorem findManyWrites {may : WriteStatement → Prop} : Writes may (c.findMany e filter w : Action Store (List Row)) :=
  c.findWrites e _ _

theorem findManyRead : (c.findMany e filter w : Action Store (List Row)) = (do
    let condition ← c.condition e filter
    c.readRows e condition w) := by
  unfold findMany find
  refine congrArg _ (funext fun condition => ?_)
  show (c.readRows e condition w >>= fun rows => c.loadIncludes e [] rows) = _
  simp only [withoutIncludes, bind_pure]

theorem findManySteps (compiled : c.condition e filter = .ok condition) (valid : w.validate e = .ok ())
    (ordered : w.effectiveOrder e = .ok order)
    (reached : (c.withCursor e [] w order : Action Store (Option (List Condition))).answer s = some (some after)) :
    (c.findMany e filter w : Action Store (List Row)).answer s = (c.readWindow e w order (condition :: after)).answer s := by
  have later : ∀ conditions : Option (List Condition),
      Writes (fun _ => False) (conditions.elim (pure []) (c.readWindow e w order)) := by
    intro conditions
    cases conditions with
    | none => exact .pure _
    | some conditions => exact c.readWindowWrites e w order conditions
  rw [findManyRead, liftAnswered, compiled]
  show (c.readRows e condition w : Action Store (List Row)).answer s = _
  rw [readRowsSteps, liftAnswered, valid]
  show Action.answer _ s = _
  rw [liftAnswered, ordered]
  show Action.answer _ s = _
  rw [(c.withCursorWrites e _ w order).answerBind later, withCursorAnswer, reached]
  rfl

/-- What a list of all rows that are picked tells: its condition is true of some rows, and those can be read. -/
theorem findManyPicks (paged : e.Paged s.backend rows)
    (answered : (c.findMany e filter (Window.keyed e d nulls .null .null none) : Action Store (List Row)).answer s = some listed) :
    ∃ condition found, c.condition e filter = .ok condition ∧
      s.backend.matching e.table (.conjunction [condition]) = .ok found ∧ found.Sublist rows ∧
      ∀ row ∈ found, ∃ decoded, e.read row = .ok decoded := by
  cases compiled : c.condition e filter with
  | error f =>
    rw [findManyRead, liftAnswered, compiled] at answered
    cases answered
  | ok condition =>
    have nobody : ∀ p ∈ (none : Option Predicate), p.entity = .text e.name := nofun
    have valid : (Window.keyed e d nulls .null .null none).validate e = .ok () := Window.keyedValid paged.found .all .none nobody
    rw [findManySteps compiled valid (Window.keyedOrder .all) rfl] at answered
    unfold readWindow at answered
    rw [liftAnswered, if_neg Bool.false_ne_true, Window.keyedTerms paged.found] at answered
    have done : ∀ decoded : List Row, Writes (fun _ => False) (do
        if ← (Window.keyed e d nulls .null .null none).isBackwards then pure decoded.reverse else pure decoded :
          Action Store (List Row)) := by
      refine fun decoded => .liftBind fun backwards _ => ?_
      split <;> exact .pure _
    change (c.select ⟨e.table, e.columns, .conjunction [condition], _, .null, .null⟩ >>= fun rows => do
      let decoded ← rows.mapM fun row => (e.decodeRow row : Except Failure Row)
      if ← (Window.keyed e d nulls .null .null none).isBackwards then pure decoded.reverse else pure decoded :
        Action Store (List Row)).answer s = some listed at answered
    rw [selectDecoded _ done] at answered
    obtain ⟨decoded, ran, -⟩ := Option.bind_eq_some_iff.mp answered
    obtain ⟨found, matched, inside, reads⟩ := Store.selectReads paged.known paged.stored paged.keyed.ranks (Results.toOptionOk ran)
    exact ⟨condition, found, rfl, matched, inside, reads⟩

section Answers

variable {take skip : Value} {cursor : Option Predicate} {backwards : Bool} {cut : List Row → List Row} {k : Nat} {p : Row → Bool}

/-- What a window in the order of a primary key answers, of the rows that the list of predicates picks and the cursor leaves. -/
theorem windowAnswer (d : Direction) (nulls : Option NullPlacement) (turned : OrderSpec)
    (named : e.field? e.primaryKey.name = some e.primaryKey)
    (columns : Record.get? s.backend.fields e.table = some e.fields) (reads : ∀ row ∈ found, ∃ decoded, e.read row = .ok decoded)
    (few : found.length < 2 ^ 53)
    (ranks : ∀ row ∈ found, Store.Ranks [Store.keyTerm e.primaryKey turned.direction (Window.placement turned)] row)
    (takes : Window.Takes take backwards cut) (skips : Window.Skips skip k) (own : ∀ q ∈ cursor, q.entity = .text e.name)
    (compiled : c.condition e filter = .ok condition)
    (order : turned =
      if backwards then OrderSpec.flip ⟨.text e.primaryKey.name, d, nulls⟩ else ⟨.text e.primaryKey.name, d, nulls⟩)
    (reached : (c.withCursor e [] (Window.keyed e d nulls take skip cursor) [turned] :
      Action Store (Option (List Condition))).answer s =
      some (some after))
    (matched : s.backend.matching e.table (.conjunction (condition :: after)) = .ok (found.filter p)) :
    (c.findMany e filter (Window.keyed e d nulls take skip cursor) : Action Store (List Row)).answer s =
      some (cut ((((Store.ranked [Store.keyTerm e.primaryKey turned.direction (Window.placement turned)] found).filter
        p).map e.view).drop k)) := by
  have valid : (Window.keyed e d nulls take skip cursor).validate e = .ok () := Window.keyedValid named takes skips own
  have ordered : (Window.keyed e d nulls take skip cursor).effectiveOrder e = .ok [turned] := by
    rw [order]
    exact Window.keyedOrder takes
  have terms : Window.orderTerms e [turned] = .ok [Store.keyTerm e.primaryKey turned.direction (Window.placement turned)] := by
    subst order
    cases backwards with
    | true => exact Window.keyedTerms named
    | false => exact Window.keyedTerms named
  have picked : s.backend.matching e.table (.conjunction (condition :: after)) =
    (Except.ok found : Except Failure (List Row)).map (List.filter p) :=
    matched
  rw [findManySteps compiled valid ordered reached,
    readWindowAnswer columns reads few valid (fun ts found row mem => ?_) (fun l found => ?_) picked, terms]
  · show (Window.apply _ _).toOption = _
    rw [Window.keyedApply takes skips]
    rfl
  · obtain rfl := Except.ok.inj (terms.symm.trans found)
    exact ranks row mem
  · obtain rfl := Except.ok.inj found
    exact List.Sublist.refl _

theorem keyedAnswer (d : Direction) (nulls : Option NullPlacement) (turned : OrderSpec) (paged : e.Paged s.backend rows)
    (inside : found.Sublist rows) (reads : ∀ row ∈ found, ∃ decoded, e.read row = .ok decoded)
    (takes : Window.Takes take backwards cut) (skips : Window.Skips skip k) (own : ∀ q ∈ cursor, q.entity = .text e.name)
    (compiled : c.condition e filter = .ok condition)
    (order : turned =
      if backwards then OrderSpec.flip ⟨.text e.primaryKey.name, d, nulls⟩ else ⟨.text e.primaryKey.name, d, nulls⟩)
    (reached : (c.withCursor e [] (Window.keyed e d nulls take skip cursor) [turned] :
      Action Store (Option (List Condition))).answer s =
      some (some after))
    (matched : s.backend.matching e.table (.conjunction (condition :: after)) = .ok (found.filter p)) :
    (c.findMany e filter (Window.keyed e d nulls take skip cursor) : Action Store (List Row)).answer s =
      some (cut ((((Store.ranked [Store.keyTerm e.primaryKey turned.direction (Window.placement turned)] found).filter
        p).map e.view).drop k)) :=
  windowAnswer d nulls turned paged.found paged.known reads (lt_of_le_of_lt inside.length_le paged.few)
    (paged.keyed.sublist inside).ranks takes skips own compiled order reached matched

end Answers

/-- The stored rows that a list of predicates picks, and what is read of them in the order of their keys. -/
structure Lists (c : Context) (e : Entity) (filter : List Predicate) (d : Direction) (nulls : Option NullPlacement)
    (s : Session Store)
    (rows : List Row) (condition : Condition) (found listed : List Row) : Prop where
  paged : e.Paged s.backend rows
  known : d.isKnown
  plain : condition.Plain
  compiled : c.condition e filter = .ok condition
  matched : s.backend.matching e.table (.conjunction [condition]) = .ok found
  inside : found.Sublist rows
  reads : ∀ row ∈ found, ∃ decoded, e.read row = .ok decoded
  whole : listed =
    (Store.ranked [Store.keyTerm e.primaryKey d (Window.placement ⟨.text e.primaryKey.name, d, nulls⟩)] found).map e.view

/-- The key of a row that was read. -/
abbrev keyOf (e : Entity) (out : Row) : Value := Row.value out e.primaryKey.name

theorem listsOf (paged : e.Paged s.backend rows) (typed : Predicate.AreTyped filter) (known : d.isKnown)
    (answered : (c.findMany e filter (Window.keyed e d nulls .null .null none) : Action Store (List Row)).answer s = some listed) :
    ∃ condition found, c.Lists e filter d nulls s rows condition found listed := by
  obtain ⟨condition, found, compiled, matched, inside, reads⟩ := findManyPicks paged answered
  have all : s.backend.matching e.table (.conjunction [condition]) = .ok (found.filter fun _ => true) := by
    rw [matched, List.filter_true]
  have nobody : ∀ p ∈ (none : Option Predicate), p.entity = .text e.name := nofun
  have whole := keyedAnswer d nulls ⟨.text e.primaryKey.name, d, nulls⟩ paged inside reads .all .none nobody compiled rfl rfl all
  rw [answered, List.filter_true, List.drop_zero] at whole
  exact ⟨condition, found, paged, known, Predicate.plainCompiled typed compiled, compiled, matched, inside, reads,
    Option.some.inj whole⟩

variable {n k : Nat} {skip : Value}

/-- Pages of rows that are read one after another, each after a cursor on the last row of the one before, until a page is
empty; none if there are more pages than are allowed. -/
def readPages {σ : Type} [Backend σ] (c : Context) (e : Entity) (filter : List Predicate) (w : Window) (n : Nat) :
    Nat → Option Predicate → Action σ (Option (List Row))
  | 0, _ => return none
  | allowed + 1, cursor => do
    let page ← c.findMany e filter { w with take := .int n, cursor }
    match page.getLast? with
    | none => return some []
    | some last =>
      let next ← e.compare e.primaryKey .eq (keyOf e last)
      return (← c.readPages e filter w n allowed (some next)).map (page ++ ·)

theorem readPagesWrites {may : WriteStatement → Prop} (allowed : Nat) (cursor : Option Predicate) :
    Writes may (c.readPages e filter w n allowed cursor : Action Store (Option (List Row))) := by
  induction allowed generalizing cursor with
  | zero => exact .pure none
  | succ allowed ih =>
    unfold readPages
    refine .bind findManyWrites fun page => ?_
    split
    · exact .pure _
    · exact .liftBind fun next _ => .bind (ih _) fun rest => .pure _

theorem readPagesStep (allowed : Nat) (cursor : Option Predicate) :
    (c.readPages e filter w n (allowed + 1) cursor : Action Store (Option (List Row))).answer s =
      ((c.findMany e filter { w with take := .int n, cursor } : Action Store (List Row)).answer s).bind fun page =>
        page.getLast?.elim (some (some [])) fun last =>
          (e.compare e.primaryKey .eq (keyOf e last)).toOption.bind fun next =>
            ((c.readPages e filter w n allowed (some next) : Action Store (Option (List Row))).answer s).map
              (Option.map (page ++ ·)) := by
  rw [readPages, findManyWrites.answerBind fun page => ?_]
  · refine congrArg _ (funext fun page => ?_)
    cases page.getLast? with
    | none => rfl
    | some last =>
      dsimp only [Option.elim_some]
      rw [liftAnswered]
      refine congrArg _ (funext fun next => ?_)
      rw [(readPagesWrites allowed _).answerBind fun rest => .pure _]
      cases (c.readPages e filter w n allowed (some next) : Action Store (Option (List Row))).answer s <;> rfl
  · split
    · exact .pure _
    · exact .liftBind fun next _ => .bind (readPagesWrites allowed _) fun rest => .pure _

section Listed

variable (lists : c.Lists e filter d nulls s rows condition found listed)

include lists

theorem Lists.filtered (q : Value → Bool) : listed.filter (fun out => q (keyOf e out)) =
    ((Store.ranked [Store.keyTerm e.primaryKey d (Window.placement ⟨.text e.primaryKey.name, d, nulls⟩)] found).filter fun row =>
      q (Row.value row e.primaryKey.column)).map e.view := by
  rw [lists.whole, List.filter_map]
  refine congrArg (List.map e.view) (List.filter_congr fun row ranked => ?_)
  have mem := (List.mergeSort_perm found _).mem_iff.mp ranked
  show q (Row.value (e.view row) e.primaryKey.name) = _
  rw [lists.paged.viewKey (lists.inside.subset mem) (lists.reads row mem)]

theorem Lists.ordered : listed.Pairwise fun p q => Store.leads d (keyOf e p) (keyOf e q) := by
  have keyed := lists.paged.keyed.sublist lists.inside
  rw [lists.whole, List.pairwise_map]
  refine (Store.rankedBefore lists.known keyed).imp_of_mem fun {a b} ha hb before => ?_
  have memA := (List.mergeSort_perm found _).mem_iff.mp ha
  have memB := (List.mergeSort_perm found _).mem_iff.mp hb
  unfold keyOf
  rw [lists.paged.viewKey (lists.inside.subset memA) (lists.reads a memA),
    lists.paged.viewKey (lists.inside.subset memB) (lists.reads b memB)]
  exact before

theorem Lists.stored {out : Row} (mem : out ∈ listed) : ∃ row ∈ rows, Row.value row e.primaryKey.column = keyOf e out := by
  rw [lists.whole] at mem
  obtain ⟨row, ranked, rfl⟩ := List.mem_map.mp mem
  have member := (List.mergeSort_perm found _).mem_iff.mp ranked
  exact ⟨row, lists.inside.subset member, (lists.paged.viewKey (lists.inside.subset member) (lists.reads row member)).symm⟩

theorem Lists.firstPage (least : 1 ≤ n) :
    (c.findMany e filter (Window.keyed e d nulls (.int n) .null none) : Action Store (List Row)).answer s =
      some (listed.take n) := by
  have all : s.backend.matching e.table (.conjunction [condition]) = .ok (found.filter fun _ => true) := by
    rw [lists.matched, List.filter_true]
  have nobody : ∀ p ∈ (none : Option Predicate), p.entity = .text e.name := nofun
  rw [keyedAnswer d nulls ⟨.text e.primaryKey.name, d, nulls⟩ lists.paged lists.inside lists.reads (.first least) .none nobody
    lists.compiled rfl rfl all, List.filter_true, List.drop_zero, lists.whole]

variable {row : Row} {unique : Bool}

theorem Lists.pageAfter (mem : row ∈ rows) (least : 1 ≤ n) (skips : Window.Skips skip k) :
    (c.findMany e filter (Window.keyed e d nulls (.int n) skip (some (e.cursorOn row unique))) : Action Store (List Row)).answer s =
      some (((listed.filter fun out => Store.leads d (Row.value row e.primaryKey.column) (keyOf e out)).drop k).take n) := by
  rw [keyedAnswer d nulls ⟨.text e.primaryKey.name, d, nulls⟩ lists.paged lists.inside lists.reads (.first least) skips cursorOwn
    lists.compiled rfl (withCursorReached lists.paged mem unique rfl _)
    (afterMatched lists.paged mem lists.plain lists.matched lists.known),
    lists.filtered (Store.leads d (Row.value row e.primaryKey.column))]
  rfl

theorem Lists.pageBefore (mem : row ∈ rows) (least : 1 ≤ n) (skips : Window.Skips skip k) :
    (c.findMany e filter (Window.keyed e d nulls (.int (-n)) skip (some (e.cursorOn row unique))) :
      Action Store (List Row)).answer s =
      some (((listed.filter fun out => Store.leads d (keyOf e out) (Row.value row e.primaryKey.column)).rdrop k).rtake n) := by
  let spec : OrderSpec := ⟨.text e.primaryKey.name, d, nulls⟩
  have keyed := lists.paged.keyed.sublist lists.inside
  -- the rows are read in the order turned around, and their page is turned back
  have reversed : Store.ranked [Store.keyTerm e.primaryKey d.flip (Window.placement spec.flip)] found =
      (Store.ranked [Store.keyTerm e.primaryKey d (Window.placement spec)] found).reverse := Store.rankedFlip lists.known keyed
  have kept : (Store.ranked [Store.keyTerm e.primaryKey d.flip (Window.placement spec.flip)] found).filter
    (Store.before e.primaryKey d.flip row) =
      ((Store.ranked [Store.keyTerm e.primaryKey d (Window.placement spec)] found).filter fun other =>
        Store.leads d (Row.value other e.primaryKey.column) (Row.value row e.primaryKey.column)).reverse := by
    rw [reversed, List.filter_reverse]
    refine congrArg List.reverse (List.filter_congr fun other ranked => ?_)
    have listed := (List.mergeSort_perm found _).mem_iff.mp ranked
    exact Store.leadsFlip lists.known (lists.paged.keyed.keys row mem) (keyed.keys other listed)
  rw [keyedAnswer d nulls spec.flip lists.paged lists.inside lists.reads (.last least) skips cursorOwn lists.compiled rfl
    (withCursorReached lists.paged mem unique rfl _)
    (afterMatched lists.paged mem lists.plain lists.matched (Direction.flipKnown lists.known))]
  show some (List.reverse (List.take n (List.drop k (List.map e.view (List.filter (Store.before e.primaryKey d.flip row)
    (Store.ranked [Store.keyTerm e.primaryKey d.flip (Window.placement spec.flip)] found)))))) = _
  rw [kept, List.map_reverse, lists.filtered (Store.leads d · (Row.value row e.primaryKey.column)),
    List.rtake_eq_reverse_take_reverse,
    List.rdrop_eq_reverse_drop_reverse, List.reverse_reverse]

theorem Lists.keys {out : Row} (mem : out ∈ listed) : e.primaryKey.PageKey (keyOf e out) := by
  obtain ⟨row, listed, same⟩ := lists.stored mem
  rw [← same]
  exact lists.paged.keyed.keys row listed

theorem Lists.restAfter {before rest : List Row} {last : Row} (whole : listed = before ++ last :: rest) :
    (listed.filter fun out => Store.leads d (keyOf e last) (keyOf e out)) = rest := by
  have ordered := lists.ordered
  have keys : ∀ out ∈ before ++ last :: rest, e.primaryKey.PageKey (keyOf e out) := whole ▸ fun out => lists.keys
  rw [whole] at ordered ⊢
  have own := keys last (List.mem_append_right _ List.mem_cons_self)
  exact Sorting.filterAfter ordered (Store.leadsSelf own) fun a mem => Store.leadsAsymm (keys a (List.mem_append_left _ mem)) own

/-- By induction on the pages: where a page begins the rest of the list, it and the pages after it are that rest. -/
theorem Lists.pagesFrom (least : 1 ≤ n) {allowed : Nat} {cursor : Option Predicate} {before rest : List Row}
    (whole : listed = before ++ rest)
    (page : (c.findMany e filter (Window.keyed e d nulls (.int n) .null cursor) : Action Store (List Row)).answer s =
      some (rest.take n))
    (enough : rest.length < allowed) :
    (c.readPages e filter (Window.keyed e d nulls .null .null none) n allowed cursor : Action Store (Option (List Row))).answer s =
      some (some rest) := by
  induction allowed generalizing cursor before rest with
  | zero => omega
  | succ allowed ih =>
    have given : (c.findMany e filter { Window.keyed e d nulls .null .null none with take := .int n, cursor } :
      Action Store (List Row)).answer s =
      some (rest.take n) := page
    rw [readPagesStep, given, Option.bind_some]
    cases ended : (rest.take n).getLast? with
    | none =>
      have none : rest = [] := by
        rcases List.take_eq_nil_iff.mp (List.getLast?_eq_none_iff.mp ended) with zero | nil
        · omega
        · exact nil
      rw [none]
      rfl
    | some last =>
      obtain ⟨init, split⟩ := List.getLast?_eq_some_iff.mp ended
      have cut : rest = init ++ last :: rest.drop n := by
        calc rest = rest.take n ++ rest.drop n := (List.take_append_drop n rest).symm
          _ = init ++ last :: rest.drop n := by rw [split, List.append_assoc, List.singleton_append]
      have parts : listed = (before ++ init) ++ last :: rest.drop n := by rw [List.append_assoc, ← cut, whole]
      -- the cursor is looked up again, by the key that the last row was read with
      obtain ⟨row, mem, same⟩ := lists.stored (parts ▸ List.mem_append_right _ List.mem_cons_self)
      obtain ⟨unique, made⟩ := lists.paged.cursorMade mem
      have next : (c.findMany e filter (Window.keyed e d nulls (.int n) .null (some (e.cursorOn row unique))) :
        Action Store (List Row)).answer s =
        some _ := lists.pageAfter mem least .none
      rw [same, lists.restAfter parts, List.drop_zero] at next
      -- no page but the last is empty, so the rest gets shorter
      have fewer : (rest.drop n).length < allowed := by
        have length := congrArg List.length cut
        rw [List.length_append, List.length_cons] at length
        omega
      have follows := ih (parts.trans (List.append_cons _ _ _)) next fewer
      rw [Option.elim_some, ← same, made]
      show Option.map _ ((c.readPages e filter _ n allowed (some (e.cursorOn row unique)) :
        Action Store (Option (List Row))).answer s) = _
      rw [follows]
      show some (some (rest.take n ++ rest.drop n)) = _
      rw [List.take_append_drop]

end Listed

/-- Reading page after page loses and repeats nothing: the pages of a list of predicates in the order of the keys, each after
the last row of the one before, are together what is listed at once, and a page after or before any stored row, some rows
passed over, is the part of that list which begins or ends so many rows from it. -/
theorem pagesWhole (paged : e.Paged s.backend rows) (typed : Predicate.AreTyped filter) (known : d.isKnown)
    (answered : (c.findMany e filter (Window.keyed e d nulls .null .null none) : Action Store (List Row)).answer s = some listed) :
    (listed.Pairwise fun p q => Store.leads d (keyOf e p) (keyOf e q)) ∧
      (∀ n allowed, 1 ≤ n → listed.length < allowed →
        (c.readPages e filter (Window.keyed e d nulls .null .null none) n allowed none :
          Action Store (Option (List Row))).answer s =
          some (some listed)) ∧
      ∀ row ∈ rows, ∃ cursor, e.compare e.primaryKey .eq (Row.value row e.primaryKey.column) = .ok cursor ∧
        ∀ skip n : Nat, 1 ≤ n →
          (c.findMany e filter (Window.keyed e d nulls (.int n) (.int skip) (some cursor)) : Action Store (List Row)).answer s =
            some (((listed.filter fun out => Store.leads d (Row.value row e.primaryKey.column) (keyOf e out)).drop skip).take n) ∧
          (c.findMany e filter (Window.keyed e d nulls (.int (-n)) (.int skip) (some cursor)) : Action Store (List Row)).answer s =
            some (((listed.filter fun out =>
              Store.leads d (keyOf e out) (Row.value row e.primaryKey.column)).rdrop skip).rtake n) := by
  obtain ⟨condition, found, lists⟩ := listsOf paged typed known answered
  refine ⟨lists.ordered, fun n allowed least enough => ?_, fun row mem => ?_⟩
  · exact lists.pagesFrom least (List.nil_append listed).symm (lists.firstPage least) enough
  · obtain ⟨unique, made⟩ := paged.cursorMade mem
    exact ⟨_, made, fun skip n least => ⟨lists.pageAfter mem least (.rows skip), lists.pageBefore mem least (.rows skip)⟩⟩

end Context

namespace Sample

/-- Users of whom two lead nobody. -/
def followers : List Row := [row 2 (.text "bob") (.int 1), row 1 (.text "Ann") .null, row 3 .null (.int 1)]

/-- Users who are led by another. -/
def led : List Predicate := [.field "User" "lead" (.null true) false]

theorem followersPaged : user.Paged (session false followers [] []).backend followers where
  primary := List.mem_cons_self
  names := by decide
  columns := by decide
  known := rfl
  stored := rfl
  few := by decide
  keyed := {
    keys := by
      simp only [followers, List.forall_mem_cons]
      exact ⟨⟨rfl, rfl, .inr ⟨rfl, nofun⟩⟩, ⟨rfl, rfl, .inr ⟨rfl, nofun⟩⟩, ⟨rfl, rfl, .inr ⟨rfl, nofun⟩⟩,
        List.forall_mem_nil _⟩
    apart := by
      show [Value.int 2, Value.int 1, Value.int 3].Nodup
      simp [Value.int] }

theorem ledTyped : Predicate.AreTyped led := by
  simp [led, Predicate.AreTyped, Predicate.IsTyped, FieldTest.IsTyped]

theorem ledListed : ((⟨registry, .pooled⟩ : Context).findMany user led (Window.keyed user .descending none .null .null none) :
    Action Store (List Row)).answer (session false followers [] []) =
      some [[("id", .int 3), ("name", .null), ("lead", .int 1)], [("id", .int 2), ("name", .text "bob"), ("lead", .int 1)]] := by
  have inside : [row 2 (.text "bob") (.int 1), row 3 .null (.int 1)].Sublist followers :=
    .cons_cons _ (.cons _ (.cons_cons _ .slnil))
  have reads : ∀ stored ∈ [row 2 (.text "bob") (.int 1), row 3 .null (.int 1)], ∃ decoded, user.read stored = .ok decoded := by
    simp only [List.forall_mem_cons]
    exact ⟨⟨_, rfl⟩, ⟨_, rfl⟩, nofun⟩
  have nobody : ∀ p ∈ (none : Option Predicate), p.entity = .text user.name := nofun
  have sorted : Store.ranked [Store.keyTerm idField .descending none] [row 2 (.text "bob") (.int 1), row 3 .null (.int 1)] =
      [row 3 .null (.int 1), row 2 (.text "bob") (.int 1)] :=
    Store.rankedOnly rfl (followersPaged.keyed.sublist inside) (.swap _ _ _) (by simp [Store.before]; rfl)
  rw [Context.keyedAnswer .descending none ⟨.text "id", .descending, none⟩ followersPaged inside reads .all .none nobody rfl rfl rfl
    (p := fun _ => true) rfl]
  show some ((((Store.ranked [Store.keyTerm idField .descending none]
    [row 2 (.text "bob") (.int 1), row 3 .null (.int 1)]).filter fun _ => true).map user.view).drop 0) = _
  rw [sorted]
  rfl

/-- Users who are led by another are read in pages of one, the greatest key first, and before a user who is not led there are
two. -/
theorem followersWhole : user.Paged (session false followers [] []).backend followers ∧ Predicate.AreTyped led ∧
    Direction.descending.isKnown ∧
    ∃ listed, listed.length = 2 ∧
      ((⟨registry, .pooled⟩ : Context).findMany user led (Window.keyed user .descending none .null .null none) :
        Action Store (List Row)).answer
        (session false followers [] []) = some listed ∧
      ((⟨registry, .pooled⟩ : Context).readPages user led (Window.keyed user .descending none .null .null none) 1 3 none :
        Action Store (Option (List Row))).answer (session false followers [] []) = some (some listed) ∧
      ∃ cursor, user.compare user.primaryKey .eq (.int 1) = .ok cursor ∧
        ((⟨registry, .pooled⟩ : Context).findMany user led
          (Window.keyed user .descending none (.int (-(2 : Nat))) (.int (0 : Nat)) (some cursor)) :
          Action Store (List Row)).answer (session false followers [] []) =
            some (((listed.filter fun out => Store.leads .descending (Context.keyOf user out) (.int 1)).rdrop 0).rtake 2) := by
  obtain ⟨-, pages, cursors⟩ := Context.pagesWhole followersPaged ledTyped rfl ledListed
  obtain ⟨cursor, made, parts⟩ := cursors (row 1 (.text "Ann") .null) (by simp [followers])
  exact ⟨followersPaged, ledTyped, rfl, _, rfl, ledListed, pages 1 3 (by decide) (by decide), cursor, made,
    (parts 0 2 (by decide)).2⟩

/-- Keys of one byte. -/
def tally : Entity :=
  { name := "Tally", table := "tallies", primaryKey := { idField with type := .integer .i8 },
    fields := [{ idField with type := .integer .i8 }], relations := [], foreignKeyFields := [], foreignKeyTypes := [] }

/-- A key that was counted past the greatest one of its type. -/
def overflown : Session Store :=
  .start
    { fields := [("tallies", tally.fields)], tables := [("tallies", [[("id", .int 128)]])], sequences := [], journal := [],
      inTransaction := false, commits := 0, rollbacks := 0 }

/-- Such a key is listed, and refused as a cursor. -/
theorem pagesEndEarly :
    ((⟨⟨[tally], []⟩, .pooled⟩ : Context).findMany tally [] (Window.keyed tally .ascending none .null .null none) :
      Action Store (List Row)).answer
        overflown = some [[("id", .int 128)]] ∧
      ∀ allowed, ((⟨⟨[tally], []⟩, .pooled⟩ : Context).readPages tally []
        (Window.keyed tally .ascending none .null .null none) 1 allowed none :
        Action Store (Option (List Row))).answer overflown ≠ some (some [[("id", .int 128)]]) := by
  have nobody : ∀ p ∈ (none : Option Predicate), p.entity = .text tally.name := nofun
  have reads : ∀ stored ∈ [[("id", Value.int 128)]], ∃ decoded, tally.read stored = .ok decoded :=
    List.forall_mem_singleton.mpr ⟨_, rfl⟩
  have ranks : ∀ stored ∈ [[("id", Value.int 128)]], Store.Ranks [Store.keyTerm tally.primaryKey .ascending none] stored :=
    List.forall_mem_singleton.mpr (List.forall_mem_singleton.mpr ⟨_, rfl, rfl⟩)
  have alone : Store.ranked [Store.keyTerm tally.primaryKey .ascending none] [[("id", .int 128)]] = [[("id", .int 128)]] :=
    List.mergeSort_singleton _
  have answered : ∀ {take : Value} {cut : List Row → List Row}, Window.Takes take false cut →
      ((⟨⟨[tally], []⟩, .pooled⟩ : Context).findMany tally [] (Window.keyed tally .ascending none take .null none) :
        Action Store (List Row)).answer
        overflown = some (cut [[("id", .int 128)]]) := by
    intro take cut takes
    rw [Context.windowAnswer .ascending none ⟨.text "id", .ascending, none⟩ rfl rfl reads (by decide) ranks takes
      .none nobody rfl rfl rfl (p := fun _ => true) rfl]
    show some (cut ((((Store.ranked [Store.keyTerm tally.primaryKey .ascending none] [[("id", .int 128)]]).filter fun _ => true).map
      tally.view).drop 0)) = _
    rw [alone]
    rfl
  refine ⟨answered .all, fun allowed whole => ?_⟩
  cases allowed with
  | zero => cases whole
  | succ allowed =>
    have page : ((⟨⟨[tally], []⟩, .pooled⟩ : Context).findMany tally []
        { Window.keyed tally .ascending none .null .null none with take := .int (1 : Nat), cursor := none } :
          Action Store (List Row)).answer
          overflown = some [[("id", .int 128)]] := answered (.first (Nat.le_refl 1))
    have refused : (tally.compare tally.primaryKey .eq (.int 128)).toOption = none := rfl
    rw [Context.readPagesStep, page, Option.bind_some, List.getLast?_singleton, Option.elim_some] at whole
    obtain ⟨next, made, -⟩ := Option.bind_eq_some_iff.mp whole
    cases refused.symm.trans made

end Sample

end EntityQuery
