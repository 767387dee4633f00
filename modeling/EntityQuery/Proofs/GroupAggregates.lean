import EntityQuery.Proofs.AddedPredicates
import EntityQuery.Proofs.Includes
import EntityQuery.Proofs.OrderedGroups
/-! Groups by one field beside aggregates of the rows that have one key. A group is shown with what an aggregate answers that
asks for its key; the groups that a condition on their number of rows refuses are left out, and bounds cut a part from the
rest in the order that was asked for. -/

namespace EntityQuery

theorem Record.putAlone {α : Type} (name : String) (v : α) : Record.put [] name v = [(name, v)] := by
  unfold put
  cases index : index? name <;> simp [has, get?, insertIndex]

/-- The predicate that asks for a key: equality, or for no key that there is nothing. -/
def Entity.keyPredicate (e : Entity) (f : Field) (key : Value) : Except Failure Predicate :=
  if key.isNothing then .ok (e.test f (.null false)) else e.compare f .eq key

namespace GroupRead

/-- A group as it is read: its key, how many rows it has, and what is asked for of them. -/
structure Group where
  key : Value
  count : Nat
  aggregates : Row
  deriving Inhabited

/-- The row that a group is shown as. -/
def Group.row (f : Field) (group : Group) : Row := Record.merge [(f.name, group.key)] group.aggregates

/-- What a group is sorted by. -/
def Group.ranks (f : Field) (group : Group) : Row :=
  [(f.column, group.key), (FieldAggregate.countRows.label, .nat group.count)]

/-- Does a number of rows compare with a number as asked? -/
def countPasses (having : Option (Comparison × Number)) (n : Nat) : Bool :=
  having.all fun (c, x) => (Number.compare? (.integer n) x).any (Store.holds c)

/-- The groups that are answered: those whose number of rows passes, between bounds. -/
def answered (having : Option (Comparison × Number)) (skip take : Option Nat) (groups : List Group) : List Group :=
  Window.cut skip take (groups.filter fun group => countPasses having group.count)

/-- A read of groups by one field, from rows whose columns hold what their types store. Texts of the field are not compared
without case in the list that picks the rows. -/
structure ByField (e : Entity) (f : Field) (g : GroupRead) (rows : List Row) : Prop where
  grouped : g.grouped = [f]
  found : e.field? f.name = some f
  keyed : f.type.isKeyType
  plain : f.type ≠ .json
  typed : Predicate.AreTyped g.filter
  cased : f.typeClass = .text → Meaning.lastMode? f.name g.filter ≠ some true
  unlabelled : f.column ∉ (FieldAggregate.selection g.requests).map (·.label)
  written : ∀ row ∈ rows, f.HoldsWritten (Row.value row f.column)
  asked : FieldAggregate.Asked e g.requests rows
  order : ∀ t ∈ g.order, t.column = FieldAggregate.countRows.label ∨ t.column = f.column
  few : rows.length < 2 ^ 53

/-- The text of the group of a row. -/
def keyText (f : Field) (row : Row) : String := String.ofList (Store.groupChars [f] row)

section Read

variable {e : Entity} {f : Field} {g : GroupRead} {rows found : List Row} {first out : Row} {group : Group}

theorem ByField.textsAgree (one : g.ByField e f rows) (inside : ∀ row ∈ found, row ∈ rows) :
    (∀ row ∈ found, Store.groupKey [f.column] row = .ok (keyText f row)) ∧
      ∀ r ∈ found, ∀ s ∈ found, keyText f r = keyText f s ↔ Store.Equals (Row.value r f.column) (Row.value s f.column) := by
  have exact : f.typeClass ≠ .float := by
    have keyed := one.keyed
    unfold Field.typeClass
    cases type : f.type with
    | float _ =>
      rw [type] at keyed
      cases keyed
    | _ => exact nofun
  have typed : ∀ row ∈ found, f.HoldsTyped (Row.value row f.column) := fun row mem => (one.written row (inside row mem)).typed
  have told : Store.GroupsApart [f] found := by
    refine ⟨fun g mem => ?_, [], f, [], rfl, fun _ _ _ => nofun⟩
    rw [List.mem_singleton.mp mem]
    exact Field.typedTells exact typed
  refine ⟨fun row mem => ?_, fun r hr s hs => ?_⟩
  · refine @Store.keyWritten [f] row fun g listed => ?_
    rw [List.mem_singleton.mp listed]
    exact Field.typedGroupable exact (typed row mem)
  · unfold keyText
    rw [String.ofList_inj, Store.charsAgree told hr hs]
    exact ⟨fun same => same f List.mem_cons_self, fun same g listed => List.mem_singleton.mp listed ▸ same⟩

/-- The group that begins with a row: the row that is put out for it, and how that is read. -/
structure Output (f : Field) (g : GroupRead) (found : List Row) (first out : Row) (group : Group) : Prop where
  made : ∀ q : Grouping, q.columns = [f.column] → q.aggregates = FieldAggregate.selection g.requests →
    Store.groupRow q (Store.sharing (keyText f) found first) = .ok out
  column : Row.value out f.column = Row.value first f.column
  count : Row.value out FieldAggregate.countRows.label = .nat group.count
  key : group.key = (Row.value first f.column).orNull
  counts : group.count = (Store.sharing (keyText f) found first).length
  gathered : FieldAggregate.gather g.requests (Store.sharing (keyText f) found first) = .ok group.aggregates
  counted : Row.value group.aggregates "_count" = .nat group.count
  reads : Context.groupOutput g out = .ok (group.row f)

theorem ByField.output (one : g.ByField e f rows) (inside : ∀ row ∈ found, row ∈ rows)
    (own : (Store.sharing (keyText f) found first).head? = some first) : ∃ out group, Output f g found first out group := by
  obtain ⟨rest, members⟩ := List.head?_eq_some_iff.mp own
  have within : ∀ row ∈ Store.sharing (keyText f) found first, row ∈ rows := fun row mem => inside row (List.mem_filter.mp mem).1
  have asked := one.asked.within within
  obtain ⟨parts, gathered, counted, reads⟩ := asked.gathered
  obtain ⟨out, ran, others, held⟩ := asked.putRow [(f.column, Row.value first f.column)]
  have column : Row.value out f.column = Row.value first f.column := by
    rw [others f.column one.unlabelled]
    simp [Row.value, Record.get?]
  have typed := (one.written first (within first (List.mem_of_mem_head? own))).typed
  refine ⟨out, ⟨(Row.value first f.column).orNull, _, parts⟩, fun q columns aggregates => ?_, column,
    (Except.ok.inj (held FieldAggregate.countRows List.mem_cons_self)).symm, rfl, rfl, gathered, counted, ?_⟩
  · unfold Store.groupRow
    rw [columns, aggregates, List.foldl_cons, Record.putAlone, own]
    exact ran
  · unfold Context.groupOutput
    rw [one.grouped, List.foldlM_cons, column, Field.typedReads typed, reads out held]
    change Except.ok (Record.merge (Record.put [] f.name _) parts) = _
    rw [Record.putAlone]
    rfl

theorem sortsHeld {v : Value} (held : f.HoldsWritten v) : ∃ k, Store.sortKey v = .ok k ∧ Store.isPlaced k := by
  unfold Store.sortKey
  cases missing : v.isNothing with
  | true => exact ⟨none, rfl, rfl⟩
  | false =>
    have number := held.number
    have form := held.form missing
    generalize f.type = type at form
    rw [if_neg Bool.false_ne_true]
    cases form with
    | @narrow _ x _ _ | @float _ x =>
      refine ⟨_, rfl, ?_⟩
      have real : x ≠ .nan := fun nan => number (congrArg Value.number nan)
      simpa [Store.isPlaced, Number.isNaN] using real
    | _ => exact ⟨_, rfl, rfl⟩

theorem sortKeyNull (v : Value) : Store.sortKey v.orNull = Store.sortKey v := by
  cases v <;> rfl

theorem ByField.ranksOut (one : g.ByField e f rows) (held : f.HoldsWritten (Row.value first f.column))
    (output : Output f g found first out group) : Store.Ranks g.order out := by
  intro t listed
  rcases one.order t listed with counts | own
  · rw [counts, output.count]
    exact ⟨_, rfl, rfl⟩
  · rw [own, output.column]
    exact sortsHeld held

theorem ByField.outputsRank {firsts : List Row} {out : Row → Row} {shown : Row → Group} (one : g.ByField e f rows)
    (inside : ∀ row ∈ found, row ∈ rows) (held : Store.Firsts (keyText f) found firsts)
    (outputs : ∀ first ∈ firsts, Output f g found first (out first) (shown first)) :
    ∀ first ∈ firsts, Store.Ranks g.order (out first) := fun first mem =>
  one.ranksOut (one.written first (inside first (held.inside first mem))) (outputs first mem)

/-- A group is sorted as its output row is. -/
theorem ByField.ranksSame (one : g.ByField e f rows) (output : Output f g found first out group) :
    g.order.map (Store.rank (group.ranks f)) = g.order.map (Store.rank out) := by
  refine List.map_congr_left fun t listed => ?_
  unfold Store.rank
  rcases one.order t listed with counts | own
  · have apart : f.column ≠ FieldAggregate.countRows.label := fun same =>
      one.unlabelled (List.mem_map.mpr ⟨_, List.mem_cons_self, same.symm⟩)
    have count : Row.value (group.ranks f) FieldAggregate.countRows.label = .nat group.count := by
      simp [Group.ranks, Row.value, Record.get?, apart]
    rw [counts, output.count, count]
  · have key : Row.value (group.ranks f) f.column = group.key := by
      simp [Group.ranks, Row.value, Record.get?]
    rw [own, key, output.key, output.column, sortKeyNull]

theorem passesCount {having : Option (Comparison × Number)} (number : ∀ h ∈ having, h.2 ≠ .nan) (group : List Row) :
    Store.passes group (having.map fun (c, x) => ⟨FieldAggregate.countRows, .of c, .number x⟩) =
      .ok (countPasses having group.length) := by
  cases having with
  | none => rfl
  | some h =>
    obtain ⟨c, x⟩ := h
    change Except.ok (Store.holds c (((Number.integer group.length).compare? x).getD .eq)) = _
    unfold countPasses
    have known : ∃ o, (Number.integer group.length).compare? x = some o := by
      rcases Number.ratioCases x with rfl | ⟨negative, rfl⟩ | ⟨a, b, ratio⟩
      · exact absurd rfl (number _ rfl)
      · cases negative <;> exact ⟨_, rfl⟩
      · exact ⟨_, Number.compareRatio rfl ratio⟩
    obtain ⟨o, compared⟩ := known
    rw [Option.all_some]
    dsimp only
    rw [compared]
    rfl

/-- The predicate that asks for what a column holds picks the rows of which the column holds an equal value. -/
theorem ByField.keyPicks {registry : Registry Fetcher} {tables : Store.Tables} {insensitive : List String} {v w : Value}
    (one : g.ByField e f rows) (modal : ∀ name, insensitive.contains name = (Meaning.lastMode? name g.filter).getD false)
    (held : f.HoldsWritten v) (taken : f.encode v.orNull = .ok w) :
    ∃ p c pick, e.keyPredicate f v.orNull = .ok p ∧ (∀ fields, Predicate.modes [p] fields = .ok fields) ∧
      Predicate.compileOne registry ⟨e, e.table, 0⟩ insensitive p = .ok (some c) ∧ Store.Picks tables e.table rows c pick ∧
        ∀ row ∈ rows, pick row = true ↔ Store.Equals (Row.value row f.column) v := by
  unfold Entity.keyPredicate
  cases missing : v.isNothing with
  | true =>
    rw [Value.orNullMissing missing] at taken ⊢
    have nullable : f.nullable := by
      rw [Field.encode_of_isNothing rfl] at taken
      split at taken
      · assumption
      · cases taken
    refine ⟨_, _, _, rfl, fun _ => rfl, Predicate.nothingOne one.found nullable, Store.picksNull f.column, fun row _ => ?_⟩
    exact (Store.equalsNothing missing).symm.trans eq_comm
  | false =>
    rw [Value.orNullThere missing] at taken ⊢
    have given := Field.writtenThere (Field.formTaken (held.form missing)) one.keyed taken
    -- the mode that the list sets last is that of the predicate too, and would make it compare without case
    have cased : (insensitive.contains f.name && f.typeClass == .text) = false := by
      cases text : f.typeClass == .text with
      | false => exact Bool.and_false _
      | true =>
        have mode := one.cased (eq_of_beq text)
        rw [modal, Bool.and_true]
        cases last : Meaning.lastMode? f.name g.filter with
        | none => rfl
        | some b => cases b <;> first | rfl | exact absurd last mode
    have equal (row : Row) (mem : row ∈ rows) := Field.equalsOperand one.keyed one.plain (one.written row mem) held missing taken
    rw [missing, if_neg Bool.false_ne_true]
    unfold Entity.compare
    rw [Field.operandHeld one.keyed one.plain held missing taken]
    refine ⟨_, _, _, rfl, fun _ => rfl, Predicate.equalityOne one.found given cased,
      Store.picksCompare fun row mem => (equal row mem).imp fun _ held => held.1, fun row mem => ?_⟩
    obtain ⟨b, compared, same⟩ := equal row mem
    have met : Store.meets (Row.value row f.column) w = b := by
      unfold Store.meets
      rw [compared]
      rfl
    rw [met, same]

end Read

end GroupRead

namespace Context

variable {c : Context} {e : Entity} {f : Field} {g : GroupRead} {s : Session Store} {rows found : List Row} {condition : Condition}

/-- An aggregate answers what is gathered from the rows that match. -/
theorem aggregateAnswer {a : AggregateRead} {parts : Row} (compiled : c.condition e a.filter = .ok condition)
    (matched : s.backend.matching e.table condition = .ok found)
    (gathered : FieldAggregate.gather a.requests found = .ok parts) :
    (c.aggregate e a : Action Store Row).answer s = some parts := by
  obtain ⟨out, ran, reads⟩ := Results.bindOk gathered
  let q : Grouping := ⟨e.table, condition, [], FieldAggregate.selection a.requests, none, [], .null, .null⟩
  have outputs : Store.groupOutputs q [found] = .ok (([found].filter fun _ => true).map fun _ => out) :=
    @GroupRead.groupOutputsKept _ q id (fun _ => out) (fun _ => true) [found] (fun _ mem => List.mem_singleton.mp mem ▸ ran)
      fun _ _ => rfl
  have grouped : s.backend.group q = .ok [out] := by
    change (s.backend.matching e.table condition >>= _) = _
    rw [matched]
    change (Store.groupOutputs q [found] >>= _) = _
    rw [outputs]
    change (Store.sortRows [] [out] >>= _) = _
    rw [Store.sortRanked fun _ _ _ listed => absurd listed List.not_mem_nil, Store.ranked, List.mergeSort_singleton]
    exact GroupRead.pageAll [out]
  unfold Context.aggregate
  rw [compiled]
  change Action.answer (c.group q >>= fun rows => liftM (FieldAggregate.read a.requests (rows.head?.getD []))) s = _
  rw [groupAnswered, grouped]
  change (FieldAggregate.read a.requests out).toOption = _
  rw [reads]
  rfl

/-- An aggregate that asks for the key of a row as well reads the group of the row. -/
theorem keyAggregate {first : Row} {parts : Row} {w : Value} (one : g.ByField e f rows)
    (stored : Record.get? s.backend.tables e.table = some rows) (compiled : c.condition e g.filter = .ok condition)
    (matched : s.backend.matching e.table condition = .ok found) (mem : first ∈ found)
    (gathered : FieldAggregate.gather g.requests (Store.sharing (GroupRead.keyText f) found first) = .ok parts)
    (taken : f.encode (Row.value first f.column).orNull = .ok w) :
    ∃ p, e.keyPredicate f (Row.value first f.column).orNull = .ok p ∧
      (c.aggregate e ⟨g.filter ++ [p], g.requests⟩ : Action Store Row).answer s = some parts := by
  have inside : ∀ row ∈ found, row ∈ rows := (Store.matchingSublist stored matched).subset
  obtain ⟨insensitive, cs, rfl, plain, modal, added⟩ := Predicate.conditionAdded one.typed compiled
  obtain ⟨p, d, pick, given, unmoded, compiles, picks, same⟩ :=
    one.keyPicks modal (one.written first (inside first mem)) taken
  refine ⟨p, given, aggregateAnswer (added p d unmoded compiles) (picks.narrowed plain stored matched) ?_⟩
  have members : found.filter pick = Store.sharing (GroupRead.keyText f) found first := by
    refine List.filter_congr fun row listed => ?_
    rw [Bool.eq_iff_iff, same row (inside row listed), beq_iff_eq]
    exact ((one.textsAgree inside).2 row listed first mem).symm
  rw [members]
  exact gathered

/-- Groups of some rows by a field, in the order that a read asks for: every row has the key of one of them, and what is asked
for of a group is what an aggregate answers that asks for its key as well, if that is one that the field takes. -/
structure GroupedAs (c : Context) (e : Entity) (f : Field) (g : GroupRead) (s : Session Store) (found : List Row)
    (groups : List GroupRead.Group) : Prop where
  apart : (groups.map (·.key.exact)).Nodup
  own : ∀ group ∈ groups, ∃ row ∈ found, f.decode (Row.value row f.column) = .ok group.key
  each : ∀ row ∈ found, ∃ group ∈ groups, Store.Equals (Row.value row f.column) group.key
  counted : ∀ group ∈ groups, Row.value group.aggregates "_count" = .nat group.count
  aggregated : ∀ group ∈ groups, ∀ w, f.encode group.key = .ok w → ∃ p, e.keyPredicate f group.key = .ok p ∧
    (c.aggregate e ⟨g.filter ++ [p], g.requests⟩ : Action Store Row).answer s = some group.aggregates
  sorted : groups.Pairwise fun a b => Store.atMost g.order (a.ranks f) (b.ranks f)

theorem groupedAs {firsts : List Row} {out : Row → Row} {shown : Row → GroupRead.Group} (one : g.ByField e f rows)
    (stored : Record.get? s.backend.tables e.table = some rows) (compiled : c.condition e g.filter = .ok condition)
    (matched : s.backend.matching e.table condition = .ok found) (held : Store.Firsts (GroupRead.keyText f) found firsts)
    (outputs : ∀ first ∈ firsts, GroupRead.Output f g found first (out first) (shown first)) :
    c.GroupedAs e f g s found ((firsts.mergeSort fun a b => Store.atMost g.order (out a) (out b)).map shown) := by
  have inside : ∀ row ∈ found, row ∈ rows := (Store.matchingSublist stored matched).subset
  have listed : ∀ first ∈ firsts, first ∈ found := held.inside
  have agree := (one.textsAgree inside).2
  have nullTwice (v : Value) : v.orNull.orNull = v.orNull := by cases v <;> rfl
  have perm := List.mergeSort_perm firsts fun a b => Store.atMost g.order (out a) (out b)
  have groups : ∀ group ∈ (firsts.mergeSort fun a b => Store.atMost g.order (out a) (out b)).map shown,
      ∃ first ∈ firsts, GroupRead.Output f g found first (out first) group := by
    intro group mem
    obtain ⟨first, sorted, rfl⟩ := List.mem_map.mp mem
    exact ⟨first, perm.mem_iff.mp sorted, outputs first (perm.mem_iff.mp sorted)⟩
  refine ⟨?_, fun group mem => ?_, fun row mem => ?_, fun group mem => ?_, fun group mem w taken => ?_, ?_⟩
  · rw [List.map_map, (perm.map _).nodup_iff]
    have apart := held.apart
    rw [List.Nodup, List.pairwise_map] at apart ⊢
    refine apart.imp_of_mem fun {a b} ha hb texts same => texts ?_
    rw [agree a (listed a ha) b (listed b hb)]
    change (shown a).key.exact = (shown b).key.exact at same
    rw [(outputs a ha).key, (outputs b hb).key] at same
    exact same
  · obtain ⟨first, mem, output⟩ := groups group mem
    refine ⟨first, listed first mem, ?_⟩
    rw [output.key]
    exact Field.typedReads (one.written first (inside first (listed first mem))).typed
  · obtain ⟨first, first_mem, text⟩ := List.mem_map.mp (held.each row mem)
    refine ⟨shown first, List.mem_map_of_mem (perm.mem_iff.mpr first_mem), ?_⟩
    have same := (agree row mem first (listed first first_mem)).mp text.symm
    rw [(outputs first first_mem).key]
    unfold Store.Equals at same ⊢
    rw [nullTwice, same]
  · obtain ⟨first, -, output⟩ := groups group mem
    exact output.counted
  · obtain ⟨first, mem, output⟩ := groups group mem
    rw [output.key] at taken ⊢
    exact keyAggregate one stored compiled matched (listed first mem) output.gathered taken
  · rw [List.pairwise_map]
    refine (Store.rankedItems (one.outputsRank inside held outputs)).1.imp_of_mem fun {a b} ha hb ordered => ?_
    unfold Store.atMost at ordered ⊢
    rw [one.ranksSame (outputs a (perm.mem_iff.mp ha)), one.ranksSame (outputs b (perm.mem_iff.mp hb))]
    exact ordered

/-- The output rows of the groups that pass, sorted and cut. -/
theorem groupsRan {having : Option (Comparison × Number)} {limit offset : Option Number} {take skip : Option Nat} {firsts : List Row}
    {out : Row → Row} {shown : Row → GroupRead.Group} (one : g.ByField e f rows)
    (narrowed : found.Sublist rows) (matched : s.backend.matching e.table condition = .ok found)
    (held : Store.Firsts (GroupRead.keyText f) found firsts)
    (grouped : Store.groupRows [f.column] found = .ok (firsts.map (Store.sharing (GroupRead.keyText f) found)))
    (outputs : ∀ first ∈ firsts, GroupRead.Output f g found first (out first) (shown first))
    (number : ∀ h ∈ having, h.2 ≠ .nan) (taken : Window.Counted limit take) (skipped : Window.Counted offset skip) :
    s.backend.group ⟨e.table, condition, [f.column], FieldAggregate.selection g.requests,
      having.map fun (o, x) => ⟨FieldAggregate.countRows, .of o, .number x⟩, g.order, .ofBound limit, .ofBound offset⟩ =
        .ok ((Window.cut skip take ((firsts.mergeSort fun a b => Store.atMost g.order (out a) (out b)).filter fun first =>
          GroupRead.countPasses having (shown first).count)).map out) := by
  have ranks := one.outputsRank narrowed.subset held outputs
  let q : Grouping := ⟨e.table, condition, [f.column], FieldAggregate.selection g.requests,
    having.map fun (o, x) => ⟨FieldAggregate.countRows, .of o, .number x⟩, g.order, .ofBound limit, .ofBound offset⟩
  let passes (first : Row) : Bool := GroupRead.countPasses having (shown first).count
  have kept : Store.groupOutputs q (firsts.map (Store.sharing (GroupRead.keyText f) found)) = .ok ((firsts.filter passes).map out) := by
    refine GroupRead.groupOutputsKept (fun first mem => (outputs first mem).made q rfl rfl) fun first mem => ?_
    change _ = Except.ok (GroupRead.countPasses having (shown first).count)
    rw [(outputs first mem).counts]
    exact GroupRead.passesCount number _
  have sorts : ∀ row ∈ (firsts.filter passes).map out, Store.Ranks g.order row := by
    intro row mem
    obtain ⟨first, filtered, rfl⟩ := List.mem_map.mp mem
    exact ranks first (List.mem_filter.mp filtered).1
  have few : (((firsts.mergeSort fun a b => Store.atMost g.order (out a) (out b)).filter passes).map out).length < 2 ^ 53 := by
    have sorted := (List.mergeSort_perm firsts fun a b => Store.atMost g.order (out a) (out b)).length_eq
    rw [List.length_map]
    exact lt_of_le_of_lt (List.length_filter_le _ _) (sorted ▸ lt_of_le_of_lt (held.fewer.trans narrowed.length_le) one.few)
  change (s.backend.matching e.table condition >>= _) = _
  rw [matched]
  change (Store.groupRows [f.column] found >>= _) = _
  rw [grouped]
  change (Store.groupOutputs q _ >>= _) = _
  rw [kept]
  change (Store.sortRows g.order _ >>= _) = _
  -- those that pass stand as they do among all groups, so that one order serves every condition
  rw [Store.sortRanked sorts, (Store.rankedItems ranks).2 passes]
  change Store.page (.ofBound limit) (.ofBound offset) _ = _
  rw [Window.pageCut skipped taken few, Window.cutMap]

/-- Groups of a field agree with aggregates. Whatever condition on the number of rows and whatever bounds a read has, it answers
the part between its bounds of those groups that pass, and parts of one size follow each other. -/
theorem groupsAggregated (one : g.ByField e f rows) (stored : Record.get? s.backend.tables e.table = some rows)
    (compiled : c.condition e g.filter = .ok condition) (matched : s.backend.matching e.table condition = .ok found) :
    ∃ groups, c.GroupedAs e f g s found groups ∧
      (∀ having limit offset take skip, (∀ h ∈ having, h.2 ≠ .nan) → Window.Counted limit take → Window.Counted offset skip →
        (c.groups e { g with having := having.map fun (o, x) => (.of o, .number x), limit, offset } :
          Action Store (List Row)).answer s = some ((GroupRead.answered having skip take groups).map (·.row f))) ∧
      ∀ having size pages, ((List.range pages).flatMap fun k => GroupRead.answered having (some (k * size)) (some size) groups) =
        GroupRead.answered having none (some (pages * size)) groups := by
  have narrowed := Store.matchingSublist stored matched
  obtain ⟨firsts, held, grouped⟩ := Store.groupRowsFirsts (List.cons_ne_nil f.column []) (one.textsAgree narrowed.subset).1
  have read : ∀ first ∈ firsts, ∃ out group, GroupRead.Output f g found first out group := fun first mem =>
    one.output narrowed.subset (held.own first mem)
  choose! out shown outputs using read
  refine ⟨_, groupedAs one stored compiled matched held outputs, fun having limit offset take skip number taken skipped => ?_,
    fun having size pages => Window.cutPages size pages _⟩
  have ran := groupsRan one narrowed matched held grouped outputs number taken skipped
  have perm := List.mergeSort_perm firsts fun a b => Store.atMost g.order (out a) (out b)
  generalize firsts.mergeSort (fun a b => Store.atMost g.order (out a) (out b)) = sorted at ran perm
  have reads : ((Window.cut skip take (sorted.filter fun first => GroupRead.countPasses having (shown first).count)).map out).mapM
      (groupOutput g) =
        .ok ((Window.cut skip take (sorted.filter fun first => GroupRead.countPasses having (shown first).count)).map fun first =>
          (shown first).row f) := by
    rw [List.mapM_map]
    refine Results.mapAllOk fun first mem => (outputs first ?_).reads
    exact perm.mem_iff.mp (List.mem_filter.mp (Window.cutInside first mem)).1
  unfold Context.groups
  rw [compiled]
  simp only [Step.mapLift, Option.map_map]
  change Action.answer (c.group ⟨e.table, condition, g.grouped.map (·.column), _, _, _, _, _⟩ >>= fun rows =>
    liftM (rows.mapM (groupOutput g))) s = _
  rw [groupAnswered, one.grouped]
  refine (congrArg (fun r => Except.toOption (r >>= fun rows => rows.mapM (groupOutput g))) ran).trans ?_
  refine (congrArg Except.toOption reads).trans ?_
  unfold GroupRead.answered
  rw [List.filter_map, Window.cutMap, List.map_map]
  rfl

end Context

namespace Sample

/-- Users by name, the largest groups first, with the sum of their keys. -/
def nameCounts : GroupRead :=
  ⟨[nameField], [], [⟨.sum, idField⟩], [⟨"_count", .descending, none⟩], none, none, none⟩

theorem namesWritten : ∀ row ∈ namesakes, nameField.HoldsWritten (Row.value row nameField.column) := by
  have written {s : String} (joined : Text.isJoined s.toList) : nameField.HoldsWritten (.text s) := by
    refine ⟨.inr .text, nofun, ?_⟩
    rintro _ ⟨⟩
    exact ⟨rfl, joined⟩
  simp only [namesakes, List.forall_mem_cons]
  exact ⟨written (by decide), written (by decide), written (by decide), written (by decide), List.forall_mem_nil _⟩

theorem nameCountsFit : nameCounts.ByField user nameField namesakes where
  grouped := rfl
  found := rfl
  keyed := rfl
  plain := nofun
  typed := trivial
  cased := fun _ => nofun
  unlabelled := by decide
  written := namesWritten
  asked := by
    refine ⟨by decide, ?_⟩
    simp only [nameCounts, List.forall_mem_cons]
    exact ⟨⟨List.mem_cons_self, rfl, idsTyped⟩, List.forall_mem_nil _⟩
  order := by simp [nameCounts, FieldAggregate.countRows]
  few := by decide

theorem nameCountsAggregated : nameCounts.ByField user nameField namesakes ∧
    Record.get? (session false namesakes [] []).backend.tables user.table = some namesakes ∧
    (⟨registry, .pooled⟩ : Context).condition user nameCounts.filter = .ok (.constant true) ∧
    (session false namesakes [] []).backend.matching user.table (.constant true) = .ok namesakes ∧
    ∃ groups, (⟨registry, .pooled⟩ : Context).GroupedAs user nameField nameCounts (session false namesakes [] []) namesakes groups ∧
      ((⟨registry, .pooled⟩ : Context).groups user
        { nameCounts with having := some (.of .ge, .number (.integer 2)), limit := some (.integer 1), offset := none } :
        Action Store (List Row)).answer (session false namesakes [] []) =
          some ((GroupRead.answered (some (.ge, .integer 2)) none (some 1) groups).map (·.row nameField)) := by
  have compiled : (⟨registry, .pooled⟩ : Context).condition user nameCounts.filter = .ok (.constant true) := rfl
  have matched : (session false namesakes [] []).backend.matching user.table (.constant true) = .ok namesakes := rfl
  obtain ⟨groups, grouped, answers, -⟩ := Context.groupsAggregated nameCountsFit rfl compiled matched
  exact ⟨nameCountsFit, rfl, compiled, matched, groups, grouped,
    answers (some (.ge, .integer 2)) (some (.integer 1)) none (some 1) none (by simp) (.some (.integer 1)) .none⟩

/-- The keys of the groups that have some number of rows, as texts. -/
def keysOf (e : Entity) (f : Field) (filter : List Predicate) (n : Nat) (s : Session Store) : Option (List String) :=
  ((⟨⟨[e], []⟩, .pooled⟩ : Context).groups e ⟨[f], filter, [], [], some (.of .eq, .nat n), none, none⟩ :
    Action Store (List Row)).answer s |>.map (·.map fun row => GroupRead.keyText { f with column := f.name } row)

/-- How many rows an aggregate counts that asks for a key as well. -/
def countOfKey (e : Entity) (f : Field) (filter : List Predicate) (key : Value) (s : Session Store) : Option Int := do
  let p ← (e.keyPredicate f key).toOption
  let row ← ((⟨⟨[e], []⟩, .pooled⟩ : Context).aggregate e ⟨filter ++ [p], []⟩ : Action Store Row).answer s
  Window.integer? (Row.value row "_count")

/-- Names are compared without case. -/
def caseless : List Predicate := [user.test nameField (.mode (.text "insensitive"))]

def cases : Session Store := session false [row 1 (.text "A") .null, row 2 (.text "a") .null, row 3 (.text "a") .null] [] []

def alone (id : Int) : List Predicate := [part.test idField (.compare .eq (.int id))]

def counted (values : List Value) : Session Store :=
  .start
    { fields := [("counters", counter.fields)],
      tables := [("counters", (values.zipIdx 1).map fun (v, id) => [("id", .nat id), ("count", v)])],
      sequences := [], journal := [], inTransaction := false, commits := 0, rollbacks := 0 }

/-- Groups have other numbers of rows than aggregates count where names are compared without case, where a column holds a number
past those of its type, one that is none, a text that is to be a number or a code in capitals. A group stays if its number of
rows is compared with what is no number, and none is answered where a column that is asked for cannot be read. -/
theorem groupsUnlikeAggregates :
    (keysOf user nameField caseless 1 cases = some ["text:A"] ∧ countOfKey user nameField caseless (.text "A") cases = some 3) ∧
    (keysOf counter countField [] 1 (counted [.int 128]) = some ["number:128"] ∧
      countOfKey counter countField [] (.int 128) (counted [.int 128]) = none) ∧
    (keysOf counter countField [] 2 (counted [.number .nan, .int 5, .int 5]) = some ["number:5"] ∧
      countOfKey counter countField [] (.int 5) (counted [.number .nan, .int 5, .int 5]) = some 3) ∧
    (keysOf counter countField [] 2 (counted [.text "5", .text "5", .int 5]) = some ["number:5"] ∧
      countOfKey counter countField [] (.int 5) (counted [.text "5", .text "5", .int 5]) = some 1) ∧
    (keysOf part codeField (alone 1) 1 (partsSession capitals) = some ["text:3B241101-E2BB-4255-8CAF-4136C566A962"] ∧
      countOfKey part codeField (alone 1) (.text "3B241101-E2BB-4255-8CAF-4136C566A962") (partsSession capitals) = some 0) ∧
    (((⟨⟨[counter], []⟩, .pooled⟩ : Context).groups counter
        ⟨[countField], [], [], [], some (.of .ge, .number .nan), none, none⟩ : Action Store (List Row)).answer
        (counted [.int 5])).map List.length = some 1 ∧ GroupRead.countPasses (some (.ge, .nan)) 1 = false ∧
    (((⟨⟨[part], []⟩, .pooled⟩ : Context).groups part ⟨[codeField], alone 3, [⟨.min, dueField⟩], [], none, none, none⟩ :
      Action Store (List Row)).answer (partsSession undated)).isNone := by
  refine ⟨⟨?_, ?_⟩, ⟨?_, ?_⟩, ⟨?_, ?_⟩, ⟨?_, ?_⟩, ⟨?_, ?_⟩, ?_, ?_, ?_⟩ <;> decide +kernel

end Sample

end EntityQuery
