import EntityQuery.Operation.Aggregating
import EntityQuery.Proofs.Checks
import EntityQuery.Proofs.GroupedColumns
import EntityQuery.Proofs.Outcomes
import EntityQuery.Proofs.Sample
/-! Groups of rows. The rows of one text are one group, so that where the grouped columns tell rows apart the groups divide
the rows by their values, and each group is shown by its values and by the number of its rows. -/

namespace EntityQuery

namespace Row

/-- Of what is put into a row under one name only the last is there; the row keeps what has another name. -/
theorem valuesPut {α : Type} (name : α → String) (value : α → Value) (items : List α) (start : Row) :
    (∀ other, other ∉ items.map name →
      Row.value (items.foldl (fun row x => Record.put row (name x) (value x)) start) other = Row.value start other) ∧
      ∀ x ∈ items, (∀ y ∈ items, name y = name x → value y = value x) →
        Row.value (items.foldl (fun row x => Record.put row (name x) (value x)) start) (name x) = value x := by
  induction items using List.reverseRecOn with
  | nil => exact ⟨fun _ _ => rfl, List.forall_mem_nil _⟩
  | append_singleton items last ih =>
    have own : last ∈ items ++ [last] := List.mem_append_right _ List.mem_cons_self
    rw [List.foldl_append]
    constructor
    · intro other fresh
      rw [List.map_append, List.mem_append, not_or] at fresh
      have apart : other ≠ name last := fun same => fresh.2 (List.mem_singleton.mpr same)
      exact (valuePutOther _ (value last) apart).trans (ih.1 other fresh.1)
    · intro x mem one
      by_cases same : name x = name last
      · rw [same, ← one last own same.symm]
        exact valuePut _ (name last) (value last)
      · have before : x ∈ items := (List.mem_append.mp mem).resolve_right fun mem =>
          same (congrArg name (List.mem_singleton.mp mem))
        refine (valuePutOther _ (value last) same).trans (ih.2 x before fun y mem => ?_)
        exact one y (List.mem_append_left _ mem)

end Row

namespace Store

/-- Groups under their texts: together they are the rows, and each holds rows of its text, which no other group has. -/
structure Grouped (text : Row → String) (rows : List Row) (groups : List (String × List Row)) : Prop where
  all : (groups.flatMap (·.2)).Perm rows
  own : ∀ group ∈ groups, group.2 ≠ [] ∧ ∀ row ∈ group.2, text row = group.1
  apart : (groups.map (·.1)).Nodup

section Adding

variable {key : String} {row : Row} {groups : List (String × List Row)}

theorem addPerm : ((addToGroup key row groups).flatMap (·.2)).Perm (row :: groups.flatMap (·.2)) := by
  induction groups with
  | nil => exact .refl _
  | cons group groups ih =>
    obtain ⟨name, rows⟩ := group
    unfold addToGroup
    split
    · rw [List.flatMap_cons, List.flatMap_cons, List.append_assoc, List.singleton_append]
      exact List.perm_middle
    · rw [List.flatMap_cons, List.flatMap_cons]
      exact (ih.append_left rows).trans List.perm_middle

theorem addNames (name : String) : name ∈ (addToGroup key row groups).map (·.1) ↔ name = key ∨ name ∈ groups.map (·.1) := by
  induction groups with
  | nil => simp [addToGroup]
  | cons group groups ih =>
    obtain ⟨other, rows⟩ := group
    unfold addToGroup
    split
    · next same =>
      rw [List.map_cons, List.map_cons, same, List.mem_cons, or_self_left]
    · rw [List.map_cons, List.map_cons, List.mem_cons, List.mem_cons, ih, or_left_comm]

theorem addApart (apart : (groups.map (·.1)).Nodup) : ((addToGroup key row groups).map (·.1)).Nodup := by
  induction groups with
  | nil => exact List.nodup_singleton key
  | cons group groups ih =>
    obtain ⟨name, rows⟩ := group
    obtain ⟨fresh, rest⟩ := List.nodup_cons.mp apart
    unfold addToGroup
    split
    · exact apart
    · next other =>
      rw [List.map_cons, List.nodup_cons, addNames]
      exact ⟨fun either => either.elim other fresh, ih rest⟩

theorem addOwn {text : Row → String} (here : text row = key)
    (own : ∀ group ∈ groups, group.2 ≠ [] ∧ ∀ row ∈ group.2, text row = group.1) :
    ∀ group ∈ addToGroup key row groups, group.2 ≠ [] ∧ ∀ row ∈ group.2, text row = group.1 := by
  induction groups with
  | nil =>
    intro group mem
    rw [List.mem_singleton.mp mem]
    exact ⟨List.cons_ne_nil _ _, fun other mem => by rw [List.mem_singleton.mp mem, here]⟩
  | cons group groups ih =>
    obtain ⟨name, rows⟩ := group
    obtain ⟨first, rest⟩ := List.forall_mem_cons.mp own
    unfold addToGroup
    split
    · next same =>
      refine List.forall_mem_cons.mpr ⟨⟨by simp, fun other mem => ?_⟩, rest⟩
      rcases List.mem_append.mp mem with old | new
      · exact first.2 other old
      · rw [List.mem_singleton.mp new, here, same]
    · exact List.forall_mem_cons.mpr ⟨first, ih rest⟩

theorem groupedAdd {text : Row → String} {rows : List Row} (grouped : Grouped text rows groups) (row : Row) :
    Grouped text (rows ++ [row]) (addToGroup (text row) row groups) where
  all := addPerm.trans ((grouped.all.cons row).trans (List.perm_append_singleton row rows).symm)
  own := addOwn rfl grouped.own
  apart := addApart grouped.apart

end Adding

/-- By induction on the rows: what each of them keeps, all of them keep. -/
theorem groupedAll {text : Row → String} {columns : List String} {rows before : List Row} {groups : List (String × List Row)}
    (written : ∀ row ∈ rows, groupKey columns row = .ok (text row)) (grouped : Grouped text before groups) :
    ∃ out, rows.foldlM (fun groups row => do return addToGroup (← groupKey columns row) row groups) groups = .ok out ∧
      Grouped text (before ++ rows) out := by
  induction rows generalizing before groups with
  | nil =>
    rw [List.append_nil]
    exact ⟨groups, rfl, grouped⟩
  | cons row rows ih =>
    rw [List.foldlM_cons, written row List.mem_cons_self]
    have next := ih (fun other mem => written other (List.mem_cons_of_mem row mem)) (groupedAdd grouped row)
    rw [List.append_assoc] at next
    exact next

theorem groupRowsGrouped {text : Row → String} {columns : List String} {rows : List Row} (some : columns ≠ [])
    (written : ∀ row ∈ rows, groupKey columns row = .ok (text row)) :
    ∃ groups, groupRows columns rows = .ok (groups.map (·.2)) ∧ Grouped text rows groups := by
  have start : Grouped text [] [] := ⟨.refl _, nofun, List.nodup_nil⟩
  obtain ⟨groups, ran, grouped⟩ := groupedAll written start
  refine ⟨groups, ?_, grouped⟩
  unfold groupRows
  rw [if_neg (by simpa using some), ran]
  rfl

/-- Rows in groups: together these are the rows, none is empty, and two rows are in one group exactly if they are the same. -/
structure Partitions (same : Row → Row → Prop) (rows : List Row) (groups : List (List Row)) : Prop where
  all : groups.flatten.Perm rows
  own : ∀ group ∈ groups, group ≠ [] ∧ ∀ r ∈ group, ∀ s ∈ group, same r s
  apart : groups.Pairwise fun group other => ∀ r ∈ group, ∀ s ∈ other, ¬ same r s

theorem partitionsOfGrouped {text : Row → String} {same : Row → Row → Prop} {rows : List Row} {groups : List (String × List Row)}
    (told : ∀ r ∈ rows, ∀ s ∈ rows, text r = text s ↔ same r s) (grouped : Grouped text rows groups) :
    Partitions same rows (groups.map (·.2)) := by
  have inside {group : String × List Row} (listed : group ∈ groups) {row : Row} (mem : row ∈ group.2) : row ∈ rows :=
    grouped.all.mem_iff.mp (List.mem_flatMap.mpr ⟨group, listed, mem⟩)
  refine ⟨by rw [← List.flatMap_def]; exact grouped.all, fun group mem => ?_, ?_⟩
  · obtain ⟨group, listed, rfl⟩ := List.mem_map.mp mem
    obtain ⟨some, texts⟩ := grouped.own group listed
    refine ⟨some, fun r hr s hs => (told r (inside listed hr) s (inside listed hs)).mp ?_⟩
    rw [texts r hr, texts s hs]
  · have apart := grouped.apart
    rw [List.Nodup, List.pairwise_map] at apart
    rw [List.pairwise_map]
    refine apart.imp_of_mem fun {group other} listed found names r hr s hs equal => names ?_
    have texts := (told r (inside listed hr) s (inside found hs)).mpr equal
    rw [(grouped.own group listed).2 r hr, (grouped.own other found).2 s hs] at texts
    exact texts

theorem Partitions.moved {same : Row → Row → Prop} {rows : List Row} {groups others : List (List Row)}
    (symmetric : ∀ r s, same r s → same s r) (parts : Partitions same rows groups) (moved : others.Perm groups) :
    Partitions same rows others where
  all := moved.flatten.trans parts.all
  own group mem := parts.own group (moved.mem_iff.mp mem)
  apart := (moved.pairwise_iff fun apart r hr s hs equal => apart s hs r hr (symmetric r s equal)).mpr parts.apart

section Keys

variable {fields : List Field} {rows : List Row} {r s row : Row}

/-- Rows of equal values in all the fields. -/
def SameGroup (fields : List Field) (r s : Row) : Prop := ∀ f ∈ fields, Equals (Row.value r f.column) (Row.value s f.column)

/-- Fields whose columns tell rows apart, of which at most one has texts with a bar before the start of another text. -/
structure GroupsApart (fields : List Field) (rows : List Row) : Prop where
  columns : ∀ f ∈ fields, f.TellsApart rows
  undivided : ∃ before free after, fields = before ++ free :: after ∧
    ∀ row ∈ rows, ∀ f ∈ before ++ after, ¬ Text.Divides startsColumn (columnChars (Row.value row f.column))

/-- The text by which the group of a row is known. -/
def groupChars (fields : List Field) (row : Row) : List Char :=
  Text.barred (fields.map fun f => columnChars (Row.value row f.column))

theorem keyWritten (groupable : ∀ f ∈ fields, Groupable (Row.value row f.column)) :
    groupKey (fields.map (·.column)) row = .ok (String.ofList (groupChars fields row)) := by
  have written : (fields.map (·.column)).mapM (fun c => groupText (Row.value row c)) =
      .ok (fields.map fun f => String.ofList (columnChars (Row.value row f.column))) := by
    rw [List.mapM_map]
    exact Results.mapAllOk fun f mem => columnWritten (groupable f mem)
  unfold groupKey groupChars
  rw [written]
  show Except.ok _ = Except.ok _
  rw [Except.ok.injEq, ← String.toList_inj, String.toList_intercalate, String.toList_ofList, List.map_map]
  simp only [Function.comp_def, String.toList_ofList]
  rfl

theorem charsAgree (told : GroupsApart fields rows) (hr : r ∈ rows) (hs : s ∈ rows) :
    groupChars fields r = groupChars fields s ↔ SameGroup fields r s := by
  have columns {f : Field} (mem : f ∈ fields) : columnChars (Row.value r f.column) = columnChars (Row.value s f.column) ↔
      Equals (Row.value r f.column) (Row.value s f.column) :=
    have tells := told.columns f mem
    columnOnce (tells.groupable r hr) (tells.groupable s hs) (tells.kinds r hr s hs) (tells.near r hr s hs)
  constructor
  · intro same
    obtain ⟨before, free, after, rfl, undivided⟩ := told.undivided
    have each := Text.barredOnce (fun f _ => columnStarts _) (fun f _ => columnStarts _) (undivided r hr) (undivided s hs) same
    exact fun f mem => (columns mem).mp (each f mem)
  · intro same
    exact congrArg Text.barred (List.map_congr_left fun f mem => (columns mem).mpr (same f mem))

theorem groupRowsPartition (told : GroupsApart fields rows) :
    ∃ groups, groupRows (fields.map (·.column)) rows = .ok groups ∧ Partitions (SameGroup fields) rows groups := by
  have some : fields.map (·.column) ≠ [] := by
    obtain ⟨before, free, after, rfl, -⟩ := told.undivided
    simp
  have written : ∀ row ∈ rows, groupKey (fields.map (·.column)) row = .ok (String.ofList (groupChars fields row)) :=
    fun row mem => keyWritten fun f listed => (told.columns f listed).groupable row mem
  obtain ⟨groups, ran, grouped⟩ := groupRowsGrouped some written
  refine ⟨_, ran, partitionsOfGrouped (fun r hr s hs => ?_) grouped⟩
  rw [String.ofList_inj]
  exact charsAgree told hr hs

end Keys

end Store

namespace FieldAggregate

open Results (Yields yieldsOk yieldsBind yieldsMono foldYields)

/-- An aggregate that the type of its field allows. -/
def Allowed (a : FieldAggregate) : Prop := (classes a.function).contains a.field.typeClass

/-- The value of an aggregate as it is read from an output row. -/
def reading (a : FieldAggregate) (v : Value) : Except Failure Value :=
  match a.function with
  | .min | .max => a.field.decode v
  | .count | .sum | .avg => numberOf v

section Values

variable {a : FieldAggregate} {vs : List Value} {f : Field}

theorem typedScalar {v : Value} (typed : f.HoldsTyped v) (there : v.isNothing = false) :
    (∃ x, Store.comparable v = .ok x) ∧ ∃ n, v.toNumber = .ok n := by
  have form := typed.resolve_left (by simp [there])
  generalize f.type = type at form
  cases form <;> exact ⟨⟨_, rfl⟩, _, rfl⟩

theorem totalYields (typed : ∀ v ∈ vs, f.HoldsTyped v ∧ v.isNothing = false) : Yields (Store.total vs) fun _ => True := by
  refine foldYields (fun sum _ v mem => ?_) trivial
  obtain ⟨n, number⟩ := (typedScalar (typed v mem).1 (typed v mem).2).2
  rw [number]
  exact yieldsOk trivial

/-- The least and the greatest of some values are among them. -/
theorem extremeYields (wanted : Ordering) (typed : ∀ v ∈ vs, f.HoldsTyped v ∧ v.isNothing = false) :
    Yields (Store.extreme wanted vs) f.HoldsTyped := by
  cases vs with
  | nil => exact yieldsOk (.inl rfl)
  | cons first rest =>
    obtain ⟨here, later⟩ := List.forall_mem_cons.mp typed
    have compares {v : Value} (held : f.HoldsTyped v ∧ v.isNothing = false) : Yields (Store.comparable v) fun _ => True :=
      (typedScalar held.1 held.2).1.imp fun x compared => ⟨compared, trivial⟩
    have kept : Yields (Store.extreme wanted (first :: rest)) fun v => f.HoldsTyped v ∧ v.isNothing = false := by
      refine foldYields (fun best held v mem => ?_) here
      refine yieldsBind (Store.orderYields (compares (later v mem)) (compares held)) fun o _ => ?_
      split
      · exact yieldsOk (later v mem)
      · exact yieldsOk held
    exact yieldsMono kept fun v held => held.1

/-- An aggregate that is allowed has a value, and that value is read back. -/
theorem aggregateReads (allowed : a.Allowed) (typed : ∀ v ∈ vs, a.field.HoldsTyped v ∧ v.isNothing = false) :
    Yields (Store.aggregateOf (.of a.function) vs) fun v => ∃ w, a.reading v = .ok w := by
  have summed (of : Number → Number) (reads : ∀ v, a.reading v = numberOf v) :
      Yields (if vs.isEmpty then return .null else return .number (of (← Store.total vs)) : Except Failure Value)
        fun v => ∃ w, a.reading v = .ok w := by
    split
    · refine yieldsOk ?_
      rw [reads]
      exact ⟨_, rfl⟩
    · refine yieldsBind (totalYields typed) fun n _ => yieldsOk ?_
      rw [reads]
      exact ⟨_, rfl⟩
  have chosen (wanted : Ordering) (reads : ∀ v, a.reading v = a.field.decode v) :
      Yields (Store.extreme wanted vs) fun v => ∃ w, a.reading v = .ok w := by
    refine yieldsMono (extremeYields wanted typed) fun v held => ?_
    rw [reads, Field.typedReads held]
    exact ⟨_, rfl⟩
  have reads (v : Value) : a.reading v = match a.function with
      | .min | .max => a.field.decode v
      | .count | .sum | .avg => numberOf v := rfl
  cases function : a.function with
  | count =>
    unfold Allowed at allowed
    rw [function] at allowed
    cases allowed
  | sum => exact summed id fun v => by rw [reads, function]
  | avg => exact summed (·.div (.integer vs.length)) fun v => by rw [reads, function]
  | min => exact chosen .lt fun v => by rw [reads, function]
  | max => exact chosen .gt fun v => by rw [reads, function]

theorem labelChars (a : FieldAggregate) : a.label.toList = '_' :: (a.function.tag.toList ++ '_' :: a.field.name.toList) := by
  show ("_" ++ a.function.tag ++ "_" ++ a.field.name).toList = _
  simp

theorem labelOnce {b : FieldAggregate} (allowed : a.Allowed) (other : b.Allowed) (same : a.label = b.label) :
    a.function = b.function ∧ a.field.name = b.field.name := by
  have chars := congrArg String.toList same
  rw [labelChars, labelChars] at chars
  obtain ⟨fa, field⟩ := a
  obtain ⟨fb, another⟩ := b
  cases fa <;> cases fb <;> first | cases allowed | cases other | simp [Aggregation.tag] at chars
  all_goals exact ⟨rfl, String.toList_inj.mp chars⟩

theorem labelCount (allowed : a.Allowed) : a.label ≠ countRows.label := by
  intro same
  have chars := congrArg String.toList same
  rw [labelChars] at chars
  obtain ⟨fa, field⟩ := a
  cases fa <;> first | cases allowed | simp [Aggregation.tag, countRows] at chars

end Values

/-- Aggregates of fields of an entity that their types allow, of columns that hold what those types store. -/
structure Asked (e : Entity) (requests : List FieldAggregate) (rows : List Row) : Prop where
  names : (e.fields.map (·.name)).Nodup
  each : ∀ a ∈ requests, a.field ∈ e.fields ∧ a.Allowed ∧ ∀ row ∈ rows, a.field.HoldsTyped (Row.value row a.field.column)

section Asking

variable {e : Entity} {requests : List FieldAggregate} {rows group : List Row} {out other : Row}

theorem readOk {n : Nat} (count : Row.value out countRows.label = .nat n) (reads : ∀ a ∈ requests, ∃ w, valueIn out a = .ok w) :
    ∃ values, read requests out = .ok [("_count", .nat n), ("_sum", .object (members .sum values)),
      ("_avg", .object (members .avg values)), ("_min", .object (members .min values)),
      ("_max", .object (members .max values))] := by
  obtain ⟨values, ran⟩ : ∃ values, requests.mapM (fun a => do return (a, ← valueIn out a)) = .ok values := by
    refine Results.existsMapAll.mpr fun a mem => ?_
    obtain ⟨w, valued⟩ := reads a mem
    rw [valued]
    exact ⟨(a, w), rfl⟩
  refine ⟨values, ?_⟩
  unfold read
  rw [show Row.value out "_count" = .nat n from count, ran]
  rfl

/-- Nothing is read but what was asked for. -/
theorem readSame (same : ∀ a ∈ selection requests, Row.value out a.label = Row.value other a.label) :
    read requests out = read requests other := by
  have each : ∀ a ∈ requests, (do return (a, ← valueIn out a) : Except Failure _) = do return (a, ← valueIn other a) := by
    intro a mem
    unfold valueIn
    rw [show Row.value out a.label = Row.value other a.label from
      same a.toAggregate (List.mem_cons_of_mem _ (List.mem_map_of_mem mem))]
  unfold read
  rw [show Row.value out "_count" = Row.value other "_count" from same countRows List.mem_cons_self, Results.mapSame each]

theorem Asked.within (asked : Asked e requests rows) (inside : ∀ row ∈ group, row ∈ rows) : Asked e requests group where
  names := asked.names
  each a mem :=
    have ⟨field, allowed, typed⟩ := asked.each a mem
    ⟨field, allowed, fun row member => typed row (inside row member)⟩

theorem Asked.selectionOnce (asked : Asked e requests rows) :
    ∀ a ∈ selection requests, ∀ b ∈ selection requests, a.label = b.label → a = b := by
  have counted {a : FieldAggregate} (mem : a ∈ requests) : a.toAggregate.label ≠ countRows.label :=
    labelCount (asked.each a mem).2.1
  intro a ha b hb same
  rcases List.mem_cons.mp ha with rfl | ha <;> rcases List.mem_cons.mp hb with rfl | hb
  · rfl
  · obtain ⟨b, mem, rfl⟩ := List.mem_map.mp hb
    exact absurd same.symm (counted mem)
  · obtain ⟨a, mem, rfl⟩ := List.mem_map.mp ha
    exact absurd same (counted mem)
  · obtain ⟨a, memA, rfl⟩ := List.mem_map.mp ha
    obtain ⟨b, memB, rfl⟩ := List.mem_map.mp hb
    obtain ⟨fieldA, allowedA, -⟩ := asked.each a memA
    obtain ⟨fieldB, allowedB, -⟩ := asked.each b memB
    obtain ⟨functions, names⟩ := labelOnce allowedA allowedB same
    obtain ⟨fa, field⟩ := a
    obtain ⟨fb, another⟩ := b
    obtain rfl := List.inj_on_of_nodup_map asked.names fieldA fieldB names
    cases functions
    rfl

theorem Asked.values (asked : Asked e requests rows) {a : FieldAggregate} (mem : a ∈ requests) :
    ∃ v, Store.aggregateValue a.toAggregate rows = .ok v ∧ ∃ w, a.reading v = .ok w := by
  obtain ⟨-, allowed, typed⟩ := asked.each a mem
  refine aggregateReads allowed fun v listed => ?_
  obtain ⟨listed, there⟩ := List.mem_filter.mp listed
  obtain ⟨row, member, rfl⟩ := List.mem_map.mp listed
  exact ⟨typed row member, by simpa using there⟩

/-- What is asked for is put into a row under its labels, and hides a column of the same name. -/
theorem Asked.putRow (asked : Asked e requests rows) (start : Row) :
    ∃ out, (selection requests).foldlM (fun out a => do return Record.put out a.label (← Store.aggregateValue a rows)) start =
        Except.ok (ε := Failure) out ∧
      (∀ name, name ∉ (selection requests).map (·.label) → Row.value out name = Row.value start name) ∧
      ∀ a ∈ selection requests, Store.aggregateValue a rows = .ok (Row.value out a.label) := by
  let value (a : Aggregate) : Value := Results.valueOr .null (Store.aggregateValue a rows)
  have valued : ∀ a ∈ selection requests, Store.aggregateValue a rows = .ok (value a) := by
    intro a mem
    rcases List.mem_cons.mp mem with rfl | mem
    · rfl
    · obtain ⟨a, listed, rfl⟩ := List.mem_map.mp mem
      obtain ⟨v, found, -⟩ := asked.values listed
      exact Results.eqOkValueOr .null ⟨v, found⟩
  obtain ⟨others, own⟩ := Row.valuesPut Aggregate.label value (selection requests) start
  refine ⟨(selection requests).foldl (fun row a => Record.put row a.label (value a)) start, ?_, others, fun a mem => ?_⟩
  · refine Results.foldOk fun out a mem => ?_
    rw [valued a mem]
    rfl
  · rw [own a mem fun b member same => congrArg value (asked.selectionOnce b member a mem same)]
    exact valued a mem

theorem Asked.reads (asked : Asked e requests rows)
    (held : ∀ a ∈ selection requests, Store.aggregateValue a rows = .ok (Row.value out a.label)) :
    ∀ a ∈ requests, ∃ w, valueIn out a = .ok w := by
  intro a mem
  obtain ⟨v, found, reads⟩ := asked.values mem
  obtain rfl := Except.ok.inj (found.symm.trans (held a.toAggregate (List.mem_cons_of_mem _ (List.mem_map_of_mem mem))))
  exact reads

/-- What is asked for of rows that are one group. -/
def gather (requests : List FieldAggregate) (rows : List Row) : Except Failure Row := do
  let out ← (selection requests).foldlM (fun out a => do return Record.put out a.label (← Store.aggregateValue a rows)) []
  read requests out

/-- What is asked for of rows is read from every row that it has been put into. -/
theorem Asked.gathered (asked : Asked e requests rows) : ∃ parts, gather requests rows = .ok parts ∧
    Row.value parts "_count" = .nat rows.length ∧
      ∀ out, (∀ a ∈ selection requests, Store.aggregateValue a rows = .ok (Row.value out a.label)) → read requests out = .ok parts := by
  obtain ⟨out, ran, -, held⟩ := asked.putRow []
  have count : Row.value out countRows.label = .nat rows.length :=
    (Except.ok.inj (held countRows List.mem_cons_self)).symm
  obtain ⟨values, shown⟩ := readOk count (asked.reads held)
  have gathered : gather requests rows = read requests out := by
    unfold gather
    rw [ran]
    rfl
  refine ⟨_, gathered.trans shown, rfl, fun other same => ?_⟩
  rw [← shown]
  exact readSame fun a mem => Except.ok.inj ((same a mem).symm.trans (held a mem))

end Asking

end FieldAggregate

/-- The rows that groups are made of, and what is asked of them: the grouped columns tell the rows apart and are not named as
the parts of the output are, and the aggregates are of columns whose values are stored as their type asks. -/
structure GroupRead.Fits (e : Entity) (g : GroupRead) (found : List Row) : Prop where
  names : (e.fields.map (·.name)).Nodup
  grouped : ∀ f ∈ g.grouped, f ∈ e.fields
  typed : ∀ f ∈ g.grouped, f.type ≠ .opaqueType →
    f.typeClass ≠ .float ∧ ∀ row ∈ found, f.HoldsTyped (Row.value row f.column)
  opaqueTold : ∀ f ∈ g.grouped, f.type = .opaqueType → f.TellsApart found
  undivided : ∃ before free after, g.grouped = before ++ free :: after ∧
    ∀ row ∈ found, ∀ f ∈ before ++ after, ¬ Text.Divides Store.startsColumn (Store.columnChars (Row.value row f.column))
  untitled : ∀ f ∈ g.grouped, f.name ∉ ["_count", "_sum", "_avg", "_min", "_max"]
  unlabelled : ∀ f ∈ g.grouped, f.column ∉ (FieldAggregate.selection g.requests).map (·.label)
  requests : ∀ a ∈ g.requests,
    a.field ∈ e.fields ∧ a.Allowed ∧ ∀ row ∈ found, a.field.HoldsTyped (Row.value row a.field.column)
  order : ∀ t ∈ g.order, t.column = FieldAggregate.countRows.label ∨ ∃ f ∈ g.grouped, t.column = f.column

/-- An output row shows a group: the values that its rows have in the grouped fields, and how many rows it has. -/
structure GroupRead.Shows (g : GroupRead) (group : List Row) (out : Row) : Prop where
  keys : ∀ row ∈ group.head?, ∀ f ∈ g.grouped, f.decode (Row.value row f.column) = .ok (Row.value out f.name)
  count : Row.value out "_count" = .nat group.length

namespace GroupRead

variable {e : Entity} {g : GroupRead} {found group : List Row} {head : Row} {rest : List Row}

theorem Fits.told (fits : g.Fits e found) : Store.GroupsApart g.grouped found where
  columns f mem := by
    by_cases custom : f.type = .opaqueType
    · exact fits.opaqueTold f mem custom
    · obtain ⟨exact, typed⟩ := fits.typed f mem custom
      exact Field.typedTells exact typed
  undivided := fits.undivided

theorem Fits.asked (fits : g.Fits e found) : FieldAggregate.Asked e g.requests found := ⟨fits.names, fits.requests⟩

/-- The row of a group before it is read: its columns, its number of rows, and aggregates that are read back. -/
theorem groupRowHolds {q : Grouping} (columns : q.columns = g.grouped.map (·.column))
    (aggregates : q.aggregates = FieldAggregate.selection g.requests)
    (fits : g.Fits e found) (inside : ∀ row ∈ head :: rest, row ∈ found) :
    ∃ out, Store.groupRow q (head :: rest) = .ok out ∧ (∀ f ∈ g.grouped, Row.value out f.column = Row.value head f.column) ∧
      Row.value out FieldAggregate.countRows.label = .nat (head :: rest).length ∧
      ∀ a ∈ g.requests, ∃ w, FieldAggregate.valueIn out a = .ok w := by
  let keys : Row := g.grouped.foldl (fun out f => Record.put out f.column (Row.value head f.column)) []
  have asked := fits.asked.within inside
  obtain ⟨out, ran, others, held⟩ := asked.putRow keys
  refine ⟨out, ?_, fun f mem => ?_, ?_, asked.reads held⟩
  · unfold Store.groupRow
    rw [columns, aggregates, List.foldl_map]
    exact ran
  · rw [others f.column (fits.unlabelled f mem)]
    exact (Row.valuesPut (·.column) (fun f => Row.value head f.column) g.grouped []).2 f mem fun _ _ same =>
      congrArg (Row.value head) same
  · exact (Except.ok.inj (held FieldAggregate.countRows List.mem_cons_self)).symm

/-- An output row that holds what its group holds is read as a row that shows the group. -/
theorem groupOutputShows (fits : g.Fits e found) (inside : ∀ row ∈ head :: rest, row ∈ found) {out : Row}
    (columns : ∀ f ∈ g.grouped, Row.value out f.column = Row.value head f.column)
    (count : Row.value out FieldAggregate.countRows.label = .nat (head :: rest).length)
    (reads : ∀ a ∈ g.requests, ∃ w, FieldAggregate.valueIn out a = .ok w) :
    ∃ shown, Context.groupOutput g out = .ok shown ∧ g.Shows (head :: rest) shown := by
  let read (f : Field) : Value := Results.valueOr .null (f.decode (Row.value head f.column))
  have decodes : ∀ f ∈ g.grouped, f.decode (Row.value head f.column) = .ok (read f) := fun f mem =>
    Results.eqOkValueOr .null ((fits.told.columns f mem).reads head (inside head List.mem_cons_self))
  let keys : Row := g.grouped.foldl (fun out f => Record.put out f.name (read f)) []
  have keyed : (g.grouped.foldlM (fun keys f => do return Record.put keys f.name (← f.decode (Row.value out f.column))) [] :
    Except Failure Row) =
      .ok keys := by
    refine Results.foldOk fun keys f mem => ?_
    rw [columns f mem, decodes f mem]
    rfl
  obtain ⟨values, aggregates⟩ := FieldAggregate.readOk count reads
  let parts : Row := [("_count", .nat (head :: rest).length), ("_sum", .object (FieldAggregate.members .sum values)),
    ("_avg", .object (FieldAggregate.members .avg values)), ("_min", .object (FieldAggregate.members .min values)),
    ("_max", .object (FieldAggregate.members .max values))]
  have shown : Context.groupOutput g out = .ok (Record.merge keys parts) := by
    unfold Context.groupOutput
    rw [keyed, aggregates]
    rfl
  -- the parts are put after the fields, and would hide a field of the same name
  obtain ⟨others, own⟩ := Row.valuesPut Prod.fst Prod.snd parts keys
  refine ⟨_, shown, ⟨fun row first f mem => ?_, own _ List.mem_cons_self (by simp [parts])⟩⟩
  obtain rfl := Option.some.inj first
  have held : Row.value keys f.name = read f := by
    refine (Row.valuesPut (·.name) read g.grouped []).2 f mem fun h member same => ?_
    rw [List.inj_on_of_nodup_map fits.names (fits.grouped h member) (fits.grouped f mem) same]
  rw [decodes f mem, ← held]
  exact congrArg Except.ok (others f.name (fits.untitled f mem)).symm

/-- The statement that reads groups without bounds. -/
def grouping (g : GroupRead) (e : Entity) (condition : Condition) : Grouping :=
  ⟨e.table, condition, g.grouped.map (·.column), FieldAggregate.selection g.requests, none, g.order, .null, .null⟩

/-- The output rows of the groups that pass. -/
theorem groupOutputsKept {ι : Type} {q : Grouping} {members : ι → List Row} {row : ι → Row} {p : ι → Bool} {items : List ι}
    (rows : ∀ x ∈ items, Store.groupRow q (members x) = .ok (row x))
    (passes : ∀ x ∈ items, Store.passes (members x) q.having = .ok (p x)) :
    Store.groupOutputs q (items.map members) = .ok ((items.filter p).map row) := by
  have outputs : (items.map members).mapM (fun rows => do
      let row ← Store.groupRow q rows
      return if ← Store.passes rows q.having then some row else none) =
        .ok (items.map fun x => if p x then some (row x) else none) := by
    rw [List.mapM_map]
    refine Results.mapAllOk fun x mem => ?_
    rw [Function.comp_apply, rows x mem]
    change (do return if ← Store.passes (members x) q.having then some (row x) else none) = _
    rw [passes x mem]
    rfl
  unfold Store.groupOutputs
  rw [outputs]
  show Except.ok _ = Except.ok _
  rw [List.filterMap_map, Function.id_comp, ← List.filterMap_eq_map, ← List.filterMap_eq_filter, List.filterMap_filterMap]
  refine congrArg Except.ok (congrArg (List.filterMap · items) (funext fun x => ?_))
  cases kept : p x <;> simp [kept, Option.guard]

theorem pageAll (rows : List Row) : Store.page .null .null rows = .ok rows := rfl

/-- The groups that the store gives, in the order of the terms, are those of the rows, each shown by its output. -/
theorem groupRan {b : Store} {condition : Condition} (fits : g.Fits e found) (matched : b.matching e.table condition = .ok found) :
    ∃ groups rows, b.group (g.grouping e condition) = .ok rows ∧ Store.Partitions (Store.SameGroup g.grouped) found groups ∧
      List.Forall₂ (fun row group => ∃ shown, Context.groupOutput g row = .ok shown ∧ g.Shows group shown) rows groups := by
  obtain ⟨groups, grouped, parts⟩ := Store.groupRowsPartition fits.told
  have held : ∀ group ∈ groups, ∃ out, Store.groupRow (g.grouping e condition) group = .ok out ∧
      (∀ t ∈ g.order, Store.Settles (Row.value out t.column)) ∧ ∃ shown, Context.groupOutput g out = .ok shown ∧
        g.Shows group shown := by
    intro group mem
    have inside : ∀ row ∈ group, row ∈ found := fun row member =>
      parts.all.mem_iff.mp (List.mem_flatten.mpr ⟨group, mem, member⟩)
    obtain ⟨head, rest, rfl⟩ := List.exists_cons_of_ne_nil (parts.own group mem).1
    obtain ⟨out, ran, columns, count, reads⟩ := groupRowHolds (q := g.grouping e condition) rfl rfl fits inside
    refine ⟨out, ran, fun t listed => ?_, groupOutputShows fits inside columns count reads⟩
    rcases fits.order t listed with counts | ⟨f, member, own⟩
    · rw [counts, count]
      exact .inr ⟨_, rfl, trivial⟩
    · rw [own, columns f member]
      exact Store.settlesGroupable ((fits.told.columns f member).groupable head (inside head List.mem_cons_self))
  let output (group : List Row) : Row := Results.valueOr [] (Store.groupRow (g.grouping e condition) group)
  have outputs : ∀ group ∈ groups, Store.groupRow (g.grouping e condition) group = .ok (output group) := fun group mem =>
    Results.eqOkValueOr [] ((held group mem).imp fun out held => held.1)
  have shows : ∀ group ∈ groups, (∀ t ∈ g.order, Store.Settles (Row.value (output group) t.column)) ∧
      ∃ shown, Context.groupOutput g (output group) = .ok shown ∧ g.Shows group shown := by
    intro group mem
    obtain ⟨out, ran, rest⟩ := held group mem
    obtain rfl := Except.ok.inj (ran.symm.trans (outputs group mem))
    exact rest
  have settled : ∀ row ∈ groups.map output, ∀ t ∈ g.order, Store.Settles (Row.value row t.column) := by
    intro row mem
    obtain ⟨group, listed, rfl⟩ := List.mem_map.mp mem
    exact (shows group listed).1
  obtain ⟨rows, sorted, moved⟩ := Store.sortRowsYields settled
  have whole : Store.groupOutputs (g.grouping e condition) groups = .ok (groups.map output) := by
    have kept := @groupOutputsKept _ (g.grouping e condition) id output (fun _ => true) groups outputs fun _ _ => rfl
    rwa [List.map_id, List.filter_true] at kept
  have ran : b.group (g.grouping e condition) = .ok rows := by
    show (b.matching e.table condition >>= _) = _
    rw [matched]
    show (Store.groupRows _ found >>= _) = _
    rw [show Store.groupRows (g.grouping e condition).columns found = .ok groups from grouped]
    show (Store.groupOutputs _ groups >>= _) = _
    rw [whole]
    show (Store.sortRows g.order (groups.map output) >>= _) = _
    rw [sorted]
    exact pageAll rows
  have paired : List.Forall₂ (fun row group => ∃ shown, Context.groupOutput g row = .ok shown ∧ g.Shows group shown)
    (groups.map output) groups := by
    rw [List.forall₂_map_left_iff, List.forall₂_same]
    exact fun group mem => (shows group mem).2
  -- the groups stand in the order that their outputs are sorted in
  obtain ⟨others, inOrder, same⟩ := List.perm_comp_forall₂ moved paired
  exact ⟨others, rows, ran, parts.moved (fun r s equal f mem => (equal f mem).symm) same, inOrder⟩

end GroupRead

namespace Context

variable {c : Context} {e : Entity} {g : GroupRead} {s : Session Store} {condition : Condition} {found : List Row}

theorem groupAnswered {β : Type} (c : Context) (q : Grouping) (next : List Row → Except Failure β) (s : Session Store) :
    (do
      let rows ← c.group q
      liftM (next rows) : Action Store β).answer s = (s.backend.group q >>= next).toOption := by
  have ran : (c.group q).runOn s = (s.backend.group q, s.withBackend (s.backend.record .aggregate q.table)) := rfl
  unfold Action.answer Action.outcome
  rw [Step.runBind, ran]
  cases s.backend.group q with
  | error failure => rfl
  | ok rows =>
    dsimp only
    rw [Step.runLift]
    cases same : next rows with
    | error failure => simp [same, Session.ended, Except.toOption, bind, Except.bind]
    | ok b => simp [same, Session.ended, Except.toOption, bind, Except.bind]

theorem groupsAnswer {rows out : List Row} (whole : g.having = none ∧ g.limit = none ∧ g.offset = none)
    (compiled : c.condition e g.filter = .ok condition) (ran : s.backend.group (g.grouping e condition) = .ok rows)
    (read : rows.mapM (groupOutput g) = .ok out) : (c.groups e g : Action Store (List Row)).answer s = some out := by
  obtain ⟨having, limit, offset⟩ := whole
  unfold Context.groups
  rw [compiled, having, limit, offset]
  show Action.answer (c.group (g.grouping e condition) >>= fun rows => rows.mapM fun row => liftM (groupOutput g row)) s = _
  simp only [Step.mapLift]
  rw [groupAnswered, ran]
  exact congrArg Except.toOption read

theorem countMatchingAnswer (compiled : c.condition e g.filter = .ok condition)
    (matched : s.backend.matching e.table condition = .ok found) :
    (c.countMatching e g.filter : Action Store Number).answer s = some (.integer found.length) := by
  unfold countMatching
  rw [compiled]
  show Action.answer (c.count ⟨e.table, condition⟩) s = _
  unfold Action.answer
  rw [countOutcome]
  unfold Store.countRows
  rw [matched]
  rfl

/-- Equal values in all grouped fields. -/
def SameKeys (g : GroupRead) (p q : Row) : Prop := ∀ f ∈ g.grouped, (Row.value p f.name).exact = (Row.value q f.name).exact

/-- Groups that tell no rows apart are not shown by one set of values. -/
theorem keysApart (fits : g.Fits e found) {group other : List Row} {p q : Row} (inside : ∀ row ∈ group, row ∈ found)
    (within : ∀ row ∈ other, row ∈ found) (some : group ≠ []) (any : other ≠ []) (shows : g.Shows group p)
    (shown : g.Shows other q)
    (apart : ∀ r ∈ group, ∀ s ∈ other, ¬ Store.SameGroup g.grouped r s) : ¬ SameKeys g p q := by
  obtain ⟨r, rest, rfl⟩ := List.exists_cons_of_ne_nil some
  obtain ⟨t, more, rfl⟩ := List.exists_cons_of_ne_nil any
  intro same
  refine apart r List.mem_cons_self t List.mem_cons_self fun f mem => ?_
  exact (fits.told.columns f mem).faithful r (inside r List.mem_cons_self) t (within t List.mem_cons_self) _ _
    (shows.keys r rfl f mem) (shown.keys t rfl f mem) (same f mem)

theorem showsApart (fits : g.Fits e found) {groups : List (List Row)} {out : List Row} (shows : List.Forall₂ g.Shows groups out)
    (inside : ∀ group ∈ groups, group ≠ [] ∧ ∀ row ∈ group, row ∈ found)
    (apart : groups.Pairwise fun group other => ∀ r ∈ group, ∀ s ∈ other, ¬ Store.SameGroup g.grouped r s) :
    out.Pairwise fun p q => ¬ SameKeys g p q := by
  induction shows with
  | nil => exact .nil
  | @cons group row groups out first rest ih =>
    obtain ⟨here, later⟩ := List.pairwise_cons.mp apart
    obtain ⟨own, others⟩ := List.forall_mem_cons.mp inside
    refine List.pairwise_cons.mpr ⟨fun q mem => ?_, ih others later⟩
    obtain ⟨other, listed, shown⟩ := Results.pairedRight rest q mem
    exact keysApart fits own.2 (others other listed).2 own.1 (others other listed).1 first shown (here other listed)

/-- Groups divide the rows that match: two rows are in one group exactly if they are equal in every grouped column, no two
groups have the same values, each says how many rows it has, and together they have all that are counted. -/
theorem groupsPartition (compiled : c.condition e g.filter = .ok condition)
    (matched : s.backend.matching e.table condition = .ok found)
    (whole : g.having = none ∧ g.limit = none ∧ g.offset = none) (fits : g.Fits e found) :
    ∃ groups out, (c.groups e g : Action Store (List Row)).answer s = some out ∧
      Store.Partitions (Store.SameGroup g.grouped) found groups ∧ List.Forall₂ g.Shows groups out ∧
      (out.Pairwise fun p q => ¬ SameKeys g p q) ∧
      (c.countMatching e g.filter : Action Store Number).answer s = some (.integer (groups.map List.length).sum) := by
  obtain ⟨groups, rows, ran, parts, shown⟩ := GroupRead.groupRan fits matched
  obtain ⟨out, read⟩ : ∃ out, rows.mapM (groupOutput g) = .ok out := by
    refine Results.existsMapAll.mpr fun row mem => ?_
    obtain ⟨group, -, shown, read, -⟩ := Results.pairedLeft shown row mem
    exact ⟨shown, read⟩
  have shows : List.Forall₂ g.Shows groups out := by
    refine Results.pairedTrans shown.flip (Results.mapAllPaired read) ?_
    rintro group row o ⟨shown, given, shows⟩ read
    obtain rfl := Except.ok.inj (given.symm.trans read)
    exact shows
  have inside : ∀ group ∈ groups, group ≠ [] ∧ ∀ row ∈ group, row ∈ found := fun group mem =>
    ⟨(parts.own group mem).1, fun row member => parts.all.mem_iff.mp (List.mem_flatten.mpr ⟨group, mem, member⟩)⟩
  refine ⟨groups, out, groupsAnswer whole compiled ran read, parts, shows, showsApart fits shows inside parts.apart, ?_⟩
  rw [countMatchingAnswer compiled matched, ← parts.all.length_eq, List.length_flatten]

end Context

namespace Sample

/-- Users by name and by whom they lead, the largest groups first, with the sum of their keys. -/
def byName : GroupRead :=
  ⟨[nameField, leadField], [], [⟨.sum, idField⟩, ⟨.max, nameField⟩],
    [⟨"_count", .descending, none⟩, ⟨"lead_id", .ascending, none⟩], none, none, none⟩

/-- Users of whom two have one name and nobody who leads them, and one has a name with a bar. -/
def namesakes : List Row :=
  [row 1 (.text "Ann|number:1") .null, row 2 (.text "bob") (.int 1), row 3 (.text "bob") .null, row 4 (.text "bob") .null]

theorem namesTyped : ∀ row ∈ namesakes, nameField.HoldsTyped (Row.value row nameField.column) := by
  simp only [namesakes, List.forall_mem_cons]
  exact ⟨.inr .text, .inr .text, .inr .text, .inr .text, List.forall_mem_nil _⟩

theorem smallTyped {f : Field} (type : f.type = .integer .i32) {n : Nat} (few : n < 2 ^ 53) : f.HoldsTyped (.int n) := by
  refine .inr ?_
  rw [type]
  exact .narrow rfl ⟨n, 0, by simp, few⟩

theorem leadsTyped : ∀ row ∈ namesakes, leadField.HoldsTyped (Row.value row leadField.column) := by
  simp only [namesakes, List.forall_mem_cons]
  exact ⟨.inl rfl, smallTyped rfl (n := 1) (by decide), .inl rfl, .inl rfl, List.forall_mem_nil _⟩

theorem idsTyped : ∀ row ∈ namesakes, idField.HoldsTyped (Row.value row idField.column) := by
  simp only [namesakes, List.forall_mem_cons]
  exact ⟨smallTyped rfl (n := 1) (by decide), smallTyped rfl (n := 2) (by decide), smallTyped rfl (n := 3) (by decide),
    smallTyped rfl (n := 4) (by decide), List.forall_mem_nil _⟩

theorem namesakesFit : byName.Fits user namesakes where
  names := by decide
  grouped := by simp [byName, user]
  typed := by
    simp only [byName, List.forall_mem_cons]
    exact ⟨fun _ => ⟨by decide, namesTyped⟩, fun _ => ⟨by decide, leadsTyped⟩, List.forall_mem_nil _⟩
  opaqueTold := by
    simp only [byName, List.forall_mem_cons]
    exact ⟨fun custom => absurd custom (by decide), fun custom => absurd custom (by decide), List.forall_mem_nil _⟩
  undivided := by
    refine ⟨[], nameField, [leadField], rfl, fun row mem f listed => Store.numbersWhole ?_⟩
    obtain rfl := List.mem_singleton.mp listed
    revert row
    simp only [namesakes, List.forall_mem_cons]
    exact ⟨.inl rfl, .inr rfl, .inl rfl, .inl rfl, List.forall_mem_nil _⟩
  untitled := by decide
  unlabelled := by decide
  requests := by
    simp only [byName, List.forall_mem_cons]
    exact ⟨⟨List.mem_cons_self, rfl, idsTyped⟩, ⟨List.mem_cons_of_mem _ List.mem_cons_self, rfl, namesTyped⟩,
      List.forall_mem_nil _⟩
  order := by
    simp only [byName, List.forall_mem_cons]
    exact ⟨.inl rfl, .inr ⟨leadField, List.mem_cons_of_mem _ List.mem_cons_self, rfl⟩, List.forall_mem_nil _⟩

theorem namesakesPartition : (⟨registry, .pooled⟩ : Context).condition user byName.filter = .ok (.constant true) ∧
    (session false namesakes [] []).backend.matching user.table (.constant true) = .ok namesakes ∧ byName.Fits user namesakes ∧
    ∃ groups out, ((⟨registry, .pooled⟩ : Context).groups user byName : Action Store (List Row)).answer
      (session false namesakes [] []) = some out ∧
      Store.Partitions (Store.SameGroup byName.grouped) namesakes groups ∧ List.Forall₂ byName.Shows groups out ∧
      (out.Pairwise fun p q => ¬ Context.SameKeys byName p q) ∧
      ((⟨registry, .pooled⟩ : Context).countMatching user byName.filter : Action Store Number).answer
        (session false namesakes [] []) =
        some (.integer (groups.map List.length).sum) :=
  ⟨rfl, rfl, namesakesFit, Context.groupsPartition rfl rfl ⟨rfl, rfl, rfl⟩ namesakesFit⟩

end Sample

end EntityQuery
