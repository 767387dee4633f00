import EntityQuery.Proofs.Outcomes
import EntityQuery.Proofs.RelatedUpdates
import EntityQuery.Proofs.UniqueReads
/-! The row of a table that an operation changes: what assignments make of it, that they make the same of it in one
statement as in two where the second column is new, and that it is found again by its primary key. -/

namespace EntityQuery

namespace Store

variable {table : String} {fields : List Field} {row : Row}

theorem assignAllAppend (before : Row) (first second : List Assignment) (row : Row) :
    assignAll table fields before (first ++ second) row =
      match assignAll table fields before first row with
      | (some e, out) => (some e, out)
      | (none, out) => assignAll table fields before second out := by
  induction first generalizing row with
  | nil => rfl
  | cons a rest ih =>
    rw [List.cons_append, assignAll, assignAll]
    cases assigned table fields before a with
    | error e => rfl
    | ok v => exact ih _

/-- An assignment depends on the value of its own column only. -/
theorem assignedSame {a : Assignment} {other : Row} (same : Row.value row a.column = Row.value other a.column) :
    assigned table fields row a = assigned table fields other a := by
  unfold assigned
  rw [same]

theorem assignOne (before : Row) (a : Assignment) (row : Row) : assignAll table fields before [a] row =
    match assigned table fields before a with
    | .error e => (some e, row)
    | .ok v => (none, Record.put row a.column v) := by
  rw [assignAll]
  cases assigned table fields before a <;> rfl

theorem assignedOne {a : Assignment} {before next : Row} (made : assignAll table fields before [a] row = (none, next)) :
    ∃ v, assigned table fields before a = .ok v ∧ next = Record.put row a.column v := by
  rw [assignOne] at made
  split at made
  · cases made
  · rename_i v given
    cases made
    exact ⟨v, given, rfl⟩

end Store

namespace Entity

variable {e : Entity} {others : List Row} {stored next : Row} {row : Row}

/-- A row can be read if and only if each of its columns can. -/
theorem readableIff : (∃ row, e.read stored = .ok row) ↔ ∀ f ∈ e.fields, ∃ raw v,
    Store.returned e.fields f.column (Row.value stored f.column) = .ok raw ∧ f.decode raw = .ok v := by
  constructor
  · rintro ⟨row, read⟩ f mem
    obtain ⟨out, projected, decoding⟩ := Results.bindOk read
    obtain ⟨-, each⟩ := Results.mapAllValues ("", Value.null) decoding
    obtain ⟨pair, decoded⟩ := each f mem
    obtain ⟨v, decodes, -⟩ := Results.bindOk decoded
    exact ⟨_, v, Store.projectValue projected f.column (List.mem_map_of_mem mem), decodes⟩
  · intro each
    have projects : ∀ (columns : List String) (start : Row), (∀ column ∈ columns, ∃ f ∈ e.fields, f.column = column) →
        ∃ out, columns.foldlM (fun out c => do
          return Record.put out c (← Store.returned e.fields c (Row.value stored c))) start = .ok out := by
      intro columns
      induction columns with
      | nil => exact fun start _ => ⟨start, rfl⟩
      | cons column rest ih =>
        intro start known
        obtain ⟨⟨f, mem, rfl⟩, later⟩ := List.forall_mem_cons.mp known
        obtain ⟨raw, _, returned, -⟩ := each f mem
        obtain ⟨out, ran⟩ := ih (Record.put start f.column raw) later
        refine ⟨out, ?_⟩
        rw [List.foldlM_cons, returned]
        exact ran
    obtain ⟨out, projected⟩ := projects e.columns [] fun column mem => List.mem_map.mp mem
    have decodes : ∀ f ∈ e.fields, ∃ pair,
        (do return (f.name, ← f.decode (Row.value out f.column)) : Except Failure (String × Value)) = .ok pair := by
      intro f mem
      obtain ⟨raw, v, returned, decoded⟩ := each f mem
      have same := Store.projectValue projected f.column (List.mem_map_of_mem mem)
      rw [returned] at same
      rw [← Except.ok.inj same, decoded]
      exact ⟨_, rfl⟩
    refine ⟨e.fields.map fun f => Results.valueOr ("", .null) (do return (f.name, ← f.decode (Row.value out f.column))), ?_⟩
    rw [read, Store.project, projected]
    exact Results.mapAllOk fun f mem => Results.eqOkValueOr ("", .null) (decodes f mem)

/-- What assignments make of a row among others, with what is read of it then, none where they are refused. -/
def rewritten (e : Entity) (others : List Row) (stored : Row) (assignments : List Assignment) : Option (Row × Row) :=
  match Store.assignAll e.table e.fields stored assignments stored with
  | (some _, _) => none
  | (none, next) =>
    match Store.checkUnique e.table e.fields next others, e.read next with
    | .ok (), .ok row => some (next, row)
    | _, _ => none

theorem rewrittenIff {assignments : List Assignment} : e.rewritten others stored assignments = some (next, row) ↔
    Store.assignAll e.table e.fields stored assignments stored = (none, next) ∧
      Store.checkUnique e.table e.fields next others = .ok () ∧ e.read next = .ok row := by
  unfold rewritten
  constructor
  · intro made
    split at made
    · cases made
    · rename_i assigned
      split at made
      · rename_i checked read
        cases made
        exact ⟨assigned, checked, read⟩
      · cases made
  · rintro ⟨assigned, checked, read⟩
    rw [assigned]
    dsimp only
    rw [checked, read]

/-- An assignment to a column that the ones before it leave alone can as well be carried out after them. -/
theorem rewrittenSplit {assignments : List Assignment} {a : Assignment} (readable : ∃ row, e.read stored = .ok row)
    (apart : Store.checkUnique e.table e.fields stored others = .ok ()) (fresh : ∀ b ∈ assignments, b.column ≠ a.column) :
    e.rewritten others stored (assignments ++ [a]) =
      (e.rewritten others stored assignments).bind fun r => e.rewritten others r.1 [a] := by
  have own : ∀ between, Store.assignAll e.table e.fields stored assignments stored = (none, between) →
      Row.value between a.column = Row.value stored a.column := by
    intro between made
    have same : Row.value (Store.assignAll e.table e.fields stored assignments stored).2 a.column = Row.value stored a.column :=
      Store.assignedOther stored stored fresh
    rw [made] at same
    exact same
  refine Option.ext fun r => ?_
  obtain ⟨last, row⟩ := r
  rw [Option.bind_eq_some_iff]
  constructor
  · intro made
    obtain ⟨assigned, checked, read⟩ := rewrittenIff.mp made
    rw [Store.assignAllAppend] at assigned
    split at assigned
    · cases assigned
    · rename_i between first
      obtain ⟨v, given, rfl⟩ := Store.assignedOne assigned
      have others' : ∀ column, column ≠ a.column →
          Row.value (Record.put between a.column v) column = Row.value between column :=
        fun column other => Row.valuePutOther between v other
      have checkedThen : Store.checkUnique e.table e.fields between others = .ok () := by
        refine Store.checkedOf fun other mem f inside unique => ?_
        by_cases same : f.column = a.column
        · have clash := Store.checkedApart apart other mem f inside unique
          unfold Store.clashes at clash ⊢
          rw [same, own between first]
          rwa [same] at clash
        · have clash := Store.checkedApart checked other mem f inside unique
          unfold Store.clashes at clash ⊢
          rwa [others' f.column same] at clash
      obtain ⟨rowThen, readThen⟩ : ∃ row, e.read between = .ok row := by
        refine readableIff.mpr fun f inside => ?_
        by_cases same : f.column = a.column
        · obtain ⟨raw, u, returned, decodes⟩ := readableIff.mp readable f inside
          refine ⟨raw, u, ?_, decodes⟩
          rw [same] at returned ⊢
          rwa [own between first]
        · obtain ⟨raw, u, returned, decodes⟩ := readableIff.mp ⟨row, read⟩ f inside
          refine ⟨raw, u, ?_, decodes⟩
          rwa [others' f.column same] at returned
      refine ⟨(between, rowThen), rewrittenIff.mpr ⟨first, checkedThen, readThen⟩, rewrittenIff.mpr ⟨?_, checked, read⟩⟩
      rw [Store.assignOne, Store.assignedSame (own between first), given]
  · rintro ⟨⟨between, rowThen⟩, made, later⟩
    obtain ⟨first, -, -⟩ := rewrittenIff.mp made
    obtain ⟨second, checked, read⟩ := rewrittenIff.mp later
    refine rewrittenIff.mpr ⟨?_, checked, read⟩
    obtain ⟨v, given, rfl⟩ := Store.assignedOne second
    rw [Store.assignedSame (own between first)] at given
    rw [Store.assignAllAppend, first]
    dsimp only
    rw [Store.assignOne, given]

end Entity

namespace Store

variable {table : String} {fields : List Field} {assignments : List Assignment}

theorem updateFromUnflagged (before changed rows : List Row) :
    updateFrom table fields assignments before changed (rows.map fun row => (false, row)) = ⟨changed, before ++ rows, none⟩ := by
  induction rows generalizing before with
  | nil => rw [List.map_nil, updateFrom, List.append_nil]
  | cons row rest ih => rw [List.map_cons, updateFromPassed, ih, List.append_assoc, List.singleton_append]

theorem updateFromPast (before changed passed : List Row) (rest : List (Bool × Row)) :
    updateFrom table fields assignments before changed (passed.map (fun row => (false, row)) ++ rest) =
      updateFrom table fields assignments (before ++ passed) changed rest := by
  induction passed generalizing before with
  | nil => rw [List.map_nil, List.nil_append, List.append_nil]
  | cons row more ih =>
    rw [List.map_cons, List.cons_append, updateFromPassed, ih, List.append_assoc, List.singleton_append]

/-- An update of one row among others. -/
theorem updateFromOne (before after : List Row) (stored : Row) :
    updateFrom table fields assignments [] []
        (before.map (fun row => (false, row)) ++ (true, stored) :: after.map fun row => (false, row)) =
      match refusal? table fields assignments stored (before ++ after) with
      | some e => ⟨[], before ++ assignedRow table fields assignments stored :: after, some e⟩
      | none => ⟨[assignedRow table fields assignments stored], before ++ assignedRow table fields assignments stored :: after, none⟩ := by
  have others : (after.map fun row => (false, row)).map (·.2) = after := by
    rw [List.map_map]
    exact List.map_id after
  rw [updateFromPast, List.nil_append, updateFromFlagged, others]
  cases refusal? table fields assignments stored (before ++ after) with
  | some e => rfl
  | none =>
    dsimp only
    rw [updateFromUnflagged, List.append_assoc]
    rfl

theorem writtenOne {columns : List String} (listed : columns ≠ []) (row : Row) :
    written fields columns [row] = (do return ⟨.integer 1, [← project fields columns row]⟩) := by
  have some : columns.isEmpty = false := by simpa using listed
  unfold written returning
  rw [some]
  change (do return ⟨.integer 1, ← [row].mapM (project fields columns)⟩ : Except Failure Written) = _
  rw [List.mapM_cons, List.mapM_nil]
  cases project fields columns row <;> rfl

/-- The flags of a condition that can be decided of every row. -/
theorem flaggedDecided {s : Store} {c : Condition} {rows : List Row} (columns : Record.get? s.fields table = some fields)
    (there : Record.get? s.tables table = some rows) (decided : ∀ row ∈ rows, ∃ b, matchesRow s.tables table c row = .ok b) :
    s.flagged table c = .ok (fields, rows.map fun row => (isMatch s.tables table c row, row)) := by
  have known : s.fieldsOf table = .ok fields := by
    unfold fieldsOf
    rw [columns]
  have held : s.rowsOf table = .ok rows := by
    unfold rowsOf tableRows
    rw [there]
  have flags : (rows.mapM fun row => do return (← matchesRow s.tables table c row, row) : Except Failure (List (Bool × Row))) =
      .ok (rows.map fun row => (isMatch s.tables table c row, row)) := by
    refine Results.mapAllOk fun row mem => ?_
    rw [Results.eqOkValueOr false (decided row mem)]
    rfl
  unfold Store.flagged
  rw [known, held]
  change (do return (fields, ← rows.mapM fun row => do return (← matchesRow s.tables table c row, row))) = _
  rw [flags]
  rfl

theorem isMatchOf {s : Store} {c : Condition} {row : Row} {b : Bool} (matched : matchesRow s.tables table c row = .ok b) :
    isMatch s.tables table c row = b := by
  unfold isMatch
  rw [matched]
  rfl

theorem flagsNone {s : Store} {c : Condition} {rows : List Row} (others : ∀ row ∈ rows, matchesRow s.tables table c row = .ok false) :
    (rows.map fun row => (isMatch s.tables table c row, row)) = rows.map fun row => (false, row) := by
  refine List.map_congr_left fun row mem => ?_
  rw [isMatchOf (others row mem)]

/-- The flags of a condition that is true of one row only. -/
theorem flaggedOne {s : Store} {c : Condition} {before after : List Row} {stored : Row}
    (columns : Record.get? s.fields table = some fields) (there : Record.get? s.tables table = some (before ++ stored :: after))
    (own : matchesRow s.tables table c stored = .ok true)
    (others : ∀ row ∈ before ++ after, matchesRow s.tables table c row = .ok false) :
    s.flagged table c =
      .ok (fields, before.map (fun row => (false, row)) ++ (true, stored) :: after.map fun row => (false, row)) := by
  rw [flaggedDecided columns there, List.map_append, List.map_cons, isMatchOf own,
    flagsNone fun row mem => others row (List.mem_append_left _ mem),
    flagsNone fun row mem => others row (List.mem_append_right _ mem)]
  intro row mem
  rcases List.mem_cons.mp (List.perm_middle.mem_iff.mp mem) with rfl | among
  · exact ⟨true, own⟩
  · exact ⟨false, others row among⟩

/-- An update whose condition is true of one row only. -/
theorem updateRowsOne {s : Store} {q : Update} {before after : List Row} {stored : Row}
    (columns : Record.get? s.fields q.table = some fields) (there : Record.get? s.tables q.table = some (before ++ stored :: after))
    (own : matchesRow s.tables q.table q.condition stored = .ok true)
    (others : ∀ row ∈ before ++ after, matchesRow s.tables q.table q.condition row = .ok false) :
    s.updateRows q =
      match refusal? q.table fields q.assignments stored (before ++ after) with
      | some e => (.error e, s.setRows q.table (before ++ assignedRow q.table fields q.assignments stored :: after))
      | none =>
        (written fields q.returning [assignedRow q.table fields q.assignments stored],
          s.setRows q.table (before ++ assignedRow q.table fields q.assignments stored :: after)) := by
  unfold updateRows
  rw [flaggedOne columns there own others]
  unfold updateFlagged
  dsimp only
  rw [updateFromOne]
  cases refusal? q.table fields q.assignments stored (before ++ after) <;> rfl

/-- Of rows without a flag a delete takes none. -/
theorem unflagged (rows : List Row) : (rows.map fun row => (false, row)).filter (·.1) = [] ∧
    ((rows.map fun row => (false, row)).filter fun r => !r.1).map (·.2) = rows := by
  refine ⟨List.filter_eq_nil_iff.mpr fun flag mem => ?_, ?_⟩
  · obtain ⟨row, -, rfl⟩ := List.mem_map.mp mem
    exact Bool.false_ne_true
  · rw [List.filter_eq_self.mpr, List.map_map]
    · exact List.map_id rows
    · intro flag mem
      obtain ⟨row, -, rfl⟩ := List.mem_map.mp mem
      rfl

/-- A delete whose condition is true of one row only. -/
theorem deleteRowsOne {s : Store} {q : Delete} {before after : List Row} {stored : Row}
    (columns : Record.get? s.fields q.table = some fields) (there : Record.get? s.tables q.table = some (before ++ stored :: after))
    (own : matchesRow s.tables q.table q.condition stored = .ok true)
    (others : ∀ row ∈ before ++ after, matchesRow s.tables q.table q.condition row = .ok false) :
    s.deleteRows q = (written fields q.returning [stored], s.setRows q.table (before ++ after)) := by
  unfold deleteRows deleteFrom
  rw [flaggedOne columns there own others]
  dsimp only
  rw [List.filter_append, List.filter_append, List.filter_cons_of_pos rfl, List.filter_cons_of_neg (by simp), List.map_append,
    List.map_append, (unflagged before).1, (unflagged after).1, (unflagged before).2, (unflagged after).2]
  rfl

end Store

/-- What is read of a stored value can be written again, and is then equal to the value and has a place in the order. -/
def Field.Recurs (fields : List Field) (f : Field) (v : Value) : Prop :=
  ∃ raw read w, Store.returned fields f.column v = .ok raw ∧ f.decode raw = .ok read ∧ f.encode read = .ok w ∧
    Store.Places w ∧ Store.meets v w

namespace Entity

variable {e : Entity} {s t : Session Store} {before after : List Row} {stored row : Row}

/-- A stored row in its place among the rows of the table, with what is read of it. -/
structure Stands (e : Entity) (s : Session Store) (before : List Row) (stored : Row) (after : List Row) (row : Row) : Prop where
  columns : Record.get? s.backend.fields e.table = some e.fields
  rows : Record.get? s.backend.tables e.table = some (before ++ stored :: after)
  reads : e.read stored = .ok row
  apart : Store.checkUnique e.table e.fields stored (before ++ after) = .ok ()

/-- The session in which a table holds other rows. -/
def placed (e : Entity) (s : Session Store) (rows : List Row) : Session Store :=
  (s.withBackend (s.backend.setRows e.table rows)).bare

theorem Stands.bare (stands : e.Stands s before stored after row) : e.Stands s.bare before stored after row :=
  ⟨stands.columns, stands.rows, stands.reads, stands.apart⟩

theorem Stands.next {assignments : List Assignment} {next out : Row} (stands : e.Stands s before stored after row)
    (made : e.rewritten (before ++ after) stored assignments = some (next, out)) :
    e.Stands (e.placed s (before ++ next :: after)) before next after out := by
  obtain ⟨-, checked, read⟩ := rewrittenIff.mp made
  refine ⟨stands.columns, Record.get?_replace ?_, read, checked⟩
  rw [stands.rows]
  rfl

/-- The selector of a row by its primary key. -/
def keySelector (e : Entity) (row : Row) : Except Failure Predicate := do
  return .field e.name e.primaryKey.name (.compare .eq (← e.primaryKey.encode (e.keyOf row))) true

/-- Where the primary key that was read of a row is equal to that of one stored row only, writing the assignments of the
row makes of that one what they make of it, and leaves the others. -/
theorem flushFound (c : Context) {assignments : List Assignment} {w : Value} (mem : e.primaryKey ∈ e.fields)
    (waits : assignments ≠ []) (columns : Record.get? s.backend.fields e.table = some e.fields)
    (rows : Record.get? s.backend.tables e.table = some (before ++ stored :: after))
    (encodes : e.primaryKey.encode (e.keyOf row) = .ok w)
    (own : Store.equals (Row.value stored e.primaryKey.column) w = .ok true)
    (other : ∀ other ∈ before ++ after, Store.equals (Row.value other e.primaryKey.column) w = .ok false) :
    (c.flush e ⟨row, assignments⟩ : Action Store Context.Pending).outcome s =
      (e.rewritten (before ++ after) stored assignments).map fun r => (⟨r.2, []⟩, e.placed s (before ++ r.1 :: after)) := by
  have condition : e.keyCondition (e.keyOf row) = .ok (.compare ⟨e.table, e.primaryKey.column⟩ (.of .eq) w) := by
    unfold keyCondition
    rw [encodes]
    rfl
  have listed : e.columns ≠ [] := List.ne_nil_of_mem (List.mem_map_of_mem mem)
  have waiting : assignments.isEmpty = false := by simpa using waits
  have ran := Store.updateRowsOne (q := ⟨e.table, assignments, .compare ⟨e.table, e.primaryKey.column⟩ (.of .eq) w, e.columns⟩)
    columns rows ((Store.matchesCompare _ _ _ _ _).trans own)
    (fun row among => (Store.matchesCompare _ _ _ _ _).trans (other row among))
  unfold Context.flush
  dsimp only
  rw [waiting, condition]
  change Action.outcome (c.update ⟨e.table, assignments, _, e.columns⟩ >>= _) s = _
  rw [Writes.outcomeBind, Context.updateOutcome]
  · change Option.bind (Session.ended ((s.backend.updateRows _).1, s.withBackend (s.backend.updateRows _).2)) _ = _
    rw [ran]
    unfold rewritten Store.refusal? Store.assignedRow
    rcases Store.assignAll e.table e.fields stored assignments stored with ⟨_ | refused, next⟩
    · dsimp only
      cases Store.checkUnique e.table e.fields next (before ++ after) with
      | error f => rfl
      | ok _ =>
        dsimp only
        rw [Store.writtenOne listed]
        unfold read
        cases Store.project e.fields e.columns next with
        | error f => rfl
        | ok out =>
          have decodes : (Except.ok out >>= fun out => e.decodeRow out : Except Failure Row) = e.decodeRow out := rfl
          rw [decodes]
          change Action.outcome (liftM (e.decodeRow out) >>= _) _ = _
          cases e.decodeRow out <;> rfl
    · rfl
  · intro w
    split
    · exact .liftBind fun _ _ => .pure _
    · exact .lift (.error _)

section Key

variable (found : e.field? e.primaryKey.name = some e.primaryKey) (primary : e.primaryKey.primaryKey)
  (names : (e.fields.map (·.name)).Nodup)

include found names

/-- The primary key that was read of a row, written again, has a place in the order and is equal to that of the stored row. -/
theorem keyRecurs (reads : e.read stored = .ok row)
    (recurs : e.primaryKey.Recurs e.fields (Row.value stored e.primaryKey.column)) :
    ∃ w, e.primaryKey.encode (e.keyOf row) = .ok w ∧ Store.Places w ∧ Store.meets (Row.value stored e.primaryKey.column) w := by
  have mem : e.primaryKey ∈ e.fields := List.mem_of_find?_eq_some found
  obtain ⟨raw, read, w, returned, decodes, encodes, places, meets⟩ := recurs
  obtain ⟨raw', returned', decodes'⟩ := readsValue names (readReads reads) mem
  obtain rfl := Except.ok.inj (returned.symm.trans returned')
  obtain rfl := Except.ok.inj (decodes.symm.trans decodes')
  exact ⟨w, encodes, places, meets⟩

include primary

/-- The primary key that was read of a row, written again, is equal to that of the stored row and of no other. -/
theorem Stands.key (stands : e.Stands s before stored after row)
    (recurs : e.primaryKey.Recurs e.fields (Row.value stored e.primaryKey.column)) :
    ∃ w, e.primaryKey.encode (e.keyOf row) = .ok w ∧ w.isNothing = false ∧
      Store.equals (Row.value stored e.primaryKey.column) w = .ok true ∧
      ∀ other ∈ before ++ after, Store.equals (Row.value other e.primaryKey.column) w = .ok false := by
  have mem : e.primaryKey ∈ e.fields := List.mem_of_find?_eq_some found
  obtain ⟨w, encodes, places, meets⟩ := keyRecurs found names stands.reads recurs
  obtain ⟨given, there, equal⟩ := Store.meetsOk meets
  refine ⟨w, encodes, there, ?_, fun other among => ?_⟩
  · unfold Store.equals
    rw [given, there]
    exact equal
  · have clash := (Store.clashesEquals (Store.checkedApart stands.apart other among _ mem (by rw [primary, Bool.true_or]))).1
    unfold Store.equals at clash ⊢
    rw [given, Bool.or_false] at clash
    rw [there, Bool.or_false]
    split at clash
    · rename_i missing
      rw [if_pos missing]
    · rename_i here
      rw [if_neg here]
      obtain ⟨x, y, comparable, same, differs⟩ := Store.sameOk clash
      obtain ⟨y', z, same', other', -⟩ := Store.sameOk equal
      rw [Store.sameOf comparable other']
      refine congrArg Except.ok (beq_false_of_ne fun meets => ?_)
      have both := Store.sameTrans places (Store.sameOf comparable other' |>.trans (by rw [meets]; rfl)) equal
      rw [clash] at both
      cases both

variable (c : Context)

/-- Writing the assignments of a row makes of the stored row what they make of it, and leaves the others. -/
theorem flushOutcome {assignments : List Assignment} (waits : assignments ≠ []) (stands : e.Stands s before stored after row)
    (recurs : e.primaryKey.Recurs e.fields (Row.value stored e.primaryKey.column)) :
    (c.flush e ⟨row, assignments⟩ : Action Store Context.Pending).outcome s =
      (e.rewritten (before ++ after) stored assignments).map fun r => (⟨r.2, []⟩, e.placed s (before ++ r.1 :: after)) := by
  obtain ⟨w, encodes, -, own, other⟩ := stands.key found primary names recurs
  exact flushFound c (List.mem_of_find?_eq_some found) waits stands.columns stands.rows encodes own other

/-- A row that stands is found again by its primary key. -/
theorem requireOwn (named : c.registry.get? e.name = some e) (stands : e.Stands s before stored after row)
    (recurs : e.primaryKey.Recurs e.fields (Row.value stored e.primaryKey.column)) :
    (do c.requireRow e (← e.keySelector row) : Action Store Row).outcome s = some (row, s.bare) := by
  obtain ⟨w, encodes, there, own, other⟩ := stands.key found primary names recurs
  have selector : e.keySelector row = .ok (.field e.name e.primaryKey.name (.compare .eq w) true) := by
    unfold keySelector
    rw [encodes]
    rfl
  have meant : c.entityOf (.field e.name e.primaryKey.name (.compare .eq w) true) = .ok e := Context.entityMeant named
  have compiled : c.condition e [.field e.name e.primaryKey.name (.compare .eq w) true] =
      .ok (.compare ⟨e.table, e.primaryKey.column⟩ (.of .eq) w) := Predicate.equalityCompiles found there
  have meets : ∀ row b, Store.equals (Row.value row e.primaryKey.column) w = .ok b →
      Store.meets (Row.value row e.primaryKey.column) w = b := by
    intro row b equal
    unfold Store.meets
    rw [equal]
    rfl
  have truths : ∀ row ∈ before ++ stored :: after, Store.matchesRow s.backend.tables e.table
      (.compare ⟨e.table, e.primaryKey.column⟩ (.of .eq) w) row = .ok (Store.meets (Row.value row e.primaryKey.column) w) := by
    intro row mem
    rw [Store.matchesCompare]
    rcases List.mem_append.mp mem with old | later
    · rw [other row (List.mem_append_left _ old), meets row _ (other row (List.mem_append_left _ old))]
    · rcases List.mem_cons.mp later with rfl | new
      · rw [own, meets row _ own]
      · rw [other row (List.mem_append_right _ new), meets row _ (other row (List.mem_append_right _ new))]
  have first : (before ++ stored :: after).find? (fun row => Store.meets (Row.value row e.primaryKey.column) w) = some stored := by
    have passed : before.find? (fun row => Store.meets (Row.value row e.primaryKey.column) w) = none :=
      List.find?_eq_none.mpr fun row mem => by simp [meets row _ (other row (List.mem_append_left _ mem))]
    have here : (stored :: after).find? (fun row => Store.meets (Row.value row e.primaryKey.column) w) = some stored :=
      List.find?_cons_of_pos (meets stored _ own)
    rw [List.find?_append, passed, here]
    rfl
  have selected := Store.selectDecided stands.columns stands.rows truths
  rw [first] at selected
  obtain ⟨out, projected, decodes⟩ := Results.bindOk stands.reads
  have looked : (c.lookup (.field e.name e.primaryKey.name (.compare .eq w) true)).runOn s =
      (.ok (some row), s.withBackend (s.backend.record .select e.table)) := by
    rw [Context.lookupRun meant compiled]
    change ((do
      let found ← s.backend.selectRows ⟨e.table, e.columns, .compare ⟨e.table, e.primaryKey.column⟩ (.of .eq) w, [], .int 1, .null⟩
      return (← found.mapM fun row => e.decodeRow row).head?), _) = _
    rw [selected, Option.toList_some, List.mapM_cons, List.mapM_nil, projected]
    change ((do return (← [out].mapM fun row => e.decodeRow row).head?), _) = _
    rw [List.mapM_cons, List.mapM_nil, decodes]
    rfl
  rw [selector]
  change Session.ended ((c.requireRow e _).runOn s) = _
  unfold Context.requireRow
  rw [Step.thenRun looked]
  rfl

end Key

end Entity

end EntityQuery
