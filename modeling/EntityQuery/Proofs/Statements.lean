import EntityQuery.Proofs.Results
import EntityQuery.Proofs.Rows
import EntityQuery.Session
import EntityQuery.Store.Backend
/-! What statements that write do to the rows of a table: which rows an update reaches and what it makes of them,
and which tables stay as they are. -/

namespace EntityQuery

namespace Store

/-- What statements depend on: the columns and the rows of all tables. -/
def content (s : Store) : List (String × List Field) × Tables := (s.fields, s.tables)

/-- A change of those parts of a store that statements neither read nor write. -/
structure Relabels (g : Store → Store) : Prop where
  content : ∀ s, (g s).content = s.content
  sequences : ∀ s, (g s).sequences = s.sequences
  counted : ∀ s sequences, { g s with sequences } = g { s with sequences }
  stored : ∀ s tables, { g s with tables } = g { s with tables }

section Relabels

variable {g : Store → Store} (relabels : Relabels g)

include relabels

theorem Relabels.seen (s : Store) : (g s).fieldsOf = s.fieldsOf ∧ (g s).rowsOf = s.rowsOf ∧ (g s).tables = s.tables := by
  obtain ⟨columns, tables⟩ := Prod.mk.inj (relabels.content s)
  refine ⟨?_, ?_, tables⟩
  · funext table
    unfold fieldsOf
    rw [columns]
  · funext table
    unfold rowsOf
    rw [tables]

theorem generateRelabeled (table : String) (f : Field) (s : Store) :
    (g s).generate table f = (fun r => (r.1, g r.2)) <$> s.generate table f := by
  obtain ⟨-, seen, -⟩ := relabels.seen s
  unfold generate
  cases f.type with
  | integer width =>
    simp only [seen, relabels.sequences]
    cases s.rowsOf table with
    | error e => rfl
    | ok rows =>
      simp only [bind, Except.bind]
      cases nextKey ((Record.get? s.sequences table).getD 0) f.column rows with
      | error e => rfl
      | ok next =>
        exact congrArg (fun t => Except.ok (if width.isWide then Value.integer next else .number (Number.ofInt next), t))
          (relabels.counted s (putEntry s.sequences table next))
  | _ => rfl

theorem fillRelabeled (table : String) (values : Row) (fields : List Field) (row : Row) (s : Store) :
    fill table values fields row (g s) = ((fill table values fields row s).1, g (fill table values fields row s).2) := by
  induction fields generalizing row s with
  | nil => rfl
  | cons f rest ih =>
    unfold fill
    cases Record.get? values f.column with
    | some v => exact ih (row.put f.column v) s
    | none =>
      cases f.generated with
      | false => exact ih (row.put f.column .null) s
      | true =>
        simp only [if_true, generateRelabeled relabels table f s]
        cases s.generate table f with
        | error e => rfl
        | ok made => exact ih (row.put f.column made.1) made.2

theorem newRowsRelabeled (table : String) (fields : List Field) (old rows made : List Row) (s : Store) :
    newRows table fields old rows made (g s) =
      ((newRows table fields old rows made s).1, g (newRows table fields old rows made s).2) := by
  induction rows generalizing made s with
  | nil => rfl
  | cons values rest ih =>
    unfold newRows
    rw [fillRelabeled relabels]
    rcases fill table values fields [] s with ⟨r, t⟩
    cases r with
    | error e => rfl
    | ok row =>
      simp only
      cases checkUnique table fields row (old ++ made) with
      | error e => rfl
      | ok _ => exact ih (made ++ [row]) t

theorem setRowsRelabeled (s : Store) (table : String) (rows : List Row) : (g s).setRows table rows = g (s.setRows table rows) := by
  obtain ⟨-, -, tables⟩ := relabels.seen s
  unfold setRows
  rw [tables, relabels.stored]

theorem insertRelabeled (q : Insert) (s : Store) : (g s).insertRows q = ((s.insertRows q).1, g (s.insertRows q).2) := by
  obtain ⟨columns, rows, -⟩ := relabels.seen s
  unfold insertRows insertInto
  rw [columns, rows]
  cases s.fieldsOf q.table with
  | error e => rfl
  | ok fields =>
    cases s.rowsOf q.table with
    | error e => rfl
    | ok old =>
      simp only [newRowsRelabeled relabels q.table fields old q.rows [] s]
      rcases newRows q.table fields old q.rows [] s with ⟨r, t⟩
      cases r with
      | error e => rfl
      | ok made => exact congrArg _ (setRowsRelabeled relabels t q.table (old ++ made))

theorem flaggedRelabeled (s : Store) (table : String) (c : Condition) : (g s).flagged table c = s.flagged table c := by
  obtain ⟨columns, rows, tables⟩ := relabels.seen s
  unfold flagged
  rw [columns, rows, tables]

theorem updateRelabeled (q : Update) (s : Store) : (g s).updateRows q = ((s.updateRows q).1, g (s.updateRows q).2) := by
  unfold updateRows
  rw [flaggedRelabeled relabels]
  cases s.flagged q.table q.condition with
  | error e => rfl
  | ok reached =>
    unfold updateFlagged
    simp only [setRowsRelabeled relabels]
    cases (updateFrom q.table reached.1 q.assignments [] [] reached.2).failure <;> rfl

theorem deleteRelabeled (q : Delete) (s : Store) : (g s).deleteRows q = ((s.deleteRows q).1, g (s.deleteRows q).2) := by
  unfold deleteRows deleteFrom
  rw [flaggedRelabeled relabels]
  cases s.flagged q.table q.condition with
  | error e => rfl
  | ok reached => exact congrArg _ (setRowsRelabeled relabels s q.table _)

end Relabels

section Update

variable {table : String} {fields : List Field} {assignments : List Assignment}

/-- What assignments make of a row; those that come after a failing one are left out. -/
def assignedRow (table : String) (fields : List Field) (assignments : List Assignment) (row : Row) : Row :=
  (assignAll table fields row assignments row).2

/-- Why an update stops at a row, if it does: an assignment fails, or the row clashes with one of the others. -/
def refusal? (table : String) (fields : List Field) (assignments : List Assignment) (row : Row) (others : List Row) :
    Option Failure :=
  match assignAll table fields row assignments row with
  | (some e, _) => some e
  | (none, after) =>
    match checkUnique table fields after others with
    | .error e => some e
    | .ok () => none

/-- The flagged rows that an update reaches: all of them, or those up to the one where it stops. -/
def reached (table : String) (fields : List Field) (assignments : List Assignment) (before : List Row) :
    List (Bool × Row) → List Row
  | [] => []
  | (false, row) :: rest => reached table fields assignments (before ++ [row]) rest
  | (true, row) :: rest =>
    match refusal? table fields assignments row (before ++ rest.map (·.2)) with
    | some _ => [row]
    | none => row :: reached table fields assignments (before ++ [assignedRow table fields assignments row]) rest

theorem updateFromFlagged (before changed : List Row) (row : Row) (rest : List (Bool × Row)) :
    updateFrom table fields assignments before changed ((true, row) :: rest) =
      match refusal? table fields assignments row (before ++ rest.map (·.2)) with
      | some e => ⟨changed, before ++ assignedRow table fields assignments row :: rest.map (·.2), some e⟩
      | none =>
        updateFrom table fields assignments (before ++ [assignedRow table fields assignments row])
          (changed ++ [assignedRow table fields assignments row]) rest := by
  rw [updateFrom]
  unfold refusal? assignedRow
  rcases assignAll table fields row assignments row with ⟨e | _, after⟩
  · dsimp only
    cases checkUnique table fields after (before ++ rest.map (·.2)) <;> rfl
  · rfl

theorem updateFromPassed (before changed : List Row) (row : Row) (rest : List (Bool × Row)) :
    updateFrom table fields assignments before changed ((false, row) :: rest) =
      updateFrom table fields assignments (before ++ [row]) changed rest := by
  rw [updateFrom]

theorem updateFromBefore (before changed : List Row) (rows : List (Bool × Row)) :
    ∃ after, (updateFrom table fields assignments before changed rows).rows = before ++ after := by
  induction rows generalizing before changed with
  | nil => exact ⟨[], by rw [updateFrom, List.append_nil]⟩
  | cons flag rest ih =>
    obtain ⟨isFlagged, row⟩ := flag
    cases isFlagged with
    | false =>
      obtain ⟨after, eq⟩ := ih (before ++ [row]) changed
      exact ⟨row :: after, by rw [updateFromPassed, eq, List.append_assoc, List.singleton_append]⟩
    | true =>
      rw [updateFromFlagged]
      split
      · exact ⟨_, rfl⟩
      · obtain ⟨after, eq⟩ := ih (before ++ [assignedRow table fields assignments row])
          (changed ++ [assignedRow table fields assignments row])
        exact ⟨_ :: after, by rw [eq, List.append_assoc, List.singleton_append]⟩

theorem updateFromSame (before changed : List Row) (rows : List (Bool × Row)) :
    (updateFrom table fields assignments before changed rows).rows = before ++ rows.map (·.2) ↔
      ∀ row ∈ reached table fields assignments before rows, assignedRow table fields assignments row = row := by
  -- the rows passed stay in front, so that a row is told from its own new form
  induction rows generalizing before changed with
  | nil => simp [updateFrom, reached]
  | cons flag rest ih =>
    obtain ⟨isFlagged, row⟩ := flag
    cases isFlagged with
    | false =>
      rw [updateFromPassed, reached, ← ih _ changed, List.append_assoc]
      rfl
    | true =>
      rw [updateFromFlagged, reached]
      cases refusal? table fields assignments row (before ++ rest.map (·.2)) with
      | some e => simp
      | none =>
        dsimp only
        have later := ih (before ++ [assignedRow table fields assignments row])
          (changed ++ [assignedRow table fields assignments row])
        obtain ⟨after, eq⟩ := updateFromBefore (before ++ [assignedRow table fields assignments row])
          (changed ++ [assignedRow table fields assignments row]) rest
        rw [eq, List.append_cancel_left_eq] at later
        rw [eq, List.append_assoc, List.append_cancel_left_eq, List.singleton_append, List.map_cons, List.cons.injEq,
          List.forall_mem_cons, later]

end Update

section Tables

variable {s : Store} {table : String} {c : Condition} {fields : List Field} {rows : List (Bool × Row)}

def isMatch (tables : Tables) (table : String) (c : Condition) (row : Row) : Bool :=
  Results.valueOr false (matchesRow tables table c row)

theorem flaggedOk (flagging : s.flagged table c = .ok (fields, rows)) :
    s.fieldsOf table = .ok fields ∧ ∃ stored, Record.get? s.tables table = some stored ∧
      rows = stored.map (fun row => (isMatch s.tables table c row, row)) ∧
        ∀ row ∈ stored, ∃ truth, matchesRow s.tables table c row = .ok truth := by
  unfold flagged at flagging
  obtain ⟨found, fieldsFound, flagging⟩ := Results.bindOk flagging
  obtain ⟨stored, rowsFound, flagging⟩ := Results.bindOk flagging
  obtain ⟨marked, all, flagging⟩ := Results.bindOk flagging
  cases flagging
  have there : Record.get? s.tables table = some stored := by
    unfold rowsOf tableRows at rowsFound
    split at rowsFound
    · rename_i there
      cases rowsFound
      exact there
    · cases rowsFound
  obtain ⟨listed, flags⟩ := Results.mapAllValues (false, []) all
  have truths : ∀ row ∈ stored, ∃ truth, matchesRow s.tables table c row = .ok truth := by
    intro row mem
    obtain ⟨flag, ran⟩ := flags row mem
    obtain ⟨truth, matching, -⟩ := Results.bindOk ran
    exact ⟨truth, matching⟩
  refine ⟨fieldsFound, stored, there, listed.trans (List.map_congr_left ?_), truths⟩
  intro row mem
  obtain ⟨truth, matching⟩ := truths row mem
  simp only [isMatch, matching]
  rfl

theorem generateFrame {t : Store} {f : Field} {v : Value} (made : s.generate table f = .ok (v, t)) : t.content = s.content := by
  unfold generate at made
  split at made
  · obtain ⟨next, -, made⟩ := Results.bindOk made
    obtain ⟨rows, -, made⟩ := Results.bindOk made
    cases made
    rfl
  · cases made
    rfl

theorem fillContent (table : String) (values : Row) (fs : List Field) (row : Row) (s : Store) :
    (fill table values fs row s).2.content = s.content := by
  induction fs generalizing row s with
  | nil => rfl
  | cons f rest ih =>
    rw [fill]
    split
    · exact ih _ s
    · split
      · split
        · rename_i made
          exact (ih _ _).trans (generateFrame made)
        · rfl
      · exact ih _ s

theorem newRowsContent (table : String) (fields : List Field) (old given made : List Row) (s : Store) :
    (newRows table fields old given made s).2.content = s.content := by
  induction given generalizing made s with
  | nil => rfl
  | cons values rest ih =>
    have filled := fillContent table values fields [] s
    rw [newRows]
    generalize fill table values fields [] s = ended at filled ⊢
    obtain ⟨_ | row, t⟩ := ended
    · exact filled
    · dsimp only
      split
      · exact filled
      · exact (ih _ t).trans filled

theorem insertColumns (s : Store) (q : Insert) : (s.insertRows q).2.fields = s.fields := by
  unfold insertRows insertInto
  split
  · rfl
  · rfl
  · rename_i fields old _ _
    have kept := congrArg Prod.fst (newRowsContent q.table fields old q.rows [] s)
    dsimp only
    generalize newRows q.table fields old q.rows [] s = ended at kept ⊢
    obtain ⟨_ | made, t⟩ := ended <;> exact kept

theorem updateColumns (s : Store) (q : Update) : (s.updateRows q).2.fields = s.fields := by
  unfold updateRows updateFlagged
  split
  · rfl
  · dsimp only
    split <;> rfl

theorem deleteColumns (s : Store) (q : Delete) : (s.deleteRows q).2.fields = s.fields := by
  unfold deleteRows deleteFrom
  split <;> rfl

theorem updateFlaggedTables (s : Store) (table : String) (fields : List Field) (assignments : List Assignment)
    (rows : List (Bool × Row)) (answer : Answering) :
    (s.updateFlagged table fields assignments rows answer).2.tables =
      Record.replace s.tables table (updateFrom table fields assignments [] [] rows).rows := by
  unfold updateFlagged
  dsimp only
  split <;> rfl

theorem deleteFromTables (answer : Answering) {stored : List Row} (flagging : s.flagged table c = .ok (fields, rows))
    (listed : rows = stored.map fun row => (isMatch s.tables table c row, row)) :
    (s.deleteFrom table c answer).2.tables =
      Record.replace s.tables table (stored.filter fun row => !isMatch s.tables table c row) := by
  unfold deleteFrom
  rw [flagging, listed]
  change Record.replace s.tables table _ = _
  rw [List.filter_map, List.map_map]
  exact congrArg _ (List.map_id _)

end Tables

section Kept

variable {s : Store} {e : Failure}

theorem writtenCount (fields : List Field) (rows : List Row) : written fields [] rows = .ok ⟨.integer rows.length, []⟩ := rfl

theorem insertFailed {q : Insert} (counted : q.returning = []) (failed : (s.insertRows q).1 = .error e) :
    (s.insertRows q).2.tables = s.tables := by
  unfold insertRows insertInto at failed ⊢
  split at failed
  · rfl
  · rfl
  · rename_i fields old _ _
    have kept := congrArg Prod.snd (newRowsContent q.table fields old q.rows [] s)
    generalize newRows q.table fields old q.rows [] s = ended at kept failed ⊢
    obtain ⟨_ | made, t⟩ := ended
    · exact kept
    · have answered : written fields q.returning made = .error e := failed
      rw [counted, writtenCount] at answered
      cases answered

theorem deleteFailed {q : Delete} (counted : q.returning = []) (failed : (s.deleteRows q).1 = .error e) :
    (s.deleteRows q).2.tables = s.tables := by
  unfold deleteRows deleteFrom at failed ⊢
  split at failed
  · rfl
  · have answered : written _ q.returning _ = .error e := failed
    rw [counted, writtenCount] at answered
    cases answered

/-- An update, failed or not, has changed no table if and only if it was to change no row that it reached. -/
theorem updateSame {q : Update} :
    (s.updateRows q).2.tables = s.tables ↔ ∀ fields rows, s.flagged q.table q.condition = .ok (fields, rows) →
      ∀ row ∈ reached q.table fields q.assignments [] rows, assignedRow q.table fields q.assignments row = row := by
  unfold updateRows
  cases flagging : s.flagged q.table q.condition with
  | error e => simp
  | ok found =>
    obtain ⟨fields, rows⟩ := found
    obtain ⟨-, stored, there, listed, -⟩ := flaggedOk flagging
    have rowsStored : rows.map (·.2) = stored := by
      rw [listed, List.map_map]
      exact List.map_id stored
    dsimp only
    rw [updateFlaggedTables, Record.replaceSame there, ← rowsStored]
    constructor
    · rintro kept _ _ ⟨⟩
      exact (updateFromSame [] [] rows).mp kept
    · intro kept
      exact (updateFromSame [] [] rows).mpr (kept fields rows rfl)

/-- A delete, failed or not, has changed no table if and only if its condition is true of no row. -/
theorem deleteSame {q : Delete} :
    (s.deleteRows q).2.tables = s.tables ↔ ∀ fields rows, s.flagged q.table q.condition = .ok (fields, rows) →
      ∀ flag ∈ rows, flag.1 = false := by
  cases flagging : s.flagged q.table q.condition with
  | error e =>
    unfold deleteRows deleteFrom
    simp [flagging]
  | ok found =>
    obtain ⟨fields, rows⟩ := found
    obtain ⟨-, stored, there, listed, -⟩ := flaggedOk flagging
    unfold deleteRows
    rw [deleteFromTables _ flagging listed, Record.replaceSame there, List.filter_eq_self]
    constructor
    · rintro kept _ _ ⟨⟩ flag mem
      obtain ⟨row, inside, rfl⟩ := List.mem_map.mp (listed ▸ mem)
      have unmatched := kept row inside
      simpa using unmatched
    · intro kept row mem
      have unmatched := kept fields rows rfl (isMatch s.tables q.table q.condition row, row)
        (listed ▸ List.mem_map.mpr ⟨row, mem, rfl⟩)
      simpa using unmatched

end Kept

end Store

namespace Context

variable (c : Context) (s : Session Store)

theorem selectRun (q : Select) :
    (c.select q).runOn s = ((s.backend.record .select q.table).selectRows q,
      s.withBackend (s.backend.record .select q.table)) := rfl

theorem countRun (q : Count) :
    (c.count q).runOn s = ((do return .integer (← (s.backend.record .count q.table).countRows q)),
      s.withBackend (s.backend.record .count q.table)) := rfl

theorem insertRun (q : Insert) :
    (c.insert q).runOn s = (((s.backend.record .insert q.table).insertRows q).1,
      s.withBackend ((s.backend.record .insert q.table).insertRows q).2) := rfl

theorem updateRun (q : Update) :
    (c.update q).runOn s = (((s.backend.record .update q.table).updateRows q).1,
      s.withBackend ((s.backend.record .update q.table).updateRows q).2) := rfl

theorem deleteRun (q : Delete) :
    (c.delete q).runOn s = (((s.backend.record .delete q.table).deleteRows q).1,
      s.withBackend ((s.backend.record .delete q.table).deleteRows q).2) := rfl

end Context

end EntityQuery
