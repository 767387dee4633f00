import EntityQuery.Proofs.Footprints
import EntityQuery.Proofs.Lookups
/-! Rows that stay in their places however statements end. An update that is stopped has changed the rows before the one that
stopped it, and that one; an insertion adds its rows behind those that were there. -/

namespace EntityQuery.Store

/-- Rows that stay in their places, each related to the one that was there, with others behind them. -/
def InPlace (R : Row → Row → Prop) (rows next : List Row) : Prop :=
  ∀ (i : Nat) (row : Row), rows[i]? = some row → ∃ other, next[i]? = some other ∧ R row other

section InPlace

variable {R : Row → Row → Prop} [IsPreorder Row R] {before after rows added : List Row} {row next : Row}

theorem inPlaceSelf (rows : List Row) : InPlace R rows rows := fun _ row there => ⟨row, there, Std.Refl.refl row⟩

theorem inPlaceTrans {middle : List Row} (first : InPlace R rows middle) (second : InPlace R middle after) :
    InPlace R rows after := by
  intro i row there
  obtain ⟨other, placed, related⟩ := first i row there
  obtain ⟨last, found, again⟩ := second i other placed
  exact ⟨last, found, IsTrans.trans _ _ _ related again⟩

theorem inPlaceAdded (rows added : List Row) : InPlace R rows (rows ++ added) := by
  intro i row there
  obtain ⟨inside, -⟩ := List.getElem?_eq_some_iff.mp there
  exact ⟨row, (List.getElem?_append_left inside).trans there, Std.Refl.refl row⟩

theorem inPlaceMiddle (related : R row next) : InPlace R (before ++ row :: after) (before ++ next :: after) := by
  intro i other there
  rcases Nat.lt_trichotomy i before.length with left | rfl | right
  · rw [List.getElem?_append_left left] at there ⊢
    exact ⟨other, there, Std.Refl.refl other⟩
  · rw [List.getElem?_append_right (Nat.le_refl _), Nat.sub_self, List.getElem?_cons_zero] at there ⊢
    cases there
    exact ⟨next, rfl, related⟩
  · obtain ⟨j, place⟩ := Nat.exists_eq_succ_of_ne_zero (Nat.sub_ne_zero_of_lt right)
    rw [List.getElem?_append_right (Nat.le_of_lt right), place, List.getElem?_cons_succ] at there ⊢
    exact ⟨other, there, Std.Refl.refl other⟩

/-- By induction on the rows: wherever an update stops, the rows are in their places, those that it reached as it assigned
them. -/
theorem updateInPlace {table : String} {fields : List Field} {assignments : List Assignment}
    (related : ∀ row, R row (assignAll table fields row assignments row).2) (before changed : List Row)
    (flags : List (Bool × Row)) :
    InPlace R (before ++ flags.map (·.2)) (updateFrom table fields assignments before changed flags).rows := by
  induction flags generalizing before changed with
  | nil =>
    rw [List.map_nil, List.append_nil]
    exact inPlaceSelf before
  | cons flag rest ih =>
    obtain ⟨isFlagged, row⟩ := flag
    rw [List.map_cons]
    cases isFlagged with
    | false =>
      have later := ih (before ++ [row]) changed
      rw [List.append_assoc] at later
      exact later
    | true =>
      have assigned := related row
      unfold updateFrom
      dsimp only
      generalize assignAll table fields row assignments row = made at assigned
      obtain ⟨_ | e, next⟩ := made
      · dsimp only
        cases checkUnique table fields next (before ++ rest.map (·.2)) with
        | error e => exact inPlaceMiddle assigned
        | ok _ =>
          have later := ih (before ++ [next]) (changed ++ [next])
          rw [List.append_assoc] at later
          exact inPlaceTrans (inPlaceMiddle assigned) later
      · exact inPlaceMiddle assigned

end InPlace

section Kept

variable {R : Row → Row → Prop} [IsPreorder Row R] {table : String}

/-- The rows of a table stay in their places from one content of all tables to another. -/
def Kept (table : String) (R : Row → Row → Prop) (c d : List (String × List Field) × Tables) : Prop :=
  ∀ rows, Record.get? c.2 table = some rows → ∃ next, Record.get? d.2 table = some next ∧ InPlace R rows next

instance : IsPreorder _ (Kept table R) where
  refl _ rows there := ⟨rows, there, inPlaceSelf rows⟩
  trans c d _ first second rows there := by
    obtain ⟨next, found, placed⟩ := first rows there
    obtain ⟨last, there, again⟩ := second next found
    exact ⟨last, there, inPlaceTrans placed again⟩

theorem keptReplaced {s : Store} {other : String} {stored next : List Row} {columns : List (String × List Field)}
    (there : Record.get? s.tables other = some stored) (placed : other = table → InPlace R stored next) :
    Kept table R s.content (columns, Record.replace s.tables other next) := by
  intro rows found
  by_cases same : other = table
  · subst same
    obtain rfl : stored = rows := Option.some.inj (there.symm.trans found)
    exact ⟨next, Record.get?_replace (by rw [there]; rfl), placed rfl⟩
  · exact ⟨rows, (Record.get?_replace_of_ne (Ne.symm same)).trans found, inPlaceSelf rows⟩

theorem keptUpdate (q : Update) (s : Store)
    (related : ∀ fields row, R row (assignAll q.table fields row q.assignments row).2) :
    Kept table R s.content (s.updateRows q).2.content := by
  unfold updateRows
  split
  · exact Std.Refl.refl s.content
  · rename_i fields rows flagging
    obtain ⟨-, stored, there, rfl, -⟩ := flaggedOk flagging
    unfold content
    rw [updateFlaggedTables]
    refine keptReplaced there fun _ => ?_
    have flags : (stored.map fun row => (isMatch s.tables q.table q.condition row, row)).map (·.2) = stored := by
      rw [List.map_map]
      exact List.map_id stored
    have placed := updateInPlace (related fields) [] [] (stored.map fun row => (isMatch s.tables q.table q.condition row, row))
    rwa [List.nil_append, flags] at placed

theorem keptInsert (q : Insert) (s : Store) : Kept table R s.content (s.insertRows q).2.content := by
  unfold insertRows insertInto
  split
  · exact Std.Refl.refl s.content
  · exact Std.Refl.refl s.content
  · rename_i fields old _ there
    have same := newRowsContent q.table fields old q.rows [] s
    generalize newRows q.table fields old q.rows [] s = ended at same ⊢
    obtain ⟨_ | made, t⟩ := ended
    · rw [← same]
      exact Std.Refl.refl _
    · obtain ⟨-, tables⟩ := Prod.mk.inj same
      change Kept table R s.content (t.fields, Record.replace t.tables q.table (old ++ made))
      rw [tables]
      exact keptReplaced (rowsOfOk there) fun _ => inPlaceAdded old made

end Kept

end EntityQuery.Store
