import EntityQuery.Proofs.Distinct
import EntityQuery.Proofs.Footprints
import EntityQuery.Proofs.Keys
import EntityQuery.Proofs.Lookups
/-! Rows that are inserted: what they hold of the values that were given, that they clash with no row that is there,
and what is returned of them. -/

namespace EntityQuery

namespace Store

variable {s t : Store} {table : String} {values row start : Row} {fields : List Field}

/-- A column that is given keeps its value, and columns of no field keep what they had. -/
theorem fillOk (ran : fill table values fields start s = (.ok row, t)) :
    t.content = s.content ∧ (∀ column ∉ fields.map (·.column), Row.value row column = Row.value start column) ∧
      ∀ column v, column ∈ fields.map (·.column) → Record.get? values column = some v → Row.value row column = v := by
  induction fields generalizing start s with
  | nil =>
    cases ran
    exact ⟨rfl, fun _ _ => rfl, fun _ _ mem => by simp at mem⟩
  | cons f rest ih =>
    have step : ∀ {v : Value} {u : Store}, u.content = s.content →
        (∀ given, Record.get? values f.column = some given → v = given) →
          fill table values rest (Record.put start f.column v) u = (.ok row, t) →
            t.content = s.content ∧
              (∀ column ∉ (f :: rest).map (·.column), Row.value row column = Row.value start column) ∧
                ∀ column v, column ∈ (f :: rest).map (·.column) → Record.get? values column = some v →
                  Row.value row column = v := by
      intro v u same written later
      obtain ⟨content, outside, inside⟩ := ih later
      refine ⟨content.trans same, fun column apart => ?_, fun column given mem found => ?_⟩
      · rw [List.map_cons, List.mem_cons, not_or] at apart
        rw [outside column apart.2, Row.valuePutOther start v apart.1]
      · by_cases again : column ∈ rest.map (·.column)
        · exact inside column given again found
        · rw [List.map_cons, List.mem_cons] at mem
          obtain rfl : column = f.column := mem.resolve_right again
          rw [outside _ again, Row.valuePut]
          exact written given found
    unfold fill at ran
    cases given : Record.get? values f.column with
    | some v =>
      rw [given] at ran step
      exact step rfl (fun w same => Option.some.inj same) ran
    | none =>
      rw [given] at ran step
      cases generated : f.generated with
      | false =>
        rw [generated] at ran
        exact step rfl (fun _ same => by cases same) ran
      | true =>
        rw [generated] at ran
        dsimp only at ran
        rw [if_pos rfl] at ran
        split at ran
        · rename_i made
          exact step (generateFrame made) (fun _ same => by cases same) ran
        · cases ran

/-- By induction on the rows that are given: what holds of rows still holds with a row more that was checked against
them, and so with all the new rows. -/
theorem newRowsOk {Q : List Row → Prop} {old given made out : List Row}
    (added : ∀ rows row, Q rows → checkUnique table fields row rows = .ok () → Q (rows ++ [row]))
    (ran : newRows table fields old given made s = (.ok out, t)) :
    t.content = s.content ∧ (Q (old ++ made) → Q (old ++ out)) := by
  induction given generalizing made s with
  | nil =>
    cases ran
    exact ⟨rfl, id⟩
  | cons values rest ih =>
    unfold newRows at ran
    split at ran
    · cases ran
    · rename_i row u filled
      split at ran
      · cases ran
      · rename_i checked
        obtain ⟨content, later⟩ := ih ran
        refine ⟨content.trans (fillOk filled).1, fun holds => later ?_⟩
        rw [← List.append_assoc]
        exact added _ _ holds checked

theorem insertDone {q : Insert} {w : Written} (ran : s.insertRows q = (.ok w, t)) :
    ∃ fields stored made, s.fieldsOf q.table = .ok fields ∧ Record.get? s.tables q.table = some stored ∧
      t.content = (s.fields, Record.replace s.tables q.table (stored ++ made)) ∧
      ∀ Q : List Row → Prop, (∀ rows row, Q rows → checkUnique q.table fields row rows = .ok () → Q (rows ++ [row])) →
        Q stored → Q (stored ++ made) := by
  unfold insertRows insertInto at ran
  split at ran
  · cases ran
  · cases ran
  · rename_i fields stored known there
    split at ran
    · cases ran
    · rename_i made u filled
      obtain ⟨-, rfl⟩ := Prod.mk.inj ran
      obtain ⟨columns, tables⟩ := Prod.mk.inj (newRowsOk (Q := fun _ => True) (fun _ _ _ _ => trivial) filled).1
      refine ⟨fields, stored, made, known, rowsOfOk there, ?_, fun Q added holds => ?_⟩
      · change (u.fields, Record.replace u.tables q.table _) = _
        rw [columns, tables]
      · exact (newRowsOk added filled).2 (by rwa [List.append_nil])

/-- One row that is inserted, with what is answered. -/
theorem insertOne {w : Written} {returning : List String} (ran : s.insertRows ⟨table, [values], returning⟩ = (.ok w, t)) :
    ∃ fields stored row, s.fieldsOf table = .ok fields ∧ Record.get? s.tables table = some stored ∧
      t.content = (s.fields, Record.replace s.tables table (stored ++ [row])) ∧
      checkUnique table fields row stored = .ok () ∧
      (∀ f ∈ fields, ∀ v, Record.get? values f.column = some v → Row.value row f.column = v) ∧
      written fields returning [row] = .ok w := by
  unfold insertRows insertInto at ran
  split at ran
  · cases ran
  · cases ran
  · rename_i fields stored known there
    simp only [newRows] at ran
    split at ran
    · cases ran
    · rename_i made u filled
      split at filled
      · cases filled
      · rename_i row v one
        split at filled
        · cases filled
        · rename_i checked
          cases filled
          obtain ⟨content, -, inside⟩ := fillOk one
          obtain ⟨columns, tables⟩ := Prod.mk.inj content
          obtain ⟨answer, rfl⟩ := Prod.mk.inj ran
          rw [List.append_nil] at checked
          refine ⟨fields, stored, row, known, rowsOfOk there, ?_, checked, fun f mem value found => ?_, answer⟩
          · change (u.fields, Record.replace u.tables table _) = _
            rw [columns, tables]
            rfl
          · exact inside f.column value (List.mem_map_of_mem mem) found

end Store

namespace Context

variable {c : Context} {e : Entity} {s t : Session Store} {data decoded : Row}

theorem insertRowOk (columns : Record.get? s.backend.fields e.table = some e.fields)
    (ran : (c.insertRow e data).runOn s = (.ok decoded, t)) :
    ∃ values stored row, e.encodeRow data = .ok values ∧ Record.get? s.backend.tables e.table = some stored ∧
      t.backend.content = (s.backend.fields, Record.replace s.backend.tables e.table (stored ++ [row])) ∧
      Store.checkUnique e.table e.fields row stored = .ok () ∧
      (∀ f ∈ e.fields, ∀ v, Record.get? values f.column = some v → Row.value row f.column = v) ∧
      e.Reads row decoded := by
  unfold insertRow at ran
  obtain ⟨values, encoded, ran⟩ := Step.liftOk ran
  obtain ⟨_, -, ran⟩ := Step.liftOk ran
  obtain ⟨w, u, inserted, ran⟩ := Step.bindOk ran
  rw [Context.insertRun] at inserted
  obtain ⟨answer, rfl⟩ := Prod.mk.inj inserted
  obtain ⟨fields, stored, row, known, there, content, checked, holds, written⟩ := Store.insertOne (Prod.ext answer rfl)
  obtain rfl : fields = e.fields := Option.some.inj ((Store.fieldsOfOk known).symm.trans columns)
  obtain ⟨returned, projected, written⟩ := Results.bindOk written
  cases written
  unfold Store.returning at projected
  split at projected
  · cases projected
    cases ran
  · obtain ⟨out, one, projected⟩ := Results.bindOk projected
    cases projected
    obtain ⟨decodes, rfl⟩ := Prod.mk.inj ran
    exact ⟨values, stored, row, encoded, there, content, checked, holds, out, one, decodes⟩

end Context

end EntityQuery
