import EntityQuery.Proofs.Batches
import EntityQuery.Proofs.Statements
/-! What a write that fails outside transactions leaves in the tables. Those that open a transaction of their own
leave copies of what was there; the others leave what their one statement did before it failed. -/

namespace EntityQuery

namespace Request

/-- The condition under which a write, should it fail, has changed no table. -/
def Spares (registry : Registry Fetcher) (e : Entity) (b : Store) : Request → Prop
  | .create _ | .update .. | .upsert .. =>
    (∃ start, Store.opened b = .ok start) → Store.copiedTables b.tables = b.tables
  | .updateMany filter assignments =>
    ∀ condition, Predicate.condition registry e filter = .ok condition →
      ∀ fields rows, b.flagged e.table condition = .ok (fields, rows) →
        ∀ row ∈ Store.reached e.table fields assignments [] rows,
          Store.assignedRow e.table fields assignments row = row
  | .delete selector =>
    ∀ condition, Predicate.condition registry e [selector] = .ok condition →
      ∀ fields rows, b.flagged e.table condition = .ok (fields, rows) → ∀ flag ∈ rows, flag.1 = false
  | _ => True

/-- Where every stored value is data, only an update of many rows and a delete of one can change a table and then
fail. -/
theorem sparesOfData {r : Request} {registry : Registry Fetcher} {e : Entity} {b : Store} (data : b.HoldsData)
    (notMany : ∀ filter assignments, r ≠ .updateMany filter assignments) (notOne : ∀ selector, r ≠ .delete selector) :
    r.Spares registry e b := by
  cases r with
  | create _ | update _ _ | upsert _ _ _ => exact fun _ => Store.copiedTablesData data
  | updateMany filter assignments => exact absurd rfl (notMany filter assignments)
  | delete selector => exact absurd rfl (notOne selector)
  | _ => trivial

end Request

namespace Context

variable {registry : Registry Fetcher} {h : Handle} {e : Entity} {s t : Session Store} {f : Failure}

theorem insertManyFailed {rows : List Row} (failed : ((⟨registry, h⟩ : Context).insertMany e rows).runOn s = (.error f, t)) :
    t.backend.tables = s.backend.tables := by
  unfold insertMany at failed
  split at failed
  · cases failed
  · rcases Step.bindError failed with stopped | ⟨w, u, -, counted⟩
    · rw [insertRun, Prod.mk.injEq] at stopped
      obtain ⟨answer, rfl⟩ := stopped
      exact Store.insertFailed rfl answer
    · cases counted

theorem updateManyFailed {filter : List Predicate} {assignments : List Assignment}
    (failed : ((⟨registry, h⟩ : Context).updateMany e filter assignments).runOn s = (.error f, t)) :
    t.backend.tables = s.backend.tables ↔ (Request.updateMany filter assignments).Spares registry e s.backend := by
  unfold updateMany condition at failed
  rcases Step.liftError failed with ⟨unread, rfl⟩ | ⟨condition, compiled, failed⟩
  · simp [Request.Spares, unread]
  · simp only [Request.Spares, compiled, Except.ok.injEq, forall_eq']
    split at failed
    · rename_i unassigned
      rw [countRun, Prod.mk.injEq] at failed
      obtain ⟨-, rfl⟩ := failed
      obtain rfl := List.isEmpty_iff.mp unassigned
      exact iff_of_true rfl fun _ _ _ _ _ => rfl
    · rcases Step.bindError failed with stopped | ⟨w, u, -, counted⟩
      · rw [updateRun, Prod.mk.injEq] at stopped
        obtain ⟨-, rfl⟩ := stopped
        exact Store.updateSame
      · cases counted

theorem openedFailed {r : Request} (opening : r.opens) (writes : r.kind ≠ .read) (quiet : s.IsQuiet)
    (failed : ((⟨registry, h⟩ : Context).perform e r).runOn s = (.error f, t)) :
    t.backend.tables = s.backend.tables ↔
      ((∃ start, Store.opened s.backend = .ok start) → Store.copiedTables s.backend.tables = s.backend.tables) := by
  cases opened : Store.opened s.backend with
  | error g =>
    have alone : Backend.joins (⟨registry, h⟩ : Context).handle s.backend = false := quiet
    rw [performOpening _ e opening, transactionRefused alone opened] at failed
    obtain ⟨-, rfl⟩ := Prod.mk.inj failed
    exact iff_of_true rfl nofun
  | ok start =>
    rw [performOpened (k := h) writes opening quiet opened] at failed
    generalize ((⟨registry, h⟩ : Context).inside e r).runOn s = ended at failed
    obtain ⟨_ | v, u⟩ := ended
    · obtain ⟨-, rfl⟩ := Prod.mk.inj failed
      exact ⟨fun kept _ => kept, fun kept => kept ⟨start, rfl⟩⟩
    · cases failed

theorem deleteOneFailed {selector : Predicate}
    (failed : ((⟨registry, h⟩ : Context).deleteOne e selector).runOn s = (.error f, t)) :
    t.backend.tables = s.backend.tables ↔ (Request.delete selector).Spares registry e s.backend := by
  unfold deleteOne condition at failed
  rcases Step.liftError failed with ⟨unread, rfl⟩ | ⟨condition, compiled, failed⟩
  · simp [Request.Spares, unread]
  · simp only [Request.Spares, compiled, Except.ok.injEq, forall_eq']
    have ended : t = s.withBackend ((s.backend.record .delete e.table).deleteRows ⟨e.table, condition, e.columns⟩).2 := by
      rcases Step.bindError failed with stopped | ⟨w, u, deleted, failed⟩
      · exact (congrArg Prod.snd stopped).symm
      · obtain rfl := congrArg Prod.snd deleted
        -- nothing that comes after the statement changes the state
        split at failed
        · exact (congrArg Prod.snd failed).symm
        · rcases Step.liftError failed with ⟨-, same⟩ | ⟨name, -, failed⟩
          · exact same
          · rcases Step.liftError failed with ⟨-, same⟩ | ⟨text, -, failed⟩
            · exact same
            · exact (congrArg Prod.snd failed).symm
    rw [ended]
    exact Store.deleteSame

theorem deleteManyFailed {filter : List Predicate}
    (failed : ((⟨registry, h⟩ : Context).deleteMany e filter).runOn s = (.error f, t)) :
    t.backend.tables = s.backend.tables := by
  unfold deleteMany condition at failed
  rcases Step.liftError failed with ⟨-, rfl⟩ | ⟨condition, -, failed⟩
  · rfl
  · rcases Step.bindError failed with stopped | ⟨w, u, -, counted⟩
    · rw [deleteRun, Prod.mk.injEq] at stopped
      obtain ⟨answer, rfl⟩ := stopped
      exact Store.deleteFailed rfl answer
    · cases counted

/-- Which requests leave every table as it was when they fail, outside transactions. -/
theorem performFailed {r : Request} (writes : r.kind ≠ .read) (quiet : s.IsQuiet)
    (failed : ((⟨registry, h⟩ : Context).perform e r).runOn s = (.error f, t)) :
    t.backend.tables = s.backend.tables ↔ r.Spares registry e s.backend := by
  cases r with
  | find _ _ | count _ | aggregate _ | group _ => exact absurd rfl writes
  | create _ => exact openedFailed rfl writes quiet failed
  | update _ _ => exact openedFailed rfl writes quiet failed
  | upsert _ _ _ => exact openedFailed rfl writes quiet failed
  | createMany rows =>
    rcases Step.bindError failed with stopped | ⟨_, _, -, answered⟩
    · exact iff_of_true (insertManyFailed stopped) trivial
    · cases answered
  | updateMany filter assignments =>
    rcases Step.bindError failed with stopped | ⟨_, _, -, answered⟩
    · exact updateManyFailed stopped
    · cases answered
  | delete selector =>
    rcases Step.bindError failed with stopped | ⟨_, _, -, answered⟩
    · exact deleteOneFailed stopped
    · cases answered
  | deleteMany filter =>
    rcases Step.bindError failed with stopped | ⟨_, _, -, answered⟩
    · exact iff_of_true (deleteManyFailed stopped) trivial
    · cases answered

end Context

namespace Action

/-- Exactly when does a write that fails outside transactions leave the rows of every table as they were? -/
theorem failedWriteSpares (registry : Registry Fetcher) (h : Option Handle) {s t : Session Store} {id : Nat}
    {o : Operation} {f : Failure} (held : s.operation? id = some o) (fresh : o.consumed = false)
    (writes : o.request.kind ≠ .read) (quiet : s.IsQuiet)
    (failed : (execute registry id h).runOn s = (.error f, t)) :
    t.backend.tables = s.backend.tables ↔ o.request.Spares registry o.entity s.backend := by
  rw [Batch.executeRun held fresh] at failed
  have quietUsed : (Batch.used s id o).IsQuiet := quiet
  have spared : t.backend.tables = (Batch.used s id o).backend.tables ↔
      o.request.Spares registry o.entity (Batch.used s id o).backend :=
    Context.performFailed writes quietUsed failed
  exact spared

def oneNameForTwo : Session Store :=
  Sample.session false [Sample.ann, Sample.bob] [] [Sample.naming "Cy"]

theorem failedWriteSparesNot :
    ∃ f t, (execute Sample.registry 0 none).runOn oneNameForTwo = (.error f, t) ∧
      t.backend.tables ≠ oneNameForTwo.backend.tables ∧
      ¬(Sample.naming "Cy").request.Spares Sample.registry Sample.user oneNameForTwo.backend := by
  have changed : ((execute Sample.registry 0 none).runOn oneNameForTwo).2.backend.tables ≠ oneNameForTwo.backend.tables := by
    intro same
    exact absurd (congrArg (List.map fun entry => entry.2.map fun row => (Row.value row "name").text?) same)
      (by decide +kernel)
  have held : oneNameForTwo.operation? 0 = some (Sample.naming "Cy") := rfl
  refine ⟨_, _, rfl, changed, fun spares => changed ?_⟩
  exact (failedWriteSpares Sample.registry none held rfl (by decide) rfl rfl).mpr spares

end Action

end EntityQuery
