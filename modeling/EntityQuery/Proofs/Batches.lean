import EntityQuery.Proofs.Sample
import EntityQuery.Proofs.Transactions
/-! A batch does what its operations do one after another, and all of it or nothing. -/

namespace EntityQuery.Batch

/-- Execute held operations one after another, each for itself. -/
def executeEach (registry : Registry Fetcher) : List Nat → Action Store (List BatchResult)
  | [] => return []
  | id :: rest => do
    let o ← Action.operation id
    let result ← Action.execute registry id none
    return ⟨o.request.kind, result⟩ :: (← executeEach registry rest)

/-- An operation is held that is a write and has not been executed. -/
def Ready (s : Session Store) (id : Nat) : Prop :=
  ∃ o, s.operation? id = some o ∧ o.consumed = false ∧ o.request.kind ≠ .read

def Consumed (s : Session Store) (id : Nat) : Prop := ∃ o, s.operation? id = some o ∧ o.consumed = true

def used (s : Session Store) (id : Nat) (o : Operation) : Session Store :=
  s.setOperation id { o with consumed := true }

section Execution

variable {registry : Registry Fetcher} {s t : Session Store} {id : Nat} {o : Operation}

theorem operationRun (held : s.operation? id = some o) : (Action.operation id).runOn s = (.ok o, s) := by
  unfold Action.operation Step.inspect
  rw [Step.runOn, Step.ofFunction]
  dsimp only
  rw [held]

theorem consumeRun (held : s.operation? id = some o) (fresh : o.consumed = false) :
    (Action.consume id).runOn s = (.ok o, used s id o) := by
  unfold Action.consume
  rw [Step.thenRun (operationRun held)]
  have unused : o.checkOpen = .ok () := by
    unfold Operation.checkOpen
    rw [fresh]
    rfl
  rw [unused]
  rfl

theorem executeRun (held : s.operation? id = some o) (fresh : o.consumed = false) (h : Option Handle) :
    (Action.execute registry id h).runOn s =
      (Context.perform ⟨registry, h.getD o.handle⟩ o.entity o.request).runOn (used s id o) := by
  unfold Action.execute
  rw [Step.thenRun (consumeRun held fresh)]

theorem executeOkDuring (k : Handle) (held : s.operation? id = some o) (fresh : o.consumed = false)
    (writes : o.request.kind ≠ .read) (quiet : s.IsQuiet) {v : Value}
    (alone : (Action.execute registry id none).runOn s = (.ok v, t)) (commits rollbacks : Nat) :
    (Action.execute registry id (some k)).runOn (s.during commits rollbacks) = (.ok v, t.during commits rollbacks) ∧
      t.IsQuiet ∧ t.operations = (used s id o).operations := by
  have heldDuring : (s.during commits rollbacks).operation? id = some o := held
  have quietUsed : (used s id o).IsQuiet := quiet
  rw [executeRun held fresh] at alone
  rw [executeRun heldDuring fresh]
  exact Context.performOkDuring k writes quietUsed alone commits rollbacks

theorem executeErrorDuring (k : Handle) (held : s.operation? id = some o) (fresh : o.consumed = false)
    (writes : o.request.kind ≠ .read) (quiet : s.IsQuiet) {f : Failure}
    (alone : (Action.execute registry id none).runOn s = (.error f, t))
    (begins : o.request.opens → ∃ start, Backend.opened s.backend = .ok start) (commits rollbacks : Nat) :
    ∃ u, (Action.execute registry id (some k)).runOn (s.during commits rollbacks) = (.error f, u) ∧
      u.operations = (used s id o).operations := by
  have heldDuring : (s.during commits rollbacks).operation? id = some o := held
  have quietUsed : (used s id o).IsQuiet := quiet
  rw [executeRun held fresh] at alone
  rw [executeRun heldDuring fresh]
  exact Context.performErrorDuring k writes quietUsed alone begins commits rollbacks

theorem usedOther {other : Nat} (differs : other ≠ id) : (used s id o).operation? other = s.operation? other := by
  have apart : id ≠ other := fun eq => differs eq.symm
  simp [used, Session.setOperation, Session.operation?, apart]

theorem usedSelf (held : s.operation? id = some o) : Consumed (used s id o) id := by
  refine ⟨{ o with consumed := true }, ?_, rfl⟩
  have inside : id < s.operations.length := (List.getElem?_eq_some_iff.mp held).1
  simp [used, Session.setOperation, Session.operation?, inside]

end Execution

/-- What happens to the operations of a session when some of them have been executed. -/
structure Uses (s t : Session Store) (ids : List Nat) : Prop where
  consumed : ∀ id ∈ ids, Consumed t id
  others : ∀ id, id ∉ ids → t.operation? id = s.operation? id

section Runs

variable {registry : Registry Fetcher} {s t : Session Store}

theorem usesOne {id : Nat} {o : Operation} (held : s.operation? id = some o)
    (after : t.operations = (used s id o).operations) : Uses s t [id] := by
  have seen : ∀ other, t.operation? other = (used s id o).operation? other := by
    intro other
    unfold Session.operation?
    rw [after]
  constructor
  · intro other mem
    obtain rfl := List.mem_singleton.mp mem
    unfold Consumed
    rw [seen]
    exact usedSelf held
  · intro other apart
    rw [seen]
    exact usedOther fun eq => apart (List.mem_singleton.mpr eq)

theorem usesTrans {u : Session Store} {done rest : List Nat} (first : Uses s t done) (later : Uses t u rest)
    (apart : ∀ id ∈ done, id ∉ rest) : Uses s u (done ++ rest) := by
  constructor
  · intro id mem
    rcases List.mem_append.mp mem with before | after
    · unfold Consumed
      rw [later.others id (apart id before)]
      exact first.consumed id before
    · exact later.consumed id after
  · intro id outside
    have notBefore : id ∉ done := fun mem => outside (List.mem_append_left rest mem)
    have notAfter : id ∉ rest := fun mem => outside (List.mem_append_right done mem)
    rw [later.others id notAfter, first.others id notBefore]

theorem readyUses {done : List Nat} {id : Nat} (uses : Uses s t done) (outside : id ∉ done) (ready : Ready s id) :
    Ready t id := by
  unfold Ready
  rw [uses.others id outside]
  exact ready

theorem executeAllDuring (k : Handle) (commits rollbacks : Nat) {ids : List Nat} (distinct : ids.Nodup)
    (ready : ∀ id ∈ ids, Ready s id) (quiet : s.IsQuiet) {results : List BatchResult}
    (alone : (executeEach registry ids).runOn s = (.ok results, t)) :
    (executeAll ⟨registry, k⟩ ids).runOn (s.during commits rollbacks) = (.ok results, t.during commits rollbacks) ∧
      t.IsQuiet ∧ Uses s t ids := by
  -- each operation finds the session as the one before it left it, up to what a transaction marks
  induction ids generalizing s results with
  | nil =>
    cases alone
    exact ⟨rfl, quiet, ⟨by simp, fun _ _ => rfl⟩⟩
  | cons id rest ih =>
    obtain ⟨apart, distinctRest⟩ := List.nodup_cons.mp distinct
    obtain ⟨o, held, fresh, writes⟩ := ready id List.mem_cons_self
    unfold executeEach at alone
    rw [Step.thenRun (operationRun held)] at alone
    obtain ⟨v, u, one, alone⟩ := Step.bindOk alone
    obtain ⟨others, w, tail, alone⟩ := Step.bindOk alone
    cases alone
    obtain ⟨oneDuring, quietNext, after⟩ := executeOkDuring k held fresh writes quiet one commits rollbacks
    have uses := usesOne held after
    have readyRest : ∀ other ∈ rest, Ready u other := by
      intro other mem
      have differs : other ∉ [id] := fun same => apart (List.mem_singleton.mp same ▸ mem)
      exact readyUses uses differs (ready other (List.mem_cons_of_mem id mem))
    obtain ⟨restDuring, quietEnd, usesRest⟩ := ih distinctRest readyRest quietNext tail
    have heldDuring : (s.during commits rollbacks).operation? id = some o := held
    refine ⟨?_, quietEnd, usesTrans uses usesRest ?_⟩
    · unfold executeAll
      rw [Step.thenRun (operationRun heldDuring), Step.thenRun oneDuring, Step.thenRun restDuring]
      rfl
    · intro other mem inside
      exact apart (List.mem_singleton.mp mem ▸ inside)

theorem executeAllStops {c : Context} {done rest : List Nat} {results : List BatchResult} {f : Failure}
    {u : Session Store} (ran : (executeAll c done).runOn s = (.ok results, t))
    (stopped : (executeAll c rest).runOn t = (.error f, u)) :
    (executeAll c (done ++ rest)).runOn s = (.error f, u) := by
  induction done generalizing s results with
  | nil =>
    cases ran
    exact stopped
  | cons id done ih =>
    unfold executeAll at ran
    obtain ⟨o, v, held, ran⟩ := Step.bindOk ran
    obtain ⟨result, w, one, ran⟩ := Step.bindOk ran
    obtain ⟨others, x, tail, ran⟩ := Step.bindOk ran
    cases ran
    rw [List.cons_append]
    unfold executeAll
    rw [Step.thenRun held, Step.thenRun one]
    exact Step.stopRun (ih tail)

theorem executeAllFailsDuring (k : Handle) (commits rollbacks : Nat) {done later : List Nat} {id : Nat} {o : Operation}
    (distinct : (done ++ id :: later).Nodup) (ready : ∀ other ∈ done ++ id :: later, Ready s other) (quiet : s.IsQuiet)
    {results : List BatchResult} (ran : (executeEach registry done).runOn s = (.ok results, t))
    (held : t.operation? id = some o) {f : Failure} {u : Session Store}
    (failed : (Action.execute registry id none).runOn t = (.error f, u))
    (begins : o.request.opens → ∃ start, Backend.opened t.backend = .ok start) :
    ∃ w, (executeAll ⟨registry, k⟩ (done ++ id :: later)).runOn (s.during commits rollbacks) = (.error f, w) ∧
      Uses s w (done ++ [id]) := by
  obtain ⟨distinctDone, -, apart⟩ := List.nodup_append.mp distinct
  have readyDone : ∀ other ∈ done, Ready s other := fun other mem => ready other (List.mem_append_left _ mem)
  obtain ⟨doneDuring, quietNext, uses⟩ := executeAllDuring k commits rollbacks distinctDone readyDone quiet ran
  have outside : id ∉ done := fun mem => apart id mem id List.mem_cons_self rfl
  obtain ⟨p, heldReady, fresh, writes⟩ :=
    readyUses uses outside (ready id (List.mem_append_right done List.mem_cons_self))
  obtain rfl : p = o := Option.some.inj (heldReady.symm.trans held)
  obtain ⟨w, oneDuring, after⟩ := executeErrorDuring k held fresh writes quietNext failed begins commits rollbacks
  have heldDuring : (t.during commits rollbacks).operation? id = some p := held
  have stopped : (executeAll ⟨registry, k⟩ (id :: later)).runOn (t.during commits rollbacks) = (.error f, w) := by
    unfold executeAll
    rw [Step.thenRun (operationRun heldDuring)]
    exact Step.stopRun oneDuring
  refine ⟨w, executeAllStops doneDuring stopped, usesTrans uses (usesOne held after) ?_⟩
  intro other mem inside
  exact outside (List.mem_singleton.mp inside ▸ mem)

theorem operationsRun {ids : List Nat} (ready : ∀ id ∈ ids, Ready s id) :
    ∃ ops, (ids.mapM Action.operation).runOn s = (.ok ops, s) ∧ ∀ n, check n ops = .ok () := by
  induction ids with
  | nil => exact ⟨[], rfl, fun _ => rfl⟩
  | cons id rest ih =>
    obtain ⟨o, held, fresh, writes⟩ := ready id List.mem_cons_self
    obtain ⟨ops, ran, checked⟩ := ih fun other mem => ready other (List.mem_cons_of_mem id mem)
    refine ⟨o :: ops, ?_, ?_⟩
    · rw [List.mapM_cons, Step.thenRun (operationRun held), Step.thenRun ran]
      rfl
    · intro n
      rw [check, if_neg writes, fresh]
      exact checked (n + 1)

/-- A batch whose transaction begins: its operations run in it, and how they end decides how the batch ends. -/
theorem runOpened (registry : Registry Fetcher) (h : Handle) {ids : List Nat} (ready : ∀ id ∈ ids, Ready s id) (quiet : s.IsQuiet) {start : Store}
    (opened : Backend.opened s.backend = .ok start) :
    (run ⟨registry, h⟩ ids).runOn s =
      match Context.settled s ((executeAll ⟨registry, .bound⟩ ids).runOn (s.during s.backend.commits s.backend.rollbacks)) with
      | (.ok results, t) =>
        (.ok results, { t with log := t.log ++ [(.db, s!"Batch of {ids.length} operation(s) committed")] })
      | (.error f, t) =>
        (.error f, { t with log := t.log ++ [(.error, s!"Batch of {ids.length} operation(s) rolled back: {f.message}")] }) := by
  obtain ⟨ops, listed, checked⟩ := operationsRun ready
  have alone : Backend.joins (⟨registry, h⟩ : Context).handle s.backend = false := quiet
  unfold run
  have ran := Context.transactionOpened alone opened fun c => executeAll c ids
  rw [Context.openedTables opened] at ran
  rw [Step.thenRun listed, checked 0, Step.thenRun (Step.runLift (.ok ()) s), Step.tryRun, Step.runBind, ran]
  change _ = match Context.settled s ((executeAll ⟨registry, .bound⟩ ids).runOn
    (s.withBackend { s.backend with inTransaction := true })) with
      | (.ok results, t) => _
      | (.error f, t) => _
  generalize Context.settled s ((executeAll ⟨registry, .bound⟩ ids).runOn
    (s.withBackend { s.backend with inTransaction := true })) = ended
  obtain ⟨result, t⟩ := ended
  cases result <;> rfl

/-- A batch outside transactions is its operations executed one after another: it succeeds with what they give and
leaves what they leave, or it fails as the first of them that fails and leaves a copy of what was there before. -/
theorem runAsEach (registry : Registry Fetcher) (h : Handle) {ids : List Nat} (distinct : ids.Nodup)
    (ready : ∀ id ∈ ids, Ready s id) (quiet : s.IsQuiet) {start : Store} (opened : Backend.opened s.backend = .ok start) :
    (∀ results t, (executeEach registry ids).runOn s = (.ok results, t) →
      ∃ u, (run ⟨registry, h⟩ ids).runOn s = (.ok results, u) ∧ u.backend.tables = t.backend.tables ∧
        u.backend.sequences = t.backend.sequences) ∧
    (∀ done id later results t o f u, ids = done ++ id :: later →
      (executeEach registry done).runOn s = (.ok results, t) → t.operation? id = some o →
      (Action.execute registry id none).runOn t = (.error f, u) →
      (o.request.opens → ∃ start, Backend.opened t.backend = .ok start) →
      ∃ w, (run ⟨registry, h⟩ ids).runOn s = (.error f, w) ∧
        w.backend.tables = Store.copiedTables s.backend.tables ∧
        (s.backend.HoldsData → w.backend.tables = s.backend.tables) ∧
        w.backend.sequences = s.backend.sequences ∧
        (∀ other ∈ done ++ [id], Consumed w other) ∧ ∀ other ∈ later, Ready w other) := by
  have ran := runOpened registry h ready quiet opened
  constructor
  · intro results t alone
    obtain ⟨during, -, -⟩ :=
      executeAllDuring .bound s.backend.commits s.backend.rollbacks distinct ready quiet alone
    rw [during] at ran
    exact ⟨_, ran, rfl, rfl⟩
  · rintro done id later results t o f u rfl alone held failed begins
    obtain ⟨w, during, uses⟩ :=
      executeAllFailsDuring .bound s.backend.commits s.backend.rollbacks distinct ready quiet alone held failed begins
    rw [during] at ran
    refine ⟨_, ran, rfl, Store.copiedTablesData, rfl, uses.consumed, ?_⟩
    intro other mem
    have outside : other ∉ done ++ [id] := by
      intro before
      obtain ⟨-, distinctLater, apart⟩ := List.nodup_append.mp distinct
      rcases List.mem_append.mp before with first | last
      · exact apart other first other (List.mem_cons_of_mem id mem) rfl
      · exact (List.nodup_cons.mp distinctLater).1 (List.mem_singleton.mp last ▸ mem)
    have kept : Ready w other :=
      readyUses uses outside (ready other (List.mem_append_right done (List.mem_cons_of_mem id mem)))
    exact kept

/-- A user to create and one to delete who is not there. -/
def creationAndRemoval (inTransaction : Bool) : Session Store :=
  Sample.session inTransaction [Sample.ann] [] [Sample.creation [("name", .text "Cy")], Sample.removal]

theorem runAsEachOfCreation :
    ∃ f w, (run ⟨Sample.registry, .pooled⟩ [0, 1]).runOn (creationAndRemoval false) = (.error f, w) ∧
      w.backend.tables = [("users", [Sample.ann]), ("notes", [])] ∧ Consumed w 0 ∧ Consumed w 1 := by
  have ready : ∀ id ∈ [0, 1], Ready (creationAndRemoval false) id := by
    intro id mem
    simp only [List.mem_cons, List.not_mem_nil, or_false] at mem
    rcases mem with rfl | rfl
    · exact ⟨_, rfl, rfl, by decide⟩
    · exact ⟨_, rfl, rfl, by decide⟩
  obtain ⟨-, fails⟩ := runAsEach Sample.registry .pooled (by decide) ready rfl rfl
  obtain ⟨w, failed, tables, -, -, consumed, -⟩ := fails [0] 1 [] _ _ _ _ _ rfl rfl rfl rfl nofun
  exact ⟨_, w, failed, tables, consumed 0 (by decide), consumed 1 (by decide)⟩

def noteOfMarker : Session Store :=
  Sample.session false [] [[("id", .int 1), ("data", .array [.jsonNull])]] [Sample.noting .null]

def noteOfKey : Session Store :=
  Sample.session false [] [[("id", .int 1), ("data", .array [.key (.text "a")])]] [Sample.removal]

def markerToCome : Session Store :=
  Sample.session false [] [] [Sample.noting (.array [.jsonNull]), Sample.creation [("name", .text "Cy")]]

/-- Four ways in which a batch is not its operations one after another: it joins an open transaction and leaves
there what it did before it failed, it does not begin on rows that have no copy, keys come back from a copy as
objects, and an operation that alone cannot begin a transaction joins that of the batch. -/
theorem batchDiffers :
    (((executeEach Sample.registry [0, 1]).runOn (creationAndRemoval true)).1.isOk = false ∧
      ((run ⟨Sample.registry, .bound⟩ [0, 1]).runOn (creationAndRemoval true)).1.isOk = false ∧
        ((run ⟨Sample.registry, .bound⟩ [0, 1]).runOn (creationAndRemoval true)).2.backend.tables ≠
          (creationAndRemoval true).backend.tables) ∧
    (((executeEach Sample.registry [0]).runOn noteOfMarker).1.isOk ∧
      ((run ⟨Sample.registry, .pooled⟩ [0]).runOn noteOfMarker).1.isOk = false) ∧
    (((executeEach Sample.registry [0]).runOn noteOfKey).1.isOk = false ∧
      ((run ⟨Sample.registry, .pooled⟩ [0]).runOn noteOfKey).1.isOk = false ∧
        ((run ⟨Sample.registry, .pooled⟩ [0]).runOn noteOfKey).2.backend.tables ≠ noteOfKey.backend.tables) ∧
    ((executeEach Sample.registry [0, 1]).runOn markerToCome).1.isOk = false ∧
      ((run ⟨Sample.registry, .pooled⟩ [0, 1]).runOn markerToCome).1.isOk := by
  refine ⟨⟨by decide +kernel, by decide +kernel, ?_⟩, ⟨by decide +kernel, by decide +kernel⟩,
    ⟨by decide +kernel, by decide +kernel, ?_⟩, by decide +kernel, by decide +kernel⟩
  · intro same
    exact absurd (congrArg (List.map fun entry => entry.2.length) same) (by decide +kernel)
  · intro same
    exact absurd (congrArg (List.map fun entry => entry.2.map fun row => row.map fun pair => pair.2.isData) same)
      (by decide +kernel)

end Runs

end EntityQuery.Batch
