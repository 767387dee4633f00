import EntityQuery.Proofs.PooledClients
/-! Transactions of a layer. The work goes as far as it gets, and is rolled back unless its commit succeeds; the client is
released once, after everything that is asked on it. A failure of the rollback takes the place of the one that it follows. -/

namespace EntityQuery.Connection.Layer

variable {α : Type} {l t u : Layer} {client : Nat} {work : Nat → Step Layer α}

/-- A layer that has told of the start of a transaction. -/
def started (l : Layer) : Layer := { l with notes := l.notes ++ [(.db, .text "Transaction started")] }

def committed (l : Layer) : Layer := { l with notes := l.notes ++ [(.db, .text "Transaction committed")] }

/-- How far the work of a transaction gets on a client: how it ends, what the server meets of it, and what it leaves. -/
inductive Course (client : Nat) (work : Nat → Step Layer α) (l : Layer) : Except Failure α → List Event → Layer → Prop
  | unbegun {e : Failure} {t : Layer} (refused : (ask client "BEGIN" none).runOn l = (.error e, t)) :
    Course client work l (.error e) [.asked client "BEGIN" none] t
  | unfinished {rows : List Row} {begun t : Layer} {e : Failure} {marks : List Event}
    (begins : (ask client "BEGIN" none).runOn l = (.ok rows, begun)) (failed : (work client).runOn begun.started = (.error e, t))
    (met : t.server.events = begun.server.events ++ marks) :
    Course client work l (.error e) (.asked client "BEGIN" none :: marks) t
  | uncommitted {rows : List Row} {begun done t : Layer} {a : α} {e : Failure} {marks : List Event}
    (begins : (ask client "BEGIN" none).runOn l = (.ok rows, begun)) (worked : (work client).runOn begun.started = (.ok a, done))
    (met : done.server.events = begun.server.events ++ marks) (refused : (ask client "COMMIT" none).runOn done = (.error e, t)) :
    Course client work l (.error e) (.asked client "BEGIN" none :: marks ++ [.asked client "COMMIT" none]) t
  | committed {rows others : List Row} {begun done t : Layer} {a : α} {marks : List Event}
    (begins : (ask client "BEGIN" none).runOn l = (.ok rows, begun)) (worked : (work client).runOn begun.started = (.ok a, done))
    (met : done.server.events = begun.server.events ++ marks) (ends : (ask client "COMMIT" none).runOn done = (.ok others, t)) :
    Course client work l (.ok a) (.asked client "BEGIN" none :: marks ++ [.asked client "COMMIT" none]) t.committed

theorem getConnectionRun (l : Layer) :
    getConnection.runOn l = if l.isConnected then acquire.runOn l else (.error .disconnected, l) := by
  unfold getConnection
  rw [Step.thenInspect]
  split <;> rfl

theorem connectionOk (ready : l.Open) (got : getConnection.runOn l = (.ok client, t)) :
    ∃ taken, Takes l t client taken ∧ (taken = [] ∨ taken = [.opened client]) := by
  rw [getConnectionRun] at got
  split at got
  · obtain ⟨taken, takes, opened⟩ := acquireOk ready got
    exact ⟨taken, takes, opened.symm.imp And.left id⟩
  · cases got

theorem connectionError (ready : l.Open) {e : Failure} (failed : getConnection.runOn l = (.error e, t)) :
    ∃ marks, Returns l t marks := by
  rw [getConnectionRun] at failed
  split at failed
  · obtain ⟨marks, returns, -⟩ := acquireError ready failed
    exact ⟨marks, returns⟩
  · cases failed
    exact ⟨[], returnsNoted ready _⟩

/-- Each statement is asked after the one before it has succeeded. -/
theorem commitCourse (ready : l.Open) (fair : Fair (work client)) : ∃ marks,
    Course client work l ((commit client work).runOn l).1 marks ((commit client work).runOn l).2 ∧
      Spares l ((commit client work).runOn l).2 marks := by
  unfold commit
  have asked := askReturns ready client "BEGIN" none
  cases begins : (ask client "BEGIN" none).runOn l with
  | mk r begun =>
  rw [begins] at asked
  cases r with
  | error e =>
    rw [Step.stopRun begins]
    exact ⟨_, .unbegun begins, asked.toSpares⟩
  | ok rows =>
    have starts : Spares begun begun.started [] := (returnsNoted asked.stays _).toSpares
    obtain ⟨marks, spares⟩ := fair begun.started starts.stays
    have tells : (tell .db (.text "Transaction started")).runOn begun = (.ok (), begun.started) := rfl
    rw [Step.thenRun begins, Step.thenRun tells]
    cases worked : (work client).runOn begun.started with
    | mk r done =>
    rw [worked] at spares
    have met := spares.events
    have used : Spares l done (.asked client "BEGIN" none :: marks) := asked.toSpares.trans (starts.trans spares)
    cases r with
    | error e =>
      rw [Step.stopRun worked]
      exact ⟨_, .unfinished begins worked met, used⟩
    | ok a =>
      rw [Step.thenRun worked]
      have last := askReturns spares.stays client "COMMIT" none
      cases ends : (ask client "COMMIT" none).runOn done with
      | mk r t =>
      rw [ends] at last
      cases r with
      | error e =>
        rw [Step.stopRun ends]
        exact ⟨_, .uncommitted begins worked met ends, used.trans last.toSpares⟩
      | ok others =>
        rw [Step.thenRun ends]
        refine ⟨_, .committed begins worked met ends, ?_⟩
        have all := (used.trans last.toSpares).trans (returnsNoted last.stays t.committed.notes).toSpares
        rwa [List.append_nil] at all

/-- What a rollback makes of the result of the work. It is asked for after a failure only, and that failure is what the
caller sees if it succeeds. -/
inductive Undone (client : Nat) (l : Layer) : Except Failure α → Except Failure α → List Event → Prop
  | kept (a : α) : Undone client l (.ok a) (.ok a) []
  | undone (e : Failure) {rows : List Row} {t : Layer} (ends : (ask client "ROLLBACK" none).runOn l = (.ok rows, t)) :
    Undone client l (.error e) (.error e) [.asked client "ROLLBACK" none]
  | replaced (e : Failure) {f : Failure} {t : Layer} (refused : (ask client "ROLLBACK" none).runOn l = (.error f, t)) :
    Undone client l (.error e) (.error f) [.asked client "ROLLBACK" none]

theorem rollBackUndone (ready : l.Open) (client : Nat) (e : Failure) : ∃ (ended : Except Failure α) (t : Layer) (marks : List Event),
    (rollBack client e : Step Layer α).runOn l = (ended, t) ∧ Undone client l (.error e : Except Failure α) ended marks ∧
      Spares l t marks := by
  have asked := askReturns ready client "ROLLBACK" none
  unfold rollBack
  cases ends : (ask client "ROLLBACK" none).runOn l with
  | mk answer t =>
  rw [ends] at asked
  cases answer with
  | error f => exact ⟨_, t, _, Step.stopRun ends, .replaced e ends, asked.toSpares⟩
  | ok rows =>
    refine ⟨_, _, _, Step.thenRun ends, .undone e ends, ?_⟩
    have told := returnsNoted asked.stays (t.notes ++ [(.db, .text s!"Transaction rolled back due to error: {e.message}")])
    exact asked.toSpares.trans told.toSpares

theorem settleCourse (ready : l.Open) (lent : l.Lends client) (fair : Fair (work client)) : ∃ result marks t undone,
    (Course client work l result marks t ∧ .released client ∉ marks) ∧
      Undone client t result ((settle client work).runOn l).1 undone ∧
      Spares l ((settle client work).runOn l).2 (marks ++ undone) := by
  obtain ⟨marks, course, spares⟩ := commitCourse ready fair
  unfold settle
  rw [Step.runCatch]
  generalize (commit client work).runOn l = ran at course spares ⊢
  obtain ⟨result, t⟩ := ran
  cases result with
  | ok a => exact ⟨_, marks, t, [], ⟨course, spares.spared client lent⟩, .kept a, (List.append_nil marks).symm ▸ spares⟩
  | error e =>
    obtain ⟨ended, u, undone, ran, ends, after⟩ := rollBackUndone spares.stays client e
    dsimp only at ran ⊢
    rw [ran]
    exact ⟨_, marks, t, undone, ⟨course, spares.spared client lent⟩, ends, spares.trans after⟩

theorem transactionRun (got : getConnection.runOn l = (.ok client, t)) (ready : ((settle client work).runOn t).2.Open)
    (lent : ((settle client work).runOn t).2.Lends client) : ∃ v closing,
      (transaction work).runOn l = (((settle client work).runOn t).1, v) ∧
      Drops ((settle client work).runOn t).2 v client (.released client :: closing) ∧ (closing = [] ∨ closing = [.closed client]) := by
  obtain ⟨v, closing, handed, drops, closes⟩ := releaseRun ready lent
  refine ⟨v, closing, ?_, drops, closes⟩
  unfold transaction
  rw [Step.thenRun got, Step.runFinally, handed]

/-- A transaction that has got a client begins on it, works, and commits, each after what comes before it has succeeded; after
a failure of any of them it rolls back. Then it releases the client, once. It ends as its work does, save that the failure of a
rollback hides the failure that it follows. -/
theorem transactionSettles (ready : l.Open) (got : getConnection.runOn l = (.ok client, t)) (fair : Fair (work client)) :
    ∃ taken result marks u undone closing,
      (t.server.events = l.server.events ++ taken ∧ (taken = [] ∨ taken = [.opened client])) ∧
      (Course client work t result marks u ∧ .released client ∉ marks) ∧
      Undone client u result ((transaction work).runOn l).1 undone ∧
      ((transaction work).runOn l).2.server.events = t.server.events ++ marks ++ undone ++ .released client :: closing ∧
      (closing = [] ∨ closing = [.closed client]) := by
  obtain ⟨taken, takes, opened⟩ := connectionOk ready got
  have lent : t.Lends client := (takes.lends client).mpr (.inl rfl)
  obtain ⟨result, marks, u, undone, course, ends, spares⟩ := settleCourse takes.stays lent fair
  obtain ⟨v, closing, ran, drops, closes⟩ := transactionRun got spares.stays (spares.kept client lent)
  rw [ran]
  refine ⟨taken, result, marks, u, undone, closing, ⟨takes.events, opened⟩, course, ends, ?_, closes⟩
  rw [drops.events, spares.events]
  simp only [List.append_assoc]

/-- The work fails on a refused query, and so does the rollback. -/
theorem transactionSettlesRefused :
    let refused (text : String) : Reply := .refused (.object [("message", .text text)])
    let server : Server := ⟨[.rows [] none, refused "x failed", refused "rollback failed"], [], true, 1, []⟩
    let l : Layer := ⟨[], some ⟨.int 10, none, [], [1], [1], true⟩, true, server, []⟩
    let work (client : Nat) : Step Layer (List Row) := query "X" (.array []) (some client)
    (getConnection.runOn l).1 = .ok 1 ∧ ∃ t result marks u undone, Course 1 work t result marks u ∧
      Undone 1 u result ((transaction work).runOn l).1 undone ∧
      ((transaction work).runOn l).1 = .error (.plain (.object [("message", .text "rollback failed")])) := by
  intro refused server l work
  have ready : l.Open := ⟨_, rfl, by decide, by decide, by decide, nofun⟩
  have got : getConnection.runOn l = (.ok 1, (getConnection.runOn l).2) := rfl
  have fair : Fair (work 1) := (tidyQuery "X" (.array []) (some 1)).fair
  obtain ⟨-, result, marks, u, undone, -, -, ⟨course, -⟩, ends, -⟩ := transactionSettles ready got fair
  exact ⟨rfl, _, result, marks, u, undone, course, ends, rfl⟩

/-- Transactions whose work hands back what it takes do so themselves, nested ones too. -/
theorem tidyTransaction (tidy : ∀ client, Tidy (work client)) : Tidy (transaction work) := by
  intro l ready
  have settled : ∀ client, Tidy (settle client work) := fun client => by
    have worked : Tidy (commit client work) := (tidyAsk _ _ _).bind fun _ => (tidyTell _ _).bind fun _ =>
      (tidy client).bind fun a => (tidyAsk _ _ _).bind fun _ => (tidyTell _ _).bind fun _ => tidyLift (.ok a)
    exact worked.caught fun e => (tidyAsk _ _ _).bind fun _ => (tidyTell _ _).bind fun _ => tidyLift (.error e)
  cases got : getConnection.runOn l with
  | mk r t =>
  cases r with
  | error e =>
    unfold transaction
    rw [Step.stopRun got]
    exact connectionError ready got
  | ok client =>
    obtain ⟨taken, takes, -⟩ := connectionOk ready got
    obtain ⟨marks, returns⟩ := settled client t takes.stays
    have lent := returns.kept client ((takes.lends client).mpr (.inl rfl))
    obtain ⟨v, closing, ran, drops, -⟩ := transactionRun got returns.stays lent
    rw [ran]
    exact ⟨_, takes.returns returns drops⟩

end EntityQuery.Connection.Layer
