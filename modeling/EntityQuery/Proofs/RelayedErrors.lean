import EntityQuery.Proofs.OneTransaction
/-! Errors on their way to the caller. Nothing that a client does catches the error of a statement: nothing is asked after
it, and the work fails with it, converted once, whatever transactions it stands in. Of most errors the conversion keeps the
error itself; those of five states of the database it only puts into words. -/

namespace EntityQuery

namespace Failure

/-- The states whose errors are put into words only. -/
def wordedStates : List String := ["23502", "23514", "08000", "08003", "08006"]

theorem serverOwn (error : Value) : (ofServer error).isOwn := by
  unfold ofServer
  split
  · rfl
  · dsimp only
    split <;> rfl

theorem adoptOwn {f : Failure} (own : f.isOwn) : f.adopt = f := if_pos own

theorem adoptedOwn (f : Failure) : f.adopt.isOwn := by
  unfold adopt
  split
  · assumption
  · exact serverOwn _

theorem causeKept {error : Value} (object : isObject error) : ∃ report, (ofServer error).report? = some report ∧
    (report.cause = some error ↔ ∀ state ∈ wordedStates, textMember error "code" ≠ some state) := by
  unfold ofServer
  rw [if_neg (by simp [object])]
  dsimp only
  split <;> refine ⟨_, rfl, ?_⟩ <;> simp_all [wordedStates]

end Failure

namespace Reply

def failure? : Reply → Option Failure
  | rows .. => none
  | refused error => some (.plain error)
  | unsent failure => some failure

end Reply

/-- Replies that a run with a result has used up: none of them is a failure, or the last one is and the run has failed
with it. -/
inductive Consumed {α : Type} (result : Except Failure α) : List Reply → Prop
  | answered {used : List Reply} (all : ∀ r ∈ used, r.failure? = none) : Consumed result used
  | stopped {before : List Reply} {r : Reply} {f : Failure} (all : ∀ r ∈ before, r.failure? = none)
    (last : r.failure? = some f) (failed : result = .error f.adopt) : Consumed result (before ++ [r])

namespace Consumed

variable {α : Type} {result : Except Failure α} {used : List Reply} {r : Reply} {f : Failure}

theorem none : Consumed result [] := .answered nofun

/-- One reply, a failure, and nothing after it. -/
theorem one (failure : r.failure? = some f) : Consumed (.error f.adopt : Except Failure α) [r] :=
  .stopped (List.forall_mem_nil _) failure rfl

/-- A failure among the replies that were used up is the one that the run has failed with. -/
theorem failed (consumed : Consumed result used) (mem : r ∈ used) (failure : r.failure? = some f) : result = .error f.adopt := by
  cases consumed with
  | answered all => cases failure.symm.trans (all r mem)
  | @stopped before last g all ended failed =>
    rcases List.mem_append.mp mem with earlier | final
    · cases failure.symm.trans (all r earlier)
    · obtain rfl := List.mem_singleton.mp final
      obtain rfl := Option.some.inj (failure.symm.trans ended)
      exact failed

end Consumed

namespace Step

variable {τ α β : Type} {replies : τ → List Reply}

/-- A step that fails with the first failure among the replies to it, and asks for none after that one. -/
def Relays (replies : τ → List Reply) (step : Step τ α) : Prop :=
  ∀ s, ∃ used, replies s = used ++ replies (step.runOn s).2 ∧ Consumed (step.runOn s).1 used

theorem relaysSilent {step : Step τ α} (silent : ∀ s, replies (step.runOn s).2 = replies s) : step.Relays replies :=
  fun s => ⟨[], (silent s).symm, .none⟩

theorem relaysLift (r : Except Failure α) : (liftM r : Step τ α).Relays replies := relaysSilent fun _ => rfl

theorem relaysPure (a : α) : (pure a : Step τ α).Relays replies := relaysSilent fun _ => rfl

/-- A step that has failed is not followed by another, so that its failure stays the last. -/
theorem Relays.bind {step : Step τ α} {next : α → Step τ β} (first : step.Relays replies)
    (later : ∀ a, (next a).Relays replies) : (step >>= next).Relays replies := by
  intro s
  obtain ⟨used, same, consumed⟩ := first s
  rw [runBind]
  generalize step.runOn s = ran at same consumed ⊢
  obtain ⟨result, t⟩ := ran
  cases result with
  | error e =>
    refine ⟨used, same, ?_⟩
    cases consumed with
    | answered all => exact .answered all
    | stopped all last failed =>
      cases failed
      exact .stopped all last rfl
  | ok a =>
    obtain ⟨more, others, after⟩ := later a t
    have all : ∀ r ∈ used, r.failure? = none := by
      cases consumed with
      | answered all => exact all
      | stopped _ _ failed => cases failed
    have joined : ∀ {rest : List Reply}, (∀ r ∈ rest, r.failure? = none) → ∀ r ∈ used ++ rest, r.failure? = none :=
      fun rest r mem => (List.mem_append.mp mem).elim (all r) (rest r)
    refine ⟨used ++ more, ?_, ?_⟩
    · change replies s = used ++ replies t at same
      rw [same, others, List.append_assoc]
    · cases after with
      | answered rest => exact .answered (joined rest)
      | stopped rest last failed =>
        rw [← List.append_assoc]
        exact .stopped (joined rest) last failed

/-- Telling of a failure, and passing it on, changes nothing of it. -/
theorem Relays.told {work : Step τ α} {told : Step τ Unit} {failing : Failure → Step τ Unit}
    (relays : (work >>= fun r => told >>= fun _ => pure r).Relays replies)
    (tells : ∀ e s, ∃ t, (failing e).runOn s = (.ok (), t) ∧ replies t = replies s) :
    (do
      try
        let results ← work
        told
        return results
      catch e =>
        failing e
        throw e : Step τ α).Relays replies := by
  intro s
  rw [tryRun]
  have once := relays s
  generalize (work >>= fun r => told >>= fun _ => pure r).runOn s = ran at once ⊢
  obtain ⟨result, t⟩ := ran
  cases result with
  | ok a => exact once
  | error e =>
    obtain ⟨u, tellsOf, same⟩ := tells e t
    dsimp only
    rw [thenRun tellsOf]
    change ∃ used, replies s = used ++ replies u ∧ Consumed (.error e : Except Failure α) used
    rw [same]
    exact once

end Step

namespace Executor

open Step (relaysSilent relaysLift relaysPure)

variable {h : Handle}

theorem queryRelays (p : Sql.Prepared) : (query h p).Relays replies := by
  rintro ⟨waiting, sent⟩
  cases waiting with
  | nil => exact ⟨[], rfl, .none⟩
  | cons reply rest =>
    cases reply with
    | rows rows count => exact ⟨[.rows rows count], rfl, .answered (List.forall_mem_singleton.mpr rfl)⟩
    | refused error => exact ⟨[.refused error], rfl, .one rfl⟩
    | unsent failure => exact ⟨[.unsent failure], rfl, .one rfl⟩

theorem statementRelays (p : Except Failure Sql.Prepared) : (statement h p).Relays replies := (relaysLift p).bind queryRelays

theorem insertEachRelays (q : Insert) (rows : List Row) : (insertEach h q rows).Relays replies := by
  induction rows with
  | nil => exact relaysPure []
  | cons row rest ih => exact (statementRelays _).bind fun w => ih.bind fun others => relaysPure _

theorem insertRelays (q : Insert) : (insert h q).Relays replies := by
  unfold insert
  split
  · exact relaysPure _
  · split
    · exact (insertEachRelays q q.rows).bind fun rows => relaysPure _
    · exact statementRelays _

theorem directRelays (kind : StatementKind) (v : Value) : (direct h kind v).Relays replies := by
  have count : (statement h (Sql.ofDocument .count v) >>= fun w => countOf w.rows >>= fun n => pure (Value.number n) :
      Step Executor Value).Relays replies :=
    (statementRelays _).bind fun _ => (relaysLift _).bind fun _ => relaysPure _
  cases kind with
  | insert =>
    refine (relaysLift _).bind fun rows => ?_
    have whole : (do return (← insert h (← Sql.insertAt v)).toValue : Step Executor Value).Relays replies :=
      (relaysLift _).bind fun q => (insertRelays q).bind fun w => relaysPure _
    split
    · exact relaysPure _
    · exact whole
  | count => exact count
  | select | aggregate | update | delete => exact (statementRelays _).bind fun _ => relaysPure _

end Executor

namespace Context

open Step (relaysSilent relaysLift relaysPure)
open Executor (statementRelays insertRelays)

variable {α β : Type} {c : Context} {may : WriteStatement → Prop}

def repliesOf (s : Session Executor) : List Reply := s.backend.replies

theorem onBackendRelays {step : Step Executor α} (relays : step.Relays Executor.replies) :
    (Action.onBackend step).Relays repliesOf := fun s => relays s.backend

theorem groupRelays (q : Grouping) : (c.group q).Relays repliesOf :=
  onBackendRelays ((statementRelays _).bind fun _ => relaysPure _)

theorem countRelays (q : Count) : (c.count q).Relays repliesOf :=
  onBackendRelays ((statementRelays _).bind fun _ => relaysLift _)

/-- By induction on the statements. -/
theorem sentRelays {step : Action Executor α} (sent : SentIn c may step) : step.Relays repliesOf := by
  induction sent with
  | pure a => exact relaysPure a
  | lift r => exact relaysLift r
  | tell channel text => exact relaysSilent fun _ => rfl
  | noteFetch f => exact relaysSilent fun _ => rfl
  | select q => exact onBackendRelays ((statementRelays _).bind fun _ => relaysPure _)
  | count q => exact countRelays q
  | insert q held => exact onBackendRelays (insertRelays q)
  | update q held => exact onBackendRelays (statementRelays _)
  | delete q held => exact onBackendRelays (statementRelays _)
  | bind _ _ first later => exact first.bind later

/-- Where the work of a transaction begins: in the transaction that is open, or in one of its own. -/
def entered (c : Context) (s : Session Executor) : Session Executor :=
  match c.handle with
  | .bound => s
  | .pooled => s.withBackend (s.backend.note .begin)

theorem enteredReplies (c : Context) (s : Session Executor) : repliesOf (c.entered s) = repliesOf s := by
  unfold entered
  split <;> rfl

/-- A transaction uses up the replies of its work and ends as its work does. Of a failure it converts what is not the
library's own, if anything. -/
theorem transactionEnds (c : Context) (work : Context → Action Executor α) (s : Session Executor) :
    ∃ convert : Failure → Failure, (∀ f, f.isOwn → convert f = f) ∧
      ((c.transaction work).runOn s).1 = ((work { c with handle := .bound }).runOn (c.entered s)).1.mapError convert ∧
      repliesOf ((c.transaction work).runOn s).2 = repliesOf ((work { c with handle := .bound }).runOn (c.entered s)).2 := by
  obtain ⟨registry, handle⟩ := c
  cases handle with
  | bound =>
    rw [transactionJoined rfl]
    change ∃ convert : Failure → Failure, _ ∧ _ = ((work ⟨registry, .bound⟩).runOn s).1.mapError convert ∧ _
    refine ⟨id, fun _ _ => rfl, ?_, rfl⟩
    cases ((work ⟨registry, .bound⟩).runOn s).1 <;> rfl
  | pooled =>
    have opens : Backend.opened s.backend = .ok (s.backend.note .begin) := rfl
    rw [transactionOpened rfl opens]
    refine ⟨Failure.adopt, fun _ => Failure.adoptOwn, ?_⟩
    change _ = ((work ⟨registry, .bound⟩).runOn (s.withBackend (s.backend.note .begin))).1.mapError Failure.adopt ∧
      _ = repliesOf ((work ⟨registry, .bound⟩).runOn (s.withBackend (s.backend.note .begin))).2
    rcases (work ⟨registry, .bound⟩).runOn (s.withBackend (s.backend.note .begin)) with ⟨result, t⟩
    cases result <;> exact ⟨rfl, rfl⟩

theorem transactionRelays {work : Context → Action Executor α} (relays : (work { c with handle := .bound }).Relays repliesOf) :
    (c.transaction work).Relays repliesOf := by
  intro s
  obtain ⟨convert, kept, ended, same⟩ := transactionEnds c work s
  obtain ⟨used, replied, consumed⟩ := relays (c.entered s)
  refine ⟨used, ?_, ?_⟩
  · rw [same, ← replied, enteredReplies]
  · rw [ended]
    cases consumed with
    | answered all => exact .answered all
    | stopped all last failed =>
      refine .stopped all last ?_
      rw [failed]
      exact congrArg Except.error (kept _ (Failure.adoptedOwn _))

theorem performRelays (c : Context) (e : Entity) (r : Request) : (c.perform e r : Action Executor Value).Relays repliesOf := by
  have write : r.kind ≠ .read → (c.perform e r : Action Executor Value).Relays repliesOf := by
    intro writes s
    cases opening : r.opens with
    | true =>
      rw [performOpening c e opening]
      exact transactionRelays (sentRelays (insideSent _ e writes)) s
    | false =>
      rw [performBare c e opening]
      exact sentRelays (insideSent c e writes) s
  have find : ∀ r take, (c.find e r take : Action Executor (List Row)).Relays repliesOf := fun r take => by
    refine (relaysLift _).bind fun condition => Step.Relays.bind ?_ fun rows => ?_
    · exact sentRelays (show SentIn c (fun _ => True) _ from c.readRowsSent e condition _)
    · exact sentRelays (show SentIn c (fun _ => True) _ from c.loadIncludesSent e r.includes rows)
  cases r with
  | find mode r =>
    cases mode with
    | many => exact (find r _).bind fun _ => relaysPure _
    | first => exact (relaysLift _).bind fun _ => (find r _).bind fun _ => relaysPure _
    | unique => exact (find r _).bind fun _ => relaysPure _
  | count filter => exact ((relaysLift _).bind fun _ => countRelays _).bind fun _ => relaysPure _
  | aggregate a =>
    exact ((relaysLift _).bind fun _ => (groupRelays _).bind fun _ => relaysLift _).bind fun _ => relaysPure _
  | group g =>
    refine Step.Relays.bind ((relaysLift _).bind fun condition => (groupRelays _).bind fun rows => ?_) fun rows => relaysPure _
    rw [Step.mapLift]
    exact relaysLift _
  | _ => exact write (by simp [Request.kind])

end Context

namespace Client

open Context (repliesOf)
open Step (relaysSilent relaysLift relaysPure)

theorem consumeRelays (id : Nat) : (Action.consume id : Action Executor Operation).Relays repliesOf :=
  (relaysSilent fun _ => rfl).bind fun _ => (relaysLift _).bind fun _ => relaysSilent fun _ => rfl

theorem executeRelays (registry : Registry Fetcher) (id : Nat) (h : Option Handle) :
    (Action.execute registry id h : Action Executor Value).Relays repliesOf :=
  (consumeRelays id).bind fun o => Context.performRelays _ o.entity o.request

theorem executeAllRelays (c : Context) (ids : List Nat) :
    (Batch.executeAll c ids : Action Executor (List BatchResult)).Relays repliesOf := by
  induction ids with
  | nil => exact relaysPure []
  | cons id rest ih =>
    exact (relaysSilent fun _ => rfl).bind fun _ => (executeRelays _ _ _).bind fun _ => ih.bind fun _ => relaysPure _

theorem batchRelays (c : Context) (ids : List Nat) : (Batch.run c ids : Action Executor (List BatchResult)).Relays repliesOf := by
  unfold Batch.run
  refine (relaysSilent fun s => congrArg repliesOf (operationsKeep ids s)).bind fun operations => (relaysLift _).bind fun _ => ?_
  refine Step.Relays.told ?_ fun e s => ⟨_, rfl, rfl⟩
  exact (Context.transactionRelays (executeAllRelays _ ids)).bind fun results => (relaysSilent fun _ => rfl).bind fun _ => relaysPure _

/-- Work of a client in a context: operations, batches, statements of its own and transactions, with anything between them
that asks the server for nothing. What fails is not caught. -/
inductive Asks : Context → {α : Type} → Action Executor α → Prop
  | execute (c : Context) (id : Nat) (h : Option Handle) : Asks c (Action.execute c.registry id h)
  | batch (c : Context) (ids : List Nat) : Asks c (Batch.run c ids)
  | raw (c : Context) (sql : String) (params : List Value) : Asks c (c.raw sql params)
  | direct (c : Context) (kind : StatementKind) (document : Value) : Asks c (c.direct kind document)
  | transaction (c : Context) {α : Type} {work : Context → Action Executor α} (inside : ∀ h, Asks { c with handle := h } (work { c with handle := h })) :
    Asks c (c.transaction work)
  | silent (c : Context) {α : Type} {step : Action Executor α} (silent : ∀ s, repliesOf (step.runOn s).2 = repliesOf s) : Asks c step
  | bind {c : Context} {α β : Type} {step : Action Executor α} {next : α → Action Executor β} (first : Asks c step)
    (later : ∀ a, Asks c (next a)) : Asks c (step >>= next)

variable {α : Type} {c : Context} {step : Action Executor α}

theorem asksRelays (asks : Asks c step) : step.Relays repliesOf := by
  induction asks with
  | execute c id h => exact executeRelays c.registry id h
  | batch c ids => exact batchRelays c ids
  | raw c sql params => exact Context.onBackendRelays ((Executor.queryRelays _).bind fun _ => relaysPure _)
  | direct c kind document => exact Context.onBackendRelays (Executor.directRelays kind document)
  | transaction c _ inside => exact Context.transactionRelays (inside .bound)
  | silent c silent => exact relaysSilent silent
  | bind _ _ first later => exact first.bind later

end Client

end EntityQuery
