import EntityQuery.Executor
import EntityQuery.Proofs.Sample
import EntityQuery.Proofs.SentStatements
import EntityQuery.Proofs.Transactions
/-! What writes send to a server. A write that takes more than one query opens a transaction first and sends all of them
inside; the only one that does not is an insert of several rows without columns, which is sent row by row. -/

namespace EntityQuery

namespace Sent

def isQuery : Sent → Bool
  | query .. => true
  | begin | commit | rollback => false

/-- Is it a query on the connection of a transaction? -/
def isBound : Sent → Bool
  | query _ _ bound => bound
  | begin | commit | rollback => false

/-- The mark at the end of a transaction whose work ended so. -/
def ending {α : Type} : Except Failure α → Sent
  | .ok _ => .commit
  | .error _ => .rollback

/-- Several queries stand in one transaction, all on its connection, and it is committed only if the run succeeds. -/
def InOneTransaction {α : Type} (result : Except Failure α) (marks : List Sent) : Prop :=
  1 < marks.countP isQuery → ∃ queries, marks = .begin :: queries ++ [ending result] ∧ ∀ m ∈ queries, m.isBound

variable {α : Type} {result : Except Failure α} {marks : List Sent}

theorem fewInOne (few : marks.length ≤ 1) : InOneTransaction result marks := by
  intro several
  have bound := marks.countP_le_length (p := isQuery)
  omega

theorem queriesNotInOne {first second : Sent} (begun : first.isQuery) (more : second.isQuery) :
    ¬ InOneTransaction result (first :: second :: marks) := by
  intro inOne
  obtain ⟨queries, same, -⟩ := inOne (by simp [begun, more])
  obtain ⟨rfl, -⟩ := List.cons.inj same
  cases begun

end Sent

namespace Step

variable {τ α β : Type} {sent : τ → List Sent} {P Q R : List Sent → Prop}

/-- What a step sends beyond what had been sent, whatever the server answers. -/
def Adds (sent : τ → List Sent) (P : List Sent → Prop) (step : Step τ α) : Prop :=
  ∀ s, ∃ marks, sent (step.runOn s).2 = sent s ++ marks ∧ P marks

theorem Adds.widen {step : Step τ α} (adds : step.Adds sent P) (wider : ∀ marks, P marks → Q marks) : step.Adds sent Q := by
  intro s
  obtain ⟨marks, same, held⟩ := adds s
  exact ⟨marks, same, wider marks held⟩

/-- A step that stops has sent its own marks; one that goes on is followed by those of the next. -/
theorem Adds.bind {step : Step τ α} {next : α → Step τ β} (first : step.Adds sent P) (later : ∀ a, (next a).Adds sent Q)
    (stopped : ∀ marks, P marks → R marks) (joined : ∀ marks more, P marks → Q more → R (marks ++ more)) :
    (step >>= next).Adds sent R := by
  intro s
  obtain ⟨marks, same, held⟩ := first s
  rw [runBind]
  cases ran : step.runOn s with
  | mk r t =>
    rw [ran] at same
    cases r with
    | error e => exact ⟨marks, same, stopped marks held⟩
    | ok a =>
      obtain ⟨more, after, holds⟩ := later a t
      refine ⟨marks ++ more, ?_, joined marks more held holds⟩
      rw [after, same, List.append_assoc]

/-- A step that sends nothing. -/
theorem addsNone {step : Step τ α} (kept : ∀ s, sent (step.runOn s).2 = sent s) : step.Adds sent (· = []) :=
  fun s => ⟨[], (kept s).trans (List.append_nil _).symm, rfl⟩

theorem sentThenNone {step : Step τ α} {next : α → Step τ β} (later : ∀ a, (next a).Adds sent (· = [])) (s : τ) :
    sent ((step >>= next).runOn s).2 = sent (step.runOn s).2 := by
  rw [runBind]
  cases step.runOn s with
  | mk r t =>
    cases r with
    | error e => rfl
    | ok a =>
      obtain ⟨_, same, rfl⟩ := later a t
      exact same.trans (List.append_nil _)

theorem Adds.thenNone {step : Step τ α} {next : α → Step τ β} (first : step.Adds sent P)
    (later : ∀ a, (next a).Adds sent (· = [])) : (step >>= next).Adds sent P := by
  intro s
  rw [sentThenNone later]
  exact first s

theorem Adds.noneThen {step : Step τ α} {next : α → Step τ β} (first : step.Adds sent (· = []))
    (later : ∀ a, (next a).Adds sent P) (none : P []) : (step >>= next).Adds sent P := by
  refine first.bind later ?_ ?_
  · rintro _ rfl
    exact none
  · rintro _ more rfl held
    exact held

theorem liftAddsNone (r : Except Failure α) : (liftM r : Step τ α).Adds sent (· = []) := addsNone fun _ => rfl

theorem pureAddsNone (a : α) : (pure a : Step τ α).Adds sent (· = []) := addsNone fun _ => rfl

end Step

namespace Executor

/-- Every mark is a query, on the connection of a transaction exactly as the handle says. -/
def Through (h : Handle) (marks : List Sent) : Prop := ∀ m ∈ marks, m.isQuery ∧ m.isBound = (h == .bound)

variable {h : Handle} {α : Type}

theorem throughNone : Through h [] := fun _ mem => absurd mem List.not_mem_nil

theorem throughSilent (marks : List Sent) (silent : marks = []) : Through h marks := by
  subst silent
  exact throughNone

theorem throughAppend {marks more : List Sent} (first : Through h marks) (later : Through h more) : Through h (marks ++ more) := by
  intro m mem
  rcases List.mem_append.mp mem with here | there
  · exact first m here
  · exact later m there

theorem queryRun (p : Sql.Prepared) (e : Executor) :
    ((query h p).runOn e).2 = ⟨e.replies.tail, e.sent ++ [.query p.sql p.params (h == .bound)]⟩ := by
  obtain ⟨replies, before⟩ := e
  cases replies with
  | nil => rfl
  | cons reply rest => cases reply <;> rfl

def AtMostOne (h : Handle) (marks : List Sent) : Prop := Through h marks ∧ marks.length ≤ 1

theorem statementAdds (p : Except Failure Sql.Prepared) : (statement h p).Adds sent (AtMostOne h) := by
  refine (Step.liftAddsNone p).noneThen (fun p e => ⟨_, congrArg sent (queryRun p e), ?_, ?_⟩) ⟨throughNone, Nat.zero_le 1⟩
  · intro m mem
    cases List.mem_singleton.mp mem
    exact ⟨rfl, rfl⟩
  · exact Nat.le_refl 1

/-- By induction on the rows: every row costs a statement of its own on the same connection. -/
theorem insertEachAdds (q : Insert) (rows : List Row) : (insertEach h q rows).Adds sent (Through h) := by
  induction rows with
  | nil => exact (Step.addsNone fun _ => rfl).widen throughSilent
  | cons row rest ih =>
    refine (statementAdds _).bind (fun w => ih.thenNone fun _ => Step.pureAddsNone _) (fun _ held => held.1) fun marks more first later => ?_
    exact throughAppend first.1 later

/-- Several rows, none of which has a column, which are inserted one by one. -/
def scatters (rows : List Row) : Bool := 1 < rows.length && rows.all List.isEmpty

theorem insertWhole (q : Insert) (whole : scatters q.rows = false) : (insert h q).Adds sent (AtMostOne h) := by
  unfold insert
  split
  · exact (Step.pureAddsNone _).widen fun _ silent => ⟨throughSilent _ silent, by simp [silent]⟩
  · rename_i filled
    unfold scatters at whole
    rw [if_neg (by simp [whole])]
    exact statementAdds _

theorem insertAdds (q : Insert) : (insert h q).Adds sent (Through h) := by
  cases scattered : scatters q.rows with
  | false => exact (insertWhole q scattered).widen fun _ held => held.1
  | true =>
    unfold insert
    split
    · exact (Step.addsNone fun _ => rfl).widen throughSilent
    · unfold scatters at scattered
      rw [if_pos scattered]
      exact (insertEachAdds q q.rows).thenNone fun _ => Step.pureAddsNone _

/-- Is the answer that lies ready for the next query not an error? -/
def accepts (e : Executor) : Bool :=
  match e.replies with
  | .refused _ :: _ | .unsent _ :: _ => false
  | .rows .. :: _ | [] => true

theorem queryAnswered (p : Sql.Prepared) (e : Executor) :
    if e.accepts then ∃ w, ((query h p).runOn e).1 = .ok w else ∃ f, ((query h p).runOn e).1 = .error f := by
  obtain ⟨replies, before⟩ := e
  cases replies with
  | nil => exact ⟨_, rfl⟩
  | cons reply rest => cases reply <;> exact ⟨_, rfl⟩

theorem insertEachFirst (q : Insert) (rest : List Row) (e : Executor) :
    ∃ first more, ((insertEach h q ([] :: rest)).runOn e).2.sent = e.sent ++ first :: more ∧ first.isQuery ∧
      if e.accepts then ∃ t : Executor, ((insertEach h q rest).runOn t).2.sent = t.sent ++ more else more = [] := by
  obtain ⟨p, rendered⟩ : ∃ p, Sql.insert { q with rows := [[]] } = .ok p := ⟨_, rfl⟩
  have parts : insertEach h q ([] :: rest) = (query h p >>= fun w => insertEach h q rest >>= fun others => pure (w.rows ++ others)) := by
    rw [insertEach, rendered]
    rfl
  have answered := queryAnswered (h := h) p e
  have told := queryRun (h := h) p e
  rw [parts, Step.runBind]
  generalize (query h p).runOn e = ended at answered told ⊢
  obtain ⟨result, t⟩ := ended
  obtain rfl : t = _ := told
  cases accepted : e.accepts with
  | false =>
    rw [accepted] at answered
    obtain ⟨f, rfl⟩ := answered
    exact ⟨_, [], rfl, rfl, rfl⟩
  | true =>
    rw [accepted] at answered
    obtain ⟨w, rfl⟩ := answered
    obtain ⟨more, same, -⟩ := insertEachAdds (h := h) q rest ⟨e.replies.tail, e.sent ++ [.query p.sql p.params (h == .bound)]⟩
    refine ⟨.query p.sql p.params (h == .bound), more, ?_, rfl, _, same⟩
    exact (Step.sentThenNone (fun _ => Step.pureAddsNone _) _).trans (same.trans (List.append_assoc _ _ _))

/-- Rows without columns are sent one by one until an error is the answer, each on its own. -/
theorem insertScattered (q : Insert) (scattered : scatters q.rows) (e : Executor) :
    ∃ first more, ((insert h q).runOn e).2.sent = e.sent ++ first :: more ∧ first.isQuery ∧
      if e.accepts then ∃ second rest, more = second :: rest ∧ second.isQuery else more = [] := by
  have each : insert h q = (insertEach h q q.rows >>= fun rows => pure ⟨.integer q.rows.length, rows⟩) := by
    unfold insert
    unfold scatters at scattered
    rw [if_neg (by intro none; simp_all), if_pos scattered]
  have columnless : ∃ rest, q.rows = [] :: [] :: rest := by
    unfold scatters at scattered
    match rows : q.rows with
    | [] | [_] => simp [rows] at scattered
    | a :: b :: rest =>
      rw [rows] at scattered
      obtain ⟨rfl, rfl, -⟩ : a = [] ∧ b = [] ∧ _ := by simpa using scattered
      exact ⟨rest, rfl⟩
  obtain ⟨rest, rows⟩ := columnless
  obtain ⟨first, more, same, isQuery, later⟩ := insertEachFirst (h := h) q ([] :: rest) e
  refine ⟨first, more, ?_, isQuery, ?_⟩
  · rw [each, rows]
    exact (Step.sentThenNone (fun _ => Step.pureAddsNone _) _).trans same
  · cases accepted : e.accepts with
    | false => simpa [accepted] using later
    | true =>
      rw [accepted] at later
      obtain ⟨t, sent⟩ := later
      obtain ⟨second, others, again, query, -⟩ := insertEachFirst (h := h) q rest t
      exact ⟨second, others, List.append_cancel_left (sent.symm.trans again), query⟩

end Executor

/-- Is it an insert that goes row by row? -/
def Request.scatters : Request → Bool
  | .createMany rows => Executor.scatters rows
  | _ => false

namespace Context

open Executor (Through AtMostOne throughNone throughSilent throughAppend statementAdds)

variable {α : Type} {P : List Sent → Prop} {h : Handle}

def sentOf (s : Session Executor) : List Sent := s.backend.sent

theorem onBackendAdds {step : Step Executor α} (adds : step.Adds Executor.sent P) : (Action.onBackend step).Adds sentOf P :=
  fun s => adds s.backend

variable {c : Context} {may : WriteStatement → Prop}

theorem selectAdds (q : Select) : (c.select q).Adds sentOf (AtMostOne c.handle) :=
  onBackendAdds ((statementAdds _).thenNone fun _ => Step.pureAddsNone _)

theorem countAdds (q : Count) : (c.count q).Adds sentOf (AtMostOne c.handle) :=
  onBackendAdds ((statementAdds _).thenNone fun _ => Step.liftAddsNone _)

theorem updateAdds (q : Update) : (c.update q).Adds sentOf (AtMostOne c.handle) := onBackendAdds (statementAdds _)

theorem deleteAdds (q : Delete) : (c.delete q).Adds sentOf (AtMostOne c.handle) := onBackendAdds (statementAdds _)

theorem groupAdds (q : Grouping) : (c.group q).Adds sentOf (AtMostOne c.handle) :=
  onBackendAdds ((statementAdds _).thenNone fun _ => Step.pureAddsNone _)

/-- By induction on the statements: all that is sent goes where the context says. -/
theorem sentThrough {step : Action Executor α} (sent : SentIn c may step) : step.Adds sentOf (Through c.handle) := by
  induction sent with
  | pure a => exact (Step.addsNone fun _ => rfl).widen throughSilent
  | lift r => exact (Step.addsNone fun _ => rfl).widen throughSilent
  | tell channel text => exact (Step.addsNone fun _ => rfl).widen throughSilent
  | noteFetch f => exact (Step.addsNone fun _ => rfl).widen throughSilent
  | select q => exact (selectAdds q).widen fun _ held => held.1
  | count q => exact (countAdds q).widen fun _ held => held.1
  | insert q held => exact onBackendAdds (Executor.insertAdds q)
  | update q held => exact (updateAdds q).widen fun _ held => held.1
  | delete q held => exact (deleteAdds q).widen fun _ held => held.1
  | bind _ _ first later => exact first.bind later (fun _ held => held) fun _ _ => throughAppend

theorem transactionBound {work : Context → Action Executor α} (bound : c.handle = .bound) (adds : (work c).Adds sentOf P) :
    (c.transaction work).Adds sentOf P := by
  intro s
  have joins : Backend.joins c.handle s.backend := by
    rw [bound]
    rfl
  rw [transactionJoined joins]
  exact adds s

/-- Outside of a transaction one is opened, and closed by how the work ends. -/
theorem transactionPooled {work : Context → Action Executor α} (pooled : c.handle = .pooled)
    (adds : (work { c with handle := .bound }).Adds sentOf (Through .bound)) (s : Session Executor) :
    ∃ queries, sentOf ((c.transaction work).runOn s).2 =
        sentOf s ++ (.begin :: queries ++ [Sent.ending ((c.transaction work).runOn s).1]) ∧ Through .bound queries := by
  have alone : Backend.joins c.handle s.backend = false := by
    rw [pooled]
    rfl
  have opened : Backend.opened s.backend = .ok (s.backend.note .begin) := rfl
  obtain ⟨queries, same, held⟩ := adds (s.withBackend (s.backend.note .begin))
  refine ⟨queries, ?_, held⟩
  rw [transactionOpened alone opened]
  generalize (work { c with handle := .bound }).runOn (s.withBackend (s.backend.note .begin)) = ended at same ⊢
  obtain ⟨result, t⟩ := ended
  have begun : t.backend.sent = s.backend.sent ++ [.begin] ++ queries := same
  cases result with
  | error f =>
    change t.backend.sent ++ [.rollback] = s.backend.sent ++ (.begin :: queries ++ [.rollback])
    simp [begun]
  | ok a =>
    change t.backend.sent ++ [.commit] = s.backend.sent ++ (.begin :: queries ++ [.commit])
    simp [begun]

theorem findAdds (e : Entity) (r : Read) (take : Value) :
    (c.find e r take : Action Executor (List Row)).Adds sentOf (Through c.handle) := by
  have sent : SentIn c (fun _ => False) (c.find e r take : Action Executor (List Row)) :=
    .liftBind fun condition _ => .bind (c.readRowsSent e condition _) fun rows => c.loadIncludesSent e r.includes rows
  exact sentThrough sent

theorem insideAdds (e : Entity) {r : Request} (writes : r.kind ≠ .read) :
    (c.inside e r : Action Executor Value).Adds sentOf (Through c.handle) :=
  sentThrough (c.insideSent e writes)

/-- Whatever is asked for in a transaction goes through its connection. -/
theorem performBound (bound : c.handle = .bound) (e : Entity) (r : Request) :
    (c.perform e r : Action Executor Value).Adds sentOf (Through .bound) := by
  have grouped : ∀ q : Grouping, (c.group q).Adds sentOf (Through c.handle) := fun q => (groupAdds q).widen fun _ held => held.1
  have write : r.kind ≠ .read → (c.perform e r : Action Executor Value).Adds sentOf (Through c.handle) := by
    intro writes s
    cases opening : r.opens with
    | true =>
      rw [performOpening c e opening]
      exact transactionBound bound (insideAdds e writes) s
    | false =>
      rw [performBare c e opening]
      exact insideAdds e writes s
  rw [← bound]
  cases r with
  | find mode r =>
    cases mode with
    | many => exact (findAdds e r _).thenNone fun _ => Step.pureAddsNone _
    | first =>
      refine (Step.liftAddsNone _).noneThen (fun backwards => ?_) throughNone
      exact (findAdds e r _).thenNone fun _ => Step.pureAddsNone _
    | unique => exact (findAdds e r _).thenNone fun _ => Step.pureAddsNone _
  | count filter =>
    refine Step.Adds.thenNone ?_ fun n => Step.pureAddsNone _
    exact (Step.liftAddsNone _).noneThen (fun condition => (countAdds _).widen fun _ held => held.1) throughNone
  | aggregate a =>
    refine Step.Adds.thenNone ?_ fun row => Step.pureAddsNone _
    refine (Step.liftAddsNone _).noneThen (fun condition => ?_) throughNone
    exact (grouped _).thenNone fun rows => Step.liftAddsNone _
  | group g =>
    refine Step.Adds.thenNone ?_ fun rows => Step.pureAddsNone _
    refine (Step.liftAddsNone _).noneThen (fun condition => ?_) throughNone
    refine (grouped _).thenNone fun rows => ?_
    rw [Step.mapLift]
    exact Step.liftAddsNone _
  | _ => exact write (by simp [Request.kind])

/-- A write that opens no transaction sends one statement, unless it inserts rows without columns one by one. -/
theorem performAlone (e : Entity) {r : Request} (writes : r.kind ≠ .read) (bare : r.opens = false) (whole : r.scatters = false) :
    (c.perform e r : Action Executor Value).Adds sentOf (AtMostOne c.handle) := by
  have few : AtMostOne c.handle [] := ⟨throughNone, Nat.zero_le 1⟩
  cases r with
  | find _ _ | count _ | aggregate _ | group _ => exact absurd rfl writes
  | create _ | update _ _ | upsert _ _ _ => cases bare
  | createMany rows =>
    refine Step.Adds.thenNone ?_ fun n => Step.pureAddsNone _
    unfold insertMany
    split
    · exact (Step.pureAddsNone _).widen fun _ silent => silent ▸ few
    · exact (onBackendAdds (Executor.insertWhole ⟨e.table, rows, []⟩ whole)).thenNone fun w => Step.pureAddsNone _
  | updateMany filter assignments =>
    refine Step.Adds.thenNone ((Step.liftAddsNone _).noneThen (fun condition => ?_) few) fun n => Step.pureAddsNone _
    split
    · exact countAdds _
    · exact (updateAdds _).thenNone fun w => Step.pureAddsNone _
  | delete selector =>
    refine Step.Adds.thenNone ((Step.liftAddsNone _).noneThen (fun condition => ?_) few) fun row => Step.pureAddsNone _
    refine (deleteAdds _).thenNone fun w => ?_
    split
    · exact Step.liftAddsNone _
    · refine (Step.liftAddsNone _).noneThen (fun field => ?_) rfl
      exact (Step.liftAddsNone _).noneThen (fun text => Step.liftAddsNone (.error _)) rfl
  | deleteMany filter =>
    refine Step.Adds.thenNone ((Step.liftAddsNone _).noneThen (fun condition => ?_) few) fun n => Step.pureAddsNone _
    exact (deleteAdds _).thenNone fun w => Step.pureAddsNone _

theorem performScattered (e : Entity) {r : Request} (scattered : r.scatters) (s : Session Executor) :
    ∃ first more, sentOf ((c.perform e r : Action Executor Value).runOn s).2 = sentOf s ++ first :: more ∧ first.isQuery ∧
      if s.backend.accepts then ∃ second rest, more = second :: rest ∧ second.isQuery else more = [] := by
  cases r with
  | createMany rows =>
    obtain ⟨first, more, same, told⟩ := Executor.insertScattered (h := c.handle) ⟨e.table, rows, []⟩ scattered s.backend
    refine ⟨first, more, ?_, told⟩
    cases rows with
    | nil => cases scattered
    | cons row rest =>
      change sentOf (((c.insert ⟨e.table, row :: rest, []⟩ >>= fun w => pure w.count) >>= fun n => pure (Value.number n)).runOn s).2 = _
      refine (Step.sentThenNone (fun _ => Step.pureAddsNone _) s).trans ?_
      exact (Step.sentThenNone (fun _ => Step.pureAddsNone _) s).trans same
  | _ => cases scattered

end Context

namespace Session

/-- What a run adds to what had been sent, and how it ends. -/
def Sends {α : Type} (s : Session Executor) (run : Action Executor α) (P : Except Failure α → List Sent → Prop) : Prop :=
  ∃ marks, (run.runOn s).2.backend.sent = s.backend.sent ++ marks ∧ P (run.runOn s).1 marks

end Session

namespace Client

open Context (sentOf)
open Executor (Through throughNone throughAppend)

variable {s : Session Executor} {o : Operation} {id : Nat}

theorem transactionInOne {α : Type} {c : Context} {work : Context → Action Executor α} (pooled : c.handle = .pooled)
    (adds : (work { c with handle := .bound }).Adds sentOf (Through .bound)) : s.Sends (c.transaction work) Sent.InOneTransaction := by
  obtain ⟨queries, same, held⟩ := Context.transactionPooled pooled adds s
  exact ⟨_, same, fun _ => ⟨queries, rfl, fun m mem => (held m mem).2⟩⟩

/-- What a write that is performed outside of a transaction sends. -/
theorem performInOne {c : Context} (pooled : c.handle = .pooled) (e : Entity) {r : Request} (writes : r.kind ≠ .read) :
    s.Sends (c.perform e r) fun result marks =>
      Sent.InOneTransaction result marks ↔ ¬ (r.scatters ∧ s.backend.accepts) := by
  cases opening : r.opens with
  | true =>
    have whole : r.scatters = false := by
      cases r <;> first | rfl | cases opening
    have opened : s.Sends (c.transaction fun c => c.inside e r) Sent.InOneTransaction :=
      transactionInOne pooled (Context.insideAdds e writes)
    obtain ⟨marks, same, inOne⟩ := opened
    unfold Session.Sends
    rw [Context.performOpening c e opening, whole]
    exact ⟨marks, same, by simp [inOne]⟩
  | false =>
    cases scattered : r.scatters with
    | false =>
      obtain ⟨marks, same, few⟩ := Context.performAlone e writes opening scattered s
      exact ⟨marks, same, by simp [Sent.fewInOne few.2]⟩
    | true =>
      obtain ⟨first, more, same, query, told⟩ := Context.performScattered (c := c) e scattered s
      refine ⟨first :: more, same, ?_⟩
      cases accepted : s.backend.accepts with
      | false =>
        obtain rfl : more = [] := by simpa [accepted] using told
        simp [Sent.fewInOne]
      | true =>
        obtain ⟨second, rest, rfl, again⟩ : ∃ second rest, more = second :: rest ∧ second.isQuery := by simpa [accepted] using told
        simp [Sent.queriesNotInOne query again]

theorem consumeAddsNone (id : Nat) : (Action.consume id : Action Executor Operation).Adds sentOf (· = []) :=
  (Step.addsNone fun _ => rfl).noneThen (fun _ => (Step.liftAddsNone _).noneThen (fun _ => Step.addsNone fun _ => rfl) rfl) rfl

/-- By induction on the operations: in a transaction they all go through its connection. -/
theorem executeAllBound {c : Context} (bound : c.handle = .bound) (ids : List Nat) :
    (Batch.executeAll c ids : Action Executor (List BatchResult)).Adds sentOf (Through .bound) := by
  induction ids with
  | nil => exact (Step.pureAddsNone _).widen Executor.throughSilent
  | cons id rest ih =>
    refine (Step.addsNone fun _ => rfl).noneThen (fun o => ?_) throughNone
    refine Step.Adds.bind (P := Through .bound) (Q := Through .bound) ?_ (fun result => ?_) (fun _ held => held) fun _ _ => throughAppend
    · exact (consumeAddsNone id).noneThen (fun o => Context.performBound bound o.entity o.request) throughNone
    · exact ih.thenNone fun _ => Step.pureAddsNone _

theorem operationsKeep (ids : List Nat) (s : Session Executor) : ((ids.mapM Action.operation).runOn s).2 = s := by
  induction ids with
  | nil => rfl
  | cons id rest ih =>
    rw [List.mapM_cons, Step.runBind]
    have kept : ((Action.operation id).runOn s).2 = s := rfl
    generalize (Action.operation id).runOn s = found at kept ⊢
    obtain ⟨result, t⟩ := found
    obtain rfl : t = s := kept
    cases result with
    | error f => rfl
    | ok o =>
      dsimp only
      rw [Step.runBind]
      generalize (rest.mapM Action.operation).runOn t = listed at ih ⊢
      obtain ⟨result, u⟩ := listed
      cases result <;> exact ih

theorem batchInOne (registry : Registry Fetcher) (ids : List Nat) :
    s.Sends (Batch.run ⟨registry, .pooled⟩ ids) Sent.InOneTransaction := by
  have work : s.Sends ((⟨registry, .pooled⟩ : Context).transaction fun c => Batch.executeAll c ids) Sent.InOneTransaction :=
    transactionInOne rfl (executeAllBound rfl ids)
  have stopped : ∀ f : Failure, Sent.InOneTransaction (.error f : Except Failure (List BatchResult)) [] :=
    fun _ => Sent.fewInOne (Nat.zero_le 1)
  have kept := operationsKeep ids s
  unfold Session.Sends Batch.run
  rw [Step.runBind]
  generalize (ids.mapM Action.operation).runOn s = listed at kept ⊢
  obtain ⟨result, t⟩ := listed
  obtain rfl : t = s := kept
  cases result with
  | error f => exact ⟨[], (List.append_nil _).symm, stopped f⟩
  | ok ops =>
    dsimp only
    cases checked : Batch.check 0 ops with
    | error f => exact ⟨[], (List.append_nil _).symm, stopped f⟩
    | ok _ =>
      rw [Step.thenRun (Step.runLift (.ok ()) t), Step.tryRun, Step.runBind]
      unfold Session.Sends at work
      generalize ((⟨registry, .pooled⟩ : Context).transaction fun c => Batch.executeAll c ids :
        Action Executor (List BatchResult)).runOn t = ended at work ⊢
      obtain ⟨result, u⟩ := ended
      cases result <;> exact work

/-- A write that starts outside of a transaction: if it takes more than one statement, all of them are sent in a single
transaction, which is committed only if the write succeeds. Several rows without columns are the exception: unless the
first of them is refused, they are inserted one by one, with no transaction around them. -/
theorem writesInOneTransaction (registry : Registry Fetcher) (held : s.operation? id = some o) (writes : o.request.kind ≠ .read)
    (outside : o.handle = .pooled) (ids : List Nat) :
    (s.Sends (Action.execute registry id none) fun result marks =>
      Sent.InOneTransaction result marks ↔ ¬ (o.consumed = false ∧ o.request.scatters ∧ s.backend.accepts)) ∧
    s.Sends (Batch.run ⟨registry, .pooled⟩ ids) Sent.InOneTransaction := by
  refine ⟨?_, batchInOne registry ids⟩
  have found : (Action.operation id).runOn s = (.ok o, s) := by
    unfold Action.operation Step.inspect
    rw [Step.runOn, Step.ofFunction]
    dsimp only
    rw [held]
  cases consumed : o.consumed with
  | true =>
    have refused : (Action.consume id).runOn s = (.error (.query (.alreadyExecuted o.request.label o.entity.name)), s) := by
      unfold Action.consume Operation.checkOpen
      rw [Step.thenRun found, if_pos consumed]
      rfl
    unfold Session.Sends Action.execute
    rw [Step.stopRun refused]
    exact ⟨[], (List.append_nil _).symm, by simp [Sent.fewInOne]⟩
  | false =>
    have taken : (Action.consume id).runOn s = (.ok o, s.setOperation id { o with consumed := true }) := by
      unfold Action.consume Operation.checkOpen
      rw [Step.thenRun found, if_neg (by simp [consumed])]
      rfl
    obtain ⟨marks, same, inOne⟩ := performInOne (s := s.setOperation id { o with consumed := true })
      (c := ⟨registry, o.handle⟩) outside o.entity writes
    unfold Session.Sends Action.execute
    rw [Step.thenRun taken]
    refine ⟨marks, same, inOne.trans ?_⟩
    change ¬(_ ∧ s.backend.accepts = true) ↔ _
    simp

/-- Two users are created of whom nothing is given. -/
def unnamedUsers : Session Executor :=
  ⟨⟨[], []⟩, [⟨Sample.user, .pooled, false, .createMany [[], []]⟩], [], []⟩

theorem writesInOneTransactionNot :
    let ended := (Action.execute Sample.registry 0 none).runOn unnamedUsers
    ended.2.backend.sent = List.replicate 2 (.query "INSERT INTO \"users\" DEFAULT VALUES" [] false) ∧
      ¬ Sent.InOneTransaction ended.1 ended.2.backend.sent := by
  intro ended
  have held : unnamedUsers.operation? 0 = some ⟨Sample.user, .pooled, false, .createMany [[], []]⟩ := rfl
  obtain ⟨⟨marks, same, inOne⟩, -⟩ := writesInOneTransaction Sample.registry held (by decide) rfl []
  obtain rfl : ended.2.backend.sent = marks := same
  exact ⟨rfl, fun one => inOne.mp one ⟨rfl, rfl, rfl⟩⟩

end Client

end EntityQuery
