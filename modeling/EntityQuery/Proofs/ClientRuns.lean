import EntityQuery.Client
import EntityQuery.Operation.Edit
import EntityQuery.Operation.Start
import EntityQuery.Proofs.Batches
import EntityQuery.Proofs.RuleKeeping
/-! Runs of a client on the in-memory store: operations are put together, added to and executed, alone, in batches and in
transactions. What every executed operation keeps, whatever comes of it, holds in every state that a run reaches. -/

namespace EntityQuery

/-- How a client is used: the values that its fields are set to, and what is known of the session that an executed
operation leaves. -/
structure Usage where
  client : Client Fetcher
  takes : Value → Prop
  leaves : Operation → Session Store → Prop

namespace Usage

variable {u : Usage} {e : Entity}

/-- Mutations as the entities of a client make them. -/
inductive Mutates (u : Usage) : Mutation → Prop
  | assign {e : Entity} {f : Field} {v : Value} {m : Mutation} (mem : e ∈ u.client.schema.entities)
    (own : e.field? f.name = some f) (taken : u.takes v) (made : e.assign f v = .ok m) : Mutates u m
  | change {e : Entity} {f : Field} {operation : Arithmetic} {v : Value} {m : Mutation}
    (mem : e ∈ u.client.schema.entities) (own : e.field? f.name = some f) (made : e.change f operation v = .ok m) : Mutates u m
  | relate {e : Entity} {r : Relation} (mem : e ∈ u.client.schema.entities) (own : r ∈ e.relations) (change : RelationChange) :
    Mutates u (.relation e.name r.name change)

inductive Starts (u : Usage) (e : Entity) : Request → Prop
  | read {r : Request} (reads : r.kind = .read) : Starts u e r
  | create {data : Row} {r : Request} (made : Request.createOf u.client.registry e data = .ok r) : Starts u e r
  | createRows {rows : List Row} {r : Request} (made : Request.createRows e rows = .ok r) : Starts u e r
  | update {selector : Predicate} {ms : List Mutation} {r : Request} (mutates : ∀ m ∈ ms, u.Mutates m)
    (made : Request.updateOf u.client.registry e selector ms = .ok r) : Starts u e r
  | updateMany {filter : List Predicate} {ms : List Mutation} {r : Request} (mutates : ∀ m ∈ ms, u.Mutates m)
    (made : Request.updateManyOf e filter ms = .ok r) : Starts u e r
  | upsert {selector : Predicate} {data : Row} {ms : List Mutation} {r : Request} (mutates : ∀ m ∈ ms, u.Mutates m)
    (made : Request.upsertOf u.client.registry e selector data ms = .ok r) : Starts u e r
  | delete {selector : Predicate} {r : Request} (made : Request.deleteOf u.client.registry e selector = .ok r) : Starts u e r
  | deleteMany (filter : List Predicate) : Starts u e (.deleteMany filter)

inductive Offers (u : Usage) : Edit → Prop
  | addFilter (ps : List Predicate) : Offers u (Edit.addFilter ps)
  | orderBy (field : Value) (direction : Direction) (nulls : Option NullPlacement) :
    Offers u (Edit.orderBy field direction nulls)
  | take (v : Value) : Offers u (Edit.take v)
  | skip (v : Value) : Offers u (Edit.skip v)
  | cursor (cursor : Option Predicate) : Offers u (Edit.cursor cursor)
  | distinct (fields : List Value) : Offers u (Edit.distinct fields)
  | addInclude (i : Include) : Offers u (Edit.addInclude i)
  | aggregates (function : Aggregation) (fields : List Value) : Offers u (Edit.aggregates function fields)
  | having (operator : Comparator) (v : Value) : Offers u (Edit.having operator v)
  | connect (relation : Value) (selector : Predicate) : Offers u (Edit.connect u.client.registry relation selector)
  | apply {ms : List Mutation} (mutates : ∀ m ∈ ms, u.Mutates m) : Offers u (Edit.apply ms)

/-- Operations as a client composes them. -/
inductive Composes (u : Usage) : Operation → Prop
  | started {e : Entity} {r : Request} (mem : e ∈ u.client.schema.entities) (h : Handle) (starts : u.Starts e r) :
    Composes u ⟨e, h, false, r⟩
  | edited {o : Operation} {change : Edit} (composed : Composes u o) (offers : u.Offers change) : Composes u (change.runOn o).2
  | consumed {o : Operation} (composed : Composes u o) : Composes u { o with consumed := true }

/-- Work of a client that is begun in a session. Failures may be caught and passed on. -/
inductive Runs (u : Usage) : {α : Type} → Action Store α → Session Store → Prop
  | inspect {α : Type} (f : Session Store → Except Failure α) (s : Session Store) : Runs u (Step.inspect f) s
  | tell (channel : Channel) (text : String) (s : Session Store) : Runs u (Action.tell channel text) s
  | hold {o : Operation} (composes : u.Composes o) (s : Session Store) : Runs u (Action.hold o) s
  | edit (id : Nat) {change : Edit} (offers : u.Offers change) (s : Session Store) : Runs u (Action.edit id change) s
  | execute (id : Nat) (h : Option Handle) {s : Session Store} (leaves : ∀ o, s.operation? id = some o →
      u.leaves o ((Action.execute u.client.registry id h).runOn s).2) : Runs u (Action.execute u.client.registry id h) s
  | bind {α β : Type} {step : Action Store α} {next : α → Action Store β} {s : Session Store} (first : Runs u step s)
    (later : ∀ a t, step.runOn s = (.ok a, t) → Runs u (next a) t) : Runs u (step >>= next) s
  | handle {α : Type} {step : Action Store α} {handler : Failure → Action Store α} {s : Session Store} (first : Runs u step s)
    (later : ∀ e t, step.runOn s = (.error e, t) → Runs u (handler e) t) : Runs u (tryCatch step handler) s
  | transaction {α : Type} (c : Context) {work : Context → Action Store α} {s : Session Store}
    (joined : s.backend.inTransaction → Runs u (work c) s)
    (opened : ∀ start, s.backend.opened = .ok start → Runs u (work { c with handle := .bound }) (s.withBackend start)) :
    Runs u (c.transaction work) s

/-- The states that work passes through between its operations, those inside its transactions too. -/
inductive Passes (u : Usage) : {α : Type} → Action Store α → Session Store → Session Store → Prop
  | ended {α : Type} {step : Action Store α} {s : Session Store} (runs : u.Runs step s) : Passes u step s (step.runOn s).2
  | first {α β : Type} {step : Action Store α} {next : α → Action Store β} {s t : Session Store} (passes : Passes u step s t) :
    Passes u (step >>= next) s t
  | later {α β : Type} {step : Action Store α} {next : α → Action Store β} {a : α} {s t w : Session Store}
    (runs : u.Runs step s) (ran : step.runOn s = (.ok a, w)) (passes : Passes u (next a) w t) : Passes u (step >>= next) s t
  | tried {α : Type} {step : Action Store α} {handler : Failure → Action Store α} {s t : Session Store}
    (passes : Passes u step s t) : Passes u (tryCatch step handler) s t
  | handled {α : Type} {step : Action Store α} {handler : Failure → Action Store α} {e : Failure} {s t w : Session Store}
    (runs : u.Runs step s) (ran : step.runOn s = (.error e, w)) (passes : Passes u (handler e) w t) :
    Passes u (tryCatch step handler) s t
  | joined {α : Type} (c : Context) {work : Context → Action Store α} {s t : Session Store} (joins : s.backend.inTransaction)
    (passes : Passes u (work c) s t) : Passes u (c.transaction work) s t
  | opened {α : Type} (c : Context) {work : Context → Action Store α} {start : Store} {s t : Session Store}
    (alone : s.backend.inTransaction = false) (begins : s.backend.opened = .ok start)
    (passes : Passes u (work { c with handle := .bound }) (s.withBackend start) t) : Passes u (c.transaction work) s t

/-- The states that the client reaches from a fresh store. -/
def Reaches (u : Usage) (s : Session Store) : Prop :=
  ∃ (α : Type) (work : Action Store α), u.Passes work (Session.start (Store.ofSchema u.client.schema)) s

section Checked

/-- What the client has checked of a request that it has put together. -/
def Checked (u : Usage) (e : Entity) : Request → Prop
  | .createMany rows => ∀ values ∈ rows, (∃ data, e.encodeRow data = .ok values) ∧ e.checkRequired values = .ok ()
  | .update selector ms | .upsert selector _ ms =>
    (∃ v, selector.askEntity = .ok v ∧ u.client.registry.means v e = .ok true) ∧ ∀ m ∈ ms, u.Mutates m
  | .updateMany _ assignments => ∀ a ∈ assignments, ∃ m, u.Mutates m ∧ Request.bulkAssignment e m = .ok a
  | .find .. | .count _ | .aggregate _ | .group _ | .create _ | .delete _ | .deleteMany _ => True

theorem checkedRead {r : Request} (reads : r.kind = .read) : u.Checked e r := by
  cases r with
  | find _ _ | count _ | aggregate _ | group _ => trivial
  | _ => cases reads

theorem selectorChecked {registry : Registry Fetcher} {selector : Predicate}
    (checked : e.checkSelector registry selector = .ok ()) : ∃ v, selector.askEntity = .ok v ∧ registry.means v e = .ok true := by
  obtain ⟨v, asked, checked⟩ := Results.bindOk checked
  obtain ⟨yes, means, checked⟩ := Results.bindOk checked
  split at checked
  · rename_i holds
    exact ⟨v, asked, holds ▸ means⟩
  · obtain ⟨_, -, refused⟩ := Results.bindOk checked
    cases refused

theorem startsChecked {r : Request} (starts : u.Starts e r) : u.Checked e r := by
  cases starts with
  | read reads => exact checkedRead reads
  | create made =>
    obtain ⟨creation, -, made⟩ := Results.bindOk made
    cases made
    trivial
  | createRows made =>
    obtain ⟨encoded, listed, made⟩ := Results.bindOk made
    cases made
    intro values mem
    obtain ⟨data, -, one⟩ := Results.mapAllItems listed values mem
    obtain ⟨written, encodes, one⟩ := Results.bindOk one
    obtain ⟨_, required, one⟩ := Results.bindOk one
    cases one
    exact ⟨⟨data, encodes⟩, required⟩
  | update mutates made =>
    obtain ⟨_, checked, made⟩ := Results.bindOk made
    cases made
    exact ⟨selectorChecked checked, mutates⟩
  | @updateMany filter ms r mutates made =>
    obtain ⟨assignments, folded, made⟩ := Results.bindOk made
    cases made
    refine Results.foldKeeps (P := fun done : List Assignment => ∀ a ∈ done, ∃ m, u.Mutates m ∧ Request.bulkAssignment e m = .ok a)
      ?_ folded (by simp)
    intro done m mem next held step
    obtain ⟨a, assigned, step⟩ := Results.bindOk step
    split at step
    · obtain ⟨_, -, refused⟩ := Results.bindOk step
      cases refused
    · cases step
      intro b inside
      rcases List.mem_append.mp inside with old | new
      · exact held b old
      · exact ⟨m, mutates m mem, List.mem_singleton.mp new ▸ assigned⟩
  | upsert mutates made =>
    obtain ⟨_, checked, made⟩ := Results.bindOk made
    obtain ⟨creation, -, made⟩ := Results.bindOk made
    cases made
    exact ⟨selectorChecked checked, mutates⟩
  | delete made =>
    obtain ⟨_, -, made⟩ := Results.bindOk made
    cases made
    trivial
  | deleteMany filter => trivial

end Checked

end Usage

namespace Edit

variable {α β : Type}

/-- An addition to an operation that keeps what is known of its entity and request, whatever comes of it. -/
def Keeps (P : Entity → Request → Prop) (change : Step Operation α) : Prop :=
  ∀ o, P o.entity o.request → P (change.runOn o).2.entity (change.runOn o).2.request

variable {P : Entity → Request → Prop}

theorem keepsBind {first : Step Operation α} {next : α → Step Operation β} (kept : Keeps P first)
    (later : ∀ a, Keeps P (next a)) : Keeps P (first >>= next) := by
  intro o held
  exact Step.bindLeaves (P := fun p : Operation => P p.entity p.request) (kept o held) fun a t _ => later a t

theorem keepsInspect (f : Operation → Except Failure α) : Keeps P (Step.inspect f) := fun _ held => held

theorem keepsOpen {f : Entity → Request → Except Failure Request}
    (kept : ∀ e r next, P e r → f e r = .ok next → P e next) : Keeps P (onOpen f) := by
  refine keepsBind (keepsInspect _) fun _ o held => ?_
  unfold request
  rw [Step.runOn, Step.ofFunction]
  split
  · rename_i next made
    exact kept o.entity o.request next held made
  · exact held

end Edit

namespace Usage

variable {u : Usage} {e : Entity} {schema : Schema}

section Offered

def Known (u : Usage) (e : Entity) (r : Request) : Prop := e ∈ u.client.schema.entities ∧ u.Checked e r

theorem openKnown {f : Entity → Request → Except Failure Request}
    (kept : ∀ e r next, u.Checked e r → f e r = .ok next → u.Checked e next) : Edit.Keeps u.Known (Edit.onOpen f) :=
  Edit.keepsOpen fun e r next known made => ⟨known.1, kept e r next known.2 made⟩

theorem readKnown {f : Entity → Request → Except Failure Request}
    (reads : ∀ e r next, f e r = .ok next → r.kind = .read ∧ next.kind = .read ∨ next = r) :
    Edit.Keeps u.Known (Edit.onOpen f) := by
  refine openKnown fun e r next checked made => ?_
  rcases reads e r next made with ⟨-, read⟩ | rfl
  · exact checkedRead read
  · exact checked

theorem onReadReads {f : Entity → Read → Except Failure Read} {e : Entity} {r next : Request}
    (made : Edit.onRead f e r = .ok next) : r.kind = .read ∧ next.kind = .read ∨ next = r := by
  unfold Edit.onRead at made
  split at made
  · obtain ⟨read, -, made⟩ := Results.bindOk made
    cases made
    exact .inl ⟨rfl, rfl⟩
  · cases made
    exact .inr rfl

theorem aggregateReads {a : FieldAggregate} {r : Request} :
    r.kind = .read ∧ (Edit.addAggregate a r).kind = .read ∨ Edit.addAggregate a r = r := by
  cases r with
  | aggregate _ | group _ => exact .inl ⟨rfl, rfl⟩
  | _ => exact .inr rfl

theorem offersKnown {change : Edit} (offers : u.Offers change) : Edit.Keeps u.Known change := by
  cases offers with
  | addFilter ps =>
    refine openKnown fun e r next checked made => ?_
    cases made
    cases r <;> exact checked
  | orderBy field direction nulls =>
    refine readKnown fun e r next made => ?_
    cases r with
    | find mode r | group g =>
      obtain ⟨_, -, made⟩ := Results.bindOk made
      cases made
      exact .inl ⟨rfl, rfl⟩
    | _ =>
      cases made
      exact .inr rfl
  | take v | skip v =>
    refine readKnown fun e r next made => ?_
    cases r with
    | find mode r =>
      cases made
      exact .inl ⟨rfl, rfl⟩
    | group g =>
      obtain ⟨_, -, made⟩ := Results.bindOk made
      cases made
      exact .inl ⟨rfl, rfl⟩
    | _ =>
      cases made
      exact .inr rfl
  | cursor _ | distinct _ | addInclude _ => exact readKnown fun _ _ _ made => onReadReads made
  | aggregates function fields =>
    induction fields with
    | nil => exact Edit.keepsInspect _
    | cons name rest ih =>
      refine Edit.keepsBind (readKnown fun e r next made => ?_) fun _ => ih
      obtain ⟨a, -, made⟩ := Results.bindOk made
      cases made
      exact aggregateReads
  | having operator v =>
    refine readKnown fun e r next made => ?_
    cases made
    cases r with
    | group g => exact .inl ⟨rfl, rfl⟩
    | _ => exact .inr rfl
  | connect relation selector =>
    refine Edit.keepsBind (Edit.keepsInspect _) fun found => openKnown fun e r next checked made => ?_
    cases made
    cases r <;> exact checked
  | @apply ms mutates =>
    refine openKnown fun e r next checked made => ?_
    cases made
    cases r with
    | update selector before =>
      refine ⟨checked.1, fun m mem => ?_⟩
      rcases List.mem_append.mp mem with old | new
      · exact checked.2 m old
      · exact mutates m new
    | _ => exact checked

theorem composesKnown {o : Operation} (composes : u.Composes o) : u.Known o.entity o.request := by
  induction composes with
  | started mem h starts => exact ⟨mem, startsChecked starts⟩
  | @edited o change composed offers ih => exact offersKnown offers o ih
  | consumed composed ih => exact ih

end Offered

section Permitted

variable {rule : CellRule u.client.schema}

def Carries (e : Entity) (m : Mutation) : Request → Prop
  | .update _ ms | .upsert _ _ ms => m ∈ ms
  | .updateMany _ assignments => ∃ a ∈ assignments, Request.bulkAssignment e m = .ok a
  | .find .. | .count _ | .aggregate _ | .group _ | .create _ | .createMany _ | .delete _ | .deleteMany _ => False

theorem mutatesAllows (sound : u.client.schema.Sound) (mem : e ∈ u.client.schema.entities) {m : Mutation}
    (mutates : u.Mutates m)
    (assigned : ∀ {f v w}, f ∈ e.fields → u.takes v → f.encodeNew v = .ok w → rule.cell e f w)
    (computed : ∀ {f operation operand}, m = .field e.name f.name (.arithmetic operation) operand → rule.computes e f) :
    CellRule.Serves.Allows rule e m := by
  cases mutates with
  | @assign other f v m among own taken made =>
    obtain ⟨w, written, made⟩ := Results.bindOk made
    cases made
    intro same g found
    obtain rfl := List.inj_on_of_nodup_map sound.names among mem same
    obtain rfl := Option.some.inj (own.symm.trans found)
    have inside := (Entity.fieldFound own).1
    exact ⟨f, inside, rfl, .inl ⟨rfl, assigned inside taken written⟩⟩
  | @change other f operation v m among own made =>
    obtain ⟨w, written, made⟩ := Results.bindOk made
    cases made
    intro same g found
    obtain rfl := List.inj_on_of_nodup_map sound.names among mem same
    obtain rfl := Option.some.inj (own.symm.trans found)
    exact ⟨f, (Entity.fieldFound own).1, rfl, .inr ⟨operation, v, rfl, computed rfl, written⟩⟩
  | relate among own change => trivial

theorem bulkAssigns {m : Mutation} {a : Assignment} (allows : CellRule.Serves.Allows rule e m)
    (made : Request.bulkAssignment e m = .ok a) : rule.Assigns e a := by
  obtain ⟨_, checked, made⟩ := Results.bindOk made
  cases m with
  | field entity name change operand => exact CellRule.Serves.allowedAssigns allows checked made
  | relation entity name change =>
    obtain ⟨_, -, made⟩ := Results.bindOk made
    obtain ⟨_, -, made⟩ := Results.bindOk made
    obtain ⟨_, -, refused⟩ := Results.bindOk made
    cases refused
  | foreign node => exact allows.elim

theorem checkedPermits {r : Request} (checked : u.Checked e r)
    (allows : ∀ m, u.Mutates m → Carries e m r → CellRule.Serves.Allows rule e m) :
    CellRule.Serves.Permits rule u.client.registry e r := by
  cases r with
  | createMany rows => exact checked
  | update selector ms => exact ⟨checked.1, fun m mem => allows m (checked.2 m mem) mem⟩
  | upsert selector creation ms => exact ⟨checked.1, fun m mem => allows m (checked.2 m mem) mem⟩
  | updateMany filter assignments =>
    intro a mem
    obtain ⟨m, mutates, made⟩ := checked a mem
    exact bulkAssigns (allows m mutates ⟨a, mem, made⟩) made
  | _ => trivial

/-- What executing a composed operation keeps of the columns, from the values that its mutations set and the fields that
they apply arithmetic to. -/
theorem executedHolds (serves : rule.Serves u.client.registry) {o : Operation} (composes : u.Composes o)
    (assigned : o.entity ∈ u.client.schema.entities → ∀ {f v w}, f ∈ o.entity.fields → u.takes v → f.encodeNew v = .ok w →
      rule.cell o.entity f w)
    (computed : ∀ {f operation operand}, Carries o.entity (.field o.entity.name f.name (.arithmetic operation) operand) o.request →
      rule.computes o.entity f)
    (h : Handle) {s : Session Store} (holds : rule.Holds s.backend) :
    rule.Holds ((Context.perform ⟨u.client.registry, h⟩ o.entity o.request).runOn s).2.backend := by
  obtain ⟨mem, checked⟩ := composesKnown composes
  have bound : rule.Serves (⟨u.client.registry, h⟩ : Context).registry := serves
  refine (bound.performKeeps mem (checkedPermits checked fun m mutates carried => ?_) s holds).1
  exact mutatesAllows serves.sound mem mutates (assigned mem) fun own => computed (own ▸ carried)

end Permitted

end Usage

namespace Action

variable {α β : Type}

/-- Execute an operation as soon as it is held. -/
def dispatch (registry : Registry Fetcher) (o : Operation) : Action Store Value := do
  let id ← hold o
  execute registry id none

def dispatchAll (registry : Registry Fetcher) : List Operation → Action Store Unit
  | [] => return ()
  | o :: rest => do
    let _ ← dispatch registry o
    dispatchAll registry rest

/-- A step that changes no operation that is held, whatever comes of it. -/
def Idles (step : Action Store α) : Prop := ∀ s, (step.runOn s).2.operations = s.operations

theorem idlesBind {step : Action Store α} {next : α → Action Store β} (first : Idles step) (later : ∀ a, Idles (next a)) :
    Idles (step >>= next) := by
  intro s
  exact Step.bindLeaves (P := fun t : Session Store => t.operations = s.operations) (first s)
    fun a t _ same => (later a t).trans same

theorem idlesLift (r : Except Failure α) : Idles (liftM r : Action Store α) := fun _ => rfl

end Action

theorem Writes.idles {may : WriteStatement → Prop} {α : Type} {step : Action Store α} (writes : Writes may step) :
    Action.Idles step := by
  induction writes with
  | pure | lift | tell | noteFetch | select | count | insert | update | delete => exact fun _ => rfl
  | bind first later before after => exact Action.idlesBind before after

namespace Context

open Action (Idles idlesBind idlesLift)

variable {α : Type} {c : Context}

theorem transactionIdles {work : Context → Action Store α} (idles : ∀ h, Idles (work { c with handle := h })) :
    Idles (c.transaction work) := by
  intro s
  obtain ⟨-, ran⟩ | ⟨e, ran⟩ | ⟨start, -, ran⟩ := transactionCases c work s
  · rw [ran]
    exact idles c.handle s
  · rw [ran]
  · have kept := idles .bound (s.withBackend start)
    rw [ran]
    cases during : (work { c with handle := .bound }).runOn (s.withBackend start) with
    | mk r t =>
      rw [during] at kept
      cases r <;> exact kept

theorem groupIdles (c : Context) (q : Grouping) : Idles (c.group q) := fun _ => rfl

theorem findIdles (c : Context) (e : Entity) (r : Read) (take : Value) : Idles (c.find e r take) :=
  Writes.idles (c.findWrites e r take : Writes (fun _ => True) (c.find e r take))

theorem readIdles (c : Context) (e : Entity) {r : Request} (reads : r.kind = .read) : Idles (c.perform e r) := by
  cases r with
  | find mode r =>
    cases mode with
    | many => exact idlesBind (findIdles c e r _) fun _ => idlesLift (.ok _)
    | first => exact idlesBind (idlesLift _) fun _ => idlesBind (findIdles c e r _) fun _ => idlesLift (.ok _)
    | unique => exact idlesBind (findIdles c e r _) fun _ => idlesLift (.ok _)
  | count filter =>
    refine idlesBind ?_ fun _ => idlesLift (.ok _)
    exact idlesBind (idlesLift _) fun _ => fun _ => rfl
  | aggregate a =>
    refine idlesBind ?_ fun _ => idlesLift (.ok _)
    unfold aggregate
    exact idlesBind (idlesLift _) fun _ => idlesBind (groupIdles c _) fun _ => idlesLift _
  | group g =>
    refine idlesBind ?_ fun _ => idlesLift (.ok _)
    unfold groups
    simp only [Step.mapLift]
    exact idlesBind (idlesLift _) fun _ => idlesBind (groupIdles c _) fun _ => idlesLift _
  | _ => cases reads

theorem performIdles (c : Context) (e : Entity) (r : Request) : Idles (c.perform e r) := by
  by_cases reads : r.kind = .read
  · exact readIdles c e reads
  · have within : ∀ h, Idles (Context.inside { c with handle := h } e r) := fun h t =>
      congrArg Marks.operations (insideMarks c.registry h e t reads)
    intro s
    cases opening : r.opens with
    | true =>
      rw [performOpening c e opening s]
      exact transactionIdles within s
    | false =>
      rw [performBare c e opening]
      exact within c.handle s

end Context

namespace Usage

variable {u : Usage} {α : Type}

/-- A session whose tables are as an invariant says, and whose operations the client has composed. -/
structure Within (u : Usage) (I : Store → Prop) (s : Session Store) : Prop where
  backend : I s.backend
  operations : ∀ o ∈ s.operations, u.Composes o

section Running

variable {I : Store → Prop}

/-- What the execution of each operation keeps, and a rollback too. It is about the tables and the sequences alone. -/
structure Keeps (u : Usage) (I : Store → Prop) : Prop where
  same : ∀ {s t}, I s → t.content = s.content → t.sequences = s.sequences → I t
  restores : ∀ {s t}, I s → I t → I (Store.restored s t)
  executes : ∀ {o : Operation} {h : Handle} {s : Session Store}, u.Composes o → I s.backend →
    u.leaves o ((Context.perform ⟨u.client.registry, h⟩ o.entity o.request).runOn s).2 →
      I ((Context.perform ⟨u.client.registry, h⟩ o.entity o.request).runOn s).2.backend

theorem heldComposes {s : Session Store} (within : u.Within I s) {id : Nat} {o : Operation} (held : s.operation? id = some o) :
    u.Composes o := within.operations o (List.mem_of_getElem? held)

theorem setWithin {s : Session Store} (within : u.Within I s) (id : Nat) {o : Operation} (composes : u.Composes o) :
    u.Within I (s.setOperation id o) := by
  refine ⟨within.backend, fun p mem => ?_⟩
  rcases List.mem_or_eq_of_mem_set mem with old | rfl
  · exact within.operations p old
  · exact composes

theorem missingRun {s : Session Store} {id : Nat} (missing : s.operation? id = none) :
    (Action.operation id).runOn s = (.error (.contract (.unrecognized "operation" (Number.intText id))), s) := by
  unfold Action.operation Step.inspect
  rw [Step.runOn, Step.ofFunction]
  dsimp only
  rw [missing]

theorem editWithin {s : Session Store} (within : u.Within I s) (id : Nat) {change : Edit} (offers : u.Offers change) :
    u.Within I ((Action.edit id change).runOn s).2 := by
  unfold Action.edit
  cases held : s.operation? id with
  | none =>
    rw [Step.stopRun (missingRun held)]
    exact within
  | some o =>
    rw [Step.thenRun (Batch.operationRun held)]
    exact setWithin within id (.edited (heldComposes within held) offers)

theorem executeWithin (keeps : u.Keeps I) {s : Session Store} (within : u.Within I s) {id : Nat} {h : Option Handle}
    (leaves : ∀ o, s.operation? id = some o → u.leaves o ((Action.execute u.client.registry id h).runOn s).2) :
    u.Within I ((Action.execute u.client.registry id h).runOn s).2 := by
  cases held : s.operation? id with
  | none =>
    unfold Action.execute Action.consume
    rw [Step.stopRun (Step.stopRun (missingRun held))]
    exact within
  | some o =>
    have composes := heldComposes within held
    cases used : o.consumed with
    -- an operation that was executed before is refused, and nothing changes
    | true =>
      have refused : o.checkOpen = .error (.query (.alreadyExecuted o.request.label o.entity.name)) := if_pos used
      unfold Action.execute Action.consume
      have stopped : (do
          o.checkOpen
          Step.ofFunction fun s => (.ok o, s.setOperation id { o with consumed := true }) : Action Store Operation).runOn s =
            (.error (.query (.alreadyExecuted o.request.label o.entity.name)), s) := by
        rw [refused]
        rfl
      rw [Step.stopRun ((Step.thenRun (Batch.operationRun held)).trans stopped)]
      exact within
    | false =>
      have left := leaves o held
      rw [Batch.executeRun held used] at left ⊢
      have begun : u.Within I (Batch.used s id o) := setWithin within id (.consumed composes)
      refine ⟨keeps.executes composes begun.backend left, ?_⟩
      rw [Context.performIdles]
      exact begun.operations

theorem openedWithin (keeps : u.Keeps I) {s : Session Store} {start : Store} (within : u.Within I s)
    (begins : Backend.opened s.backend = .ok start) : u.Within I (s.withBackend start) := by
  rw [Context.openedTables begins]
  exact ⟨keeps.same within.backend rfl rfl, within.operations⟩

theorem runsWithin (keeps : u.Keeps I) {step : Action Store α} {s : Session Store} (runs : u.Runs step s)
    (within : u.Within I s) : u.Within I (step.runOn s).2 := by
  induction runs with
  | inspect f s => exact within
  | tell channel text s => exact ⟨within.backend, within.operations⟩
  | hold composes s =>
    refine ⟨within.backend, fun o mem => ?_⟩
    rcases List.mem_append.mp mem with old | new
    · exact within.operations o old
    · exact List.mem_singleton.mp new ▸ composes
  | edit id offers s => exact editWithin within id offers
  | execute id h leaves => exact executeWithin keeps within leaves
  | @bind α β step next s first later before after => exact Step.bindLeaves (before within) after
  | @handle α step handler s first later before after =>
    have begun := before within
    rw [Step.runCatch]
    split
    · rename_i a t ran
      rw [ran] at begun
      exact begun
    · rename_i e t ran
      rw [ran] at begun
      exact after e t ran begun
  | @transaction α c work s joined opened inside during =>
    obtain ⟨joins, ran⟩ | ⟨e, ran⟩ | ⟨start, begins, ran⟩ := Context.transactionCases c work s
    · rw [ran]
      exact inside joins within
    · rw [ran]
      exact within
    · have ended := during start begins (openedWithin keeps within begins)
      rw [ran]
      cases worked : (work { c with handle := .bound }).runOn (s.withBackend start) with
      | mk r t =>
        rw [worked] at ended
        cases r with
        | ok a => exact ⟨keeps.same ended.backend rfl rfl, ended.operations⟩
        -- tables come back as they were when the transaction began, but operations stay as the work left them
        | error e => exact ⟨keeps.restores within.backend ended.backend, ended.operations⟩

theorem passesWithin (keeps : u.Keeps I) {step : Action Store α} {s t : Session Store} (passes : u.Passes step s t)
    (within : u.Within I s) : u.Within I t := by
  induction passes with
  | ended runs => exact runsWithin keeps runs within
  | first passes ih | tried passes ih => exact ih within
  | later runs ran passes ih | handled runs ran passes ih =>
    have begun := runsWithin keeps runs within
    rw [ran] at begun
    exact ih begun
  | joined c joins passes ih => exact ih within
  | opened c alone begins passes ih => exact ih (openedWithin keeps within begins)

theorem reachesKept (keeps : u.Keeps I) (fresh : I (Store.ofSchema u.client.schema)) {s : Session Store}
    (reaches : u.Reaches s) : I s.backend := by
  obtain ⟨α, work, passes⟩ := reaches
  have begins : u.Within I (Session.start (Store.ofSchema u.client.schema)) := ⟨fresh, by simp [Session.start]⟩
  exact (passesWithin keeps passes begins).backend

end Running

section Dispatched

variable {s : Session Store} {o : Operation}

theorem holdRun (o : Operation) (s : Session Store) :
    (Action.hold o).runOn s = (.ok s.operations.length, { s with operations := s.operations ++ [o] }) := rfl

theorem runsDispatch (composes : u.Composes o) (leaves : u.leaves o ((Action.dispatch u.client.registry o).runOn s).2) :
    u.Runs (Action.dispatch u.client.registry o) s := by
  refine .bind (.hold composes s) fun id t ran => .execute id none fun p held => ?_
  obtain ⟨same, rfl⟩ := Prod.mk.inj ((holdRun o s).symm.trans ran)
  obtain rfl := Except.ok.inj same
  obtain rfl : o = p := by
    unfold Session.operation? at held
    rw [List.getElem?_concat_length] at held
    exact Option.some.inj held
  unfold Action.dispatch at leaves
  rwa [Step.thenRun ran] at leaves

/-- What is known of the session after each of some operations that are executed in turn. -/
def LeavesAll (u : Usage) : List Operation → Session Store → Prop
  | [], _ => True
  | o :: rest, s =>
    let t := ((Action.dispatch u.client.registry o).runOn s).2
    u.leaves o t ∧ u.LeavesAll rest t

theorem runsAll {os : List Operation} (composes : ∀ o ∈ os, u.Composes o) (leaves : u.LeavesAll os s) :
    u.Runs (Action.dispatchAll u.client.registry os) s := by
  induction os generalizing s with
  | nil => exact .inspect (fun _ => .ok ()) s
  | cons o rest ih =>
    obtain ⟨here, later⟩ := List.forall_mem_cons.mp composes
    refine .bind (runsDispatch here leaves.1) fun v t ran => ih later ?_
    have rests := leaves.2
    rwa [ran] at rests

theorem reachesAll {os : List Operation} (composes : ∀ o ∈ os, u.Composes o)
    (leaves : u.LeavesAll os (.start (Store.ofSchema u.client.schema))) :
    u.Reaches ((Action.dispatchAll u.client.registry os).runOn (.start (Store.ofSchema u.client.schema))).2 :=
  ⟨Unit, _, .ended (runsAll composes leaves)⟩

theorem composesCreate {e : Entity} {c : Creation} (mem : e ∈ u.client.schema.entities) (data : Row)
    (created : Request.createOf u.client.registry e data = .ok (.create c)) : u.Composes ⟨e, .pooled, false, .create c⟩ :=
  .started mem .pooled (.create created)

end Dispatched

section Batches

variable {c : Context} {s : Session Store}

theorem runsLift (r : Except Failure α) (s : Session Store) : u.Runs (liftM r : Action Store α) s := .inspect (fun _ => r) s

theorem runsOperation (id : Nat) (s : Session Store) : u.Runs (Action.operation id) s := .inspect _ s

theorem runsOperations (ids : List Nat) (s : Session Store) : u.Runs (ids.mapM Action.operation : Action Store _) s := by
  induction ids generalizing s with
  | nil => exact runsLift (.ok []) s
  | cons id rest ih =>
    rw [List.mapM_cons]
    exact .bind (runsOperation id s) fun o t _ => .bind (ih t) fun os w _ => runsLift (.ok (o :: os)) w

variable (free : ∀ o t, u.leaves o t)

include free

theorem runsEach (same : c.registry = u.client.registry) (ids : List Nat) (s : Session Store) :
    u.Runs (Batch.executeAll c ids) s := by
  induction ids generalizing s with
  | nil => exact runsLift (.ok []) s
  | cons id rest ih =>
    unfold Batch.executeAll
    refine .bind (runsOperation id s) fun o t _ => .bind ?_ fun v w _ => .bind (ih w) fun vs x _ => runsLift (.ok _) x
    rw [same]
    exact .execute id (some c.handle) fun o _ => free o _

/-- A batch is work of a client. -/
theorem runsBatch (same : c.registry = u.client.registry) (ids : List Nat) (s : Session Store) : u.Runs (Batch.run c ids) s := by
  unfold Batch.run
  refine .bind (runsOperations ids s) fun os t _ => .bind (runsLift _ t) fun _ w _ => ?_
  refine .bind (.handle (.bind ?_ fun results x _ => ?_) fun e x _ => ?_) fun r x _ => ?_
  · refine .transaction c (fun _ => runsEach free same ids w) fun start _ => ?_
    exact runsEach free (c := { c with handle := .bound }) same ids _
  · exact .bind (.tell _ _ x) fun _ y _ => runsLift (.ok _) y
  · exact .bind (.tell _ _ x) fun _ y _ => .bind (runsLift (.error e) y) fun r z _ => runsLift _ z
  · cases r with
    | error results => exact runsLift (.ok results) x
    | ok results => exact runsLift (.ok results) x

end Batches

end Usage

namespace Sample

theorem countersApart : counterClient.schema.NamesApart := ⟨by decide, by simp [counterClient, counter, idField, countField]⟩

/-- A counter is created, and then all of them are raised. -/
theorem countersRaised {u : Usage} (own : u.client = counterClient) (count step : Int)
    (created : Request.createOf counterClient.registry counter [("count", .int count)] =
      .ok (counting [("count", .int count)]).request)
    (changed : counter.change countField .increment (.int step) =
      .ok (.field "Counter" "count" (.arithmetic .increment) (.int step)))
    (assigned : Request.updateManyOf counter [] [.field "Counter" "count" (.arithmetic .increment) (.int step)] =
      .ok (raising step).request) : ∀ o ∈ [counting [("count", .int count)], raising step], u.Composes o := by
  rw [← own] at created
  have mem : counter ∈ u.client.schema.entities := own ▸ List.mem_singleton_self counter
  refine List.forall_mem_cons.mpr ⟨Usage.composesCreate mem _ created, List.forall_mem_singleton.mpr ?_⟩
  exact .started mem .pooled (.updateMany (List.forall_mem_singleton.mpr (.change mem rfl changed)) assigned)

end Sample

end EntityQuery
