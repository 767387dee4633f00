import EntityQuery.Connection.Layer
import EntityQuery.Proofs.Steps
/-! Clients that a pool lends. What a layer does with them is described by the events that the server meets meanwhile, and
by the clients that are lent afterwards: one more, the same ones, or all but the one that is given up. -/

namespace EntityQuery.Connection

namespace Server

variable (s : Server)

theorem answerMarks (client : Nat) (text : String) (params : Option Value) :
    (s.answer client text params).2.clients = s.clients ∧
      (s.answer client text params).2.events = s.events ++ [.asked client text params] := by
  unfold answer
  dsimp only
  split
  · exact ⟨rfl, rfl⟩
  · split <;> exact ⟨rfl, rfl⟩

theorem connectMarks : s.connect.2.clients = s.clients + 1 ∧
    (s.connect.1 = .ok (s.clients + 1) ∧ s.connect.2.events = s.events ++ [.opened (s.clients + 1)] ∨
      (∃ e, s.connect.1 = .error e) ∧ s.connect.2.events = s.events ++ [.refused (s.clients + 1)]) := by
  unfold connect
  dsimp only
  split
  · exact ⟨rfl, .inr ⟨⟨_, rfl⟩, rfl⟩⟩
  · exact ⟨rfl, .inl ⟨rfl, rfl⟩⟩

end Server

/-- A limit that counts can be compared with. -/
def Limits (allowance : Option Value) : Prop := ∀ limit, allowance = some limit → ∃ n, limit.toNumber = .ok n

namespace Pool

/-- Is a client in use? -/
def Lends (p : Pool) (client : Nat) : Prop := client ∈ p.clients ∧ client ∉ p.idle

/-- A pool whose idle clients are clients of it, each idle once. -/
structure Sound (p : Pool) (made : Nat) : Prop where
  known : ∀ client ∈ p.idle, client ∈ p.clients
  once : p.idle.Nodup
  numbered : ∀ client ∈ p.clients, client ≤ made
  limited : Limits p.allowance

theorem Sound.more {p : Pool} {made later : Nat} (sound : p.Sound made) (le : made ≤ later) : p.Sound later :=
  ⟨sound.known, sound.once, fun client mem => Nat.le_trans (sound.numbered client mem) le, sound.limited⟩

end Pool

namespace Layer

variable {α β : Type} {l t u v : Layer} {p : Pool} {client : Nat} {marks more : List Event} {e : Failure}

def Lends (l : Layer) (client : Nat) : Prop := ∃ p, l.pool = some p ∧ p.Lends client

theorem lendsOf (has : l.pool = some p) : l.Lends client ↔ p.Lends client := by
  constructor
  · rintro ⟨q, same, lends⟩
    cases has.symm.trans same
    exact lends
  · exact fun lends => ⟨p, has, lends⟩

/-- A layer with a pool. -/
def Open (l : Layer) : Prop := ∃ p, l.pool = some p ∧ p.Sound l.server.clients

/-- An open layer stays open; `marks` is what the server meets meanwhile. -/
structure Use (l t : Layer) (marks : List Event) : Prop where
  stays : t.Open
  settings : t.settings = l.settings
  connected : t.connected = l.connected
  events : t.server.events = l.server.events ++ marks

/-- A client comes into use. -/
structure Takes (l t : Layer) (client : Nat) (marks : List Event) : Prop extends Use l t marks where
  fresh : ¬ l.Lends client
  lends : ∀ c, t.Lends c ↔ c = client ∨ l.Lends c
  quiet : ∀ c, .released c ∉ marks

/-- The clients that are lent stay with those who have them; there may be more. -/
structure Spares (l t : Layer) (marks : List Event) : Prop extends Use l t marks where
  kept : ∀ c, l.Lends c → t.Lends c
  spared : ∀ c, l.Lends c → .released c ∉ marks

/-- No more clients are lent than before. -/
structure Returns (l t : Layer) (marks : List Event) : Prop extends Spares l t marks where
  back : ∀ c, t.Lends c → l.Lends c

/-- A client is given up. -/
structure Drops (l t : Layer) (client : Nat) (marks : List Event) : Prop extends Use l t marks where
  lends : ∀ c, t.Lends c ↔ c ≠ client ∧ l.Lends c
  others : ∀ c, c ≠ client → .released c ∉ marks

theorem Use.trans (first : Use l t marks) (later : Use t u more) : Use l u (marks ++ more) where
  stays := later.stays
  settings := later.settings.trans first.settings
  connected := later.connected.trans first.connected
  events := by rw [later.events, first.events, List.append_assoc]

theorem Spares.trans (first : Spares l t marks) (later : Spares t u more) : Spares l u (marks ++ more) where
  toUse := first.toUse.trans later.toUse
  kept c lent := later.kept c (first.kept c lent)
  spared c lent := List.not_mem_append (first.spared c lent) (later.spared c (first.kept c lent))

theorem Returns.trans (first : Returns l t marks) (later : Returns t u more) : Returns l u (marks ++ more) where
  toSpares := first.toSpares.trans later.toSpares
  back c lent := first.back c (later.back c lent)

/-- Of a client that was taken for some work and is given up after it, nobody else notices anything. -/
theorem Takes.spares {taken dropped : List Event} (took : Takes l t client taken) (work : Spares t u marks)
    (drop : Drops u v client dropped) : Spares l v (taken ++ marks ++ dropped) where
  toUse := (took.toUse.trans work.toUse).trans drop.toUse
  kept c lent := (drop.lends c).mpr ⟨fun same => took.fresh (same ▸ lent), work.kept c ((took.lends c).mpr (.inr lent))⟩
  spared c lent := by
    have other : c ≠ client := fun same => took.fresh (same ▸ lent)
    have before : .released c ∉ taken ++ marks :=
      List.not_mem_append (took.quiet c) (work.spared c ((took.lends c).mpr (.inr lent)))
    exact List.not_mem_append before (drop.others c other)

theorem Takes.returns {taken dropped : List Event} (took : Takes l t client taken) (work : Returns t u marks)
    (drop : Drops u v client dropped) : Returns l v (taken ++ marks ++ dropped) where
  toSpares := took.spares work.toSpares drop
  back c lent := by
    obtain ⟨other, lent⟩ := (drop.lends c).mp lent
    exact ((took.lends c).mp (work.back c lent)).resolve_left other

theorem returnsServer (ready : l.Open) {server : Server} {notes : List (Channel × Note)}
    (grows : l.server.clients ≤ server.clients) (events : server.events = l.server.events ++ marks)
    (quiet : ∀ c, .released c ∉ marks) : Returns l { l with server, notes } marks := by
  have ⟨p, has, sound⟩ := ready
  exact ⟨⟨⟨⟨p, has, sound.more grows⟩, rfl, rfl, events⟩, fun _ => id, fun c _ => quiet c⟩, fun _ => id⟩

theorem returnsNoted (ready : l.Open) (notes : List (Channel × Note)) : Returns l { l with notes } [] :=
  returnsServer ready (Nat.le_refl _) (List.append_nil _).symm nofun

theorem requireRun (has : l.pool = some p) : requirePool.runOn l = (.ok p, l) := by
  unfold requirePool Step.inspect Step.ofFunction Step.runOn
  dsimp only
  rw [has]

theorem addClientOk (got : (addClient p).runOn l = (.ok client, t)) :
    l.server.connect.1 = .ok client ∧ t.pool = some { p with clients := p.clients ++ [client] } ∧
      t.settings = l.settings ∧ t.connected = l.connected ∧ t.server = l.server.connect.2 := by
  unfold addClient at got
  obtain ⟨full, -, got⟩ := Step.liftOk got
  cases full with
  | true => cases got
  | false =>
    obtain ⟨made, met, first, got⟩ := Step.bindOk got
    have ran : (onServer Server.connect).runOn l = (l.server.connect.1, { l with server := l.server.connect.2 }) := rfl
    rw [ran] at first
    obtain ⟨opened, rfl⟩ := Prod.mk.inj first
    obtain ⟨_, _, stored, got⟩ := Step.bindOk got
    cases stored
    cases watched : p.watched <;> rw [watched] at got <;> cases got <;> exact ⟨opened, rfl, rfl, rfl, rfl⟩

theorem addClientError (failed : (addClient p).runOn l = (.error e, t)) :
    t = l ∨ (∃ f, l.server.connect.1 = .error f) ∧ t = { l with server := l.server.connect.2 } := by
  unfold addClient at failed
  obtain ⟨-, rfl⟩ | ⟨full, -, failed⟩ := Step.liftError failed
  · exact .inl rfl
  cases full with
  | true =>
    cases failed
    exact .inl rfl
  | false =>
    have ran : (onServer Server.connect).runOn l = (l.server.connect.1, { l with server := l.server.connect.2 }) := rfl
    obtain refused | ⟨made, met, first, failed⟩ := Step.bindError failed
    · rw [ran] at refused
      obtain ⟨away, rfl⟩ := Prod.mk.inj refused
      exact .inr ⟨⟨_, away⟩, rfl⟩
    · obtain stored | ⟨_, _, -, failed⟩ := Step.bindError failed
      · cases stored
      · cases watched : p.watched <;> rw [watched] at failed <;> cases failed

/-- A client that a pool gives was not in use: it lay idle, or it is made now. -/
theorem acquireOk (ready : l.Open) (got : acquire.runOn l = (.ok client, t)) : ∃ marks, Takes l t client marks ∧
    (marks = [.opened client] ∨ marks = [] ∧ ∃ p, l.pool = some p ∧ client ∈ p.idle) := by
  obtain ⟨p, has, sound⟩ := ready
  unfold acquire at got
  rw [Step.thenRun (requireRun has)] at got
  cases idle : p.idle with
  | cons first rest =>
    rw [idle] at got
    cases got
    have once := sound.once
    rw [idle, List.nodup_cons] at once
    have known : ∀ c ∈ rest, c ∈ p.clients := fun c mem => sound.known c (idle ▸ List.mem_cons_of_mem _ mem)
    have lying : client ∈ p.idle := idle ▸ List.mem_cons_self
    have ours : client ∈ p.clients := sound.known client lying
    refine ⟨[], ⟨⟨⟨_, rfl, known, once.2, sound.numbered, sound.limited⟩, rfl, rfl, (List.append_nil _).symm⟩,
      fun lends => ((lendsOf has).mp lends).2 lying, fun c => ?_, nofun⟩, .inr ⟨rfl, p, has, lying⟩⟩
    rw [lendsOf rfl, lendsOf has]
    unfold Pool.Lends
    rw [idle]
    by_cases same : c = client <;> simp_all
  | nil =>
    rw [idle] at got
    obtain ⟨connected, pool, settings, stays, server⟩ := addClientOk got
    obtain ⟨counted, ⟨made, events⟩ | ⟨⟨f, refused⟩, -⟩⟩ := l.server.connectMarks
    · cases connected.symm.trans made
      -- clients are numbered as they are made, so that no client of the pool has the next number
      have fresh : l.server.clients + 1 ∉ p.clients := fun mem => absurd (sound.numbered _ mem) (by omega)
      refine ⟨_, ⟨⟨⟨_, pool, ?_⟩, settings, stays, by rw [server, events]⟩, fun lends => fresh ((lendsOf has).mp lends).1,
        fun c => ?_, by simp⟩, .inl rfl⟩
      · have known : ∀ c ∈ p.idle, c ∈ p.clients ++ [l.server.clients + 1] := by simp [idle]
        have numbered : ∀ c ∈ p.clients ++ [l.server.clients + 1], c ≤ t.server.clients := by
          rw [server, counted]
          simp only [List.mem_append, List.mem_singleton]
          rintro c (mem | rfl)
          · exact Nat.le_succ_of_le (sound.numbered c mem)
          · exact Nat.le_refl _
        exact ⟨known, sound.once, numbered, sound.limited⟩
      · rw [lendsOf pool, lendsOf has]
        simp [Pool.Lends, idle, or_comm]
    · cases connected.symm.trans refused

theorem acquireError (ready : l.Open) (failed : acquire.runOn l = (.error e, t)) :
    ∃ marks, Returns l t marks ∧ (marks = [] ∨ ∃ c, marks = [.refused c]) := by
  have ⟨p, has, sound⟩ := ready
  unfold acquire at failed
  rw [Step.thenRun (requireRun has)] at failed
  cases idle : p.idle with
  | cons first rest =>
    rw [idle] at failed
    cases failed
  | nil =>
    rw [idle] at failed
    obtain rfl | ⟨⟨f, refused⟩, rfl⟩ := addClientError failed
    · exact ⟨[], returnsNoted ready _, .inl rfl⟩
    · obtain ⟨counted, ⟨made, -⟩ | ⟨-, events⟩⟩ := l.server.connectMarks
      · cases made.symm.trans refused
      · exact ⟨_, returnsServer ready (by omega) events (by simp), .inr ⟨_, rfl⟩⟩

theorem askReturns (ready : l.Open) (client : Nat) (text : String) (params : Option Value) :
    Returns l ((ask client text params).runOn l).2 [.asked client text params] := by
  obtain ⟨counted, events⟩ := l.server.answerMarks client text params
  exact returnsServer ready (Nat.le_of_eq counted.symm) events (by simp)

/-- A client that is closed is lent no more. -/
theorem closeRun (ready : l.Open) (client : Nat) : ∃ t, (close client).runOn l = (.ok (), t) ∧
    Drops l t client [.closed client] := by
  obtain ⟨p, has, sound⟩ := ready
  let left : Pool := { p with clients := p.clients.filter (· != client), idle := p.idle.filter (· != client) }
  refine ⟨{ l with server := l.server.note (.closed client), pool := some left }, ?_, ?_, fun c => ?_, by simp⟩
  · unfold close Step.ofFunction Step.runOn
    dsimp only
    rw [has]
    rfl
  · have known : ∀ c ∈ left.idle, c ∈ left.clients := fun c mem => by
      obtain ⟨mem, other⟩ := List.mem_filter.mp mem
      exact List.mem_filter.mpr ⟨sound.known c mem, other⟩
    have numbered : ∀ c ∈ left.clients, c ≤ l.server.clients := fun c mem => sound.numbered c (List.mem_filter.mp mem).1
    exact ⟨⟨left, rfl, known, sound.once.filter _, numbered, sound.limited⟩, rfl, rfl, rfl⟩
  · rw [lendsOf rfl, lendsOf has]
    by_cases same : c = client <;> simp [Pool.Lends, left, same]

theorem reachesCounted {limit : Value} {n : Number} (number : limit.toNumber = .ok n) (count : Nat) :
    ∃ reached, reaches count limit = .ok reached := by
  unfold reaches
  rw [number]
  exact ⟨_, rfl⟩

/-- A client that is handed back is released once, and closed if it has been used often enough. -/
theorem releaseRun (ready : l.Open) (lent : l.Lends client) : ∃ t closing, (release client).runOn l = (.ok (), t) ∧
    Drops l t client (.released client :: closing) ∧ (closing = [] ∨ closing = [.closed client]) := by
  obtain ⟨p, has, sound⟩ := ready
  obtain ⟨ours, used⟩ := (lendsOf has).mp lent
  let noted : Pool := { p with releases := client :: p.releases }
  let handed : Layer := { l with server := l.server.note (.released client), pool := some noted }
  have back : (noteRelease client).runOn l = (.ok (), handed) := by
    unfold noteRelease Step.ofFunction Step.runOn
    dsimp only
    rw [has]
    rfl
  have use : Use l handed [.released client] := ⟨⟨noted, rfl, sound.known, sound.once, sound.numbered, sound.limited⟩, rfl, rfl, rfl⟩
  have same : ∀ c, handed.Lends c ↔ l.Lends c := fun c => by rw [lendsOf rfl, lendsOf has]; rfl
  have spent : ∃ often, isSpent noted client = .ok often := by
    unfold isSpent
    cases limited : p.allowance with
    | none => exact ⟨false, rfl⟩
    | some limit =>
      obtain ⟨n, number⟩ := sound.limited limit limited
      exact reachesCounted number _
  obtain ⟨often, spent⟩ := spent
  unfold release
  rw [Step.thenRun back, Step.thenRun (requireRun rfl), spent]
  cases often with
  | true =>
    obtain ⟨t, closed, drops⟩ := closeRun use.stays client
    exact ⟨t, _, closed, ⟨use.trans drops.toUse, fun c => (drops.lends c).trans (and_congr_right fun _ => same c),
      fun c other => by simp [other]⟩, .inr rfl⟩
  | false =>
    refine ⟨_, [], rfl, ⟨⟨⟨_, rfl, ?_, ?_, sound.numbered, sound.limited⟩, rfl, rfl, rfl⟩, fun c => ?_,
      fun c other => by simp [other]⟩, .inl rfl⟩
    · rintro c (_ | ⟨_, mem⟩)
      · exact ours
      · exact sound.known c mem
    · exact List.nodup_cons.mpr ⟨used, sound.once⟩
    · rw [lendsOf rfl, lendsOf has]
      simp [Pool.Lends, noted, and_left_comm]

/-- A step after which everybody has the clients that they had before it. -/
def Fair (step : Step Layer α) : Prop := ∀ l, l.Open → ∃ marks, Spares l (step.runOn l).2 marks

/-- A fair step that hands back the clients that it takes. -/
def Tidy (step : Step Layer α) : Prop := ∀ l, l.Open → ∃ marks, Returns l (step.runOn l).2 marks

theorem Tidy.fair {step : Step Layer α} (tidy : Tidy step) : Fair step := fun l ready =>
  let ⟨marks, returns⟩ := tidy l ready
  ⟨marks, returns.toSpares⟩

theorem tidyLift (r : Except Failure α) : Tidy (liftM r : Step Layer α) := fun _ ready =>
  ⟨[], returnsNoted ready _⟩

theorem tidyTell (channel : Channel) (n : Note) : Tidy (tell channel n) := fun _ ready =>
  ⟨[], returnsNoted ready _⟩

theorem tidyAsk (client : Nat) (text : String) (params : Option Value) : Tidy (ask client text params) := fun _ ready =>
  ⟨_, askReturns ready client text params⟩

theorem Tidy.bind {step : Step Layer α} {next : α → Step Layer β} (first : Tidy step) (later : ∀ a, Tidy (next a)) :
    Tidy (step >>= next) := by
  intro l ready
  obtain ⟨marks, returns⟩ := first l ready
  rw [Step.runBind]
  generalize step.runOn l = ran at returns ⊢
  obtain ⟨r, t⟩ := ran
  cases r with
  | error e => exact ⟨marks, returns⟩
  | ok a =>
    obtain ⟨more, after⟩ := later a t returns.stays
    exact ⟨marks ++ more, returns.trans after⟩

theorem Tidy.caught {step : Step Layer α} {handler : Failure → Step Layer α} (first : Tidy step)
    (later : ∀ e, Tidy (handler e)) : Tidy (tryCatch step handler) := by
  intro l ready
  obtain ⟨marks, returns⟩ := first l ready
  rw [Step.runCatch]
  generalize step.runOn l = ran at returns ⊢
  obtain ⟨r, t⟩ := ran
  cases r with
  | ok a => exact ⟨marks, returns⟩
  | error e =>
    obtain ⟨more, after⟩ := later e t returns.stays
    exact ⟨marks ++ more, returns.trans after⟩

/-- The client that the pool asks is handed back after its answer, and closed after its failure. -/
theorem tidyAskPool (text : String) (params : Value) : Tidy (askPool text params) := by
  intro l ready
  unfold askPool
  cases got : acquire.runOn l with
  | mk r t =>
  cases r with
  | error e =>
    rw [Step.stopRun got]
    obtain ⟨marks, returns, -⟩ := acquireError ready got
    exact ⟨marks, returns⟩
  | ok client =>
    rw [Step.thenRun got, Step.tryRun, Step.runBind]
    obtain ⟨marks, takes, -⟩ := acquireOk ready got
    have asked := askReturns takes.stays client text (some params)
    have lent := asked.kept client ((takes.lends client).mpr (.inl rfl))
    generalize (ask client text (some params)).runOn t = ran at asked lent ⊢
    obtain ⟨r, u⟩ := ran
    cases r with
    | ok rows =>
      obtain ⟨v, closing, handed, drops, -⟩ := releaseRun asked.stays lent
      dsimp only
      rw [Step.thenRun handed]
      exact ⟨_, takes.returns asked drops⟩
    | error e =>
      obtain ⟨v, closed, drops⟩ := closeRun asked.stays client
      dsimp only
      rw [Step.thenRun closed]
      exact ⟨_, takes.returns asked drops⟩

/-- A query ends as the one that it asks; only what is told of it is added. -/
theorem toldRun (rows : Step Layer (List Row)) (text : String) (params : Value) : ∃ notes,
    (do
      try
        let r ← rows
        tell .db (.executed text)
        return r
      catch e =>
        tell .error (.text s!"Query error: {e.message}")
        tell .error (.text s!"Query text: {text}")
        tell .error (.text s!"Query params: {paramsText params}")
        throw e : Step Layer (List Row)).runOn l = ((rows.runOn l).1, { (rows.runOn l).2 with notes }) := by
  unfold Step.runOn
  simp only [tryCatch, tryCatchThe, MonadExceptOf.tryCatch, ExceptT.tryCatch, ExceptT.mk, bind, StateT.bind, ExceptT.bind]
  generalize rows l = ran
  obtain ⟨r, t⟩ := ran
  cases r <;> exact ⟨_, rfl⟩

theorem queryClient (text : String) (params : Value) (client : Nat) : ∃ notes, (query text params (some client)).runOn l =
    (((ask client text (some params)).runOn l).1, { ((ask client text (some params)).runOn l).2 with notes }) :=
  toldRun (ask client text (some params)) text params

theorem queryPool (has : l.pool = some p) (text : String) (params : Value) : ∃ notes, (query text params none).runOn l =
    (((askPool text params).runOn l).1, { ((askPool text params).runOn l).2 with notes }) := by
  obtain ⟨notes, told⟩ := toldRun (askPool text params) text params
  exact ⟨notes, (Step.thenRun (requireRun has)).trans told⟩

theorem tidyQuery (text : String) (params : Value) (client : Option Nat) : Tidy (query text params client) := by
  intro l ready
  have told : ∀ {rows : Step Layer (List Row)}, Tidy rows →
      (∃ notes, (query text params client).runOn l = ((rows.runOn l).1, { (rows.runOn l).2 with notes })) →
      ∃ marks, Returns l ((query text params client).runOn l).2 marks := by
    rintro rows tidy ⟨notes, same⟩
    obtain ⟨marks, returns⟩ := tidy l ready
    rw [same]
    exact ⟨_, returns.trans (returnsNoted returns.stays notes)⟩
  cases client with
  | some client => exact told (tidyAsk client text (some params)) (queryClient text params client)
  | none =>
    have ⟨p, has, _⟩ := ready
    exact told (tidyAskPool text params) (queryPool has text params)

end Layer

end EntityQuery.Connection
