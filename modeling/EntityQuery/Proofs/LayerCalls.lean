import EntityQuery.Proofs.LayerTransactions
/-! Calls on a layer, one after another. Whether a layer is connected, and whether it has a pool, is told by its last connect
unless a disconnect has come after it. A connect that fails leaves its pool, which later queries are sent to, and a client of
it in use if it is the first query that fails; nothing else that comes to an end leaves a client in use. -/

namespace EntityQuery.Connection

theorem limitsWithoutKey {settings : Settings} (limits : Limits (Layer.allowance settings)) :
    Limits (Layer.allowance settings.withoutKey) := by
  have same : Record.get? settings.withoutKey "maxUses" = Record.get? settings "maxUses" := by
    unfold Settings.withoutKey
    split
    · split
      · exact Record.get?_replace_of_ne (by decide)
      · rfl
    · rfl
  unfold Layer.allowance at limits ⊢
  rwa [same]

/-- A call on a layer. -/
inductive Call
  | connect
  | disconnect
  | query (text : String) (params : Value) (client : Option Nat)
  | transaction {α : Type} (work : Nat → Step Layer α)

/-- A call with how it has ended. -/
abbrev Ended := Call × Except Failure Unit

namespace Call

def run : Call → Step Layer Unit
  | connect => Layer.connect
  | disconnect => Layer.disconnect
  | query text params client => Layer.query text params client >>= fun _ => pure ()
  | transaction work => Layer.transaction work >>= fun _ => pure ()

/-- Does a call come to an end? A pool that is closed waits for its clients that are in use, and the work of a transaction may
not keep clients for itself. -/
def Settles (l : Layer) : Call → Prop
  | disconnect => ∀ client, ¬ l.Lends client
  | transaction work => ∀ client, Layer.Tidy (work client)
  | _ => True

/-- How the last connect has ended that no disconnect has come after; the latest call comes first. -/
def standing : List Ended → Option (Except Failure Unit)
  | [] => none
  | (connect, ended) :: _ => some ended
  | (disconnect, .ok _) :: _ => none
  | _ :: earlier => standing earlier

end Call

namespace Layer

variable {α : Type} {l t : Layer} {settings : Settings} {server : Server} {history : List Ended}

/-- The layers that calls lead to. -/
inductive Reaches (settings : Settings) (server : Server) : List Ended → Layer → Prop
  | start : Reaches settings server [] (.start settings server)
  | call {history : List Ended} {l : Layer} (call : Call) (before : Reaches settings server history l) (settles : call.Settles l) :
    Reaches settings server ((call, (call.run.runOn l).1) :: history) (call.run.runOn l).2

variable {outcome : Option (Except Failure Unit)}

/-- What a layer shows of the outcome of its last connect. -/
structure Stands (outcome : Option (Except Failure Unit)) (l : Layer) : Prop where
  limits : Limits (allowance l.settings)
  sound : ∀ p, l.pool = some p → p.Sound l.server.clients
  connected : l.connected = true ↔ outcome = some (.ok ())
  pooled : l.pool.isSome = outcome.isSome
  lends : ∀ client, l.Lends client → ∃ e, outcome = some (.error e)

theorem standsStart (limits : Limits (allowance settings)) (server : Server) : Stands none (.start settings server) :=
  ⟨limits, nofun, by simp [start], rfl, fun _ ⟨_, has, _⟩ => nomatch has⟩

theorem Stands.opened (stands : Stands outcome l) {p : Pool} (has : l.pool = some p) : l.Open :=
  ⟨p, has, stands.sound p has⟩

theorem Stands.returns (stands : Stands outcome l) {p : Pool} (has : l.pool = some p) {marks : List Event}
    (returns : Returns l t marks) : Stands outcome t := by
  obtain ⟨q, there, sound⟩ := returns.stays
  refine ⟨returns.settings ▸ stands.limits, fun q' same => ?_, returns.connected ▸ stands.connected, ?_, fun c lent =>
    stands.lends c (returns.back c lent)⟩
  · cases there.symm.trans same
    exact sound
  · rw [← stands.pooled, has, there]
    rfl

/-- The first query of a new pool has failed on a client, which nobody hands back. -/
def Abandons (l t : Layer) (client : Nat) : Prop :=
  t.server.events = l.server.events ++ [.opened client, .asked client "SELECT NOW()" none]

/-- What trying a new pool makes of a layer. -/
def Tried (l : Layer) : Except Failure Unit → Layer → Prop
  | .ok _, t => t.connected = true ∧ ∀ c, ¬ t.Lends c
  | .error _, t => t.connected = l.connected ∧ ∀ c, t.Lends c → Abandons l t c

theorem tryPoolTried (limits : Limits (allowance l.settings)) : ∃ r t, tryPool.runOn l = (r, t) ∧
    t.settings = l.settings.withoutKey ∧ t.Open ∧ Tried l r t := by
  let opened : Layer := { l with pool := some (newPool l.settings), settings := l.settings.withoutKey }
  have opens : openPool.runOn l = (.ok (), opened) := rfl
  have ready : opened.Open := ⟨_, rfl, nofun, List.nodup_nil, nofun, limits⟩
  have unlent : ∀ c, ¬ opened.Lends c := fun c lent => nomatch ((lendsOf rfl).mp lent).1
  unfold tryPool
  rw [Step.thenRun opens]
  cases got : acquire.runOn opened with
  | mk r t =>
  cases r with
  | error e =>
    obtain ⟨marks, returns, -⟩ := acquireError ready got
    exact ⟨_, t, Step.stopRun got, returns.settings, returns.stays, returns.connected, fun c lent => absurd (returns.back c lent) (unlent c)⟩
  | ok client =>
    rw [Step.thenRun got]
    obtain ⟨marks, takes, how⟩ := acquireOk ready got
    -- a new pool has no idle client to give
    obtain rfl : marks = [.opened client] := by
      obtain made | ⟨-, p, has, idle⟩ := how
      · exact made
      · cases has
        cases idle
    have asked := askReturns takes.stays client "SELECT NOW()" none
    cases answer : (ask client "SELECT NOW()" none).runOn t with
    | mk r u =>
    rw [answer] at asked
    have only : ∀ c, u.Lends c → c = client := fun c lent => ((takes.lends c).mp (asked.back c lent)).resolve_right (unlent c)
    have use := takes.toUse.trans asked.toUse
    cases r with
    | error e =>
      refine ⟨_, u, Step.stopRun answer, use.settings, use.stays, use.connected, fun c lent => ?_⟩
      rw [only c lent]
      exact use.events
    | ok rows =>
      obtain ⟨v, closing, handed, drops, -⟩ := releaseRun asked.stays (asked.kept client ((takes.lends client).mpr (.inl rfl)))
      rw [Step.thenRun answer, Step.thenRun handed]
      obtain ⟨p, has, sound⟩ := drops.stays
      have watched : v.pool.map (fun p => { p with watched := true }) = some { p with watched := true } := by rw [has]; rfl
      refine ⟨_, _, rfl, (use.trans drops.toUse).settings, ?_, rfl, fun c lent => ?_⟩
      · exact ⟨_, watched, sound.known, sound.once, sound.numbered, sound.limited⟩
      · have still : Pool.Lends { p with watched := true } c := (lendsOf watched).mp lent
        obtain ⟨other, lent⟩ := (drops.lends c).mp ((lendsOf has).mpr still)
        exact other (only c lent)

theorem connectAgain (connected : l.connected = true) : connect.runOn l = (.ok (), l) := by
  unfold connect
  rw [Step.thenInspect, if_pos connected]
  rfl

theorem connectTried (limits : Limits (allowance l.settings)) (connected : l.connected = false) : ∃ r t,
    connect.runOn l = (r, t) ∧ t.settings = l.settings.withoutKey ∧ t.Open ∧ Tried l r t := by
  obtain ⟨r, t, ran, settings, opened, tried⟩ := tryPoolTried limits
  unfold connect
  rw [Step.thenInspect, if_neg (Bool.eq_false_iff.mp connected), Step.runCatch, ran]
  cases r with
  | ok _ => exact ⟨_, t, rfl, settings, opened, tried⟩
  | error e => exact ⟨_, _, rfl, settings, opened, tried⟩

theorem closeAllKeeps (clients : List Nat) (l : Layer) : ∃ t, (closeAll clients).runOn l = (.ok (), t) ∧ t.settings = l.settings := by
  induction clients generalizing l with
  | nil => exact ⟨l, rfl, rfl⟩
  | cons client rest ih =>
    obtain ⟨t, closed, settings⟩ := ih ((close client).runOn l).2
    have first : (close client).runOn l = (.ok (), ((close client).runOn l).2) := rfl
    unfold closeAll
    rw [Step.thenRun first]
    exact ⟨t, closed, settings⟩

theorem disconnectRun (l : Layer) : (l.pool = none ∧ disconnect.runOn l = (.ok (), l)) ∨
    ∃ t, disconnect.runOn l = (.ok (), t) ∧ t.settings = l.settings ∧ t.pool = none ∧ t.connected = false := by
  unfold disconnect
  rw [Step.thenInspect]
  cases has : l.pool with
  | none => exact .inl ⟨rfl, rfl⟩
  | some p =>
    obtain ⟨t, closed, settings⟩ := closeAllKeeps p.clients l
    dsimp only
    rw [Step.thenRun closed]
    exact .inr ⟨_, rfl, settings, rfl, rfl⟩

theorem queryPoolless (has : l.pool = none) (text : String) (params : Value) :
    (query text params none).runOn l = (.error .disconnected, l) := by
  have absent : requirePool.runOn l = (.error .disconnected, l) := by
    unfold requirePool Step.inspect Step.ofFunction Step.runOn
    dsimp only
    rw [has]
  exact Step.stopRun absent

theorem transactionUnconnected (connected : l.connected = false) (work : Nat → Step Layer α) :
    (transaction work).runOn l = (.error .disconnected, l) := by
  have got : getConnection.runOn l = (.error .disconnected, l) := by
    rw [getConnectionRun, if_neg]
    simp [isConnected, connected]
  exact Step.stopRun got

theorem connectStands (stands : Stands outcome l) : Stands (some (connect.runOn l).1) (connect.runOn l).2 ∧
    ∀ c, (connect.runOn l).2.Lends c → l.Lends c ∨ (∃ e, (connect.runOn l).1 = .error e) ∧ Abandons l (connect.runOn l).2 c := by
  cases connected : l.connected with
  | true =>
    rw [connectAgain connected]
    obtain rfl := stands.connected.mp connected
    exact ⟨stands, fun c lent => .inl lent⟩
  | false =>
    obtain ⟨r, t, ran, settings, ⟨p, has, sound⟩, tried⟩ := connectTried stands.limits connected
    rw [ran]
    have limits : Limits (allowance t.settings) := settings ▸ limitsWithoutKey stands.limits
    have sounds : ∀ q, t.pool = some q → q.Sound t.server.clients := fun q same => by
      cases has.symm.trans same
      exact sound
    have pooled : t.pool.isSome = true := by rw [has]; rfl
    cases r with
    | ok _ =>
      obtain ⟨connects, unlent⟩ := tried
      exact ⟨⟨limits, sounds, iff_of_true connects rfl, pooled, fun c lent => absurd lent (unlent c)⟩, fun c lent => absurd lent (unlent c)⟩
    | error e =>
      obtain ⟨still, abandoned⟩ := tried
      have un : ¬ t.connected = true := by rw [still, connected]; exact Bool.false_ne_true
      exact ⟨⟨limits, sounds, iff_of_false un nofun, pooled, fun c lent => ⟨e, rfl⟩⟩,
        fun c lent => .inr ⟨⟨e, rfl⟩, abandoned c lent⟩⟩

theorem disconnectStands (stands : Stands outcome l) : (disconnect.runOn l).1 = .ok () ∧ Stands none (disconnect.runOn l).2 ∧
    ∀ c, ¬ (disconnect.runOn l).2.Lends c := by
  obtain ⟨has, ran⟩ | ⟨t, ran, settings, has, connected⟩ := disconnectRun l
  · rw [ran]
    obtain rfl : outcome = none := by
      have absent := stands.pooled
      rw [has] at absent
      exact Option.isNone_iff_eq_none.mp (by rw [← Option.not_isSome, ← absent]; rfl)
    exact ⟨rfl, stands, fun c ⟨p, there, _⟩ => nomatch has.symm.trans there⟩
  · rw [ran]
    have unlent : ∀ c, ¬ t.Lends c := fun c ⟨p, there, _⟩ => nomatch has.symm.trans there
    refine ⟨rfl, ⟨settings ▸ stands.limits, fun p there => (nomatch has.symm.trans there), ?_, ?_, fun c lent => absurd lent (unlent c)⟩, unlent⟩
    · simp [connected]
    · simp [has]

theorem queryStands (stands : Stands outcome l) (text : String) (params : Value) (client : Option Nat) :
    Stands outcome ((query text params client).runOn l).2 ∧ ∀ c, ((query text params client).runOn l).2.Lends c → l.Lends c := by
  cases has : l.pool with
  | some p =>
    obtain ⟨marks, returns⟩ := tidyQuery text params client l (stands.opened has)
    exact ⟨stands.returns has returns, returns.back⟩
  | none =>
    cases client with
    | none =>
      rw [queryPoolless has]
      exact ⟨stands, fun c => id⟩
    | some client =>
      obtain ⟨notes, ran⟩ := queryClient text params client (l := l)
      rw [ran]
      exact ⟨⟨stands.limits, fun p there => (nomatch has.symm.trans there), stands.connected, stands.pooled, stands.lends⟩, fun c => id⟩

theorem transactionStands (stands : Stands outcome l) {work : Nat → Step Layer α} (tidy : ∀ client, Tidy (work client)) :
    Stands outcome ((transaction work).runOn l).2 ∧ ∀ c, ((transaction work).runOn l).2.Lends c → l.Lends c := by
  cases has : l.pool with
  | some p =>
    obtain ⟨marks, returns⟩ := tidyTransaction tidy l (stands.opened has)
    exact ⟨stands.returns has returns, returns.back⟩
  | none =>
    have un : l.connected = false := by
      refine Bool.eq_false_iff.mpr fun connected => ?_
      have pooled := stands.pooled
      rw [has, stands.connected.mp connected] at pooled
      cases pooled
    rw [transactionUnconnected un]
    exact ⟨stands, fun c => id⟩

theorem leavesDropped (step : Step Layer α) (l : Layer) : ((step >>= fun _ => pure ()).runOn l).2 = (step.runOn l).2 := by
  rw [Step.runBind]
  generalize step.runOn l = ran
  obtain ⟨r, t⟩ := ran
  cases r <;> rfl

theorem callStands (stands : Stands (Call.standing history) l) {call : Call} (settles : call.Settles l) :
    Stands (Call.standing ((call, (call.run.runOn l).1) :: history)) (call.run.runOn l).2 ∧
      ∀ c, (call.run.runOn l).2.Lends c →
        l.Lends c ∨ call = .connect ∧ (∃ e, (call.run.runOn l).1 = .error e) ∧ Abandons l (call.run.runOn l).2 c := by
  cases call with
  | connect =>
    obtain ⟨after, lends⟩ := connectStands stands
    exact ⟨after, fun c lent => (lends c lent).imp_right fun abandoned => ⟨rfl, abandoned⟩⟩
  | disconnect =>
    obtain ⟨ends, after, unlent⟩ := disconnectStands stands
    refine ⟨?_, fun c lent => absurd lent (unlent c)⟩
    change Stands (Call.standing ((.disconnect, (disconnect.runOn l).1) :: history)) (disconnect.runOn l).2
    rw [ends]
    exact after
  | query text params client =>
    obtain ⟨after, back⟩ := queryStands stands text params client
    rw [← leavesDropped] at after back
    exact ⟨after, fun c lent => .inl (back c lent)⟩
  | transaction work =>
    obtain ⟨after, back⟩ := transactionStands stands settles
    rw [← leavesDropped] at after back
    exact ⟨after, fun c lent => .inl (back c lent)⟩

theorem reachedStands (limits : Limits (allowance settings)) (reached : Reaches settings server history l) :
    Stands (Call.standing history) l := by
  induction reached with
  | start => exact standsStart limits server
  | call call _ settles ih => exact (callStands ih settles).1

/-- A step that does nothing but fail with an error of the connection. -/
def Refuses (step : Step Layer α) (l : Layer) : Prop :=
  ∃ f report, step.runOn l = (.error f, l) ∧ f.report? = some report ∧ report.name = "ConnectionError"

/-- After any calls, the last connect that no disconnect has come after tells whether the layer is connected, and whether it has
a pool: it has one after a connect that has failed, too. While it is not connected, transactions are refused, and so are queries
if it has no pool; else the pool answers them. No call leaves a client in use that was not in use before it, save a connect whose
first query fails. -/
theorem lastConnectStands (limits : Limits (allowance settings)) (reached : Reaches settings server history l) :
    ((l.connected = true ↔ Call.standing history = some (.ok ())) ∧
      (l.pool.isSome = true ↔ ∃ ended, Call.standing history = some ended)) ∧
    (l.connected = false → (∀ {α : Type} (work : Nat → Step Layer α), Refuses (transaction work) l) ∧ ∀ text params,
      (Call.standing history = none → Refuses (query text params none) l) ∧
      ∀ e, Call.standing history = some (.error e) → ((query text params none).runOn l).1 = ((askPool text params).runOn l).1) ∧
    (∀ c, l.Lends c → ∃ e, Call.standing history = some (.error e)) ∧
    ∀ call : Call, call.Settles l → ∀ c, (call.run.runOn l).2.Lends c →
      l.Lends c ∨ call = .connect ∧ (∃ e, (call.run.runOn l).1 = .error e) ∧ Abandons l (call.run.runOn l).2 c := by
  have stands := reachedStands limits reached
  refine ⟨⟨stands.connected, ?_⟩, fun un => ⟨fun work => ?_, fun text params => ⟨fun none => ?_, fun e failed => ?_⟩⟩,
    stands.lends, fun call settles => (callStands stands settles).2⟩
  · rw [stands.pooled, Option.isSome_iff_exists]
  · exact ⟨_, _, transactionUnconnected un work, rfl, rfl⟩
  · have absent : l.pool = Option.none := by
      have pooled := stands.pooled
      rw [none] at pooled
      exact Option.not_isSome_iff_eq_none.mp (by simp [pooled])
    exact ⟨_, _, queryPoolless absent text params, rfl, rfl⟩
  · have there := stands.pooled
    rw [failed] at there
    obtain ⟨p, has⟩ := Option.isSome_iff_exists.mp there
    obtain ⟨notes, ran⟩ := queryPool has text params
    rw [ran]

/-- A client is turned away from a first connect; a query is sent to the pool all the same. -/
theorem lastConnectStandsRefused :
    let server : Server := .start [.rows [] none] [some (.object [("message", .text "refused")])] false
    let l := (connect.runOn (.start [] server)).2
    Reaches [] server [(.connect, (connect.runOn (.start [] server)).1)] l ∧ l.connected = false ∧ l.pool.isSome = true ∧
      ((query "SELECT 1" (.array []) none).runOn l).1 = .ok [] := by
  intro server l
  have reached : Reaches [] server [(.connect, (connect.runOn (.start [] server)).1)] l := .call .connect .start trivial
  have limits : Limits (allowance []) := fun _ some => nomatch some
  obtain ⟨⟨connected, pooled⟩, unconnected, -⟩ := lastConnectStands limits reached
  have un : l.connected = false := rfl
  obtain ⟨-, queries⟩ := unconnected un
  refine ⟨reached, un, pooled.mpr ⟨_, rfl⟩, ?_⟩
  rw [(queries "SELECT 1" (.array [])).2 _ rfl]
  rfl

end Layer

end EntityQuery.Connection
