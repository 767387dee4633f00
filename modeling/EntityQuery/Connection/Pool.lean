import EntityQuery.Backend
import EntityQuery.Connection.Server
import EntityQuery.Connection.Settings
import EntityQuery.Log
import EntityQuery.Text.Units
/-! Pools of clients. The client that was released last is used first; a new one is made when none is
idle. A client whose query through the pool itself fails is closed, and so is one that was used often enough. -/

namespace EntityQuery.Connection

/-- The clients of a pool, and those of them that are idle, the last released first. `capacity` is the most
clients that it has, and `allowance` how often one is used, if there is a limit; `releases` are the clients
that were released so far. A pool that is watched tells of new clients. -/
structure Pool where
  capacity : Value
  allowance : Option Value
  releases : List Nat
  clients : List Nat
  idle : List Nat
  watched : Bool

/-- Something told: a text, a query that was executed, or a failure as it is. -/
inductive Note where
  | text (text : String)
  | executed (statement : String)
  | failure (f : Failure)

/-- The text of a note, if it is one; `duration` is the time that a query took. -/
def Note.text? (duration : String) : Note → Option String
  | text s => some s
  | executed statement =>
    some (s!"Query executed in {duration}ms: " ++ String.ofList (Text.takeUnits 100 statement.toList) ++ "...")
  | failure _ => none

/-- A layer of access to a database: its settings, its pool, and what it has told. -/
structure Layer where
  settings : Settings
  pool : Option Pool
  connected : Bool
  server : Server
  notes : List (Channel × Note)

namespace Layer

/-- The most clients that a pool has: the first of two settings that counts as true, or ten. -/
def capacity (settings : Settings) : Value :=
  (["max", "poolSize"].findSome? fun name => (Record.get? settings name).filter Value.isTruthy).getD (.int 10)

/-- How often a client is used, if a setting that counts as true says so. -/
def allowance (settings : Settings) : Option Value := (Record.get? settings "maxUses").filter Value.isTruthy

def newPool (settings : Settings) : Pool := ⟨capacity settings, allowance settings, [], [], [], false⟩

def start (settings : Settings) (server : Server) : Layer := ⟨settings, none, false, server, []⟩

def tell (channel : Channel) (n : Note) : Step Layer Unit :=
  Step.ofFunction fun l => (.ok (), { l with notes := l.notes ++ [(channel, n)] })

def onServer {α : Type} (f : Server → Except Failure α × Server) : Step Layer α :=
  Step.ofFunction fun l =>
    let (r, server) := f l.server
    (r, { l with server })

def setPool (p : Option Pool) : Step Layer Unit := Step.ofFunction fun l => (.ok (), { l with pool := p })

/-- The pool, which has to be there. -/
def requirePool : Step Layer Pool :=
  Step.inspect fun l =>
    match l.pool with
    | some p => .ok p
    | none => .error .disconnected

/-- Does a count reach a limit? One that is no number is never reached. -/
def reaches (count : Nat) (limit : Value) : Except Failure Bool := do
  let o := (Number.integer count).compare? (← limit.toNumber)
  return o == some .gt || o == some .eq

/-- Has a pool as many clients as it may have? -/
def isFull (p : Pool) : Except Failure Bool := reaches p.clients.length p.capacity

/-- Has a client been used as often as it may be? -/
def isSpent (p : Pool) (client : Nat) : Except Failure Bool :=
  match p.allowance with
  | some limit => reaches (p.releases.count client) limit
  | none => .ok false

/-- Make a client for a pool. A full pool has none to give. -/
def addClient (p : Pool) : Step Layer Nat := do
  if ← isFull p then
    throw (.plain (.object [("message", .text "timeout exceeded when trying to connect")]))
  let client ← onServer Server.connect
  setPool (some { p with clients := p.clients ++ [client] })
  if p.watched then tell .db (.text "New PostgreSQL client connected")
  return client

def acquire : Step Layer Nat := do
  let p ← requirePool
  match p.idle with
  | client :: rest =>
    setPool (some { p with idle := rest })
    return client
  | [] => addClient p

def ask (client : Nat) (text : String) (params : Option Value) : Step Layer (List Row) :=
  onServer fun s => s.answer client text params

def noteRelease (client : Nat) : Step Layer Unit :=
  Step.ofFunction fun l =>
    (.ok (), { l with
      server := l.server.note (.released client)
      pool := l.pool.map fun p => { p with releases := client :: p.releases } })

def close (client : Nat) : Step Layer Unit :=
  Step.ofFunction fun l =>
    (.ok (), { l with
      server := l.server.note (.closed client)
      pool := l.pool.map fun p =>
        { p with clients := p.clients.filter (· != client), idle := p.idle.filter (· != client) } })

/-- Hand a client back. It is idle from now on, or closed if it has been used often enough. -/
def release (client : Nat) : Step Layer Unit := do
  noteRelease client
  let p ← requirePool
  if ← isSpent p client then close client else setPool (some { p with idle := client :: p.idle })

def askPool (text : String) (params : Value) : Step Layer (List Row) := do
  let client ← acquire
  try
    let rows ← ask client text (some params)
    release client
    return rows
  catch e =>
    close client
    throw e

end Layer

end EntityQuery.Connection
