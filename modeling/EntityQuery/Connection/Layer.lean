import EntityQuery.Connection.Pool
/-! Access to a database: connecting, queries, and transactions that are rolled back when they fail. -/

namespace EntityQuery.Connection.Layer

def isConnected (l : Layer) : Bool := l.connected && l.pool.isSome

/-- Tell of a failure by its message, and as it is. -/
def tellFailure (introduction : String) (f : Failure) : Step Layer Unit := do
  tell .error (.text (introduction ++ f.message))
  tell .error (.failure f)

def setConnected (b : Bool) : Step Layer Unit := Step.ofFunction fun l => (.ok (), { l with connected := b })

/-- Make a pool. From then on the settings do not show the key of the encryption. -/
def openPool : Step Layer Unit :=
  Step.ofFunction fun l => (.ok (), { l with pool := some (newPool l.settings), settings := l.settings.withoutKey })

def watchPool : Step Layer Unit :=
  Step.ofFunction fun l => (.ok (), { l with pool := l.pool.map fun p => { p with watched := true } })

def tryPool : Step Layer Unit := do
  openPool
  let client ← acquire
  let _ ← ask client "SELECT NOW()" none
  release client
  setConnected true
  tell .db (.text "PostgreSQL connection pool established")
  watchPool

def connect : Step Layer Unit := do
  if ← Step.inspect fun l => .ok l.connected then return ()
  try tryPool
  catch e =>
    tellFailure "Failed to connect to PostgreSQL: " e
    throw (.connecting e.message)

def closeAll : List Nat → Step Layer Unit
  | [] => return ()
  | client :: rest => do
    close client
    closeAll rest

def disconnect : Step Layer Unit := do
  match ← Step.inspect fun l => .ok l.pool with
  | none => return ()
  | some p =>
    closeAll p.clients
    setPool none
    setConnected false
    tell .db (.text "PostgreSQL connection pool closed")

/-- A client for the caller, who hands it back. -/
def getConnection : Step Layer Nat := do
  if ← Step.inspect fun l => .ok l.isConnected then acquire else throw .disconnected

def paramsText (params : Value) : String :=
  match params.toJson? .asText with
  | .ok (some j) => j.print
  | _ => "undefined"

/-- A query on a client, or through the pool. Its text and parameters are told when it fails. -/
def query (text : String) (params : Value) (client : Option Nat) : Step Layer (List Row) := do
  if client.isNone then let _ ← requirePool
  try
    let rows ← match client with
      | some client => ask client text (some params)
      | none => askPool text params
    tell .db (.executed text)
    return rows
  catch e =>
    tell .error (.text s!"Query error: {e.message}")
    tell .error (.text s!"Query text: {text}")
    tell .error (.text s!"Query params: {paramsText params}")
    throw e

/-- Work on a client between the start of a transaction and its commit. -/
def commit {α : Type} (client : Nat) (work : Nat → Step Layer α) : Step Layer α := do
  let _ ← ask client "BEGIN" none
  tell .db (.text "Transaction started")
  let result ← work client
  let _ ← ask client "COMMIT" none
  tell .db (.text "Transaction committed")
  return result

def rollBack {α : Type} (client : Nat) (e : Failure) : Step Layer α := do
  let _ ← ask client "ROLLBACK" none
  tell .db (.text s!"Transaction rolled back due to error: {e.message}")
  throw e

/-- Work in a transaction on a client; a failure rolls it back. -/
def settle {α : Type} (client : Nat) (work : Nat → Step Layer α) : Step Layer α := do
  try commit client work
  catch e => rollBack client e

/-- Work in a transaction on a client, which is released whatever happens. -/
def transaction {α : Type} (work : Nat → Step Layer α) : Step Layer α := do
  let client ← getConnection
  try settle client work
  finally release client

/-- Counts of the pool's clients; nobody waits for one. -/
def stats (l : Layer) : Value :=
  match l.pool with
  | some p =>
    .object [("totalCount", .nat p.clients.length), ("idleCount", .nat p.idle.length), ("waitingCount", .nat 0)]
  | none => .null

/-- An error of an idle client reaches the pool. Nobody hears it before the layer is connected. -/
def poolError (error : Value) : Step Layer Unit := do
  match ← Step.inspect fun l => .ok l.pool with
  | none => throw (.wrongKind "No pool")
  | some p =>
    if p.watched then tellFailure "PostgreSQL pool error: " (.plain error)
    else throw (.plain error)

end EntityQuery.Connection.Layer
