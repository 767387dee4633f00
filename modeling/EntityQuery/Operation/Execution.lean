import EntityQuery.Include.Loading
import EntityQuery.Operation.Aggregating
import EntityQuery.Operation.Changing
/-! Executing operations. An operation is executed once: it is used up even if it fails. -/

namespace EntityQuery

namespace Context

variable {σ : Type} [Backend σ]

def find (c : Context) (e : Entity) (r : Read) (take : Value) : Action σ (List Row) := do
  let condition ← c.condition e r.filter
  let rows ← c.readRows e condition { r.window with take }
  c.loadIncludes e r.includes rows

def firstOf (rows : List Row) : Value :=
  match rows with
  | row :: _ => .object row
  | [] => .null

def perform (c : Context) (e : Entity) : Request → Action σ Value
  | .find .many r => do return .array ((← c.find e r r.window.take).map .object)
  | .find .first r => do
    let take : Int := if ← r.window.isBackwards then -1 else 1
    return firstOf (← c.find e r (.int take))
  | .find .unique r => do return firstOf (← c.find e r (.int 1))
  | .count filter => do return .number (← c.countMatching e filter)
  | .aggregate a => do return .object (← c.aggregate e a)
  | .group g => do return .array ((← c.groups e g).map .object)
  | .create creation => do return .object (← c.transaction fun c => c.create e creation)
  | .createMany rows => do return .number (← c.insertMany e rows)
  | .update selector mutations => do return .object (← c.updateOne e selector mutations)
  | .updateMany filter assignments => do return .number (← c.updateMany e filter assignments)
  | .upsert selector creation mutations => do return .object (← c.upsertOne e selector creation mutations)
  | .delete selector => do return .object (← c.deleteOne e selector)
  | .deleteMany filter => do return .number (← c.deleteMany e filter)

end Context

namespace Session

variable {σ : Type}

def operation? (s : Session σ) (id : Nat) : Option Operation := s.operations[id]?

def setOperation (s : Session σ) (id : Nat) (o : Operation) : Session σ :=
  { s with operations := s.operations.set id o }

end Session

namespace Action

variable {σ : Type}

/-- Hold an operation in the session; its number is returned. -/
def hold (o : Operation) : Action σ Nat :=
  Step.ofFunction fun s => (.ok s.operations.length, { s with operations := s.operations ++ [o] })

def operation (id : Nat) : Action σ Operation :=
  Step.inspect fun s =>
    match s.operation? id with
    | some o => .ok o
    | none => .error (.contract (.unrecognized "operation" (Number.intText id)))

def edit (id : Nat) (change : Step Operation Unit) : Action σ Unit := do
  let o ← operation id
  Step.onPart (fun _ => o) (fun o s => s.setOperation id o) change

/-- Mark an operation as executed, which works once. -/
def consume (id : Nat) : Action σ Operation := do
  let o ← operation id
  o.checkOpen
  Step.ofFunction fun s => (.ok o, s.setOperation id { o with consumed := true })

variable [Backend σ]

/-- Execute an operation, where it belongs unless another handle is given. -/
def execute (registry : Registry Fetcher) (id : Nat) (handle : Option Handle) : Action σ Value := do
  let o ← consume id
  Context.perform ⟨registry, handle.getD o.handle⟩ o.entity o.request

end Action

end EntityQuery
