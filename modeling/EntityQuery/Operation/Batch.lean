import EntityQuery.Operation.Execution
/-! Batches: writes executed one after another in one transaction. Either all take effect or none. -/

namespace EntityQuery

structure BatchResult where
  kind : OperationKind
  result : Value

namespace Batch

/-- Batches take writes that have not been executed; positions count from `n`. -/
def check (n : Nat) : List Operation → Except Failure Unit
  | [] => .ok ()
  | o :: rest =>
    if o.request.kind = .read then .error (.query (.batchRead n))
    else if o.consumed then .error (.query (.batchRepeat n o.entity.name))
    else check (n + 1) rest

variable {σ : Type} [Backend σ]

def executeAll (c : Context) : List Nat → Action σ (List BatchResult)
  | [] => return []
  | id :: rest => do
    let o ← Action.operation id
    let result ← Action.execute c.registry id (some c.handle)
    return ⟨o.request.kind, result⟩ :: (← executeAll c rest)

def run (c : Context) (ids : List Nat) : Action σ (List BatchResult) := do
  check 0 (← ids.mapM Action.operation)
  try
    let results ← c.transaction fun c => executeAll c ids
    Action.tell .db s!"Batch of {ids.length} operation(s) committed"
    return results
  catch e =>
    Action.tell .error s!"Batch of {ids.length} operation(s) rolled back: {e.message}"
    throw e

end Batch

end EntityQuery
