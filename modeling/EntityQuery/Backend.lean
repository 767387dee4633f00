import EntityQuery.Statement
/-! Backends: what carries out statements. A backend is a state that statements read and change, together
with what opening, committing and rolling back a transaction does to that state. -/

namespace EntityQuery

/-- A step on a state, which may fail. What it did to the state before a failure stays. -/
abbrev Step (σ α : Type) := ExceptT Failure (StateM σ) α

namespace Step

variable {σ τ α : Type}

def ofFunction (f : σ → Except Failure α × σ) : Step σ α := f

def runOn (step : Step σ α) (s : σ) : Except Failure α × σ := step s

def inspect (f : σ → Except Failure α) : Step σ α := ofFunction fun s => (f s, s)

def onPart (get : τ → σ) (set : σ → τ → τ) (step : Step σ α) : Step τ α :=
  ofFunction fun t =>
    let (r, s) := step.runOn (get t)
    (r, set s t)

end Step

/-- Where statements are sent: on any connection, or on the one of a transaction. -/
inductive Handle where
  | pooled | bound
  deriving DecidableEq, Repr

/-- A state of type `σ` that carries out statements. -/
class Backend (σ : Type) where
  select : Handle → Select → Step σ (List Row)
  insert : Handle → Insert → Step σ Written
  update : Handle → Update → Step σ Written
  delete : Handle → Delete → Step σ Written
  count : Handle → Count → Step σ Number
  group : Handle → Grouping → Step σ (List Row)
  raw : Handle → String → List Value → Step σ (List Row)
  /-- Carry out a statement of a kind that is given as a document, whose parts may be missing. -/
  direct : Handle → StatementKind → Value → Step σ Value
  joins : Handle → σ → Bool
  /-- The state in which a transaction begins, if one can begin. -/
  opened : σ → Except Failure σ
  /-- The state after a commit, from the one before the transaction and the one at its end. -/
  committed : σ → σ → σ
  /-- The state after a rollback, from the one before the transaction and the one at its end. -/
  rolledBack : σ → σ → σ
  adopt : Failure → Failure

namespace Backend

variable {σ τ α : Type} [Backend σ]

/-- Work inside one transaction on a state that holds a backend. Inside an open transaction the work
joins it; else a transaction is opened, and committed or rolled back by how the work ends. -/
def transaction (get : τ → σ) (set : σ → τ → τ) (h : Handle) (work : Handle → Step τ α) : Step τ α :=
  Step.ofFunction fun t =>
    if joins h (get t) then (work h).runOn t
    else
      match opened (get t) with
      | .error e => (.error e, t)
      | .ok start =>
        match (work .bound).runOn (set start t) with
        | (.ok a, after) => (.ok a, set (committed (get t) (get after)) after)
        | (.error e, after) => (.error (adopt σ e), set (rolledBack (get t) (get after)) after)

end Backend

end EntityQuery
