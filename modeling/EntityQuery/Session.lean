import EntityQuery.Backend
import EntityQuery.Log
import EntityQuery.Operation
import EntityQuery.Predicate.Compiled
/-! Sessions: a backend, the operations put together on it, and what has been told while they ran. -/

namespace EntityQuery

/-- The call of a fetcher with given rows: the relation and the values of the parents. -/
structure Fetched where
  relation : String
  values : List Value
  deriving Repr

structure Session (σ : Type) where
  backend : σ
  operations : List Operation
  fetched : List Fetched
  log : List (Channel × String)

abbrev Action (σ α : Type) := Step (Session σ) α

/-- What a running operation uses: the registry of its client, and where its statements are sent. -/
structure Context where
  registry : Registry Fetcher
  handle : Handle

namespace Session

variable {σ : Type}

def start (backend : σ) : Session σ := ⟨backend, [], [], []⟩

def withBackend (b : σ) (s : Session σ) : Session σ := { s with backend := b }

end Session

namespace Action

variable {σ α : Type}

def onBackend (step : Step σ α) : Action σ α := Step.onPart Session.backend Session.withBackend step

def tell (channel : Channel) (text : String) : Action σ Unit :=
  Step.ofFunction fun s => (.ok (), { s with log := s.log ++ [(channel, text)] })

def noteFetch (f : Fetched) : Action σ Unit :=
  Step.ofFunction fun s => (.ok (), { s with fetched := s.fetched ++ [f] })

end Action

namespace Context

variable {σ α : Type} [Backend σ]

def select (c : Context) (q : Select) : Action σ (List Row) := .onBackend (Backend.select c.handle q)

def insert (c : Context) (q : Insert) : Action σ Written := .onBackend (Backend.insert c.handle q)

def update (c : Context) (q : Update) : Action σ Written := .onBackend (Backend.update c.handle q)

def delete (c : Context) (q : Delete) : Action σ Written := .onBackend (Backend.delete c.handle q)

def count (c : Context) (q : Count) : Action σ Number := .onBackend (Backend.count c.handle q)

def group (c : Context) (q : Grouping) : Action σ (List Row) := .onBackend (Backend.group c.handle q)

def raw (c : Context) (sql : String) (params : List Value) : Action σ (List Row) :=
  .onBackend (Backend.raw c.handle sql params)

def direct (c : Context) (kind : StatementKind) (document : Value) : Action σ Value :=
  .onBackend (Backend.direct c.handle kind document)

def transaction (c : Context) (work : Context → Action σ α) : Action σ α :=
  Backend.transaction Session.backend Session.withBackend c.handle fun h => work { c with handle := h }

def condition (c : Context) (e : Entity) (ps : List Predicate) : Except Failure Condition :=
  Predicate.condition c.registry e ps

end Context

end EntityQuery
