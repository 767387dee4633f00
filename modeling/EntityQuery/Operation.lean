import EntityQuery.Backend
import EntityQuery.Fetcher
import EntityQuery.Include
import EntityQuery.Mutation
/-! Operations: queries that have been put together and can be executed once. -/

namespace EntityQuery

inductive OperationKind where
  | read | insert | update | delete | upsert
  deriving DecidableEq, Repr

def OperationKind.tag : OperationKind → String
  | read => "read" | insert => "insert" | update => "update" | delete => "delete" | upsert => "upsert"

/-- How many rows a read is after: all of them, the first one (or the last one, for a negative `take`), or
the one that a unique filter selects. -/
inductive ReadMode where
  | many | first | unique
  deriving DecidableEq, Repr

structure Read where
  filter : List Predicate
  window : Window
  includes : List Include

structure FieldAggregate where
  function : Aggregation
  field : Field

structure AggregateRead where
  filter : List Predicate
  requests : List FieldAggregate

structure GroupRead where
  grouped : List Field
  filter : List Predicate
  requests : List FieldAggregate
  order : List OrderTerm
  having : Option (Comparator × Value)
  limit : Option Number
  offset : Option Number

/-- A foreign key that is known once the row of a selector has been found. -/
structure Lookup where
  relation : Relation
  selector : Predicate

/-- A row to create: its values, the lookups that complete them, and the changes of its relations that
follow. -/
structure Creation where
  values : Row
  lookups : List Lookup
  related : List (String × RelationChange)

inductive Request where
  | find (mode : ReadMode) (read : Read)
  | count (filter : List Predicate)
  | aggregate (read : AggregateRead)
  | group (read : GroupRead)
  | create (creation : Creation)
  | createMany (rows : List Row)
  | update (selector : Predicate) (mutations : List Mutation)
  | updateMany (filter : List Predicate) (assignments : List Assignment)
  | upsert (selector : Predicate) (creation : Creation) (mutations : List Mutation)
  | delete (selector : Predicate)
  | deleteMany (filter : List Predicate)

namespace Request

def kind : Request → OperationKind
  | find .. | count _ | aggregate _ | group _ => .read
  | create _ | createMany _ => .insert
  | update .. | updateMany .. => .update
  | upsert .. => .upsert
  | delete _ | deleteMany _ => .delete

def label : Request → String
  | find .many _ => "FindManyBuilder"
  | find .first _ => "FindFirstBuilder"
  | find .unique _ => "FindUniqueBuilder"
  | count _ => "CountBuilder"
  | aggregate _ => "AggregateBuilder"
  | group _ => "GroupByBuilder"
  | create _ => "CreateBuilder"
  | createMany _ => "CreateManyBuilder"
  | update .. => "UpdateBuilder"
  | updateMany .. => "UpdateManyBuilder"
  | upsert .. => "UpsertBuilder"
  | delete _ => "DeleteBuilder"
  | deleteMany _ => "DeleteManyBuilder"

def extensions : Request → List String
  | find .. => ["where", "orderBy", "take", "skip", "cursor", "distinct", "include"]
  | count _ | updateMany .. | deleteMany _ => ["where"]
  | aggregate _ => ["where", "sum", "avg", "min", "max"]
  | group _ => ["where", "sum", "avg", "min", "max", "having", "orderBy", "take", "skip"]
  | create _ => ["connect"]
  | update .. => ["apply"]
  | createMany _ | upsert .. | delete _ => []

end Request

/-- An operation on an entity. `handle` is where it runs unless it is told otherwise. -/
structure Operation where
  entity : Entity
  handle : Handle
  consumed : Bool
  request : Request

namespace Operation

def checkOpen (o : Operation) : Except Failure Unit :=
  if o.consumed then .error (.query (.alreadyExecuted o.request.label o.entity.name)) else .ok ()

/-- The lookups that a creation still has to do; other operations have none. -/
def pendingLookups (o : Operation) : Option Nat :=
  match o.request with
  | .create c => some (if o.consumed then 0 else c.lookups.length)
  | _ => none

end Operation

end EntityQuery
