import EntityQuery.Executor
import EntityQuery.Operation.Batch
import EntityQuery.Operation.Edit
import EntityQuery.Operation.Start
import EntityQuery.Statement.Document
import EntityQuery.Value.Reading
import EntityQuery.Window.Document
/-! Operations as documents: requests are read from documents, edits and includes from calls by name, and
what is seen of operations is written as documents. -/

namespace EntityQuery

namespace Request

/-- The request of a name. A document holds what it is about: `by` a selector, `where` predicates, `set`
mutations, `data` a row, `rows` rows, and `fields` names of fields. -/
def ofDocument? (registry : Registry Fetcher) (e : Entity) (name : String) (v : Value) :
    Option (Except Failure Request) :=
  let selector := Predicate.ofValue (v.member "by")
  let filter := Predicate.ofItems (v.itemsAt "where")
  let mutations := (v.itemsAt "set").map Mutation.ofValue
  let data := (v.member "data").members
  match name with
  | "findUnique" => some (findUnique registry e selector)
  | "findFirst" => some (.ok (findFirst filter))
  | "findMany" => some (.ok (findMany filter))
  | "count" => some (.ok (.count filter))
  | "aggregate" => some (.ok (aggregateOf filter))
  | "groupBy" => some (groupBy e (v.itemsAt "fields") filter)
  | "create" => some (createOf registry e data)
  | "createMany" => some (createRows e ((v.itemsAt "rows").map Value.members))
  | "update" => some (updateOf registry e selector mutations)
  | "updateMany" => some (updateManyOf e filter mutations)
  | "upsert" => some (upsertOf registry e selector data mutations)
  | "delete" => some (deleteOf registry e selector)
  | "deleteMany" => some (.ok (.deleteMany filter))
  | _ => none

end Request

/-- The arguments of an ordering: a field, a direction and the place of nulls. -/
structure OrderArguments where
  field : Value
  direction : Direction
  nulls : Option NullPlacement

def OrderArguments.ofValues (arguments : List Value) : OrderArguments :=
  let direction := match Value.nth arguments 1 with
    | .absent => .ascending
    | v => Direction.ofValue v
  ⟨Value.nth arguments 0, direction, NullPlacement.asked? (Value.nth arguments 2)⟩

def Edit.ofCall? (registry : Registry Fetcher) (name : String) (arguments : List Value) : Option Edit :=
  let first := Value.nth arguments 0
  let second := Value.nth arguments 1
  match name with
  | "where" => some (addFilter (Predicate.ofItems arguments))
  | "orderBy" =>
    let o := OrderArguments.ofValues arguments
    some (orderBy o.field o.direction o.nulls)
  | "take" => some (take first)
  | "skip" => some (skip first)
  | "cursor" => some (cursor (Window.cursorOf first))
  | "distinct" => some (distinct arguments)
  | "sum" => some (aggregates .sum arguments)
  | "avg" => some (aggregates .avg arguments)
  | "min" => some (aggregates .min arguments)
  | "max" => some (aggregates .max arguments)
  | "having" => some (having (.ofValue first) second)
  | "connect" => some (connect registry first (.ofValue second))
  | "apply" => some (apply (arguments.map Mutation.ofValue))
  | _ => none

def IncludeDraft.ofCall? (d : IncludeDraft) (name : String) (arguments : List Value) :
    Option (Except Failure IncludeDraft) :=
  let first := Value.nth arguments 0
  match name with
  | "where" => some (.ok (d.addFilter (Predicate.ofItems arguments)))
  | "orderBy" =>
    let o := OrderArguments.ofValues arguments
    some (d.orderBy o.field o.direction o.nulls)
  | "take" => some (.ok (d.take first))
  | "skip" => some (.ok (d.skip first))
  | "cursor" => some (.ok (d.cursor (Window.cursorOf first)))
  | "distinct" => some (d.distinct arguments)
  | "select" => some (d.select arguments)
  | "count" => some (.ok d.count)
  | "build" => some (d.build.map (·.2))
  | _ => none

/-- An operation from outside. -/
def Operation.toValue (o : Operation) : Value :=
  .object [("kind", .text o.request.kind.tag), ("entityName", .text o.entity.name), ("consumed", .bool o.consumed),
    ("pendingLookups", match o.pendingLookups with
      | some n => .nat n
      | none => .absent)]

def BatchResult.toValue (r : BatchResult) : Value := .object [("kind", .text r.kind.tag), ("result", r.result)]

def Fetched.toValue (f : Fetched) : Value :=
  .object [("relation", .text f.relation), ("values", .array f.values)]

def Sent.toValue : Sent → Value
  | query sql params bound => .object [("sql", .text sql), ("params", .array params), ("tx", .bool bound)]
  | begin => .text "begin"
  | commit => .text "commit"
  | rollback => .text "rollback"

end EntityQuery
