import EntityQuery.Predicate.Document
/-! Mutations of a row: new values and arithmetic of its fields, and changes of the rows related to it. -/

namespace EntityQuery

/-- A change of a row's relation: relate a row, part with one or all, relate exactly some rows, or create
a related row. `foreign` is a change of no known form. -/
inductive RelationChange where
  | connect (selector : Predicate)
  | disconnect (selector : Option Predicate)
  | set (selectors : List Predicate)
  | create (data : Row)
  | foreign (operation : Value)
  deriving Repr

/-- A mutation of a row of an entity. Field operands are column values already; `foreign` is a node of
no known form. -/
inductive Mutation where
  | field (entity name : String) (change : ColumnChange) (operand : Value)
  | relation (entity name : String) (change : RelationChange)
  | foreign (node : Value)
  deriving Repr

namespace RelationChange

/-- The name of a change, which an operation has to be asked for. -/
def tag : RelationChange → Except Failure Value
  | connect _ => .ok (.text "connect")
  | disconnect _ => .ok (.text "disconnect")
  | set _ => .ok (.text "set")
  | create _ => .ok (.text "create")
  | foreign operation => operation.get "op"

def toValue (c : RelationChange) : Value :=
  match c with
  | connect selector => FieldTest.operation "connect" [("selector", selector.toValue)]
  | disconnect (some selector) => FieldTest.operation "disconnect" [("selector", selector.toValue)]
  | disconnect none => FieldTest.operation "disconnect" [("selector", .null)]
  | set selectors => FieldTest.operation "set" [("selectors", .array (Predicate.toValues selectors))]
  | create data => FieldTest.operation "create" [("data", .object data)]
  | foreign operation => operation

/-- The change that a document describes. A selector that counts as false selects nothing in particular. -/
def ofValue (v : Value) : RelationChange :=
  let selector := v.member "selector"
  let selectors := v.member "selectors"
  match v.member "op" with
  | .text "connect" => .connect (.ofValue selector)
  | .text "disconnect" => .disconnect (if selector.isTruthy then some (.ofValue selector) else none)
  | .text "set" => if selectors.sequence?.isSome then .set (Predicate.ofList selectors) else .foreign v
  | .text "create" => .create (v.member "data").entries
  | _ => .foreign v

end RelationChange

namespace Mutation

def entity : Mutation → Value
  | field e _ _ _ | relation e _ _ => .text e
  | foreign node => node.member "entity"

/-- The entity of a mutation, which a node is asked for. -/
def askEntity : Mutation → Except Failure Value
  | foreign node => node.get "entity"
  | m => .ok m.entity

def fieldNode (entity field : String) (change operand : Value) : Value :=
  .object [("kind", .text "field"), ("entity", .text entity), ("field", .text field),
    ("operation", .object [("op", change), ("value", operand)])]

def relationNode (entity relation : String) (operation : Value) : Value :=
  .object [("kind", .text "relation"), ("entity", .text entity), ("relation", .text relation),
    ("operation", operation)]

def toValue : Mutation → Value
  | field entity name change operand => fieldNode entity name change.toValue operand
  | relation entity name change => relationNode entity name change.toValue
  | foreign node => node

def ofValue? (v : Value) : Option Mutation := do
  let entity ← (v.member "entity").text?
  let operation := v.member "operation"
  match ← (v.member "kind").text? with
  | "field" =>
    let name ← (v.member "field").text?
    if operation.isNothing then none
    else return .field entity name (.ofValue (operation.member "op")) (operation.member "value")
  | "relation" => return .relation entity (← (v.member "relation").text?) (.ofValue operation)
  | _ => none

def ofValue (v : Value) : Mutation := (ofValue? v).getD (.foreign v)

end Mutation

end EntityQuery
