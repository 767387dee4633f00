import EntityQuery.Predicate.Document
import EntityQuery.Statement.Document
import EntityQuery.Window
/-! Windows as documents. -/

namespace EntityQuery

namespace OrderSpec

def ofValue (v : Value) : OrderSpec :=
  let nulls := v.member "nulls"
  ⟨v.member "field", .ofValue (v.member "direction"),
    match nulls with
    | .absent => none
    | nulls => some (.ofValue nulls)⟩

/-- The direction as a member, where there is one. -/
def directionMembers (d : Direction) : List (String × Value) :=
  match d with
  | .foreign .absent => []
  | d => [("direction", d.toValue)]

def toValue (o : OrderSpec) : Value :=
  .object ([("field", o.field)] ++ directionMembers o.direction ++ NullPlacement.members o.nulls)

end OrderSpec

namespace Window

/-- The cursor that a value is; one that counts as false is none. -/
def cursorOf (v : Value) : Option Predicate := if v.isTruthy then some (.ofValue v) else none

/-- A bound in a document: none where it is left out. -/
def boundAt (v : Value) (name : String) : Value := (Record.get? v.members name).getD .null

/-- The window that a document describes; its cursor is the document of a predicate. -/
def ofValue (v : Value) : Window :=
  { order := (v.itemsAt "orderBy").map OrderSpec.ofValue
    take := boundAt v "take"
    skip := boundAt v "skip"
    cursor := cursorOf (v.member "cursor")
    distinct := v.itemsAt "distinct" }

end Window

end EntityQuery
