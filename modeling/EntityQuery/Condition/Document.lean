import EntityQuery.Condition
import EntityQuery.Value.Display
import EntityQuery.Value.Reading
/-! Conditions as documents: each node an object that names its type and holds its members. Written
conditions are read back; a document of no known form is kept as it is. -/

namespace EntityQuery

namespace ColumnRef

def toValue (r : ColumnRef) : Value := .object [("table", .text r.table), ("column", .text r.column)]

def ofValue? (v : Value) : Option ColumnRef := do
  return ⟨← (v.member "table").text?, ← (v.member "column").text?⟩

end ColumnRef

namespace JsonTest

def arrayTag : ArrayItem → String
  | .any => "arrayContains" | .first => "arrayStartsWith" | .last => "arrayEndsWith"

def toValue : JsonTest → Value
  | .path steps => .object [("kind", .text "path"), ("path", .array steps)]
  | .text kind steps part =>
    .object [("kind", .text "string"), ("match", kind.toValue), ("path", .array steps), ("value", part)]
  | .array item steps operand =>
    .object [("kind", .text (arrayTag item)), ("path", .array steps), ("value", operand)]
  | .objectKey steps key => .object [("kind", .text "objectKey"), ("path", .array steps), ("key", key)]
  | .null steps kind => .object [("kind", .text "null"), ("path", .array steps), ("nullKind", kind.toValue)]
  | .foreign v => v

/-- A test with something else as its path. -/
def withPath (test : JsonTest) (path : Value) : Value := .object (Record.put test.toValue.members "path" path)

/-- The test of the kind that an object names, at given steps. -/
def ofKind? (steps : List Value) (v : Value) : Option JsonTest := do
  match ← (v.member "kind").text? with
  | "path" => return .path steps
  | "string" => return .text (.ofValue (v.member "match")) steps (v.member "value")
  | "arrayContains" => return .array .any steps (v.member "value")
  | "arrayStartsWith" => return .array .first steps (v.member "value")
  | "arrayEndsWith" => return .array .last steps (v.member "value")
  | "objectKey" => return .objectKey steps (v.member "key")
  | "null" => return .null steps (.ofValue (v.member "nullKind"))
  | _ => none

/-- The test that an object describes: its kind, with a path that can be followed. -/
def ofValue? (v : Value) : Option JsonTest := do ofKind? (← (v.member "path").sequence?) v

def ofValue (v : Value) : JsonTest := (ofValue? v).getD (.foreign v)

end JsonTest

namespace Condition

def node (type : String) (members : List (String × Value)) : Value := .object (("type", .text type) :: members)

mutual

def toValue : Condition → Value
  | .constant b => node "constant" [("value", .bool b)]
  | .truthy v => node "constant" [("value", v)]
  | .compare column operator operand =>
    node "compare" [("column", column.toValue), ("operator", operator.toValue), ("value", operand)]
  | .text column kind part ignoreCase =>
    node "text" [("column", column.toValue), ("match", kind.toValue), ("value", part),
      ("caseInsensitive", .bool ignoreCase)]
  | .member column values negated =>
    node "in" [("column", column.toValue), ("values", .array values), ("negated", .bool negated)]
  | .null column negated => node "null" [("column", column.toValue), ("negated", .bool negated)]
  | .json column test => node "json" [("column", column.toValue), ("test", test.toValue)]
  | .all members => node "all" [("conditions", .array (toValues members))]
  | .any members => node "any" [("conditions", .array (toValues members))]
  | .not inner => node "not" [("condition", toValue inner)]
  | .related table label join inner negated =>
    node "exists" [("table", .text table), ("alias", .text label),
      ("join", .object [("outer", join.outer.toValue), ("inner", join.inner.toValue)]),
      ("condition", toValue inner), ("negated", .bool negated)]
  | .annotated document _ => document
  | .foreign v => v
termination_by structural c => c

def toValues : List Condition → List Value
  | [] => []
  | c :: rest => toValue c :: toValues rest
termination_by structural cs => cs

end

def joinOf? (v : Value) : Option Join := do
  return ⟨← ColumnRef.ofValue? (v.member "outer"), ← ColumnRef.ofValue? (v.member "inner")⟩

/-- A condition on one column as a document describes it, the column being read already. -/
def onColumn? (node : Value) (column : ColumnRef) : Option Condition :=
  match node.member "type" with
  | .text "compare" => some (.compare column (.ofValue (node.member "operator")) (node.member "value"))
  | .text "text" =>
    some (.text column (.ofValue (node.member "match")) (node.member "value")
      (node.member "caseInsensitive").isTruthy)
  | .text "in" =>
    match node.member "values" with
    | .array values => some (.member column values (node.member "negated").isTruthy)
    | _ => none
  | .text "null" => some (.null column (node.member "negated").isTruthy)
  | .text "json" => some (.json column (.ofValue (node.member "test")))
  | _ => none

/-- A condition as a document describes it, the conditions under it being read already. -/
def assemble? (node : Value) (members : Option (List Condition)) (inner : Condition) : Option Condition :=
  match node.member "type" with
  | .text "constant" =>
    match node.member "value" with
    | .bool b => some (.constant b)
    | v => some (.truthy v)
  | .text "all" => members.map .all
  | .text "any" => members.map .any
  | .text "not" => some (.not inner)
  | .text "exists" => do
    return .related (← (node.member "table").text?) (← (node.member "alias").text?) (← joinOf? (node.member "join"))
      inner (node.member "negated").isTruthy
  | _ => do onColumn? node (← ColumnRef.ofValue? (node.member "column"))

mutual

def ofValue : Value → Condition
  | .object members =>
    (assemble? (.object members) (ofMembers members) (ofInner members)).getD (.foreign (.object members))
  | v => .foreign v
termination_by structural v => v

def ofMembers : List (String × Value) → Option (List Condition)
  | [] => none
  | (name, v) :: rest => if name = "conditions" then ofList v else ofMembers rest
termination_by structural ms => ms

def ofInner : List (String × Value) → Condition
  | [] => .foreign .absent
  | (name, v) :: rest => if name = "condition" then ofValue v else ofInner rest
termination_by structural ms => ms

def ofList : Value → Option (List Condition)
  | .array items => some (ofItems items)
  | _ => none
termination_by structural v => v

def ofItems : List Value → List Condition
  | [] => []
  | v :: rest => ofValue v :: ofItems rest
termination_by structural vs => vs

end

/-- The condition that a document describes, with the document. -/
def ofDocument (v : Value) : Condition := .annotated v (ofValue v)

end Condition

end EntityQuery
