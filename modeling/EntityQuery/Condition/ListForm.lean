import EntityQuery.Condition.Document
/-! Conditions in list form: a list that begins with the name of a node and goes on with its parts. The
names `all`, `any`, `not` and `inList` simplify what they build; `rawAll`, `rawAny`, `rawNot` and `in`
build their node as it is. Parts stand in the document of a node as they are given. -/

namespace EntityQuery.Condition

def columnDocument (pair : Value) : Value :=
  .object [("table", Value.nth pair.items 0), ("column", Value.nth pair.items 1)]

/-- Membership in a list: nothing is in the empty one. -/
def membership (column values : Value) (negated : Value) : Except Failure Condition := do
  let _ ← values.get "length"
  if values.hasNoLength then return .constant negated.isTruthy
  else return .ofDocument (node "in" [("column", columnDocument column), ("values", values), ("negated", negated)])

def flagOf (rest : List Value) : Value :=
  match Value.nth rest 0 with
  | .absent => .bool false
  | v => v

/-- A node without nested conditions. -/
def ofParts (name : String) (parts : List Value) : Except Failure Condition :=
  match name, parts with
  | "TRUE", _ => .ok (.constant true)
  | "FALSE", _ => .ok (.constant false)
  | "const", [v] => .ok (.ofDocument (node "constant" [("value", v)]))
  | "compare", [column, operator, operand] =>
    .ok (.ofDocument (node "compare"
      [("column", columnDocument column), ("operator", operator), ("value", operand)]))
  | "text", [column, kind, part, ignoreCase] =>
    .ok (.ofDocument (node "text"
      [("column", columnDocument column), ("match", kind), ("value", part), ("caseInsensitive", ignoreCase)]))
  | "in", [column, values, negated] =>
    .ok (.ofDocument (node "in" [("column", columnDocument column), ("values", values), ("negated", negated)]))
  | "inList", column :: values :: rest => membership column values (flagOf rest)
  | "null", column :: rest =>
    .ok (.ofDocument (node "null" [("column", columnDocument column), ("negated", flagOf rest)]))
  | "json", [column, test] =>
    .ok (.ofDocument (node "json" [("column", columnDocument column), ("test", test)]))
  | "raw", [v] => .ok (.ofDocument v)
  | _, _ => .error (.wrongKind "The list describes no condition")

def checkNode (c : Condition) : Except Failure Unit := do
  let _ ← c.toValue.get "type"

def overMany (name : String) (members : List Condition) : Except Failure Condition := do
  match name with
  | "rawAll" => return .all members
  | "rawAny" => return .any members
  | _ =>
    members.forM checkNode
    return if name = "all" then .conjunction members else .disjunction members

def overOne (name : String) (inner : Condition) : Except Failure Condition := do
  if name = "rawNot" then return .not inner
  else
    checkNode inner
    return inner.negation

/-- A subquery; `parts` are the parts beside its condition. -/
def subquery (parts : Value) (inner : Condition) : Condition :=
  let document := node "exists"
    [("table", parts.member "table"), ("alias", parts.member "alias"),
      ("join", .object [("outer", columnDocument (parts.member "outer")), ("inner", columnDocument (parts.member "inner"))]),
      ("condition", inner.toValue), ("negated", flagOf [parts.member "negated"])]
  .annotated document ((assemble? document none inner).getD (.foreign document))

def isMemberNode (name : String) : Bool := ["all", "any", "rawAll", "rawAny"].contains name

def isNegation (name : String) : Bool := ["not", "rawNot"].contains name

mutual

def ofListForm : Value → Except Failure Condition
  | .array [.text name, .array parts] =>
    if isMemberNode name then do overMany name (← ofListForms parts)
    else if isNegation name then do overOne name (← ofListForm (.array parts))
    else ofParts name [.array parts]
  | .array [.text name, .object parts, .array inner] =>
    if name = "exists" then do return subquery (.object parts) (← ofListForm (.array inner))
    else ofParts name [.object parts, .array inner]
  | .array (.text name :: parts) => ofParts name parts
  | _ => .error (.wrongKind "The list describes no condition")
termination_by v => sizeOf v

def ofListForms : List Value → Except Failure (List Condition)
  | [] => .ok []
  | v :: rest => do return (← ofListForm v) :: (← ofListForms rest)
termination_by vs => sizeOf vs

end

end EntityQuery.Condition
