import EntityQuery.Condition.ListForm
import EntityQuery.Statement
/-! The parts of statements as documents: objects whose conditions are in list form, whose rows are lists of
pairs and whose assignments are lists of a column, a change and an operand. -/

namespace EntityQuery

namespace Direction

def toValue : Direction → Value
  | ascending => .text "asc"
  | descending => .text "desc"
  | foreign v => v

def ofValue : Value → Direction
  | .text "asc" => ascending
  | .text "desc" => descending
  | v => foreign v

end Direction

namespace NullPlacement

def toValue : NullPlacement → Value
  | first => .text "first"
  | last => .text "last"
  | foreign v => v

def ofValue : Value → NullPlacement
  | .text "first" => first
  | .text "last" => last
  | v => foreign v

/-- The placement that a value asks for; a value that counts as false asks for none. -/
def asked? (v : Value) : Option NullPlacement := if v.isTruthy then some (ofValue v) else none

def members (p : Option NullPlacement) : List (String × Value) :=
  match p with
  | some p => [("nulls", p.toValue)]
  | none => []

end NullPlacement

namespace OrderTerm

def ofColumn (column : String) (v : Value) : OrderTerm :=
  ⟨column, .ofValue (v.member "direction"), NullPlacement.asked? (v.member "nulls")⟩

def toValue (t : OrderTerm) : Value :=
  .object ([("column", .text t.column), ("direction", t.direction.toValue)] ++ NullPlacement.members t.nulls)

end OrderTerm

/-- A comparison of groups, none for a value that counts as false. Its aggregate needs no name. -/
def Having.ofValue? (v : Value) : Except Failure (Option Having) := do
  if !v.isTruthy then return none
  let aggregate := v.member "aggregate"
  return some ⟨⟨.ofValue (← aggregate.get "fn"), aggregate.member "column", aggregate.textAt "alias"⟩,
    .ofValue (v.member "operator"), v.member "value"⟩

/-- The condition of a statement; what is missing is no condition. -/
def Condition.ofStatement (v : Value) : Except Failure Condition :=
  let given := v.member "where"
  if given.isNothing then .ok (.foreign given) else ofListForm given

def Written.toValue (w : Written) : Value :=
  .object [("rowCount", .number w.count), ("rows", .array (w.rows.map .object))]

end EntityQuery
