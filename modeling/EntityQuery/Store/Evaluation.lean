import EntityQuery.Condition.Document
import EntityQuery.Store.Document
import EntityQuery.Store.Order
/-! Evaluating conditions on stored rows, with the three truth values of SQL. -/

namespace EntityQuery.Store

abbrev Tables := List (String × List Row)

def tableRows (tables : Tables) (table : String) : Except Failure (List Row) :=
  match Record.get? tables table with
  | some rows => .ok rows
  | none => .error (.store (.unknownTable table))

/-- The rows that a condition can read, each under its table or alias; inner ones come first. -/
abbrev Scope := List (String × Row)

def columnValue (scope : Scope) (r : ColumnRef) : Except Failure Value :=
  match Record.get? scope r.table with
  | some row => .ok (Row.value row r.column)
  | none => .error (.store (.unknownAlias r.table))

def compareTruth (operator : Comparator) (v operand : Value) : Except Failure Truth := do
  if v.isNothing || operand.isNothing then return .unknown
  let o ← order v operand
  match operator with
  | .of c => return .known (holds c o)
  | .foreign _ => return .beside false

def textTruth (kind : TextMatch) (part : Value) (ignoreCase : Bool) (v : Value) : Except Failure Truth :=
  match v with
  | .text s => textMatches kind ignoreCase part s
  | _ => .ok .unknown

/-- Is the value one of a list? Missing values of the list are passed over. -/
def memberTruth (v : Value) (values : List Value) (negated : Bool) : Except Failure Truth :=
  if v.isNothing then .ok .unknown
  else do
    let found ← values.anyM fun candidate => if candidate.isNothing then .ok false else same v candidate
    return .known (found != negated)

/-- The truth of a condition on one column; other conditions are no truth value here. -/
def columnTruth (v : Value) (c : Condition) : Except Failure Truth :=
  match c with
  | .compare _ operator operand => compareTruth operator v operand
  | .text _ kind part ignoreCase => textTruth kind part ignoreCase v
  | .member _ values negated => memberTruth v values negated
  | .null _ negated => .ok (.known (v.isNothing != negated))
  | .json _ test => do documentTruth (← documentOf v) test
  | _ => .ok (.beside false)

/-- The column that a document refers to. Its table has to be one that can be read, and any value may name
the column. -/
def looseColumn (scope : Scope) (column : Value) : Except Failure ColumnRef := do
  let table ← column.get "table"
  match table.text?.filter (Record.has scope) with
  | some table => return ⟨table, ← (column.member "column").display⟩
  | none => throw (.store (.unknownAlias (← table.inserted)))

def columnTypes : List String := ["compare", "text", "in", "null", "json"]

def outerTypes : List String := ["all", "any", "exists"]

/-- The truth of a document that reads as no condition. One on a column may still be followed; one over
other conditions may not; and one of no known type is no truth value. -/
def foreignTruth (scope : Scope) (node : Value) : Except Failure Truth := do
  let type := (← node.get "type").textOr
  if columnTypes.contains type then
    let r ← looseColumn scope (node.member "column")
    let v ← columnValue scope r
    match Condition.onColumn? node r with
    | some c => columnTruth v c
    | none => if v.isNothing then return .unknown else throw (.wrongKind "condition.values.some is not a function")
  else if outerTypes.contains type then throw (.wrongKind "The condition lacks a part")
  else return .beside false

/-- The truth of a constant that is no truth value; null is unknown. -/
def constantTruth (v : Value) : Truth :=
  match v with
  | .null => .unknown
  | v => .beside v.isTruthy

mutual

/-- The truth of a condition. Lists are evaluated to their end, so that a failing member always shows. -/
def evaluate (tables : Tables) (scope : Scope) (c : Condition) : Except Failure Truth :=
  match c with
  | .constant b => .ok (.known b)
  | .truthy v => .ok (constantTruth v)
  | .compare r operator operand => do columnTruth (← columnValue scope r) (.compare r operator operand)
  | .text r kind part ignoreCase => do columnTruth (← columnValue scope r) (.text r kind part ignoreCase)
  | .member r values negated => do columnTruth (← columnValue scope r) (.member r values negated)
  | .null r negated => do columnTruth (← columnValue scope r) (.null r negated)
  | .json r test => do columnTruth (← columnValue scope r) (.json r test)
  | .all members => do return Truth.all (← evaluateAll tables scope members)
  | .any members => do return Truth.any (← evaluateAll tables scope members)
  | .not inner => do return (← evaluate tables scope inner).negate
  | .related table label join inner negated => do
    let outer ← columnValue scope join.outer
    if outer.isNothing then return .known negated
    else
      let found ← (← tableRows tables table).anyM fun row =>
        let v := Row.value row join.inner.column
        if v.isNothing then .ok false
        else do
          if ← same v outer then return (← evaluate tables ((label, row) :: scope) inner).isTrue
          else return false
      return .known (found != negated)
  | .annotated _ reading => evaluate tables scope reading
  | .foreign node => foreignTruth scope node
termination_by structural c

def evaluateAll (tables : Tables) (scope : Scope) (members : List Condition) : Except Failure (List Truth) :=
  match members with
  | [] => .ok []
  | c :: rest => do
    let t ← evaluate tables scope c
    let ts ← evaluateAll tables scope rest
    return t :: ts
termination_by structural members

end

def matchesRow (tables : Tables) (table : String) (c : Condition) (row : Row) : Except Failure Bool := do
  return (← evaluate tables [(table, row)] c).isTrue

end EntityQuery.Store
