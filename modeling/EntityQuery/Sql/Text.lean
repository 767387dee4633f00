import EntityQuery.Sql.Where
import EntityQuery.Statement
/-! Statements as SQL text with the parameters that it binds. -/

namespace EntityQuery.Sql

open Fragment (words name names column)

/-- SQL text and its parameters, in the order of their placeholders. -/
structure Prepared where
  sql : String
  params : List Value
  deriving Repr

def Fragment.prepare (f : Fragment) : Prepared := ⟨f.text, f.params⟩

def returning (columns : List String) : Fragment :=
  if columns.isEmpty then .empty else words " RETURNING " ++ names columns

/-- A term of an ORDER BY clause; `none` as table orders by an alias of the output. -/
def orderTerm (table : Option String) (t : OrderTerm) : Fragment :=
  let target := match table with
    | some table => column table t.column
    | none => name t.column
  let direction := match t.direction with
    | .descending => " DESC"
    | .ascending | .foreign _ => " ASC"
  let nulls := match t.nulls with
    | some .first => " NULLS FIRST"
    | some .last | some (.foreign _) => " NULLS LAST"
    | none => ""
  target ++ words (direction ++ nulls)

def orderClause (terms : List Fragment) : Fragment :=
  if terms.isEmpty then .empty else words " ORDER BY " ++ .join ", " terms

/-- The LIMIT and OFFSET clauses; an offset is written where it is above zero. -/
def limitClause (limit offset : Value) : Except Failure Fragment := do
  let limitText ← if limit.isNull then pure "" else do pure (" LIMIT " ++ (← limit.inserted))
  let offsetText ←
    if offset.isNull then pure ""
    else if ← offset.isAboveZero then do pure (" OFFSET " ++ (← offset.inserted))
    else pure ""
  return words (limitText ++ offsetText)

def select (s : Select) : Except Failure Prepared := do
  let condition ← whereClause s.condition
  let bounds ← limitClause s.limit s.offset
  return (words "SELECT " ++ .join ", " (s.columns.map (column s.table)) ++ words " FROM " ++ name s.table ++
    condition ++ orderClause (s.order.map (orderTerm (some s.table))) ++ bounds).prepare

/-- The columns of rows in the order of their first appearance. -/
def columnsOf (rows : List Row) : List String := (rows.flatMap Record.names).eraseDups

/-- The values of a row under the columns of an insert; a column it leaves out takes its default. -/
def tuple (columns : List String) (row : Row) : Fragment :=
  words "(" ++ .join ", " (columns.map fun c => match Record.get? row c with
    | some v => .bind v
    | none => words "DEFAULT") ++ words ")"

def insert (s : Insert) : Except Failure Prepared :=
  let columns := columnsOf s.rows
  let head := words "INSERT INTO " ++ name s.table
  if columns.isEmpty then
    if 1 < s.rows.length then .error (.contract .columnless)
    else .ok (head ++ words " DEFAULT VALUES" ++ returning s.returning).prepare
  else
    .ok (head ++ words " (" ++ names columns ++ words ") VALUES " ++ .join ", " (s.rows.map (tuple columns)) ++
      returning s.returning).prepare

def arithmeticSymbol : Arithmetic → String
  | .increment => "+" | .decrement => "-" | .multiply => "*" | .divide => "/"

/-- The sign of a change of another name: what every object has under that name. -/
def foreignSign (name : Value) : Except Failure String := do
  let key ← name.display
  match Arithmetic.ofTag? key with
  | some op => return arithmeticSymbol op
  | none => (Value.inherited key).inserted

def assignment (a : Assignment) : Except Failure Fragment := do
  let target := name a.column
  match a.change with
  | .set => return target ++ words " = " ++ .bind a.operand
  | .arithmetic op =>
    return target ++ words " = " ++ target ++ words (" " ++ arithmeticSymbol op ++ " ") ++ .bind a.operand
  | .foreign v =>
    return target ++ words " = " ++ target ++ words (" " ++ (← foreignSign v) ++ " ") ++ .bind a.operand

def update (s : Update) : Except Failure Prepared := do
  let assignments ← s.assignments.mapM assignment
  if s.assignments.isEmpty then throw (.contract .unassigned)
  let condition ← whereClause s.condition
  return (words "UPDATE " ++ name s.table ++ words " SET " ++ .join ", " assignments ++ condition ++
    returning s.returning).prepare

def delete (s : Delete) : Except Failure Prepared := do
  let condition ← whereClause s.condition
  return (words "DELETE FROM " ++ name s.table ++ condition ++ returning s.returning).prepare

def count (s : Count) : Except Failure Prepared := do
  let condition ← whereClause s.condition
  return (words "SELECT COUNT(*) AS \"count\" FROM " ++ name s.table ++ condition).prepare

def functionName : Aggregation → String
  | .count => "COUNT" | .sum => "SUM" | .avg => "AVG" | .min => "MIN" | .max => "MAX"

/-- The name of a function; one that is not known is written in upper case. -/
def functionText (f : AggregateFunction) : Except Failure String := do
  match f with
  | .of f => return functionName f
  | .foreign (.text s) => return Text.toUpper s
  | .foreign v =>
    let _ ← v.get "toUpperCase"
    throw (.wrongKind "selection.fn.toUpperCase is not a function")

/-- What an aggregate is about: a column, or the rows. -/
def argument (table : String) (a : Aggregate) : Except Failure Fragment := do
  match a.column with
  | .null => return words "*"
  | c => return column table (← c.asName)

def aggregate (table : String) (a : Aggregate) : Except Failure Fragment := do
  let argument ← argument table a
  return words ((← functionText a.function) ++ "(") ++ argument ++ words ")"

def havingClause (table : String) (h : Option Having) : Except Failure Fragment := do
  match h with
  | none => return .empty
  | some h => return words " HAVING " ++ (← aggregate table h.aggregate) ++ words (← sign h.operator) ++ .bind h.operand

def selections (s : Grouping) : Except Failure (List Fragment) := do
  let aggregates ← s.aggregates.mapM fun a => do
    return (← aggregate s.table a) ++ words " AS " ++ name a.label
  return (s.columns.map fun c => column s.table c ++ words " AS " ++ name c) ++ aggregates

def grouping (s : Grouping) : Except Failure Prepared := do
  let selections ← selections s
  let condition ← whereClause s.condition
  let groups : Fragment :=
    if s.columns.isEmpty then .empty else words " GROUP BY " ++ .join ", " (s.columns.map (column s.table))
  let having ← havingClause s.table s.having
  let bounds ← limitClause s.limit s.offset
  let aliases := s.aggregates.map (·.label)
  let terms := s.order.map fun t => orderTerm (if t.column ∈ aliases then none else some s.table) t
  return (words "SELECT " ++ .join ", " selections ++ words " FROM " ++ name s.table ++ condition ++ groups ++
    having ++ orderClause terms ++ bounds).prepare

end EntityQuery.Sql
