import EntityQuery.Proofs.ConditionOutline
import EntityQuery.Proofs.Placeholders
import EntityQuery.Proofs.Results
import EntityQuery.Sql.Text
/-! Statements with their operands told apart from everything else. A statement is written out with each operand where
its node stands, and without its operands it is left with what its text may depend on. -/

namespace EntityQuery

/-- A statement of one of the six kinds. -/
inductive Statement where
  | select (s : Select)
  | insert (s : Insert)
  | update (s : Update)
  | delete (s : Delete)
  | count (s : Count)
  | aggregate (s : Grouping)

namespace Value

/-- A bound that a statement may have: none, or a number. -/
def isBound : Value → Bool
  | .null | .number _ => true
  | _ => false

/-- What stands in place of an operand that is taken away. -/
def blank : Value := .text ""

/-- A path without its steps, which leads to the whole document only where the path does. -/
def blankPath (path : List Value) : List Value := if path.isEmpty then [] else [blank]

end Value

open Value (blank blankPath)

def Comparator.isKnown : Comparator → Bool
  | .of _ => true
  | .foreign _ => false

def ColumnChange.isKnown : ColumnChange → Bool
  | .set | .arithmetic _ => true
  | .foreign _ => false

def AggregateFunction.isKnown : AggregateFunction → Bool
  | .of _ => true
  | .foreign _ => false

namespace JsonTest

def isKnown : JsonTest → Bool
  | .null _ (.foreign _) | .foreign _ => false
  | _ => true

def blank : JsonTest → JsonTest
  | .path steps => .path (blankPath steps)
  | .text kind steps _ => .text kind (blankPath steps) Value.blank
  | .array item steps _ => .array item (blankPath steps) Value.blank
  | .objectKey steps _ => .objectKey (blankPath steps) Value.blank
  | .null steps kind => .null (blankPath steps) kind
  | .foreign test => .foreign test

end JsonTest

namespace Condition

mutual

/-- A condition of known signs, tests and types throughout. -/
def isKnown : Condition → Bool
  | .constant _ | .truthy _ | .text _ _ _ _ | .member _ _ _ | .null _ _ => true
  | .compare _ operator _ => operator.isKnown
  | .json _ test => test.isKnown
  | .all members | .any members => areKnown members
  | .not inner | .related _ _ _ inner _ | .annotated _ inner => isKnown inner
  | .foreign _ => false
termination_by structural c => c

def areKnown : List Condition → Bool
  | [] => true
  | c :: rest => isKnown c && areKnown rest
termination_by structural cs => cs

end

mutual

/-- A condition without its operands, and without the document that it was read from. -/
def blank : Condition → Condition
  | .compare r operator _ => .compare r operator Value.blank
  | .text r kind _ ignoreCase => .text r kind Value.blank ignoreCase
  | .member r values negated => .member r (values.map fun _ => Value.blank) negated
  | .json r test => .json r test.blank
  | .all members => .all (blanks members)
  | .any members => .any (blanks members)
  | .not inner => .not (blank inner)
  | .related table label join inner negated => .related table label join (blank inner) negated
  | .annotated _ reading => blank reading
  | c => c
termination_by structural c => c

def blanks : List Condition → List Condition
  | [] => []
  | c :: rest => blank c :: blanks rest
termination_by structural cs => cs

end

end Condition

namespace Statement

def isKnown : Statement → Bool
  | select s => s.condition.isKnown && s.limit.isBound && s.offset.isBound
  | insert _ => true
  | update s => s.condition.isKnown && s.assignments.all (·.change.isKnown)
  | delete s => s.condition.isKnown
  | count s => s.condition.isKnown
  | aggregate s =>
    s.condition.isKnown && s.aggregates.all (·.function.isKnown) &&
      s.having.all (fun h => h.aggregate.function.isKnown && h.operator.isKnown) && s.limit.isBound && s.offset.isBound

/-- A statement without its operands. Its names, bounds and orders stay, as do the lengths of its lists. -/
def blank : Statement → Statement
  | select s => .select { s with condition := s.condition.blank }
  | insert s => .insert { s with rows := s.rows.map (Record.mapValues fun _ => Value.blank) }
  | update s => .update { s with
      assignments := s.assignments.map fun a => { a with operand := Value.blank }
      condition := s.condition.blank }
  | delete s => .delete { s with condition := s.condition.blank }
  | count s => .count { s with condition := s.condition.blank }
  | aggregate s => .aggregate { s with
      condition := s.condition.blank
      having := s.having.map fun h => { h with operand := Value.blank } }

def render : Statement → Except Failure Sql.Prepared
  | select s => Sql.select s
  | insert s => Sql.insert s
  | update s => Sql.update s
  | delete s => Sql.delete s
  | count s => Sql.count s
  | aggregate s => Sql.grouping s

end Statement

namespace Sql

open Fragment (words name names column)
open Results (valueOr)

section Documents

variable (r : ColumnRef) (path : List Value)

/-- A column with the step to a part of its document. -/
def partMarks (step : String) : List Mark :=
  letters "(" ++ (columnText r).filled ++ letters step ++ [.operand (.array path)] ++ letters "::text[])"

def documentMarks : List Mark := if path.isEmpty then (columnText r).filled else partMarks r path " #> "

def textMarks : List Mark :=
  if path.isEmpty then letters "(" ++ (columnText r).filled ++ letters " #>> '\x7b\x7d')" else partMarks r path " #>> "

end Documents

/-- A value that is bound as JSON text. -/
def jsonMarks (v : Value) : List Mark := [.operand (documentOperand v)] ++ letters "::jsonb"

def jsonTestMarks (r : ColumnRef) : JsonTest → List Mark
  | .path path => documentMarks r path ++ letters " IS NOT NULL"
  | .text kind path part => textMarks r path ++ letters " LIKE " ++ [.operand (patternOperand kind part)]
  | .array .any path operand => documentMarks r path ++ letters " @> " ++ jsonMarks (.array [operand])
  | .array .first path operand => documentMarks r path ++ letters " -> 0 = " ++ jsonMarks operand
  | .array .last path operand => documentMarks r path ++ letters " -> -1 = " ++ jsonMarks operand
  | .objectKey path key => documentMarks r path ++ letters " ? " ++ [.operand key]
  | .null path .db => documentMarks r path ++ letters " IS NULL"
  | .null path .json => documentMarks r path ++ letters " = 'null'::jsonb"
  | .null path .any =>
    letters "(" ++ documentMarks r path ++ letters " IS NULL OR " ++ documentMarks r path ++ letters " = 'null'::jsonb)"
  | .null _ (.foreign _) | .foreign _ => []

def textTestMarks (r : ColumnRef) (kind : TextMatch) (part : Value) (ignoreCase : Bool) : List Mark :=
  match kind, ignoreCase with
  | .equals, false => (columnText r).filled ++ letters " = " ++ [.operand part]
  | _, _ => (columnText r).filled ++ letters (if ignoreCase then " ILIKE " else " LIKE ") ++ [.operand (patternOperand kind part)]

def signText : Comparator → String
  | .of c => " " ++ c.symbol ++ " "
  | .foreign _ => ""

/-- The beginning of a subquery, up to its join. -/
def subqueryHead (table label : String) (join : Join) (negated : Bool) : Fragment :=
  words (if negated then "NOT EXISTS (SELECT 1 FROM " else "EXISTS (SELECT 1 FROM ") ++ .name table ++ words " AS " ++
    .name label ++ words " WHERE " ++ (columnText join.inner ++ words " = " ++ columnText join.outer)

mutual

/-- The text of a condition with its operands in it. -/
def conditionMarks : Condition → List Mark
  | .constant b => letters (if b then "TRUE" else "FALSE")
  | .truthy v => letters (if v.isTruthy then "TRUE" else "FALSE")
  | .compare r operator operand => (columnText r).filled ++ letters (signText operator) ++ [.operand operand]
  | .text r kind part ignoreCase => textTestMarks r kind part ignoreCase
  | .member r values negated =>
    (columnText r).filled ++ letters (if negated then " NOT IN (" else " IN (") ++
      (letters ", ").intercalate (values.map fun v => [.operand v]) ++ letters ")"
  | .null r negated => (columnText r).filled ++ letters (if negated then " IS NOT NULL" else " IS NULL")
  | .json r test => jsonTestMarks r test
  | .all [] => letters "TRUE"
  | .any [] => letters "FALSE"
  | .all members => letters "(" ++ (letters " AND ").intercalate (conditionsMarks members) ++ letters ")"
  | .any members => letters "(" ++ (letters " OR ").intercalate (conditionsMarks members) ++ letters ")"
  | .not inner => letters "NOT (" ++ conditionMarks inner ++ letters ")"
  | .related table label join inner negated =>
    (subqueryHead table label join negated).filled ++ (if inner.isTrue then [] else letters " AND " ++ conditionMarks inner) ++
      letters ")"
  | .annotated _ reading => conditionMarks reading
  | .foreign _ => []
termination_by structural c => c

def conditionsMarks : List Condition → List (List Mark)
  | [] => []
  | c :: rest => conditionMarks c :: conditionsMarks rest
termination_by structural cs => cs

end

def whereMarks (c : Condition) : List Mark := if c.isTrue then [] else letters " WHERE " ++ conditionMarks c

/-- The clauses after the rows that are read; they bind nothing. -/
def boundMarks (limit offset : Value) : List Mark := (valueOr .empty (limitClause limit offset)).filled

def tupleMarks (columns : List String) (row : Row) : List Mark :=
  letters "(" ++ (letters ", ").intercalate (columns.map fun c => match Record.get? row c with
    | some v => [.operand v]
    | none => letters "DEFAULT") ++ letters ")"

def assignmentMarks (a : Assignment) : List Mark :=
  match a.change with
  | .set => (name a.column).filled ++ letters " = " ++ [.operand a.operand]
  | .arithmetic op =>
    (name a.column).filled ++ letters " = " ++ (name a.column).filled ++ letters (" " ++ arithmeticSymbol op ++ " ") ++
      [.operand a.operand]
  | .foreign _ => []

def havingMarks (table : String) : Option Having → List Mark
  | none => []
  | some h =>
    letters " HAVING " ++ (valueOr .empty (aggregate table h.aggregate)).filled ++ letters (signText h.operator) ++
      [.operand h.operand]

section Clauses

variable (s : Grouping)

def groupClause : Fragment :=
  if s.columns.isEmpty then .empty else words " GROUP BY " ++ .join ", " (s.columns.map (column s.table))

/-- The terms of an order; those of an alias are left without the table. -/
def orderOf : Fragment :=
  orderClause (s.order.map fun t => orderTerm (if t.column ∈ s.aggregates.map (·.label) then none else some s.table) t)

end Clauses

/-- The text of a statement with its operands in it. -/
def statementMarks : Statement → List Mark
  | .select s =>
    (words "SELECT " ++ .join ", " (s.columns.map (column s.table)) ++ words " FROM " ++ name s.table).filled ++
      whereMarks s.condition ++ (orderClause (s.order.map (orderTerm (some s.table)))).filled ++ boundMarks s.limit s.offset
  | .insert s =>
    let columns := columnsOf s.rows
    let head := words "INSERT INTO " ++ name s.table
    if columns.isEmpty then (head ++ words " DEFAULT VALUES" ++ returning s.returning).filled
    else (head ++ words " (" ++ names columns ++ words ") VALUES ").filled ++
      (letters ", ").intercalate (s.rows.map (tupleMarks columns)) ++ (returning s.returning).filled
  | .update s =>
    (words "UPDATE " ++ name s.table ++ words " SET ").filled ++ (letters ", ").intercalate (s.assignments.map assignmentMarks) ++
      whereMarks s.condition ++ (returning s.returning).filled
  | .delete s => (words "DELETE FROM " ++ name s.table).filled ++ whereMarks s.condition ++ (returning s.returning).filled
  | .count s => (words "SELECT COUNT(*) AS \"count\" FROM " ++ name s.table).filled ++ whereMarks s.condition
  | .aggregate s =>
    (words "SELECT " ++ .join ", " (valueOr [] (selections s)) ++ words " FROM " ++ name s.table).filled ++
      whereMarks s.condition ++ (groupClause s).filled ++ havingMarks s.table s.having ++ (orderOf s).filled ++
      boundMarks s.limit s.offset

end Sql

end EntityQuery
