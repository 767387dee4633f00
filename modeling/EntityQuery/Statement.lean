import EntityQuery.Condition
import EntityQuery.Row
/-! Statements on tables. Names are those of tables and columns, and values are column values. The table
of a statement is read through its own name. -/

namespace EntityQuery

inductive StatementKind where
  | select | insert | update | delete | count | aggregate
  deriving DecidableEq, Repr

namespace StatementKind

def all : List StatementKind := [select, insert, update, delete, count, aggregate]

def tag : StatementKind → String
  | select => "select" | insert => "insert" | update => "update" | delete => "delete" | count => "count"
  | aggregate => "aggregate"

def ofTag? (tag : String) : Option StatementKind := all.find? fun k => k.tag == tag

end StatementKind

/-- The way rows are ordered; a direction of another name is left to who orders them. -/
inductive Direction where
  | ascending | descending
  | foreign (name : Value)
  deriving Repr

inductive NullPlacement where
  | first | last
  | foreign (name : Value)
  deriving Repr

structure OrderTerm where
  column : String
  direction : Direction
  nulls : Option NullPlacement
  deriving Repr

inductive Arithmetic where
  | increment | decrement | multiply | divide
  deriving DecidableEq, Repr

namespace Arithmetic

def all : List Arithmetic := [increment, decrement, multiply, divide]

def tag : Arithmetic → String
  | increment => "increment" | decrement => "decrement" | multiply => "multiply" | divide => "divide"

def ofTag? (tag : String) : Option Arithmetic := all.find? fun a => a.tag == tag

end Arithmetic

/-- What an assignment does with its operand: it sets the column, it does arithmetic on the column's value,
or something of another name. -/
inductive ColumnChange where
  | set
  | arithmetic (operation : Arithmetic)
  | foreign (name : Value)
  deriving Repr

namespace ColumnChange

def toValue : ColumnChange → Value
  | set => .text "set"
  | arithmetic a => .text a.tag
  | foreign v => v

def ofValue (v : Value) : ColumnChange :=
  match v with
  | .text "set" => set
  | v => ((v.text?.bind Arithmetic.ofTag?).map arithmetic).getD (foreign v)

end ColumnChange

structure Assignment where
  column : String
  change : ColumnChange
  operand : Value
  deriving Repr

inductive Aggregation where
  | count | sum | avg | min | max
  deriving DecidableEq, Repr

namespace Aggregation

def all : List Aggregation := [count, sum, avg, min, max]

def tag : Aggregation → String
  | count => "count" | sum => "sum" | avg => "avg" | min => "min" | max => "max"

def ofTag? (tag : String) : Option Aggregation := all.find? fun a => a.tag == tag

end Aggregation

/-- The function of an aggregate: one of the five, or one that the database is left to know. -/
inductive AggregateFunction where
  | of (function : Aggregation)
  | foreign (name : Value)
  deriving Repr

def AggregateFunction.ofValue (v : Value) : AggregateFunction :=
  ((v.text?.bind Aggregation.ofTag?).map of).getD (foreign v)

/-- An aggregate of a column, or of the rows themselves where the column is null. -/
structure Aggregate where
  function : AggregateFunction
  column : Value
  label : String
  deriving Repr

structure Having where
  aggregate : Aggregate
  operator : Comparator
  operand : Value
  deriving Repr

/-- Rows to read. `limit` and `offset` are null where there is no bound. -/
structure Select where
  table : String
  columns : List String
  condition : Condition
  order : List OrderTerm
  limit : Value
  offset : Value

/-- Rows to add; a column that a row leaves out takes its default. -/
structure Insert where
  table : String
  rows : List Row
  returning : List String

structure Update where
  table : String
  assignments : List Assignment
  condition : Condition
  returning : List String

structure Delete where
  table : String
  condition : Condition
  returning : List String

structure Count where
  table : String
  condition : Condition

/-- Groups of rows to read, with bounds as for rows. -/
structure Grouping where
  table : String
  condition : Condition
  columns : List String
  aggregates : List Aggregate
  having : Option Having
  order : List OrderTerm
  limit : Value
  offset : Value

/-- A bound of a statement, null for none. -/
def Value.ofBound (n : Option Number) : Value := (n.map .number).getD .null

/-- What a write did: the number of rows, and the rows it returns. -/
structure Written where
  count : Number
  rows : List Row

end EntityQuery
