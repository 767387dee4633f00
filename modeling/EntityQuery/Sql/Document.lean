import EntityQuery.Sql.Text
import EntityQuery.Statement.Document
/-! Statements given as documents, as SQL text. The parts are read in the order in which they are written, so
the first that is missing or of another kind is the one that is reported. -/

namespace EntityQuery.Sql

def listAt (v : Value) (name : String) : Except Failure (List Value) := do
  match v.member name with
  | .array items => return items
  | w =>
    let _ ← w.get "map"
    throw (.wrongKind s!"statement.{name}.map is not a function")

def namesAt (v : Value) (name : String) : Except Failure (List String) := do
  (← listAt v name).mapM Value.asName

def nameAt (v : Value) (name : String) : Except Failure String := (v.member name).asName

/-- The items of a part that may have no length, and then lists nothing. -/
def listIfLong (v : Value) (name : String) : Except Failure (List Value) := do
  let length ← match v.member name with
    | .array items => pure (Value.nat items.length)
    | .text s => pure (Value.nat s.length)
    | w => w.get "length"
  if ← length.isAboveZero then listAt v name else return []

def returningAt (v : Value) : Except Failure (List String) :=
  if (v.member "returning").hasNoLength then .ok [] else namesAt v "returning"

/-- The condition of a statement, which has to have a text. -/
def conditionAt (v : Value) : Except Failure Condition := do
  let c ← Condition.ofStatement v
  let _ ← whereClause c
  return c

def orderAt (v : Value) : Except Failure (List OrderTerm) := do
  (← listIfLong v "orderBy").mapM fun t => do return .ofColumn (← (← t.get "column").asName) t

def selectAt (v : Value) : Except Failure Select := do
  let columns ← namesAt v "columns"
  let table ← nameAt v "table"
  let condition ← conditionAt v
  return ⟨table, columns, condition, ← orderAt v, v.member "limit", v.member "offset"⟩

/-- Rows are lists of pairs. -/
def rowsAt (v : Value) : Except Failure (List Row) := do return (← listAt v "rows").map Value.pairs

def insertAt (v : Value) : Except Failure Insert := do
  let rows ← rowsAt v
  let table ← nameAt v "table"
  return ⟨table, rows, ← returningAt v⟩

/-- Rows without any column cannot be several. -/
def checkRows (v : Value) : Except Failure Unit := do
  let rows ← rowsAt v
  let _ ← nameAt v "table"
  if 1 < rows.length && (columnsOf rows).isEmpty then throw (.contract .columnless)

/-- An assignment given as a list of column, change and operand. -/
def assignmentOf (v : Value) : Except Failure Assignment := do
  return ⟨← (Value.nth v.items 0).asName, .ofValue (Value.nth v.items 1), Value.nth v.items 2⟩

def updateAt (v : Value) : Except Failure Update := do
  let assignments ← (← listAt v "assignments").mapM assignmentOf
  if assignments.isEmpty then throw (.contract .unassigned)
  let table ← nameAt v "table"
  let condition ← conditionAt v
  return ⟨table, assignments, condition, ← returningAt v⟩

def deleteAt (v : Value) : Except Failure Delete := do
  let table ← nameAt v "table"
  let condition ← conditionAt v
  return ⟨table, condition, ← returningAt v⟩

def countAt (v : Value) : Except Failure Count := do
  let table ← nameAt v "table"
  return ⟨table, ← conditionAt v⟩

def aggregateOf (v : Value) : Except Failure Aggregate := do
  return ⟨.ofValue (← v.get "fn"), v.member "column", ← nameAt v "alias"⟩

def groupingAt (v : Value) : Except Failure Grouping := do
  let columns ← namesAt v "groupBy"
  let aggregates ← (← listAt v "aggregates").mapM aggregateOf
  let table ← nameAt v "table"
  let _ ← aggregates.mapM (aggregate table)
  let condition ← conditionAt v
  let having ← Having.ofValue? (v.member "having")
  return ⟨table, condition, columns, aggregates, having, ← orderAt v, v.member "limit", v.member "offset"⟩

def ofDocument (kind : StatementKind) (v : Value) : Except Failure Prepared := do
  match kind with
  | .select => select (← selectAt v)
  | .insert => do
    checkRows v
    insert (← insertAt v)
  | .update => update (← updateAt v)
  | .delete => delete (← deleteAt v)
  | .count => count (← countAt v)
  | .aggregate => grouping (← groupingAt v)

end EntityQuery.Sql
