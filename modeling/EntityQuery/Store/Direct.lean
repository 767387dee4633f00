import EntityQuery.Statement.Document
import EntityQuery.Store.Groups
/-! Statements given as documents, on the store. A part is read when it is needed: the order once there are two
rows to compare, columns once there is a row to show, assignments once there is a row to change. Any value may
name a column, by its text. -/

namespace EntityQuery.Store

def shownTable (v : Value) : Except Failure String := do (← v.get "table").inserted

/-- The table of a statement, which only a text can name. -/
def tableAt (v : Value) : Except Failure String := do
  match v.member "table" with
  | .text table => return table
  | w => throw (.store (.unknownTable (← w.inserted)))

def columnsAt (v : Value) (name : String) : Except Failure (List String) := do
  (← (v.member name).spread s!"statement.{name}").mapM Value.display

def orderTermOf (v : Value) : Except Failure OrderTerm := do return .ofColumn (← (← v.get "column").display) v

/-- The order of two rows under terms that are read when they are reached. -/
def orderAsRead (a b : Row) : List Value → Except Failure Ordering
  | [] => .ok .eq
  | t :: ts => do
    let o ← rowOrder a b [← orderTermOf t]
    if o == .eq then orderAsRead a b ts else return o

def sortAsRead (terms : Value) (rows : List Row) : Except Failure (List Row) := do
  if rows.length < 2 then return rows
  let terms ← terms.spread "terms"
  match terms.mapM orderTermOf with
  | .ok terms => sortRows terms rows
  | .error _ => Sorting.sort (fun a b => do return (← orderAsRead a b terms) == .lt) rows

/-- The rows of a page of the rows in the order that a statement asks for. -/
def pageAsRead (v : Value) (rows : List Row) : Except Failure (List Row) := do
  page (v.member "limit") (v.member "offset") (← sortAsRead (v.member "orderBy") rows)

def projectAsRead (fields : List Field) (v : Value) (name : String) (rows : List Row) :
    Except Failure (List Row) := do
  if rows.isEmpty then return []
  rows.mapM (project fields (← columnsAt v name))

def writtenAsRead (v : Value) : Answering := fun fields rows => do
  let _ ← (v.member "returning").get "length"
  if (v.member "returning").hasNoLength then return ⟨.integer rows.length, []⟩
  return ⟨.integer rows.length, ← projectAsRead fields v "returning" rows⟩

def selectDocument (s : Store) (c : Condition) (v : Value) : Except Failure (List Row) := do
  let table ← tableAt v
  let fields ← s.fieldsOf table
  projectAsRead fields v "columns" (← pageAsRead v (← s.matching table c))

def insertDocument (s : Store) (v : Value) : Except Failure Written × Store :=
  let target : Except Failure String := do
    let table ← tableAt v
    let _ ← s.fieldsOf table
    let _ ← (v.member "rows").spread "statement.rows"
    return table
  match target with
  | .error e => (.error e, s)
  | .ok table => s.insertInto table ((v.itemsAt "rows").map Value.pairs) (writtenAsRead v)

/-- An assignment given as a list of column, change and operand. -/
def assignmentOf (v : Value) : Except Failure Assignment := do
  return ⟨← (Value.nth v.items 0).inserted, .ofValue (Value.nth v.items 1), Value.nth v.items 2⟩

/-- The assignments of a statement, none as long as there is no row to change. -/
def assignmentsFor (rows : List (Bool × Row)) (v : Value) : Except Failure (List Assignment) := do
  if !rows.any (·.1) then return []
  (← (v.member "assignments").spread "statement.assignments").mapM assignmentOf

def updateDocument (s : Store) (c : Condition) (v : Value) : Except Failure Written × Store :=
  let found : Except Failure (String × List Field × List (Bool × Row) × List Assignment) := do
    let table ← tableAt v
    let (fields, rows) ← s.flagged table c
    return (table, fields, rows, ← assignmentsFor rows v)
  match found with
  | .error e => (.error e, s)
  | .ok (table, fields, rows, assignments) => s.updateFlagged table fields assignments rows (writtenAsRead v)

def deleteDocument (s : Store) (c : Condition) (v : Value) : Except Failure Written × Store :=
  match tableAt v with
  | .error e => (.error e, s)
  | .ok table => s.deleteFrom table c (writtenAsRead v)

/-- The groups of rows. Columns without length make one group of all rows; without rows, columns make none. -/
def groupsAsRead (v : Value) (rows : List Row) : Except Failure (List (List Row)) := do
  let columns := v.member "groupBy"
  let _ ← columns.get "length"
  if columns.hasNoLength then return [rows]
  if rows.isEmpty then return []
  if !columns.isList then throw (.wrongKind "statement.groupBy.map is not a function")
  groupRows (← columnsAt v "groupBy") rows

def aggregateAsRead (v : Value) : Except Failure Aggregate := do
  return ⟨.ofValue (v.member "fn"), v.member "column", ← (← v.get "alias").display⟩

/-- What the groups of a statement are turned into, read once there is a group. -/
def outputsAsRead (v : Value) (table : String) (c : Condition) (groups : List (List Row)) :
    Except Failure (List Row) := do
  if groups.isEmpty then return []
  let columns ← columnsAt v "groupBy"
  let aggregates ← (← (v.member "aggregates").spread "statement.aggregates").mapM aggregateAsRead
  let having ← Having.ofValue? (v.member "having")
  groupOutputs ⟨table, c, columns, aggregates, having, [], .null, .null⟩ groups

def groupDocument (s : Store) (c : Condition) (v : Value) : Except Failure (List Row) := do
  let table ← tableAt v
  let groups ← groupsAsRead v (← s.matching table c)
  pageAsRead v (← outputsAsRead v table c groups)

/-- The answer of a statement of a kind, and the store after it. -/
def answerDocument (s : Store) (kind : StatementKind) (c : Condition) (v : Value) : Except Failure Value × Store :=
  let rows (r : Except Failure (List Row)) : Except Failure Value := r.map fun rows => .array (rows.map .object)
  let change (r : Except Failure Written × Store) : Except Failure Value × Store := (r.1.map Written.toValue, r.2)
  match kind with
  | .select => (rows (s.selectDocument c v), s)
  | .insert => change (s.insertDocument v)
  | .update => change (s.updateDocument c v)
  | .delete => change (s.deleteDocument c v)
  | .count => (do return .nat (← s.matching (← tableAt v) c).length, s)
  | .aggregate => (rows (s.groupDocument c v), s)

end EntityQuery.Store
