import EntityQuery.Schema
import EntityQuery.Slice
import EntityQuery.Store.Evaluation
/-! Tables in memory: the rows of every table of a schema, the sequences of generated keys, and what
statements do to them. A store keeps a journal of its statements and counts its transactions. -/

namespace EntityQuery

/-- Tables by name. `fields` are the columns of each table; `sequences` hold the last generated key. -/
structure Store where
  fields : List (String × List Field)
  tables : Store.Tables
  sequences : List (String × Int)
  journal : List (StatementKind × String)
  inTransaction : Bool
  commits : Nat
  rollbacks : Nat

namespace Store

/-- Write an entry: a present name keeps its place, a new one comes last. -/
def putEntry {α : Type} (entries : List (String × α)) (name : String) (value : α) : List (String × α) :=
  if (Record.get? entries name).isSome then Record.replace entries name value else entries ++ [(name, value)]

/-- The empty store of a schema. Of two entities with one table, the later one says its columns. -/
def ofSchema (s : Schema) : Store :=
  let fields := s.entities.foldl (fun acc e => putEntry acc e.table e.fields) []
  ⟨fields, fields.map fun (table, _) => (table, []), [], [], false, 0, 0⟩

/-- The columns of a table, which has to exist. -/
def fieldsOf (s : Store) (table : String) : Except Failure (List Field) :=
  match Record.get? s.fields table with
  | some fields => .ok fields
  | none => .error (.store (.unknownTable table))

def rowsOf (s : Store) (table : String) : Except Failure (List Row) := tableRows s.tables table

def setRows (s : Store) (table : String) (rows : List Row) : Store :=
  { s with tables := Record.replace s.tables table rows }

def record (s : Store) (kind : StatementKind) (table : String) : Store :=
  { s with journal := s.journal ++ [(kind, table)] }

/-- The field of a column; of two with one column, the later one. -/
def fieldAt? (fields : List Field) (column : String) : Option Field :=
  fields.reverse.find? fun f => f.column == column

/-- A stored value as a statement returns it: JSON columns come back as documents. -/
def returned (fields : List Field) (column : String) (v : Value) : Except Failure Value :=
  match v with
  | .text s =>
    if (fieldAt? fields column).any fun f => f.type == .json then
      match Json.read? s with
      | some j => .ok (Value.ofJson j)
      | none => .error (.wrongSyntax "Unexpected JSON text")
    else .ok (.text s)
  | v => .ok v.orNull

def project (fields : List Field) (columns : List String) (row : Row) : Except Failure Row :=
  columns.foldlM (fun out c => do return out.put c (← returned fields c (Row.value row c))) []

def returning (fields : List Field) (columns : List String) (rows : List Row) : Except Failure (List Row) :=
  if columns.isEmpty then .ok [] else rows.mapM (project fields columns)

def contents (s : Store) (table : String) : Except Failure (List Row) := do
  let fields ← s.fieldsOf table
  (← s.rowsOf table).mapM (project fields (fields.map (·.column)))

def matching (s : Store) (table : String) (c : Condition) : Except Failure (List Row) := do
  (← s.rowsOf table).filterM (matchesRow s.tables table c)

/-- The rows from an offset on, up to a limit. -/
def page (limit offset : Value) (rows : List Row) : Except Failure (List Row) := do
  let start := if offset.isNothing then .int 0 else offset
  if limit.isNull then return Slice.dropTo (← start.plainNumber) rows
  let stop ← start.plus limit
  return Slice.between (← start.plainNumber) (← stop.plainNumber) rows

def selectRows (s : Store) (q : Select) : Except Failure (List Row) := do
  let rows ← s.matching q.table q.condition
  let sorted ← sortRows q.order rows
  let fields ← s.fieldsOf q.table
  (← page q.limit q.offset sorted).mapM (project fields q.columns)

def clashes (row other : Row) (f : Field) : Except Failure Bool :=
  let v := Row.value row f.column
  let w := Row.value other f.column
  if v.isNothing || w.isNothing then .ok false else same w v

def constraintName (table : String) (f : Field) : String := s!"{table}_{f.column}_key"

def checkUnique (table : String) (fields : List Field) (row : Row) (others : List Row) : Except Failure Unit :=
  (fields.filter fun f => f.primaryKey || f.unique).forM fun f => do
    if ← others.anyM fun other => clashes row other f then throw (.duplicate (constraintName table f))

/-- The integer of a stored key, if it is a number at all. -/
def storedInt? (v : Value) : Except Failure (Option Int) :=
  match v with
  | .integer n => .ok (some n)
  | .number n =>
    match n.int? with
    | some i => .ok (some i)
    | none => .error (.wrongRange "The number cannot be converted to an integer")
  | _ => .ok none

/-- The key after a sequence and after every stored key of a column. -/
def nextKey (last : Int) (column : String) (rows : List Row) : Except Failure Int :=
  rows.foldlM (fun next row => do
    match ← storedInt? (Row.value row column) with
    | some n => return if next ≤ n then n + 1 else next
    | none => return next) (last + 1)

/-- The value that a generated column takes in a new row. Only integers are generated. -/
def generate (s : Store) (table : String) (f : Field) : Except Failure (Value × Store) :=
  match f.type with
  | .integer width => do
    let last := (Record.get? s.sequences table).getD 0
    let next ← nextKey last f.column (← s.rowsOf table)
    let v : Value := if width.isWide then .integer next else .number (Number.ofInt next)
    return (v, { s with sequences := putEntry s.sequences table next })
  | _ => .ok (.null, s)

/-- Complete the values of a new row, column by column. -/
def fill (table : String) (values : Row) : List Field → Row → Store → Except Failure Row × Store
  | [], row, s => (.ok row, s)
  | f :: rest, row, s =>
    match Record.get? values f.column with
    | some v => fill table values rest (row.put f.column v) s
    | none =>
      if f.generated then
        match s.generate table f with
        | .ok (v, s) => fill table values rest (row.put f.column v) s
        | .error e => (.error e, s)
      else fill table values rest (row.put f.column .null) s

/-- The new rows of an insert. Sequences move on even if a later row is refused. -/
def newRows (table : String) (fields : List Field) (old : List Row) :
    List Row → List Row → Store → Except Failure (List Row) × Store
  | [], made, s => (.ok made, s)
  | values :: rest, made, s =>
    match fill table values fields [] s with
    | (.error e, s) => (.error e, s)
    | (.ok row, s) =>
      match checkUnique table fields row (old ++ made) with
      | .error e => (.error e, s)
      | .ok () => newRows table fields old rest (made ++ [row]) s

def written (fields : List Field) (columns : List String) (rows : List Row) : Except Failure Written := do
  return ⟨.integer rows.length, ← returning fields columns rows⟩

/-- What a write answers, from the columns of its table and the rows that it wrote. -/
abbrev Answering := List Field → List Row → Except Failure Written

def insertInto (s : Store) (table : String) (rows : List Row) (answer : Answering) : Except Failure Written × Store :=
  match s.fieldsOf table, s.rowsOf table with
  | .error e, _ | _, .error e => (.error e, s)
  | .ok fields, .ok old =>
    match newRows table fields old rows [] s with
    | (.error e, s) => (.error e, s)
    | (.ok made, s) => (answer fields made, s.setRows table (old ++ made))

def insertRows (s : Store) (q : Insert) : Except Failure Written × Store :=
  s.insertInto q.table q.rows fun fields made => written fields q.returning made

/-- The quotient of two exact integers without its fraction. -/
def quotient (a b : Int) : Except Failure Int :=
  if b = 0 then .error (.wrongRange "Division by zero") else .ok (a.tdiv b)

def exactArithmetic (op : Arithmetic) (a b : Int) : Except Failure Int :=
  match op with
  | .increment => .ok (a + b)
  | .decrement => .ok (a - b)
  | .multiply => .ok (a * b)
  | .divide => quotient a b

def numberArithmetic (op : Arithmetic) (f : Field) (a b : Number) : Number :=
  match op with
  | .increment => a.add b
  | .decrement => a.sub b
  | .multiply => a.mul b
  | .divide => if f.typeClass == .integer then (a.div b).truncate else a.div b

/-- Arithmetic on a stored value: exact on two exact integers, on numbers otherwise, and nothing comes of
nothing. -/
def arithmetic (op : Arithmetic) (f : Field) (current operand : Value) : Except Failure Value := do
  if current.isNothing then return .null
  else
    match current, operand with
    | .integer a, .integer b => return .integer (← exactArithmetic op a b)
    | _, _ => return .number (numberArithmetic op f (← current.toNumber) (← operand.toNumber))

/-- What comes of a change of another name: nothing, once both values have been read as numbers. -/
def foreignChange (current operand : Value) : Except Failure Value := do
  if current.isNothing then return .null
  let _ ← current.toNumber
  let _ ← operand.toNumber
  return .absent

/-- The value an assignment gives to a row as it was before the statement. -/
def assigned (table : String) (fields : List Field) (before : Row) (a : Assignment) : Except Failure Value :=
  match fieldAt? fields a.column with
  | none => .error (.store (.unknownColumn a.column table))
  | some f =>
    match a.change with
    | .set => .ok a.operand
    | .arithmetic op => arithmetic op f (Row.value before a.column) a.operand
    | .foreign _ => foreignChange (Row.value before a.column) a.operand

/-- Carry out the assignments on a row one after another; what was assigned before a failure stays. -/
def assignAll (table : String) (fields : List Field) (before : Row) :
    List Assignment → Row → Option Failure × Row
  | [], row => (none, row)
  | a :: rest, row =>
    match assigned table fields before a with
    | .error e => (some e, row)
    | .ok v => assignAll table fields before rest (row.put a.column v)

/-- What an update has done so far: the rows it changed, all rows, and the failure that stopped it. -/
structure Updated where
  changed : List Row
  rows : List Row
  failure : Option Failure

/-- Update the flagged rows in their order, `before` being the rows already passed. A row that would
break a constraint stops the update and stays as it is then. -/
def updateFrom (table : String) (fields : List Field) (assignments : List Assignment) (before changed : List Row) :
    List (Bool × Row) → Updated
  | [] => ⟨changed, before, none⟩
  | (false, row) :: rest => updateFrom table fields assignments (before ++ [row]) changed rest
  | (true, row) :: rest =>
    let others := rest.map (·.2)
    match assignAll table fields row assignments row with
    | (some e, row) => ⟨changed, before ++ row :: others, some e⟩
    | (none, row) =>
      match checkUnique table fields row (before ++ others) with
      | .error e => ⟨changed, before ++ row :: others, some e⟩
      | .ok () => updateFrom table fields assignments (before ++ [row]) (changed ++ [row]) rest

/-- The columns of a table, and its rows, each flagged by whether a condition is true of it. -/
def flagged (s : Store) (table : String) (c : Condition) : Except Failure (List Field × List (Bool × Row)) := do
  let fields ← s.fieldsOf table
  return (fields, ← (← s.rowsOf table).mapM fun row => do return (← matchesRow s.tables table c row, row))

/-- Carry out assignments on the flagged rows of a table. -/
def updateFlagged (s : Store) (table : String) (fields : List Field) (assignments : List Assignment)
    (rows : List (Bool × Row)) (answer : Answering) : Except Failure Written × Store :=
  let u := updateFrom table fields assignments [] [] rows
  let s := s.setRows table u.rows
  match u.failure with
  | some e => (.error e, s)
  | none => (answer fields u.changed, s)

def updateRows (s : Store) (q : Update) : Except Failure Written × Store :=
  match s.flagged q.table q.condition with
  | .error e => (.error e, s)
  | .ok (fields, rows) =>
    s.updateFlagged q.table fields q.assignments rows fun fields changed => written fields q.returning changed

def deleteFrom (s : Store) (table : String) (c : Condition) (answer : Answering) : Except Failure Written × Store :=
  match s.flagged table c with
  | .error e => (.error e, s)
  | .ok (fields, rows) =>
    let gone := (rows.filter (·.1)).map (·.2)
    let kept := (rows.filter fun r => !r.1).map (·.2)
    (answer fields gone, s.setRows table kept)

def deleteRows (s : Store) (q : Delete) : Except Failure Written × Store :=
  s.deleteFrom q.table q.condition fun fields gone => written fields q.returning gone

def countRows (s : Store) (q : Count) : Except Failure Nat := do return (← s.matching q.table q.condition).length

end Store

end EntityQuery
