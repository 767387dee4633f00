import EntityQuery.Store.Tables
/-! Groups of rows and their aggregates. Without grouped columns all matching rows are one group, be it
empty. -/

namespace EntityQuery.Store

/-- Add a row to the group of its key; groups keep the order of their first rows. -/
def addToGroup (key : String) (row : Row) : List (String × List Row) → List (String × List Row)
  | [] => [(key, [row])]
  | (k, rows) :: rest => if k = key then (k, rows ++ [row]) :: rest else (k, rows) :: addToGroup key row rest

def groupRows (columns : List String) (rows : List Row) : Except Failure (List (List Row)) := do
  if columns.isEmpty then return [rows]
  let groups ← rows.foldlM (fun groups row => do return addToGroup (← groupKey columns row) row groups) []
  return groups.map (·.2)

/-- The sum of values as numbers, added from first to last. -/
def total (vs : List Value) : Except Failure Number :=
  vs.foldlM (fun sum v => do return sum.add (← v.toNumber)) (.integer 0)

/-- The least or the greatest value; the first of several wins. -/
def extreme (wanted : Ordering) : List Value → Except Failure Value
  | [] => .ok .null
  | first :: rest => rest.foldlM (fun best v => do return if (← order v best) == wanted then v else best) first

/-- An aggregate of values. Without values there is none but a count, and a function that is not known has
none. -/
def aggregateOf (f : AggregateFunction) (vs : List Value) : Except Failure Value := do
  match f with
  | .of .count => return .nat vs.length
  | .of .sum => if vs.isEmpty then return .null else return .number (← total vs)
  | .of .avg => if vs.isEmpty then return .null else return .number ((← total vs).div (.integer vs.length))
  | .of .min => extreme .lt vs
  | .of .max => extreme .gt vs
  | .foreign _ => return .absent

/-- An aggregate of a group. Missing values do not count. -/
def aggregateValue (a : Aggregate) (rows : List Row) : Except Failure Value :=
  match a.column with
  | .null => .ok (.nat rows.length)
  | c => do
    let c ← c.display
    aggregateOf a.function ((rows.map fun row => Row.value row c).filter fun v => !v.isNothing)

def passes (rows : List Row) : Option Having → Except Failure Bool
  | none => .ok true
  | some h => do
    let actual ← aggregateValue h.aggregate rows
    if actual.isNothing then return false
    let o ← order actual h.operand
    match h.operator with
    | .of c => return holds c o
    | .foreign _ => return false

def groupRow (q : Grouping) (rows : List Row) : Except Failure Row := do
  let keys := q.columns.foldl (fun (out : Row) c => Record.put out c (match rows.head? with
    | some row => Row.value row c
    | none => .null)) []
  q.aggregates.foldlM (fun out a => do return Record.put out a.label (← aggregateValue a rows)) keys

def groupOutputs (q : Grouping) (groups : List (List Row)) : Except Failure (List Row) := do
  let outputs ← groups.mapM fun rows => do
    let row ← groupRow q rows
    return if ← passes rows q.having then some row else none
  return outputs.filterMap id

def group (s : Store) (q : Grouping) : Except Failure (List Row) := do
  let groups ← groupRows q.columns (← s.matching q.table q.condition)
  page q.limit q.offset (← sortRows q.order (← groupOutputs q groups))

end EntityQuery.Store
