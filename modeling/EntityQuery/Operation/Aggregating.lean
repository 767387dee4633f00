import EntityQuery.Operation.Reading
/-! Aggregates of rows, as a whole or by groups. -/

namespace EntityQuery

namespace FieldAggregate

def classes : Aggregation → List TypeClass
  | .sum | .avg => [.integer, .float]
  | .min | .max => [.integer, .float, .datetime, .text]
  | .count => []

/-- The aggregate of a field whose type allows it. -/
def ofField (e : Entity) (function : Aggregation) (name : Value) : Except Failure FieldAggregate := do
  let f ← e.fieldNamed name
  if (classes function).contains f.typeClass then return ⟨function, f⟩
  else throw (.query (.cannotApply function.tag e.name f.name f.type.tag))

def label (a : FieldAggregate) : String := s!"_{a.function.tag}_{a.field.name}"

def toAggregate (a : FieldAggregate) : Aggregate := ⟨.of a.function, .text a.field.column, a.label⟩

def countRows : Aggregate := ⟨.of .count, .null, "_count"⟩

/-- Every aggregate that is asked for, after the number of rows. -/
def selection (requests : List FieldAggregate) : List Aggregate := countRows :: requests.map toAggregate

/-- A number as aggregates return it, null for none. -/
def numberOf (v : Value) : Except Failure Value := do
  if v.isNothing then return .null else return .number (← v.toNumber)

def valueIn (row : Row) (a : FieldAggregate) : Except Failure Value :=
  let v := Row.value row a.label
  match a.function with
  | .min | .max => a.field.decode v
  | .count | .sum | .avg => numberOf v

/-- The values of one function, by field. -/
def members (function : Aggregation) (values : List (FieldAggregate × Value)) : Row :=
  values.foldl (fun out (a, v) => if a.function == function then Record.put out a.field.name v else out) []

/-- The aggregates of an output row: the count, then the values by function and field. They are read in
the order in which they were asked for. -/
def read (requests : List FieldAggregate) (row : Row) : Except Failure Row := do
  let count ← match ← numberOf (Row.value row "_count") with
    | .null => pure (Value.int 0)
    | v => pure v
  let values ← requests.mapM fun a => do return (a, ← valueIn row a)
  return [("_count", count), ("_sum", .object (members .sum values)), ("_avg", .object (members .avg values)),
    ("_min", .object (members .min values)), ("_max", .object (members .max values))]

end FieldAggregate

namespace Context

variable {σ : Type} [Backend σ]

def countMatching (c : Context) (e : Entity) (filter : List Predicate) : Action σ Number := do
  let condition ← c.condition e filter
  c.count ⟨e.table, condition⟩

def aggregate (c : Context) (e : Entity) (a : AggregateRead) : Action σ Row := do
  let condition ← c.condition e a.filter
  let rows ← c.group ⟨e.table, condition, [], FieldAggregate.selection a.requests, none, [], .null, .null⟩
  FieldAggregate.read a.requests (rows.head?.getD [])

def groupOutput (g : GroupRead) (row : Row) : Except Failure Row := do
  let keys ← g.grouped.foldlM (fun out f => do
    return Record.put out f.name (← f.decode (Row.value row f.column))) ([] : Row)
  return Record.merge keys (← FieldAggregate.read g.requests row)

/-- The groups of the rows that match, by grouped fields. -/
def groups (c : Context) (e : Entity) (g : GroupRead) : Action σ (List Row) := do
  let condition ← c.condition e g.filter
  let having := g.having.map fun (operator, operand) => (⟨FieldAggregate.countRows, operator, operand⟩ : Having)
  let rows ← c.group
    ⟨e.table, condition, g.grouped.map (·.column), FieldAggregate.selection g.requests, having, g.order,
      .ofBound g.limit, .ofBound g.offset⟩
  rows.mapM fun row => (groupOutput g row : Except Failure Row)

end Context

end EntityQuery
