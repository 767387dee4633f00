import EntityQuery.Operation.Creation
/-! Changing rows. The mutations of a row are applied in their order; changes of its own columns are
gathered into one statement until a column repeats or the rows related to it are changed. -/

namespace EntityQuery

namespace Entity

/-- The assignment of a change of a field. Setting is always possible; for anything else the field has to
offer the operator. -/
def assignment (e : Entity) (f : Field) (change : ColumnChange) (operand : Value) : Except Failure Assignment :=
  match change with
  | .set => .ok ⟨f.column, .set, operand⟩
  | change => do
    if change.toValue.text?.any f.offers then return ⟨f.column, change, operand⟩
    else throw (.query (.cannotApply (← change.toValue.inserted) e.name f.name f.type.tag))

/-- The failure of a field mutation without an operation. -/
def operationless (shown : String) : Failure :=
  .wrongKind s!"Cannot destructure property 'op' of 'mutation.operation' as it is {shown}."

/-- The assignment of a field mutation. A node is asked for its field first and then for its operation. -/
def assignmentOf (e : Entity) (m : Mutation) : Except Failure Assignment := do
  match m with
  | .field _ name change operand => e.assignment (← e.field name) change operand
  | m =>
    let node := m.toValue
    let f ← e.fieldNamed (node.member "field")
    let operation := node.member "operation"
    if operation.isNothing then throw (operationless (← operation.inserted))
    e.assignment f (.ofValue (operation.member "op")) (operation.member "value")

def checkMutation (e : Entity) (m : Mutation) : Except Failure Unit := do
  let given ← m.askEntity
  if given.text? == some e.name then return ()
  else throw (.query (.foreignMutation (← given.inserted) e.name))

def checkSelector (registry : Registry Fetcher) (e : Entity) (selector : Predicate) : Except Failure Unit := do
  let given ← selector.askEntity
  if ← registry.means given e then return ()
  else throw (.query (.foreignFilter (← given.inserted) e.name))

end Entity

namespace Context

variable {σ : Type} [Backend σ]

/-- The assignment that a change makes of a relation whose key the row itself stores. -/
def ownKeyAssignment (c : Context) (e : Entity) (r : Relation) (change : RelationChange) : Action σ Assignment := do
  let key ← e.field r.own.field
  match change with
  | .connect selector =>
    let _ ← c.registry.relatedTo e (.text r.name) selector.askEntity
    match ← c.lookup selector with
    | none => throw (.lookup r.target (← selector.fieldName.inserted) e.name r.name)
    | some target =>
      let v ← key.encode (Row.value target r.remote.field)
      return ⟨key.column, .set, v⟩
  | .disconnect _ =>
    if r.foreignKeyNullable then return ⟨key.column, .set, .null⟩
    else throw (.query (.cannotDisconnect e.name r.name key.name))
  | change =>
    let tag ← change.tag
    throw (.query (.notForOwnKey (← tag.inserted) e.name r.name))

/-- A row being changed: how it stands in the database, and the assignments not yet written. -/
structure Pending where
  row : Row
  assignments : List Assignment

def flush (c : Context) (e : Entity) (p : Pending) : Action σ Pending := do
  if p.assignments.isEmpty then return p
  let condition ← e.keyCondition (e.keyOf p.row)
  let w ← c.update ⟨e.table, p.assignments, condition, e.columns⟩
  match w.rows with
  | row :: _ => return ⟨← e.decodeRow row, []⟩
  | [] => throw (.missingRow (.removed e.name))

/-- Add an assignment, after writing the pending ones if one is about the same column. -/
def addAssignment (c : Context) (e : Entity) (p : Pending) (a : Assignment) : Action σ Pending := do
  let p ← if p.assignments.any fun b => b.column == a.column then c.flush e p else pure p
  return { p with assignments := p.assignments ++ [a] }

/-- Change a relation of a row: the key that the row stores itself, or the rows related to it. -/
def mutateRelation (c : Context) (e : Entity) (p : Pending) (relation : Value) (change : RelationChange) :
    Action σ Pending := do
  let r ← e.relationNamed relation
  if r.kind = .belongsTo then c.addAssignment e p (← c.ownKeyAssignment e r change)
  else
    let p ← c.flush e p
    c.changeRelated ⟨e, p.row⟩ r.name change
    return p

/-- Apply a mutation. What does not say that it is about a field is about a relation. -/
def mutate (c : Context) (e : Entity) (p : Pending) (m : Mutation) : Action σ Pending := do
  e.checkMutation m
  match m with
  | .field .. => c.addAssignment e p (← e.assignmentOf m)
  | .relation _ name change => c.mutateRelation e p (.text name) change
  | .foreign node =>
    match node.member "kind" with
    | .text "field" => c.addAssignment e p (← e.assignmentOf m)
    | _ => c.mutateRelation e p (node.member "relation") (.ofValue (node.member "operation"))

def mutateAll (c : Context) (e : Entity) : List Mutation → Pending → Action σ Pending
  | [], p => return p
  | m :: rest, p => do c.mutateAll e rest (← c.mutate e p m)

/-- Apply mutations to a row and return it as it stands then. -/
def change (c : Context) (e : Entity) (mutations : List Mutation) (row : Row) : Action σ Row := do
  let p ← c.mutateAll e mutations ⟨row, []⟩
  return (← c.flush e p).row

/-- The row of a selector, which has to be there. -/
def requireRow (c : Context) (e : Entity) (selector : Predicate) : Action σ Row := do
  match ← c.lookup selector with
  | some row => return row
  | none => throw (.missingRow (.unmatched e.name (← selector.fieldName.inserted) (← selector.operandText)))

def updateOne (c : Context) (e : Entity) (selector : Predicate) (mutations : List Mutation) : Action σ Row :=
  c.transaction fun c => do c.change e mutations (← c.requireRow e selector)

/-- Update the row of a selector, or create one if there is none. -/
def upsertOne (c : Context) (e : Entity) (selector : Predicate) (creation : Creation) (mutations : List Mutation) :
    Action σ Row :=
  c.transaction fun c => do
    match ← c.lookup selector with
    | some row => c.change e mutations row
    | none =>
      Action.tell .db s!"Upsert on {e.name} found no row; creating"
      c.create e creation

def deleteOne (c : Context) (e : Entity) (selector : Predicate) : Action σ Row := do
  let condition ← c.condition e [selector]
  let w ← c.delete ⟨e.table, condition, e.columns⟩
  match w.rows with
  | row :: _ => e.decodeRow row
  | [] => throw (.missingRow (.unmatched e.name (← selector.fieldName.inserted) (← selector.operandText)))

/-- Assign to every row that matches; without assignments the rows are only counted. -/
def updateMany (c : Context) (e : Entity) (filter : List Predicate) (assignments : List Assignment) :
    Action σ Number := do
  let condition ← c.condition e filter
  if assignments.isEmpty then c.count ⟨e.table, condition⟩
  else return (← c.update ⟨e.table, assignments, condition, []⟩).count

def deleteMany (c : Context) (e : Entity) (filter : List Predicate) : Action σ Number := do
  let condition ← c.condition e filter
  return (← c.delete ⟨e.table, condition, []⟩).count

def insertMany (c : Context) (e : Entity) (rows : List Row) : Action σ Number := do
  if rows.isEmpty then return .integer 0
  else return (← c.insert ⟨e.table, rows, []⟩).count

end Context

end EntityQuery
