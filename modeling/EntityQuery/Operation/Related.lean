import EntityQuery.Operation.Reading
/-! Changing the rows related to a row, through relations whose key the related rows store. -/

namespace EntityQuery

namespace Predicate

def fieldName : Predicate → Value
  | .field _ name _ _ => .text name
  | .group .. | .related .. => .absent
  | .foreign node => node.member "field"

def operandText (p : Predicate) : Except Failure String := do
  (← (p.toValue.member "operation").get "value").display

end Predicate

structure Parent where
  entity : Entity
  row : Row

/-- A relation with the entity of the related rows, which store its key. -/
structure OwnedRelation where
  relation : Relation
  target : Entity

namespace Parent

def key (p : Parent) (r : Relation) : Except Failure Value :=
  let v := Row.value p.row r.own.field
  if v.isNothing then .error (.query (.nullLocalKey p.entity.name r.own.field r.name)) else .ok v

/-- The relation of a name and its target; a selector has to be about that target. -/
def owned (p : Parent) (registry : Registry Fetcher) (relation : String) (selector : Option Predicate) :
    Except Failure OwnedRelation := do
  let (r, target) ← match selector.filter Predicate.isGiven with
    | some s => registry.relatedTo p.entity (.text relation) s.askEntity
    | none => registry.related p.entity (.text relation)
  if r.ownsKey then throw (.query (.ownKey p.entity.name relation)) else return ⟨r, target⟩

end Parent

namespace OwnedRelation

def foreignKey (o : OwnedRelation) : Except Failure Field := o.target.field o.relation.remote.field

def related (o : OwnedRelation) (p : Parent) : Except Failure Condition := do
  let f ← o.foreignKey
  return .compare (o.target.ref f.column) (.of .eq) (← f.encode (← p.key o.relation))

def among (o : OwnedRelation) (rows : List Row) : Except Failure Condition := do
  let key := o.target.primaryKey
  return .inList (o.target.ref key.column) (← rows.mapM fun row => key.encode (o.target.keyOf row)) false

end OwnedRelation

namespace Context

variable {σ : Type} [Backend σ]

/-- Write the foreign key of the rows that match; how many there were is returned. -/
def writeKey (c : Context) (o : OwnedRelation) (condition : Condition) (v : Value) : Action σ Number := do
  let f ← o.foreignKey
  let operand ← f.encode v
  return (← c.update ⟨o.target.table, [⟨f.column, .set, operand⟩], condition, []⟩).count

def requireRelated (c : Context) (p : Parent) (o : OwnedRelation) (selector : Predicate) : Action σ Row := do
  match ← c.lookup selector with
  | some row => return row
  | none =>
    throw (.missingRow (.unrelated o.target.name (← selector.fieldName.inserted) p.entity.name o.relation.name))

/-- A parent has at most one row of a has-one relation: detach the one it has, but for a row that stays.
Where the key is not nullable, no other row may be there. -/
def detachCurrent (c : Context) (p : Parent) (o : OwnedRelation) (kept : Option Row) : Action σ Unit := do
  if o.relation.kind != .hasOne then return ()
  let related ← o.related p
  let current ← match kept with
    | some row => do pure (Condition.conjunction [related, (← (o.among [row] : Except Failure Condition)).negation])
    | none => pure related
  if o.relation.foreignKeyNullable then
    let detached ← c.writeKey o current .null
    Action.tell .db s!"Detached {detached.toText} {o.target.name} row(s) from {p.entity.name}.{o.relation.name}"
  else
    let attached ← c.count ⟨o.target.table, current⟩
    if attached.compare? (.integer 0) == some .gt then
      throw (.query (.cannotReplace p.entity.name o.relation.name o.target.name o.relation.remote.field))

def connectRelated (c : Context) (p : Parent) (relation : String) (selector : Predicate) : Action σ Unit := do
  let o ← p.owned c.registry relation (some selector)
  let row ← c.requireRelated p o selector
  c.detachCurrent p o (some row)
  let condition ← o.among [row]
  let key ← p.key o.relation
  let _ ← c.writeKey o condition key

/-- Detach the row that a selector finds, or every related row, by emptying the foreign key. -/
def disconnectRelated (c : Context) (p : Parent) (relation : String) (selector : Option Predicate) :
    Action σ Unit := do
  let o ← p.owned c.registry relation selector
  if !o.relation.foreignKeyNullable then
    throw (.query (.cannotDetach p.entity.name o.relation.name o.target.name o.relation.remote.field))
  let related ← o.related p
  match selector with
  | none =>
    let _ ← c.writeKey o related .null
  | some selector =>
    let row ← c.requireRelated p o selector
    let only ← o.among [row]
    let _ ← c.writeKey o (.conjunction [related, only]) .null

def createRelated (c : Context) (p : Parent) (relation : String) (data : Row) : Action σ Unit := do
  let o ← p.owned c.registry relation none
  c.detachCurrent p o none
  let key ← p.key o.relation
  let _ ← c.insertRow o.target (Record.put data o.relation.remote.field key)

/-- The rows that selectors of a relation find, one for each. -/
def requireAll (c : Context) (p : Parent) (o : OwnedRelation) : List Predicate → Action σ (List Row)
  | [] => return []
  | selector :: rest => do
    let _ ← c.registry.relatedTo p.entity (.text o.relation.name) selector.askEntity
    let row ← c.requireRelated p o selector
    return row :: (← requireAll c p o rest)

/-- Make the rows that selectors find the related rows of the parent. Rows that leave are detached where
the key is nullable, and deleted where it is not. -/
def setRelated (c : Context) (p : Parent) (relation : String) (selectors : Except Failure (List Predicate)) :
    Action σ Unit := do
  let o ← p.owned c.registry relation none
  if o.relation.kind != .hasMany then
    throw (.query (.setOnlyMany p.entity.name o.relation.name o.relation.kind.tag))
  let rows ← c.requireAll p o (← selectors)
  let key ← p.key o.relation
  let related ← o.related p
  let among ← o.among rows
  let leaving := if rows.isEmpty then related else .conjunction [related, among.negation]
  if o.relation.foreignKeyNullable then
    let detached ← c.writeKey o leaving .null
    Action.tell .db s!"Detached {detached.toText} {o.target.name} row(s) from {p.entity.name}.{o.relation.name}"
  else
    let deleted ← c.delete ⟨o.target.table, leaving, []⟩
    Action.tell .db s!"Deleted {deleted.count.toText} {o.target.name} row(s) leaving {p.entity.name}.{o.relation.name}"
  if !rows.isEmpty then
    let _ ← c.writeKey o among key

/-- Carry out a change of a relation; one of no known form changes nothing. -/
def changeRelated (c : Context) (p : Parent) (relation : String) (change : RelationChange) : Action σ Unit :=
  match change with
  | .connect selector => c.connectRelated p relation selector
  | .disconnect selector => c.disconnectRelated p relation selector
  | .set selectors => c.setRelated p relation (.ok selectors)
  | .create data => c.createRelated p relation data
  | .foreign operation => do
    match ← operation.get "op" with
    | .text "set" => c.setRelated p relation (.error (.wrongKind "selectors is not iterable"))
    | _ => return ()

end Context

end EntityQuery
