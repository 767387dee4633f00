import EntityQuery.Operation.Related
/-! Creating rows. The data of a row hold values of its fields and, by relation, the unique filter of the
row it belongs to, or related rows to create and connect. -/

namespace EntityQuery

namespace Creation

def isRecord : Value → Bool
  | .object _ | .date _ | .key _ => true
  | _ => false

def relatedRows (place : String) (v : Value) : Except Failure (List RelationChange) :=
  match v with
  | .absent => .ok []
  | .array items =>
    if items.all isRecord then .ok (items.map fun item => .create item.entries)
    else .error (.query (.nestedRows place))
  | _ => .error (.query (.nestedRows place))

def relatedFilters (place : String) (v : Value) : Except Failure (List RelationChange) :=
  match v with
  | .absent => .ok []
  | .array items =>
    if items.all Predicate.isSelector then .ok (items.map fun item => .connect (Predicate.ofValue item))
    else .error (.query (.nestedFilters place))
  | _ => .error (.query (.nestedFilters place))

/-- The changes that data ask for under a relation whose key the related rows store. -/
def relatedChanges (e : Entity) (r : Relation) (v : Value) : Except Failure (List (String × RelationChange)) := do
  let place := s!"{e.name}.{r.name}"
  if !isRecord v then throw (.query (.nestedShape place))
  let created ← relatedRows place (v.member "create")
  let connected ← relatedFilters place (v.member "connect")
  return (created ++ connected).map fun change => (r.name, change)

/-- The lookup of the row that a selector finds, for a relation whose key the row itself stores. -/
def lookupFor (registry : Registry Fetcher) (e : Entity) (relation : Value) (selector : Predicate) :
    Except Failure Lookup := do
  let (r, _) ← registry.relatedTo e relation selector.askEntity
  if r.kind != .belongsTo then throw (.query (.keyless e.name r.name)) else return ⟨r, selector⟩

def addMember (registry : Registry Fetcher) (e : Entity) (c : Creation) (name : String) (v : Value) :
    Except Failure Creation :=
  match v with
  | .absent => .ok c
  | v =>
    match e.field? name, e.relation? name with
    | some _, _ => .ok { c with values := c.values.put name v }
    | none, none => .error (.query (.unknownMember name e.name))
    | none, some r =>
      if r.kind = .belongsTo then
        if Predicate.isSelector v then do
          let lookup ← lookupFor registry e (.text name) (Predicate.ofValue v)
          return { c with lookups := c.lookups ++ [lookup] }
        else .error (.query (.filterExpected e.name name r.target))
      else do
        let changes ← relatedChanges e r v
        return { c with related := c.related ++ changes }

def ofData (registry : Registry Fetcher) (e : Entity) (data : Row) : Except Failure Creation :=
  data.foldlM (fun c (name, v) => addMember registry e c name v) ⟨[], [], []⟩

end Creation

namespace Context

variable {σ : Type} [Backend σ]

/-- The values of a row once its lookups are done, one after another. -/
def resolveLookups (c : Context) (e : Entity) : List Lookup → Row → Action σ Row
  | [], values => return values
  | l :: rest, values => do
    let found? ← c.lookup l.selector
    let field ← l.selector.fieldName.inserted
    match found? with
    | none => throw (.lookup l.relation.target field e.name l.relation.name)
    | some found =>
      Action.tell .db s!"Resolved {e.name}.{l.relation.name} through {field}"
      c.resolveLookups e rest (values.put l.relation.own.field (Row.value found l.relation.remote.field))

def changeAll (c : Context) (p : Parent) : List (String × RelationChange) → Action σ Unit
  | [] => return ()
  | (relation, change) :: rest => do
    c.changeRelated p relation change
    c.changeAll p rest

/-- Create a row inside the caller's transaction: resolve its lookups, insert it, and carry out the
changes of its relations. -/
def create (c : Context) (e : Entity) (creation : Creation) : Action σ Row := do
  let values ← c.resolveLookups e creation.lookups creation.values
  let row ← c.insertRow e values
  c.changeAll ⟨e, row⟩ creation.related
  return row

end Context

end EntityQuery
