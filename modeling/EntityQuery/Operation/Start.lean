import EntityQuery.Operation.Changing
/-! Starting operations: what is checked when a request is put together. -/

namespace EntityQuery.Request

def findUnique (registry : Registry Fetcher) (e : Entity) (filter : Predicate) : Except Failure Request := do
  if !(← filter.isUnique) then throw (.query (.notUnique e.name))
  if !(← registry.means filter.entity e) then
    throw (.query (.uniqueOfOther e.name (← filter.entity.inserted)))
  return .find .unique ⟨[filter], .empty, []⟩

def findFirst (filter : List Predicate) : Request := .find .first ⟨filter, .empty, []⟩

def findMany (filter : List Predicate) : Request := .find .many ⟨filter, .empty, []⟩

def aggregateOf (filter : List Predicate) : Request := .aggregate ⟨filter, []⟩

def groupBy (e : Entity) (names : List Value) (filter : List Predicate) : Except Failure Request :=
  if names.isEmpty then .error (.query (.ungrouped e.name))
  else do
    let grouped ← names.mapM e.fieldNamed
    return .group ⟨grouped, filter, [], [], none, none, none⟩

def createOf (registry : Registry Fetcher) (e : Entity) (data : Row) : Except Failure Request := do
  return .create (← Creation.ofData registry e data)

/-- Rows created together hold values of fields only. -/
def createRows (e : Entity) (rows : List Row) : Except Failure Request := do
  let encoded ← rows.mapM fun data => do
    let values ← e.encodeRow data
    e.checkRequired values
    return values
  return .createMany encoded

def updateOf (registry : Registry Fetcher) (e : Entity) (selector : Predicate) (mutations : List Mutation) :
    Except Failure Request := do
  e.checkSelector registry selector
  return .update selector mutations

/-- The failure of a change of a relation that is to apply to many rows. -/
def bulkRelation (e : Entity) (name : Value) (change : RelationChange) : Except Failure Assignment := do
  let tag ← change.tag
  throw (.query (.relationInBulk e.name (← tag.inserted) (← name.inserted)))

/-- The assignment of a mutation that is to apply to many rows. What does not say that it is about a
relation is about a field. -/
def bulkAssignment (e : Entity) (m : Mutation) : Except Failure Assignment := do
  e.checkMutation m
  match m with
  | .field .. => e.assignmentOf m
  | .relation _ name change => bulkRelation e (.text name) change
  | .foreign node =>
    match node.member "kind" with
    | .text "relation" => bulkRelation e (node.member "relation") (.ofValue (node.member "operation"))
    | _ => e.assignmentOf m

/-- Assignments to many rows change each column once. -/
def updateManyOf (e : Entity) (filter : List Predicate) (mutations : List Mutation) : Except Failure Request := do
  let assignments ← mutations.foldlM (fun (done : List Assignment) m => do
    let a ← bulkAssignment e m
    if done.any fun b => b.column == a.column then
      throw (.query (.changedTwice e.name (← (m.toValue.member "field").inserted)))
    else return done ++ [a]) []
  return .updateMany filter assignments

def upsertOf (registry : Registry Fetcher) (e : Entity) (selector : Predicate) (data : Row)
    (mutations : List Mutation) : Except Failure Request := do
  e.checkSelector registry selector
  return .upsert selector (← Creation.ofData registry e data) mutations

def deleteOf (registry : Registry Fetcher) (e : Entity) (selector : Predicate) : Except Failure Request := do
  e.checkSelector registry selector
  return .delete selector

end EntityQuery.Request
