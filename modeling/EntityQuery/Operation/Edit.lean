import EntityQuery.Operation.Aggregating
import EntityQuery.Operation.Creation
/-! Edits: what can be added to an operation before it is executed. An edit that fails leaves what it had
added by then. -/

namespace EntityQuery

abbrev Edit := Step Operation Unit

namespace Edit

def checkOpen : Edit := Step.inspect Operation.checkOpen

def request (f : Entity → Request → Except Failure Request) : Edit :=
  Step.ofFunction fun o =>
    match f o.entity o.request with
    | .ok r => (.ok (), { o with request := r })
    | .error e => (.error e, o)

def onOpen (f : Entity → Request → Except Failure Request) : Edit := do
  checkOpen
  request f

def onRead (f : Entity → Read → Except Failure Read) (e : Entity) : Request → Except Failure Request
  | .find mode r => do return .find mode (← f e r)
  | r => .ok r

def onWindow (f : Entity → Window → Except Failure Window) : Edit :=
  onOpen (onRead fun e r => do return { r with window := ← f e r.window })

def addFilter (ps : List Predicate) : Edit :=
  onOpen fun _ r =>
    .ok (match r with
      | .find mode r => .find mode { r with filter := r.filter ++ ps }
      | .count filter => .count (filter ++ ps)
      | .aggregate a => .aggregate { a with filter := a.filter ++ ps }
      | .group g => .group { g with filter := g.filter ++ ps }
      | .updateMany filter assignments => .updateMany (filter ++ ps) assignments
      | .deleteMany filter => .deleteMany (filter ++ ps)
      | r => r)

/-- The column by which groups are ordered: their size, or a grouped field. -/
def groupColumn (e : Entity) (g : GroupRead) (field : Value) : Except Failure String :=
  if field.text? == some "_count" then .ok FieldAggregate.countRows.label
  else
    match g.grouped.find? fun f => field.text? == some f.name with
    | some f => .ok f.column
    | none => .error (.query (.groupOrder e.name))

def orderBy (field : Value) (direction : Direction) (nulls : Option NullPlacement) : Edit :=
  onOpen fun e r =>
    match r with
    | .find mode r => do
      let spec ← e.orderSpec field direction nulls
      return .find mode { r with window := { r.window with order := r.window.order ++ [spec] } }
    | .group g => do
      let column ← groupColumn e g field
      return .group { g with order := g.order ++ [⟨column, direction, none⟩] }
    | r => .ok r

/-- A number of groups: an integer that is not negative. -/
def groupCount (fault : String → QueryFault) (v : Value) : Except Failure Number := do
  if Window.isCount v then v.plainNumber else throw (.query (fault (← v.inserted)))

def take (v : Value) : Edit :=
  onOpen fun _ r =>
    match r with
    | .find mode r => .ok (.find mode { r with window := { r.window with take := v } })
    | .group g => do return .group { g with limit := some (← groupCount .groupTake v) }
    | r => .ok r

def skip (v : Value) : Edit :=
  onOpen fun _ r =>
    match r with
    | .find mode r => .ok (.find mode { r with window := { r.window with skip := v } })
    | .group g => do return .group { g with offset := some (← groupCount .groupSkip v) }
    | r => .ok r

def cursor (cursor : Option Predicate) : Edit := onWindow fun _ w => .ok { w with cursor }

def distinct (fields : List Value) : Edit :=
  onWindow fun e w => do
    e.checkFields fields
    return { w with distinct := w.distinct ++ fields }

def addInclude (i : Include) : Edit :=
  onOpen (onRead fun _ r => .ok { r with includes := r.includes ++ [i] })

def addAggregate (a : FieldAggregate) : Request → Request
  | .aggregate r => .aggregate { r with requests := r.requests ++ [a] }
  | .group g => .group { g with requests := g.requests ++ [a] }
  | r => r

/-- Ask for an aggregate of fields, one after another. -/
def aggregates (function : Aggregation) : List Value → Edit
  | [] => checkOpen
  | name :: rest => do
    onOpen fun e r => do return addAggregate (← FieldAggregate.ofField e function name) r
    aggregates function rest

/-- Keep only the groups whose size compares with a value like this. -/
def having (operator : Comparator) (v : Value) : Edit :=
  onOpen fun _ r =>
    .ok (match r with
      | .group g => .group { g with having := some (operator, v) }
      | r => r)

/-- Let a row to create belong to the row that a selector finds. -/
def connect (registry : Registry Fetcher) (relation : Value) (selector : Predicate) : Edit := do
  let found ← Step.inspect fun (o : Operation) => Creation.lookupFor registry o.entity relation selector
  onOpen fun _ r =>
    .ok (match r with
      | .create c => .create { c with lookups := c.lookups ++ [found] }
      | r => r)

def apply (mutations : List Mutation) : Edit :=
  onOpen fun _ r =>
    .ok (match r with
      | .update selector before => .update selector (before ++ mutations)
      | r => r)

end Edit

end EntityQuery
