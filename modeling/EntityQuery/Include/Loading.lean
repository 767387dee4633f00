import EntityQuery.Operation.Reading
/-! Loading includes. Each include costs one fetch, whatever the number of parents; the rows it brings
are shared out by key, and every parent gets its own window of them. -/

namespace EntityQuery

namespace Include

/-- The values of parents, each once by its group text, without missing ones; the last of equal values
stands. -/
def distinctKeys (values : List Value) : Except Failure (List Value) := do
  let keyed ← (values.filter fun v => !v.isNothing).mapM fun v => do return (← v.groupText, v)
  return Record.values (Record.ofPairs keyed)

/-- Rows by the group text of a field, in their order. -/
def keyedRows (field : String) (rows : List Row) : Except Failure (List (String × Row)) :=
  rows.mapM fun row => do return (← (Row.value row field).groupText, row)

/-- The rows whose field has a value; a missing value has none. -/
def rowsFor (keyed : List (String × Row)) (v : Value) : Except Failure (List Row) :=
  if v.isNothing then .ok []
  else do
    let key ← v.groupText
    return (keyed.filter fun entry => entry.1 == key).map (·.2)

/-- The members of a row that a selection of fields keeps: the fields, what nested includes added, and
counts. -/
def project (fields : List String) (nested : List String) (row : Row) : Row :=
  if fields.isEmpty then row
  else
    (fields ++ nested ++ ["_count"]).foldl (fun out name =>
      match Record.get? row name with
      | some v => Record.put out name v
      | none => out) []

def splitBy {α : Type} : List Nat → List α → List (List α)
  | [], _ => []
  | n :: rest, l => l.take n :: splitBy rest (l.drop n)

/-- The value of an include: a list for many related rows, else the first row or null. -/
def valueOf (r : Relation) (children : List Row) : Value :=
  if r.isMany then .array (children.map .object)
  else
    match children with
    | first :: _ => .object first
    | [] => .null

def names (specs : List Include) : List String := specs.map relation

end Include

namespace Context

variable {σ : Type} [Backend σ]

/-- The related rows of parents in the table of their entity: filtered, after the cursor, and in the
effective order of the window, which is left to the caller. -/
def fetchTable (c : Context) (r : Relation) (e : Entity) (values : List Value) (filter : List Predicate) (w : Window) :
    Action σ (List Row) := do
  let keys ← Include.distinctKeys values
  if keys.isEmpty then return []
  let remote ← e.field r.remote.field
  w.validate e
  let order ← w.effectiveOrder e
  let operands ← keys.mapM fun v => (remote.encode v : Except Failure Value)
  let condition ← c.condition e filter
  match ← c.withCursor e [.inList (e.ref remote.column) operands false, condition] w order with
  | none => return []
  | some conditions =>
    Action.tell .db s!"Fetching {e.name} rows for {keys.length} parent key(s) of '{r.name}'"
    let terms ← Window.orderTerms e order
    let rows ← c.select ⟨e.table, e.columns, .conjunction conditions, terms, .null, .null⟩
    rows.mapM fun row => (e.decodeRow row : Except Failure Row)

def fetch (c : Context) (r : Relation) (e : Entity) (values : List Value) (filter : List Predicate) (w : Window) :
    Action σ (List Row) := do
  match ← c.registry.fetcher e.name with
  | .table => c.fetchTable r e values filter w
  | .fixed rows =>
    Action.noteFetch ⟨r.name, values⟩
    return rows
  | .unusable => throw (.wrongKind "fetcher.fetch is not a function")

abbrev Counted := List (Row × Record Value)

/-- Put the counts of the parents beside their other members. -/
def withCounts (counted : Bool) (parents : Counted) : List Row :=
  parents.map fun (row, counts) => if counted then Record.put row "_count" (.object counts) else row

def countsRows : Include → Bool
  | .mk _ _ _ _ counted _ => counted

mutual

/-- Attach includes to rows, one after another. -/
def attachAll (c : Context) (e : Entity) (specs : List Include) (parents : Counted) : Action σ Counted :=
  match specs with
  | [] => return parents
  | spec :: rest => do
    let parents ← attach c e spec parents
    attachAll c e rest parents
termination_by structural specs

/-- Attach one include to rows: fetch the related rows, share them out, cut the window of each parent, and
load the nested includes of what is left. -/
def attach (c : Context) (e : Entity) (spec : Include) (parents : Counted) : Action σ Counted :=
  match spec with
  | .mk relation filter window fields counted nested => do
    let (r, target) ← c.registry.related e (.text relation)
    let values := parents.map fun p => Row.value p.1 r.own.field
    let related ← c.fetch r target values filter window
    let keyed ← Include.keyedRows r.remote.field related
    let matched ← values.mapM fun v => (Include.rowsFor keyed v : Except Failure (List Row))
    let windowed ← matched.mapM fun rows => (window.apply rows : Except Failure (List Row))
    let inner := windowed.flatten
    let loaded ←
      if inner.isEmpty then pure []
      else withCounts (nested.any countsRows) <$> attachAll c target nested (inner.map fun row => (row, []))
    let children := Include.splitBy (windowed.map List.length) loaded
    return (parents.zip (children.zip matched)).map fun ((row, counts), kids, all) =>
      (Record.put row relation (Include.valueOf r (kids.map (Include.project fields (Include.names nested)))),
        if counted then Record.put counts relation (.nat all.length) else counts)
termination_by structural spec

end

def loadIncludes (c : Context) (e : Entity) (specs : List Include) (rows : List Row) : Action σ (List Row) := do
  if rows.isEmpty then return []
  return withCounts (specs.any countsRows) (← attachAll c e specs (rows.map fun row => (row, [])))

end Context

end EntityQuery
