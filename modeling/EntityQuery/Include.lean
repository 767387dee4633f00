import EntityQuery.Registry
import EntityQuery.Window
/-! Includes: related rows to load beside rows, with a filter, a window for each parent, the fields to
keep, and includes of their own. -/

namespace EntityQuery

inductive Include where
  | mk (relation : String) (filter : List Predicate) (window : Window) (fields : List String) (counted : Bool)
      (nested : List Include)

namespace Include

def relation : Include → String
  | mk relation _ _ _ _ _ => relation

def window : Include → Window
  | mk _ _ window _ _ _ => window

def filter : Include → List Predicate
  | mk _ filter _ _ _ _ => filter

end Include

/-- An include being put together; `target` is the entity of its rows. -/
structure IncludeDraft where
  target : Entity
  relation : String
  filter : List Predicate
  window : Window
  fields : List String
  counted : Bool
  nested : List Include
  built : Bool

/-- A field of an ordering, which has to be one of the entity's. -/
def Entity.orderSpec (e : Entity) (field : Value) (direction : Direction) (nulls : Option NullPlacement) :
    Except Failure OrderSpec := do
  let _ ← e.fieldNamed field
  return ⟨field, direction, nulls⟩

def Entity.checkFields (e : Entity) (names : List Value) : Except Failure Unit :=
  names.forM fun name => do let _ ← e.fieldNamed name

namespace IncludeDraft

def start {φ : Type} (r : Registry φ) (e : Entity) (relation : Value) : Except Failure IncludeDraft := do
  let (found, target) ← r.related e relation
  return ⟨target, found.name, [], .empty, [], false, [], false⟩

def addFilter (d : IncludeDraft) (ps : List Predicate) : IncludeDraft := { d with filter := d.filter ++ ps }

def orderBy (d : IncludeDraft) (field : Value) (direction : Direction) (nulls : Option NullPlacement) :
    Except Failure IncludeDraft := do
  let spec ← d.target.orderSpec field direction nulls
  return { d with window := { d.window with order := d.window.order ++ [spec] } }

def take (d : IncludeDraft) (count : Value) : IncludeDraft := { d with window := { d.window with take := count } }

def skip (d : IncludeDraft) (count : Value) : IncludeDraft := { d with window := { d.window with skip := count } }

def cursor (d : IncludeDraft) (cursor : Option Predicate) : IncludeDraft := { d with window := { d.window with cursor } }

def distinct (d : IncludeDraft) (fields : List Value) : Except Failure IncludeDraft := do
  d.target.checkFields fields
  return { d with window := { d.window with distinct := d.window.distinct ++ fields } }

/-- Keep these fields of the rows only. -/
def select (d : IncludeDraft) (fields : List Value) : Except Failure IncludeDraft := do
  let kept ← fields.mapM fun name => do return (← d.target.fieldNamed name).name
  return { d with fields := kept }

def count (d : IncludeDraft) : IncludeDraft := { d with counted := true }

def addInclude (d : IncludeDraft) (i : Include) : IncludeDraft := { d with nested := d.nested ++ [i] }

/-- Finish a draft, which works once. -/
def build (d : IncludeDraft) : Except Failure (Include × IncludeDraft) :=
  if d.built then .error (.query (.includeBuilt d.relation d.target.name))
  else .ok (.mk d.relation d.filter d.window d.fields d.counted d.nested, { d with built := true })

end IncludeDraft

end EntityQuery
