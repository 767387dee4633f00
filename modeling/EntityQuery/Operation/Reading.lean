import EntityQuery.Row
import EntityQuery.Schema.Column
import EntityQuery.Session
/-! Reading rows: the statement of a window, the condition of its cursor, and the row of a unique
filter. -/

namespace EntityQuery.Context

variable {σ : Type} [Backend σ]

/-- The primary-key value of the row that a cursor selects, null without such a row. -/
def cursorKey (c : Context) (e : Entity) (cursor : Predicate) : Action σ Value := do
  let condition ← c.condition e [cursor]
  let rows ← c.select ⟨e.table, [e.primaryKey.column], condition, [], .int 1, .null⟩
  return match rows.head? with
    | some row => (Row.value row e.primaryKey.column).orNull
    | none => .null

/-- The condition that a row comes after the cursor's, none if no row matches the cursor. -/
def cursorCondition (c : Context) (e : Entity) (cursor : Predicate) (order : List OrderSpec) :
    Action σ (Option Condition) := do
  let key ← c.cursorKey e cursor
  if key.isNothing then
    Action.tell .db s!"Cursor on {e.name} matched no row; returning an empty page"
    return none
  else
    let ascends := (order.head?.map fun o => o.direction.ascends).getD true
    return some (.compare (e.ref e.primaryKey.column) (.of (if ascends then .gt else .lt)) key)

/-- The conditions of a read: its own, and that of its cursor. None if the cursor matches no row. -/
def withCursor (c : Context) (e : Entity) (conditions : List Condition) (w : Window) (order : List OrderSpec) :
    Action σ (Option (List Condition)) :=
  match w.cursor with
  | none => return some conditions
  | some cursor => do return (← c.cursorCondition e cursor order).map fun after => conditions ++ [after]

/-- The rows of a window. Distinct rows are found after reading, so their paging waits until then. -/
def readRows (c : Context) (e : Entity) (condition : Condition) (w : Window) : Action σ (List Row) := do
  w.validate e
  let order ← w.effectiveOrder e
  match ← c.withCursor e [condition] w order with
  | none => return []
  | some conditions =>
    let paged := w.distinct.isEmpty
    let terms ← Window.orderTerms e order
    let limit ← if paged then w.limit else pure none
    let offset ← if paged then Window.bound w.skip else pure none
    let rows ← c.select ⟨e.table, e.columns, .conjunction conditions, terms, .ofBound limit, .ofBound offset⟩
    let decoded ← rows.mapM fun row => (e.decodeRow row : Except Failure Row)
    if !paged then w.apply decoded
    else if ← w.isBackwards then return decoded.reverse
    else return decoded

def entityOf (c : Context) (selector : Predicate) : Except Failure Entity := do
  c.registry.needed (← selector.askEntity)

def lookup (c : Context) (selector : Predicate) : Action σ (Option Row) := do
  let e ← c.entityOf selector
  let condition ← c.condition e [selector]
  return (← c.readRows e condition { Window.empty with take := .int 1 }).head?

/-- Insert a row of application values and return it as it is stored. -/
def insertRow (c : Context) (e : Entity) (data : Row) : Action σ Row := do
  let values ← e.encodeRow data
  e.checkRequired values
  let w ← c.insert ⟨e.table, [values], e.columns⟩
  match w.rows with
  | row :: _ => e.decodeRow row
  | [] => throw (.contract (.nothingReturned e.table))

end EntityQuery.Context
