import EntityQuery.Predicate
import EntityQuery.Row
import EntityQuery.Schema.Entity
import EntityQuery.Slice
import EntityQuery.Value.Display
/-! Windows: how a read orders its rows and which of them it keeps. A negative `take` pages backwards
from the end of the order or from the cursor, and the result keeps the requested order. -/

namespace EntityQuery

structure OrderSpec where
  field : Value
  direction : Direction
  nulls : Option NullPlacement
  deriving Repr

/-- An order and the part of it to keep. `take` and `skip` are null where there is no bound; other bounds
than integers are refused when the window is validated. -/
structure Window where
  order : List OrderSpec
  take : Value
  skip : Value
  cursor : Option Predicate
  distinct : List Value

namespace Direction

/-- The opposite direction; ascending for a direction of another name. -/
def flip : Direction → Direction
  | ascending => descending
  | descending | foreign _ => ascending

/-- Do later rows have greater values? A missing direction ascends. -/
def ascends : Direction → Bool
  | ascending => true
  | descending => false
  | foreign name => name.isNothing

end Direction

namespace NullPlacement

/-- The opposite placement, first for a placement of another name; one that counts as false is none. -/
def flip? : NullPlacement → Option NullPlacement
  | first => some last
  | last => some first
  | foreign name => if name.isTruthy then some first else none

end NullPlacement

namespace OrderSpec

def flip (o : OrderSpec) : OrderSpec := ⟨o.field, o.direction.flip, o.nulls.bind NullPlacement.flip?⟩

/-- Does an order say ascending or descending, and first or last where it places nulls? -/
def isKnown (o : OrderSpec) : Bool :=
  match o.direction, o.nulls with
  | .foreign _, _ | _, some (.foreign _) => false
  | _, _ => true

theorem flip_flip {o : OrderSpec} (known : o.isKnown) : o.flip.flip = o := by
  obtain ⟨_, direction, nulls⟩ := o
  cases direction <;> rcases nulls with _ | (_ | _ | _) <;>
    simp_all [isKnown, flip, Direction.flip, NullPlacement.flip?]

end OrderSpec

namespace Window

def empty : Window := ⟨[], .null, .null, none, []⟩

def integer? (v : Value) : Option Int :=
  match v with
  | .number n => n.int?
  | _ => none

/-- Is the value an integer that is not negative? -/
def isCount (v : Value) : Bool := (integer? v).any fun i => 0 ≤ i

def checkCursor (e : Entity) (w : Window) : Except Failure Unit := do
  match w.cursor with
  | none => return ()
  | some cursor =>
    if cursor.entity.text? != some e.name then
      throw (.query (.foreignCursor (← cursor.entity.inserted) e.name))
    match w.order.find? fun o => o.field.text? != some e.primaryKey.name with
    | some o => throw (.query (.cursorOrder e.name (← o.field.inserted)))
    | none => return ()

/-- Refuse windows that make no sense on an entity. -/
def validate (e : Entity) (w : Window) : Except Failure Unit := do
  if !w.skip.isNull && !isCount w.skip then throw (.query (.skipRange (← w.skip.inserted)))
  if !w.take.isNull && (integer? w.take).isNone then throw (.query (.takeRange (← w.take.inserted)))
  for o in w.order do
    let _ ← e.fieldNamed o.field
  for name in w.distinct do
    let _ ← e.fieldNamed name
  checkCursor e w

def isBackwards (w : Window) : Except Failure Bool := if w.take.isNull then .ok false else w.take.isBelowZero

/-- The order in which rows are read, backwards or not. Cursors and backward reads need one, so they fall
back to the primary key. -/
def orderOf (e : Entity) (w : Window) (backwards : Bool) : List OrderSpec :=
  let order :=
    if w.order.isEmpty && (w.cursor.isSome || backwards) then [⟨.text e.primaryKey.name, .ascending, none⟩]
    else w.order
  if backwards then order.map OrderSpec.flip else order

def effectiveOrder (e : Entity) (w : Window) : Except Failure (List OrderSpec) := do
  return w.orderOf e (← w.isBackwards)

def placement (o : OrderSpec) : Option NullPlacement :=
  o.nulls.filter fun
    | .foreign name => name.isTruthy
    | _ => true

def orderTerms (e : Entity) (order : List OrderSpec) : Except Failure (List OrderTerm) :=
  order.mapM fun o => do return ⟨(← e.fieldNamed o.field).column, o.direction, placement o⟩

/-- How many rows a `take` asks for. -/
def size (take : Value) : Except Failure Number := do
  let n ← take.plainNumber
  return if n.isNegative then n.neg else n

/-- The bound of a statement, none for a null one. -/
def bound (v : Value) : Except Failure (Option Number) := do
  if v.isNull then return none else return some (← v.plainNumber)

def limit (w : Window) : Except Failure (Option Number) := do
  if w.take.isNull then return none else return some (← size w.take)

/-- Text that is equal for rows with equal values in the fields. -/
def distinctText (fields : List Value) (row : Row) : Except Failure String := do
  return String.intercalate "|" (← fields.mapM fun name => do (Row.value row (← name.display)).groupText)

/-- The rows whose text has not been seen before. -/
def firstOfEach (seen : List String) : List (String × Row) → List Row
  | [] => []
  | (text, row) :: rest =>
    if text ∈ seen then firstOfEach seen rest else row :: firstOfEach (text :: seen) rest

def distinctRows (fields : List Value) (rows : List Row) : Except Failure (List Row) := do
  if fields.isEmpty then return rows
  let keyed ← rows.mapM fun row => do return (← distinctText fields row, row)
  return firstOfEach [] keyed

def page (w : Window) (rows : List Row) : Except Failure (List Row) := do
  let rows := match ← bound w.skip with
    | some n => Slice.dropTo n rows
    | none => rows
  let rows := match ← w.limit with
    | some n => Slice.takeTo n rows
    | none => rows
  return if ← w.isBackwards then rows.reverse else rows

/-- The rows of a window among filtered rows in its effective order, in the requested order. -/
def apply (w : Window) (rows : List Row) : Except Failure (List Row) := do w.page (← distinctRows w.distinct rows)

end Window

end EntityQuery
