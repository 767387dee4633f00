import EntityQuery.Sorting
import EntityQuery.Statement
import EntityQuery.Value.Display
/-! How stored values compare. Numbers, exact integers, truth values and instants compare as numbers,
everything else as text by its UTF-16 units, and numbers come before texts. -/

namespace EntityQuery.Store

/-- What a value compares as. A value without text compares as equal to every text. -/
inductive Comparable where
  | number (n : Number)
  | text (s : Option String)
  deriving DecidableEq, Repr

/-- Exact integers compare without rounding. -/
def comparable (v : Value) : Except Failure Comparable :=
  match v with
  | .number n => .ok (.number n)
  | .integer n => .ok (.number (.integer n))
  | .bool b => .ok (.number (.integer (if b then 1 else 0)))
  | .date (some t) => .ok (.number (.integer t))
  | .date none => .ok (.number .nan)
  | .text s => .ok (.text (some s))
  | v => do return .text (← v.jsonText? .refused)

/-- The order of comparable values; what is not a number is equal to every number. -/
def Comparable.order : Comparable → Comparable → Ordering
  | .number a, .number b => (a.compare? b).getD .eq
  | .text (some a), .text (some b) => Text.compareUnits a b
  | .text _, .text _ => .eq
  | .number _, .text _ => .lt
  | .text _, .number _ => .gt

/-- The order of two values that are not null. -/
def order (a b : Value) : Except Failure Ordering := do return (← comparable a).order (← comparable b)

def holds (c : Comparison) (o : Ordering) : Bool :=
  match c with
  | .eq => o == .eq
  | .ne => o != .eq
  | .gt => o == .gt
  | .ge => o != .lt
  | .lt => o == .lt
  | .le => o != .gt

/-- Are two values that are not null equal? -/
def same (a b : Value) : Except Failure Bool := do return (← order a b) == .eq

def groupText (v : Value) : Except Failure String :=
  match v with
  | .absent | .null => .ok "null"
  | .integer n => .ok ("number:" ++ Number.intText n)
  | v => do
    return match ← comparable v with
      | .number n => "number:" ++ n.toText
      | .text s => "text:" ++ s.getD "undefined"

def groupKey (columns : List String) (row : Row) : Except Failure String := do
  return String.intercalate "|" (← columns.mapM fun c => groupText (Row.value row c))

/-- A value to sort by, none for a missing one. -/
abbrev SortKey := Option Comparable

def sortKey (v : Value) : Except Failure SortKey := if v.isNothing then .ok none else do return some (← comparable v)

/-- Do missing values come first? In descending order they do and in any other they come last, unless the
term says where. -/
def missingFirst (t : OrderTerm) : Bool :=
  match t.nulls, t.direction with
  | some .first, _ => true
  | some _, _ => false
  | none, .descending => true
  | none, _ => false

def missingOrder (t : OrderTerm) (a b : Bool) : Ordering :=
  if a == b then .eq else if a == missingFirst t then .lt else .gt

def directed (t : OrderTerm) (o : Ordering) : Ordering :=
  match t.direction with
  | .ascending => o
  | .descending | .foreign _ => o.swap

def termOrder (t : OrderTerm) (a b : SortKey) : Ordering :=
  match a, b with
  | some x, some y => directed t (x.order y)
  | a, b => missingOrder t a.isNone b.isNone

/-- The order of two rows under terms, the first that tells them apart deciding. -/
def termsOrder : List OrderTerm → List SortKey → List SortKey → Ordering
  | t :: ts, a :: as, b :: bs => (termOrder t a b).then (termsOrder ts as bs)
  | _, _, _ => .eq

/-- The order of two rows, for values that may have no order. Only those are compared that are reached. -/
def rowOrder (a b : Row) : List OrderTerm → Except Failure Ordering
  | [] => .ok .eq
  | t :: ts => do
    let v := Row.value a t.column
    let w := Row.value b t.column
    let o ← if v.isNothing || w.isNothing then .ok (missingOrder t v.isNothing w.isNothing)
      else directed t <$> order v w
    if o == .eq then rowOrder a b ts else return o

/-- Has a value a place in the order? Values that are no number, or have no text, have none: they are equal to
all others of their kind. -/
def isPlaced : SortKey → Bool
  | none => true
  | some (.number n) => !n.isNaN
  | some (.text s) => s.isSome

/-- A row with what it is sorted by, if all of that has a place. -/
def keyed? (terms : List OrderTerm) (row : Row) : Option (List SortKey × Row) := do
  let keys ← (terms.mapM fun t => sortKey (Row.value row t.column)).toOption
  if keys.all isPlaced then some (keys, row) else none

/-- Rows sorted by terms; rows that tie keep their order. -/
def sortRows (terms : List OrderTerm) (rows : List Row) : Except Failure (List Row) :=
  match rows.mapM (keyed? terms) with
  | some keyed => .ok ((keyed.mergeSort fun a b => termsOrder terms a.1 b.1 != .gt).map (·.2))
  | none => Sorting.sort (fun a b => do return (← rowOrder a b terms) == .lt) rows

end EntityQuery.Store
