import EntityQuery.Value
/-! Conditions on rows. Predicates compile into them; statements carry them, the SQL text of a statement
writes them out, and the in-memory store evaluates them. -/

namespace EntityQuery

structure ColumnRef where
  table : String
  column : String
  deriving DecidableEq, Repr

inductive Comparison where
  | eq | ne | gt | ge | lt | le
  deriving DecidableEq, Repr

namespace Comparison

def symbol : Comparison → String
  | eq => "=" | ne => "<>" | gt => ">" | ge => ">=" | lt => "<" | le => "<="

def all : List Comparison := [eq, ne, gt, ge, lt, le]

def ofSymbol? (symbol : String) : Option Comparison := all.find? fun c => c.symbol == symbol

end Comparison

/-- How a condition compares: one of the six comparisons, or a sign that the database is left to read. -/
inductive Comparator where
  | of (comparison : Comparison)
  | foreign (sign : Value)
  deriving Repr

namespace Comparator

def toValue : Comparator → Value
  | .of c => .text c.symbol
  | .foreign v => v

def ofValue (v : Value) : Comparator :=
  match v.text?.bind Comparison.ofSymbol? with
  | some c => .of c
  | none => .foreign v

end Comparator

inductive Occurrence where
  | contains | startsWith | endsWith
  deriving DecidableEq, Repr

namespace Occurrence

def tag : Occurrence → String
  | contains => "contains" | startsWith => "startsWith" | endsWith => "endsWith"

def all : List Occurrence := [contains, startsWith, endsWith]

def ofTag? (tag : String) : Option Occurrence := all.find? fun o => o.tag == tag

end Occurrence

/-- How a text is matched: as a whole, by an occurrence, or in a way that is not known. -/
inductive TextMatch where
  | equals
  | part (occurrence : Occurrence)
  | foreign (name : Value)
  deriving Repr

namespace TextMatch

def toValue : TextMatch → Value
  | equals => .text "equals"
  | part o => .text o.tag
  | foreign v => v

def ofValue (v : Value) : TextMatch :=
  match v with
  | .text "equals" => equals
  | v => ((v.text?.bind Occurrence.ofTag?).map part).getD (foreign v)

end TextMatch

inductive ArrayItem where
  | any | first | last
  deriving DecidableEq, Repr

/-- A missing value: an empty column or path, a JSON null, either, or a kind that is not known. -/
inductive NullKind where
  | db | json | any
  | foreign (name : Value)
  deriving Repr

namespace NullKind

def toValue : NullKind → Value
  | db => .text "db"
  | json => .text "json"
  | any => .text "any"
  | foreign v => v

def ofValue : Value → NullKind
  | .text "db" => db
  | .text "json" => json
  | .text "any" => any
  | v => foreign v

end NullKind

/-- A test of a JSON document at a path: something is there, a scalar's text matches, an array holds or
begins or ends with a value, an object has a key, or nothing is there. The steps of a path are texts, or
values that are read as their text; `foreign` is a test of no known form. -/
inductive JsonTest where
  | path (path : List Value)
  | text (kind : TextMatch) (path : List Value) (part : Value)
  | array (item : ArrayItem) (path : List Value) (operand : Value)
  | objectKey (path : List Value) (key : Value)
  | null (path : List Value) (kind : NullKind)
  | foreign (test : Value)
  deriving Repr

structure Join where
  outer : ColumnRef
  inner : ColumnRef
  deriving DecidableEq, Repr

/-- A condition on a row. `related` asks for a row of another table that joins the row and satisfies a
condition of its own. `truthy` is a constant that is no truth value, `annotated` a condition together with
the document that it was read from, and `foreign` a document that reads as no condition. -/
inductive Condition where
  | constant (value : Bool)
  | truthy (value : Value)
  | compare (column : ColumnRef) (operator : Comparator) (operand : Value)
  | text (column : ColumnRef) (kind : TextMatch) (part : Value) (ignoreCase : Bool)
  | member (column : ColumnRef) (values : List Value) (negated : Bool)
  | null (column : ColumnRef) (negated : Bool)
  | json (column : ColumnRef) (test : JsonTest)
  | all (members : List Condition)
  | any (members : List Condition)
  | not (inner : Condition)
  | related (table label : String) (join : Join) (inner : Condition) (negated : Bool)
  | annotated (document : Value) (reading : Condition)
  | foreign (node : Value)
  deriving Repr, Inhabited

namespace Condition

/-- The truth of a condition that is the same for every row. -/
def constant? : Condition → Option Bool
  | .constant b => some b
  | .truthy v => some v.isTruthy
  | .annotated _ c => constant? c
  | _ => none

def isTrue (c : Condition) : Bool := c.constant? == some true

def isFalse (c : Condition) : Bool := c.constant? == some false

/-- Membership in a list: nothing is in the empty one. -/
def inList (column : ColumnRef) (values : List Value) (negated : Bool) : Condition :=
  if values.isEmpty then .constant negated else .member column values negated

/-- Conjunction without true members; a false member makes it false, and one member stands for itself. -/
def conjunction (members : List Condition) : Condition :=
  let kept := members.filter fun c => !c.isTrue
  if kept.any isFalse then .constant false
  else
    match kept with
    | [] => .constant true
    | [only] => only
    | _ => .all kept

/-- Disjunction without false members; a true member makes it true, and one member stands for itself. -/
def disjunction (members : List Condition) : Condition :=
  let kept := members.filter fun c => !c.isFalse
  if kept.any isTrue then .constant true
  else
    match kept with
    | [] => .constant false
    | [only] => only
    | _ => .any kept

/-- Negation, carried out on constants. -/
def negation (c : Condition) : Condition :=
  match c.constant? with
  | some b => .constant !b
  | none => .not c

end Condition

end EntityQuery
