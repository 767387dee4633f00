import EntityQuery.Name
/-! Scalar types of fields: the integer widths and their ranges, type classes, tags, and the declared
type names that denote them. -/

namespace EntityQuery

inductive IntegerType where
  | i8 | i16 | i32 | i64 | u8 | u16 | u32 | u64
  deriving DecidableEq, Repr

namespace IntegerType

/-- Signed widths first, each group from narrow to wide. -/
def all : List IntegerType := [.i8, .i16, .i32, .i64, .u8, .u16, .u32, .u64]

def bits : IntegerType → Nat
  | .i8 | .u8 => 8
  | .i16 | .u16 => 16
  | .i32 | .u32 => 32
  | .i64 | .u64 => 64

def isSigned : IntegerType → Bool
  | .i8 | .i16 | .i32 | .i64 => true
  | .u8 | .u16 | .u32 | .u64 => false

def least (t : IntegerType) : Int := if t.isSigned then -(Nat.pow 2 (t.bits - 1)) else 0

def greatest (t : IntegerType) : Int := if t.isSigned then Nat.pow 2 (t.bits - 1) - 1 else Nat.pow 2 t.bits - 1

def holds (t : IntegerType) (n : Int) : Bool := decide (t.least ≤ n ∧ n ≤ t.greatest)

/-- Widths whose values do not all fit a number and are kept as exact integers. -/
def isWide (t : IntegerType) : Bool := t.bits == 64

def tag : IntegerType → String
  | .i8 => "i8" | .i16 => "i16" | .i32 => "i32" | .i64 => "i64"
  | .u8 => "u8" | .u16 => "u16" | .u32 => "u32" | .u64 => "u64"

end IntegerType

inductive FloatType where
  | f32 | f64
  deriving DecidableEq, Repr

/-- The type of a field's values; `opaque` values move through a converter of their own. -/
inductive ScalarType where
  | integer (width : IntegerType)
  | float (width : FloatType)
  | text | bool | datetime | date | time | uuid | json | opaqueType
  deriving DecidableEq, Repr

inductive TypeClass where
  | integer | float | text | boolean | datetime | uuid | json | opaqueClass
  deriving DecidableEq, Repr

def TypeClass.tag : TypeClass → String
  | .integer => "integer" | .float => "float" | .text => "string" | .boolean => "boolean"
  | .datetime => "datetime" | .uuid => "uuid" | .json => "json" | .opaqueClass => "opaque"

namespace ScalarType

def tag : ScalarType → String
  | .integer width => width.tag
  | .float .f32 => "f32" | .float .f64 => "f64"
  | .text => "string" | .bool => "bool" | .datetime => "datetime" | .date => "date" | .time => "time"
  | .uuid => "uuid" | .json => "json" | .opaqueType => "opaque"

def all : List ScalarType :=
  IntegerType.all.map .integer ++
    [.float .f32, .float .f64, .text, .uuid, .bool, .datetime, .date, .time, .json, .opaqueType]

def ofTag? (tag : String) : Option ScalarType := all.find? fun t => t.tag == tag

def typeClass : ScalarType → TypeClass
  | .integer _ => .integer
  | .float _ => .float
  | .text => .text
  | .bool => .boolean
  | .datetime | .date | .time => .datetime
  | .uuid => .uuid
  | .json => .json
  | .opaqueType => .opaqueClass

def isWideInteger : ScalarType → Bool
  | .integer width => width.isWide
  | _ => false

/-- Declared type names in lower case; any other name is opaque. -/
def declaredNames : List (String × ScalarType) :=
  [("i8", .integer .i8), ("i16", .integer .i16), ("i32", .integer .i32), ("i64", .integer .i64),
    ("isize", .integer .i64), ("u8", .integer .u8), ("u16", .integer .u16), ("u32", .integer .u32),
    ("u64", .integer .u64), ("usize", .integer .u64), ("f32", .float .f32), ("f64", .float .f64),
    ("string", .text), ("str", .text), ("text", .text), ("bool", .bool), ("boolean", .bool),
    ("datetime", .datetime), ("datetimeutc", .datetime), ("datetimewithtimezone", .datetime),
    ("naivedatetime", .datetime), ("timestamp", .datetime), ("date", .date), ("naivedate", .date),
    ("time", .time), ("naivetime", .time), ("uuid", .uuid), ("json", .json), ("jsonvalue", .json),
    ("value", .json)]

/-- The inside of `Option<...>`, blanks being allowed before the bracket. -/
def optionBody? (cs : List Char) : Option (List Char) :=
  if "Option".toList.isPrefixOf cs then
    match (cs.drop 6).dropWhile Text.isBlank with
    | '<' :: body =>
      match body.reverse with
      | '>' :: inner => some inner.reverse
      | _ => none
    | _ => none
  else none

/-- A declared type: its scalar type and whether it is an option. Namespaces and generic arguments do
not count. -/
structure Declared where
  type : ScalarType
  nullable : Bool
  deriving DecidableEq, Repr

def ofDeclared (declared : String) : Declared :=
  let name := Text.trimChars declared.toList
  let (nullable, body) :=
    match optionBody? name with
    | some inner => (true, Text.trimChars inner)
    | none => (false, name)
  let bare := body.takeWhile (· != '<')
  let key := Text.toLower (Name.lastSegment (String.ofList bare))
  ⟨((declaredNames.find? fun entry => entry.1 == key).map (·.2)).getD .opaqueType, nullable⟩

end ScalarType

end EntityQuery
