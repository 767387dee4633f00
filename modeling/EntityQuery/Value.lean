import EntityQuery.Json
import EntityQuery.Record
import EntityQuery.Scalar
import EntityQuery.Time.Instant
/-! The values that applications, columns and answers hold. A value that is absent differs from null,
a number from an exact integer, and a key remembers the type that it was written in. -/

namespace EntityQuery

/-- A typed key value; `J` is the type of JSON payloads. `negativeZero` is the 32-bit zero of a number
that kept its sign. -/
inductive KeyForm (J : Type) where
  | integer (width : IntegerType) (value : Int)
  | negativeZero
  | float (width : FloatType) (value : Number)
  | text (value : String)
  | uuid (value : String)
  | bool (value : Bool)
  | datetime (value : Option Int)
  | date (value : String)
  | time (value : String)
  | json (payload : J)
  deriving Repr, Inhabited

/-- A dynamic value. `jsonNull` asks for a JSON null where `null` is an empty column; `callable` is one of
the functions that every object has. -/
inductive Value where
  | absent
  | null
  | bool (value : Bool)
  | number (value : Number)
  | integer (value : Int)
  | text (value : String)
  | date (instant : Option Int)
  | jsonNull
  | callable (name : String)
  | key (form : KeyForm Value)
  | array (items : List Value)
  | object (members : List (String × Value))
  deriving Repr, Inhabited

abbrev Key := KeyForm Value

namespace KeyForm

def kind : Key → ScalarType
  | .integer width _ => .integer width
  | .negativeZero => .integer .i32
  | .float width _ => .float width
  | .text _ => .text
  | .uuid _ => .uuid
  | .bool _ => .bool
  | .datetime _ => .datetime
  | .date _ => .date
  | .time _ => .time
  | .json _ => .json

def value : Key → Value
  | .integer width n => if width.isWide then .integer n else .number (.integer n)
  | .negativeZero => .number .negativeZero
  | .float _ n => .number n
  | .text s | .uuid s | .date s | .time s => .text s
  | .bool b => .bool b
  | .datetime t => .date t
  | .json payload => payload

end KeyForm

namespace Value

def isNothing : Value → Bool
  | .absent | .null => true
  | _ => false

def isAbsent : Value → Bool
  | .absent => true
  | _ => false

def isNull : Value → Bool
  | .null => true
  | _ => false

def orNull : Value → Value
  | .absent => .null
  | v => v

def int (n : Int) : Value := .number (.integer n)

def nat (n : Nat) : Value := int n

def kindName : Value → String
  | .absent => "undefined"
  | .bool _ => "boolean"
  | .number _ => "number"
  | .integer _ => "bigint"
  | .text _ => "string"
  | .jsonNull => "symbol"
  | .callable _ => "function"
  | .null | .date _ | .key _ | .array _ | .object _ => "object"

def text? : Value → Option String
  | .text s => some s
  | _ => none

def sharedNames : List String :=
  ["constructor", "hasOwnProperty", "isPrototypeOf", "propertyIsEnumerable", "toLocaleString", "toString", "valueOf",
    "__defineGetter__", "__defineSetter__", "__lookupGetter__", "__lookupSetter__"]

/-- What an object has under a name that none of its own members has: one of the functions that all objects
share, the object that holds them, or nothing. -/
def inherited (name : String) : Value :=
  if sharedNames.contains name then .callable name else if name = "__proto__" then .object [] else .absent

/-- The member of an object, absent where there is none. -/
def member (v : Value) (name : String) : Value :=
  match v with
  | .object members => (Record.get? members name).getD .absent
  | _ => .absent

def isTruthy : Value → Bool
  | .absent | .null => false
  | .bool b => b
  | .number n => !n.isZero && !n.isNaN
  | .integer n => n != 0
  | .text s => !s.isEmpty
  | _ => true

mutual

def ofJson : Json → Value
  | .null => .null
  | .bool b => .bool b
  | .number n => .number n
  | .text s => .text s
  | .array items => .array (ofJsonItems items)
  | .object members => .object (ofJsonMembers members)
termination_by structural j => j

def ofJsonItems : List Json → List Value
  | [] => []
  | item :: rest => ofJson item :: ofJsonItems rest
termination_by structural items => items

def ofJsonMembers : List (String × Json) → List (String × Value)
  | [] => []
  | (name, value) :: rest => (name, ofJson value) :: ofJsonMembers rest
termination_by structural members => members

end

mutual

/-- Is the value JSON data? Dates count, as objects without members, and so do keys whose own value is
JSON data. -/
def isJson : Value → Bool
  | .null | .bool _ | .text _ | .date _ => true
  | .number n => n.isFinite
  | .absent | .integer _ | .jsonNull | .callable _ => false
  | .key (.integer width _) => !width.isWide
  | .key (.float _ n) => n.isFinite
  | .key (.json payload) => isJson payload
  | .key _ => true
  | .array items => isJsonItems items
  | .object members => isJsonMembers members
termination_by structural v => v

def isJsonItems : List Value → Bool
  | [] => true
  | item :: rest => isJson item && isJsonItems rest
termination_by structural items => items

def isJsonMembers : List (String × Value) → Bool
  | [] => true
  | (_, value) :: rest => isJson value && isJsonMembers rest
termination_by structural members => members

end

inductive IntegerRule where
  | refused
  | asText
  deriving DecidableEq, Repr

inductive JsonFault where
  | exactInteger
  deriving DecidableEq, Repr

def integerJson (rule : IntegerRule) (n : Int) : Except JsonFault Json :=
  match rule with
  | .refused => .error .exactInteger
  | .asText => .ok (.text (Number.intText n))

def instantJson : Option Int → Json
  | some t => .text (Time.toIso t)
  | none => .null

def keyJson (kind : ScalarType) (value : Option Json) : Json :=
  let members := [("kind", Json.text kind.tag)]
  .object [("variant", .object (match value with
    | some j => members ++ [("value", j)]
    | none => members))]

mutual

/-- The JSON data that a value is written as: dates as ISO text, and nothing for absent values,
functions and the JSON null marker, which objects leave out and arrays write as null. -/
def toJson? (rule : IntegerRule) : Value → Except JsonFault (Option Json)
  | .absent | .jsonNull | .callable _ => .ok none
  | .null => .ok (some .null)
  | .bool b => .ok (some (.bool b))
  | .number n => .ok (some (.number n))
  | .integer n => (integerJson rule n).map some
  | .text s => .ok (some (.text s))
  | .date t => .ok (some (instantJson t))
  | .key (.integer width n) =>
    if width.isWide then (integerJson rule n).map fun j => some (keyJson (.integer width) (some j))
    else .ok (some (keyJson (.integer width) (some (.number (.integer n)))))
  | .key .negativeZero => .ok (some (keyJson (.integer .i32) (some (.number .negativeZero))))
  | .key (.float width n) => .ok (some (keyJson (.float width) (some (.number n))))
  | .key (.text s) => .ok (some (keyJson .text (some (.text s))))
  | .key (.uuid s) => .ok (some (keyJson .uuid (some (.text s))))
  | .key (.bool b) => .ok (some (keyJson .bool (some (.bool b))))
  | .key (.datetime t) => .ok (some (keyJson .datetime (some (instantJson t))))
  | .key (.date s) => .ok (some (keyJson .date (some (.text s))))
  | .key (.time s) => .ok (some (keyJson .time (some (.text s))))
  | .key (.json payload) => (toJson? rule payload).map fun j => some (keyJson .json j)
  | .array items => (toJsonItems rule items).map fun others => some (.array others)
  | .object members => (toJsonMembers rule members).map fun others => some (.object others)
termination_by structural v => v

def toJsonItems (rule : IntegerRule) : List Value → Except JsonFault (List Json)
  | [] => .ok []
  | item :: rest => do
    let j ← toJson? rule item
    let others ← toJsonItems rule rest
    .ok (j.getD .null :: others)
termination_by structural items => items

def toJsonMembers (rule : IntegerRule) : List (String × Value) → Except JsonFault (List (String × Json))
  | [] => .ok []
  | (name, value) :: rest => do
    let j ← toJson? rule value
    let others ← toJsonMembers rule rest
    .ok (match j with
      | some j => (name, j) :: others
      | none => others)
termination_by structural members => members

end

mutual

/-- The members that a value has of its own, all the way down: dates have none. -/
def bareJson : Value → Json
  | .absent | .null | .jsonNull | .callable _ => .null
  | .bool b => .bool b
  | .number n => .number n
  | .integer n => .text (Number.intText n)
  | .text s => .text s
  | .date _ => .object []
  | .key (.integer width n) => keyJson (.integer width) (some (.number (.integer n)))
  | .key .negativeZero => keyJson (.integer .i32) (some (.number .negativeZero))
  | .key (.float width n) => keyJson (.float width) (some (.number n))
  | .key (.text s) => keyJson .text (some (.text s))
  | .key (.uuid s) => keyJson .uuid (some (.text s))
  | .key (.bool b) => keyJson .bool (some (.bool b))
  | .key (.datetime _) => keyJson .datetime (some (.object []))
  | .key (.date s) => keyJson .date (some (.text s))
  | .key (.time s) => keyJson .time (some (.text s))
  | .key (.json payload) => keyJson .json (some (bareJson payload))
  | .array items => .array (bareItems items)
  | .object members => .object (bareMembers members)
termination_by structural v => v

def bareItems : List Value → List Json
  | [] => []
  | item :: rest => bareJson item :: bareItems rest
termination_by structural items => items

def bareMembers : List (String × Value) → List (String × Json)
  | [] => []
  | (name, value) :: rest => (name, bareJson value) :: bareMembers rest
termination_by structural members => members

end

end Value

end EntityQuery
