import EntityQuery.Field
import EntityQuery.Uuid
import EntityQuery.Value.Display
/-! Encoding application values into column values and decoding column values. Integers are checked
against their width, UUIDs are written in small letters, JSON is kept as text, and dates are days. -/

namespace EntityQuery.Field

/-- The exact integer that a value denotes: an exact integer, an integral number, or decimal text. -/
def exactInt? : Value → Option Int
  | .integer n => some n
  | .number n => n.int?
  | .text s => Number.intOfText? s
  | _ => none

/-- An integer as a value of a width: wide widths keep exact integers, narrow ones numbers. -/
def ofWidth (width : IntegerType) (n : Int) : Value := if width.isWide then .integer n else .int n

def encodeInteger (width : IntegerType) (field : String) (v : Value) : Except Failure Value :=
  match exactInt? v with
  | none => .error (.value (.notInteger field))
  | some n => if width.holds n then .ok (ofWidth width n) else .error (.value (.outOfRange field width.tag))

/-- The instant of a value: a date, ISO 8601 text, or a number of milliseconds. -/
def instant? : Value → Option Time.Instant
  | .date t => t
  | .text s => Time.ofIso? s
  | .number n => Time.ofMilliseconds? n
  | _ => none

def toDate (field : String) (v : Value) : Except Failure Value :=
  match instant? v with
  | some t => .ok (.date (some t))
  | none => .error (.value (.notDate field))

def numeric : Value → Number
  | .number n => n
  | .integer n => Number.ofInt n
  | _ => .nan

def encodeFloat (width : FloatType) (field : String) (v : Value) : Except Failure Value :=
  let n := numeric v
  if n.isNaN then .error (.value (.notNumber field))
  else .ok (.number (match width with
    | .f32 => n.toSingle
    | .f64 => n))

/-- The first ten characters of the ISO text of a date; other values as text. -/
def encodeDay : Value → Except Failure Value
  | .date t => do return .text (String.ofList ((← Value.instantIso t).toList.take 10))
  | v => do return .text (← v.display)

def encodeJson : Value → Except Failure Value
  | .jsonNull => .ok (.text "null")
  | v => do
    match ← v.jsonText? .asText with
    | some s => return .text s
    | none => return .absent

def encodePresent (f : Field) (v : Value) : Except Failure Value :=
  match f.type with
  | .integer width => encodeInteger width f.name v
  | .float width => encodeFloat width f.name v
  | .text =>
    match v with
    | .text s => .ok (.text s)
    | _ => .error (.value (.notText f.name))
  | .bool =>
    match v with
    | .bool b => .ok (.bool b)
    | _ => .error (.value (.notBool f.name))
  | .datetime => toDate f.name v
  | .date => encodeDay v
  | .time => do return .text (← v.display)
  | .uuid =>
    match v with
    | .text s => if Uuid.isUuid s then .ok (.text (Uuid.normalize s)) else .error (.malformedUuid f.name)
    | _ => .error (.malformedUuid f.name)
  | .json => encodeJson v
  | .opaqueType =>
    match f.converter with
    | some c => c.toColumn v
    | none => .error (.converterless f.name)

/-- The column value of an application value; null and absent values need a nullable field. -/
def encode (f : Field) (v : Value) : Except Failure Value :=
  if v.isNothing then
    if f.nullable then .ok .null else .error (.value (.required f.name))
  else encodePresent f v

/-- A date column as a day; other values as text. -/
def decodeDay : Value → Except Failure Value
  | .date (some t) => .ok (.text (Time.dayText t))
  | .date none => .ok (.text "NaN-NaN-NaN")
  | v => do return .text (← v.display)

/-- The application value of a column value that is neither null nor absent. -/
def decodePresent (f : Field) (raw : Value) : Except Failure Value :=
  match f.type with
  | .integer width =>
    if width.isWide then
      match exactInt? raw with
      | some n => .ok (.integer n)
      | none => .error (.value (.notInteger f.name))
    else do return .number (← raw.toNumber)
  | .float _ => do return .number (← raw.toNumber)
  | .datetime => toDate f.name raw
  | .date => decodeDay raw
  | .opaqueType =>
    match f.converter with
    | some c => c.fromColumn raw
    | none => .ok raw
  | .text | .bool | .time | .uuid | .json => .ok raw

def decode (f : Field) (raw : Value) : Except Failure Value :=
  if raw.isNothing then .ok .null else decodePresent f raw

/-- Encoding by the tag of a type; under a tag of no type a value that is there has no column value. -/
def encodeAs (f : Field) (tag : String) (v : Value) : Except Failure Value :=
  match ScalarType.ofTag? tag with
  | some type => { f with type }.encode v
  | none => if v.isNothing then f.encode v else .ok .absent

/-- Decoding by the tag of a type; under a tag of no type a column value stays as it is. -/
def decodeAs (f : Field) (tag : String) (raw : Value) : Except Failure Value :=
  match ScalarType.ofTag? tag with
  | some type => { f with type }.decode raw
  | none => .ok raw.orNull

theorem encode_of_isNothing {f : Field} {v : Value} (h : v.isNothing) :
    f.encode v = if f.nullable then .ok .null else .error (.value (.required f.name)) := by
  simp [encode, h]

theorem decode_of_isNothing {f : Field} {v : Value} (h : v.isNothing) : f.decode v = .ok .null := by
  simp [decode, h]

end EntityQuery.Field
