import EntityQuery.Json.Reader
import EntityQuery.Uuid
import EntityQuery.Value.Display
/-! Keys: values of primary and foreign keys together with their scalar type. A key is made from a
value of a given type, from any value by inference, or by reading text. -/

namespace EntityQuery

namespace Key

def label : ScalarType → String
  | .integer .i8 => "I8" | .integer .i16 => "I16" | .integer .i32 => "I32" | .integer .i64 => "I64"
  | .integer .u8 => "U8" | .integer .u16 => "U16" | .integer .u32 => "U32" | .integer .u64 => "U64"
  | .float .f32 => "F32" | .float .f64 => "F64"
  | .text => "String" | .uuid => "Uuid" | .bool => "Bool" | .datetime => "DateTime" | .date => "Date"
  | .time => "Time" | .json => "Json" | .opaqueType => ""

def kinds : List ScalarType := ScalarType.all.filter (· != .opaqueType)

def ofLabel? (name : String) : Option ScalarType := kinds.find? fun k => label k == name

/-- Decimal number text, with blanks allowed around it. -/
def isDecimalText (s : String) : Bool := Number.isDecimalText (Text.trimChars s.toList)

def conversion (source target : String) : Failure := .conversion source target none

def columnInt? : Value → Option Int
  | .integer n => some n
  | .number n => n.int?
  | .text s => Number.intOfText? s
  | _ => none

def ofInteger (width : IntegerType) (raw : Value) : Except Failure Key := do
  match columnInt? raw with
  | some n =>
    if width.holds n then return .integer width n
    else throw (.conversion raw.kindName width.tag (some ((← raw.display) ++ " does not fit")))
  | none => throw (.conversion raw.kindName width.tag (some ((← raw.display) ++ " does not fit")))

def ofFloat (width : FloatType) (raw : Value) : Except Failure Key :=
  let numeric : Option Number := match raw with
    | .number n => some n
    | .text s => if isDecimalText s then some (Number.ofText s) else none
    | _ => none
  match numeric with
  | some n => .ok (.float width (match width with
    | .f32 => n.toSingle
    | .f64 => n))
  | none => .error (conversion raw.kindName (ScalarType.tag (.float width)))

def ofDocument (raw : Value) : Except Failure Key := do
  let parsed ← match raw with
    | .text s =>
      match Json.read? s with
      | some j => .ok (Value.ofJson j)
      | none => .error (.wrongSyntax "Unexpected JSON text")
    | v => .ok v
  if parsed.isJson then return .json parsed else throw (conversion raw.kindName "json")

def ofColumn (kind : ScalarType) (raw : Value) : Except Failure Key :=
  let refused : Except Failure Key := .error (conversion raw.kindName kind.tag)
  match kind with
  | .integer width => ofInteger width raw
  | .float width => ofFloat width raw
  | .text =>
    match raw with
    | .text s => .ok (.text s)
    | _ => refused
  | .date =>
    match raw with
    | .text s => .ok (.date s)
    | _ => refused
  | .time =>
    match raw with
    | .text s => .ok (.time s)
    | _ => refused
  | .uuid =>
    match raw with
    | .text s => if Uuid.isUuid s then .ok (.uuid (Uuid.normalize s)) else refused
    | _ => refused
  | .bool =>
    match raw with
    | .bool b => .ok (.bool b)
    | .text "true" => .ok (.bool true)
    | .text "false" => .ok (.bool false)
    | _ => refused
  | .datetime =>
    let instant := match raw with
      | .date t => t
      | .text s => Time.ofIso? s
      | _ => none
    match instant with
    | some t => .ok (.datetime (some t))
    | none => refused
  | .json => ofDocument raw
  | .opaqueType => refused

def make (kind : ScalarType) (v : Value) : Except Failure Key :=
  match kind with
  | .json => if v.isJson then .ok (.json v) else .error (conversion v.kindName "json")
  | _ => ofColumn kind v

/-- A tag of no type that names what every object has counts as an integer type without a range. -/
def isRangeless (tag : String) : Bool := !(Value.inherited tag).isNothing

/-- The failure of a value for a tag of no type; `detail` is given for a value that is no integer. -/
def refusal (source tag detail : String) (v : Value) : Failure :=
  if !isRangeless tag then conversion source tag
  else if (columnInt? v).isSome then
    .wrongKind s!"{(Value.inherited tag).kindName} is not iterable (cannot read property Symbol(Symbol.iterator))"
  else .conversion source tag (some detail)

/-- A maker for the type of a tag; tags of no type are refused. -/
def withTag (maker : ScalarType → Value → Except Failure Key) (tag : String) (v : Value) : Except Failure Key :=
  match ScalarType.ofTag? tag with
  | some kind => maker kind v
  | none => do
    let shown ← if isRangeless tag then v.display else .ok ""
    throw (refusal v.kindName tag (shown ++ " does not fit") v)

/-- The key of a number: 32-bit if it fits, 64-bit if it is a safe integer, else floating-point. -/
def ofNumber (n : Number) : Key :=
  match n with
  | .negativeZero => .negativeZero
  | .integer i =>
    if IntegerType.i32.holds i then .integer .i32 i
    else if n.isSafeInteger then .integer .i64 i
    else .float .f64 n
  | _ => .float .f64 n

/-- The key that a value is, its type being inferred. -/
def ofValue (v : Value) : Except Failure Key :=
  match v with
  | .key k => .ok k
  | .date t => .ok (.datetime t)
  | .bool b => .ok (.bool b)
  | .text s => .ok (.text s)
  | .number n => .ok (ofNumber n)
  | .integer n =>
    if IntegerType.i64.holds n then .ok (.integer .i64 n)
    else if IntegerType.u64.holds n then .ok (.integer .u64 n)
    else .error (.conversion "bigint" "i64/u64" (some "out of range"))
  | .absent | .null | .jsonNull | .callable _ | .array _ | .object _ => .error (conversion v.kindName "key")

/-- The key of a value read from the database: UUID text becomes a UUID key and data a JSON key. -/
def ofDatabase (raw : Value) : Except Failure Key :=
  match raw with
  | .text s => .ok (if Uuid.isUuid s then .uuid (Uuid.normalize s) else .text s)
  | .number _ | .integer _ | .bool _ | .date _ => ofValue raw
  | _ => if raw.isJson then .ok (.json raw) else .error (conversion raw.kindName "key")

/-- The label and the body of wrapped text such as `I32(42)`. -/
def unwrap? (cs : List Char) : Option (String × String) :=
  let name := cs.takeWhile fun c => c.isDigit || ('a' ≤ c && c ≤ 'z') || ('A' ≤ c && c ≤ 'Z')
  match name, cs.drop name.length, (cs.drop (name.length + 1)).reverse with
  | _ :: _, '(' :: _, ')' :: body => some (String.ofList name, String.ofList body.reverse)
  | _, _, _ => none

def ofWrapped? (s : String) : Option Key := do
  let (name, body) ← unwrap? s.toList
  let kind ← ofLabel? name
  (ofColumn kind (.text body)).toOption

/-- The key of a decimal: single precision when that is exact, text when it is not finite. -/
def ofDecimal (s : String) : Key :=
  let n := Number.ofText s
  if !n.isFinite then .text s
  else if n.toSingle.equal n then .float .f32 n
  else .float .f64 n

/-- The key that a text without wrapper denotes: the first integer width that holds it, a decimal, a
truth value, a UUID, or the text itself. -/
def ofPlain (s : String) : Key :=
  match Number.intOfText? s with
  | some n =>
    match IntegerType.all.find? fun width => width.holds n with
    | some width => .integer width n
    | none => .text s
  | none =>
    if isDecimalText s then ofDecimal s
    else if s = "true" then .bool true
    else if s = "false" then .bool false
    else if Uuid.isUuid s then .uuid (Uuid.normalize s)
    else .text s

def parse (s : String) : Key := (ofWrapped? s).getD (ofPlain s)

/-- The key that a value denotes as text. What is no text itself has to have wrapped text. -/
def parseValue (v : Value) : Except Failure Key := do
  match v with
  | .text s => return parse s
  | v =>
    match ofWrapped? (← v.inserted) with
    | some k => return k
    | none =>
      let _ ← v.get "trim"
      throw (.wrongKind "text.trim is not a function")

end Key

namespace KeyForm

open Key (label columnInt? isDecimalText isRangeless refusal)

/-- Text that is equal for equal keys and only for them. -/
def hash (k : Key) : String :=
  let body := match k with
    | .integer _ n => Number.intText n
    | .negativeZero => "0"
    | .float _ n => if n = .negativeZero then "-0" else n.toText
    | .text s | .uuid s | .date s | .time s => s
    | .bool b => if b then "true" else "false"
    | .datetime (some t) => Number.intText t
    | .datetime none => "NaN"
    | .json payload => payload.bareJson.canonical
  k.kind.tag ++ ":" ++ body

def equals (a b : Key) : Bool := a.hash == b.hash

/-- The column value of a key, one form for each type. -/
def toColumn (k : Key) : Except Failure Value :=
  match k with
  | .json payload => do return .text (← payload.jsonText .refused)
  | _ => .ok k.value

def toText (k : Key) : Except Failure String := Value.keyText k

def toWrapped (k : Key) : Except Failure String := do
  return label k.kind ++ "(" ++ (← k.toText) ++ ")"

/-- The exact integer of a key, if it has one. -/
def exactInt? (k : Key) : Option Int := columnInt? k.value

def exactNumber? (k : Key) : Option Number :=
  match k.value with
  | .number n => if n.isNaN then none else some n
  | .integer n => some (Number.ofInt n)
  | .text s =>
    if isDecimalText s then
      let n := Number.ofText s
      if n.isNaN then none else some n
    else none
  | _ => none

def refuse (k : Key) (tag : String) : Except Failure Value := do
  throw (.conversion k.kind.tag tag (some (← k.toText)))

def toJsonColumn (k : Key) : Except Failure Value :=
  match k.value with
  | .integer n => .ok (.text (Json.print (.text (Number.intText n))))
  | .date t => do return .text (Json.print (.text (← Value.instantIso t)))
  | v => do return .text (← v.jsonText .refused)

def convert (k : Key) (type : ScalarType) : Except Failure Value :=
  if type = .opaqueType ∨ k.kind = type then k.toColumn
  else
    match type with
    | .integer width =>
      match k.exactInt? with
      | some n =>
        if width.holds n then .ok (if width.isWide then .integer n else .int n) else k.refuse width.tag
      | none => k.refuse width.tag
    | .float width =>
      match k.exactNumber? with
      | some n => .ok (.number (match width with
        | .f32 => n.toSingle
        | .f64 => n))
      | none => k.refuse type.tag
    | .text | .date | .time => do return .text (← k.toText)
    | .uuid =>
      match k.value with
      | .text s => if Uuid.isUuid s then .ok (.text (Uuid.normalize s)) else k.refuse "uuid"
      | _ => k.refuse "uuid"
    | .bool =>
      match k with
      | .text "true" => .ok (.bool true)
      | .text "false" => .ok (.bool false)
      | _ => k.refuse "bool"
    | .datetime =>
      match k.value with
      | .text s =>
        match Time.ofIso? s with
        | some t => .ok (.date (some t))
        | none => k.refuse "datetime"
      | _ => k.refuse "datetime"
    | .json => k.toJsonColumn
    | .opaqueType => k.toColumn

/-- Conversion to the type of a tag; a tag of no type is refused. -/
def convertTag (k : Key) (tag : String) : Except Failure Value :=
  match ScalarType.ofTag? tag with
  | some type => k.convert type
  | none => do
    let shown ← if isRangeless tag then k.toText else .ok ""
    throw (refusal k.kind.tag tag shown k.value)

end KeyForm

end EntityQuery
