import EntityQuery.Failure
import EntityQuery.Number.Reading
import EntityQuery.Value.Reading
/-! The text and the number of a value. Lists are joined by commas, objects have no text of their own,
and dates are written out at length. -/

namespace EntityQuery.Value

open EntityQuery (Failure)

/-- The single-precision or double-precision text of a floating-point key. -/
def floatText : FloatType → Number → String
  | .f32, n => n.toSingleText
  | .f64, n => n.toText

/-- The document a value is written as, or the failure of a value that has none. -/
def document (rule : IntegerRule) (v : Value) : Except Failure (Option Json) :=
  (v.toJson? rule).mapError fun _ => Failure.exactIntegerInJson

def jsonText? (rule : IntegerRule) (v : Value) : Except Failure (Option String) := do
  let j ← v.document rule
  return j.map Json.print

/-- JSON text of a value, null for one that has none. -/
def jsonText (rule : IntegerRule) (v : Value) : Except Failure String := do
  return ((← v.document rule).getD .null).print

def instantIso : Option Int → Except Failure String
  | some t => .ok (Time.toIso t)
  | none => .error .invalidInstant

/-- The text of a key without its kind. -/
def keyText : Key → Except Failure String
  | .integer _ n => .ok (Number.intText n)
  | .negativeZero => .ok "0"
  | .float width n => .ok (floatText width n)
  | .text s | .uuid s | .date s | .time s => .ok s
  | .bool b => .ok (if b then "true" else "false")
  | .datetime t => instantIso t
  | .json payload => payload.jsonText .refused

def callableText (name : String) : String :=
  "function " ++ (if name = "constructor" then "Object" else name) ++ "() \x7b [native code] \x7d"

/-- An object whose own `toString` is no function has no text. -/
def objectText (members : List (String × Value)) : Except Failure String :=
  if Record.has members "toString" then .error (.wrongKind "Cannot convert object to primitive value")
  else .ok "[object Object]"

mutual

def display : Value → Except Failure String
  | .absent => .ok "undefined"
  | .null => .ok "null"
  | .bool b => .ok (if b then "true" else "false")
  | .number n => .ok n.toText
  | .integer n => .ok (Number.intText n)
  | .text s => .ok s
  | .date (some t) => .ok (Time.longText t)
  | .date none => .ok "Invalid Date"
  | .jsonNull => .ok "Symbol(relgen.jsonNull)"
  | .callable name => .ok (callableText name)
  | .key k => keyText k
  | .array items => do return String.intercalate "," (← displayItems items)
  | .object members => objectText members
termination_by structural v => v

/-- The texts of list items, empty for null and absent ones; a JSON null marker cannot be joined. -/
def displayItems : List Value → Except Failure (List String)
  | [] => .ok []
  | .jsonNull :: _ => .error (.wrongKind "Cannot convert a Symbol value to a string")
  | item :: rest => do
    let s ← if item.isNothing then .ok "" else display item
    let others ← displayItems rest
    return s :: others
termination_by structural items => items

end

/-- The text of a value inside another text, which a JSON null marker does not have. -/
def inserted (v : Value) : Except Failure String :=
  match v with
  | .jsonNull => .error (.wrongKind "Cannot convert a Symbol value to a string")
  | v => v.display

def insertedJson (v : Value) : Except Failure String := do
  return (← v.jsonText? .refused).getD "undefined"

/-- The number of a value: instants count milliseconds, texts are read, and lists, keys and objects are
read as text. A JSON null marker has none. -/
def toNumber (v : Value) : Except Failure Number :=
  match v with
  | .absent => .ok .nan
  | .null => .ok (.integer 0)
  | .bool b => .ok (.integer (if b then 1 else 0))
  | .number n => .ok n
  | .integer n => .ok (Number.ofInt n)
  | .text s => .ok (Number.ofText s)
  | .date (some t) => .ok (.integer t)
  | .date none | .callable _ => .ok .nan
  | .jsonNull => .error (.wrongKind "Cannot convert a Symbol value to a number")
  | .key _ | .array _ | .object _ => do return Number.ofText (← v.display)

/-- The number of a value that is no exact integer. -/
def plainNumber (v : Value) : Except Failure Number :=
  match v with
  | .integer _ => .error (.wrongKind "Cannot convert a BigInt value to a number")
  | v => v.toNumber

/-- The exact integer of a value: a truth value, an integral number, an instant in milliseconds, or text
of an integer. -/
def readExact (v : Value) : Except Failure Int := do
  let fractional (n : Number) : Failure :=
    .wrongRange s!"The number {n.toText} cannot be converted to a BigInt because it is not an integer"
  match v with
  | .absent | .null | .jsonNull =>
    let shown ← v.display
    throw (.wrongKind s!"Cannot convert {shown} to a BigInt")
  | .bool b => return if b then 1 else 0
  | .integer n | .date (some n) => return n
  | .number n =>
    match n.int? with
    | some i => return i
    | none => throw (fractional n)
  | .date none => throw (fractional .nan)
  | .text _ | .callable _ | .key _ | .array _ | .object _ =>
    let s ← v.display
    match Number.exactOfText? s with
    | some n => return n
    | none => throw (.wrongSyntax s!"Cannot convert {s} to a BigInt")

def isBelowZero (v : Value) : Except Failure Bool := do
  return (← v.toNumber).compare? (.integer 0) == some .lt

def isAboveZero (v : Value) : Except Failure Bool := do
  return (← v.toNumber).compare? (.integer 0) == some .gt

/-- A value as it is added: dates, keys, lists and objects are texts. -/
def summand (v : Value) : Except Failure Value := do
  match v with
  | .date _ | .callable _ | .key _ | .array _ | .object _ => return .text (← v.display)
  | v => return v

/-- The sum of two values: texts are written one after the other, and anything else is added as a number. -/
def plus (a b : Value) : Except Failure Value := do
  match ← a.summand, ← b.summand with
  | .text s, b => return .text (s ++ (← b.inserted))
  | a, .text s => return .text ((← a.inserted) ++ s)
  | .integer m, .integer n => return .integer (m + n)
  | .integer _, _ | _, .integer _ =>
    throw (.wrongKind "Cannot mix BigInt and other types, use explicit conversions")
  | a, b => return .number ((← a.toNumber).add (← b.toNumber))

/-- The member of a value that has members, which null and absent values have not. -/
def get (v : Value) (name : String) : Except Failure Value :=
  match v with
  | .absent => .error (.wrongKind s!"Cannot read properties of undefined (reading '{name}')")
  | .null => .error (.wrongKind s!"Cannot read properties of null (reading '{name}')")
  | v => .ok (v.member name)

def asName (v : Value) : Except Failure String := do
  match v with
  | .text s => return s
  | v =>
    let _ ← v.get "replace"
    throw (.wrongKind "name.replace is not a function")

/-- What a value of a name goes through, if it goes through anything. -/
def spread (name : String) (v : Value) : Except Failure (List Value) :=
  match v.sequence? with
  | some items => .ok items
  | none => .error (.wrongKind s!"{name} is not iterable")

end EntityQuery.Value
