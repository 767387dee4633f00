import EntityQuery.Number
import EntityQuery.Text.Blank
/-! Reading numbers and integers from text. Blank characters around a number do not count, an empty
text is zero, and text of any other form is not a number. -/

namespace EntityQuery.Number

open EntityQuery.Text (trimChars)

def digitValue (c : Char) : Nat := c.toNat - '0'.toNat

def ofDigits (cs : List Char) : Nat := cs.foldl (fun n c => 10 * n + digitValue c) 0

def digitIn? (base : Nat) (c : Char) : Option Nat :=
  let value :=
    if c.isDigit then digitValue c
    else if 'a' ≤ c ∧ c ≤ 'f' then c.toNat - 'a'.toNat + 10
    else if 'A' ≤ c ∧ c ≤ 'F' then c.toNat - 'A'.toNat + 10
    else base
  if value < base then some value else none

/-- The natural number that a non-empty list of digits denotes in a base. -/
def ofDigitsIn? (base : Nat) (cs : List Char) : Option Nat :=
  if cs.isEmpty then none
  else cs.foldlM (fun n c => (digitIn? base c).map (base * n + ·)) 0

/-- An optional sign: whether the number is negative, and what follows. -/
def sign : List Char → Bool × List Char
  | '+' :: rest => (false, rest)
  | '-' :: rest => (true, rest)
  | cs => (false, cs)

/-- The integer denoted by an optional sign and one or more decimal digits. -/
def readInt? (cs : List Char) : Option Int :=
  let (negative, digits) := sign cs
  if digits.isEmpty || !digits.all Char.isDigit then none
  else some (if negative then -(ofDigits digits : Int) else ofDigits digits)

/-- A decimal: digits before and after the point, and an exponent. -/
structure Decimal where
  negative : Bool
  digits : List Char
  exponent : Int
  deriving DecidableEq, Repr

/-- The exponent part of a decimal, `e` or `E`, a sign and digits; nothing is exponent zero. -/
def readExponent? : List Char → Option Int
  | [] => some 0
  | 'e' :: rest | 'E' :: rest => readInt? rest
  | _ => none

/-- A decimal with at least one digit before or after its point. -/
def readDecimal? (cs : List Char) : Option Decimal :=
  let (negative, body) := sign cs
  let whole := body.takeWhile Char.isDigit
  let (places, rest) :=
    match body.dropWhile Char.isDigit with
    | '.' :: tail => (tail.takeWhile Char.isDigit, tail.dropWhile Char.isDigit)
    | tail => ([], tail)
  if whole.isEmpty && places.isEmpty then none
  else (readExponent? rest).map fun e => ⟨negative, whole ++ places, e - places.length⟩

/-- Exponents past this one only make a number infinite or zero. -/
def exponentBound : Int := 400

def Decimal.toNumber (d : Decimal) : Number :=
  let n := ofDigits d.digits
  let size : Int := d.digits.length
  if n = 0 then zero d.negative
  else if exponentBound < d.exponent then .infinity d.negative
  else if d.exponent < -exponentBound - size then zero d.negative
  else if 0 ≤ d.exponent then round double d.negative (n * Nat.pow 10 d.exponent.toNat) 1
  else round double d.negative n (Nat.pow 10 (-d.exponent).toNat)

/-- A decimal, or a signed `Infinity`. -/
def readSigned (cs : List Char) : Number :=
  let (negative, body) := sign cs
  if body = "Infinity".toList then .infinity negative
  else
    match readDecimal? cs with
    | some d => d.toNumber
    | none => .nan

def ofNat? (n : Option Nat) : Number :=
  match n with
  | some n => ofInt n
  | none => .nan

/-- The number that a text denotes. Beside decimals there are unsigned hexadecimal, octal and binary
numbers, marked `0x`, `0o` and `0b`. -/
def ofText (s : String) : Number :=
  match trimChars s.toList with
  | [] => .integer 0
  | '0' :: 'x' :: rest | '0' :: 'X' :: rest => ofNat? (ofDigitsIn? 16 rest)
  | '0' :: 'o' :: rest | '0' :: 'O' :: rest => ofNat? (ofDigitsIn? 8 rest)
  | '0' :: 'b' :: rest | '0' :: 'B' :: rest => ofNat? (ofDigitsIn? 2 rest)
  | cs => readSigned cs

/-- The integer that starts a text after blanks, read up to the first other character. -/
def leadingInt? (s : String) : Option Int :=
  let (negative, body) := sign (s.toList.dropWhile Text.isBlank)
  let digits := body.takeWhile Char.isDigit
  if digits.isEmpty then none
  else some (if negative then -(ofDigits digits : Int) else ofDigits digits)

/-- The number that starts a text, which is negative zero for a zero with a minus sign. -/
def leadingNumber? (s : String) : Option Number :=
  match leadingInt? s with
  | some 0 => some (zero (sign (s.toList.dropWhile Text.isBlank)).1)
  | some n => some (ofInt n)
  | none => none

/-- Decimal integer text: an optional sign and digits, with blanks allowed around them. -/
def intOfText? (s : String) : Option Int := readInt? (trimChars s.toList)

/-- The exact integer that a text denotes: decimal with an optional sign, or unsigned hexadecimal, octal or
binary. -/
def exactOfText? (s : String) : Option Int :=
  match trimChars s.toList with
  | [] => some 0
  | '0' :: 'x' :: rest | '0' :: 'X' :: rest => (ofDigitsIn? 16 rest).map Int.ofNat
  | '0' :: 'o' :: rest | '0' :: 'O' :: rest => (ofDigitsIn? 8 rest).map Int.ofNat
  | '0' :: 'b' :: rest | '0' :: 'B' :: rest => (ofDigitsIn? 2 rest).map Int.ofNat
  | cs => readInt? cs

def isDecimalText (cs : List Char) : Bool := (readDecimal? cs).isSome

end EntityQuery.Number
