/-! Binary floating-point numbers as exact data. A finite number is kept as the integer it is or as
an odd numerator over a power of two, so arithmetic is exact integer work followed by one rounding
to the nearest number of a format, halves going to the even neighbour. -/

namespace EntityQuery

/-- A double-precision number. `integer` holds every integral value except negative zero, and
`fraction n k` is `n / 2 ^ k` with `n` odd and `k` positive. -/
inductive Number where
  | integer (value : Int)
  | fraction (numerator : Int) (scale : Nat)
  | negativeZero
  | infinity (negative : Bool)
  | nan
  deriving DecidableEq, Repr, Inhabited

namespace Number

/-- A binary format: significant bits, the exponent of its smallest step, and the exponent at which
magnitudes overflow. -/
structure Format where
  precision : Nat
  leastExponent : Int
  overflowExponent : Nat
  deriving DecidableEq, Repr

def double : Format := ⟨53, -1074, 1024⟩

def single : Format := ⟨24, -149, 128⟩

/-- The quotient rounded to the nearest natural number, a half going to the even one. -/
def roundQuotient (numerator denominator : Nat) : Nat :=
  let quotient := numerator / denominator
  let rest := 2 * (numerator % denominator)
  if rest < denominator then quotient
  else if rest = denominator then quotient + quotient % 2
  else quotient + 1

/-- Halve `value` while it is even, at most `scale` times. -/
def reduce : Nat → Nat → Nat × Nat
  | value, 0 => (value, 0)
  | value, scale + 1 => if value % 2 = 0 then reduce (value / 2) scale else (value, scale + 1)

def signed (negative : Bool) (magnitude : Nat) : Int :=
  if negative then -(magnitude : Int) else magnitude

def zero (negative : Bool) : Number := if negative then .negativeZero else .integer 0

/-- The number `significand * 2 ^ exponent` with the given sign. -/
def ofScaled (negative : Bool) (significand : Nat) (exponent : Int) : Number :=
  if significand = 0 then zero negative
  else if 0 ≤ exponent then .integer (signed negative (significand * Nat.pow 2 exponent.toNat))
  else
    match reduce significand (-exponent).toNat with
    | (odd, 0) => .integer (signed negative odd)
    | (odd, scale + 1) => .fraction (signed negative odd) (scale + 1)

/-- The exponent of the last significant bit that `numerator / denominator` has in the format. -/
def stepExponent (format : Format) (numerator denominator : Nat) : Int :=
  let estimate : Int := Nat.log2 numerator - Nat.log2 denominator - (format.precision - 1)
  let reached :=
    if 0 ≤ estimate then
      denominator * Nat.pow 2 estimate.toNat * Nat.pow 2 (format.precision - 1) ≤ numerator
    else denominator * Nat.pow 2 (format.precision - 1) ≤ numerator * Nat.pow 2 (-estimate).toNat
  max (if reached then estimate else estimate - 1) format.leastExponent

/-- The number of the format nearest to `± numerator / denominator`. -/
def round (format : Format) (negative : Bool) (numerator denominator : Nat) : Number :=
  if numerator = 0 then zero negative
  else
    let exponent := stepExponent format numerator denominator
    let significand :=
      if 0 ≤ exponent then roundQuotient numerator (denominator * Nat.pow 2 exponent.toNat)
      else roundQuotient (numerator * Nat.pow 2 (-exponent).toNat) denominator
    if 0 ≤ exponent ∧ Nat.pow 2 format.overflowExponent ≤ significand * Nat.pow 2 exponent.toNat then
      .infinity negative
    else ofScaled negative significand exponent

/-- Integers of at most this magnitude, and all below them, are numbers. -/
def integerBound : Nat := Nat.pow 2 53

def ofInt (n : Int) : Number :=
  if n.natAbs ≤ integerBound then .integer n else round double (n < 0) n.natAbs 1

def ofRatio (numerator : Int) (denominator : Nat) : Number :=
  if denominator = 1 then ofInt numerator
  else round double (numerator < 0) numerator.natAbs denominator

def ratio? : Number → Option (Int × Nat)
  | .integer n => some (n, 1)
  | .fraction n k => some (n, Nat.pow 2 k)
  | .negativeZero => some (0, 1)
  | .infinity _ | .nan => none

def int? : Number → Option Int
  | .integer n => some n
  | .negativeZero => some 0
  | _ => none

def isNaN (x : Number) : Bool := x == .nan

def isFinite : Number → Bool
  | .infinity _ | .nan => false
  | _ => true

def isNegative : Number → Bool
  | .integer n | .fraction n _ => n < 0
  | .negativeZero => true
  | .infinity negative => negative
  | .nan => false

def isZero : Number → Bool
  | .integer n => n == 0
  | .negativeZero => true
  | _ => false

/-- An integral number that no other integer rounds to. -/
def isSafeInteger (x : Number) : Bool :=
  match x.int? with
  | some n => n.natAbs < integerBound
  | none => false

def neg : Number → Number
  | .integer n => if n = 0 then .negativeZero else .integer (-n)
  | .fraction n k => .fraction (-n) k
  | .negativeZero => .integer 0
  | .infinity negative => .infinity !negative
  | .nan => .nan

def toSingle (x : Number) : Number :=
  match x with
  | .integer n => if n = 0 then x else round single (n < 0) n.natAbs 1
  | .fraction n k => round single (n < 0) n.natAbs (Nat.pow 2 k)
  | _ => x

def add (x y : Number) : Number :=
  match x, y with
  | .nan, _ | _, .nan => .nan
  | .infinity p, .infinity q => if p = q then .infinity p else .nan
  | .infinity p, _ => .infinity p
  | _, .infinity q => .infinity q
  | .negativeZero, .negativeZero => .negativeZero
  | .integer m, .integer n => ofInt (m + n)
  | _, _ =>
    match x.ratio?, y.ratio? with
    | some (a, b), some (c, d) => ofRatio (a * d + c * b) (b * d)
    | _, _ => .nan

def sub (x y : Number) : Number := x.add y.neg

def mul (x y : Number) : Number :=
  match x, y with
  | .nan, _ | _, .nan => .nan
  | .infinity _, _ | _, .infinity _ =>
    if x.isZero || y.isZero then .nan else .infinity (x.isNegative != y.isNegative)
  | _, _ =>
    match x.ratio?, y.ratio? with
    | some (a, b), some (c, d) =>
      if a * c = 0 then zero (x.isNegative != y.isNegative) else ofRatio (a * c) (b * d)
    | _, _ => .nan

def div (x y : Number) : Number :=
  let negative := x.isNegative != y.isNegative
  match x, y with
  | .nan, _ | _, .nan => .nan
  | .infinity _, .infinity _ => .nan
  | .infinity _, _ => .infinity negative
  | _, .infinity _ => zero negative
  | _, _ =>
    match x.ratio?, y.ratio? with
    | some (a, b), some (c, d) =>
      if c = 0 then (if a = 0 then .nan else .infinity negative)
      else if a = 0 then zero negative
      else round double negative (a.natAbs * d) (b * c.natAbs)
    | _, _ => .nan

/-- The integral number next to `x` in the direction of zero. -/
def truncate (x : Number) : Number :=
  match x with
  | .fraction n k =>
    if n.natAbs < Nat.pow 2 k then zero (n < 0) else .integer (n.tdiv (Nat.pow 2 k))
  | _ => x

/-- How two numbers compare; not a number compares with nothing. -/
def compare? (x y : Number) : Option Ordering :=
  match x, y with
  | .nan, _ | _, .nan => none
  | .infinity p, .infinity q => some (if p = q then .eq else if p then .lt else .gt)
  | .infinity p, _ => some (if p then .lt else .gt)
  | _, .infinity q => some (if q then .gt else .lt)
  | .integer m, .integer n => some (compare m n)
  | _, _ =>
    match x.ratio?, y.ratio? with
    | some (a, b), some (c, d) => some (compare (a * d) (c * b))
    | _, _ => none

/-- Numeric equality: both zeros are equal and not a number differs from itself. -/
def equal (x y : Number) : Bool := x.compare? y == some .eq

theorem ofInt_of_le {n : Int} (h : n.natAbs ≤ integerBound) : ofInt n = .integer n := by
  simp [ofInt, h]

@[simp] theorem int?_integer (n : Int) : (Number.integer n).int? = some n := rfl

end Number

end EntityQuery
