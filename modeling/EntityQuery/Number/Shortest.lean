import EntityQuery.Number
/-! The decimal text of a number: the fewest significant digits that read back as the number, of
those the nearest (the even one of two), and a layout that is positional between 10^-7 and 10^21. -/

namespace EntityQuery.Number

/-- Digits of a positive number with the power of ten of the point that stands before the first:
`⟨[1, 2], 1⟩` is 1.2. -/
structure Digits where
  digits : List Char
  point : Int
  deriving DecidableEq, Repr

/-- The interval of reals that round to a double, in units of `1 / denominator`. -/
structure Interval where
  low : Nat
  value : Nat
  high : Nat
  denominator : Nat
  closed : Bool
  deriving DecidableEq, Repr

/-- The reals that round to the double `numerator / denominator`; its ends belong to it when the
last significant bit is even. -/
def interval (numerator denominator : Nat) : Interval :=
  let exponent := stepExponent double numerator denominator
  let scaled := if exponent < 0 then numerator * Nat.pow 2 (-exponent).toNat else numerator
  let significand := scaled / (if exponent < 0 then denominator else denominator * Nat.pow 2 exponent.toNat)
  let below := if significand = Nat.pow 2 52 ∧ double.leastExponent < exponent then 1 else 2
  let closed := significand % 2 == 0
  if exponent < 0 then
    ⟨4 * significand - below, 4 * significand, 4 * significand + 2, 4 * Nat.pow 2 (-exponent).toNat, closed⟩
  else
    let unit := Nat.pow 2 exponent.toNat
    ⟨(4 * significand - below) * unit, 4 * significand * unit, (4 * significand + 2) * unit, 4, closed⟩

/-- Does `candidate * 10 ^ power` lie in the interval? -/
def Interval.holds (i : Interval) (candidate : Nat) (power : Int) : Bool :=
  let scaled := if 0 ≤ power then candidate * Nat.pow 10 power.toNat * i.denominator else candidate * i.denominator
  let unit := if 0 ≤ power then 1 else Nat.pow 10 (-power).toNat
  if i.closed then decide (i.low * unit ≤ scaled ∧ scaled ≤ i.high * unit)
  else decide (i.low * unit < scaled ∧ scaled < i.high * unit)

/-- The greatest power of ten that is at most `numerator / denominator`. -/
def decimalExponent (numerator denominator : Nat) : Int :=
  if denominator ≤ numerator then ((Nat.toDigits 10 (numerator / denominator)).length : Int) - 1
  else
    let places := (Nat.toDigits 10 (denominator / numerator)).length - 1
    if numerator * Nat.pow 10 places = denominator then -(places : Int) else -(places : Int) - 1

/-- The neighbour of the number on the grid of `precision` significant digits that reads back as it,
the nearer one when both do, and of two equally near ones the even one. -/
def shortestAt (numerator denominator : Nat) (i : Interval) (exponent : Int) (precision : Nat) :
    Option (Nat × Int) :=
  let power := exponent + 1 - precision
  let scaled := if power < 0 then numerator * Nat.pow 10 (-power).toNat else numerator
  let unit := if power < 0 then denominator else denominator * Nat.pow 10 power.toNat
  let below := scaled / unit
  match i.holds below power && below != 0, i.holds (below + 1) power with
  | true, true => some (roundQuotient scaled unit, power)
  | true, false => some (below, power)
  | false, true => some (below + 1, power)
  | false, false => none

def dropTrailingZeros (digits : List Char) : List Char :=
  (digits.reverse.dropWhile (· == '0')).reverse

/-- The fewest digits that read back as `numerator / denominator`; seventeen always do. -/
def shortest (numerator denominator : Nat) : Digits :=
  let i := interval numerator denominator
  let exponent := decimalExponent numerator denominator
  match (List.range 17).findSome? (fun k => shortestAt numerator denominator i exponent (k + 1)) with
  | some (candidate, power) =>
    let digits := Nat.toDigits 10 candidate
    ⟨dropTrailingZeros digits, digits.length + power⟩
  | none => ⟨['0'], 1⟩

/-- Which numbers are written without an exponent: those whose point stands after more than
`leastPoint` and at most `greatestPoint` digits. -/
structure Layout where
  leastPoint : Int
  greatestPoint : Int
  deriving DecidableEq, Repr

/-- Positional from 0.000001 up to twenty-one digits before the point. -/
def Layout.standard : Layout := ⟨-6, 21⟩

def Digits.layOut (layout : Layout) (d : Digits) : List Char :=
  let count := d.digits.length
  if layout.leastPoint < d.point ∧ d.point ≤ layout.greatestPoint then
    if d.point ≤ 0 then '0' :: '.' :: List.replicate (-d.point).toNat '0' ++ d.digits
    else if count ≤ d.point.toNat then d.digits ++ List.replicate (d.point.toNat - count) '0'
    else d.digits.take d.point.toNat ++ '.' :: d.digits.drop d.point.toNat
  else
    let exponent := d.point - 1
    let mantissa := match d.digits with
      | [] => []
      | [c] => [c]
      | c :: rest => c :: '.' :: rest
    mantissa ++ 'e' :: (if exponent < 0 then '-' else '+') :: (Nat.toDigits 10 exponent.natAbs)

def magnitudeText (numerator denominator : Nat) : List Char :=
  (shortest numerator denominator).layOut .standard

def intText (n : Int) : String :=
  String.ofList (if n < 0 then '-' :: Nat.toDigits 10 n.natAbs else Nat.toDigits 10 n.natAbs)

/-- The decimal text of a number; both zeros are written `0`. -/
def toText : Number → String
  | .integer n =>
    if n.natAbs ≤ integerBound then intText n
    else
      let digits := magnitudeText n.natAbs 1
      String.ofList (if n < 0 then '-' :: digits else digits)
  | .fraction n k =>
    let digits := magnitudeText n.natAbs (Nat.pow 2 k)
    String.ofList (if n < 0 then '-' :: digits else digits)
  | .negativeZero => "0"
  | .infinity negative => if negative then "-Infinity" else "Infinity"
  | .nan => "NaN"

/-- A positive ratio at `precision` significant digits, a half going up, as the nearest number. -/
def atPrecision (negative : Bool) (numerator denominator precision : Nat) : Number :=
  let power := decimalExponent numerator denominator + 1 - precision
  let scaled := if power < 0 then numerator * Nat.pow 10 (-power).toNat else numerator
  let unit := if power < 0 then denominator else denominator * Nat.pow 10 power.toNat
  let digits := (2 * scaled + unit) / (2 * unit)
  if power < 0 then round double negative digits (Nat.pow 10 (-power).toNat)
  else round double negative (digits * Nat.pow 10 power.toNat) 1

/-- The decimal text of a single-precision number: the fewest digits, at most nine, that read back
as the same single-precision number. -/
def toSingleText (x : Number) : String :=
  match x.ratio? with
  | none => x.toText
  | some (0, _) => x.toText
  | some (n, d) =>
    let tried := (List.range 9).map fun k => atPrecision (n < 0) n.natAbs d (k + 1)
    match tried.find? fun y => y.toSingle.equal x with
    | some y => y.toText
    | none => x.toText

end EntityQuery.Number
