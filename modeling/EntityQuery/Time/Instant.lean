import EntityQuery.Number.Reading
import EntityQuery.Number.Shortest
import EntityQuery.Text.Units
import EntityQuery.Time.Calendar
/-! Instants in milliseconds since 1970 in universal time, and their ISO 8601 text. Years outside
0 to 9999 are written with a sign and six digits; a day alone is midnight. -/

namespace EntityQuery.Time

abbrev Instant := Int

def dayLength : Int := 86400000

/-- An instant is at most a hundred million days away from 1970. -/
def greatest : Int := 8640000000000000

def inRange (t : Int) : Bool := t.natAbs ≤ greatest.natAbs

/-- The instant at a number of milliseconds, if there is one. -/
def ofMilliseconds? (x : Number) : Option Instant :=
  match x.truncate.int? with
  | some t => if inRange t then some t else none
  | none => none

structure Parts where
  day : Day
  hour : Nat
  minute : Nat
  second : Nat
  millisecond : Nat
  deriving DecidableEq, Repr

def parts (t : Instant) : Parts :=
  let rest := (t.emod dayLength).toNat
  ⟨Day.ofEpoch (t.ediv dayLength), rest / 3600000, rest / 60000 % 60, rest / 1000 % 60, rest % 1000⟩

def padded (width n : Nat) : List Char := Text.padLeft width '0' (Nat.toDigits 10 n)

def yearText (year : Int) : List Char :=
  if 0 ≤ year ∧ year ≤ 9999 then padded 4 year.toNat
  else (if year < 0 then '-' else '+') :: padded 6 year.natAbs

def isoChars (t : Instant) : List Char :=
  let p := parts t
  yearText p.day.year ++ '-' :: padded 2 p.day.month ++ '-' :: padded 2 p.day.day ++ 'T' :: padded 2 p.hour ++
    ':' :: padded 2 p.minute ++ ':' :: padded 2 p.second ++ '.' :: padded 3 p.millisecond ++ ['Z']

/-- ISO 8601 text with milliseconds, in universal time. -/
def toIso (t : Instant) : String := String.ofList (isoChars t)

/-- The year as it is, month and day in two digits. -/
def dayText (t : Instant) : String :=
  let d := (parts t).day
  String.ofList ((Number.intText d.year).toList ++ '-' :: padded 2 d.month ++ '-' :: padded 2 d.day)

def weekdayNames : List String := ["Sun", "Mon", "Tue", "Wed", "Thu", "Fri", "Sat"]

def monthNames : List String :=
  ["Jan", "Feb", "Mar", "Apr", "May", "Jun", "Jul", "Aug", "Sep", "Oct", "Nov", "Dec"]

/-- Weekday, month, day, year, time and zone, as in `Fri Mar 01 2024 00:00:00 GMT+0000 (Coordinated
Universal Time)`. -/
def longText (t : Instant) : String :=
  let p := parts t
  let weekdayName := weekdayNames.getD (weekday (t.ediv dayLength)) ""
  let monthName := monthNames.getD (p.day.month - 1) ""
  let year := (if p.day.year < 0 then ['-'] else []) ++ padded 4 p.day.year.natAbs
  let clock := padded 2 p.hour ++ ':' :: padded 2 p.minute ++ ':' :: padded 2 p.second
  String.intercalate " "
    [weekdayName, monthName, String.ofList (padded 2 p.day.day), String.ofList year, String.ofList clock,
      "GMT+0000 (Coordinated Universal Time)"]

/-- A number written with exactly `width` digits, and what follows. -/
def fixedDigits? (width : Nat) (cs : List Char) : Option (Nat × List Char) :=
  let digits := cs.takeWhile Char.isDigit
  if digits.length = width then some (Number.ofDigits digits, cs.dropWhile Char.isDigit) else none

/-- A fixed-width number of at least `low` and at most `high`. -/
def fixedBetween? (width low high : Nat) (cs : List Char) : Option (Nat × List Char) := do
  let (n, rest) ← fixedDigits? width cs
  if low ≤ n ∧ n ≤ high then some (n, rest) else none

/-- A year of four digits, or of six after a sign; negative year zero is none. -/
def readYear? : List Char → Option (Int × List Char)
  | '+' :: rest => (fixedDigits? 6 rest).map fun (n, tail) => ((n : Int), tail)
  | '-' :: rest => do
    let (n, tail) ← fixedDigits? 6 rest
    if n = 0 then none else some (-(n : Int), tail)
  | cs => (fixedDigits? 4 cs).map fun (n, tail) => ((n : Int), tail)

/-- A year, optionally with a month and a day. -/
def readDay? (cs : List Char) : Option (Day × List Char) := do
  let (year, rest) ← readYear? cs
  match rest with
  | '-' :: tail =>
    let (month, rest) ← fixedBetween? 2 1 12 tail
    match rest with
    | '-' :: tail =>
      let (day, rest) ← fixedBetween? 2 1 31 tail
      some (⟨year, month, day⟩, rest)
    | _ => some (⟨year, month, 1⟩, rest)
  | _ => some (⟨year, 1, 1⟩, rest)

/-- The milliseconds of a fraction of a second. Leading zeros count for its length but not among the nine
digits that are read, and a fraction of more than nine digits has the length nine. -/
def milliseconds (digits : List Char) : Nat :=
  let n := Number.ofDigits ((digits.dropWhile fun c => c == '0').take 9)
  match digits.length with
  | 1 => n * 100
  | 2 => n * 10
  | length => n / Nat.pow 10 (min length 9 - 3)

/-- Seconds and their fraction, if given. -/
def readSeconds? (cs : List Char) : Option (Nat × Nat × List Char) :=
  match cs with
  | ':' :: tail => do
    let (second, rest) ← fixedBetween? 2 0 59 tail
    match rest with
    | '.' :: tail =>
      let digits := tail.takeWhile Char.isDigit
      if digits.isEmpty then none
      else some (second, milliseconds digits, tail.dropWhile Char.isDigit)
    | _ => some (second, 0, rest)
  | _ => some (0, 0, cs)

/-- The offset from universal time in minutes: `Z`, hours and minutes with or without a colon, or
nothing. -/
def readOffset? : List Char → Option Int
  | [] => some 0
  | ['Z'] | ['z'] => some 0
  | c :: rest => do
    let factor : Int ← if c = '+' then some 1 else if c = '-' then some (-1) else none
    match fixedDigits? 4 rest with
    | some (n, tail) =>
      if tail.isEmpty ∧ n / 100 ≤ 23 ∧ n % 100 ≤ 59 then
        some (factor * ((n / 100 * 60 + n % 100 : Nat) : Int))
      else none
    | none =>
      let (hour, tail) ← fixedBetween? 2 0 23 rest
      match tail with
      | ':' :: tail =>
        let (minute, tail) ← fixedBetween? 2 0 59 tail
        if tail.isEmpty then some (factor * ((hour * 60 + minute : Nat) : Int)) else none
      | _ => none

/-- Milliseconds from midnight to a time of the day; 24:00 is the midnight that ends the day. -/
def readClock? (cs : List Char) : Option Int := do
  let (hour, rest) ← fixedBetween? 2 0 24 cs
  match rest with
  | ':' :: tail =>
    let (minute, rest) ← fixedBetween? 2 0 59 tail
    let (second, milli, rest) ← readSeconds? rest
    let offset ← readOffset? rest
    if hour = 24 ∧ (minute, second, milli) ≠ (0, 0, 0) then none
    else some ((((hour * 60 + minute) * 60 + second) * 1000 + milli : Nat) - offset * 60000)
  | _ => none

/-- The instant that an ISO 8601 text denotes: a day, or a day and a time in universal time or with an
offset. -/
def ofIso? (s : String) : Option Instant := do
  let (day, rest) ← readDay? s.toList
  let clock ← match rest with
    | [] => some 0
    | 'T' :: tail | 't' :: tail => readClock? tail
    | _ => none
  let t := day.toEpoch * dayLength + clock
  if inRange t then some t else none

end EntityQuery.Time
