/-! The proleptic Gregorian calendar: days since 1970-01-01 and their year, month and day. -/

namespace EntityQuery.Time

/-- A day of the calendar; year zero is the year before year one. -/
structure Day where
  year : Int
  month : Nat
  day : Nat
  deriving DecidableEq, Repr

def epochOffset : Int := 719468

/-- The number of days from 1970-01-01 to a day; days past a month's end run on into the next. -/
def Day.toEpoch (d : Day) : Int :=
  let year := if d.month ≤ 2 then d.year - 1 else d.year
  let era := year.fdiv 400
  let yearOfEra := year - era * 400
  let shifted : Int := (d.month + 9) % 12
  let dayOfYear := (153 * shifted + 2) / 5 + d.day - 1
  let dayOfEra := yearOfEra * 365 + yearOfEra / 4 - yearOfEra / 100 + dayOfYear
  era * 146097 + dayOfEra - epochOffset

def Day.ofEpoch (days : Int) : Day :=
  let shifted := days + epochOffset
  let era := shifted.fdiv 146097
  let dayOfEra := shifted - era * 146097
  let yearOfEra := (dayOfEra - dayOfEra / 1460 + dayOfEra / 36524 - dayOfEra / 146096) / 365
  let dayOfYear := dayOfEra - (365 * yearOfEra + yearOfEra / 4 - yearOfEra / 100)
  let monthFromMarch := (5 * dayOfYear + 2) / 153
  let day := dayOfYear - (153 * monthFromMarch + 2) / 5 + 1
  let month := if monthFromMarch < 10 then monthFromMarch + 3 else monthFromMarch - 9
  let year := yearOfEra + era * 400
  ⟨if month ≤ 2 then year + 1 else year, month.toNat, day.toNat⟩

/-- Day of the week, Sunday being zero. -/
def weekday (days : Int) : Nat := ((days + 4).emod 7).toNat

example : (Day.mk 1970 1 1).toEpoch = 0 ∧ (Day.mk 2000 2 29).toEpoch = 11016 := by decide

example : Day.ofEpoch (-1) = ⟨1969, 12, 31⟩ ∧ Day.ofEpoch 11016 = ⟨2000, 2, 29⟩ := by decide

end EntityQuery.Time
