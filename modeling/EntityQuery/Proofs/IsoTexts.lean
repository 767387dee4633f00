import EntityQuery.Proofs.DigitTexts
import EntityQuery.Time.Instant
import Mathlib.Algebra.Ring.Nat
/-! Instants that are read back. A number of days is that of its day in the calendar, a day and a time of the day are read
from their digits, and the ISO text of an instant denotes the instant. -/

namespace EntityQuery.Time

section Calendar

/-- Days counted in years of a cycle of four, after the leap days that a century leaves out. -/
theorem cycleYear {n k q s : Int} (parts : n + k = 1461 * q + s) (least : 0 ≤ s) (most : s < 1461) (low : k ≤ q)
    (high : q ≤ k + 99) :
    ∃ r, 0 ≤ r ∧ r ≤ 3 ∧ (n - n / 1460 + k) / 365 = 4 * q + r ∧ 365 * r ≤ s ∧ s ≤ 365 * r + 365 := by
  have days : n / 1460 = q ∧ s < 1460 ∨ n / 1460 = q + 1 ∧ 1361 ≤ s := by omega
  refine ⟨min 3 (s / 365), by omega, by omega, ?_, by omega, by omega⟩
  rcases days with ⟨quotient, before⟩ | ⟨quotient, after⟩
  · rw [quotient]
    omega
  · rw [quotient]
    omega

/-- A day of an era of four hundred years stands in a year of the era, at most a leap year after its first day. -/
theorem yearOfEra {n : Int} (low : 0 ≤ n) (high : n < 146097) :
    ∃ y, (n - n / 1460 + n / 36524 - n / 146096) / 365 = y ∧ 0 ≤ y ∧ y < 400 ∧ 0 ≤ n - (365 * y + y / 4 - y / 100) ∧
      n - (365 * y + y / 4 - y / 100) ≤ 365 := by
  refine ⟨_, rfl, ?_⟩
  by_cases last : n = 146096
  · subst last
    decide
  · have whole : n / 146096 = 0 := by omega
    obtain ⟨k, century, least, most⟩ : ∃ k, n / 36524 = k ∧ 0 ≤ k ∧ k ≤ 3 := ⟨_, rfl, by omega, by omega⟩
    obtain ⟨q, s, parts⟩ : ∃ q s, (n + k) / 1461 = q ∧ (n + k) % 1461 = s := ⟨_, _, rfl, rfl⟩
    obtain ⟨r, first, last, year, before, after⟩ := cycleYear (n := n) (k := k) (q := q) (s := s) (by omega) (by omega)
      (by omega) (by omega) (by omega)
    rw [whole, Int.sub_zero, century, year]
    have cycles : (4 * q + r) / 4 = q := by omega
    have centuries : (4 * q + r) / 100 = k := by omega
    omega

/-- The parts of a day: the era, and in it the year, the month from March on, and the day of the month. -/
theorem epochParts (days : Int) :
    ∃ era y m d : Int, 0 ≤ y ∧ y < 400 ∧ 0 ≤ m ∧ m ≤ 11 ∧ 1 ≤ d ∧ d ≤ 31 ∧
      days = era * 146097 + (y * 365 + y / 4 - y / 100 + ((153 * m + 2) / 5 + d - 1)) - epochOffset ∧
      Day.ofEpoch days = ⟨if m < 10 then y + era * 400 else y + era * 400 + 1, (if m < 10 then m + 3 else m - 9).toNat, d.toNat⟩ := by
  have eras : (days + epochOffset).fdiv 146097 = (days + epochOffset) / 146097 := Int.fdiv_eq_ediv_of_nonneg _ (by decide)
  obtain ⟨era, n, counted, parted⟩ : ∃ era n, (days + epochOffset) / 146097 = era ∧ days + epochOffset - era * 146097 = n :=
    ⟨_, _, rfl, rfl⟩
  obtain ⟨y, year, least, most, first, last⟩ := yearOfEra (n := n) (by omega) (by omega)
  obtain ⟨k, dayOfYear⟩ : ∃ k, n - (365 * y + y / 4 - y / 100) = k := ⟨_, rfl⟩
  obtain ⟨m, month⟩ : ∃ m, (5 * k + 2) / 153 = m := ⟨_, rfl⟩
  refine ⟨era, y, m, k - (153 * m + 2) / 5 + 1, least, most, by omega, by omega, by omega, by omega, by omega, ?_⟩
  unfold Day.ofEpoch
  dsimp only
  rw [eras, counted, parted, year, dayOfYear, month]
  by_cases spring : m < 10
  · have late : ¬ (m + 3 ≤ 2) := by omega
    rw [if_pos spring, if_pos spring, if_neg late]
  · have early : m - 9 ≤ 2 := by omega
    rw [if_neg spring, if_neg spring, if_pos early]

theorem epochBack (days : Int) : (Day.ofEpoch days).toEpoch = days := by
  obtain ⟨era, y, m, d, least, most, first, last, one, long, counted, parts⟩ := epochParts days
  have eras : (y + era * 400).fdiv 400 = era := by
    rw [Int.fdiv_eq_ediv_of_nonneg _ (by decide)]
    omega
  rw [parts]
  unfold Day.toEpoch
  dsimp only
  by_cases spring : m < 10
  · have late : ¬ ((m + 3).toNat ≤ 2) := by omega
    have shifted : (((m + 3).toNat : Int) + 9) % 12 = m := by omega
    rw [if_pos spring, if_pos spring, if_neg late, eras, shifted]
    omega
  · have early : (m - 9).toNat ≤ 2 := by omega
    have shifted : (((m - 9).toNat : Int) + 9) % 12 = m := by omega
    rw [if_neg spring, if_neg spring, if_pos early, Int.add_sub_cancel, eras, shifted]
    omega

/-- A month and a day of two digits, and for the days of instants a year of at most six digits. -/
theorem epochBounds {days : Int} (near : days.natAbs ≤ 100000000) :
    (Day.ofEpoch days).year.natAbs ≤ 999999 ∧ 1 ≤ (Day.ofEpoch days).month ∧ (Day.ofEpoch days).month ≤ 12 ∧
      1 ≤ (Day.ofEpoch days).day ∧ (Day.ofEpoch days).day ≤ 31 := by
  obtain ⟨era, y, m, d, least, most, first, last, one, long, counted, parts⟩ := epochParts days
  unfold epochOffset at counted
  rw [parts]
  dsimp only
  split <;> omega

end Calendar

section Digits

open Number (Ends ofDigits)

variable {width n : Nat} {rest : List Char}

theorem paddedDigits (width n : Nat) : ∀ c ∈ padded width n, c.isDigit := by
  unfold padded Text.padLeft
  refine List.forall_mem_append.mpr ⟨fun c mem => ?_, Number.naturalDigits n⟩
  rw [List.eq_of_mem_replicate mem]
  rfl

theorem paddedLength (wide : 0 < width) (fits : n < 10 ^ width) : (padded width n).length = width := by
  have short : (Nat.toDigits 10 n).length ≤ width := (Nat.length_toDigits_le_iff (by decide) wide).mpr fits
  unfold padded
  rw [Text.length_padLeft]
  omega

theorem paddedBack (width n : Nat) : ofDigits (padded width n) = n := by
  unfold padded Text.padLeft
  rw [Number.zerosBefore, Number.digitsBack]

theorem fixedBack (wide : 0 < width) (fits : n < 10 ^ width) (ends : Ends rest) :
    fixedDigits? width (padded width n ++ rest) = some (n, rest) := by
  unfold fixedDigits?
  rw [Number.takeDigits (paddedDigits width n) ends, Number.dropDigits (paddedDigits width n) ends]
  dsimp only
  rw [if_pos (paddedLength wide fits), paddedBack]

theorem betweenBack {low high : Nat} (wide : 0 < width) (fits : n < 10 ^ width) (ends : Ends rest) (least : low ≤ n) (most : n ≤ high) :
    fixedBetween? width low high (padded width n ++ rest) = some (n, rest) := by
  unfold fixedBetween?
  rw [fixedBack wide fits ends]
  exact if_pos ⟨least, most⟩

/-- Text that does not go on with digits, since it goes on with a mark. -/
theorem endsMark {c : Char} (mark : c.isDigit = false) : Ends (c :: rest) := by
  rintro _ ⟨⟩
  exact mark

theorem yearBack {year : Int} (near : year.natAbs ≤ 999999) (ends : Ends rest) : readYear? (yearText year ++ rest) = some (year, rest) := by
  unfold yearText
  split
  · next plain =>
    have read : fixedDigits? 4 (padded 4 year.toNat ++ rest) = some (year.toNat, rest) := fixedBack (by decide) (by omega) ends
    have digits := paddedDigits 4 year.toNat
    have long : (padded 4 year.toNat).length = 4 := paddedLength (by decide) (by omega)
    cases written : padded 4 year.toNat with
    | nil =>
      rw [written] at long
      cases long
    | cons c cs =>
      rw [written] at read digits
      have digit := digits c List.mem_cons_self
      rw [List.cons_append] at read ⊢
      unfold readYear?
      split
      · next same =>
        obtain ⟨rfl, -⟩ := List.cons.inj same
        cases digit
      · next same =>
        obtain ⟨rfl, -⟩ := List.cons.inj same
        cases digit
      · rw [read]
        exact congrArg (fun y => some (y, rest)) (by omega)
  · next signed =>
    have read : fixedDigits? 6 (padded 6 year.natAbs ++ rest) = some (year.natAbs, rest) := fixedBack (by decide) (by omega) ends
    by_cases negative : year < 0
    · rw [if_pos negative, List.cons_append]
      unfold readYear?
      have nonzero : ¬ year.natAbs = 0 := by omega
      show (fixedDigits? 6 (padded 6 year.natAbs ++ rest) >>= fun x => if x.1 = 0 then none else some (-(x.1 : Int), x.2)) = _
      rw [read]
      show (if year.natAbs = 0 then none else some (-(year.natAbs : Int), rest)) = _
      rw [if_neg nonzero]
      exact congrArg (fun y => some (y, rest)) (by omega)
    · rw [if_neg negative, List.cons_append]
      unfold readYear?
      show (fixedDigits? 6 (padded 6 year.natAbs ++ rest)).map (fun x => ((x.1 : Int), x.2)) = _
      rw [read]
      exact congrArg (fun y => some (y, rest)) (by omega)

end Digits

section Instants

theorem dayBack {d : Day} {rest : List Char} (year : d.year.natAbs ≤ 999999) (month : 1 ≤ d.month ∧ d.month ≤ 12)
    (day : 1 ≤ d.day ∧ d.day ≤ 31) (ends : Number.Ends rest) :
    readDay? (yearText d.year ++ '-' :: (padded 2 d.month ++ '-' :: (padded 2 d.day ++ rest))) = some (d, rest) := by
  have months (tail : List Char) : fixedBetween? 2 1 12 (padded 2 d.month ++ '-' :: tail) = some (d.month, '-' :: tail) :=
    betweenBack (by decide) (by omega) (endsMark rfl) month.1 month.2
  have days : fixedBetween? 2 1 31 (padded 2 d.day ++ rest) = some (d.day, rest) :=
    betweenBack (by decide) (by omega) ends day.1 day.2
  unfold readDay?
  rw [yearBack year (endsMark rfl)]
  simp only [Option.bind_eq_bind, Option.bind_some, months, days]

theorem fractionBack {milli : Nat} (few : milli < 1000) : milliseconds (padded 3 milli) = milli := by
  have long : (padded 3 milli).length = 3 := paddedLength (by decide) few
  have whole : ((padded 3 milli).dropWhile fun c => c == '0').take 9 = (padded 3 milli).dropWhile fun c => c == '0' := by
    have := (List.dropWhile_sublist (l := padded 3 milli) fun c => c == '0').length_le
    exact List.take_of_length_le (by omega)
  unfold milliseconds
  rw [whole, long, Number.zerosDropped, paddedBack]
  exact Nat.div_one milli

theorem secondsBack {second milli : Nat} (seconds : second ≤ 59) (millis : milli < 1000) :
    readSeconds? (':' :: (padded 2 second ++ '.' :: (padded 3 milli ++ ['Z']))) = some (second, milli, ['Z']) := by
  have long : (padded 3 milli).length = 3 := paddedLength (by decide) millis
  have digits : (padded 3 milli).isEmpty = false := by
    rw [List.isEmpty_eq_false_iff, ← List.length_pos_iff, long]
    decide
  have read (tail : List Char) : fixedBetween? 2 0 59 (padded 2 second ++ '.' :: tail) = some (second, '.' :: tail) :=
    betweenBack (by decide) (by omega) (endsMark rfl) (Nat.zero_le second) seconds
  unfold readSeconds?
  simp only [Option.bind_eq_bind, Option.bind_some, read]
  rw [Number.takeDigits (paddedDigits 3 milli) (endsMark rfl), Number.dropDigits (paddedDigits 3 milli) (endsMark rfl), digits,
    fractionBack millis]
  rfl

theorem clockBack {hour minute second milli : Nat} (hours : hour ≤ 23) (minutes : minute ≤ 59) (seconds : second ≤ 59)
    (millis : milli < 1000) :
    readClock? (padded 2 hour ++ ':' :: (padded 2 minute ++ ':' :: (padded 2 second ++ '.' :: (padded 3 milli ++ ['Z'])))) =
      some ((((hour * 60 + minute) * 60 + second) * 1000 + milli : Nat) : Int) := by
  have read (tail : List Char) : fixedBetween? 2 0 59 (padded 2 minute ++ ':' :: tail) = some (minute, ':' :: tail) :=
    betweenBack (by decide) (by omega) (endsMark rfl) (Nat.zero_le minute) minutes
  have offset : readOffset? ['Z'] = some 0 := rfl
  unfold readClock?
  rw [betweenBack (by decide) (by omega) (endsMark rfl) (Nat.zero_le hour) (by omega)]
  simp only [Option.bind_eq_bind, Option.bind_some, read, secondsBack seconds millis, offset]
  rw [if_neg (by omega)]
  exact congrArg some (by omega)

/-- The ISO text of an instant denotes the instant. -/
theorem isoBack {t : Int} (reached : inRange t) : ofIso? (toIso t) = some t := by
  have bound : t.natAbs ≤ greatest.natAbs := of_decide_eq_true reached
  unfold greatest at bound
  obtain ⟨days, counted⟩ : ∃ days, t.ediv dayLength = days := ⟨_, rfl⟩
  obtain ⟨milli, passed⟩ : ∃ milli, (t.emod dayLength).toNat = milli := ⟨_, rfl⟩
  have parts : t = days * dayLength + milli ∧ milli < 86400000 ∧ days.natAbs ≤ 100000000 := by
    rw [show t.ediv dayLength = t / 86400000 from rfl] at counted
    rw [show t.emod dayLength = t % 86400000 from rfl] at passed
    unfold dayLength
    omega
  obtain ⟨whole, short, near⟩ := parts
  obtain ⟨year, firstMonth, lastMonth, firstDay, lastDay⟩ := epochBounds near
  have hours : milli / 3600000 ≤ 23 := by omega
  have minutes : milli / 60000 % 60 ≤ 59 := by omega
  have seconds : milli / 1000 % 60 ≤ 59 := by omega
  have millis : milli % 1000 < 1000 := by omega
  have clock := clockBack hours minutes seconds millis
  have sum : ((milli / 3600000 * 60 + milli / 60000 % 60) * 60 + milli / 1000 % 60) * 1000 + milli % 1000 = milli := by omega
  rw [sum] at clock
  unfold ofIso? toIso isoChars Time.parts
  dsimp only
  rw [String.toList_ofList, passed, counted]
  simp only [List.append_assoc, List.cons_append]
  rw [dayBack year ⟨firstMonth, lastMonth⟩ ⟨firstDay, lastDay⟩ (endsMark rfl)]
  simp only [Option.bind_eq_bind, Option.bind_some, clock]
  rw [epochBack, ← whole, if_pos reached]

end Instants

end EntityQuery.Time
