import EntityQuery.Proofs.DocumentTexts
import EntityQuery.Proofs.Doubles
import Mathlib.Data.List.TakeWhile
/-! The decimal texts of doubles. The digits that are chosen for a double round to it, every layout of digits is read as
their value, and so doubles of one text are one double. -/

namespace EntityQuery.Number

section Shortest

variable {m p q : Nat} {e : Int}

theorem decimalLeast (some : 0 < p) (positive : 0 < q) : (10 : ℚ) ^ decimalExponent p q ≤ p / q := by
  have unit : (0 : ℚ) < q := by exact_mod_cast positive
  have digitsOf {n : Nat} (some : 0 < n) : ∃ k, (Nat.toDigits 10 n).length = k + 1 ∧ 10 ^ k ≤ n ∧ n < 10 ^ (k + 1) := by
    have written : 0 < (Nat.toDigits 10 n).length := List.length_pos_iff.mpr Nat.toDigits_ne_nil
    obtain ⟨k, length⟩ : ∃ k, (Nat.toDigits 10 n).length = k + 1 := ⟨(Nat.toDigits 10 n).length - 1, by omega⟩
    refine ⟨k, length, ?_, (Nat.length_toDigits_le_iff (by decide) k.succ_pos).mp length.le⟩
    by_contra small
    rcases k with _ | k
    · omega
    · have := (Nat.length_toDigits_le_iff (b := 10) (by decide) k.succ_pos).mpr (not_le.mp small)
      omega
  rw [le_div_iff₀ unit]
  unfold decimalExponent
  split
  · next above =>
    obtain ⟨k, length, least, -⟩ := digitsOf (Nat.div_pos above positive)
    have exponent : ((Nat.toDigits 10 (p / q)).length : Int) - 1 = k := by omega
    rw [exponent, zpow_natCast]
    have : 10 ^ k * q ≤ p := (Nat.mul_le_mul_right q least).trans (Nat.div_mul_le_self p q)
    exact_mod_cast this
  · next below =>
    obtain ⟨k, length, -, most⟩ := digitsOf (Nat.div_pos (not_le.mp below).le some)
    have places : (Nat.toDigits 10 (q / p)).length - 1 = k := by omega
    dsimp only
    rw [places]
    split
    · next exact =>
      have : p * 10 ^ k = q := exact
      rw [zpow_neg, zpow_natCast, ← this]
      push_cast
      field_simp
      exact le_rfl
    · have wide : q < p * 10 ^ (k + 1) := by
        have := Nat.lt_mul_div_succ q some
        calc q < p * (q / p + 1) := this
          _ ≤ p * 10 ^ (k + 1) := Nat.mul_le_mul_left p most
      have exponent : (-(k : Int) - 1) = -((k + 1 : Nat) : Int) := by omega
      rw [exponent, zpow_neg, zpow_natCast, inv_mul_le_iff₀ (by positivity), mul_comm]
      exact_mod_cast wide.le

theorem gridAround (positive : 0 < q) (power : Int) :
    let below := (if power < 0 then p * Nat.pow 10 (-power).toNat else p) / (if power < 0 then q else q * Nat.pow 10 power.toNat)
    (below : ℚ) * 10 ^ power ≤ p / q ∧ (p : ℚ) / q < (below + 1 : Nat) * 10 ^ power := by
  have unit : (0 : ℚ) < q := by exact_mod_cast positive
  obtain ⟨scaled, scale, same, some, value⟩ : ∃ scaled scale : Nat,
      (if power < 0 then p * Nat.pow 10 (-power).toNat else p) / (if power < 0 then q else q * Nat.pow 10 power.toNat) =
        scaled / scale ∧
        0 < scale ∧ (p : ℚ) / q = scaled / scale * 10 ^ power := by
    by_cases less : power < 0
    · obtain ⟨k, rfl⟩ : ∃ k : Nat, power = -(k : Int) := ⟨(-power).toNat, by omega⟩
      refine ⟨p * 10 ^ k, q, ?_, positive, ?_⟩
      · simp only [less, if_true, Int.neg_neg, Int.toNat_natCast]
        rfl
      · push_cast
        rw [zpow_neg, zpow_natCast]
        field_simp
    · obtain ⟨k, rfl⟩ := Int.eq_ofNat_of_zero_le (not_lt.mp less)
      refine ⟨p, q * 10 ^ k, ?_, Nat.mul_pos positive (Nat.pow_pos (by decide)), ?_⟩
      · simp only [less, if_false, Int.toNat_natCast]
        rfl
      · push_cast
        rw [zpow_natCast]
        field_simp
  have step : (0 : ℚ) < 10 ^ power := zpow_pos (by norm_num) power
  have some' : (0 : ℚ) < scale := by exact_mod_cast some
  dsimp only
  rw [same, value]
  constructor
  · refine mul_le_mul_of_nonneg_right ?_ step.le
    rw [le_div_iff₀ some']
    exact_mod_cast Nat.div_mul_le_self scaled scale
  · refine mul_lt_mul_of_pos_right ?_ step
    rw [div_lt_iff₀ some']
    have := Nat.lt_mul_div_succ scaled some
    rw [mul_comm] at this
    exact_mod_cast this

variable {exponent : Int} {precision : Nat}

/-- What is chosen at a precision rounds to the double. -/
theorem chosenRounds (canonical : IsCanonical m e) (positive : 0 < q) (value : (p : ℚ) / q = m * 2 ^ e) {candidate : Nat}
    {power : Int}
    (chosen : shortestAt p q (interval p q) exponent precision = some (candidate, power)) :
    RoundsTo m e (candidate * 10 ^ power) := by
  have holds {c : Nat} {k : Int} (inside : (interval p q).holds c k) := (holdsRounds canonical positive value c k).mp inside
  unfold shortestAt at chosen
  dsimp only at chosen
  split at chosen
  · next lower upper =>
    obtain ⟨rfl, rfl⟩ := Prod.mk.inj (Option.some.inj chosen)
    rcases quotientNear _ _ with same | same
    · rw [same]
      exact holds ((Bool.and_eq_true ..).mp lower).1
    · rw [same]
      exact holds upper
  · next lower _ =>
    obtain ⟨rfl, rfl⟩ := Prod.mk.inj (Option.some.inj chosen)
    exact holds ((Bool.and_eq_true ..).mp lower).1
  · next upper =>
    obtain ⟨rfl, rfl⟩ := Prod.mk.inj (Option.some.inj chosen)
    exact holds upper
  · cases chosen

/-- What rounds to a double reaches further than seventeen digits of it. The gap below a power of two is shorter, and so is its
significand. -/
theorem gapsWide (canonical : IsCanonical m e) : (m : ℚ) < 10 ^ 16 * (1 / 2 + gapBelow m e) := by
  unfold gapBelow
  split
  · next power =>
    rw [power.1]
    norm_num
  · have few : (m : ℚ) < 2 ^ 53 := by exact_mod_cast canonical.few
    refine few.trans ?_
    norm_num

/-- What is not in the interval of a double is on one side of it. -/
theorem outsideGaps (canonical : IsCanonical m e) (positive : 0 < q) (value : (p : ℚ) / q = m * 2 ^ e) {c : Nat} {power : Int}
    (out : (interval p q).holds c power = false) :
    (c : ℚ) * 10 ^ power ≤ (m - gapBelow m e) * 2 ^ e ∨ (m + 1 / 2) * 2 ^ e ≤ (c : ℚ) * 10 ^ power := by
  have none := mt (holdsRounds canonical positive value c power).mpr (by rw [out]; exact Bool.false_ne_true)
  unfold RoundsTo at none
  split at none
  · rcases not_and_or.mp none with low | high
    · exact .inl (not_le.mp low).le
    · exact .inr (not_le.mp high).le
  · rcases not_and_or.mp none with low | high
    · exact .inl (not_lt.mp low)
    · exact .inr (not_lt.mp high)

/-- Seventeen digits suffice: their grid is finer than the rationals that round to a double reach. -/
theorem seventeenChosen (canonical : IsCanonical m e) (positive : 0 < q) (value : (p : ℚ) / q = m * 2 ^ e) :
    ∃ found, shortestAt p q (interval p q) (decimalExponent p q) 17 = some found := by
  have unit := twoPositive e
  have least := decimalLeast (numeratorPositive canonical value) positive
  obtain ⟨power, taken⟩ : ∃ power, power = decimalExponent p q + 1 - (17 : Nat) := ⟨_, rfl⟩
  have grid : (10 : ℚ) ^ power * 10 ^ 16 ≤ m * 2 ^ e := by
    rw [← value]
    refine le_trans (le_of_eq ?_) least
    have split : decimalExponent p q = power + (16 : Nat) := by omega
    rw [split, zpow_add₀ (by norm_num), zpow_natCast]
  have step : (0 : ℚ) < 10 ^ power := zpow_pos (by norm_num) power
  have wide : (10 : ℚ) ^ power < (m + 1 / 2) * 2 ^ e - (m - gapBelow m e) * 2 ^ e := by
    have width : ((m : ℚ) + 1 / 2) * 2 ^ e - (m - gapBelow m e) * 2 ^ e = (1 / 2 + gapBelow m e) * 2 ^ e := by ring
    rw [width]
    have := mul_lt_mul_of_pos_right (gapsWide canonical) unit
    have : (10 : ℚ) ^ power * 10 ^ 16 < (1 / 2 + gapBelow m e) * 2 ^ e * 10 ^ 16 := by linarith
    exact lt_of_mul_lt_mul_right this (by norm_num)
  obtain ⟨under, above⟩ := gridAround (p := p) positive power
  unfold shortestAt
  rw [← taken]
  dsimp only
  generalize (if power < 0 then p * Nat.pow 10 (-power).toNat else p) /
    (if power < 0 then q else q * Nat.pow 10 power.toNat) = below
    at under above
  have nonzero : below ≠ 0 := by
    rintro rfl
    have : (p : ℚ) / q < 10 ^ power := by simpa using above
    rw [value] at this
    linarith
  obtain ⟨inLow, inHigh⟩ := roundsBetween (roundsSelf m e)
  rw [value] at under above
  cases lower : (interval p q).holds below power with
  | true =>
    have kept : (true && below != 0) = true := by simpa using nonzero
    rw [kept]
    cases (interval p q).holds (below + 1) power <;> exact ⟨_, rfl⟩
  | false =>
    cases upper : (interval p q).holds (below + 1) power with
    | true => exact ⟨_, rfl⟩
    | false =>
      exfalso
      have next : ((below + 1 : Nat) : ℚ) * 10 ^ power = below * 10 ^ power + 10 ^ power := by
        push_cast
        ring
      rcases outsideGaps canonical positive value lower with low | low <;>
        rcases outsideGaps canonical positive value upper with high | high <;> linarith

/-- What digits with a point before them denote. -/
def Digits.value (d : Digits) : ℚ := ofDigits d.digits * 10 ^ (d.point - d.digits.length)

theorem zerosAfter (cs : List Char) (k : Nat) : ofDigits (cs ++ List.replicate k '0') = ofDigits cs * 10 ^ k := by
  have zero (n : Nat) : 10 * n + digitValue '0' = n * 10 := by
    have : digitValue '0' = 0 := rfl
    omega
  induction k with
  | zero => simp
  | succ k ih =>
    rw [List.replicate_succ', ← List.append_assoc]
    unfold ofDigits at ih ⊢
    rw [List.foldl_append, ih, List.foldl_cons, List.foldl_nil, zero, pow_succ, mul_assoc]

/-- The shortest digits of a double denote a rational that rounds to it. -/
theorem shortestRounds (canonical : IsCanonical m e) (positive : 0 < q) (value : (p : ℚ) / q = m * 2 ^ e) :
    RoundsTo m e (shortest p q).value := by
  obtain ⟨last, seventeen⟩ := seventeenChosen canonical positive value
  unfold shortest
  dsimp only
  split
  · next candidate power found =>
    obtain ⟨k, -, chosen⟩ := List.exists_of_findSome?_eq_some found
    have rounds := chosenRounds canonical positive value chosen
    obtain ⟨zeros, split⟩ := trailingDropped (Nat.toDigits 10 candidate)
    have digits := digitsBack candidate
    have length := congrArg List.length split
    rw [split, zerosAfter] at digits
    rw [List.length_append, List.length_replicate] at length
    have shifted : ((Nat.toDigits 10 candidate).length + power - (dropTrailingZeros (Nat.toDigits 10 candidate)).length : Int) =
        zeros + power := by omega
    unfold Digits.value
    dsimp only
    rw [shifted, zpow_add₀ (by norm_num), zpow_natCast, ← mul_assoc]
    have : (ofDigits (dropTrailingZeros (Nat.toDigits 10 candidate)) : ℚ) * 10 ^ zeros = candidate := by exact_mod_cast digits
    rwa [this]
  · next none =>
    have missing := List.findSome?_eq_none_iff.mp none 16 (List.mem_range.mpr (by decide))
    rw [seventeen] at missing
    cases missing

end Shortest

section Layouts

variable {cs whole places rest : List Char} {x : Int}

/-- What a decimal denotes but for its sign. -/
def Decimal.value (d : Decimal) : ℚ := ofDigits d.digits * 10 ^ d.exponent

theorem signFirst (digit : ∀ c ∈ cs.head?, c.isDigit) : sign cs = (false, cs) := by
  unfold sign
  split
  · cases digit '+' rfl
  · cases digit '-' rfl
  · rfl

theorem readNegative (digit : ∀ c ∈ cs.head?, c.isDigit) :
    readDecimal? ('-' :: cs) = (readDecimal? cs).map fun d => { d with negative := true } := by
  have minus : sign ('-' :: cs) = (true, cs) := rfl
  unfold readDecimal?
  rw [minus, signFirst digit]
  dsimp only
  split <;> split_ifs <;> simp [Option.map_map, Function.comp_def]

theorem headOf (digits : ∀ c ∈ whole, c.isDigit) (some : whole ≠ []) : ∀ c ∈ (whole ++ rest).head?, c.isDigit := by
  cases whole with
  | nil => exact absurd rfl some
  | cons d whole =>
    rintro c ⟨⟩
    exact digits d List.mem_cons_self

theorem readWhole (digits : ∀ c ∈ whole, c.isDigit) (some : whole ≠ []) (ends : Ends rest)
    (plain : rest.head? ≠ Option.some '.')
    (exponent : readExponent? rest = Option.some x) : readDecimal? (whole ++ rest) = Option.some ⟨false, whole, x⟩ := by
  have filled : whole.isEmpty = false := by simpa using some
  unfold readDecimal?
  rw [signFirst (headOf digits some)]
  dsimp only
  rw [takeDigits digits ends, dropDigits digits ends, filled]
  split
  · exact absurd rfl plain
  · simp [exponent]

theorem readPlaces (digits : ∀ c ∈ whole, c.isDigit) (some : whole ≠ []) (fraction : ∀ c ∈ places, c.isDigit)
    (ends : Ends rest)
    (exponent : readExponent? rest = Option.some x) :
    readDecimal? (whole ++ '.' :: (places ++ rest)) = Option.some ⟨false, whole ++ places, x - places.length⟩ := by
  have filled : whole.isEmpty = false := by simpa using some
  have point : Ends ('.' :: (places ++ rest)) := by
    rintro c ⟨⟩
    rfl
  unfold readDecimal?
  rw [signFirst (headOf digits some)]
  dsimp only
  rw [takeDigits digits point, dropDigits digits point, filled]
  simp [takeDigits fraction ends, dropDigits fraction ends, exponent]

theorem exponentRead (x : Int) :
    readExponent? ('e' :: (if x < 0 then '-' else '+') :: Nat.toDigits 10 x.natAbs) = some x := by
  have digits := naturalDigits x.natAbs
  obtain ⟨plain, negative⟩ := readDigits digits Nat.toDigits_ne_nil
  rw [digitsBack] at plain negative
  show readInt? _ = _
  split
  · rw [negative]
    exact congrArg some (by omega)
  · have plus : readInt? ('+' :: Nat.toDigits 10 x.natAbs) = readInt? (Nat.toDigits 10 x.natAbs) := by
      unfold readInt?
      rw [signDigits digits]
      rfl
    rw [plus, plain]
    exact congrArg some (by omega)

/-- A text starts with a digit and is read as the value of some digits. -/
def Digits.IsWritten (d : Digits) (text : List Char) : Prop :=
  (∀ c ∈ text.head?, c.isDigit) ∧ ∃ read, readDecimal? text = some read ∧ read.negative = false ∧ read.value = d.value

section Written

variable {d : Digits}

theorem endsNothing : Ends [] := nofun

theorem zerosFirst (digits : ∀ c ∈ d.digits, c.isDigit) (below : d.point ≤ 0) :
    d.IsWritten ('0' :: '.' :: (List.replicate (-d.point).toNat '0' ++ d.digits)) := by
  have zeroDigit : ∀ c ∈ ['0'], c.isDigit := List.forall_mem_singleton.mpr rfl
  have fraction := List.forall_mem_append.mpr ⟨zerosAreDigits (-d.point).toNat, digits⟩
  have read := readPlaces (x := 0) zeroDigit (by decide) fraction endsNothing rfl
  rw [List.append_nil] at read
  refine ⟨fun c head => ?_, _, read, rfl, ?_⟩
  · cases head
    rfl
  · unfold Decimal.value Digits.value
    dsimp only
    rw [List.singleton_append, zeroBefore, zerosBefore, List.length_append, List.length_replicate]
    congr 2
    omega

theorem zerosLast (digits : ∀ c ∈ d.digits, c.isDigit) (some : d.digits ≠ []) (above : 0 < d.point)
    (few : d.digits.length ≤ d.point.toNat) :
    d.IsWritten (d.digits ++ List.replicate (d.point.toNat - d.digits.length) '0') := by
  have whole := List.forall_mem_append.mpr ⟨digits, zerosAreDigits (d.point.toNat - d.digits.length)⟩
  have filled : d.digits ++ List.replicate (d.point.toNat - d.digits.length) '0' ≠ [] :=
    List.append_ne_nil_of_left_ne_nil some _
  have read := readWhole (x := 0) whole filled endsNothing nofun rfl
  have head : ∀ c ∈ (d.digits ++ List.replicate (d.point.toNat - d.digits.length) '0' ++ []).head?, c.isDigit :=
    headOf whole filled
  rw [List.append_nil] at read head
  refine ⟨head, _, read, rfl, ?_⟩
  unfold Decimal.value Digits.value
  dsimp only
  have exponent : d.point - d.digits.length = ((d.point.toNat - d.digits.length : Nat) : Int) := by omega
  rw [zerosAfter, exponent, zpow_natCast, zpow_zero, mul_one]
  push_cast
  rfl

theorem pointAmong (digits : ∀ c ∈ d.digits, c.isDigit) (some : d.digits ≠ []) (above : 0 < d.point)
    (many : d.point.toNat < d.digits.length) :
    d.IsWritten (d.digits.take d.point.toNat ++ '.' :: d.digits.drop d.point.toNat) := by
  have first : d.digits.take d.point.toNat ≠ [] := by
    rw [← List.length_pos_iff, List.length_take]
    have := List.length_pos_iff.mpr some
    omega
  have whole : ∀ c ∈ d.digits.take d.point.toNat, c.isDigit := fun c mem => digits c (List.mem_of_mem_take mem)
  have fraction : ∀ c ∈ d.digits.drop d.point.toNat, c.isDigit := fun c mem => digits c (List.mem_of_mem_drop mem)
  have read := readPlaces (x := 0) whole first fraction endsNothing rfl
  rw [List.append_nil] at read
  refine ⟨headOf whole first, _, read, rfl, ?_⟩
  unfold Decimal.value Digits.value
  dsimp only
  rw [List.take_append_drop, List.length_drop]
  congr 2
  omega

/-- A laid-out text starts with a digit and is read as the value of its digits. -/
theorem layOutRead (digits : ∀ c ∈ d.digits, c.isDigit) (some : d.digits ≠ []) (layout : Layout) :
    d.IsWritten (d.layOut layout) := by
  unfold Digits.layOut
  dsimp only
  split
  · split
    · next below => exact zerosFirst digits below
    · next above =>
      split
      · next few => exact zerosLast digits some (Int.not_le.mp above) few
      · next many => exact pointAmong digits some (Int.not_le.mp above) (Nat.not_le.mp many)
  · obtain ⟨tail, written⟩ : ∃ tail,
      tail = 'e' :: (if d.point - 1 < 0 then '-' else '+') :: Nat.toDigits 10 (d.point - 1).natAbs := ⟨_, rfl⟩
    have mark : Ends tail := by
      rw [written]
      rintro c ⟨⟩
      rfl
    have plain : tail.head? ≠ Option.some '.' := by
      rw [written]
      exact nofun
    have exponent := exponentRead (d.point - 1)
    unfold Digits.IsWritten Digits.value
    rw [← written] at exponent ⊢
    match d.digits, some, digits with
    | [c], _, digits =>
      refine ⟨headOf digits nofun, _, readWhole digits nofun mark plain exponent, rfl, ?_⟩
      rfl
    | c :: b :: rest, _, digits =>
      obtain ⟨first, others⟩ := List.forall_mem_cons.mp digits
      have single : ∀ a ∈ [c], a.isDigit := List.forall_mem_singleton.mpr first
      have text : (c :: '.' :: b :: rest) ++ tail = [c] ++ '.' :: (b :: rest ++ tail) := rfl
      dsimp only
      rw [text]
      refine ⟨headOf single nofun, _, readPlaces single nofun others mark exponent, rfl, ?_⟩
      unfold Decimal.value
      dsimp only
      rw [List.singleton_append]
      congr 2
      simp only [List.length_cons]
      omega

end Written

end Layouts

section Texts

variable {x y : Number}

/-- How far a number is from zero. -/
def magnitude : Number → ℚ
  | .integer n => n.natAbs
  | .fraction n k => n.natAbs / 2 ^ k
  | _ => 0

theorem roundsPositive {m : Nat} {e : Int} {q : ℚ} (canonical : IsCanonical m e) (rounds : RoundsTo m e q) : 0 < q := by
  have once : (1 : ℚ) ≤ m := by exact_mod_cast canonical.positive
  obtain ⟨-, most⟩ := gapBounds m e
  have : 0 < (m - gapBelow m e) * 2 ^ e := mul_pos (by linarith) (twoPositive e)
  exact this.trans_le (roundsBetween rounds).1

/-- A text is read as its digits with its sign. -/
theorem signedRead {cs : List Char} {read : Decimal} (negative : Prop) [Decidable negative] (digit : ∀ c ∈ cs.head?, c.isDigit)
    (found : readDecimal? cs = some read) (plain : read.negative = false) :
    readDecimal? (String.ofList (if negative then '-' :: cs else cs)).toList = some { read with negative := decide negative } := by
  rw [String.toList_ofList]
  split
  · next yes =>
    rw [readNegative digit, found, decide_eq_true yes]
    rfl
  · next no =>
    rw [found, decide_eq_false no, ← plain]

/-- What is read of the text of a positive double rounds to it. -/
structure Denotes (x : Number) (read : Decimal) (m : Nat) (e : Int) : Prop where
  canonical : IsCanonical m e
  magnitude : x.magnitude = m * 2 ^ e
  sign : read.negative = x.isNegative
  rounds : RoundsTo m e read.value

theorem magnitudeRead {p q m : Nat} {e : Int} (canonical : IsCanonical m e) (positive : 0 < q) (value : (p : ℚ) / q = m * 2 ^ e)
    (negative : Prop) [Decidable negative] :
    ∃ read, readDecimal? (String.ofList (if negative then '-' :: magnitudeText p q else magnitudeText p q)).toList = some read ∧
      read.negative = decide negative ∧ RoundsTo m e read.value := by
  have rounds := shortestRounds canonical positive value
  obtain ⟨digit, read, found, plain, same⟩ := layOutRead (shortestDigits p q) (shortestSome p q) .standard
  refine ⟨_, signedRead negative digit found plain, rfl, ?_⟩
  rw [← same] at rounds
  exact rounds

theorem intRead (n : Int) :
    ∃ read, readDecimal? (intText n).toList = some read ∧ read.negative = decide (n < 0) ∧ read.value = n.natAbs := by
  have digits := naturalDigits n.natAbs
  have found : readDecimal? (Nat.toDigits 10 n.natAbs ++ []) = some ⟨false, Nat.toDigits 10 n.natAbs, 0⟩ :=
    readWhole digits Nat.toDigits_ne_nil nofun nofun rfl
  have digit : ∀ c ∈ (Nat.toDigits 10 n.natAbs ++ []).head?, c.isDigit := headOf digits Nat.toDigits_ne_nil
  rw [List.append_nil] at found digit
  refine ⟨_, signedRead (n < 0) digit found rfl, rfl, ?_⟩
  show (ofDigits (Nat.toDigits 10 n.natAbs) : ℚ) * 10 ^ (0 : Int) = n.natAbs
  rw [digitsBack, zpow_zero, mul_one]

/-- The text of a finite double is read as zero or as what rounds to the double. -/
theorem doubleRead (double : x.IsDouble) (finite : x.isFinite) :
    ∃ read, readDecimal? x.toText.toList = some read ∧ (x.isZero ∧ read.value = 0 ∨ ∃ m e, Denotes x read m e) := by
  cases x with
  | integer n =>
    obtain ⟨m, e, value, few⟩ := double
    obtain ⟨intRead, foundInt, signInt, valueInt⟩ := intRead n
    by_cases zero : n = 0
    · subst zero
      exact ⟨_, foundInt, .inl ⟨rfl, by simpa using valueInt⟩⟩
    · have some : 0 < m := by
        by_contra none
        rw [Nat.eq_zero_of_not_pos none, Nat.zero_mul] at value
        omega
      obtain ⟨s, f, canonical, same⟩ := canonicalOf some few (show -1074 ≤ (e : Int) by omega)
      have magnitude : (n.natAbs : ℚ) = s * 2 ^ f := by
        rw [← same, value, zpow_natCast]
        push_cast
        rfl
      unfold toText
      dsimp only
      split
      · refine ⟨_, foundInt, .inr ⟨s, f, canonical, magnitude, signInt, ?_⟩⟩
        rw [valueInt, magnitude]
        exact roundsSelf s f
      · have ratio : (n.natAbs : ℚ) / (1 : Nat) = s * 2 ^ f := by rw [Nat.cast_one, div_one, magnitude]
        obtain ⟨read, found, sign, rounds⟩ := magnitudeRead canonical Nat.one_pos ratio (n < 0)
        exact ⟨read, found, .inr ⟨s, f, canonical, magnitude, sign, rounds⟩⟩
  | fraction n k =>
    obtain ⟨odd, few, -, short⟩ := double
    obtain ⟨s, f, canonical, same⟩ := canonicalOf (m := n.natAbs) (by omega) few (show -1074 ≤ -(k : Int) by omega)
    have magnitude : (n.natAbs : ℚ) / 2 ^ k = s * 2 ^ f := by
      rw [← same, zpow_neg, zpow_natCast, div_eq_mul_inv]
    have value : (n.natAbs : ℚ) / (Nat.pow 2 k : Nat) = s * 2 ^ f := by
      rw [← magnitude]
      norm_num
    obtain ⟨read, found, sign, rounds⟩ := magnitudeRead canonical (Nat.two_pow_pos k) value (n < 0)
    exact ⟨read, found, .inr ⟨s, f, canonical, magnitude, sign, rounds⟩⟩
  | negativeZero =>
    obtain ⟨read, found, -, value⟩ := intRead 0
    exact ⟨read, found, .inl ⟨rfl, by simpa using value⟩⟩
  | infinity _ | nan => cases finite

theorem oddOnce {m n k l : Nat} (hm : m % 2 = 1) (hn : n % 2 = 1) (same : m * 2 ^ l = n * 2 ^ k) : m = n ∧ k = l := by
  wlog order : k ≤ l generalizing m n k l
  · obtain ⟨rfl, rfl⟩ := this hn hm same.symm (not_le.mp order).le
    exact ⟨rfl, rfl⟩
  obtain ⟨d, rfl⟩ := Nat.exists_eq_add_of_le order
  have rest : m * 2 ^ d = n := by
    refine Nat.eq_of_mul_eq_mul_right (Nat.two_pow_pos k) ?_
    rw [← same, pow_add]
    ring
  cases d with
  | zero => exact ⟨by simpa using rest, rfl⟩
  | succ d =>
    have even : n = 2 * (m * 2 ^ d) := by rw [← rest, pow_succ]; ring
    omega

theorem fractionApart {n : Int} {k : Nat} (double : IsDouble (.fraction n k)) (a : Nat) : (a : ℚ) ≠ magnitude (.fraction n k) := by
  obtain ⟨odd, -, some, -⟩ := double
  show (a : ℚ) ≠ n.natAbs / 2 ^ k
  rw [ne_eq, eq_div_iff (by positivity)]
  intro equal
  have equal : a * 2 ^ k = n.natAbs := by exact_mod_cast equal
  obtain ⟨k, rfl⟩ := Nat.exists_eq_succ_of_ne_zero some.ne'
  have even : n.natAbs = 2 * (a * 2 ^ k) := by rw [← equal, Nat.pow_succ]; ring
  omega

/-- Numbers of one sign and one distance from zero are one number, or zeros. -/
theorem magnitudeOnce (hx : x.IsDouble) (hy : y.IsDouble) (finiteX : x.isFinite) (finiteY : y.isFinite)
    (signs : x.isNegative = y.isNegative) (same : x.magnitude = y.magnitude) : x = y ∨ x.isZero ∧ y.isZero := by
  have odds {n : Int} (odd : n % 2 = 1) : n.natAbs % 2 = 1 := by omega
  have numerators {a b : Int} (signs : decide (a < 0) = decide (b < 0)) (same : a.natAbs = b.natAbs) : a = b := by
    rw [decide_eq_decide] at signs
    omega
  cases x with
  | integer a =>
    cases y with
    | integer b =>
      have same : (a.natAbs : ℚ) = b.natAbs := same
      exact .inl (congrArg _ (numerators signs (by exact_mod_cast same)))
    | fraction n k => exact absurd same (fractionApart hy a.natAbs)
    | negativeZero =>
      have none : (a.natAbs : ℚ) = 0 := same
      obtain rfl : a = 0 := Int.natAbs_eq_zero.mp (by exact_mod_cast none)
      exact .inr ⟨rfl, rfl⟩
    | infinity _ | nan => cases finiteY
  | fraction n k =>
    cases y with
    | integer b => exact absurd same.symm (fractionApart hx b.natAbs)
    | fraction m l =>
      have same : (n.natAbs : ℚ) / 2 ^ k = m.natAbs / 2 ^ l := same
      rw [div_eq_div_iff (by positivity) (by positivity)] at same
      obtain ⟨numbers, rfl⟩ := oddOnce (odds hx.1) (odds hy.1) (by exact_mod_cast same)
      exact .inl (congrArg (Number.fraction · k) (numerators signs numbers))
    | negativeZero => exact absurd (Nat.cast_zero.trans same.symm) (fractionApart hx 0)
    | infinity _ | nan => cases finiteY
  | negativeZero =>
    cases y with
    | integer b =>
      have none : 0 = (b.natAbs : ℚ) := same
      obtain rfl : b = 0 := Int.natAbs_eq_zero.mp (by exact_mod_cast none.symm)
      exact .inr ⟨rfl, rfl⟩
    | fraction n k => exact absurd (Nat.cast_zero.trans same) (fractionApart hy 0)
    | negativeZero => exact .inl rfl
    | infinity _ | nan => cases finiteY
  | infinity _ | nan => cases finiteX

theorem endlessRead (endless : x.isFinite = false) : readDecimal? x.toText.toList = none := by
  cases x with
  | infinity negative => cases negative <;> decide
  | nan => decide
  | _ => cases endless

/-- Doubles of one text are one double, but for the sign of a zero. -/
theorem textOnce (hx : x.IsDouble) (hy : y.IsDouble) (same : x.toText = y.toText) : x = y ∨ x.isZero ∧ y.isZero := by
  cases finiteX : x.isFinite with
  | false =>
    have none := endlessRead finiteX
    cases finiteY : y.isFinite with
    | false =>
      cases x with
      | infinity a =>
        cases y with
        | infinity b => cases a <;> cases b <;> first | exact .inl rfl | exact absurd same (by decide)
        | nan => cases a <;> exact absurd same (by decide)
        | _ => cases finiteY
      | nan =>
        cases y with
        | infinity b => cases b <;> exact absurd same (by decide)
        | nan => exact .inl rfl
        | _ => cases finiteY
      | _ => cases finiteX
    | true =>
      obtain ⟨read, found, -⟩ := doubleRead hy finiteY
      rw [same, found] at none
      cases none
  | true =>
    obtain ⟨read, found, left⟩ := doubleRead hx finiteX
    cases finiteY : y.isFinite with
    | false =>
      rw [same, endlessRead finiteY] at found
      cases found
    | true =>
      obtain ⟨other, foundOther, right⟩ := doubleRead hy finiteY
      rw [same, foundOther] at found
      cases found
      rcases left with ⟨zeroX, value⟩ | ⟨m, e, denotesX⟩ <;> rcases right with ⟨zeroY, value'⟩ | ⟨n, f, denotesY⟩
      · exact .inr ⟨zeroX, zeroY⟩
      · exact absurd value (roundsPositive denotesY.canonical denotesY.rounds).ne'
      · exact absurd value' (roundsPositive denotesX.canonical denotesX.rounds).ne'
      · obtain ⟨rfl, rfl⟩ := roundsOnce denotesX.canonical denotesY.canonical denotesX.rounds denotesY.rounds
        exact magnitudeOnce hx hy finiteX finiteY (denotesX.sign.symm.trans denotesY.sign)
          (denotesX.magnitude.trans denotesY.magnitude.symm)

/-- No integer is written like a fraction: it is a double of its own, or past all fractions. -/
theorem fractionText {n : Int} {k : Nat} (double : IsDouble (.fraction n k)) (i : Int) : toText (.fraction n k) ≠ intText i := by
  intro same
  obtain ⟨read, found, zero | ⟨m, e, denotes⟩⟩ := doubleRead double rfl
  · cases zero.1
  obtain ⟨whole, foundWhole, -, value⟩ := intRead i
  rw [same, foundWhole] at found
  obtain rfl := Option.some.inj found
  have rounds := denotes.rounds
  have some := roundsPositive denotes.canonical rounds
  rw [value] at rounds some
  have unit := twoPositive e
  by_cases small : i.natAbs < 2 ^ 53
  · have positive : 0 < i.natAbs := by exact_mod_cast some
    obtain ⟨s, f, canonical, written⟩ := canonicalOf (e := 0) positive small (by decide)
    rw [zpow_zero, mul_one] at written
    rw [written] at rounds
    obtain ⟨rfl, rfl⟩ := roundsOnce denotes.canonical canonical rounds (roundsSelf s f)
    exact fractionApart double i.natAbs (written.trans denotes.magnitude.symm)
  · have large : (2 : ℚ) ^ 53 ≤ i.natAbs := by exact_mod_cast not_lt.mp small
    have reach := (roundsBetween rounds).2
    have once : (1 : ℚ) ≤ m := by exact_mod_cast denotes.canonical.positive
    -- a fraction is at most half of the greatest significand
    have short : (m : ℚ) * 2 ^ e ≤ 2 ^ 52 := by
      rw [← denotes.magnitude]
      show (n.natAbs : ℚ) / 2 ^ k ≤ 2 ^ 52
      obtain ⟨-, few, positive, -⟩ := double
      have few : (n.natAbs : ℚ) ≤ 2 ^ 53 := by exact_mod_cast few.le
      have two : (2 : ℚ) ≤ 2 ^ k := by
        calc (2 : ℚ) = 2 ^ 1 := by norm_num
          _ ≤ 2 ^ k := pow_le_pow_right₀ (by norm_num) positive
      rw [div_le_iff₀ (by positivity)]
      linarith
    have : (m + 1 / 2 : ℚ) * 2 ^ e ≤ 3 / 2 * (m * 2 ^ e) := by nlinarith
    have bound : (3 / 2 : ℚ) * 2 ^ 52 < 2 ^ 53 := by norm_num
    linarith

end Texts

end EntityQuery.Number
