import EntityQuery.Number.Shortest
import EntityQuery.Proofs.ExactNumbers
import Mathlib.Algebra.Order.Field.Power
import Mathlib.Data.Rat.Cast.Order
import Mathlib.Tactic.FieldSimp
import Mathlib.Tactic.Linarith
import Mathlib.Tactic.NormNum
import Mathlib.Tactic.Positivity
/-! Doubles as significands over powers of two. Each is written in one way, the rationals that round to it lie between the
middles to its neighbours, and no rational lies between those of two doubles. -/

namespace EntityQuery.Number

/-- At most 53 significant bits, the last of which is no smaller than the smallest double. -/
def IsDouble : Number → Prop
  | .integer n => ∃ m e : Nat, n.natAbs = m * 2 ^ e ∧ m < 2 ^ 53
  | .fraction n k => n % 2 = 1 ∧ n.natAbs < 2 ^ 53 ∧ 0 < k ∧ k ≤ 1074
  | _ => True

/-- The one way to write a double: its significand has all its bits unless the exponent is the least. -/
structure IsCanonical (m : Nat) (e : Int) : Prop where
  positive : 0 < m
  few : m < 2 ^ 53
  least : -1074 ≤ e
  full : e = -1074 ∨ 2 ^ 52 ≤ m

section Canonical

theorem twoPositive (e : Int) : (0 : ℚ) < 2 ^ e := zpow_pos (by norm_num) e

theorem logOnce {a b : Int} {v : ℚ} (la : 2 ^ a ≤ v) (ua : v < 2 ^ (a + 1)) (lb : 2 ^ b ≤ v) (ub : v < 2 ^ (b + 1)) : a = b := by
  have ab := (zpow_lt_zpow_iff_right₀ (a := (2 : ℚ)) (by norm_num)).mp (la.trans_lt ub)
  have ba := (zpow_lt_zpow_iff_right₀ (a := (2 : ℚ)) (by norm_num)).mp (lb.trans_lt ua)
  omega

theorem logBounds {n : Nat} (positive : 0 < n) : (2 : ℚ) ^ (n.log2 : Int) ≤ n ∧ (n : ℚ) < 2 ^ ((n.log2 : Int) + 1) := by
  have least : 2 ^ n.log2 ≤ n := Nat.log2_self_le positive.ne'
  have most : n < 2 ^ (n.log2 + 1) := Nat.lt_log2_self
  constructor
  · rw [zpow_natCast]
    exact_mod_cast least
  · rw [← Nat.cast_succ, zpow_natCast]
    exact_mod_cast most

/-- Bits are moved to the significand until it is full or the exponent is the least. -/
theorem canonicalOf {m : Nat} {e : Int} (positive : 0 < m) (few : m < 2 ^ 53) (least : -1074 ≤ e) :
    ∃ n f, IsCanonical n f ∧ (m : ℚ) * 2 ^ e = n * 2 ^ f := by
  have most : m.log2 ≤ 52 := by
    by_contra beyond
    have := (Nat.le_log2 positive.ne').mp (Nat.not_le.mp beyond)
    omega
  obtain ⟨t, moved⟩ : ∃ t : Nat, t = min (52 - m.log2) (e + 1074).toNat := ⟨_, rfl⟩
  have wide : m * 2 ^ t < 2 ^ 53 :=
    calc m * 2 ^ t < 2 ^ (m.log2 + 1) * 2 ^ t := Nat.mul_lt_mul_of_pos_right Nat.lt_log2_self (Nat.two_pow_pos t)
      _ = 2 ^ (m.log2 + 1 + t) := (pow_add ..).symm
      _ ≤ 2 ^ 53 := Nat.pow_le_pow_right (by decide) (by omega)
  refine ⟨m * 2 ^ t, e - t, ⟨Nat.mul_pos positive (Nat.two_pow_pos t), wide, by omega, ?_⟩, ?_⟩
  · by_cases stopped : e - t = -1074
    · exact .inl stopped
    · have enough : 52 - m.log2 = t := by omega
      refine .inr ?_
      calc 2 ^ 52 = 2 ^ m.log2 * 2 ^ t := by rw [← pow_add, ← enough, Nat.add_sub_cancel' most]
        _ ≤ m * 2 ^ t := Nat.mul_le_mul_right _ (Nat.log2_self_le positive.ne')
  · have split : (2 : ℚ) ^ e = 2 ^ (t : Int) * 2 ^ (e - t) := by
      rw [← zpow_add₀ (by norm_num)]
      congr 1
      omega
    rw [split, zpow_natCast]
    push_cast
    ring

end Canonical

section Apart

/-- How far the rationals that round to a double reach below it, in units of its last bit. -/
def gapBelow (m : Nat) (e : Int) : ℚ := if m = 2 ^ 52 ∧ -1074 < e then 1 / 4 else 1 / 2

/-- The rationals between the middles to both neighbours; the middles belong to a double with an even significand. -/
def RoundsTo (m : Nat) (e : Int) (q : ℚ) : Prop :=
  if m % 2 = 0 then (m - gapBelow m e) * 2 ^ e ≤ q ∧ q ≤ (m + 1 / 2) * 2 ^ e
  else (m - gapBelow m e) * 2 ^ e < q ∧ q < (m + 1 / 2) * 2 ^ e

variable {m n : Nat} {e f : Int} {q : ℚ}

theorem roundsBetween (rounds : RoundsTo m e q) : (m - gapBelow m e) * 2 ^ e ≤ q ∧ q ≤ (m + 1 / 2) * 2 ^ e := by
  unfold RoundsTo at rounds
  split at rounds
  · exact rounds
  · exact ⟨rounds.1.le, rounds.2.le⟩

theorem roundsOdd (rounds : RoundsTo m e q) (odd : m % 2 = 1) : (m - gapBelow m e) * 2 ^ e < q ∧ q < (m + 1 / 2) * 2 ^ e := by
  unfold RoundsTo at rounds
  rwa [if_neg (by omega)] at rounds

theorem gapBounds (m : Nat) (e : Int) : 1 / 4 ≤ gapBelow m e ∧ gapBelow m e ≤ 1 / 2 := by
  unfold gapBelow
  split <;> norm_num

theorem roundsSelf (m : Nat) (e : Int) : RoundsTo m e (m * 2 ^ e) := by
  have unit := twoPositive e
  obtain ⟨least, -⟩ := gapBounds m e
  have below : (m - gapBelow m e) * 2 ^ e < m * 2 ^ e := mul_lt_mul_of_pos_right (by linarith) unit
  have above : (m : ℚ) * 2 ^ e < (m + 1 / 2) * 2 ^ e := mul_lt_mul_of_pos_right (by linarith) unit
  unfold RoundsTo
  split
  · exact ⟨below.le, above.le⟩
  · exact ⟨below, above⟩

/-- Of two significands over one power the smaller ends where the other begins, and one of two neighbours is odd. -/
theorem apartSame (first : RoundsTo m e q) (second : RoundsTo n e q) : ¬ m < n := by
  intro less
  have unit := twoPositive e
  obtain ⟨-, most⟩ := gapBounds n e
  obtain ⟨-, above⟩ := roundsBetween first
  obtain ⟨below, -⟩ := roundsBetween second
  have next : (m : ℚ) + 1 ≤ n := by exact_mod_cast less
  have ends : ((m : ℚ) + 1 / 2) * 2 ^ e ≤ (n - gapBelow n e) * 2 ^ e := mul_le_mul_of_nonneg_right (by linarith) unit.le
  rcases Nat.mod_two_eq_zero_or_one m with even | odd
  · rcases Nat.mod_two_eq_zero_or_one n with other | odd
    · have further : (m : ℚ) + 2 ≤ n := by
        have : m + 2 ≤ n := by omega
        exact_mod_cast this
      have : ((m : ℚ) + 1 / 2) * 2 ^ e < (n - gapBelow n e) * 2 ^ e := mul_lt_mul_of_pos_right (by linarith) unit
      linarith
    · have := (roundsOdd second odd).1
      linarith
  · have := (roundsOdd first odd).2
    linarith

/-- A double with a smaller exponent ends before a full significand begins. -/
theorem apartLower (left : IsCanonical m e) (right : IsCanonical n f) (first : RoundsTo m e q) (second : RoundsTo n f q) :
    ¬ e < f := by
  intro less
  have unit := twoPositive e
  have full : 2 ^ 52 ≤ n := right.full.resolve_left (by have := left.least; omega)
  obtain ⟨d, rfl⟩ : ∃ d : Nat, f = e + 1 + d := ⟨(f - e - 1).toNat, by omega⟩
  have power : (2 : ℚ) ^ (e + 1 + d : Int) = 2 * 2 ^ d * 2 ^ e := by
    rw [zpow_add₀ (by norm_num), zpow_add₀ (by norm_num), zpow_natCast, zpow_one]
    ring
  have once : (1 : ℚ) ≤ 2 ^ d := one_le_pow₀ (by norm_num)
  obtain ⟨-, above⟩ := roundsBetween first
  obtain ⟨below, -⟩ := roundsBetween second
  have begins : (2 : ℚ) ^ 53 - 1 / 2 ≤ (n - gapBelow n (e + 1 + d)) * 2 := by
    by_cases same : n = 2 ^ 52
    · have gap : gapBelow n (e + 1 + d) = 1 / 4 := if_pos ⟨same, by have := left.least; omega⟩
      rw [gap, same]
      norm_num
    · have more : (2 : ℚ) ^ 52 + 1 ≤ n := by
        have : 2 ^ 52 + 1 ≤ n := by omega
        exact_mod_cast this
      obtain ⟨-, most⟩ := gapBounds n (e + 1 + d)
      have : (2 : ℚ) ^ 53 = 2 * 2 ^ 52 := by norm_num
      linarith
  have reaches : ((2 : ℚ) ^ 53 - 1 / 2) * 2 ^ e ≤ q := by
    rw [power] at below
    calc ((2 : ℚ) ^ 53 - 1 / 2) * 2 ^ e ≤ (n - gapBelow n (e + 1 + d)) * 2 * 2 ^ e := mul_le_mul_of_nonneg_right begins unit.le
      _ ≤ (n - gapBelow n (e + 1 + d)) * 2 * 2 ^ d * 2 ^ e := by
        refine mul_le_mul_of_nonneg_right ?_ unit.le
        exact le_mul_of_one_le_right ((by norm_num : (0 : ℚ) ≤ 2 ^ 53 - 1 / 2).trans begins) once
      _ = (n - gapBelow n (e + 1 + d)) * (2 * 2 ^ d * 2 ^ e) := by ring
      _ ≤ q := below
  by_cases last : m = 2 ^ 53 - 1
  · have strict := (roundsOdd first (by omega)).2
    have : (m : ℚ) = 2 ^ 53 - 1 := by rw [last]; norm_num
    rw [this] at strict
    have : ((2 : ℚ) ^ 53 - 1 + 1 / 2) = 2 ^ 53 - 1 / 2 := by norm_num
    rw [this] at strict
    linarith
  · have fewer : (m : ℚ) + 2 ≤ 2 ^ 53 := by
      have : m + 2 ≤ 2 ^ 53 := by have := left.few; omega
      exact_mod_cast this
    have : ((m : ℚ) + 1 / 2) * 2 ^ e < (2 ^ 53 - 1 / 2) * 2 ^ e := mul_lt_mul_of_pos_right (by linarith) unit
    linarith

/-- No rational rounds to two doubles. -/
theorem roundsOnce (left : IsCanonical m e) (right : IsCanonical n f) (first : RoundsTo m e q) (second : RoundsTo n f q) :
    m = n ∧ e = f := by
  have exponents : e = f :=
    le_antisymm (not_lt.mp (apartLower right left second first)) (not_lt.mp (apartLower left right first second))
  subst exponents
  exact ⟨le_antisymm (not_lt.mp (apartSame second first)) (not_lt.mp (apartSame first second)), rfl⟩

end Apart

section Steps

variable {m p q : Nat} {e : Int}

theorem stepReached (positive : 0 < q) (estimate : Int) :
    (if 0 ≤ estimate then q * Nat.pow 2 estimate.toNat * Nat.pow 2 52 ≤ p
      else q * Nat.pow 2 52 ≤ p * Nat.pow 2 (-estimate).toNat) ↔
      (2 : ℚ) ^ (estimate + 52) ≤ p / q := by
  have unit : (0 : ℚ) < q := by exact_mod_cast positive
  have full : (2 : ℚ) ^ (52 : Int) = 2 ^ 52 := by norm_cast
  rw [le_div_iff₀ unit, zpow_add₀ (by norm_num), full]
  split
  · next above =>
    obtain ⟨k, rfl⟩ := Int.eq_ofNat_of_zero_le above
    rw [Int.toNat_natCast, zpow_natCast, mul_comm ((2 : ℚ) ^ k * 2 ^ 52), ← mul_assoc]
    exact_mod_cast Iff.rfl
  · next below =>
    obtain ⟨k, negative⟩ : ∃ k : Nat, estimate = -(k : Int) := ⟨(-estimate).toNat, by omega⟩
    have power : (0 : ℚ) < 2 ^ k := by positivity
    rw [negative, Int.neg_neg, Int.toNat_natCast, zpow_neg, zpow_natCast, mul_assoc, ← div_eq_inv_mul, div_le_iff₀ power,
      mul_comm ((2 : ℚ) ^ 52)]
    exact_mod_cast Iff.rfl

theorem numeratorPositive (canonical : IsCanonical m e) (value : (p : ℚ) / q = m * 2 ^ e) : 0 < p := by
  have significant : (0 : ℚ) < m := by exact_mod_cast canonical.positive
  have magnitude : (p : ℚ) / q ≠ 0 := by
    rw [value]
    exact (mul_pos significant (twoPositive e)).ne'
  refine Nat.pos_of_ne_zero ?_
  rintro rfl
  simp at magnitude

/-- A quotient has the bits of its two logarithms, or one less. -/
theorem quotientBits (some : 0 < p) (positive : 0 < q) :
    (2 : ℚ) ^ ((p.log2 : Int) - q.log2 - 1) ≤ p / q ∧ (p : ℚ) / q < 2 ^ ((p.log2 : Int) - q.log2 + 1) := by
  have unit : (0 : ℚ) < q := by exact_mod_cast positive
  obtain ⟨pLeast, pMost⟩ := logBounds some
  obtain ⟨qLeast, qMost⟩ := logBounds positive
  constructor
  · rw [le_div_iff₀ unit]
    calc (2 : ℚ) ^ ((p.log2 : Int) - q.log2 - 1) * q ≤ 2 ^ ((p.log2 : Int) - q.log2 - 1) * 2 ^ ((q.log2 : Int) + 1) :=
          mul_le_mul_of_nonneg_left qMost.le (twoPositive _).le
      _ = 2 ^ (p.log2 : Int) := by
        rw [← zpow_add₀ (by norm_num)]
        congr 1
        omega
      _ ≤ p := pLeast
  · rw [div_lt_iff₀ unit]
    calc (p : ℚ) < 2 ^ ((p.log2 : Int) + 1) := pMost
      _ = 2 ^ ((p.log2 : Int) - q.log2 + 1) * 2 ^ (q.log2 : Int) := by
        rw [← zpow_add₀ (by norm_num)]
        congr 1
        omega
      _ ≤ 2 ^ ((p.log2 : Int) - q.log2 + 1) * q := mul_le_mul_of_nonneg_left qLeast (twoPositive _).le

/-- A significand has fifty-three bits, or fewer over the least power. -/
theorem canonicalBits (canonical : IsCanonical m e) : m.log2 ≤ 52 ∧ (e = -1074 ∨ m.log2 = 52) := by
  have bits : m.log2 ≤ 52 := by
    by_contra beyond
    have := (Nat.le_log2 canonical.positive.ne').mp (Nat.not_le.mp beyond)
    have := canonical.few
    omega
  exact ⟨bits, canonical.full.imp_right fun full => le_antisymm bits ((Nat.le_log2 canonical.positive.ne').mpr full)⟩

/-- The exponent of the last bit of a double is the one it is written with. -/
theorem stepCanonical (canonical : IsCanonical m e) (positive : 0 < q) (value : (p : ℚ) / q = m * 2 ^ e) :
    stepExponent double p q = e := by
  have step := twoPositive e
  obtain ⟨mLeast, mMost⟩ := logBounds canonical.positive
  -- the quotient has the bits of its significand
  have least : (2 : ℚ) ^ ((m.log2 : Int) + e) ≤ p / q := by
    rw [value, zpow_add₀ (by norm_num)]
    exact mul_le_mul_of_nonneg_right mLeast step.le
  have most : (p : ℚ) / q < 2 ^ ((m.log2 : Int) + e + 1) := by
    rw [value, add_right_comm, zpow_add₀ (by norm_num)]
    exact mul_lt_mul_of_pos_right mMost step
  obtain ⟨below, above⟩ := quotientBits (numeratorPositive canonical value) positive
  obtain ⟨bits, whole⟩ := canonicalBits canonical
  have lowest := canonical.least
  obtain ⟨estimate, taken⟩ : ∃ estimate : Int, estimate = p.log2 - q.log2 - 52 := ⟨_, rfl⟩
  have reached := stepReached (p := p) positive estimate
  have width : estimate + 52 = p.log2 - q.log2 := by omega
  rw [width] at reached
  unfold stepExponent double
  dsimp only
  have format : (p.log2 : Int) - q.log2 - (((53 : Nat) : Int) - 1) = estimate := by omega
  rw [format]
  by_cases yes : (2 : ℚ) ^ ((p.log2 : Int) - q.log2) ≤ p / q
  · have same := logOnce least most yes above
    rw [if_pos (reached.mpr yes)]
    omega
  · have less : (p : ℚ) / q < 2 ^ ((p.log2 : Int) - q.log2 - 1 + 1) := by
      rw [sub_add_cancel]
      exact not_le.mp yes
    have same := logOnce least most below less
    rw [if_neg (mt reached.mp yes)]
    omega

end Steps

section Intervals

variable {m p q : Nat} {e : Int}

def Interval.lowest (i : Interval) : ℚ := i.low / i.denominator

def Interval.highest (i : Interval) : ℚ := i.high / i.denominator

theorem holdsIff {i : Interval} (positive : 0 < i.denominator) (candidate : Nat) (power : Int) :
    i.holds candidate power ↔
      if i.closed then i.lowest ≤ candidate * 10 ^ power ∧ (candidate : ℚ) * 10 ^ power ≤ i.highest
      else i.lowest < candidate * 10 ^ power ∧ (candidate : ℚ) * 10 ^ power < i.highest := by
  have unit : (0 : ℚ) < i.denominator := by exact_mod_cast positive
  obtain ⟨scaled, scale, split, some, value⟩ : ∃ scaled scale : Nat,
      i.holds candidate power = (if i.closed then decide (i.low * scale ≤ scaled ∧ scaled ≤ i.high * scale)
        else decide (i.low * scale < scaled ∧ scaled < i.high * scale)) ∧
      (0 : ℚ) < scale ∧ (candidate : ℚ) * 10 ^ power = scaled / scale / i.denominator := by
    by_cases above : 0 ≤ power
    · obtain ⟨k, rfl⟩ := Int.eq_ofNat_of_zero_le above
      refine ⟨candidate * 10 ^ k * i.denominator, 1, ?_, by norm_num, ?_⟩
      · unfold Interval.holds
        simp only [above, if_true, Int.toNat_natCast]
        rfl
      · push_cast
        rw [zpow_natCast]
        field_simp
    · obtain ⟨k, rfl⟩ : ∃ k : Nat, power = -(k : Int) := ⟨(-power).toNat, by omega⟩
      refine ⟨candidate * i.denominator, 10 ^ k, ?_, by positivity, ?_⟩
      · unfold Interval.holds
        simp only [above, if_false, Int.neg_neg, Int.toNat_natCast]
        rfl
      · push_cast
        rw [zpow_neg, zpow_natCast]
        field_simp
  have low : i.lowest = i.low * scale / scale / i.denominator := by
    unfold Interval.lowest
    field_simp
  have high : i.highest = i.high * scale / scale / i.denominator := by
    unfold Interval.highest
    field_simp
  rw [split, value, low, high]
  split
  · simp only [decide_eq_true_eq, div_le_div_iff_of_pos_right unit, div_le_div_iff_of_pos_right some]
    exact_mod_cast Iff.rfl
  · simp only [decide_eq_true_eq, div_lt_div_iff_of_pos_right unit, div_lt_div_iff_of_pos_right some]
    exact_mod_cast Iff.rfl

theorem significandOf (positive : 0 < q) (value : (p : ℚ) / q = m * 2 ^ e) :
    (if e < 0 then p * Nat.pow 2 (-e).toNat else p) / (if e < 0 then q else q * Nat.pow 2 e.toNat) = m := by
  have unit : (q : ℚ) ≠ 0 := by exact_mod_cast positive.ne'
  rw [div_eq_iff unit] at value
  split
  · next below =>
    obtain ⟨k, rfl⟩ : ∃ k : Nat, e = -(k : Int) := ⟨(-e).toNat, by omega⟩
    have whole : p * 2 ^ k = m * q := by
      rw [zpow_neg, zpow_natCast] at value
      have : (p : ℚ) * 2 ^ k = m * q := by
        rw [value]
        field_simp
      exact_mod_cast this
    rw [Int.neg_neg, Int.toNat_natCast]
    exact (congrArg (· / q) whole).trans (Nat.mul_div_cancel m positive)
  · next above =>
    obtain ⟨k, rfl⟩ := Int.eq_ofNat_of_zero_le (not_lt.mp above)
    have whole : p = m * (q * 2 ^ k) := by
      rw [zpow_natCast] at value
      have : (p : ℚ) = m * (q * 2 ^ k) := by
        rw [value]
        ring
      exact_mod_cast this
    rw [Int.toNat_natCast]
    exact (congrArg (· / (q * 2 ^ k)) whole).trans (Nat.mul_div_cancel m (Nat.mul_pos positive (Nat.two_pow_pos k)))

/-- The interval of a double ends at the middles to its neighbours. -/
theorem intervalEnds (canonical : IsCanonical m e) (positive : 0 < q) (value : (p : ℚ) / q = m * 2 ^ e) :
    0 < (interval p q).denominator ∧ (interval p q).closed = (m % 2 == 0) ∧
      (interval p q).lowest = (m - gapBelow m e) * 2 ^ e ∧ (interval p q).highest = (m + 1 / 2) * 2 ^ e := by
  obtain ⟨below, taken⟩ : ∃ below : Nat, below = if m = Nat.pow 2 52 ∧ double.leastExponent < e then 1 else 2 := ⟨_, rfl⟩
  have gap : gapBelow m e = below / 4 := by
    have same : gapBelow m e = if m = Nat.pow 2 52 ∧ double.leastExponent < e then 1 / 4 else 1 / 2 := rfl
    rw [same, taken]
    split <;> norm_num
  have short : below ≤ 4 * m := by
    have some := canonical.positive
    split at taken <;> omega
  unfold interval
  rw [stepCanonical canonical positive value]
  dsimp only
  rw [significandOf positive value, ← taken, gap]
  unfold Interval.lowest Interval.highest
  split
  · next less =>
    obtain ⟨k, rfl⟩ : ∃ k : Nat, e = -(k : Int) := ⟨(-e).toNat, by omega⟩
    have power : (Nat.pow 2 (- -(k : Int)).toNat : ℚ) = 2 ^ k := by
      rw [Int.neg_neg, Int.toNat_natCast]
      norm_num
    refine ⟨?_, rfl, ?_, ?_⟩
    · exact Nat.mul_pos (by decide) (Nat.pow_pos (by decide))
    · dsimp only
      rw [Nat.cast_sub short, zpow_neg, zpow_natCast]
      push_cast
      rw [power]
      field_simp
    · dsimp only
      rw [zpow_neg, zpow_natCast]
      push_cast
      rw [power]
      field_simp
      ring
  · next above =>
    obtain ⟨k, rfl⟩ := Int.eq_ofNat_of_zero_le (not_lt.mp above)
    have power : (Nat.pow 2 (k : Int).toNat : ℚ) = 2 ^ k := by
      rw [Int.toNat_natCast]
      norm_num
    refine ⟨(by decide : 0 < 4), rfl, ?_, ?_⟩
    · dsimp only
      push_cast [Nat.cast_sub short]
      rw [power, zpow_natCast]
      field_simp
    · dsimp only
      push_cast
      rw [power, zpow_natCast]
      field_simp
      ring

/-- A candidate is in the interval of a double exactly if it rounds to the double. -/
theorem holdsRounds (canonical : IsCanonical m e) (positive : 0 < q) (value : (p : ℚ) / q = m * 2 ^ e) (candidate : Nat)
    (power : Int) : (interval p q).holds candidate power ↔ RoundsTo m e (candidate * 10 ^ power) := by
  obtain ⟨some, closed, low, high⟩ := intervalEnds canonical positive value
  rw [holdsIff some, closed, low, high]
  unfold RoundsTo
  simp only [beq_iff_eq]

end Intervals

end EntityQuery.Number
