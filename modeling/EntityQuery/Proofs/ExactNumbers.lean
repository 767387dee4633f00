import EntityQuery.Number
import Mathlib.Tactic.Ring
import Mathlib.Tactic.SplitIfs
/-! Arithmetic on integers that are held as numbers. Sums, differences and products that a number holds are exact, and so is
a quotient cut towards zero, though it is rounded before it is cut. Rounding changes no integer that a number holds. -/

namespace EntityQuery.Number

variable {x y : Number} {a b : Int}

section Whole

theorem wholeOfInt {n : Int} (small : n.natAbs ≤ integerBound) : (ofInt n).int? = some n := by
  rw [ofInt_of_le small, int?_integer]

theorem wholeZero (negative : Bool) : (zero negative).int? = some 0 := by
  cases negative <;> rfl

theorem wholeCases (whole : x.int? = some a) : x = .integer a ∨ x = .negativeZero ∧ a = 0 := by
  cases x with
  | integer n =>
    cases whole
    exact .inl rfl
  | negativeZero =>
    cases whole
    exact .inr ⟨rfl, rfl⟩
  | _ => cases whole

theorem wholeCompare (left : x.int? = some a) (right : y.int? = some b) : x.compare? y = some (compare a b) := by
  rcases wholeCases left with rfl | ⟨rfl, rfl⟩ <;> rcases wholeCases right with rfl | ⟨rfl, rfl⟩ <;>
    simp [compare?, ratio?]

theorem wholeNeg (whole : x.int? = some a) : x.neg.int? = some (-a) := by
  rcases wholeCases whole with rfl | ⟨rfl, rfl⟩
  · unfold neg
    dsimp only
    split
    · rename_i null
      subst null
      rfl
    · rfl
  · rfl

theorem wholeAdd (left : x.int? = some a) (right : y.int? = some b) (small : (a + b).natAbs ≤ integerBound) :
    (x.add y).int? = some (a + b) := by
  have ratio : (ofRatio (a * (1 : Nat) + b * (1 : Nat)) (1 * 1)).int? = some (a + b) := by
    rw [Nat.cast_one, Int.mul_one, Int.mul_one]
    exact wholeOfInt small
  rcases wholeCases left with rfl | ⟨rfl, rfl⟩ <;> rcases wholeCases right with rfl | ⟨rfl, rfl⟩
  · exact wholeOfInt small
  · exact ratio
  · exact ratio
  · rfl

theorem wholeSub (left : x.int? = some a) (right : y.int? = some b) (small : (a - b).natAbs ≤ integerBound) :
    (x.sub y).int? = some (a - b) := by
  rw [Int.sub_eq_add_neg] at small ⊢
  exact wholeAdd left (wholeNeg right) small

theorem wholeMul (left : x.int? = some a) (right : y.int? = some b) (small : (a * b).natAbs ≤ integerBound) :
    (x.mul y).int? = some (a * b) := by
  have product : x.mul y = if a * b = 0 then zero (x.isNegative != y.isNegative) else ofRatio (a * b) (1 * 1) := by
    rcases wholeCases left with rfl | ⟨rfl, rfl⟩ <;> rcases wholeCases right with rfl | ⟨rfl, rfl⟩ <;> rfl
  rw [product]
  split
  · rename_i null
    rw [null, wholeZero]
  · exact wholeOfInt small

end Whole

section Quotients

variable {p q t : Nat}

/-- A quotient of scaled numbers stays below the next integer when it is rounded, if the scale is fine enough. -/
theorem roundBelow {scale : Nat} (positive : 0 < q) (scaled : 0 < scale) (fine : q < 2 * scale ∨ 2 * p ≤ scale) :
    roundQuotient (p * scale) q / scale = p / q := by
  have parts : p = q * (p / q) + p % q := (Nat.div_add_mod p q).symm
  have least : p % q + 1 ≤ q := Nat.mod_lt p positive
  have few : p % q ≤ p := Nat.mod_le p q
  generalize p / q = k at parts
  generalize p % q = r at parts least few
  have split : p * scale = q * (k * scale) + r * scale := by rw [parts]; ring
  have quotient : p * scale / q = k * scale + r * scale / q := by rw [split, Nat.mul_add_div positive]
  have rest : p * scale % q = r * scale % q := by rw [split, Nat.mul_add_mod]
  have remains : q * (r * scale / q) + r * scale % q = r * scale := Nat.div_add_mod _ q
  have small : r * scale % q < q := Nat.mod_lt _ positive
  unfold roundQuotient
  rw [quotient, rest]
  generalize r * scale / q = u at remains
  generalize r * scale % q = m at remains small
  have below : r * scale + scale ≤ q * scale := by
    have := Nat.mul_le_mul_right scale least
    rwa [Nat.add_mul, Nat.one_mul] at this
  have under : u < scale := by
    by_contra beyond
    have := Nat.mul_le_mul_left q (Nat.not_lt.mp beyond)
    omega
  -- a remainder of at least a half leaves room above the quotient
  have room : q ≤ 2 * m → u + 1 < scale := by
    intro half
    by_contra full
    have last : q * scale ≤ q * u + q := by
      have := Nat.mul_le_mul_left q (Nat.not_lt.mp full)
      rwa [Nat.mul_add, Nat.mul_one] at this
    rcases fine with near | tiny
    · omega
    · have wide : 2 * (scale * scale) ≤ q * scale := by
        rw [← Nat.mul_assoc]
        exact Nat.mul_le_mul_right scale (by omega)
      have short : 2 * (r * scale) ≤ scale * scale := by
        rw [← Nat.mul_assoc]
        exact Nat.mul_le_mul_right scale (by omega)
      have once : q ≤ q * scale := Nat.le_mul_of_pos_right q scaled
      omega
  dsimp only
  refine Nat.div_eq_of_lt_le ?_ ?_
  · split_ifs <;> omega
  · rw [Nat.add_mul, Nat.one_mul]
    split_ifs <;> omega

theorem reduceOk (value scale : Nat) :
    (reduce value scale).2 ≤ scale ∧ value = (reduce value scale).1 * 2 ^ (scale - (reduce value scale).2) := by
  induction scale generalizing value with
  | zero => exact ⟨le_rfl, by simp [reduce]⟩
  | succ scale ih =>
    unfold reduce
    split
    · rename_i even
      obtain ⟨fewer, same⟩ := ih (value / 2)
      refine ⟨Nat.le_succ_of_le fewer, ?_⟩
      rw [Nat.succ_sub fewer, pow_succ, ← Nat.mul_assoc, ← same]
      omega
    · exact ⟨le_rfl, by simp⟩

theorem signedDiv (negative : Bool) (m d : Nat) : (signed negative m).tdiv d = signed negative (m / d) := by
  cases negative with
  | false => exact (Int.ofNat_tdiv m d).symm
  | true =>
    unfold signed
    rw [if_pos rfl, if_pos rfl, Int.neg_tdiv, ← Int.ofNat_tdiv]

theorem signedQuotient (nonzero : a ≠ 0) (divides : b ≠ 0) :
    signed (decide (a < 0) != decide (b < 0)) (a.natAbs / b.natAbs) = a.tdiv b := by
  have whole : ∀ {n : Int}, n ≠ 0 → n = signed (decide (n < 0)) n.natAbs := by
    intro n present
    unfold signed
    split_ifs with below
    · have := of_decide_eq_true below
      omega
    · have : ¬ n < 0 := fun lower => below (decide_eq_true lower)
      omega
  conv => rhs; rw [whole nonzero, whole divides]
  generalize decide (a < 0) = left
  generalize decide (b < 0) = right
  cases right with
  | false =>
    rw [Bool.bne_false]
    exact (signedDiv left a.natAbs b.natAbs).symm
  | true =>
    have negated : ∀ m, signed (!left) m = -signed left m := by
      intro m
      cases left <;> simp [signed]
    rw [Bool.bne_true, negated, ← signedDiv]
    exact (Int.tdiv_neg _ _).symm

/-- Cutting a number of scaled digits. -/
theorem cutScaled (negative : Bool) (significand : Nat) (scaled : 0 < t) :
    (truncate (ofScaled negative significand (-t))).int? = some (signed negative (significand / 2 ^ t)) := by
  unfold ofScaled
  split
  · rename_i null
    rw [null, Nat.zero_div]
    cases negative <;> rfl
  · rw [if_neg (by omega), Int.neg_neg, Int.toNat_natCast]
    obtain ⟨fewer, same⟩ := reduceOk significand t
    generalize reduce significand t = reduced at fewer same
    obtain ⟨odd, left⟩ := reduced
    have cut : significand / 2 ^ t = odd / 2 ^ left := by
      have scale : 2 ^ t = 2 ^ left * 2 ^ (t - left) := by rw [← pow_add, Nat.add_sub_cancel' fewer]
      rw [same, scale, Nat.mul_div_mul_right _ _ (Nat.two_pow_pos _)]
    rw [cut]
    cases left with
    | zero =>
      rw [pow_zero, Nat.div_one]
      rfl
    | succ left =>
      unfold truncate
      dsimp only
      have size : (signed negative odd).natAbs = odd := by cases negative <;> simp [signed]
      rw [size]
      split
      · rename_i tiny
        have none : odd / 2 ^ (left + 1) = 0 := Nat.div_eq_of_lt tiny
        rw [none, wholeZero]
        cases negative <;> rfl
      · exact congrArg some (signedDiv negative odd (Nat.pow 2 (left + 1)))

theorem stepFine (few : p ≤ 2 ^ 32) (nonzero : p ≠ 0) (q : Nat) :
    ∃ t : Nat, 0 < t ∧ stepExponent double p q = -(t : Int) ∧ (q < 2 * 2 ^ t ∨ 2 * p ≤ 2 ^ t) := by
  have most : p.log2 ≤ 32 := by
    by_contra beyond
    have := (Nat.le_log2 nonzero).mp (Nat.not_le.mp beyond)
    omega
  have size : q < 2 * 2 ^ q.log2 := by
    rw [← pow_succ']
    exact Nat.lt_log2_self
  obtain ⟨less, near, step⟩ : ∃ less : Int, 0 ≤ less ∧ stepExponent double p q = max (p.log2 - q.log2 - 52 - less) (-1074) := by
    unfold stepExponent double
    dsimp only
    split_ifs
    · exact ⟨0, le_rfl, by omega⟩
    · exact ⟨1, by decide, by omega⟩
    · exact ⟨0, le_rfl, by omega⟩
    · exact ⟨1, by decide, by omega⟩
  rw [step]
  by_cases clamped : p.log2 - q.log2 - 52 - less ≤ -1074
  · have twice : 2 * p ≤ 2 ^ 33 := by omega
    -- the scale stands as a variable, so that its power is not evaluated
    obtain ⟨t, smallest⟩ : ∃ t : Nat, t = 1074 := ⟨_, rfl⟩
    refine ⟨t, by omega, ?_, .inr (twice.trans (Nat.pow_le_pow_right (by decide) (by omega)))⟩
    rw [max_eq_right clamped, smallest]
    rfl
  · refine ⟨(q.log2 + 52 + less - p.log2).toNat, by omega, by rw [max_eq_left (by omega)]; omega, .inl (size.trans_le ?_)⟩
    exact Nat.mul_le_mul_left 2 (Nat.pow_le_pow_right (by decide) (by omega))

/-- A quotient that is rounded and then cut is the quotient that is cut at once. -/
theorem cutRound (negative : Bool) (few : p ≤ 2 ^ 32) (nonzero : p ≠ 0) (positive : 0 < q) :
    (truncate (round double negative p q)).int? = some (signed negative (p / q)) := by
  obtain ⟨t, scaled, step, fine⟩ := stepFine few nonzero q
  unfold round
  rw [if_neg nonzero, step]
  dsimp only
  have below : ¬ (0 : Int) ≤ -(t : Int) := by omega
  rw [if_neg (fun overflows => below overflows.1), if_neg below, Int.neg_neg, Int.toNat_natCast, cutScaled negative _ scaled]
  exact congrArg (fun n => some (signed negative n)) (roundBelow positive (Nat.two_pow_pos t) fine)

end Quotients

theorem wholeDiv (left : x.int? = some a) (right : y.int? = some b) (divides : b ≠ 0) (few : a.natAbs ≤ 2 ^ 32) :
    ((x.div y).truncate).int? = some (a.tdiv b) := by
  obtain rfl : y = .integer b := by
    rcases wholeCases right with same | ⟨-, null⟩
    · exact same
    · exact absurd null divides
  have quotient : x.div (.integer b) = if a = 0 then zero (x.isNegative != decide (b < 0)) else
      round double (x.isNegative != decide (b < 0)) (a.natAbs * 1) (1 * b.natAbs) := by
    rcases wholeCases left with rfl | ⟨rfl, rfl⟩
    · unfold div
      dsimp only [ratio?]
      rw [if_neg divides]
      rfl
    · unfold div
      dsimp only [ratio?]
      rw [if_neg divides]
      rfl
  rw [quotient]
  split
  · rename_i null
    rw [null, Int.zero_tdiv]
    generalize (x.isNegative != decide (b < 0)) = negative
    cases negative <;> rfl
  · rename_i nonzero
    obtain rfl : x = .integer a := by
      rcases wholeCases left with same | ⟨-, null⟩
      · exact same
      · exact absurd null nonzero
    rw [Nat.mul_one, Nat.one_mul, cutRound _ few (Int.natAbs_ne_zero.mpr nonzero) (Int.natAbs_pos.mpr divides)]
    exact congrArg some (signedQuotient nonzero divides)

section Rounding

theorem quotientOne (n : Nat) : roundQuotient n 1 = n := by
  unfold roundQuotient
  rw [Nat.mod_one, Nat.div_one]
  rfl

theorem reduceScaled (m k : Nat) : reduce (m * 2 ^ k) k = (m, 0) := by
  induction k with
  | zero => simp [reduce]
  | succ k ih =>
    have twice : m * 2 ^ (k + 1) = 2 * (m * 2 ^ k) := by ring
    unfold reduce
    rw [twice, if_pos (Nat.mul_mod_right 2 _), Nat.mul_div_cancel_left _ (by decide), ih]

theorem scaledWhole (negative : Bool) {m : Nat} (positive : 0 < m) (k : Nat) :
    ofScaled negative (m * 2 ^ k) (-(k : Int)) = .integer (signed negative m) := by
  unfold ofScaled
  rw [if_neg (Nat.mul_pos positive (Nat.two_pow_pos k)).ne']
  cases k with
  | zero => simp
  | succ k =>
    rw [if_neg (by omega), Int.neg_neg, Int.toNat_natCast, reduceScaled]

/-- The last bit of a whole number that a double holds is at most a unit. -/
theorem wholeStep {m : Nat} (positive : 0 < m) (small : m < 2 ^ 53) :
    ∃ k : Nat, stepExponent double m 1 = -(k : Int) := by
  have most : m.log2 ≤ 52 := by
    by_contra beyond
    have := (Nat.le_log2 positive.ne').mp (Nat.not_le.mp beyond)
    omega
  have one : Nat.log2 1 = 0 := by decide
  unfold stepExponent double
  dsimp only
  rw [one]
  split_ifs
  · exact ⟨52 - m.log2, by omega⟩
  · exact ⟨53 - m.log2, by omega⟩
  · exact ⟨52 - m.log2, by omega⟩
  · exact ⟨53 - m.log2, by omega⟩

/-- A whole number that a double holds is not rounded. -/
theorem roundWhole (negative : Bool) {m : Nat} (positive : 0 < m) (small : m < 2 ^ 53) :
    round double negative m 1 = .integer (signed negative m) := by
  obtain ⟨k, step⟩ := wholeStep positive small
  unfold round
  rw [if_neg positive.ne', step]
  dsimp only
  cases k with
  | zero =>
    have whole : roundQuotient m (1 * Nat.pow 2 (-((0 : Nat) : Int)).toNat) = m := quotientOne m
    -- the exponent stands as a variable, so that its power is not evaluated
    obtain ⟨e, greatest, wide⟩ : ∃ e, double.overflowExponent = e ∧ 53 ≤ e := ⟨_, rfl, by decide⟩
    have few : ¬ Nat.pow 2 e ≤ m * Nat.pow 2 (-((0 : Nat) : Int)).toNat := by
      have unit : Nat.pow 2 (-((0 : Nat) : Int)).toNat = 1 := rfl
      rw [unit, Nat.mul_one]
      exact Nat.not_le.mpr (small.trans_le (Nat.pow_le_pow_right (by decide) wide))
    have least : (0 : Int) ≤ -((0 : Nat) : Int) := by decide
    rw [if_pos least, whole, greatest, if_neg (fun overflows => few overflows.2)]
    exact (congrArg (ofScaled negative · _) (Nat.mul_one m).symm).trans (scaledWhole negative positive 0)
  | succ k =>
    have below : ¬ (0 : Int) ≤ -((k + 1 : Nat) : Int) := by omega
    rw [if_neg (fun overflows => below overflows.1), if_neg below, Int.neg_neg, Int.toNat_natCast, quotientOne]
    exact scaledWhole negative positive (k + 1)

end Rounding

end EntityQuery.Number
