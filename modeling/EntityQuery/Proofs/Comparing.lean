import EntityQuery.Proofs.Content
import Mathlib.Tactic.LinearCombination
/-! When stored values compare as equal. Values that have a place in the order are equal or not as in any
equivalence; a value that is not a number or not an instant equals every other. -/

namespace EntityQuery

namespace Number

variable {x y z : Number} {a c : Int} {b d : Nat}

theorem ratioPositive (h : x.ratio? = some (a, b)) : 0 < b := by
  cases x with
  | integer n | negativeZero =>
    cases h
    exact Nat.one_pos
  | fraction n k =>
    cases h
    exact Nat.two_pow_pos k
  | infinity _ | nan => cases h

theorem compareRatio (hx : x.ratio? = some (a, b)) (hy : y.ratio? = some (c, d)) :
    x.compare? y = some (compare (a * d) (c * b)) := by
  cases x <;> cases hx <;> cases y <;> cases hy <;> simp [compare?, ratio?]

theorem ratioCases (x : Number) : x = .nan ∨ (∃ negative, x = .infinity negative) ∨ ∃ a b, x.ratio? = some (a, b) := by
  cases x with
  | nan => exact .inl rfl
  | infinity negative => exact .inr (.inl ⟨negative, rfl⟩)
  | _ => exact .inr (.inr ⟨_, _, rfl⟩)

theorem compareInfinite {negative : Bool} (hx : x.ratio? = some (a, b)) :
    (x.compare? (.infinity negative)).getD .eq ≠ .eq ∧ ((Number.infinity negative).compare? x).getD .eq ≠ .eq := by
  cases x with
  | infinity _ | nan => cases hx
  | _ => cases negative <;> exact ⟨nofun, nofun⟩

theorem compareNaN (x : Number) : x.compare? .nan = none ∧ Number.nan.compare? x = none := by
  cases x <;> exact ⟨rfl, rfl⟩

theorem compareSelf (x : Number) : (x.compare? x).getD .eq = .eq := by
  cases x <;> simp [compare?, ratio?]

theorem compareSymm (h : (x.compare? y).getD .eq = .eq) : (y.compare? x).getD .eq = .eq := by
  rcases ratioCases x with rfl | ⟨p, rfl⟩ | ⟨a, b, hx⟩
  · rw [(compareNaN y).1]
    rfl
  · rcases ratioCases y with rfl | ⟨q, rfl⟩ | ⟨c, d, hy⟩
    · rfl
    · cases p <;> cases q <;> first | rfl | cases h
    · exact absurd h (compareInfinite hy).2
  · rcases ratioCases y with rfl | ⟨q, rfl⟩ | ⟨c, d, hy⟩
    · rw [(compareNaN x).2]
      rfl
    · exact absurd h (compareInfinite hx).1
    · rw [compareRatio hx hy, Option.getD_some, compare_eq_iff_eq] at h
      rw [compareRatio hy hx, Option.getD_some, compare_eq_iff_eq, h]

/-- Equality passes on through a number, which not a number would break. -/
theorem compareTrans (placed : y ≠ .nan) (xy : (x.compare? y).getD .eq = .eq) (zy : (z.compare? y).getD .eq = .eq) :
    (x.compare? z).getD .eq = .eq := by
  rcases ratioCases x with rfl | ⟨p, rfl⟩ | ⟨a, b, hx⟩
  · rw [(compareNaN z).2]
    rfl
  · rcases ratioCases y with rfl | ⟨q, rfl⟩ | ⟨c, d, hy⟩
    · exact absurd rfl placed
    · rcases ratioCases z with rfl | ⟨r, rfl⟩ | ⟨e, f, hz⟩
      · rfl
      · cases p <;> cases q <;> cases r <;> simp_all [compare?]
      · exact absurd zy (compareInfinite hz).1
    · exact absurd xy (compareInfinite hy).2
  · rcases ratioCases y with rfl | ⟨q, rfl⟩ | ⟨c, d, hy⟩
    · exact absurd rfl placed
    · exact absurd xy (compareInfinite hx).1
    · rcases ratioCases z with rfl | ⟨r, rfl⟩ | ⟨e, f, hz⟩
      · rw [(compareNaN x).1]
        rfl
      · exact absurd zy (compareInfinite hy).2
      · rw [compareRatio hx hy, Option.getD_some, compare_eq_iff_eq] at xy
        rw [compareRatio hz hy, Option.getD_some, compare_eq_iff_eq] at zy
        rw [compareRatio hx hz, Option.getD_some, compare_eq_iff_eq]
        -- the denominator in the middle is positive, so it can be cancelled
        have middle : (d : Int) ≠ 0 := by exact_mod_cast (ratioPositive hy).ne'
        apply mul_right_cancel₀ middle
        linear_combination (f : Int) * xy - (b : Int) * zy

end Number

namespace Store

namespace Comparable

variable {x y z : Comparable}

theorem unitsEq {a b : List Nat} (h : Text.compareLists a b = .eq) : a = b := by
  induction a generalizing b with
  | nil =>
    cases b with
    | nil => rfl
    | cons _ _ => cases h
  | cons m rest ih =>
    cases b with
    | nil => cases h
    | cons n others =>
      unfold Text.compareLists at h
      split at h
      · cases h
      · split at h
        · cases h
        · obtain rfl : m = n := by omega
          rw [ih h]

theorem textOrder {a b : String} : (Comparable.text (some a)).order (.text (some b)) = .eq ↔ Text.units a = Text.units b := by
  constructor
  · exact unitsEq
  · intro same
    change Text.compareLists (Text.units a) (Text.units b) = .eq
    rw [same]
    exact Text.compareLists_self _

theorem orderSelf (x : Comparable) : x.order x = .eq := by
  rcases x with n | (_ | s)
  · exact Number.compareSelf n
  · rfl
  · exact textOrder.mpr rfl

theorem orderSymm (h : x.order y = .eq) : y.order x = .eq := by
  rcases x with n | (_ | s)
  · cases y with
    | number m => exact Number.compareSymm h
    | text t => cases h
  · rcases y with m | (_ | t)
    · cases h
    · rfl
    · rfl
  · rcases y with m | (_ | t)
    · cases h
    · rfl
    · exact textOrder.mpr (textOrder.mp h).symm

theorem orderTrans (placed : isPlaced (some y)) (xy : x.order y = .eq) (zy : z.order y = .eq) : x.order z = .eq := by
  rcases y with n | (_ | s)
  · have number : n ≠ .nan := by
      rintro rfl
      cases placed
    rcases x with m | (_ | t)
    · rcases z with k | (_ | u)
      · exact Number.compareTrans number xy zy
      · cases zy
      · cases zy
    · cases xy
    · cases xy
  · cases placed
  · rcases x with m | (_ | t)
    · cases xy
    · rcases z with k | _
      · cases zy
      · rfl
    · rcases z with k | (_ | u)
      · cases zy
      · rfl
      · exact textOrder.mpr ((textOrder.mp xy).trans (textOrder.mp zy).symm)

end Comparable

variable {u v w : Value}

theorem sameOk {b : Bool} (h : same v w = .ok b) :
    ∃ x y, comparable v = .ok x ∧ comparable w = .ok y ∧ b = (x.order y == .eq) := by
  obtain ⟨o, ordered, h⟩ := Results.bindOk h
  obtain ⟨x, hx, ordered⟩ := Results.bindOk ordered
  obtain ⟨y, hy, ordered⟩ := Results.bindOk ordered
  cases ordered
  cases h
  exact ⟨x, y, hx, hy, rfl⟩

theorem sameOf {x y : Comparable} (hv : comparable v = .ok x) (hw : comparable w = .ok y) :
    same v w = .ok (x.order y == .eq) := by
  rw [same, order, hv, hw]
  rfl

theorem sameSelf {x : Comparable} (h : comparable v = .ok x) : same v v = .ok true := by
  rw [sameOf h h, Comparable.orderSelf]
  rfl

theorem sameSymm {b : Bool} (h : same v w = .ok b) : same w v = .ok b := by
  obtain ⟨x, y, hx, hy, rfl⟩ := sameOk h
  rw [sameOf hy hx]
  by_cases equal : x.order y = .eq
  · rw [equal, Comparable.orderSymm equal]
  · have unequal : y.order x ≠ .eq := fun back => equal (Comparable.orderSymm back)
    rw [beq_false_of_ne equal, beq_false_of_ne unequal]

/-- Is a value there, and has it a place in the order of its kind? -/
def Places (v : Value) : Prop := v.isNothing = false ∧ ∃ x, comparable v = .ok x ∧ isPlaced (some x)

theorem sameTrans (places : Places w) (vw : same v w = .ok true) (uw : same u w = .ok true) : same v u = .ok true := by
  obtain ⟨-, y, hy, placed⟩ := places
  obtain ⟨x, y₁, hx, hy₁, eq₁⟩ := sameOk vw
  obtain ⟨z, y₂, hz, hy₂, eq₂⟩ := sameOk uw
  obtain rfl := Except.ok.inj (hy₁.symm.trans hy)
  obtain rfl := Except.ok.inj (hy₂.symm.trans hy)
  rw [sameOf hx hz, Comparable.orderTrans placed (eq_of_beq eq₁.symm) (eq_of_beq eq₂.symm)]
  rfl

end Store

end EntityQuery
