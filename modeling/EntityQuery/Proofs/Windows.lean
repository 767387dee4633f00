import EntityQuery.Operation.Reading
import EntityQuery.Proofs.Results
import EntityQuery.Store.Backend
import Mathlib.Tactic.Ring
/-! Windows cut by a statement and windows cut afterwards keep the same rows. Bounds are added as numbers by a statement,
and sums beyond the integers that numbers hold are still beyond the end of the rows. -/

namespace EntityQuery

namespace Number

theorem stepLarge {n : Nat} (large : 2 ^ 53 ≤ n) :
    ∃ k : Nat, stepExponent double n 1 = k ∧ 1 ≤ k ∧ 2 ^ 52 * 2 ^ k ≤ n := by
  have positive : n ≠ 0 := by
    rintro rfl
    exact absurd large (by decide)
  have least : 53 ≤ n.log2 := (Nat.le_log2 positive).mpr large
  have most : 2 ^ 52 * 2 ^ (n.log2 - 52) ≤ n := by
    rw [← pow_add, Nat.add_sub_cancel' (by omega)]
    exact Nat.log2_self_le positive
  refine ⟨n.log2 - 52, ?_, by omega, most⟩
  have estimate : (n.log2 : Int) - (Nat.log2 1 : Nat) - ((53 : Nat) - 1) = (n.log2 - 52 : Nat) := by
    have one : Nat.log2 1 = 0 := by decide
    omega
  have reached : 1 * Nat.pow 2 (n.log2 - 52) * Nat.pow 2 (53 - 1) ≤ n := by
    rw [Nat.one_mul, Nat.mul_comm]
    exact most
  unfold stepExponent double
  dsimp only
  rw [estimate, Int.toNat_natCast]
  simp only [Int.natCast_nonneg, if_true, reached]
  omega

/-- Integers from 2⁵³ on are rounded to no smaller ones. -/
theorem roundLarge {n : Nat} (large : 2 ^ 53 ≤ n) :
    round double false n 1 = .infinity false ∨ ∃ m : Nat, 2 ^ 53 ≤ m ∧ round double false n 1 = .integer m := by
  obtain ⟨k, step, least, most⟩ := stepLarge large
  have positive : n ≠ 0 := by
    rintro rfl
    exact absurd large (by decide)
  have quotient : 2 ^ 52 ≤ roundQuotient n (1 * Nat.pow 2 k) := by
    have below : 2 ^ 52 ≤ n / (1 * Nat.pow 2 k) := by
      rw [Nat.one_mul]
      exact (Nat.le_div_iff_mul_le (Nat.two_pow_pos k)).mpr most
    unfold roundQuotient
    dsimp only
    split_ifs <;> omega
  unfold round
  rw [if_neg positive, step]
  dsimp only
  rw [if_pos (Int.natCast_nonneg k), Int.toNat_natCast]
  split_ifs with overflows
  · exact .inl rfl
  · refine .inr ⟨roundQuotient n (1 * Nat.pow 2 k) * Nat.pow 2 k, ?_, ?_⟩
    · calc 2 ^ 53 = 2 ^ 52 * 2 ^ 1 := rfl
        _ ≤ roundQuotient n (1 * Nat.pow 2 k) * Nat.pow 2 k := Nat.mul_le_mul quotient (Nat.pow_le_pow_right (by decide) least)
    · have some : roundQuotient n (1 * Nat.pow 2 k) ≠ 0 := by
        have := Nat.two_pow_pos 52
        omega
      unfold ofScaled
      rw [if_neg some, if_pos (Int.natCast_nonneg k), Int.toNat_natCast]
      rfl

/-- The place up to which a statement reads: the sum of its bounds, or a place past the end of the rows like that sum. -/
theorem sumReaches (a b : Nat) {length : Nat} (few : length < 2 ^ 53) :
    Slice.position length (.ofInt (a + b)) = a + b ∨ length ≤ Slice.position length (.ofInt (a + b)) ∧ length ≤ a + b := by
  have sum : (a : Int) + b = (a + b : Nat) := rfl
  rw [sum]
  by_cases small : a + b ≤ integerBound
  · have exactly : ofInt (a + b : Nat) = .integer (a + b : Nat) := ofInt_of_le (Int.natAbs_natCast _ ▸ small)
    rw [exactly]
    exact .inl (Slice.position_ofNat _ _)
  · have large : 2 ^ 53 ≤ a + b := by
      unfold integerBound at small
      change ¬ a + b ≤ 2 ^ 53 at small
      omega
    have rounded : ofInt (a + b : Nat) = round double false (a + b) 1 := by
      unfold ofInt
      rw [Int.natAbs_natCast, if_neg small, decide_eq_false (by omega)]
    rw [rounded]
    refine .inr ⟨?_, by omega⟩
    rcases roundLarge large with endless | ⟨m, least, whole⟩
    · rw [endless]
      exact le_rfl
    · rw [whole, Slice.position_ofNat]
      omega

end Number

namespace Window

variable {w : Window} {e : Entity}

/-- Are the bounds of a window numbers, where it has any? -/
structure Counts (w : Window) : Prop where
  take : w.take = .null ∨ ∃ n, w.take = .number n
  skip : w.skip = .null ∨ ∃ n, w.skip = .number n

/-- The number of rows that a bound counts; both zeros count none. -/
inductive Bounds : Number → Nat → Prop where
  | integer (n : Nat) : Bounds (.integer n) n
  | negativeZero : Bounds .negativeZero 0

theorem boundsPosition {x : Number} {n : Nat} (bounds : Bounds x n) (length : Nat) : Slice.position length x = n := by
  cases bounds with
  | integer => exact Slice.position_ofNat _ _
  | negativeZero => rfl

/-- The sum of two bounds, which is a negative zero if both are. -/
theorem boundsSum {x y : Number} {n k : Nat} (skip : Bounds x n) (take : Bounds y k) :
    x.add y = .ofInt (n + k) ∨ x.add y = .negativeZero ∧ n = 0 ∧ k = 0 := by
  have whole (m : Int) : Number.ofRatio (m * (1 : Nat) + 0 * (1 : Nat)) (1 * 1) = .ofInt m := by
    rw [Int.zero_mul, Int.add_zero, Nat.cast_one, Int.mul_one]
    rfl
  cases skip with
  | integer =>
    cases take with
    | integer => exact .inl rfl
    | negativeZero => exact .inl ((whole n).trans (congrArg Number.ofInt (Int.add_zero n).symm))
  | negativeZero =>
    cases take with
    | integer =>
      refine .inl ?_
      change Number.ofRatio (0 * (1 : Nat) + k * (1 : Nat)) (1 * 1) = .ofInt (0 + k)
      rw [Int.add_comm, whole, Int.zero_add]
    | negativeZero => exact .inr ⟨rfl, rfl, rfl⟩

/-- What a statement keeps between bounds, as a window keeps it. -/
theorem pageBounds {x y : Number} {n k : Nat} (skip : Bounds x n) (take : Bounds y k) {rows : List Row}
    (few : rows.length < 2 ^ 53) : Store.page (.number y) (.number x) rows = .ok ((rows.drop n).take k) := by
  have kept : Slice.between x (x.add y) rows = (rows.drop n).take k := by
    unfold Slice.between
    rw [boundsPosition skip]
    rcases boundsSum skip take with sum | ⟨sum, rfl, rfl⟩
    · rw [sum]
      rcases Number.sumReaches n k few with exactly | ⟨past, beyond⟩
      · rw [exactly, List.drop_take, Nat.add_sub_cancel_left]
      · have short : (rows.drop n).length ≤ k := by
          rw [List.length_drop]
          omega
        rw [List.take_of_length_le past, List.take_of_length_le short]
    · rw [sum, boundsPosition .negativeZero]
      rfl
  exact congrArg Except.ok kept

/-- The bounds of a window that makes sense: rows to pass over, and rows to keep, counted from either end. -/
theorem validBounds (valid : w.validate e = .ok ()) :
    (w.skip = .null ∨ ∃ x n, w.skip = .number x ∧ Bounds x n) ∧ (w.take = .null ∨ ∃ x i, w.take = .number x ∧ x.int? = some i) := by
  unfold validate at valid
  dsimp only at valid
  split at valid
  · obtain ⟨_, -, refused⟩ := Results.bindOk valid
    cases refused
  · rename_i skipped
    split at valid
    · obtain ⟨_, -, refused⟩ := Results.bindOk valid
      cases refused
    · rename_i taken
      constructor
      · cases skip : w.skip with
        | null => exact .inl rfl
        | number x =>
          rw [skip] at skipped
          cases x with
          | integer i =>
            have positive : 0 ≤ i := by simpa [isCount, integer?, Number.int?, Value.isNull] using skipped
            exact .inr ⟨_, i.toNat, rfl, by simpa [Int.toNat_of_nonneg positive] using Bounds.integer i.toNat⟩
          | negativeZero => exact .inr ⟨_, 0, rfl, .negativeZero⟩
          | _ => exact absurd rfl skipped
        | _ =>
          rw [skip] at skipped
          exact absurd rfl skipped
      · cases take : w.take with
        | null => exact .inl rfl
        | number x =>
          rw [take] at taken
          cases x with
          | integer i => exact .inr ⟨_, i, rfl, rfl⟩
          | negativeZero => exact .inr ⟨_, 0, rfl, rfl⟩
          | _ => exact absurd rfl taken
        | _ =>
          rw [take] at taken
          exact absurd rfl taken

/-- How many rows a `take` keeps, and from which end. -/
theorem limitTake (take : w.take = .null ∨ ∃ x i, w.take = .number x ∧ x.int? = some i) :
    ∃ l b, w.limit = .ok l ∧ w.isBackwards = .ok b ∧ (l = none ∨ ∃ k : Nat, l = some (.integer k)) := by
  rcases take with null | ⟨x, i, number, int⟩
  · refine ⟨none, false, ?_, ?_, .inl rfl⟩
    · unfold limit
      rw [null]
      rfl
    · unfold isBackwards
      rw [null]
      rfl
  · have measured : ∃ k : Nat, size (.number x) = .ok (.integer k) := by
      cases x with
      | integer j =>
        refine ⟨j.natAbs, ?_⟩
        change Except.ok (if decide (j < 0) then Number.neg (.integer j) else .integer j) = _
        by_cases negative : j < 0
        · rw [decide_eq_true negative, if_pos rfl, Number.neg, if_neg (by omega)]
          exact congrArg (fun n => Except.ok (Number.integer n)) (by omega)
        · rw [decide_eq_false negative, if_neg Bool.false_ne_true]
          exact congrArg (fun n => Except.ok (Number.integer n)) (by omega)
      | negativeZero => exact ⟨0, rfl⟩
      | _ => cases int
    obtain ⟨k, sized⟩ := measured
    refine ⟨some (.integer k), x.compare? (.integer 0) == some .lt, ?_, ?_, .inr ⟨k, rfl⟩⟩
    · unfold limit
      rw [number, sized]
      rfl
    · unfold isBackwards
      rw [number]
      rfl

theorem validCounts (valid : w.validate e = .ok ()) : w.Counts := by
  obtain ⟨skip, take⟩ := validBounds valid
  exact ⟨take.imp_right fun ⟨x, _, number, _⟩ => ⟨x, number⟩, skip.imp_right fun ⟨x, _, number, _⟩ => ⟨x, number⟩⟩

/-- Of no rows a window keeps none. -/
theorem applyNil (counts : w.Counts) : w.apply [] = .ok [] := by
  have distinct : distinctRows w.distinct [] = .ok [] := by
    unfold distinctRows
    split <;> rfl
  have bounded : ∃ o, bound w.skip = .ok o := by
    rcases counts.skip with null | ⟨x, number⟩
    · exact ⟨none, by rw [null]; rfl⟩
    · exact ⟨some x, by rw [number]; rfl⟩
  have limited : ∃ l b, w.limit = .ok l ∧ w.isBackwards = .ok b := by
    unfold limit isBackwards
    rcases counts.take with null | ⟨x, number⟩
    · rw [null]
      exact ⟨none, false, rfl, rfl⟩
    · rw [number]
      exact ⟨some (if x.isNegative then x.neg else x), x.compare? (.integer 0) == some .lt, rfl, rfl⟩
  obtain ⟨o, bounded⟩ := bounded
  obtain ⟨l, b, limited, backwards⟩ := limited
  unfold apply
  rw [distinct]
  change w.page [] = _
  unfold page
  rw [bounded, limited, backwards]
  cases o <;> cases l <;> cases b <;> simp [Slice.dropTo, Slice.takeTo, bind, Except.bind, pure, Except.pure]

theorem firstInside {seen : List String} {keyed : List (String × Row)} : ∀ row ∈ firstOfEach seen keyed, row ∈ keyed.map (·.2) := by
  induction keyed generalizing seen with
  | nil => exact fun row mem => absurd mem List.not_mem_nil
  | cons entry rest ih =>
    intro row mem
    unfold firstOfEach at mem
    split at mem
    · exact List.mem_cons_of_mem _ (ih row mem)
    · rcases List.mem_cons.mp mem with rfl | later
      · exact List.mem_cons_self
      · exact List.mem_cons_of_mem _ (ih row later)

theorem distinctInside {fields : List Value} {rows out : List Row} (distinct : distinctRows fields rows = .ok out) :
    ∀ row ∈ out, row ∈ rows := by
  unfold distinctRows at distinct
  split at distinct
  · cases distinct
    exact fun row mem => mem
  · obtain ⟨keyed, keying, distinct⟩ := Results.bindOk distinct
    cases distinct
    intro row mem
    obtain ⟨entry, listed, rfl⟩ := List.mem_map.mp (firstInside row mem)
    obtain ⟨source, inside, keyed⟩ := Results.mapAllItems keying entry listed
    obtain ⟨text, -, same⟩ := Results.bindOk keyed
    cases same
    exact inside

/-- What a window keeps is among what it is given. -/
theorem applyInside {rows out : List Row} (applied : w.apply rows = .ok out) : ∀ row ∈ out, row ∈ rows := by
  obtain ⟨kept, distinct, paged⟩ := Results.bindOk applied
  unfold page at paged
  obtain ⟨o, -, paged⟩ := Results.bindOk paged
  obtain ⟨l, -, paged⟩ := Results.bindOk paged
  obtain ⟨b, -, paged⟩ := Results.bindOk paged
  have dropped : ∀ row ∈ (o.elim kept fun n => Slice.dropTo n kept), row ∈ kept := by
    cases o with
    | none => exact fun row mem => mem
    | some n => exact fun row mem => List.mem_of_mem_drop mem
  have taken : ∀ rows : List Row, ∀ row ∈ (l.elim rows fun n => Slice.takeTo n rows), row ∈ rows := by
    cases l with
    | none => exact fun rows row mem => mem
    | some n => exact fun rows row mem => List.mem_of_mem_take mem
  have turned : out = if b then (l.elim (o.elim kept fun n => Slice.dropTo n kept) fun n =>
      Slice.takeTo n (o.elim kept fun n => Slice.dropTo n kept)).reverse
    else l.elim (o.elim kept fun n => Slice.dropTo n kept) fun n => Slice.takeTo n (o.elim kept fun n => Slice.dropTo n kept) := by
    cases o <;> cases l <;> exact (Except.ok.inj paged).symm
  intro row mem
  refine distinctInside distinct row (dropped row (taken _ row ?_))
  rw [turned] at mem
  cases b with
  | true => exact List.mem_reverse.mp mem
  | false => exact mem

/-- The rows that a statement keeps of a window that makes sense are those that the window keeps. -/
theorem pageWindow (valid : w.validate e = .ok ()) {rows : List Row} (few : rows.length < 2 ^ 53) (f : Row → Row) :
    ∃ l o b kept, w.limit = .ok l ∧ bound w.skip = .ok o ∧ w.isBackwards = .ok b ∧
      Store.page (.ofBound l) (.ofBound o) rows = .ok kept ∧
        w.page (rows.map f) = .ok (if b then (kept.map f).reverse else kept.map f) := by
  obtain ⟨skip, take⟩ := validBounds valid
  obtain ⟨l, b, limited, backwards, counted⟩ := limitTake take
  have taken : ∀ (k : Nat) (l : List Row), Slice.takeTo (.integer k) l = l.take k := by
    intro k l
    rw [Slice.takeTo, Slice.position_ofNat]
  rcases skip with null | ⟨x, n, number, bounds⟩
  · have bounded : bound w.skip = .ok none := by
      rw [null]
      rfl
    rcases counted with rfl | ⟨k, rfl⟩
    · refine ⟨none, none, b, rows, limited, bounded, backwards, rfl, ?_⟩
      unfold page
      rw [bounded, limited, backwards]
      rfl
    · refine ⟨_, none, b, rows.take k, limited, bounded, backwards, pageBounds (.integer 0) (.integer k) few, ?_⟩
      unfold page
      rw [bounded, limited, backwards]
      change Except.ok (if b then (Slice.takeTo (.integer k) (rows.map f)).reverse else Slice.takeTo (.integer k) (rows.map f)) = _
      rw [taken, List.map_take]
  · have bounded : bound w.skip = .ok (some x) := by
      rw [number]
      rfl
    have dropped : ∀ l : List Row, Slice.dropTo x l = l.drop n := by
      intro l
      rw [Slice.dropTo, boundsPosition bounds]
    rcases counted with rfl | ⟨k, rfl⟩
    · refine ⟨none, some x, b, rows.drop n, limited, bounded, backwards, congrArg Except.ok (dropped rows), ?_⟩
      unfold page
      rw [bounded, limited, backwards]
      change Except.ok (if b then (Slice.dropTo x (rows.map f)).reverse else Slice.dropTo x (rows.map f)) = _
      rw [dropped, List.map_drop]
    · refine ⟨_, some x, b, (rows.drop n).take k, limited, bounded, backwards, pageBounds bounds (.integer k) few, ?_⟩
      unfold page
      rw [bounded, limited, backwards]
      change Except.ok (if b then (Slice.takeTo (.integer k) (Slice.dropTo x (rows.map f))).reverse
        else Slice.takeTo (.integer k) (Slice.dropTo x (rows.map f))) = _
      rw [dropped, taken, List.map_take, List.map_drop]

section Cuts

variable {limit offset : Option Number} {take skip : Option Nat}

/-- The number of rows that an optional bound counts. -/
inductive Counted : Option Number → Option Nat → Prop where
  | none : Counted none none
  | some {x : Number} {n : Nat} (bounds : Bounds x n) : Counted (some x) (some n)

/-- What is left of a list between bounds. -/
def cut {α : Type} (skip take : Option Nat) (l : List α) : List α :=
  let rest := l.drop (skip.getD 0)
  take.elim rest rest.take

theorem cutMap {α β : Type} (f : α → β) (l : List α) : cut skip take (l.map f) = (cut skip take l).map f := by
  unfold cut
  cases take with
  | none => exact List.map_drop.symm
  | some k =>
    change (List.drop _ (l.map f)).take k = ((l.drop _).take k).map f
    rw [List.map_take, List.map_drop]

/-- Pages of one size, one after the other, are the beginning of a list. -/
theorem cutPages {α : Type} (size pages : Nat) (l : List α) :
    ((List.range pages).flatMap fun k => cut (some (k * size)) (some size) l) = cut none (some (pages * size)) l := by
  change _ = l.take (pages * size)
  induction pages with
  | zero => rw [Nat.zero_mul, List.take_zero, List.range_zero, List.flatMap_nil]
  | succ m ih =>
    rw [List.range_succ, List.flatMap_append, ih, List.flatMap_singleton, Nat.succ_mul, List.take_add]
    rfl

theorem cutInside {α : Type} {l : List α} : ∀ x ∈ cut skip take l, x ∈ l := by
  intro x mem
  unfold cut at mem
  cases take with
  | none => exact List.mem_of_mem_drop mem
  | some k => exact List.mem_of_mem_drop (List.mem_of_mem_take mem)

theorem pageCut (skipped : Counted offset skip) (taken : Counted limit take) {rows : List Row} (few : rows.length < 2 ^ 53) :
    Store.page (.ofBound limit) (.ofBound offset) rows = .ok (cut skip take rows) := by
  cases taken with
  | none =>
    cases skipped with
    | none => rfl
    | @some x n bounds =>
      change Except.ok (Slice.dropTo x rows) = .ok (rows.drop n)
      rw [Slice.dropTo, boundsPosition bounds]
  | some taken =>
    cases skipped with
    | none => exact pageBounds (.integer 0) taken few
    | some bounds => exact pageBounds bounds taken few

end Cuts

end Window

end EntityQuery
