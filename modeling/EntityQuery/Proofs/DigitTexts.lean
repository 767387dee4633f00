import EntityQuery.Number.Reading
import EntityQuery.Number.Shortest
import Mathlib.Data.List.TakeWhile
import Mathlib.Tactic.SplitIfs
/-! Digits that are read back. The text of a natural number or an integer denotes it, with zeros before it as well, and
reading stops where its digits do. Neither it nor the shortest digits of a number start with a zero that other digits follow. -/

namespace EntityQuery.Number

variable {cs ds rest : List Char}

/-- Text that does not go on with digits. -/
def Ends (rest : List Char) : Prop := ∀ c ∈ rest.head?, c.isDigit = false

theorem naturalDigits (n : Nat) : ∀ c ∈ Nat.toDigits 10 n, c.isDigit :=
  fun _ mem => Nat.isDigit_of_mem_toDigits (by decide) (by decide) mem

theorem digitsBack (n : Nat) : ofDigits (Nat.toDigits 10 n) = n := Nat.ofDigitChars_ten_toDigits

theorem zeroDigits (n : Nat) : Nat.toDigits 10 n = ['0'] ∨ 0 < n := by
  cases n with
  | zero => exact .inl rfl
  | succ n => exact .inr n.succ_pos

theorem someDigit (n : Nat) : ∃ c cs, Nat.toDigits 10 n = c :: cs ∧ c.isDigit := by
  have digits := naturalDigits n
  cases written : Nat.toDigits 10 n with
  | nil => exact absurd written Nat.toDigits_ne_nil
  | cons c cs =>
    rw [written] at digits
    exact ⟨c, cs, rfl, digits c List.mem_cons_self⟩

theorem zeroBefore (cs : List Char) : ofDigits ('0' :: cs) = ofDigits cs := rfl

theorem zerosBefore (k : Nat) (cs : List Char) : ofDigits (List.replicate k '0' ++ cs) = ofDigits cs := by
  induction k with
  | zero => rfl
  | succ k ih => exact ih

theorem zerosDropped (cs : List Char) : ofDigits (cs.dropWhile fun c => c == '0') = ofDigits cs := by
  induction cs with
  | nil => rfl
  | cons c cs ih =>
    rw [List.dropWhile_cons]
    split
    · next zero =>
      rw [eq_of_beq zero, zeroBefore, ih]
    · rfl

theorem takeDigits (digits : ∀ c ∈ ds, c.isDigit) (ends : Ends rest) : (ds ++ rest).takeWhile Char.isDigit = ds := by
  rw [List.takeWhile_append_of_pos digits]
  cases rest with
  | nil => exact List.append_nil ds
  | cons c rest => rw [List.takeWhile_cons, ends c rfl, if_neg Bool.false_ne_true, List.append_nil]

theorem dropDigits (digits : ∀ c ∈ ds, c.isDigit) (ends : Ends rest) : (ds ++ rest).dropWhile Char.isDigit = rest := by
  rw [List.dropWhile_append_of_pos digits]
  cases rest with
  | nil => rfl
  | cons c rest => rw [List.dropWhile_cons, ends c rfl, if_neg Bool.false_ne_true]

/-- The digits of a positive number do not begin with a zero. -/
theorem firstDigit {n : Nat} (positive : 0 < n) : ∃ c cs, Nat.toDigits 10 n = c :: cs ∧ c.isDigit ∧ c ≠ '0' := by
  induction n using Nat.strongRecOn with
  | _ n ih =>
    rw [Nat.toDigits_eq_if (by decide)]
    split
    · next few =>
      refine ⟨n.digitChar, [], rfl, ?_⟩
      have nonzero : ∀ m < 10, 0 < m → m.digitChar.isDigit = true ∧ m.digitChar ≠ '0' := by decide
      exact nonzero n few positive
    · obtain ⟨c, cs, written, digit, first⟩ := ih (n / 10) (by omega) (by omega)
      exact ⟨c, cs ++ [(n % 10).digitChar], by rw [written]; rfl, digit, first⟩

section Digits

theorem zerosAreDigits (k : Nat) : ∀ c ∈ List.replicate k '0', c.isDigit := by
  intro c mem
  rw [List.eq_of_mem_replicate mem]
  rfl

theorem trailingDropped (ds : List Char) : ∃ k, ds = dropTrailingZeros ds ++ List.replicate k '0' := by
  have parts := congrArg List.reverse (List.takeWhile_append_dropWhile (p := fun c => c == '0') (l := ds.reverse))
  rw [List.reverse_append, List.reverse_reverse] at parts
  refine ⟨(ds.reverse.takeWhile fun c => c == '0').length, parts.symm.trans (congrArg _ ?_)⟩
  rw [List.eq_replicate_iff, List.length_reverse]
  exact ⟨rfl, fun c mem => beq_iff_eq.mp (List.mem_takeWhile_imp (p := fun c => c == '0') (List.mem_reverse.mp mem))⟩

theorem shortestDigits (numerator denominator : Nat) : ∀ c ∈ (shortest numerator denominator).digits, c.isDigit := by
  unfold shortest
  dsimp only
  split
  · intro c mem
    have kept := (List.dropWhile_sublist _).subset (List.mem_reverse.mp mem)
    exact naturalDigits _ c (List.mem_reverse.mp kept)
  · simp

theorem quotientNear (n d : Nat) : roundQuotient n d = n / d ∨ roundQuotient n d = n / d + 1 := by
  unfold roundQuotient
  dsimp only
  split_ifs <;> omega

/-- Digits that are a zero alone, or do not start with a zero. -/
def Leads (cs : List Char) : Prop := cs = ['0'] ∨ ∃ c others, cs = c :: others ∧ c ≠ '0'

theorem naturalLeads (n : Nat) : Leads (Nat.toDigits 10 n) := by
  rcases zeroDigits n with zero | positive
  · exact .inl zero
  · obtain ⟨c, others, written, -, nonzero⟩ := firstDigit positive
    exact .inr ⟨c, others, written, nonzero⟩

/-- What is chosen at a precision is no zero. -/
theorem chosenPositive {p q candidate precision : Nat} {i : Interval} {exponent power : Int}
    (chosen : shortestAt p q i exponent precision = some (candidate, power)) : 0 < candidate := by
  unfold shortestAt at chosen
  dsimp only at chosen
  split at chosen
  · next lower _ =>
    obtain ⟨rfl, -⟩ := Prod.mk.inj (Option.some.inj chosen)
    have some := Nat.pos_of_ne_zero (bne_iff_ne.mp ((Bool.and_eq_true ..).mp lower).2)
    rcases quotientNear _ _ with same | same
    · rw [same]
      exact some
    · rw [same]
      exact Nat.succ_pos _
  · next lower _ =>
    obtain ⟨rfl, -⟩ := Prod.mk.inj (Option.some.inj chosen)
    exact Nat.pos_of_ne_zero (bne_iff_ne.mp ((Bool.and_eq_true ..).mp lower).2)
  · obtain ⟨rfl, -⟩ := Prod.mk.inj (Option.some.inj chosen)
    exact Nat.succ_pos _
  · cases chosen

/-- The shortest digits of a number do not start with a zero, unless there are none. -/
theorem shortestLeads (p q : Nat) : shortest p q = ⟨['0'], 1⟩ ∨ ∃ c others, (shortest p q).digits = c :: others ∧ c ≠ '0' := by
  unfold shortest
  dsimp only
  split
  · next candidate power found =>
    obtain ⟨k, -, chosen⟩ := List.exists_of_findSome?_eq_some found
    obtain ⟨c, others, written, -, nonzero⟩ := firstDigit (chosenPositive chosen)
    obtain ⟨zeros, parts⟩ := trailingDropped (Nat.toDigits 10 candidate)
    refine .inr ?_
    cases kept : dropTrailingZeros (Nat.toDigits 10 candidate) with
    | nil =>
      rw [kept, List.nil_append, written] at parts
      exact absurd (List.eq_of_mem_replicate (parts ▸ List.mem_cons_self)) nonzero
    | cons d ds =>
      rw [kept, written] at parts
      obtain ⟨rfl, -⟩ := List.cons.inj parts
      exact ⟨c, ds, rfl, nonzero⟩
  · exact .inl rfl

theorem shortestSome (p q : Nat) : (shortest p q).digits ≠ [] := by
  rcases shortestLeads p q with zero | ⟨c, others, written, -⟩
  · rw [zero]
    exact nofun
  · rw [written]
    exact nofun

end Digits

section Signs

theorem signDigits (digits : ∀ c ∈ cs, c.isDigit) : sign cs = (false, cs) := by
  unfold sign
  split
  · cases digits '+' List.mem_cons_self
  · cases digits '-' List.mem_cons_self
  · rfl

theorem digitNotBlank {c : Char} (digit : c.isDigit ∨ c = '-') : Text.isBlank c = false := by
  rcases digit with digit | rfl
  · have bounds : 48 ≤ c.toNat ∧ c.toNat ≤ 57 := by simpa [Char.isDigit, UInt32.le_iff_toNat_le] using digit
    obtain ⟨low, high⟩ := bounds
    unfold Text.isBlank
    simp only [Bool.or_eq_false_iff, Bool.and_eq_false_iff, decide_eq_false_iff_not, beq_eq_false_iff_ne]
    omega
  · rfl

/-- Text without blanks is not trimmed. -/
theorem trimSolid (solid : ∀ c ∈ cs, Text.isBlank c = false) : Text.trimChars cs = cs := by
  have kept {ds : List Char} (solid : ∀ c ∈ ds, Text.isBlank c = false) : ds.dropWhile Text.isBlank = ds := by
    cases ds with
    | nil => rfl
    | cons c ds => rw [List.dropWhile_cons, solid c List.mem_cons_self, if_neg Bool.false_ne_true]
  unfold Text.trimChars
  rw [kept solid, kept fun c mem => solid c (List.mem_reverse.mp mem), List.reverse_reverse]

theorem readDigits (digits : ∀ c ∈ cs, c.isDigit) (written : cs ≠ []) :
    readInt? cs = some (ofDigits cs : Int) ∧ readInt? ('-' :: cs) = some (-(ofDigits cs : Int)) := by
  have refused : (cs.isEmpty || !cs.all Char.isDigit) = false := by
    rw [List.all_eq_true.mpr digits]
    simpa using written
  constructor
  · unfold readInt?
    rw [signDigits digits]
    dsimp only
    rw [refused]
    rfl
  · show (if cs.isEmpty || !cs.all Char.isDigit then none else some (if true then -(ofDigits cs : Int) else ofDigits cs)) = _
    rw [refused]
    rfl

/-- The characters of the text of an integer. -/
theorem intChars (n : Int) :
    (intText n).toList = if n < 0 then '-' :: Nat.toDigits 10 n.natAbs else Nat.toDigits 10 n.natAbs := String.toList_ofList

theorem intSolid (n : Int) : ∀ c ∈ (intText n).toList, Text.isBlank c = false := by
  have digits : ∀ c ∈ Nat.toDigits 10 n.natAbs, Text.isBlank c = false :=
    fun c mem => digitNotBlank (.inl (naturalDigits n.natAbs c mem))
  rw [intChars]
  split
  · exact List.forall_mem_cons.mpr ⟨rfl, digits⟩
  · exact digits

theorem intBack (n : Int) : intOfText? (intText n) = some n := by
  obtain ⟨plain, negative⟩ := readDigits (naturalDigits n.natAbs) Nat.toDigits_ne_nil
  rw [digitsBack] at plain negative
  unfold intOfText?
  rw [trimSolid (intSolid n), intChars]
  split
  · rw [negative]
    exact congrArg some (by omega)
  · rw [plain]
    exact congrArg some (by omega)

end Signs

end EntityQuery.Number
