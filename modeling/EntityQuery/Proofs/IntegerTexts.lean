import EntityQuery.Proofs.DigitTexts
import EntityQuery.Scalar
import Mathlib.Algebra.Ring.Int.Defs
/-! Every text of an integer: a sign or none, digits that may begin with zeros, and blanks on both sides. All of them are
read as the integer, and a width is found for it unless it is out of the range of all. -/

namespace EntityQuery

namespace Text

variable {before core after cs : List Char}

/-- Blanks on both sides of a text without blanks are what is trimmed. -/
theorem trimPadded (blankBefore : ∀ c ∈ before, isBlank c) (solid : ∀ c ∈ core, isBlank c = false)
    (blankAfter : ∀ c ∈ after, isBlank c) : trimChars (before ++ core ++ after) = core := by
  have backwards : ∀ c ∈ after.reverse, isBlank c := fun c mem => blankAfter c (List.mem_reverse.mp mem)
  have trimmed := Number.trimSolid solid
  unfold trimChars at trimmed ⊢
  rw [List.append_assoc, List.dropWhile_append_of_pos blankBefore]
  cases core with
  | nil => simp [List.dropWhile_eq_nil_iff.mpr blankAfter]
  | cons c rest =>
    have first := solid c List.mem_cons_self
    rw [List.dropWhile_cons_of_neg (by simp [first])] at trimmed
    rw [List.cons_append, List.dropWhile_cons_of_neg (by simp [first]), ← List.cons_append, List.reverse_append,
      List.dropWhile_append_of_pos backwards, trimmed]

theorem trimLeaves {c : Char} (mem : c ∈ cs) : isBlank c ∨ c ∈ trimChars cs := by
  have left {l : List Char} (mem : c ∈ l) : isBlank c ∨ c ∈ l.dropWhile isBlank := by
    rw [← List.takeWhile_append_dropWhile (p := isBlank) (l := l)] at mem
    exact (List.mem_append.mp mem).imp_left List.mem_takeWhile_imp
  unfold trimChars
  rcases left mem with blank | inner
  · exact .inl blank
  · simpa using left (List.mem_reverse.mpr inner)

end Text

namespace Number

/-- A sign or none, and digits. -/
inductive Spells : List Char → Int → Prop where
  | plain {ds : List Char} (written : ds ≠ []) (digits : ∀ c ∈ ds, c.isDigit) : Spells ds (ofDigits ds)
  | plus {ds : List Char} (written : ds ≠ []) (digits : ∀ c ∈ ds, c.isDigit) : Spells ('+' :: ds) (ofDigits ds)
  | minus {ds : List Char} (written : ds ≠ []) (digits : ∀ c ∈ ds, c.isDigit) : Spells ('-' :: ds) (-(ofDigits ds : Int))

variable {cs : List Char} {n : Int} {s : String}

theorem Spells.chars (spelled : Spells cs n) : ∀ c ∈ cs, c.isDigit ∨ c = '+' ∨ c = '-' := by
  cases spelled with
  | plain _ digits => exact fun c mem => .inl (digits c mem)
  | plus _ digits => exact List.forall_mem_cons.mpr ⟨.inr (.inl rfl), fun c mem => .inl (digits c mem)⟩
  | minus _ digits => exact List.forall_mem_cons.mpr ⟨.inr (.inr rfl), fun c mem => .inl (digits c mem)⟩

theorem Spells.solid (spelled : Spells cs n) : ∀ c ∈ cs, Text.isBlank c = false := by
  intro c mem
  rcases spelled.chars c mem with digit | rfl | rfl
  · exact digitNotBlank (.inl digit)
  · rfl
  · rfl

theorem Spells.read (spelled : Spells cs n) : readInt? cs = some n := by
  cases spelled with
  | plain written digits => exact (readDigits digits written).1
  | minus written digits => exact (readDigits digits written).2
  | plus written digits =>
    -- after a plus sign the digits are taken as they stand
    have plain := (readDigits digits written).1
    unfold readInt? at plain
    rw [signDigits digits] at plain
    exact plain

/-- The text of an integer with blanks around it. -/
def IntegerText (s : String) (n : Int) : Prop :=
  ∃ before core after, s.toList = before ++ core ++ after ∧ (∀ c ∈ before, Text.isBlank c) ∧ Spells core n ∧
    ∀ c ∈ after, Text.isBlank c

theorem IntegerText.trimmed (written : IntegerText s n) : Spells (Text.trimChars s.toList) n := by
  obtain ⟨before, core, after, parts, blankBefore, spelled, blankAfter⟩ := written
  rw [parts, Text.trimPadded blankBefore spelled.solid blankAfter]
  exact spelled

theorem IntegerText.read (written : IntegerText s n) : intOfText? s = some n := written.trimmed.read

end Number

namespace IntegerType

variable {n : Int}

theorem holdsWithin {width : IntegerType} (inside : width.holds n) : -(2 ^ 63) ≤ n ∧ n < 2 ^ 64 := by
  have least : -(2 ^ 63) ≤ width.least := by cases width <;> decide
  have greatest : width.greatest < 2 ^ 64 := by cases width <;> decide
  have bounds := of_decide_eq_true inside
  omega

theorem wideHolds : i64.holds n ∨ u64.holds n ↔ -(2 ^ 63) ≤ n ∧ n < 2 ^ 64 := by
  have signed : i64.least = -(2 ^ 63) ∧ i64.greatest = 2 ^ 63 - 1 := ⟨rfl, rfl⟩
  have unsigned : u64.least = 0 ∧ u64.greatest = 2 ^ 64 - 1 := ⟨rfl, rfl⟩
  simp only [holds, signed, unsigned, decide_eq_true_eq]
  omega

theorem widthFound : (∃ width ∈ all, width.holds n) ↔ -(2 ^ 63) ≤ n ∧ n < 2 ^ 64 := by
  constructor
  · rintro ⟨width, -, inside⟩
    exact holdsWithin inside
  · intro within
    rcases wideHolds.mpr within with signed | unsigned
    · exact ⟨i64, by decide, signed⟩
    · exact ⟨u64, by decide, unsigned⟩

theorem widthNone : all.find? (fun width => width.holds n) = none ↔ ¬ (-(2 ^ 63) ≤ n ∧ n < 2 ^ 64) := by
  rw [← widthFound, List.find?_eq_none]
  simp

end IntegerType

end EntityQuery
