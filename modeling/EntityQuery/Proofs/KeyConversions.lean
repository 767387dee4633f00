import EntityQuery.Proofs.IntegerTexts
import EntityQuery.Proofs.KeyEquality
import EntityQuery.Proofs.Operands
import EntityQuery.Proofs.Sample
import EntityQuery.Proofs.SettledValues
/-! Keys as values of other types. An integer is the same operand of a primary key in whatever form it is given, and a key
that was converted to text is converted back from it. -/

namespace EntityQuery

namespace KeyForm

variable {n : Int} {k : Key} {width : IntegerType}

/-- The keys that stand for an integer. -/
inductive Carries (n : Int) : Key → Prop where
  | integer {width : IntegerType} (holds : width.holds n) : Carries n (.integer width n)
  | zero (none : n = 0) : Carries n .negativeZero
  | text {s : String} (written : Number.IntegerText s n) : Carries n (.text s)

theorem Carries.exact (carries : Carries n k) : k.exactInt? = some n ∧ k.toColumn = .ok k.value := by
  cases carries with
  | @integer kind holds => cases kind <;> exact ⟨rfl, rfl⟩
  | zero none =>
    subst none
    exact ⟨rfl, rfl⟩
  | text written => exact ⟨written.read, rfl⟩

theorem Carries.shown (carries : Carries n k) : ∃ s, k.toText = .ok s := by
  cases carries <;> exact ⟨_, rfl⟩

theorem Carries.fits (carries : Carries n k) (same : k.kind = .integer width) : width.holds n := by
  cases carries with
  | integer holds =>
    cases same
    exact holds
  | zero none =>
    cases same
    subst none
    decide
  | text _ => cases same

/-- An integer out of the range of the type is refused with the text of the key. -/
theorem Carries.refused (carries : Carries n k) (outside : ¬ width.holds n) :
    ∃ s, k.convert (.integer width) = .error (.conversion k.kind.tag width.tag (some s)) := by
  obtain ⟨exact, -⟩ := carries.exact
  obtain ⟨s, shown⟩ := carries.shown
  have other : ¬ (ScalarType.integer width = .opaqueType ∨ k.kind = .integer width) := by
    rintro (never | same)
    · cases never
    · exact outside (carries.fits same)
  refine ⟨s, ?_⟩
  unfold convert
  simp only [if_neg other, exact, if_neg outside, refuse, shown]
  rfl

theorem carriesBuilt (built : Key.Built k) (integral : k.kind = .integer width) (exact : k.exactInt? = some n) : Carries n k := by
  have sound := Key.builtSound built
  cases k with
  | integer kind m =>
    have value : some m = some n := by
      rw [← exact]
      cases kind <;> rfl
    obtain rfl := Option.some.inj value
    exact .integer sound
  | negativeZero => exact .zero (Option.some.inj exact).symm
  | _ => cases integral

theorem carriesNumber {x : Number} (safe : x.isSafeInteger) (whole : x.int? = some n) : Carries n (Key.ofNumber x) := by
  have sound := Key.numberSound x
  cases x with
  | integer i =>
    obtain rfl : i = n := Option.some.inj whole
    unfold Key.ofNumber at sound ⊢
    dsimp only at sound ⊢
    split_ifs at sound ⊢
    · exact .integer sound
    · exact .integer sound
  | negativeZero => exact .zero (Option.some.inj whole).symm
  | _ => cases whole

end KeyForm

namespace Field

variable {f : Field} {width : IntegerType} {n : Int} {v : Value}

/-- The forms in which an integer is given: a safe integer as a number, an exact integer, text, and a key of an integer kind
or of text. -/
inductive Denotes (n : Int) : Value → Prop where
  | number {x : Number} (safe : x.isSafeInteger) (whole : x.int? = some n) : Denotes n (.number x)
  | integer : Denotes n (.integer n)
  | text {s : String} (written : Number.IntegerText s n) : Denotes n (.text s)
  | key {k : Key} {kind : IntegerType} (built : Key.Built k) (integral : k.kind = .integer kind)
      (exact : k.exactInt? = some n) : Denotes n (.key k)
  | textKey {s : String} (written : Number.IntegerText s n) : Denotes n (.key (.text s))

theorem Denotes.keyed (denotes : Denotes n v) : v.isNothing = false ∧ isKeyValue v := by
  cases denotes <;> exact ⟨rfl, rfl⟩

/-- Every form is a key that stands for the integer, but for an exact integer out of the range of all widths. -/
theorem Denotes.keyOf (denotes : Denotes n v) :
    (∃ k, Key.ofValue v = .ok k ∧ k.Carries n) ∨
      (∀ width : IntegerType, ¬ width.holds n) ∧
        Key.ofValue v = .error (.conversion "bigint" "i64/u64" (some "out of range")) := by
  cases denotes with
  | number safe whole => exact .inl ⟨_, rfl, KeyForm.carriesNumber safe whole⟩
  | text written => exact .inl ⟨_, rfl, .text written⟩
  | key built integral exact => exact .inl ⟨_, rfl, KeyForm.carriesBuilt built integral exact⟩
  | textKey written => exact .inl ⟨_, rfl, .text written⟩
  | integer =>
    unfold Key.ofValue
    by_cases signed : IntegerType.i64.holds n
    · exact .inl ⟨_, if_pos signed, .integer signed⟩
    · by_cases unsigned : IntegerType.u64.holds n
      · exact .inl ⟨_, (if_neg signed).trans (if_pos unsigned), .integer unsigned⟩
      · refine .inr ⟨fun width inside => ?_, (if_neg signed).trans (if_neg unsigned)⟩
        exact (IntegerType.wideHolds.mpr (IntegerType.holdsWithin inside)).elim signed unsigned

/-- An integer is one operand of a primary key in whatever form it is given: itself, as an exact integer for the wide
widths and as a number for the others, and refused as a failed conversion where the width does not hold it. -/
theorem integerOperand (type : f.type = .integer width) (primary : f.primaryKey) (denotes : Denotes n v) :
    if width.holds n then f.encodeOperand v = .ok (if width = .i64 ∨ width = .u64 then .integer n else .int n)
    else ∃ failure report, f.encodeOperand v = .error failure ∧ failure.report? = some report ∧
      report.name = "TypeConversionError" := by
  obtain ⟨there, keyed⟩ := denotes.keyed
  have wide : (if width = .i64 ∨ width = .u64 then Value.integer n else .int n) = ofWidth width n := by cases width <;> rfl
  rw [operandConverted there primary keyed, type, wide]
  rcases denotes.keyOf with ⟨k, key, carries⟩ | ⟨outside, refused⟩
  · rw [key]
    split
    · next holds =>
      obtain ⟨exact, column⟩ := carries.exact
      obtain ⟨u, converted, given, value⟩ := convertInteger exact column holds
      change k.convert (.integer width) >>= f.encode = _
      rw [converted]
      exact (encodeWhole type given value).trans (if_pos holds)
    · next outside =>
      obtain ⟨s, refused⟩ := carries.refused outside
      refine ⟨.conversion k.kind.tag width.tag (some s), _, ?_, rfl, rfl⟩
      change k.convert (.integer width) >>= f.encode = _
      rw [refused]
      rfl
  · rw [if_neg (outside width), refused]
    exact ⟨.conversion "bigint" "i64/u64" (some "out of range"), _, rfl, rfl, rfl⟩

end Field

namespace Sample

/-- Text with a sign, zeros and blanks, and a key of another width, for a 32-bit key. -/
theorem idOperands : idField.encodeOperand (.text "\t+0042 ") = .ok (.int 42) ∧
    ∃ failure report, idField.encodeOperand (.key (.integer .u32 3000000000)) = .error failure ∧
      failure.report? = some report ∧ report.name = "TypeConversionError" := by
  have written : Number.IntegerText "\t+0042 " 42 :=
    ⟨['\t'], "+0042".toList, [' '], by decide, List.all_eq_true.mp rfl,
      .plus (show "0042".toList ≠ [] by decide) (List.all_eq_true.mp rfl), List.all_eq_true.mp rfl⟩
  have built : Key.Built (.integer .u32 3000000000) :=
    .ofKind (show Key.withTag Key.make "u32" (.integer 3000000000) = .ok _ from rfl)
  have operand := Field.integerOperand (f := idField) rfl rfl (.text written)
  have refused := Field.integerOperand (f := idField) (n := 3000000000) rfl rfl (.key built rfl rfl)
  rw [if_pos (by decide)] at operand
  rw [if_neg (by decide)] at refused
  exact ⟨operand, refused⟩

end Sample

namespace KeyForm

variable {k : Key} {width : IntegerType} {n : Int} {s : String}

theorem textInteger (read : Number.intOfText? s = some n) (holds : width.holds n) :
    (KeyForm.text s).convert (.integer width) = .ok (value (.integer width n)) := by
  have exact : (KeyForm.text s).exactInt? = some n := read
  unfold convert
  simp only [kind, reduceCtorEq, or_self, if_false, exact, if_pos holds]
  rfl

theorem textInstant {t : Time.Instant} (valid : Time.inRange t) :
    (KeyForm.text (Time.toIso t)).convert .datetime = .ok (.date (some t)) := by
  unfold convert
  simp only [kind, value, reduceCtorEq, or_self, if_false, Time.isoBack valid]

theorem textUuid (sound : IsSound (KeyForm.uuid s)) : (KeyForm.text s).convert .uuid = .ok (.text s) := by
  obtain ⟨uuid, small⟩ := sound
  unfold convert
  simp only [kind, value, reduceCtorEq, or_self, if_false, if_pos uuid, small]

/-- A key that was converted to text is converted back from that text, to a value that equals its column value. -/
theorem textTransported (built : Key.Built k) (exact : k.IsExact) (plain : k.kind ≠ .json) :
    ∃ s v w, k.convert .text = .ok (.text s) ∧ (KeyForm.text s).convert k.kind = .ok v ∧ k.toColumn = .ok w ∧
      SameContent v w := by
  have sound := Key.builtSound built
  cases k with
  | integer width n => exact ⟨_, _, _, rfl, textInteger (Number.intBack n) sound, rfl, integerContent.mpr rfl⟩
  | negativeZero => exact ⟨_, _, _, rfl, textInteger (s := "0") (n := 0) (by decide) (by decide), rfl, rfl⟩
  | float _ _ => exact exact.elim
  | text s | date s | time s => exact ⟨s, _, _, rfl, rfl, rfl, rfl⟩
  | uuid s => exact ⟨s, _, _, rfl, textUuid sound, rfl, rfl⟩
  | bool b => cases b <;> exact ⟨_, _, _, rfl, rfl, rfl, rfl⟩
  | datetime t =>
    obtain ⟨n, rfl, valid⟩ := exact
    exact ⟨_, _, _, rfl, textInstant valid, rfl, rfl⟩
  | json _ => exact absurd rfl plain

/-- The last instant that there is, in a year of six digits. -/
theorem lastInstantTransported : Time.inRange 8640000000000000 ∧
    ∃ s v w, convert (.datetime (some 8640000000000000)) .text = .ok (.text s) ∧ (KeyForm.text s).convert .datetime = .ok v ∧
      toColumn (.datetime (some 8640000000000000)) = .ok w ∧ SameContent v w :=
  ⟨by decide, textTransported (k := .datetime (some 8640000000000000)) (.ofValue (v := .date (some 8640000000000000)) nofun rfl)
    ⟨_, rfl, by decide⟩ nofun⟩

end KeyForm

end EntityQuery
