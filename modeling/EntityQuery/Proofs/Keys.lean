import EntityQuery.Proofs.Comparing
import EntityQuery.Store.Tables
/-! What is written for values: it has a place in the order unless its type is opaque, and for keys, but for documents,
it is what is written again for what is read of it. -/

namespace EntityQuery

namespace Number

theorem zeroNumber (negative : Bool) : zero negative ≠ .nan := by
  cases negative <;> exact nofun

theorem scaledNumber (negative : Bool) (significand : Nat) (exponent : Int) : ofScaled negative significand exponent ≠ .nan := by
  unfold ofScaled
  split
  · exact zeroNumber negative
  · split
    · exact nofun
    · split <;> exact nofun

theorem roundedNumber (format : Format) (negative : Bool) (numerator denominator : Nat) :
    round format negative numerator denominator ≠ .nan := by
  have either : ∀ (overflows : Prop) [Decidable overflows] (significand : Nat) (exponent : Int),
      (if overflows then .infinity negative else ofScaled negative significand exponent) ≠ .nan := by
    intro overflows _ significand exponent
    split
    · exact nofun
    · exact scaledNumber negative significand exponent
  unfold round
  split
  · exact zeroNumber negative
  · exact either _ _ _

theorem singleNumber {x : Number} (number : x ≠ .nan) : x.toSingle ≠ .nan := by
  unfold toSingle
  split
  · split
    · exact number
    · exact roundedNumber _ _ _ _
  · exact roundedNumber _ _ _ _
  · exact number

end Number

namespace ScalarType

/-- Can keys be of the type? Numbers with a fraction and values of no form of their own cannot. -/
def isKeyType : ScalarType → Bool
  | .float _ | .opaqueType => false
  | _ => true

theorem keyNotOpaque {type : ScalarType} (keyed : type.isKeyType) : type ≠ .opaqueType := by
  rintro rfl
  cases keyed

end ScalarType

namespace Field

theorem encodePlaces {f : Field} {v w : Value} (h : f.encode v = .ok w) (notOpaque : f.type ≠ .opaqueType)
    (there : w.isNothing = false) : Store.Places w := by
  unfold encode at h
  split at h
  · split at h
    · cases h
      cases there
    · cases h
  · unfold encodePresent at h
    cases type : f.type with
    | integer width =>
      simp only [type, encodeInteger] at h
      split at h
      · cases h
      · split at h
        · cases h
          unfold ofWidth
          split <;> exact ⟨rfl, _, rfl, rfl⟩
        · cases h
    | float width =>
      simp only [type, encodeFloat] at h
      split at h
      · cases h
      · rename_i number
        cases h
        have notNaN : numeric v ≠ .nan := by simpa [Number.isNaN] using number
        refine ⟨rfl, _, rfl, ?_⟩
        unfold Store.isPlaced Number.isNaN
        cases width with
        | f32 => simpa using Number.singleNumber notNaN
        | f64 => simpa using notNaN
    | opaqueType => exact absurd type notOpaque
    | text | bool =>
      simp only [type] at h
      split at h
      · cases h
        exact ⟨rfl, _, rfl, rfl⟩
      · cases h
    | uuid =>
      simp only [type] at h
      split at h
      · split at h
        · cases h
          exact ⟨rfl, _, rfl, rfl⟩
        · cases h
      · cases h
    | datetime =>
      simp only [type, toDate] at h
      split at h
      · cases h
        exact ⟨rfl, _, rfl, rfl⟩
      · cases h
    | date =>
      simp only [type] at h
      obtain ⟨s, rfl⟩ := encodeDayText h
      exact ⟨rfl, _, rfl, rfl⟩
    | time =>
      simp only [type] at h
      obtain ⟨_, _, h⟩ := Results.bindOk h
      cases h
      exact ⟨rfl, _, rfl, rfl⟩
    | json =>
      simp only [type] at h
      unfold encodeJson at h
      split at h
      · cases h
        exact ⟨rfl, _, rfl, rfl⟩
      · obtain ⟨text, -, h⟩ := Results.bindOk h
        cases text with
        | none =>
          cases h
          cases there
        | some s =>
          cases h
          exact ⟨rfl, _, rfl, rfl⟩

end Field

namespace Uuid

theorem hexAscii {c : Char} (hex : isHex c) : c.toNat < 128 := by
  unfold isHex Char.isDigit at hex
  simp only [Bool.or_eq_true, Bool.and_eq_true, decide_eq_true_eq] at hex
  rcases hex with (⟨-, high⟩ | ⟨-, high⟩) | ⟨-, high⟩
  · exact lt_of_le_of_lt (UInt32.le_iff_toNat_le.mp high) (by decide)
  · exact lt_of_le_of_lt (UInt32.le_iff_toNat_le.mp (Char.le_def.mp high)) (by decide)
  · exact lt_of_le_of_lt (UInt32.le_iff_toNat_le.mp (Char.le_def.mp high)) (by decide)

theorem admitsAscii {p : Place} {c : Char} (admits : p.admits c) : c.toNat < 128 := by
  unfold Place.admits at admits
  cases p with
  | hex => exact hexAscii admits
  | hyphen =>
    obtain rfl := eq_of_beq admits
    decide
  | version =>
    simp only [Bool.and_eq_true, decide_eq_true_eq] at admits
    exact lt_of_le_of_lt (UInt32.le_iff_toNat_le.mp (Char.le_def.mp admits.2)) (by decide)
  | variant =>
    simp only [Bool.or_eq_true, beq_iff_eq] at admits
    rcases admits with ((((rfl | rfl) | rfl) | rfl) | rfl) | rfl <;> decide

/-- The small letter of what may stand at a place may stand there as well. -/
theorem admitsLower {p : Place} {c : Char} (admits : p.admits c) :
    p.admits c.toLower ∧ c.toLower.toLower = c.toLower := by
  have table : ∀ p ∈ [Place.hex, .hyphen, .version, .variant], ∀ n < 128, p.admits (Char.ofNat n) →
      p.admits (Char.ofNat n).toLower ∧ (Char.ofNat n).toLower.toLower = (Char.ofNat n).toLower := by decide +kernel
  have placed : p ∈ [Place.hex, .hyphen, .version, .variant] := by cases p <;> simp
  have same := table p placed c.toNat (admitsAscii admits)
  rw [Char.ofNat_toNat] at same
  exact same admits

theorem matchesLower {ps : List Place} {cs : List Char} (h : matches? ps cs) :
    matches? ps (cs.map Char.toLower) ∧ (cs.map Char.toLower).map Char.toLower = cs.map Char.toLower := by
  induction ps generalizing cs with
  | nil =>
    cases cs with
    | nil => exact ⟨rfl, rfl⟩
    | cons _ _ => cases h
  | cons p rest ih =>
    cases cs with
    | nil => cases h
    | cons c others =>
      obtain ⟨here, later⟩ := Bool.and_eq_true_iff.mp h
      obtain ⟨admits, lower⟩ := admitsLower here
      obtain ⟨matching, lowers⟩ := ih later
      exact ⟨Bool.and_eq_true_iff.mpr ⟨admits, matching⟩, by rw [List.map_cons, List.map_cons, lower, lowers]⟩

theorem normalAgain {s : String} (h : isUuid s) : isUuid (normalize s) ∧ normalize (normalize s) = normalize s := by
  rcases Bool.or_eq_true_iff.mp h with matching | isNil
  · obtain ⟨again, lowers⟩ := matchesLower matching
    unfold isUuid normalize
    rw [String.toList_ofList, again, lowers]
    exact ⟨rfl, rfl⟩
  · rw [eq_of_beq isNil]
    decide +kernel

end Uuid

namespace Store

theorem fieldAtColumn {fields : List Field} {f : Field} (columns : (fields.map (·.column)).Nodup) (mem : f ∈ fields) :
    fieldAt? fields f.column = some f := by
  unfold fieldAt?
  have reversed : (fields.reverse.map (·.column)).Nodup := by
    rw [List.map_reverse]
    exact (List.reverse_perm _).nodup_iff.mpr columns
  have inside : f ∈ fields.reverse := List.mem_reverse.mpr mem
  generalize fields.reverse = listed at reversed inside
  induction listed with
  | nil => cases inside
  | cons g rest ih =>
    obtain ⟨fresh, others⟩ := List.nodup_cons.mp reversed
    rcases List.mem_cons.mp inside with rfl | later
    · exact List.find?_cons_of_pos (beq_self_eq_true _)
    · have apart : g.column ≠ f.column := fun same => fresh (List.mem_map.mpr ⟨f, later, same.symm⟩)
      rw [List.find?_cons_of_neg (by simpa using apart)]
      exact ih others later

theorem returnedText {fields : List Field} {f : Field} (columns : (fields.map (·.column)).Nodup) (mem : f ∈ fields)
    (notJson : f.type ≠ .json) (s : String) : returned fields f.column (.text s) = .ok (.text s) := by
  unfold returned
  rw [fieldAtColumn columns mem]
  dsimp only
  rw [Option.any_some, beq_false_of_ne notJson]
  rfl

end Store

namespace Field

/-- A key that was stored is returned as it is where texts are, and what is read of it is written as it was. -/
theorem keyAgain {fields : List Field} {f : Field} (text : ∀ s, Store.returned fields f.column (.text s) = .ok (.text s))
    (keyed : f.type.isKeyType) (notJson : f.type ≠ .json) {v w : Value} (written : f.encode v = .ok w)
    (there : w.isNothing = false) :
    Store.returned fields f.column w = .ok w ∧ ∃ read, f.decode w = .ok read ∧ f.encode read = .ok w := by
  unfold encode at written
  split at written
  · split at written
    · cases written
      cases there
    · cases written
  · unfold encodePresent at written
    unfold decode encode decodePresent encodePresent
    cases type : f.type with
    | float _ | opaqueType =>
      rw [type] at keyed
      cases keyed
    | json => exact absurd type notJson
    | integer width =>
      simp only [type, encodeInteger] at written ⊢
      split at written
      · cases written
      · rename_i n exact
        split at written
        · rename_i holds
          cases written
          unfold ofWidth
          cases width.isWide with
          | true => exact ⟨rfl, .integer n, rfl, if_pos holds⟩
          | false => exact ⟨rfl, .int n, rfl, if_pos holds⟩
        · cases written
    | text =>
      simp only [type] at written ⊢
      split at written
      · cases written
        exact ⟨text _, _, rfl, rfl⟩
      · cases written
    | bool =>
      simp only [type] at written ⊢
      split at written
      · cases written
        exact ⟨rfl, _, rfl, rfl⟩
      · cases written
    | uuid =>
      simp only [type] at written ⊢
      split at written
      · split at written
        · rename_i isUuid
          cases written
          obtain ⟨again, same⟩ := Uuid.normalAgain isUuid
          refine ⟨text _, _, rfl, ?_⟩
          change (if Uuid.isUuid _ then Except.ok (Value.text (Uuid.normalize _)) else _) = _
          rw [if_pos again, same]
        · cases written
      · cases written
    | datetime =>
      simp only [type, toDate] at written ⊢
      split at written
      · cases written
        exact ⟨rfl, _, rfl, rfl⟩
      · cases written
    | date =>
      simp only [type] at written ⊢
      obtain ⟨s, rfl⟩ := encodeDayText written
      exact ⟨text s, _, rfl, rfl⟩
    | time =>
      simp only [type] at written ⊢
      obtain ⟨s, _, written⟩ := Results.bindOk written
      cases written
      exact ⟨text s, _, rfl, rfl⟩

theorem readAgain {fields : List Field} {f : Field} (columns : (fields.map (·.column)).Nodup) (mem : f ∈ fields)
    (keyed : f.type.isKeyType) (notJson : f.type ≠ .json) {v w : Value} (written : f.encode v = .ok w)
    (there : w.isNothing = false) :
    Store.returned fields f.column w = .ok w ∧ ∃ read, f.decode w = .ok read ∧ f.encode read = .ok w :=
  keyAgain (Store.returnedText columns mem notJson) keyed notJson written there

end Field

end EntityQuery
