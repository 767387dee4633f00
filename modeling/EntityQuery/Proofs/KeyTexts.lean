import EntityQuery.Proofs.DigitTexts
import EntityQuery.Proofs.Keys
/-! The texts that values are grouped by, for stored keys: two keys of one type have one text exactly if they compare as
equal. Texts compare by their units, so they have to be written in one way only, with the halves of every pair joined. -/

namespace EntityQuery

namespace Number

theorem intTextInjective {m n : Int} (same : intText m = intText n) : m = n := by
  have read := congrArg intOfText? same
  rw [intBack, intBack] at read
  exact Option.some.inj read

end Number

namespace Text

/-- Does a character stand for the first half of a pair? -/
def leads (c : Char) : Bool := (half? c).any (· < 0xDC00)

/-- Does a character stand for the second half of a pair? -/
def trails (c : Char) : Bool := (half? c).any (0xDC00 ≤ ·)

/-- Is no pair written as its two halves? -/
def isJoined : List Char → Bool
  | c :: d :: rest => !(leads c && trails d) && isJoined (d :: rest)
  | _ => true

/-- The units of a character: one outside the halves, a half, or both halves of a pair. -/
theorem unitsCases (c : Char) :
    (unitsOf c = [c.toNat] ∧ (c.toNat < 0xD800 ∨ 0xDFFF < c.toNat)) ∨
      (∃ u, unitsOf c = [u] ∧ half? c = some u ∧ 0xD800 ≤ u ∧ u ≤ 0xDFFF ∧ c.toNat = firstHalf + (u - 0xD800)) ∨
      ∃ high low, unitsOf c = [high, low] ∧ 0xD800 ≤ high ∧ high < 0xDC00 ∧ 0xDC00 ≤ low ∧ low ≤ 0xDFFF ∧
        c.toNat = 0x10000 + (high - 0xD800) * 0x400 + (low - 0xDC00) := by
  have valid := c.valid
  change c.toNat < 0xD800 ∨ 0xDFFF < c.toNat ∧ c.toNat < 0x110000 at valid
  unfold unitsOf half? firstHalf pair
  split
  · exact .inl ⟨rfl, by omega⟩
  · rename_i wide
    by_cases below : c.toNat < 0x10F800
    · rw [if_pos below]
      exact .inr (.inr ⟨_, _, rfl, by omega, by omega, by omega, by omega, by omega⟩)
    · rw [if_neg below]
      exact .inr (.inl ⟨_, rfl, rfl, by omega, by omega, by omega⟩)

/-- The first half of a pair is followed by no second half where pairs are joined. -/
theorem leadAlone {c : Char} {cs : List Char} {u low : Nat} {tail : List Nat} (joined : isJoined (c :: cs)) (half : half? c = some u)
    (lead : u < 0xDC00) (next : cs.flatMap unitsOf = low :: tail) (trail : 0xDC00 ≤ low ∧ low ≤ 0xDFFF) : False := by
  cases cs with
  | nil => cases next
  | cons d rest =>
    rw [List.flatMap_cons] at next
    rcases unitsCases d with ⟨units, plain⟩ | ⟨v, units, other, -⟩ | ⟨high, low', units, -, below, -⟩
    · rw [units] at next
      obtain ⟨first, -⟩ := List.cons.inj next
      omega
    · rw [units] at next
      obtain ⟨rfl, -⟩ := List.cons.inj next
      have leading : leads c = true := by
        unfold leads
        rw [half]
        exact decide_eq_true lead
      have trailing : trails d = true := by
        unfold trails
        rw [other]
        exact decide_eq_true trail.1
      unfold isJoined at joined
      rw [leading, trailing] at joined
      cases joined
    · rw [units] at next
      obtain ⟨first, -⟩ := List.cons.inj next
      omega

theorem joinedTail {c : Char} {cs : List Char} (joined : isJoined (c :: cs)) : isJoined cs := by
  cases cs with
  | nil => rfl
  | cons d rest => exact (Bool.and_eq_true_iff.mp joined).2

theorem joinedInjective {cs ds : List Char} (hc : isJoined cs) (hd : isJoined ds)
    (same : cs.flatMap unitsOf = ds.flatMap unitsOf) : cs = ds := by
  have some : ∀ (c : Char) (l : List Nat), unitsOf c ++ l ≠ [] := by
    intro c l none
    rcases unitsCases c with ⟨units, -⟩ | ⟨_, units, -⟩ | ⟨_, _, units, -⟩ <;> rw [units] at none <;> cases none
  induction cs generalizing ds with
  | nil =>
    cases ds with
    | nil => rfl
    | cons d ds => exact absurd same.symm (some d _)
  | cons c cs ih =>
    cases ds with
    | nil => exact absurd same (some c _)
    | cons d ds =>
      have rest := ih (joinedTail hc) (joinedTail hd)
      rw [List.flatMap_cons, List.flatMap_cons] at same
      have equal : c.toNat = d.toNat → unitsOf c = unitsOf d → c :: cs = d :: ds := by
        intro numbers units
        rw [units] at same
        rw [Char.toNat_inj.mp numbers, rest (List.append_cancel_left same)]
      rcases unitsCases c with ⟨cUnits, plain⟩ | ⟨u, cUnits, half, least, most, place⟩ | ⟨high, low, cUnits, least, lead, trail, most, place⟩
      · rcases unitsCases d with ⟨dUnits, other⟩ | ⟨v, dUnits, -, least, most, -⟩ | ⟨high, low, dUnits, least, lead, -⟩
        · rw [cUnits, dUnits] at same
          obtain ⟨numbers, -⟩ := List.cons.inj same
          exact equal numbers (by rw [cUnits, dUnits, numbers])
        · rw [cUnits, dUnits] at same
          obtain ⟨numbers, -⟩ := List.cons.inj same
          omega
        · rw [cUnits, dUnits] at same
          obtain ⟨numbers, -⟩ := List.cons.inj same
          omega
      · rcases unitsCases d with ⟨dUnits, other⟩ | ⟨v, dUnits, -, -, -, place'⟩ | ⟨high, low, dUnits, -, lead, trail, most', -⟩
        · rw [cUnits, dUnits] at same
          obtain ⟨numbers, -⟩ := List.cons.inj same
          omega
        · rw [cUnits, dUnits] at same
          obtain ⟨rfl, -⟩ := List.cons.inj same
          exact equal (place.trans place'.symm) (cUnits.trans dUnits.symm)
        · rw [cUnits, dUnits] at same
          obtain ⟨rfl, next⟩ := List.cons.inj same
          exact (leadAlone hc half lead next ⟨trail, most'⟩).elim
      · rcases unitsCases d with ⟨dUnits, other⟩ | ⟨v, dUnits, half, -⟩ | ⟨high', low', dUnits, -, -, -, -, place'⟩
        · rw [cUnits, dUnits] at same
          obtain ⟨numbers, -⟩ := List.cons.inj same
          omega
        · rw [cUnits, dUnits] at same
          obtain ⟨rfl, next⟩ := List.cons.inj same
          exact (leadAlone hd half lead next.symm ⟨trail, most⟩).elim
        · rw [cUnits, dUnits] at same
          obtain ⟨rfl, next⟩ := List.cons.inj same
          obtain ⟨rfl, -⟩ := List.cons.inj next
          exact equal (place.trans place'.symm) (cUnits.trans dUnits.symm)

end Text

namespace Store

theorem sameTexts {a b : String} (ha : Text.isJoined a.toList) (hb : Text.isJoined b.toList) :
    same (.text a) (.text b) = .ok (a == b) := by
  rw [sameOf rfl rfl, Except.ok.injEq, Bool.eq_iff_iff, beq_iff_eq, beq_iff_eq, Comparable.textOrder]
  exact ⟨fun units => String.toList_injective (Text.joinedInjective ha hb units), congrArg Text.units⟩

end Store

namespace ScalarType

/-- Has a value the form in which keys of a type are stored? -/
def isKeyForm : ScalarType → Value → Bool
  | .integer _, .number (.integer n) => n.natAbs ≤ Number.integerBound
  | .integer _, .integer _ => true
  | .text, .text s | .uuid, .text s | .date, .text s | .time, .text s => Text.isJoined s.toList
  | .bool, .bool _ => true
  | .datetime, .date (some _) => true
  | _, _ => false

/-- Keys of one type have one text to be grouped by exactly if they are equal. -/
theorem groupedSame {type : ScalarType} {v w : Value} (hv : type.isKeyForm v) (hw : type.isKeyForm w) :
    ∃ s t, v.groupText = .ok s ∧ w.groupText = .ok t ∧ Store.same v w = .ok (s == t) := by
  have integers : ∀ {u : Value} {width : IntegerType}, (ScalarType.integer width).isKeyForm u → ∃ n : Int,
      u.groupText = .ok ("n:" ++ Number.intText n) ∧ Store.comparable u = .ok (.number (.integer n)) := by
    intro u width form
    cases u with
    | integer n => exact ⟨n, rfl, rfl⟩
    | number x =>
      cases x with
      | integer n =>
        have shown : Number.toText (.integer n) = Number.intText n := if_pos (of_decide_eq_true form)
        exact ⟨n, congrArg (fun s => Except.ok ("n:" ++ s)) shown, rfl⟩
      | _ => cases form
    | _ => cases form
  have tagged : ∀ (tag : String) {a b : String}, (tag ++ a == tag ++ b) = (a == b) := by
    intro tag a b
    rw [Bool.eq_iff_iff, beq_iff_eq, beq_iff_eq, String.append_right_inj]
  have numbers : ∀ {a b : Int}, ((Store.Comparable.number (.integer a)).order (.number (.integer b)) == .eq) =
      (Number.intText a == Number.intText b) := by
    intro a b
    rw [Bool.eq_iff_iff, beq_iff_eq, beq_iff_eq]
    exact ⟨fun equal => congrArg _ (compare_eq_iff_eq.mp equal), fun equal => compare_eq_iff_eq.mpr (Number.intTextInjective equal)⟩
  cases type with
  | float _ | json | opaqueType => cases v <;> cases hv
  | integer width =>
    obtain ⟨m, vText, vCompares⟩ := integers hv
    obtain ⟨n, wText, wCompares⟩ := integers hw
    exact ⟨_, _, vText, wText, by rw [Store.sameOf vCompares wCompares, tagged, numbers]⟩
  | text | uuid | date | time =>
    cases v with
    | text a =>
      cases w with
      | text b => exact ⟨_, _, rfl, rfl, by rw [Store.sameTexts hv hw, tagged]⟩
      | _ => cases hw
    | _ => cases hv
  | bool =>
    cases v with
    | bool a =>
      cases w with
      | bool b => cases a <;> cases b <;> exact ⟨_, _, rfl, rfl, rfl⟩
      | _ => cases hw
    | _ => cases hv
  | datetime =>
    cases v with
    | date a =>
      cases a with
      | none => cases hv
      | some a =>
        cases w with
        | date b =>
          cases b with
          | none => cases hw
          | some b => exact ⟨_, _, rfl, rfl, by rw [Store.sameOf rfl rfl, tagged, numbers]⟩
        | _ => cases hw
    | _ => cases hv

end ScalarType

namespace Field

/-- A stored key is nothing, or a value that is written as it is, with the halves of all pairs joined if it is a text. -/
def HoldsKey (f : Field) (w : Value) : Prop :=
  w.isNothing ∨ f.encode w = .ok w ∧ ∀ s, w = .text s → Text.isJoined s.toList

/-- A key that is written as it is has the form of its type, and is read as it is. -/
theorem keyRead {f : Field} {w : Value} (keyed : f.type.isKeyType) (notJson : f.type ≠ .json) (there : w.isNothing = false)
    (written : f.encode w = .ok w) (joined : ∀ s, w = .text s → Text.isJoined s.toList) :
    f.type.isKeyForm w ∧ f.decode w = .ok w := by
  have present : f.decode w = f.decodePresent w := by
    unfold decode
    rw [there]
    rfl
  rw [present]
  unfold encode at written
  rw [there, if_neg Bool.false_ne_true] at written
  unfold encodePresent at written
  unfold decodePresent
  cases type : f.type with
  | float _ | opaqueType =>
    rw [type] at keyed
    cases keyed
  | json => exact absurd type notJson
  | integer width =>
    rw [type] at written
    dsimp only at written
    unfold encodeInteger at written
    split at written
    · cases written
    · rename_i n exact
      split at written
      · rename_i holds
        unfold ofWidth at written
        dsimp only
        cases wide : width.isWide with
        | true =>
          rw [wide] at written
          cases written
          exact ⟨rfl, rfl⟩
        | false =>
          rw [wide] at written
          cases written
          refine ⟨decide_eq_true ?_, rfl⟩
          have bounds := of_decide_eq_true holds
          unfold IntegerType.least IntegerType.greatest at bounds
          unfold Number.integerBound
          cases width with
          | i64 | u64 => cases wide
          | _ =>
            simp only [IntegerType.isSigned, IntegerType.bits] at bounds
            norm_num at bounds ⊢
            omega
      · cases written
  | text =>
    rw [type] at written
    cases w with
    | text s => exact ⟨joined s rfl, rfl⟩
    | _ => cases written
  | bool =>
    rw [type] at written
    cases w with
    | bool b => exact ⟨rfl, rfl⟩
    | _ => cases written
  | uuid =>
    rw [type] at written
    cases w with
    | text s => exact ⟨joined s rfl, rfl⟩
    | _ => cases written
  | datetime =>
    rw [type] at written
    dsimp only at written
    unfold toDate at written
    split at written
    · cases written
      exact ⟨rfl, rfl⟩
    · cases written
  | date =>
    rw [type] at written
    obtain ⟨s, rfl⟩ := encodeDayText written
    exact ⟨joined s rfl, rfl⟩
  | time =>
    rw [type] at written
    obtain ⟨s, -, written⟩ := Results.bindOk written
    cases written
    exact ⟨joined s rfl, rfl⟩

end Field

end EntityQuery
