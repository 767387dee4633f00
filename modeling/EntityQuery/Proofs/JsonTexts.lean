import EntityQuery.Json.Reader
import EntityQuery.Proofs.DigitTexts
import EntityQuery.Proofs.ExactNumbers
import EntityQuery.Proofs.KeyTexts
/-! JSON text that is read back. A text is read from its escapes, a number from its digits, and a document from its parts,
each up to what follows it. The text of every document is read, and that of a safe one as the document it denotes. -/

namespace EntityQuery.Json

open Text (half? halfChar firstHalf leads trails isJoined)

section Hexadecimal

theorem hexFold (n : Nat) :
    (Nat.toDigits 16 n).foldlM (fun n c => (Number.digitIn? 16 c).map (16 * n + ·)) 0 = some n := by
  have digit : ∀ d < 16, Number.digitIn? 16 d.digitChar = some d := by decide
  induction n using Nat.strongRecOn with
  | _ n ih =>
    rw [Nat.toDigits_eq_if (by decide)]
    split
    · next few =>
      rw [List.foldlM_cons, digit n few]
      exact congrArg some (Nat.zero_add n)
    · rw [List.foldlM_append, ih (n / 16) (by omega)]
      dsimp only [Option.bind_eq_bind, Option.bind_some]
      rw [List.foldlM_cons, digit (n % 16) (by omega)]
      exact congrArg some (Nat.div_add_mod n 16)

/-- Four hexadecimal digits denote their number. -/
theorem hexBack {n : Nat} (small : n < 65536) (rest : List Char) : fourHex? (hexDigits n ++ rest) = some (n, rest) := by
  have short : (Nat.toDigits 16 n).length ≤ 4 := (Nat.length_toDigits_le_iff (by decide) (by decide)).mpr small
  have long : (hexDigits n).length = 4 := by
    unfold hexDigits
    rw [Text.length_padLeft]
    omega
  have zeros (k : Nat) : (List.replicate k '0').foldlM (fun n c => (Number.digitIn? 16 c).map (16 * n + ·)) 0 = some 0 := by
    induction k with
    | zero => rfl
    | succ k ih => exact ih
  have value : Number.ofDigitsIn? 16 (hexDigits n) = some n := by
    have written : (hexDigits n).isEmpty = false := by
      rw [List.isEmpty_eq_false_iff, ← List.length_pos_iff, long]
      decide
    unfold Number.ofDigitsIn?
    rw [written, if_neg Bool.false_ne_true]
    unfold hexDigits Text.padLeft
    rw [List.foldlM_append, zeros]
    exact hexFold n
  have taken : (hexDigits n ++ rest).take 4 = hexDigits n := List.take_left' long
  have dropped : (hexDigits n ++ rest).drop 4 = rest := List.drop_left' long
  unfold fourHex?
  rw [taken, dropped, long, if_pos rfl, value]
  rfl

end Hexadecimal

section Escapes

variable {c : Char} {cs rest : List Char} {fuel : Nat}

theorem halfBack {u : Nat} (half : half? c = some u) : 0xD800 ≤ u ∧ u ≤ 0xDFFF ∧ halfChar u = c := by
  have valid := c.valid
  change c.toNat < 0xD800 ∨ 0xDFFF < c.toNat ∧ c.toNat < 0x110000 at valid
  unfold half? firstHalf at half
  split at half
  · cases half
  · obtain rfl := Option.some.inj half
    refine ⟨by omega, by omega, ?_⟩
    unfold halfChar firstHalf
    rw [show 0x10F800 + (c.toNat - 0x10F800 + 0xD800 - 0xD800) = c.toNat by omega, Char.ofNat_toNat]

/-- The escape of a unit denotes its character. -/
theorem unitBack {n : Nat} (small : n < 65536) :
    textBody? (fuel + 1) ('\\' :: 'u' :: (hexDigits n ++ rest)) =
      (textBody? fuel rest).bind fun x => some (unitChar n :: x.1, x.2) := by
  have escape : escape? ('u' :: (hexDigits n ++ rest)) = some (unitChar n, rest) := by
    show (fourHex? (hexDigits n ++ rest)).map (fun x => (unitChar x.1, x.2)) = _
    rw [hexBack small]
    rfl
  rw [textBody?, escape]
  rfl

/-- A character is read from its escape. -/
theorem escapeBack (c : Char) :
    textBody? (fuel + 1) (escaped c ++ rest) = (textBody? fuel rest).bind fun x => some (c :: x.1, x.2) := by
  have known {n : Nat} (code : c.toNat = n) : c = Char.ofNat n := by rw [← code, Char.ofNat_toNat]
  unfold escaped
  split_ifs with quote slash line turn tab back feed control
  · subst quote
    rfl
  · subst slash
    rfl
  · subst line
    rfl
  · subst turn
    rfl
  · subst tab
    rfl
  · obtain rfl := known back
    rfl
  · obtain rfl := known feed
    rfl
  · have unit : unitChar c.toNat = c := by
      unfold unitChar
      rw [if_neg (by omega), Char.ofNat_toNat]
    rw [List.cons_append, List.cons_append, unitBack (by omega), unit]
  · split
    · next u half =>
      obtain ⟨least, most, same⟩ := halfBack half
      have unit : unitChar u = c := by
        unfold unitChar
        rw [if_pos ⟨least, most⟩, same]
      rw [List.cons_append, List.cons_append, unitBack (by omega), unit]
    · rw [List.singleton_append, textBody?, if_neg control]
      · rfl
      · exact quote
      · exact slash

/-- By induction on the text: each character is read from its escape. -/
theorem bodyBack (long : cs.length < fuel) : textBody? fuel (cs.flatMap escaped ++ '"' :: rest) = some (cs, rest) := by
  induction cs generalizing fuel with
  | nil =>
    cases fuel with
    | zero => cases long
    | succ fuel => rfl
  | cons c cs ih =>
    cases fuel with
    | zero => cases long
    | succ fuel =>
      rw [List.flatMap_cons, List.append_assoc, escapeBack, ih (Nat.lt_of_succ_lt_succ long)]
      rfl

theorem escapedLong (cs : List Char) : cs.length ≤ (cs.flatMap escaped).length := by
  have some (c : Char) : 0 < (escaped c).length := by
    unfold escaped
    split_ifs <;> first | exact Nat.succ_pos _ | (split <;> exact Nat.succ_pos _)
  induction cs with
  | nil => exact Nat.le_refl 0
  | cons c cs ih =>
    have := some c
    rw [List.flatMap_cons, List.length_append, List.length_cons]
    omega

/-- Characters that are joined stay as they are. -/
theorem joinBack (joined : isJoined cs) : Text.join cs = cs := by
  induction cs with
  | nil => rfl
  | cons c cs ih =>
    have rest := ih (Text.joinedTail joined)
    cases cs with
    | nil => rfl
    | cons d cs =>
      obtain ⟨apart, -⟩ := (Bool.and_eq_true ..).mp joined
      unfold leads trails at apart
      unfold Text.join
      split
      · next high low first second =>
        rw [first, second] at apart
        have either : 0xDC00 ≤ high ∨ low < 0xDC00 := by simpa using apart
        rw [if_neg (by omega), rest]
      · rw [rest]

/-- A text is read up to its closing mark, as itself where it joins the halves of pairs. -/
theorem textReads (s : String) (rest : List Char) :
    ∃ t, text? (s.toList.flatMap escaped ++ '"' :: rest) = some (t, rest) ∧ (isJoined s.toList → t = s) := by
  have long := escapedLong s.toList
  unfold text?
  rw [bodyBack (by rw [List.length_append, List.length_cons]; omega), Option.map_some]
  refine ⟨_, rfl, fun joined => ?_⟩
  rw [joinBack joined, String.ofList_toList]

end Escapes

section Documents

/-- A number with the one zero that text has. -/
def settled (n : Number) : Number :=
  match n.int? with
  | some i => .integer i
  | none => n

mutual

/-- The document that the text of a document denotes: zeros have no sign, and members the order of a record. -/
def stored : Json → Json
  | .number n => .number (settled n)
  | .array items => .array (storedItems items)
  | .object members => .object (Record.ofPairs (storedMembers members))
  | .null => .null
  | .bool b => .bool b
  | .text s => .text s
termination_by structural j => j

def storedItems : List Json → List Json
  | [] => []
  | item :: rest => stored item :: storedItems rest
termination_by structural items => items

def storedMembers : List (String × Json) → List (String × Json)
  | [] => []
  | (name, value) :: rest => (name, stored value) :: storedMembers rest
termination_by structural members => members

end

mutual

/-- A document whose numbers are safe integers. Its objects name no member twice, and its texts and names join the halves of
pairs, as those of all values do. -/
def isSafe : Json → Bool
  | .null | .bool _ => true
  | .number n => n.isSafeInteger
  | .text s => isJoined s.toList
  | .array items => areSafe items
  | .object members => decide (members.map (·.1)).Nodup && membersSafe members
termination_by structural j => j

def areSafe : List Json → Bool
  | [] => true
  | item :: rest => isSafe item && areSafe rest
termination_by structural items => items

def membersSafe : List (String × Json) → Bool
  | [] => true
  | (name, value) :: rest => isJoined name.toList && isSafe value && membersSafe rest
termination_by structural members => members

end

/-- What may follow a value in a document. -/
def Follows (rest : List Char) : Prop := ∀ c ∈ rest.head?, c = ',' ∨ c = ']' ∨ c = '\x7d'

variable {rest : List Char}

theorem followsEnds (follows : Follows rest) : Number.Ends rest := by
  intro c head
  rcases follows c head with rfl | rfl | rfl <;> rfl

theorem followsPlain (follows : Follows rest) : fractionDigits? rest = some ([], rest) ∧ exponent? rest = some (0, rest) := by
  cases rest with
  | nil => exact ⟨rfl, rfl⟩
  | cons c rest => rcases follows c rfl with rfl | rfl | rfl <;> exact ⟨rfl, rfl⟩

theorem wholeRead {cs : List Char} (digits : ∀ c ∈ cs, c.isDigit) (leads : Number.Leads cs) (ends : Number.Ends rest) :
    wholeDigits? (cs ++ rest) = some (cs, rest) := by
  rcases leads with rfl | ⟨c, others, rfl, nonzero⟩
  · rfl
  · have take := Number.takeDigits digits ends
    have drop := Number.dropDigits digits ends
    rw [List.cons_append] at take drop ⊢
    unfold wholeDigits?
    split
    · next same =>
      obtain ⟨rfl, -⟩ := List.cons.inj same
      exact absurd rfl nonzero
    · rw [take, drop]
      rfl

theorem decimalBack (negative : Bool) {n : Nat} (safe : n < 2 ^ 53) :
    Number.Decimal.toNumber ⟨negative, Nat.toDigits 10 n, 0⟩ =
      if n = 0 then Number.zero negative else .integer (Number.signed negative n) := by
  have unit : n * Nat.pow 10 (0 : Int).toNat = n := Nat.mul_one n
  have size : ¬ ((0 : Int) < -Number.exponentBound - (Nat.toDigits 10 n).length) := by
    unfold Number.exponentBound
    omega
  unfold Number.Decimal.toNumber
  dsimp only
  rw [Number.digitsBack, if_neg (show ¬ Number.exponentBound < 0 by decide), if_neg size, if_pos (Int.le_refl 0), unit]
  split
  · rfl
  · next some => exact Number.roundWhole negative (Nat.pos_of_ne_zero some) safe

/-- The number of an optional sign, digits, a fraction and an exponent. -/
def numberAfter (negative : Bool) (cs : List Char) : Option (Number × List Char) := do
  let (whole, rest) ← wholeDigits? cs
  let (places, rest) ← fractionDigits? rest
  let (exponent, rest) ← exponent? rest
  some (Number.Decimal.toNumber ⟨negative, whole ++ places, exponent - places.length⟩, rest)

theorem numberUnsigned {cs : List Char} (digits : ∀ c ∈ cs.head?, c.isDigit) : number? cs = numberAfter false cs := by
  cases cs with
  | nil => rfl
  | cons c cs =>
    unfold number?
    split
    next negative body parted =>
      split at parted
      · next same =>
        obtain ⟨rfl, -⟩ := List.cons.inj same
        cases digits '-' rfl
      · cases parted
        rfl

theorem fractionRead {places : List Char} (digits : ∀ c ∈ places, c.isDigit) (some : places ≠ []) (ends : Number.Ends rest) :
    fractionDigits? ('.' :: (places ++ rest)) = Option.some (places, rest) := by
  have filled : places.isEmpty = false := by simpa using some
  change (if ((places ++ rest).takeWhile Char.isDigit).isEmpty then none else
    Option.some ((places ++ rest).takeWhile Char.isDigit, (places ++ rest).dropWhile Char.isDigit)) = _
  rw [Number.takeDigits digits ends, Number.dropDigits digits ends, filled, if_neg Bool.false_ne_true]

theorem exponentRead (negative : Prop) [Decidable negative] (n : Nat) (ends : Number.Ends rest) :
    ∃ x, exponent? ('e' :: (if negative then '-' else '+') :: (Nat.toDigits 10 n ++ rest)) = some (x, rest) := by
  have filled : (Nat.toDigits 10 n).isEmpty = false := by simp
  have digits := Number.naturalDigits n
  have signed : Number.sign ((if negative then '-' else '+') :: (Nat.toDigits 10 n ++ rest)) =
      (decide negative, Nat.toDigits 10 n ++ rest) := by
    by_cases below : negative
    · rw [if_pos below, decide_eq_true below]
      rfl
    · rw [if_neg below, decide_eq_false below]
      rfl
  change ∃ x, exponentAfter? _ = _
  unfold exponentAfter?
  rw [signed]
  dsimp only
  rw [Number.takeDigits digits ends, Number.dropDigits digits ends, filled, if_neg Bool.false_ne_true]
  exact ⟨_, rfl⟩

/-- A number is read from its parts. -/
theorem partsRead {cs a b whole places : List Char} {x : Int} (negative : Bool) (wholePart : wholeDigits? cs = some (whole, a))
    (fraction : fractionDigits? a = some (places, b)) (exponent : exponent? b = some (x, rest)) :
    ∃ m, numberAfter negative cs = some (m, rest) := by
  unfold numberAfter
  simp only [wholePart, fraction, exponent, Option.bind_eq_bind, Option.bind_some]
  exact ⟨_, rfl⟩

/-- A number that is laid out is read up to what follows it. -/
theorem layOutReads {p q : Nat} (negative : Bool) (follows : Follows rest) :
    ∃ m, numberAfter negative (Number.magnitudeText p q ++ rest) = some (m, rest) := by
  have digits := Number.shortestDigits p q
  have leads := Number.shortestLeads p q
  obtain ⟨plain, last⟩ := followsPlain follows
  have ends := followsEnds follows
  have zeros := Number.zerosAreDigits
  unfold Number.magnitudeText
  rcases leads with zero | ⟨c, others, written, nonzero⟩
  · rw [zero]
    exact partsRead negative rfl plain last
  · generalize Number.shortest p q = d at digits written ⊢
    have first {cs : List Char} (digits : ∀ c ∈ cs, c.isDigit) (leads : ∃ rest, cs = c :: rest) {rest : List Char}
        (ends : Number.Ends rest) : wholeDigits? (cs ++ rest) = some (cs, rest) := by
      obtain ⟨rest, rfl⟩ := leads
      exact wholeRead digits (.inr ⟨c, _, rfl, nonzero⟩) ends
    have stop : ∀ cs, Number.Ends ('.' :: cs) := by
      rintro cs c ⟨⟩
      rfl
    have mark : ∀ cs, Number.Ends ('e' :: cs) := by
      rintro cs c ⟨⟩
      rfl
    unfold Number.Digits.layOut
    dsimp only
    split
    · split
      · have places := List.forall_mem_append.mpr ⟨zeros (-d.point).toNat, digits⟩
        have text := fractionRead places (by simp [written]) ends
        rw [List.append_assoc] at text
        simp only [List.cons_append, List.append_assoc]
        exact partsRead negative rfl text last
      · next above =>
        split
        · have whole := List.forall_mem_append.mpr ⟨digits, zeros (d.point.toNat - d.digits.length)⟩
          exact partsRead negative (first whole ⟨_, by rw [written]; rfl⟩ ends) plain last
        · next many =>
          rw [List.append_assoc]
          obtain ⟨k, size⟩ : ∃ k, d.point.toNat = k + 1 := ⟨d.point.toNat - 1, by omega⟩
          have whole : ∀ c ∈ d.digits.take d.point.toNat, c.isDigit := fun c mem => digits c (List.mem_of_mem_take mem)
          have places : ∀ c ∈ d.digits.drop d.point.toNat, c.isDigit := fun c mem => digits c (List.mem_of_mem_drop mem)
          have some : d.digits.drop d.point.toNat ≠ [] := by
            rw [Ne, List.drop_eq_nil_iff]
            exact many
          exact partsRead negative (first whole ⟨_, by rw [written, size]; rfl⟩ (stop _)) (fractionRead places some ends) last
    · rw [written] at digits ⊢
      obtain ⟨own, digits⟩ := List.forall_mem_cons.mp digits
      have single : ∀ d ∈ [c], d.isDigit := List.forall_mem_singleton.mpr own
      obtain ⟨x, exponent⟩ := exponentRead (d.point - 1 < 0) (d.point - 1).natAbs ends
      cases others with
      | nil =>
        simp only [List.cons_append, List.nil_append]
        exact partsRead negative (first single ⟨_, rfl⟩ (mark _)) rfl exponent
      | cons next others =>
        simp only [List.append_assoc, List.cons_append]
        exact partsRead negative (first single ⟨_, rfl⟩ (stop _)) (fractionRead digits nofun (mark _)) exponent

/-- What is read as a number but for its sign starts with a digit. -/
theorem digitStart {negative : Bool} {cs : List Char} {read : Number × List Char} (found : numberAfter negative cs = some read) :
    ∃ c others, cs = c :: others ∧ c.isDigit := by
  obtain ⟨parts, whole, -⟩ := Option.bind_eq_some_iff.mp found
  unfold wholeDigits? at whole
  split at whole
  · exact ⟨_, _, rfl, rfl⟩
  · cases cs with
    | nil => cases whole
    | cons c others =>
      cases digit : c.isDigit with
      | true => exact ⟨c, others, rfl, digit⟩
      | false =>
        simp only [List.takeWhile_cons, digit] at whole
        cases whole

theorem digitsRead (negative : Bool) {n : Nat} (safe : n < 2 ^ 53) (follows : Follows rest) :
    numberAfter negative (Nat.toDigits 10 n ++ rest) =
      some (if n = 0 then Number.zero negative else .integer (Number.signed negative n), rest) := by
  obtain ⟨fraction, exponent⟩ := followsPlain follows
  unfold numberAfter
  have whole := wholeRead (Number.naturalDigits n) (Number.naturalLeads n) (followsEnds follows)
  simp only [whole, fraction, exponent, Option.bind_eq_bind, Option.bind_some, List.append_nil]
  rw [← decimalBack negative safe]
  rfl

theorem digitFirst (n : Nat) (rest : List Char) : ∀ c ∈ (Nat.toDigits 10 n ++ rest).head?, c.isDigit := by
  obtain ⟨d, ds, written, digit⟩ := Number.someDigit n
  rw [written]
  rintro c ⟨⟩
  exact digit

theorem integerBack {i : Int} (safe : i.natAbs < 2 ^ 53) (follows : Follows rest) :
    number? ((Number.intText i).toList ++ rest) = some (.integer i, rest) := by
  rw [Number.intChars]
  split
  · next below =>
    have value : Number.signed true i.natAbs = i := by
      unfold Number.signed
      rw [if_pos rfl]
      omega
    show numberAfter true (Nat.toDigits 10 i.natAbs ++ rest) = _
    rw [digitsRead true safe follows, if_neg (by omega), value]
  · next above =>
    rw [numberUnsigned (digitFirst i.natAbs rest), digitsRead false safe follows]
    split
    · next zero =>
      obtain rfl : i = 0 := by omega
      rfl
    · have value : Number.signed false i.natAbs = i := by
        unfold Number.signed
        rw [if_neg Bool.false_ne_true]
        omega
      rw [value]

/-- The characters of a safe integer are those of an exact one. -/
theorem safeChars {n : Number} (safe : n.isSafeInteger) :
    ∃ i : Int, settled n = .integer i ∧ i.natAbs < 2 ^ 53 ∧ numberChars n = (Number.intText i).toList := by
  cases n with
  | integer i =>
    have small : i.natAbs < 2 ^ 53 := of_decide_eq_true safe
    have exact : i.natAbs ≤ Number.integerBound := Nat.le_of_lt small
    refine ⟨i, rfl, small, ?_⟩
    show (Number.toText (.integer i)).toList = _
    unfold Number.toText
    dsimp only
    rw [if_pos exact]
  | negativeZero => exact ⟨0, rfl, by decide, rfl⟩
  | _ => cases safe

/-- Text that goes on after a comma or ends with a bracket is nothing that a value is part of. -/
theorem followsMark {c : Char} (mark : c = ',' ∨ c = ']' ∨ c = '\x7d') (rest : List Char) : Follows (c :: rest) := by
  rintro d ⟨⟩
  exact mark

theorem skipFirst {c : Char} (solid : isGap c = false) (cs : List Char) : skipGaps (c :: cs) = c :: cs := by
  unfold skipGaps
  rw [List.dropWhile_cons, solid, if_neg Bool.false_ne_true]

/-- Digits behind an optional sign are read as a number. -/
theorem signedReads (negative : Prop) [Decidable negative] {cs : List Char}
    (reads : ∀ negative rest, Follows rest → ∃ m, numberAfter negative (cs ++ rest) = some (m, rest)) :
    (∃ c others, (if negative then '-' :: cs else cs) = c :: others ∧ (c.isDigit ∨ c = '-')) ∧
      ∀ rest, Follows rest → ∃ m, number? ((if negative then '-' :: cs else cs) ++ rest) = some (m, rest) := by
  split
  · exact ⟨⟨_, _, rfl, .inr rfl⟩, reads true⟩
  · obtain ⟨m, alone⟩ := reads false [] nofun
    rw [List.append_nil] at alone
    obtain ⟨c, others, rfl, digit⟩ := digitStart alone
    refine ⟨⟨c, others, rfl, .inl digit⟩, fun rest follows => ?_⟩
    rw [numberUnsigned fun d head => by cases head; exact digit]
    exact reads false rest follows

/-- The text of a finite number starts with its sign or a digit, and is read as some number. -/
theorem numberReads {n : Number} (finite : n.isFinite) :
    (∃ c others, numberChars n = c :: others ∧ (c.isDigit ∨ c = '-')) ∧
      ∀ rest, Follows rest → ∃ m, number? (numberChars n ++ rest) = some (m, rest) := by
  have natural (k : Nat) : ∀ negative rest, Follows rest → ∃ m, numberAfter negative (Nat.toDigits 10 k ++ rest) = some (m, rest) := by
    intro negative rest follows
    obtain ⟨plain, last⟩ := followsPlain follows
    exact partsRead negative (wholeRead (Number.naturalDigits k) (Number.naturalLeads k) (followsEnds follows)) plain last
  unfold numberChars
  rw [if_pos finite]
  unfold Number.toText
  cases n with
  | integer i =>
    dsimp only
    split
    · rw [Number.intChars]
      exact signedReads _ (natural i.natAbs)
    · rw [String.toList_ofList]
      exact signedReads _ fun negative _ => layOutReads negative
  | fraction i k =>
    dsimp only
    rw [String.toList_ofList]
    exact signedReads _ fun negative _ => layOutReads negative
  | negativeZero => exact signedReads False (natural 0)
  | infinity _ | nan => cases finite

theorem digitNotGap {c : Char} (digit : c.isDigit ∨ c = '-') : isGap c = false := by
  have solid := Number.digitNotBlank digit
  have apart {d : Char} (blank : Text.isBlank d) : (c == d) = false := by
    rw [beq_eq_false_iff_ne]
    rintro rfl
    rw [solid] at blank
    cases blank
  unfold isGap
  rw [apart (by decide), apart (by decide), apart (by decide), apart (by decide)]
  rfl

/-- The text of a value starts with neither a blank nor the bracket that ends an array. -/
theorem valueFirst (j : Json) : ∃ c cs, j.chars = c :: cs ∧ isGap c = false ∧ c ≠ ']' := by
  cases j with
  | null => exact ⟨_, _, rfl, rfl, by decide⟩
  | bool b => cases b <;> exact ⟨_, _, rfl, rfl, by decide⟩
  | number n =>
    cases finite : n.isFinite with
    | true =>
      obtain ⟨c, cs, written, digit⟩ := (numberReads finite).1
      refine ⟨c, cs, written, digitNotGap digit, ?_⟩
      rintro rfl
      exact absurd digit (by decide)
    | false =>
      rw [chars, numberChars, finite]
      exact ⟨_, _, rfl, rfl, by decide⟩
  | text s => exact ⟨_, _, rfl, rfl, by decide⟩
  | array items => exact ⟨_, _, rfl, rfl, by decide⟩
  | object members => exact ⟨_, _, rfl, rfl, by decide⟩

variable {fuel : Nat}

/-- What starts as a number is read as one. -/
theorem numberRead {c : Char} (digit : c.isDigit ∨ c = '-') (cs : List Char) :
    value? (fuel + 1) (c :: cs) = (number? (c :: cs)).map fun (n, tail) => (.number n, tail) := by
  have other {d : Char} {ds es : List Char} (same : c :: ds = d :: es) (plain : d.isDigit = false ∧ d ≠ '-') : False := by
    obtain ⟨rfl, -⟩ := List.cons.inj same
    rcases digit with digit | rfl
    · rw [plain.1] at digit
      cases digit
    · exact plain.2 rfl
  rw [value?, skipFirst (digitNotGap digit)]
  split
  · next same => exact (other same (by decide)).elim
  · next same => exact (other same (by decide)).elim
  · next same => exact (other same (by decide)).elim
  · next same => exact (other same (by decide)).elim
  · next same => exact (other same (by decide)).elim
  · next same => exact (other same (by decide)).elim
  · rfl

/-- After its bracket, an array that does not end there is read from its items. -/
theorem arrayRead {c : Char} (solid : isGap c = false) (unclosed : c ≠ ']') (cs : List Char) :
    value? (fuel + 1) ('[' :: c :: cs) = (items? fuel (c :: cs)).map fun (items, tail) => (.array items, tail) := by
  have bracket : skipGaps ('[' :: c :: cs) = '[' :: c :: cs := skipFirst rfl (c :: cs)
  rw [value?, bracket]
  simp only [skipFirst solid]
  split
  · next same =>
    obtain ⟨rfl, -⟩ := List.cons.inj same
    exact absurd rfl unclosed
  · rfl

/-- What ends an array, or goes on with its other items. -/
def itemsAfter (others : List Json) (rest : List Char) : List Char :=
  match others with
  | [] => ']' :: rest
  | _ => ',' :: (itemChars others ++ ']' :: rest)

def membersAfter (others : List (String × Json)) (rest : List Char) : List Char :=
  match others with
  | [] => '\x7d' :: rest
  | _ => ',' :: (memberChars others ++ '\x7d' :: rest)

theorem itemsCons (item : Json) (others : List Json) (rest : List Char) :
    itemChars (item :: others) ++ ']' :: rest = item.chars ++ itemsAfter others rest := by
  cases others with
  | nil => rfl
  | cons next others => exact List.append_assoc ..

theorem membersCons (name : String) (value : Json) (others : List (String × Json)) (rest : List Char) :
    memberChars ((name, value) :: others) ++ '\x7d' :: rest =
      '"' :: (name.toList.flatMap escaped ++ '"' :: ':' :: (value.chars ++ membersAfter others rest)) := by
  cases others with
  | nil =>
    rw [memberChars, quoted]
    simp only [List.append_assoc, List.cons_append, List.nil_append]
    rfl
  | cons next others =>
    rw [memberChars, quoted]
    · simp only [List.append_assoc, List.cons_append, List.nil_append]
      rfl
    · exact nofun

theorem itemsLong (item : Json) (others : List Json) :
    item.chars.length ≤ (itemChars (item :: others)).length ∧
      (others ≠ [] → (itemChars others).length < (itemChars (item :: others)).length) := by
  cases others with
  | nil => exact ⟨Nat.le_refl _, fun some => absurd rfl some⟩
  | cons next others =>
    rw [itemChars, List.length_append, List.length_cons]
    · exact ⟨by omega, fun _ => by omega⟩
    · exact nofun

theorem membersLong (name : String) (value : Json) (others : List (String × Json)) :
    value.chars.length ≤ (memberChars ((name, value) :: others)).length ∧
      (others ≠ [] → (memberChars others).length < (memberChars ((name, value) :: others)).length) := by
  cases others with
  | nil =>
    show value.chars.length ≤ (quoted name ++ ':' :: value.chars).length ∧ _
    rw [List.length_append, List.length_cons]
    exact ⟨by omega, fun some => absurd rfl some⟩
  | cons next others =>
    rw [memberChars, List.length_append, List.length_append, List.length_cons, List.length_cons]
    · exact ⟨by omega, fun _ => by omega⟩
    · exact nofun

theorem itemsFollow (others : List Json) (rest : List Char) : Follows (itemsAfter others rest) := by
  cases others with
  | nil => exact followsMark (.inr (.inl rfl)) rest
  | cons next others => exact followsMark (.inl rfl) _

theorem membersFollow (others : List (String × Json)) (rest : List Char) : Follows (membersAfter others rest) := by
  cases others with
  | nil => exact followsMark (.inr (.inr rfl)) rest
  | cons next others => exact followsMark (.inl rfl) _

mutual

/-- By induction on the document, as its text is written: a value is read up to what follows it, as the document that a safe
one denotes. -/
theorem valueReads (j : Json) (fuel : Nat) (rest : List Char) (long : j.chars.length ≤ fuel) (follows : Follows rest) :
    ∃ k, value? fuel (j.chars ++ rest) = some (k, rest) ∧ (j.isSafe → k = j.stored) := by
  cases fuel with
  | zero =>
    obtain ⟨c, cs, written, -⟩ := valueFirst j
    rw [written] at long
    cases long
  | succ fuel =>
    cases j with
    | null => exact ⟨_, rfl, fun _ => rfl⟩
    | bool b => cases b <;> exact ⟨_, rfl, fun _ => rfl⟩
    | number n =>
      cases finite : n.isFinite with
      | true =>
        obtain ⟨⟨c, cs, first, digit⟩, reads⟩ := numberReads finite
        obtain ⟨m, read⟩ := reads rest follows
        refine ⟨.number m, ?_, fun safe => ?_⟩
        · rw [first] at read
          rw [chars, first, List.cons_append, numberRead digit, ← List.cons_append, read]
          rfl
        · obtain ⟨i, value, small, written⟩ := safeChars safe
          rw [written, integerBack small follows] at read
          obtain ⟨rfl, -⟩ := Prod.mk.inj (Option.some.inj read)
          rw [stored, value]
      | false =>
        refine ⟨.null, ?_, fun safe => ?_⟩
        · rw [chars, numberChars, finite]
          rfl
        · cases n with
          | infinity _ | nan => cases safe
          | integer _ | fraction _ _ | negativeZero => cases finite
    | text s =>
      obtain ⟨t, read, same⟩ := textReads s rest
      refine ⟨.text t, ?_, fun safe => congrArg Json.text (same safe)⟩
      show (text? (s.toList.flatMap escaped ++ ['"'] ++ rest)).map (fun x => (Json.text x.1, x.2)) = _
      rw [List.append_assoc, List.singleton_append, read]
      rfl
    | array items =>
      cases items with
      | nil => exact ⟨_, rfl, fun _ => rfl⟩
      | cons item others =>
        obtain ⟨c, cs, first, solid, unclosed⟩ := valueFirst item
        rw [chars, List.length_append, List.length_cons, List.length_singleton] at long
        obtain ⟨found, read, same⟩ := itemsRead (item :: others) fuel rest nofun (by omega)
        have text : (array (item :: others)).chars ++ rest = '[' :: (itemChars (item :: others) ++ ']' :: rest) := by
          simp only [chars, List.cons_append, List.append_assoc, List.nil_append]
        rw [itemsCons, first, List.cons_append] at text read
        refine ⟨.array found, ?_, fun safe => congrArg Json.array (same safe)⟩
        rw [text, arrayRead solid unclosed, read]
        rfl
    | object members =>
      cases members with
      | nil => exact ⟨_, rfl, fun _ => rfl⟩
      | cons member others =>
        obtain ⟨name, value⟩ := member
        rw [chars, List.length_append, List.length_cons, List.length_singleton] at long
        obtain ⟨found, read, same⟩ := membersRead ((name, value) :: others) fuel rest nofun (by omega)
        have text : (object ((name, value) :: others)).chars ++ rest = '\x7b' :: (memberChars ((name, value) :: others) ++ '\x7d' :: rest) := by
          simp only [chars, List.cons_append, List.append_assoc, List.nil_append]
        rw [membersCons] at text read
        refine ⟨.object (Record.ofPairs found), ?_, fun safe => ?_⟩
        · rw [text]
          show (members? fuel _).map (fun x => (Json.object (Record.ofPairs x.1), x.2)) = _
          rw [read]
          rfl
        · rw [same ((Bool.and_eq_true ..).mp safe).2]
          rfl
termination_by structural j

theorem itemsRead (items : List Json) (fuel : Nat) (rest : List Char) (filled : items ≠ []) (long : (itemChars items).length < fuel) :
    ∃ found, items? fuel (itemChars items ++ ']' :: rest) = some (found, rest) ∧ (areSafe items → found = storedItems items) := by
  cases fuel with
  | zero => cases long
  | succ fuel =>
    cases items with
    | nil => exact absurd rfl filled
    | cons item others =>
      obtain ⟨itemLong, othersLong⟩ := itemsLong item others
      obtain ⟨k, read, same⟩ := valueReads item fuel (itemsAfter others rest) (by omega) (itemsFollow others rest)
      rw [itemsCons, items?, read]
      cases others with
      | nil => exact ⟨[k], rfl, fun safe => congrArg ([·]) (same ((Bool.and_eq_true ..).mp safe).1)⟩
      | cons next others =>
        have shorter := othersLong nofun
        obtain ⟨found, again, sameOthers⟩ := itemsRead (next :: others) fuel rest nofun (by omega)
        refine ⟨k :: found, ?_, fun safe => ?_⟩
        · show (items? fuel (itemChars (next :: others) ++ ']' :: rest)).bind (fun x => some (k :: x.1, x.2)) = _
          rw [again]
          rfl
        · obtain ⟨safeItem, safeOthers⟩ := (Bool.and_eq_true ..).mp safe
          rw [same safeItem, sameOthers safeOthers]
          rfl
termination_by structural items

theorem membersRead (members : List (String × Json)) (fuel : Nat) (rest : List Char) (filled : members ≠ [])
    (long : (memberChars members).length < fuel) :
    ∃ found, members? fuel (memberChars members ++ '\x7d' :: rest) = some (found, rest) ∧
      (membersSafe members → found = storedMembers members) := by
  cases fuel with
  | zero => cases long
  | succ fuel =>
    cases members with
    | nil => exact absurd rfl filled
    | cons member others =>
      obtain ⟨name, value⟩ := member
      obtain ⟨valueLong, othersLong⟩ := membersLong name value others
      obtain ⟨k, read, same⟩ := valueReads value fuel (membersAfter others rest) (by omega) (membersFollow others rest)
      obtain ⟨t, named, sameName⟩ := textReads name (':' :: (value.chars ++ membersAfter others rest))
      have colon : skipGaps (':' :: (value.chars ++ membersAfter others rest)) = ':' :: (value.chars ++ membersAfter others rest) := rfl
      have first (safe : membersSafe ((name, value) :: others)) : (t, k) = (name, value.stored) := by
        obtain ⟨joined, safeValue⟩ := (Bool.and_eq_true ..).mp ((Bool.and_eq_true ..).mp safe).1
        rw [sameName joined, same safeValue]
      rw [membersCons, members?, skipFirst rfl]
      simp only [named, Option.bind_eq_bind, Option.bind_some, colon, read]
      cases others with
      | nil => exact ⟨[(t, k)], rfl, fun safe => congrArg ([·]) (first safe)⟩
      | cons next others =>
        have shorter := othersLong nofun
        obtain ⟨found, again, sameOthers⟩ := membersRead (next :: others) fuel rest nofun (by omega)
        refine ⟨(t, k) :: found, ?_, fun safe => ?_⟩
        · show (members? fuel (memberChars (next :: others) ++ '\x7d' :: rest)).bind (fun x => some ((t, k) :: x.1, x.2)) = _
          rw [again]
          rfl
        · rw [first safe, sameOthers ((Bool.and_eq_true ..).mp safe).2]
          rfl
termination_by structural members

end

/-- The text of a document is read as a document, and that of a safe one as the document it denotes. -/
theorem printReads (j : Json) : ∃ k, read? j.print = some k ∧ (j.isSafe → k = j.stored) := by
  obtain ⟨k, read, same⟩ := valueReads j (j.chars.length + 1) [] (Nat.le_succ _) nofun
  rw [List.append_nil] at read
  refine ⟨k, ?_, same⟩
  unfold read? print
  rw [String.toList_ofList]
  dsimp only
  rw [read]
  rfl

theorem readBack {j : Json} (safe : j.isSafe) : read? j.print = some j.stored := by
  obtain ⟨k, read, same⟩ := printReads j
  rw [read, same safe]

end Documents

end EntityQuery.Json
