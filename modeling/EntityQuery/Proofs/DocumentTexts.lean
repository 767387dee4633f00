import EntityQuery.Proofs.CanonicalTexts
/-! The text of a document tells where it ends. Two documents whose texts are followed by a comma, a bracket or nothing have
one text if the whole texts agree, so lists agree item by item and objects member by member. -/

namespace EntityQuery

namespace Text

/-- Texts of one kind of characters that are followed by another one are cut at the same place. -/
theorem cutOnce {p : Char → Bool} {as bs r s : List Char} (ha : ∀ c ∈ as, p c) (hb : ∀ c ∈ bs, p c)
    (hr : ∀ c ∈ r.head?, p c = false) (hs : ∀ c ∈ s.head?, p c = false) (same : as ++ r = bs ++ s) : as = bs ∧ r = s := by
  have stopped {l : List Char} (stop : ∀ c ∈ l.head?, p c = false) : l.takeWhile p = [] := by
    cases l with
    | nil => rfl
    | cons c l => simp [stop c rfl]
  have taken := congrArg (List.takeWhile p) same
  rw [List.takeWhile_append_of_pos ha, List.takeWhile_append_of_pos hb, stopped hr, stopped hs] at taken
  obtain rfl : as = bs := by simpa using taken
  exact ⟨rfl, List.append_cancel_left same⟩

end Text

namespace Number

def isTextChar (c : Char) : Bool := c.isDigit || c == '-' || c == '+' || c == '.' || c == 'e'

theorem digitIsText {c : Char} (digit : c.isDigit) : isTextChar c := by
  simp [isTextChar, digit]

theorem naturalText (n : Nat) : ∀ c ∈ Nat.toDigits 10 n, isTextChar c :=
  fun c mem => digitIsText (naturalDigits n c mem)

theorem layOutChars {d : Digits} (digits : ∀ c ∈ d.digits, c.isDigit) (layout : Layout) : ∀ c ∈ d.layOut layout, isTextChar c := by
  have part {l : List Char} (sub : ∀ c ∈ l, c ∈ d.digits) : ∀ c ∈ l, isTextChar c :=
    fun c mem => digitIsText (digits c (sub c mem))
  have zeros (k : Nat) : ∀ c ∈ List.replicate k '0', isTextChar c := fun c mem => by
    rw [List.eq_of_mem_replicate mem]
    rfl
  have joined {as bs : List Char} (ha : ∀ c ∈ as, isTextChar c) (hb : ∀ c ∈ bs, isTextChar c) : ∀ c ∈ as ++ bs, isTextChar c :=
    List.forall_mem_append.mpr ⟨ha, hb⟩
  have next {c : Char} {cs : List Char} (hc : isTextChar c) (hcs : ∀ c ∈ cs, isTextChar c) : ∀ d ∈ c :: cs, isTextChar d :=
    List.forall_mem_cons.mpr ⟨hc, hcs⟩
  have whole := part fun _ mem => mem
  unfold Digits.layOut
  dsimp only
  split_ifs
  · exact next rfl (next rfl (joined (zeros _) whole))
  · exact joined whole (zeros _)
  · exact joined (part fun _ mem => List.mem_of_mem_take mem) (next rfl (part fun _ mem => List.mem_of_mem_drop mem))
  all_goals
    refine joined ?_ (next rfl (next rfl (naturalText _)))
    split
    · simp
    · next written => exact written ▸ whole
    · next written =>
      rw [written] at whole
      obtain ⟨first, others⟩ := List.forall_mem_cons.mp whole
      exact next first (next rfl others)

theorem layOutSome (d : Digits) (layout : Layout) : d.layOut layout ≠ [] := by
  unfold Digits.layOut
  dsimp only
  split_ifs with plain before within
  · simp
  · have : 0 < d.point.toNat := by omega
    cases digits : d.digits with
    | nil => simp; omega
    | cons c cs => simp
  all_goals simp

theorem intTextChars (n : Int) : (∀ c ∈ (intText n).toList, isTextChar c) ∧ (intText n).toList ≠ [] := by
  rw [intChars]
  split
  · exact ⟨List.forall_mem_cons.mpr ⟨rfl, naturalText _⟩, nofun⟩
  · exact ⟨naturalText _, Nat.toDigits_ne_nil⟩

theorem magnitudeChars (negative : Prop) [Decidable negative] (numerator denominator : Nat) :
    let digits := magnitudeText numerator denominator
    let shown := String.ofList (if negative then '-' :: digits else digits)
    (∀ c ∈ shown.toList, isTextChar c) ∧ shown.toList ≠ [] := by
  have chars := layOutChars (shortestDigits numerator denominator) .standard
  dsimp only
  rw [String.toList_ofList]
  split
  · exact ⟨List.forall_mem_cons.mpr ⟨rfl, chars⟩, nofun⟩
  · exact ⟨chars, layOutSome _ _⟩

/-- A finite number is written with digits, signs, a point and the mark of the exponent. -/
theorem finiteChars {n : Number} (finite : n.isFinite) : (∀ c ∈ n.toText.toList, isTextChar c) ∧ n.toText.toList ≠ [] := by
  unfold toText
  cases n with
  | integer n =>
    dsimp only
    split
    · exact intTextChars n
    · exact magnitudeChars _ _ _
  | fraction n k => exact magnitudeChars _ _ _
  | negativeZero => exact ⟨List.all_eq_true.mp rfl, by decide⟩
  | infinity _ | nan => cases finite

end Number

namespace Json

section Single

variable {r s : List Char} {j k : Json}

/-- What may stand after a value in a document. -/
def isMark (c : Char) : Bool := c == ',' || c == ']' || c == '\x7d'

def isOpener (c : Char) : Bool := c == '"' || c == '[' || c == '\x7b'

/-- The first character of texts, lists and objects. -/
def opener : Json → Option Char
  | .text _ => some '"'
  | .array _ => some '['
  | .object _ => some '\x7b'
  | _ => none

theorem followsMarks (follows : Follows r) : ∀ c ∈ r.head?, (!isMark c) = false := by
  intro c head
  rcases follows c head with rfl | rfl | rfl <;> rfl

theorem textCharInside {c : Char} (text : Number.isTextChar c) : isMark c = false ∧ isOpener c = false := by
  have apart {d : Char} (other : Number.isTextChar d = false) : (c == d) = false := by
    rw [beq_eq_false_iff_ne]
    rintro rfl
    rw [text] at other
    cases other
  simp only [isMark, isOpener, apart (d := ',') rfl, apart (d := ']') rfl, apart (d := '\x7d') rfl, apart (d := '"') rfl,
    apart (d := '[') rfl, apart (d := '\x7b') rfl, Bool.or_self, and_self]

theorem numberNoWord {n : Number} (finite : n.isFinite) {c : Char} {cs : List Char} (letter : Number.isTextChar c = false) :
    numberChars n ≠ c :: cs := by
  intro written
  unfold numberChars at written
  rw [if_pos finite] at written
  have text := (Number.finiteChars finite).1 c (written ▸ List.mem_cons_self)
  rw [letter] at text
  cases text

theorem insideOfAll {cs : List Char} (all : (cs.all fun c => !isMark c && !isOpener c) = true) :
    ∀ c ∈ cs, isMark c = false ∧ isOpener c = false := by
  simpa using all

/-- A value without an opening character is written without any character that ends a value. -/
theorem bareInside (bare : j.opener = none) : (∀ c ∈ j.chars, isMark c = false ∧ isOpener c = false) ∧ j.chars ≠ [] := by
  cases j with
  | null => exact ⟨insideOfAll rfl, by decide⟩
  | bool b => cases b <;> exact ⟨insideOfAll rfl, by decide⟩
  | number n =>
    show (∀ c ∈ numberChars n, _) ∧ numberChars n ≠ []
    unfold numberChars
    split
    · next finite =>
      obtain ⟨chars, some⟩ := Number.finiteChars finite
      exact ⟨fun c mem => textCharInside (chars c mem), some⟩
    · exact ⟨insideOfAll rfl, by decide⟩
  | _ => cases bare

theorem firstChar (j : Json) :
    ∃ c cs, j.chars = c :: cs ∧ isMark c = false ∧ j.opener = if isOpener c then some c else none := by
  cases opened : j.opener with
  | none =>
    obtain ⟨inside, some⟩ := bareInside opened
    obtain ⟨c, cs, written⟩ := List.exists_cons_of_ne_nil some
    obtain ⟨mark, opens⟩ := inside c (written ▸ List.mem_cons_self)
    exact ⟨c, cs, written, mark, by simp [opens]⟩
  | some o =>
    cases j with
    | text _ | array _ | object _ =>
      cases opened
      exact ⟨_, _, rfl, rfl, rfl⟩
    | _ => cases opened

theorem sameOpener (same : j.chars ++ r = k.chars ++ s) : j.opener = k.opener := by
  obtain ⟨c, cs, written, -, opens⟩ := firstChar j
  obtain ⟨d, ds, others, -, opensOther⟩ := firstChar k
  rw [written, others] at same
  obtain ⟨rfl, -⟩ := List.cons.inj same
  exact opens.trans opensOther.symm

theorem bareOnce (bareLeft : j.opener = none) (bareRight : k.opener = none) (hr : Follows r) (hs : Follows s)
    (same : j.chars ++ r = k.chars ++ s) : j.chars = k.chars := by
  have inside {i : Json} (bare : i.opener = none) : ∀ c ∈ i.chars, (!isMark c) = true := by
    intro c mem
    simp [((bareInside bare).1 c mem).1]
  exact (Text.cutOnce (inside bareLeft) (inside bareRight) (followsMarks hr) (followsMarks hs) same).1

/-- A text is read up to its own closing mark. -/
theorem bodyOnce {a b : String} (same : a.toList.flatMap escaped ++ '"' :: r = b.toList.flatMap escaped ++ '"' :: s) :
    a = b ∧ r = s := by
  have body {cs : List Char} {most : Nat} (rest : List Char) (long : cs.length ≤ most) :
      textBody? (most + 1) (cs.flatMap escaped ++ '"' :: rest) = some (cs, rest) := bodyBack (Nat.lt_succ_of_le long)
  have first := body r (Nat.le_max_left a.toList.length b.toList.length)
  have second := body s (Nat.le_max_right a.toList.length b.toList.length)
  rw [same, second] at first
  obtain ⟨texts, rest⟩ := Prod.mk.inj (Option.some.inj first)
  exact ⟨String.toList_injective texts.symm, rest.symm⟩

end Single

section Whole

mutual

/-- By induction on the first document: its text ends where the text of any other that begins the same way does. -/
theorem charsOnce (j k : Json) (r s : List Char) (hr : Follows r) (hs : Follows s) (same : j.chars ++ r = k.chars ++ s) :
    j.chars = k.chars := by
  have opener := sameOpener same
  cases j with
  | null | bool _ | number _ => exact bareOnce rfl opener.symm hr hs same
  | text a =>
    cases k with
    | text b =>
      have body : a.toList.flatMap escaped ++ '"' :: r = b.toList.flatMap escaped ++ '"' :: s := by
        simpa [chars, quoted] using same
      rw [(bodyOnce body).1]
    | _ => cases opener
  | array items =>
    cases k with
    | array others =>
      have alike := itemsOnce items others r s (by simpa [chars] using same)
      rw [chars, chars, itemsAlike alike]
    | _ => cases opener
  | object members =>
    cases k with
    | object others =>
      have alike := membersOnce members others r s (by simpa [chars] using same)
      rw [chars, chars, charsAlike alike]
    | _ => cases opener
termination_by structural j

theorem itemsOnce (items others : List Json) (r s : List Char)
    (same : itemChars items ++ ']' :: r = itemChars others ++ ']' :: s) : items.map chars = others.map chars := by
  have unclosed (i : Json) (more : List Json) (rest tail : List Char) : ']' :: rest ≠ itemChars (i :: more) ++ ']' :: tail := by
    obtain ⟨c, cs, written, mark, -⟩ := firstChar i
    rw [itemsCons, written]
    rintro ⟨⟩
    cases mark
  cases items with
  | nil =>
    cases others with
    | nil => rfl
    | cons other more => exact absurd same (unclosed other more r s)
  | cons item rest =>
    cases others with
    | nil => exact absurd same.symm (unclosed item rest s r)
    | cons other more =>
      rw [itemsCons, itemsCons] at same
      have here := charsOnce item other _ _ (itemsFollow rest r) (itemsFollow more s) same
      rw [here] at same
      have after := List.append_cancel_left same
      cases rest with
      | nil =>
        cases more with
        | nil => exact congrArg (fun cs => [cs]) here
        | cons _ _ => cases after
      | cons next rest =>
        cases more with
        | nil => cases after
        | cons following more =>
          exact congrArg₂ List.cons here (itemsOnce (next :: rest) (following :: more) r s (List.cons.inj after).2)
termination_by structural items

theorem membersOnce (members others : List (String × Json)) (r s : List Char)
    (same : memberChars members ++ '\x7d' :: r = memberChars others ++ '\x7d' :: s) : List.Forall₂ Alike members others := by
  cases members with
  | nil =>
    cases others with
    | nil => exact .nil
    | cons other more =>
      rw [membersCons] at same
      cases same
  | cons member rest =>
    obtain ⟨name, v⟩ := member
    cases others with
    | nil =>
      rw [membersCons] at same
      cases same
    | cons other more =>
      obtain ⟨title, w⟩ := other
      rw [membersCons, membersCons] at same
      obtain ⟨rfl, colon⟩ := bodyOnce (List.cons.inj same).2
      have values := (List.cons.inj colon).2
      have here := charsOnce v w _ _ (membersFollow rest r) (membersFollow more s) values
      rw [here] at values
      have after := List.append_cancel_left values
      cases rest with
      | nil =>
        cases more with
        | nil => exact .cons ⟨rfl, here⟩ .nil
        | cons _ _ => cases after
      | cons next rest =>
        cases more with
        | nil => cases after
        | cons following more =>
          exact .cons ⟨rfl, here⟩ (membersOnce (next :: rest) (following :: more) r s (List.cons.inj after).2)
termination_by structural members

end

theorem openerOnce {j k : Json} (same : j.chars = k.chars) : j.opener = k.opener :=
  sameOpener (r := []) (s := []) (congrArg (· ++ []) same)

theorem arrayOnce {items others : List Json} (same : chars (.array items) = chars (.array others)) :
    items.map chars = others.map chars :=
  itemsOnce items others [] [] (by simpa [chars] using same)

theorem objectOnce {members others : List (String × Json)} (same : chars (.object members) = chars (.object others)) :
    List.Forall₂ Alike members others :=
  membersOnce members others [] [] (by simpa [chars] using same)

end Whole

end Json

end EntityQuery
