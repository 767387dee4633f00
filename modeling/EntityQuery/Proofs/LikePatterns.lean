import EntityQuery.Proofs.KeyTexts
import EntityQuery.Sql.Like
import EntityQuery.Store.Document
/-! What a LIKE pattern matches. The rules are given for any alphabet, so that they hold of the units of texts and of
their characters alike. A pattern is built from a text by a backslash before every mark in it; such a pattern matches
that text and no other, and with `%` before or after it the texts in which it occurs. -/

namespace EntityQuery

/-- The marks of patterns in an alphabet: any text, any one letter, and the next letter taken literally. -/
structure Wildcards (α : Type) where
  run : α
  one : α
  escape : α
  runEscape : run ≠ escape
  oneEscape : one ≠ escape
  runOne : run ≠ one

namespace Wildcards

def chars : Wildcards Char := ⟨'%', '_', '\\', by decide, by decide, by decide⟩

def units : Wildcards Nat := ⟨0x25, 0x5F, 0x5C, by decide, by decide, by decide⟩

variable {α : Type} [DecidableEq α]

def isMark (m : Wildcards α) (c : α) : Bool := c == m.escape || c == m.run || c == m.one

/-- A text as a pattern, each mark after an escape. -/
def literal (m : Wildcards α) (text : List α) : List α := text.flatMap fun c => if m.isMark c then [m.escape, c] else [c]

def pattern (m : Wildcards α) (o : Occurrence) (part : List α) : List α :=
  match o with
  | .contains => m.run :: (m.literal part ++ [m.run])
  | .startsWith => m.literal part ++ [m.run]
  | .endsWith => m.run :: m.literal part

end Wildcards

/-- A pattern and a text that it matches. -/
inductive Like {α : Type} (m : Wildcards α) : List α → List α → Prop where
  | done : Like m [] []
  | run {p t : List α} (skipped : List α) (rest : Like m p t) : Like m (m.run :: p) (skipped ++ t)
  | one {p t : List α} (c : α) (rest : Like m p t) : Like m (m.one :: p) (c :: t)
  | escaped {p t : List α} (c : α) (rest : Like m p t) : Like m (m.escape :: c :: p) (c :: t)
  | plain {p t : List α} {c : α} (run : c ≠ m.run) (one : c ≠ m.one) (escape : c ≠ m.escape) (rest : Like m p t) :
      Like m (c :: p) (c :: t)

namespace Like

variable {α : Type} {m : Wildcards α}

theorem ofEscape {c : α} {p t : List α} (found : Like m (m.escape :: c :: p) t) : ∃ u, t = c :: u ∧ Like m p u := by
  generalize pattern : m.escape :: c :: p = q at found
  cases found with
  | done => cases pattern
  | run skipped rest => exact absurd (List.cons.inj pattern).1.symm m.runEscape
  | one d rest => exact absurd (List.cons.inj pattern).1.symm m.oneEscape
  | escaped d rest =>
    obtain ⟨-, same⟩ := List.cons.inj pattern
    obtain ⟨rfl, rfl⟩ := List.cons.inj same
    exact ⟨_, rfl, rest⟩
  | plain _ _ escape rest => exact absurd (List.cons.inj pattern).1.symm escape

theorem ofPlain {c : α} {p t : List α} (run : c ≠ m.run) (one : c ≠ m.one) (escape : c ≠ m.escape)
    (found : Like m (c :: p) t) : ∃ u, t = c :: u ∧ Like m p u := by
  cases found with
  | run => exact absurd rfl run
  | one => exact absurd rfl one
  | escaped => exact absurd rfl escape
  | plain _ _ _ rest => exact ⟨_, rfl, rest⟩

theorem ofRun {p t : List α} (found : Like m (m.run :: p) t) :
    ∃ skipped u, t = skipped ++ u ∧ Like m p u := by
  generalize pattern : m.run :: p = q at found
  cases found with
  | done => cases pattern
  | run skipped rest =>
    obtain ⟨-, rfl⟩ := List.cons.inj pattern
    exact ⟨skipped, _, rfl, rest⟩
  | one d rest => exact absurd (List.cons.inj pattern).1 m.runOne
  | escaped d rest => exact absurd (List.cons.inj pattern).1 m.runEscape
  | plain run _ _ rest => exact absurd (List.cons.inj pattern).1.symm run

theorem doneOnly {t : List α} (found : Like m [] t) : t = [] := by
  cases found
  rfl

/-- A text taken literally matches itself; what is left goes to the rest of the pattern. -/
theorem literalRest [DecidableEq α] {text p t : List α} :
    Like m (m.literal text ++ p) t ↔ ∃ u, t = text ++ u ∧ Like m p u := by
  induction text generalizing t with
  | nil => exact ⟨fun found => ⟨t, rfl, found⟩, fun ⟨u, same, found⟩ => same ▸ found⟩
  | cons c text ih =>
    -- A mark is met after its escape, any other letter as it stands.
    have first : Like m (m.literal (c :: text) ++ p) t ↔ ∃ u, t = c :: u ∧ Like m (m.literal text ++ p) u := by
      unfold Wildcards.literal
      rw [List.flatMap_cons, List.append_assoc]
      cases mark : m.isMark c with
      | true => exact ⟨ofEscape, fun ⟨u, same, found⟩ => same ▸ escaped c found⟩
      | false =>
        unfold Wildcards.isMark at mark
        rw [Bool.or_eq_false_iff, Bool.or_eq_false_iff, beq_eq_false_iff_ne, beq_eq_false_iff_ne, beq_eq_false_iff_ne] at mark
        obtain ⟨⟨escape, run⟩, one⟩ := mark
        exact ⟨ofPlain run one escape, fun ⟨u, same, found⟩ => same ▸ plain run one escape found⟩
    rw [first]
    constructor
    · rintro ⟨_, rfl, rest⟩
      obtain ⟨u, rfl, last⟩ := ih.mp rest
      exact ⟨u, rfl, last⟩
    · rintro ⟨u, rfl, found⟩
      exact ⟨text ++ u, rfl, ih.mpr ⟨u, rfl, found⟩⟩

theorem runAll {t : List α} : Like m [m.run] t := by
  have found := run (m := m) t .done
  rwa [List.append_nil] at found

/-- A literal text matches no other. -/
theorem literalOnly [DecidableEq α] {text t : List α} : Like m (m.literal text) t ↔ t = text := by
  rw [← List.append_nil (m.literal text), literalRest]
  constructor
  · rintro ⟨u, rfl, found⟩
    rw [doneOnly found, List.append_nil]
  · rintro rfl
    exact ⟨[], (List.append_nil t).symm, .done⟩

end Like

namespace Occurrence

/-- Does a text occur in another, over any alphabet? -/
def Holds {α : Type} (o : Occurrence) (part subject : List α) : Prop :=
  match o with
  | .contains => part <:+: subject
  | .startsWith => part <+: subject
  | .endsWith => part <:+ subject

/-- The pattern of an occurrence matches the texts that have it. -/
theorem patternHolds {α : Type} [DecidableEq α] {m : Wildcards α} {part subject : List α} (o : Occurrence) :
    Like m (m.pattern o part) subject ↔ o.Holds part subject := by
  cases o with
  | contains =>
    constructor
    · intro found
      obtain ⟨skipped, _, rfl, rest⟩ := Like.ofRun found
      obtain ⟨u, rfl, -⟩ := Like.literalRest.mp rest
      exact ⟨skipped, u, List.append_assoc _ _ _⟩
    · rintro ⟨skipped, u, rfl⟩
      rw [List.append_assoc]
      exact .run skipped (Like.literalRest.mpr ⟨u, rfl, .runAll⟩)
  | startsWith =>
    constructor
    · intro found
      obtain ⟨u, rfl, -⟩ := Like.literalRest.mp found
      exact ⟨u, rfl⟩
    · rintro ⟨u, rfl⟩
      exact Like.literalRest.mpr ⟨u, rfl, .runAll⟩
  | endsWith =>
    constructor
    · intro found
      obtain ⟨skipped, _, rfl, rest⟩ := Like.ofRun found
      rw [Like.literalOnly.mp rest]
      exact ⟨skipped, rfl⟩
    · rintro ⟨skipped, rfl⟩
      exact .run skipped (Like.literalOnly.mpr rfl)

end Occurrence

namespace Text

theorem containsInfix {part subject : List Nat} : contains part subject = true ↔ part <:+: subject := by
  induction subject with
  | nil =>
    unfold contains
    rw [List.isEmpty_iff, List.infix_nil]
  | cons c rest ih =>
    unfold contains
    rw [Bool.or_eq_true_iff, List.isPrefixOf_iff_prefix, ih, List.infix_cons_iff]

/-- Does no half of a pair stand alone? -/
def isWhole (cs : List Char) : Bool := cs.all fun c => (half? c).isNone

/-- A whole character has one unit outside the halves, or both halves of a pair. -/
theorem wholeUnits {c : Char} (whole : (half? c).isNone) :
    (unitsOf c = [c.toNat] ∧ (c.toNat < 0xD800 ∨ 0xDFFF < c.toNat)) ∨
      ∃ high low, unitsOf c = [high, low] ∧ 0xD800 ≤ high ∧ high < 0xDC00 ∧ 0xDC00 ≤ low ∧ low ≤ 0xDFFF ∧
        c.toNat = 0x10000 + (high - 0xD800) * 0x400 + (low - 0xDC00) := by
  rcases unitsCases c with alone | ⟨u, -, half, -⟩ | both
  · exact .inl alone
  · rw [half] at whole
    cases whole
  · exact .inr both

/-- Units that start with a whole character start with one only. -/
theorem wholeFirst {c d : Char} (hc : (half? c).isNone) (hd : (half? d).isNone) {s t : List Nat}
    (same : unitsOf c ++ s = unitsOf d ++ t) : c = d ∧ s = t := by
  have equal : c.toNat = d.toNat → c = d ∧ s = t := by
    intro numbers
    obtain rfl := Char.toNat_inj.mp numbers
    exact ⟨rfl, List.append_cancel_left same⟩
  rcases wholeUnits hc with ⟨cUnits, plain⟩ | ⟨high, low, cUnits, least, lead, trail, most, place⟩
  · rcases wholeUnits hd with ⟨dUnits, -⟩ | ⟨high, low, dUnits, least, lead, -⟩
    · rw [cUnits, dUnits] at same
      exact equal (List.cons.inj same).1
    · rw [cUnits, dUnits] at same
      have first := (List.cons.inj same).1
      omega
  · rcases wholeUnits hd with ⟨dUnits, plain⟩ | ⟨high', low', dUnits, -, -, -, -, place'⟩
    · rw [cUnits, dUnits] at same
      have first := (List.cons.inj same).1
      omega
    · rw [cUnits, dUnits] at same
      obtain ⟨rfl, next⟩ := List.cons.inj same
      obtain ⟨rfl, -⟩ := List.cons.inj next
      exact equal (place.trans place'.symm)

theorem wholeCons {c : Char} {cs : List Char} (whole : isWhole (c :: cs)) : (half? c).isNone ∧ isWhole cs :=
  Bool.and_eq_true_iff.mp whole

theorem unitsNone {cs : List Char} (none : cs.flatMap unitsOf = []) : cs = [] := by
  cases cs with
  | nil => rfl
  | cons c cs =>
    rw [List.flatMap_cons] at none
    rcases unitsCases c with ⟨units, -⟩ | ⟨_, units, -⟩ | ⟨_, _, units, -⟩ <;> rw [units] at none <;> cases none

/-- Units that a whole text starts with are those of characters it starts with. -/
theorem wholeStart {part subject : List Char} (hp : isWhole part) (hs : isWhole subject) {u : List Nat}
    (start : subject.flatMap unitsOf = part.flatMap unitsOf ++ u) : ∃ rest, subject = part ++ rest ∧ rest.flatMap unitsOf = u := by
  induction part generalizing subject with
  | nil => exact ⟨subject, rfl, start⟩
  | cons d part ih =>
    cases subject with
    | nil =>
      obtain ⟨none, -⟩ := List.append_eq_nil_iff.mp start.symm
      cases unitsNone none
    | cons c subject =>
      obtain ⟨wholeD, wholePart⟩ := wholeCons hp
      obtain ⟨wholeC, wholeSubject⟩ := wholeCons hs
      rw [List.flatMap_cons, List.flatMap_cons, List.append_assoc] at start
      obtain ⟨rfl, next⟩ := wholeFirst wholeC wholeD start
      obtain ⟨rest, rfl, after⟩ := ih wholePart wholeSubject next
      exact ⟨rest, rfl, after⟩

/-- Units that occur in a whole text are those of characters that occur in it, for an occurrence never starts within a
pair. -/
theorem wholeWithin {d : Char} {part subject : List Char} (hp : isWhole (d :: part)) (hs : isWhole subject) {s u : List Nat}
    (within : subject.flatMap unitsOf = s ++ (d :: part).flatMap unitsOf ++ u) :
    ∃ before rest, subject = before ++ (d :: part) ++ rest ∧ before.flatMap unitsOf = s ∧ rest.flatMap unitsOf = u := by
  induction subject generalizing s with
  | nil =>
    obtain ⟨none, -⟩ := List.append_eq_nil_iff.mp within.symm
    obtain ⟨-, none⟩ := List.append_eq_nil_iff.mp none
    cases unitsNone none
  | cons c subject ih =>
    have here : s = [] → ∃ before rest, c :: subject = before ++ (d :: part) ++ rest ∧
        before.flatMap unitsOf = s ∧ rest.flatMap unitsOf = u := by
      rintro rfl
      obtain ⟨rest, same, after⟩ := wholeStart hp hs within
      exact ⟨[], rest, same, rfl, after⟩
    have later {t : List Nat} (skipped : s = unitsOf c ++ t)
        (left : subject.flatMap unitsOf = t ++ (d :: part).flatMap unitsOf ++ u) :
        ∃ before rest, c :: subject = before ++ (d :: part) ++ rest ∧ before.flatMap unitsOf = s ∧ rest.flatMap unitsOf = u := by
      obtain ⟨before, rest, rfl, front, after⟩ := ih (wholeCons hs).2 left
      exact ⟨c :: before, rest, rfl, by rw [List.flatMap_cons, front, skipped], after⟩
    cases s with
    | nil => exact here rfl
    | cons unit s =>
      rw [List.flatMap_cons] at within
      rcases wholeUnits (wholeCons hs).1 with ⟨units, -⟩ | ⟨high, low, units, -, -, trail, most, -⟩
      · rw [units] at within
        obtain ⟨rfl, rest⟩ := List.cons.inj within
        exact later (by rw [units]; rfl) rest
      · rw [units] at within
        obtain ⟨rfl, next⟩ := List.cons.inj within
        cases s with
        | nil =>
          rw [List.flatMap_cons] at next
          rcases wholeUnits (wholeCons hp).1 with ⟨first, plain⟩ | ⟨lead, _, first, -, below, -⟩ <;> rw [first] at next
          · obtain ⟨same, -⟩ := List.cons.inj next
            omega
          · obtain ⟨same, -⟩ := List.cons.inj next
            omega
        | cons second s =>
          obtain ⟨rfl, rest⟩ := List.cons.inj next
          exact later (by rw [units]; rfl) rest

/-- Occurrence in a whole text is the same by units and by characters. -/
theorem wholeHolds (o : Occurrence) {part subject : List Char} (hp : isWhole part) (hs : isWhole subject) :
    o.Holds (part.flatMap unitsOf) (subject.flatMap unitsOf) ↔ o.Holds part subject := by
  cases part with
  | nil =>
    cases o with
    | contains => exact iff_of_true List.nil_infix List.nil_infix
    | startsWith => exact iff_of_true List.nil_prefix List.nil_prefix
    | endsWith => exact iff_of_true List.nil_suffix List.nil_suffix
  | cons d part =>
    cases o with
    | contains =>
      constructor
      · rintro ⟨s, u, within⟩
        obtain ⟨before, rest, rfl, -⟩ := wholeWithin hp hs within.symm
        exact ⟨before, rest, rfl⟩
      · rintro ⟨before, rest, rfl⟩
        exact ⟨before.flatMap unitsOf, rest.flatMap unitsOf, by rw [List.flatMap_append, List.flatMap_append]⟩
    | startsWith =>
      constructor
      · rintro ⟨u, start⟩
        obtain ⟨rest, rfl, -⟩ := wholeStart hp hs start.symm
        exact ⟨rest, rfl⟩
      · rintro ⟨rest, rfl⟩
        exact ⟨rest.flatMap unitsOf, by rw [List.flatMap_append]⟩
    | endsWith =>
      constructor
      · rintro ⟨s, finish⟩
        have within := finish.symm
        rw [← List.append_nil (s ++ _)] at within
        obtain ⟨before, rest, rfl, -, after⟩ := wholeWithin hp hs within
        rw [unitsNone after, List.append_nil]
        exact ⟨before, rfl⟩
      · rintro ⟨before, rfl⟩
        exact ⟨before.flatMap unitsOf, by rw [List.flatMap_append]⟩

end Text

theorem Store.occursHolds (o : Occurrence) {part subject : List Char} :
    Store.occurs o part subject = true ↔ o.Holds (part.flatMap Text.unitsOf) (subject.flatMap Text.unitsOf) := by
  cases o with
  | contains => exact Text.containsInfix
  | startsWith => exact List.isPrefixOf_iff_prefix
  | endsWith => exact List.isSuffixOf_iff_suffix

namespace Sql

theorem literalChars (part : String) : (escapeLike part).toList = Wildcards.chars.literal part.toList :=
  String.toList_ofList

/-- A mark is one unit, and no other character has a unit that is a mark. -/
theorem literalUnit (c : Char) : (Wildcards.chars.literal [c]).flatMap Text.unitsOf = Wildcards.units.literal (Text.unitsOf c) := by
  have literal : Wildcards.chars.literal [c] = if Wildcards.chars.isMark c then ['\\', c] else [c] := List.append_nil _
  cases mark : Wildcards.chars.isMark c with
  | true =>
    unfold Wildcards.isMark at mark
    rw [Bool.or_eq_true_iff, Bool.or_eq_true_iff, beq_iff_eq, beq_iff_eq, beq_iff_eq] at mark
    obtain (rfl | rfl) | rfl := mark <;> rfl
  | false =>
    rw [literal, mark, if_neg Bool.false_ne_true, List.flatMap_singleton]
    unfold Wildcards.isMark at mark
    rw [Bool.or_eq_false_iff, Bool.or_eq_false_iff, beq_eq_false_iff_ne, beq_eq_false_iff_ne, beq_eq_false_iff_ne] at mark
    obtain ⟨⟨escape, run⟩, one⟩ := mark
    have other {u : Nat} (unit : u = c.toNat ∨ 0xD800 ≤ u) : Wildcards.units.isMark u = false := by
      have units : ∀ d ∈ ['\\', '%', '_'], c ≠ d → u ≠ d.toNat := by
        intro d mark apart same
        rcases unit with rfl | surrogate
        · exact apart (Char.toNat_inj.mp same)
        · simp only [List.mem_cons, List.not_mem_nil, or_false] at mark
          obtain rfl | rfl | rfl := mark <;> subst same <;> revert surrogate <;> decide
      unfold Wildcards.isMark
      rw [Bool.or_eq_false_iff, Bool.or_eq_false_iff, beq_eq_false_iff_ne, beq_eq_false_iff_ne, beq_eq_false_iff_ne]
      exact ⟨⟨units '\\' (by decide) escape, units '%' (by decide) run⟩, units '_' (by decide) one⟩
    unfold Wildcards.literal
    rcases Text.unitsCases c with ⟨units, -⟩ | ⟨u, units, -, half, -⟩ | ⟨high, low, units, lead, -, trail, -⟩ <;> rw [units]
    · rw [List.flatMap_singleton, other (.inl rfl), if_neg Bool.false_ne_true]
    · rw [List.flatMap_singleton, other (.inr half), if_neg Bool.false_ne_true]
    · rw [List.flatMap_cons, List.flatMap_singleton, other (.inr lead), other (.inr (by omega))]
      rfl

theorem literalUnits (part : String) : Text.units (escapeLike part) = Wildcards.units.literal (Text.units part) := by
  unfold Text.units
  rw [literalChars]
  induction part.toList with
  | nil => rfl
  | cons c cs ih =>
    have front : Wildcards.chars.literal ([c] ++ cs) = Wildcards.chars.literal [c] ++ Wildcards.chars.literal cs := List.flatMap_append
    rw [← List.singleton_append, front, List.flatMap_append, ih, literalUnit, List.flatMap_append, List.flatMap_singleton]
    exact List.flatMap_append.symm

theorem patternChars (o : Occurrence) (part : String) :
    (occurrencePattern o part).toList = Wildcards.chars.pattern o part.toList := by
  cases o <;> unfold occurrencePattern <;> simp only [String.toList_append, literalChars] <;> rfl

theorem patternUnits (o : Occurrence) (part : String) :
    Text.units (occurrencePattern o part) = Wildcards.units.pattern o (Text.units part) := by
  unfold Wildcards.pattern
  rw [← literalUnits]
  unfold Text.units occurrencePattern
  cases o <;> simp only [String.toList_append, List.flatMap_append] <;> rfl

/-- The pattern of a text match matches, by units and between whole texts by characters, exactly the texts that
the match accepts. -/
theorem patternsMatch (part subject : String) :
    (∀ o, ∃ pattern, likePattern (.part o) (.text part) = .ok (.text pattern) ∧
      (Like Wildcards.units (Text.units pattern) (Text.units subject) ↔
        Store.textMatches (.part o) false (.text part) subject = .ok (.known true)) ∧
      (Text.isWhole part.toList → Text.isWhole subject.toList →
        (Like Wildcards.chars pattern.toList subject.toList ↔
          Store.textMatches (.part o) false (.text part) subject = .ok (.known true)))) ∧
    ∃ pattern, likePattern .equals (.text part) = .ok (.text pattern) ∧
      (Like Wildcards.units (Text.units pattern) (Text.units subject) ↔ Text.units subject = Text.units part) ∧
      (Like Wildcards.chars pattern.toList subject.toList ↔ subject = part) := by
  constructor
  · intro o
    have accepted : Store.textMatches (.part o) false (.text part) subject = .ok (.known true) ↔
        o.Holds (Text.units part) (Text.units subject) := by
      show Except.ok (Truth.known (Store.occurs o part.toList subject.toList)) = .ok (.known true) ↔ _
      rw [Except.ok.injEq, Truth.known.injEq, Store.occursHolds]
      rfl
    refine ⟨_, rfl, ?_, fun wholePart wholeSubject => ?_⟩
    · rw [patternUnits, Occurrence.patternHolds, accepted]
    · rw [patternChars, Occurrence.patternHolds, accepted]
      exact (Text.wholeHolds o wholePart wholeSubject).symm
  · refine ⟨_, rfl, ?_, ?_⟩
    · rw [literalUnits, Like.literalOnly]
    · rw [literalChars, Like.literalOnly, String.toList_inj]

/-- The ending `50%_\` is looked for with a pattern that ends in two backslashes. -/
theorem patternsMatchMarks : Text.isWhole "50%_\\".toList ∧ Text.isWhole "a 50%_\\".toList ∧
    likePattern (.part .endsWith) (.text "50%_\\") = .ok (.text "%50\\%\\_\\\\") ∧
    Like Wildcards.chars "%50\\%\\_\\\\".toList "a 50%_\\".toList ∧
    ¬Like Wildcards.chars "%50\\%\\_\\\\".toList "a 50xy\\".toList := by
  have written : likePattern (.part .endsWith) (.text "50%_\\") = .ok (.text "%50\\%\\_\\\\") := by rfl
  have accepted (subject : String) (whole : Text.isWhole subject.toList) :
      Like Wildcards.chars "%50\\%\\_\\\\".toList subject.toList ↔
        Store.textMatches (.part .endsWith) false (.text "50%_\\") subject = .ok (.known true) := by
    obtain ⟨pattern, built, -, same⟩ := (patternsMatch "50%_\\" subject).1 .endsWith
    cases written.symm.trans built
    exact same (by decide) whole
  have refused : Store.textMatches (.part .endsWith) false (.text "50%_\\") "a 50xy\\" = .ok (.known false) := by rfl
  refine ⟨by decide, by decide, written, (accepted _ (by decide)).mpr (by rfl), fun found => ?_⟩
  cases refused.symm.trans ((accepted _ (by decide)).mp found)

end Sql

end EntityQuery
