import EntityQuery.Proofs.DigitTexts
import EntityQuery.Sql.Fragment
import Mathlib.Data.List.Basic
/-! The placeholders of SQL text. Outside quoted names `$` and the digits after it are a placeholder. A fragment numbers
its parameters in the order in which its text comes to them, so a text with its parameters in place of its placeholders
is what the pieces of the fragment stand for. -/

namespace EntityQuery.Sql

open Number (digitValue)

/-- What stands in a text: its characters, and its placeholders with their numbers. `operand` is a placeholder
together with what it stands for. -/
inductive Mark where
  | char (c : Char)
  | place (n : Nat)
  | operand (v : Value)
  deriving Repr

namespace Mark

def place? : Mark → Option Nat
  | place n => some n
  | _ => none

/-- A mark with the parameter that its placeholder binds; placeholders count from one. -/
def bound (params : List Value) : Mark → Mark
  | place (n + 1) => (params[n]?.map operand).getD (place (n + 1))
  | m => m

/-- The placeholder whose digits end here. -/
def ended (number : Option Nat) : List Mark := (number.map place).toList

end Mark

/-- The marks of characters inside or outside a quoted name, after some digits of a placeholder. -/
def marksFrom (quoted : Bool) (number : Option Nat) : List Char → List Mark
  | [] => Mark.ended number
  | c :: rest =>
    if number.isSome ∧ c.isDigit then marksFrom quoted (number.map (10 * · + digitValue c)) rest
    else if quoted = false ∧ c = '$' then Mark.ended number ++ marksFrom quoted (some 0) rest
    else Mark.ended number ++ .char c :: marksFrom (quoted != (c == '"')) none rest

def marks (sql : String) : List Mark := marksFrom false none sql.toList

/-- The numbers of the placeholders of a text, in the order in which they stand there. -/
def placeholders (sql : String) : List Nat := (marks sql).filterMap Mark.place?

def chars (cs : List Char) : List Mark := cs.map .char

def letters (s : String) : List Mark := chars s.toList

/-- Is a name open after these characters? -/
def quotedAfter (quoted : Bool) (cs : List Char) : Bool := cs.foldl (fun q c => q != (c == '"')) quoted

section Characters

variable {quoted : Bool} {number : Option Nat} {cs rest : List Char}

theorem marksDigits {n : Nat} (digits : ∀ d ∈ cs, d.isDigit) :
    marksFrom false (some n) (cs ++ rest) = marksFrom false (some (Nat.ofDigitChars 10 cs n)) rest := by
  induction cs generalizing n with
  | nil => rfl
  | cons d cs ih =>
    obtain ⟨here, later⟩ := List.forall_mem_cons.mp digits
    rw [Nat.ofDigitChars_cons, ← show digitValue d = d.toNat - '0'.toNat from rfl, ← ih later]
    simp [marksFrom, here]

theorem marksDollar (n : Nat) :
    marksFrom false number ('$' :: Nat.toDigits 10 n ++ rest) = Mark.ended number ++ marksFrom false (some n) rest := by
  have other : ¬ ('$'.isDigit = true) := by decide
  rw [List.cons_append, marksFrom, if_neg fun both => other both.2, if_pos ⟨rfl, rfl⟩, marksDigits (Number.naturalDigits n),
    Nat.ofDigitChars_ten_toDigits]

/-- A character that neither goes on with a placeholder nor begins one. -/
theorem marksChar {c : Char} (other : ¬ (number.isSome ∧ c.isDigit)) (free : ¬ (quoted = false ∧ c = '$')) :
    marksFrom quoted number (c :: rest) = Mark.ended number ++ .char c :: marksFrom (quoted != (c == '"')) none rest := by
  rw [marksFrom, if_neg other, if_neg free]

theorem marksFree (free : '$' ∉ cs) :
    marksFrom quoted none (cs ++ rest) = chars cs ++ marksFrom (quotedAfter quoted cs) none rest := by
  induction cs generalizing quoted with
  | nil => rfl
  | cons c cs ih =>
    obtain ⟨here, later⟩ : '$' ≠ c ∧ '$' ∉ cs := by simpa using free
    rw [List.cons_append, marksChar (by simp) fun both => here both.2.symm, ih later]
    rfl

theorem marksQuoted (name : List Char) :
    marksFrom true none ((name.flatMap fun c => if c = '"' then ['"', '"'] else [c]) ++ rest) =
      chars (name.flatMap fun c => if c = '"' then ['"', '"'] else [c]) ++ marksFrom true none rest := by
  induction name with
  | nil => rfl
  | cons c name ih =>
    rw [List.flatMap_cons, List.append_assoc]
    split
    · next quote =>
      have free : '$' ∉ ['"', '"'] := by decide
      rw [marksFree free]
      exact (congrArg (chars ['"', '"'] ++ ·) ih).trans (by simp [chars])
    · next other =>
      have inside : (true != (c == '"')) = true := by simpa using other
      rw [List.singleton_append, marksChar (by simp) (by simp), inside, ih]
      simp [chars, Mark.ended]

theorem marksName (name : String) :
    marksFrom false number ((quoteName name).toList ++ rest) =
      Mark.ended number ++ chars (quoteName name).toList ++ marksFrom false none rest := by
  unfold quoteName
  rw [String.toList_ofList, List.cons_append, List.cons_append, List.append_assoc,
    marksChar (by simp [Char.isDigit]) (by simp)]
  have closed : marksFrom true none ('"' :: rest) = .char '"' :: marksFrom false none rest :=
    marksChar (by simp) (by simp)
  have opened : (false != ('"' == '"')) = true := rfl
  rw [opened, marksQuoted, List.singleton_append, closed]
  simp [chars]

end Characters

namespace Piece

/-- Words that hold no placeholder, leave no name open, and do not go on with the digits of a placeholder. -/
def inert : Piece → Bool
  | .words s => !s.toList.contains '$' && !quotedAfter false s.toList && s.toList.head?.all (!·.isDigit)
  | _ => true

def marks : Piece → List Mark
  | .place i => [.place (i + 1)]
  | p => chars p.text.toList

/-- A piece with the parameter that its placeholder binds. -/
def filled (params : List Value) : Piece → List Mark
  | .place i => [Mark.bound params (.place (i + 1))]
  | p => chars p.text.toList

def index? : Piece → Option Nat
  | .place i => some i
  | _ => none

@[simp] theorem inertShift (n : Nat) (p : Piece) : (p.shift n).inert = p.inert := by
  cases p <;> rfl

theorem boundMarks (params : List Value) (p : Piece) : p.marks.map (Mark.bound params) = p.filled params := by
  cases p <;> simp [marks, filled, chars, Mark.bound]

theorem placesMarks (p : Piece) : p.marks.filterMap Mark.place? = (p.index?.map (· + 1)).toList := by
  cases p <;> simp [marks, index?, chars, Mark.place?]

theorem placeText (i : Nat) : (Piece.place i).text.toList = '$' :: Nat.toDigits 10 (i + 1) := by
  have counted : ¬ (((i : Int) + 1) < 0) := by omega
  have digits : ((i : Int) + 1).natAbs = i + 1 := by omega
  unfold Piece.text Number.intText
  rw [String.toList_append, if_neg counted, digits]
  exact congrArg (['$'] ++ ·) String.toList_ofList

theorem marksWords {s : String} {number : Option Nat} {rest : List Char} (inert : (words s).inert) :
    marksFrom false number (s.toList ++ rest) =
      if s.toList = [] then marksFrom false number rest
      else Mark.ended number ++ chars s.toList ++ marksFrom false none rest := by
  unfold Piece.inert at inert
  dsimp only at inert
  rw [Bool.and_eq_true, Bool.and_eq_true] at inert
  obtain ⟨⟨free, even⟩, begins⟩ := inert
  have free : '$' ∉ s.toList := by simpa using free
  have even : quotedAfter false s.toList = false := by simpa using even
  cases written : s.toList with
  | nil => rfl
  | cons c cs =>
    rw [written] at free even begins
    obtain ⟨here, later⟩ : '$' ≠ c ∧ '$' ∉ cs := by simpa using free
    have other : c.isDigit = false := by simpa using begins
    have even : quotedAfter (false != (c == '"')) cs = false := even
    rw [if_neg (List.cons_ne_nil c cs), List.cons_append, marksChar (by simp [other]) fun both => here both.2.symm,
      marksFree later, even]
    simp [chars]

/-- By induction on the pieces, after the digits of any placeholder: no piece goes on with them. -/
theorem marksPieces {ps : List Piece} (inert : ∀ p ∈ ps, p.inert) (number : Option Nat) :
    marksFrom false number (ps.flatMap fun p => p.text.toList) = Mark.ended number ++ ps.flatMap marks := by
  induction ps generalizing number with
  | nil => simp [marksFrom]
  | cons p rest ih =>
    obtain ⟨here, later⟩ := List.forall_mem_cons.mp inert
    rw [List.flatMap_cons, List.flatMap_cons]
    cases p with
    | words s =>
      rw [show (words s).text = s from rfl, marksWords here, ih later, ih later]
      split
      · next empty => simp [marks, text, empty, chars]
      · simp [marks, text, Mark.ended]
    | name s =>
      rw [show (name s).text = quoteName s from rfl, marksName, ih later]
      simp [marks, text, Mark.ended]
    | place i =>
      rw [placeText, marksDollar, ih later]
      rfl

end Piece

theorem eraseDupsShifted (n : Nat) (is : List Nat) : (is.map (n + ·)).eraseDups = is.eraseDups.map (n + ·) := by
  induction measured : is.length using Nat.strongRecOn generalizing is with
  | _ len ih =>
    cases is with
    | nil => rfl
    | cons i is =>
      have shorter : (is.filter fun j => !j == i).length < len := by
        have := List.length_filter_le (fun j => !j == i) is
        rw [List.length_cons] at measured
        omega
      have same : (fun j => !n + j == n + i) = fun j => !j == i :=
        funext fun j => by rw [Bool.eq_iff_iff]; simp
      rw [List.map_cons, List.eraseDups_cons, List.eraseDups_cons, List.map_cons, ← ih _ shorter _ rfl, List.filter_map,
        Function.comp_def, same]

namespace Fragment

/-- The parameters that the placeholders of a fragment bind, in the order of its text. -/
def indices (f : Fragment) : List Nat := f.pieces.filterMap Piece.index?

/-- The marks of a fragment with its parameters in place of its placeholders. -/
def filled (f : Fragment) : List Mark := f.pieces.flatMap (Piece.filled f.params)

/-- Only the placeholders of a fragment read as placeholders, and they bind its parameters one after another. -/
structure Numbered (f : Fragment) : Prop where
  inert : ∀ p ∈ f.pieces, p.inert
  ordered : f.indices.eraseDups = List.range f.params.length

variable {a b f : Fragment}

theorem marksText (inert : ∀ p ∈ f.pieces, p.inert) : marks f.text = f.pieces.flatMap Piece.marks := by
  have listed : f.text.toList = f.pieces.flatMap fun p => p.text.toList := by
    simp [text, String.toList_join, List.flatMap_map]
  rw [marks, listed, Piece.marksPieces inert]
  rfl

theorem boundText (numbered : f.Numbered) : (marks f.text).map (Mark.bound f.params) = f.filled := by
  rw [marksText numbered.inert, List.map_flatMap]
  exact List.flatMap_congr fun p _ => Piece.boundMarks f.params p

theorem placeholdersIndices (inert : ∀ p ∈ f.pieces, p.inert) : placeholders f.text = f.indices.map (1 + ·) := by
  unfold placeholders
  rw [marksText inert, List.filterMap_flatMap, indices, List.map_filterMap, List.filterMap_eq_flatMap_toList]
  exact List.flatMap_congr fun p _ => (Piece.placesMarks p).trans (by simp only [Nat.add_comm])

theorem placeholdersText (numbered : f.Numbered) : (placeholders f.text).eraseDups = List.range' 1 f.params.length := by
  rw [placeholdersIndices numbered.inert, eraseDupsShifted, numbered.ordered, List.range'_eq_map_range]

theorem bounded (numbered : f.Numbered) {i : Nat} (mem : .place i ∈ f.pieces) : i < f.params.length := by
  have listed : i ∈ f.indices := List.mem_filterMap.mpr ⟨_, mem, rfl⟩
  rw [← List.mem_eraseDups, numbered.ordered] at listed
  exact List.mem_range.mp listed

theorem indicesAppend (a b : Fragment) : (a ++ b).indices = a.indices ++ b.indices.map (a.params.length + ·) := by
  unfold indices
  rw [append_pieces, List.filterMap_append, List.filterMap_map, List.map_filterMap]
  refine congrArg (_ ++ List.filterMap · b.pieces) (funext fun p => ?_)
  cases p <;> rfl

theorem inertAppend (first : ∀ p ∈ a.pieces, p.inert) (second : ∀ p ∈ b.pieces, p.inert) :
    ∀ p ∈ (a ++ b).pieces, p.inert := by
  intro p mem
  rw [append_pieces, List.mem_append, List.mem_map] at mem
  rcases mem with mem | ⟨q, mem, rfl⟩
  · exact first p mem
  · exact (Piece.inertShift _ q).trans (second q mem)

theorem numberedAppend (first : a.Numbered) (second : b.Numbered) : (a ++ b).Numbered where
  inert := inertAppend first.inert second.inert
  ordered := by
    have apart : (b.indices.map (a.params.length + ·)).removeAll a.indices = b.indices.map (a.params.length + ·) := by
      refine List.filter_eq_self.mpr fun i mem => ?_
      obtain ⟨j, -, rfl⟩ := List.mem_map.mp mem
      have outside : a.params.length + j ∉ a.indices := fun inside => by
        rw [← List.mem_eraseDups, first.ordered, List.mem_range] at inside
        omega
      simpa using outside
    rw [indicesAppend, List.eraseDups_append, apart, eraseDupsShifted, first.ordered, second.ordered, append_params,
      List.length_append, List.range_add]

theorem filledAppend (first : a.Numbered) (second : b.Numbered) : (a ++ b).filled = a.filled ++ b.filled := by
  unfold filled
  rw [append_pieces, append_params, List.flatMap_append, List.flatMap_map]
  refine congrArg₂ (· ++ ·) (List.flatMap_congr fun p mem => ?_) (List.flatMap_congr fun p mem => ?_)
  · cases p with
    | place i => simp [Piece.filled, Mark.bound, List.getElem?_append_left (bounded first mem)]
    | words s => rfl
    | name s => rfl
  · cases p with
    | place i =>
      simp [Piece.shift, Piece.filled, Mark.bound, List.getElem?_append_right, List.getElem?_eq_getElem (bounded second mem)]
    | words s => rfl
    | name s => rfl

/-- A fragment whose text, with its parameters for the placeholders, is a list of marks. -/
def Writes (f : Fragment) (ms : List Mark) : Prop := f.Numbered ∧ f.filled = ms

section Writing

variable {ms ns : List Mark} {s : String}

theorem writesAppend (first : a.Writes ms) (second : b.Writes ns) : (a ++ b).Writes (ms ++ ns) := by
  obtain ⟨left, rfl⟩ := first
  obtain ⟨right, rfl⟩ := second
  exact ⟨numberedAppend left right, filledAppend left right⟩

theorem writesEmpty : empty.Writes [] := ⟨⟨nofun, rfl⟩, rfl⟩

theorem writesWords (inert : (Piece.words s).inert) : (words s).Writes (letters s) := by
  refine ⟨⟨?_, rfl⟩, List.append_nil _⟩
  simpa [words] using inert

theorem writesName (s : String) : (name s).Writes (letters (quoteName s)) := by
  refine ⟨⟨?_, rfl⟩, List.append_nil _⟩
  simp [name, Piece.inert]

theorem writesBind (v : Value) : (bind v).Writes [.operand v] := by
  refine ⟨⟨?_, rfl⟩, rfl⟩
  simp [bind, Piece.inert]

theorem writesJoin {fs : List Fragment} {mss : List (List Mark)} (each : List.Forall₂ Writes fs mss)
    (inert : (Piece.words s).inert) : (join s fs).Writes ((letters s).intercalate mss) := by
  induction each with
  | nil => exact writesEmpty
  | cons first rest ih =>
    cases rest with
    | nil => simpa [join] using first
    | cons second rest =>
      rw [List.intercalate_cons_cons, join]
      · exact writesAppend (writesAppend first (writesWords inert)) ih
      · exact nofun

theorem writesTwice (opening parting ending : String) (writes : f.Writes ms) (opens : (Piece.words opening).inert)
    (parts : (Piece.words parting).inert) (ends : (Piece.words ending).inert) :
    (f.twice opening parting ending).Writes
      (letters opening ++ ms ++ letters parting ++ ms ++ letters ending) := by
  obtain ⟨numbered, rfl⟩ := writes
  refine ⟨⟨?_, ?_⟩, ?_⟩
  · intro p mem
    simp only [twice, List.cons_append, List.append_assoc, List.mem_cons, List.mem_append, List.not_mem_nil, or_false] at mem
    rcases mem with rfl | mem | rfl | mem | rfl
    · exact opens
    · exact numbered.inert p mem
    · exact parts
    · exact numbered.inert p mem
    · exact ends
  · have again : (f.twice opening parting ending).indices = f.indices ++ f.indices := by
      have fixed (s : String) : (Piece.words s).index? = none := rfl
      simp [indices, twice, fixed]
    have none : f.indices.removeAll f.indices = [] := by
      simp [List.removeAll]
    rw [again, List.eraseDups_append, none, numbered.ordered]
    exact List.append_nil _
  · simp [filled, twice, Piece.filled, Piece.text, letters]

end Writing

end Fragment

section Numbers

/-- Characters that neither open a name nor begin a placeholder. -/
def Plain (cs : List Char) : Prop := ∀ c ∈ cs, c ≠ '"' ∧ c ≠ '$'

variable {cs ds : List Char}

theorem plainNil : Plain [] := nofun

theorem plainCons {c : Char} (here : c ≠ '"' ∧ c ≠ '$') (rest : Plain cs) : Plain (c :: cs) :=
  List.forall_mem_cons.mpr ⟨here, rest⟩

theorem plainAppend (first : Plain cs) (second : Plain ds) : Plain (cs ++ ds) := List.forall_mem_append.mpr ⟨first, second⟩

theorem plainPart (plain : Plain ds) (part : ∀ c ∈ cs, c ∈ ds) : Plain cs := fun c mem => plain c (part c mem)

theorem plainDigits (digits : ∀ c ∈ cs, c.isDigit) : Plain cs := by
  intro c mem
  constructor <;>
  · rintro rfl
    exact absurd (digits _ mem) (by decide)

theorem plainNatural (n : Nat) : Plain (Nat.toDigits 10 n) := plainDigits (Number.naturalDigits n)

theorem plainShortest (numerator denominator : Nat) : Plain (Number.shortest numerator denominator).digits :=
  plainDigits (Number.shortestDigits numerator denominator)

/-- A number is laid out with its digits, zeros, a point and an exponent. -/
theorem plainLayOut {d : Number.Digits} (digits : Plain d.digits) (layout : Number.Layout) : Plain (d.layOut layout) := by
  have zeros (k : Nat) : Plain (List.replicate k '0') := fun c mem => by
    rw [List.eq_of_mem_replicate mem]
    decide
  have front (k : Nat) : Plain (d.digits.take k) := plainPart digits fun _ => List.mem_of_mem_take
  have back (k : Nat) : Plain (d.digits.drop k) := plainPart digits fun _ => List.mem_of_mem_drop
  unfold Number.Digits.layOut
  dsimp only
  split
  · split
    · exact plainCons (by decide) (plainCons (by decide) (plainAppend (zeros _) digits))
    · split
      · exact plainAppend digits (zeros _)
      · exact plainAppend (front _) (plainCons (by decide) (back _))
  · refine plainAppend ?_ (plainCons (by decide) (plainCons (by split <;> decide) (plainNatural _)))
    split
    · exact plainNil
    · next written => exact written ▸ digits
    · next written =>
      obtain ⟨here, later⟩ := List.forall_mem_cons.mp (written ▸ digits)
      exact plainCons here (plainCons (by decide) later)

theorem plainSigned (digits : Plain cs) (negative : Prop) [Decidable negative] :
    Plain (String.ofList (if negative then '-' :: cs else cs)).toList := by
  rw [String.toList_ofList]
  split
  · exact plainCons (by decide) digits
  · exact digits

theorem plainNumber (n : Number) : Plain n.toText.toList := by
  have magnitude (numerator denominator : Nat) := plainLayOut (plainShortest numerator denominator) .standard
  cases n with
  | integer n =>
    unfold Number.toText
    dsimp only
    split
    · exact plainSigned (plainNatural _) _
    · exact plainSigned (magnitude _ _) _
  | fraction n k => exact plainSigned (magnitude _ _) _
  | infinity negative => cases negative <;> simp [Number.toText, Plain]
  | negativeZero => simp [Number.toText, Plain]
  | nan => simp [Number.toText, Plain]

theorem plainFree (plain : Plain cs) : '$' ∉ cs ∧ ∀ quoted, quotedAfter quoted cs = quoted := by
  refine ⟨fun mem => (plain _ mem).2 rfl, fun quoted => ?_⟩
  induction cs with
  | nil => rfl
  | cons c cs ih =>
    obtain ⟨here, later⟩ := List.forall_mem_cons.mp plain
    have other : (quoted != (c == '"')) = quoted := by
      rw [beq_false_of_ne here.1]
      exact Bool.bne_false quoted
    exact (congrArg (quotedAfter · cs) other).trans (ih later)

theorem inertPlain {s : String} (plain : Plain s.toList) (begins : s.toList.head?.all (!·.isDigit)) : (Piece.words s).inert := by
  obtain ⟨free, even⟩ := plainFree plain
  unfold Piece.inert
  dsimp only
  rw [even, begins]
  simpa using free

end Numbers

end EntityQuery.Sql
