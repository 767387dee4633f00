/-! UTF-16 units of text. Names and text values are ordered by their units, which places characters
outside the basic plane before the last block of it. A half of a pair that stands alone is a character of the
last block of private use. -/

namespace EntityQuery.Text

/-- The first of the characters that stand for halves of pairs. -/
def firstHalf : Nat := 0x10F800

/-- The character that stands for a half of a pair, a unit from 0xD800 to 0xDFFF. -/
def halfChar (unit : Nat) : Char := Char.ofNat (firstHalf + (unit - 0xD800))

def half? (c : Char) : Option Nat := if c.toNat < firstHalf then none else some (c.toNat - firstHalf + 0xD800)

/-- The character of two halves. -/
def pairChar (high low : Nat) : Char := Char.ofNat (0x10000 + (high - 0xD800) * 0x400 + (low - 0xDC00))

/-- The characters with every pair of halves as the character it is. -/
def join : List Char → List Char
  | c :: d :: rest =>
    match half? c, half? d with
    | some high, some low =>
      if high < 0xDC00 ∧ 0xDC00 ≤ low then pairChar high low :: join rest else c :: join (d :: rest)
    | _, _ => c :: join (d :: rest)
  | cs => cs

/-- The two halves of a character outside the basic plane. -/
def pair (n : Nat) : Nat × Nat := (0xD800 + (n - 0x10000) / 0x400, 0xDC00 + (n - 0x10000) % 0x400)

def unitsOf (c : Char) : List Nat :=
  if c.toNat < 0x10000 then [c.toNat]
  else
    match half? c with
    | some unit => [unit]
    | none => [(pair c.toNat).1, (pair c.toNat).2]

/-- The texts of the single units of a text. -/
def unitTexts (s : String) : List String :=
  s.toList.flatMap fun c =>
    match unitsOf c with
    | [high, low] => [String.singleton (halfChar high), String.singleton (halfChar low)]
    | _ => [String.singleton c]

def units (s : String) : List Nat := s.toList.flatMap unitsOf

def compareLists : List Nat → List Nat → Ordering
  | [], [] => .eq
  | [], _ :: _ => .lt
  | _ :: _, [] => .gt
  | a :: as, b :: bs => if a < b then .lt else if b < a then .gt else compareLists as bs

def compareUnits (s t : String) : Ordering := compareLists (units s) (units t)

def contains (part : List Nat) : List Nat → Bool
  | [] => part.isEmpty
  | c :: rest => part.isPrefixOf (c :: rest) || contains part rest

/-- The first `n` units; of a pair that is cut in two the first half is left. -/
def takeUnits (n : Nat) : List Char → List Char
  | [] => []
  | c :: rest =>
    match n, unitsOf c with
    | 0, _ => []
    | 1, [high, _] => [halfChar high]
    | n, us => c :: takeUnits (n - us.length) rest

def padLeft (width : Nat) (fill : Char) (cs : List Char) : List Char :=
  List.replicate (width - cs.length) fill ++ cs

@[simp] theorem units_empty : units "" = [] := by simp [units]

theorem compareLists_self (l : List Nat) : compareLists l l = .eq := by
  induction l with
  | nil => rfl
  | cons a as ih => simp [compareLists, ih]

theorem length_padLeft (width : Nat) (fill : Char) (cs : List Char) :
    (padLeft width fill cs).length = max width cs.length := by
  simp [padLeft]; omega

end EntityQuery.Text
