import EntityQuery.Value
/-! Fragments of SQL text. A fragment is a list of pieces together with the parameters that its
placeholders bind, so operands never become part of the text. Placeholders count from one when a
fragment is written out. -/

namespace EntityQuery.Sql

/-- A piece of SQL text: fixed words, a name to be quoted, or the placeholder of a parameter. -/
inductive Piece where
  | words (s : String)
  | name (s : String)
  | place (index : Nat)
  deriving DecidableEq, Repr

/-- A name between double quotes, those inside it being doubled. -/
def quoteName (name : String) : String :=
  String.ofList ('"' :: (name.toList.flatMap fun c => if c = '"' then ['"', '"'] else [c]) ++ ['"'])

namespace Piece

def shift (n : Nat) : Piece → Piece
  | .place i => .place (n + i)
  | p => p

def text : Piece → String
  | .words s => s
  | .name s => quoteName s
  | .place i => "$" ++ Number.intText (i + 1)

@[simp] theorem shift_zero (p : Piece) : p.shift 0 = p := by
  cases p <;> simp [shift]

@[simp] theorem map_shift_zero (ps : List Piece) : ps.map (shift 0) = ps := by
  induction ps with
  | nil => rfl
  | cons p rest ih => simp [ih]

theorem shift_shift (m n : Nat) (p : Piece) : (p.shift n).shift m = p.shift (m + n) := by
  cases p <;> simp [shift, Nat.add_assoc]

end Piece

structure Fragment where
  pieces : List Piece
  params : List Value
  deriving Repr

namespace Fragment

def empty : Fragment := ⟨[], []⟩

def words (s : String) : Fragment := ⟨[.words s], []⟩

def name (s : String) : Fragment := ⟨[.name s], []⟩

def bind (v : Value) : Fragment := ⟨[.place 0], [v]⟩

/-- One fragment after another; the placeholders of the second count on from those of the first. -/
def append (a b : Fragment) : Fragment :=
  ⟨a.pieces ++ b.pieces.map (Piece.shift a.params.length), a.params ++ b.params⟩

instance : Append Fragment := ⟨append⟩

/-- Fixed words around pieces that are written twice and bound once. -/
def twice (before between after : String) (f : Fragment) : Fragment :=
  ⟨.words before :: f.pieces ++ .words between :: f.pieces ++ [.words after], f.params⟩

def join (separator : String) : List Fragment → Fragment
  | [] => empty
  | [f] => f
  | f :: rest => f ++ words separator ++ join separator rest

def names (columns : List String) : Fragment := join ", " (columns.map name)

def column (table name : String) : Fragment := ⟨[.name table, .words ".", .name name], []⟩

/-- A fragment that binds its parameters and has no text. -/
def silent (f : Fragment) : Fragment := ⟨[], f.params⟩

/-- A fragment where a text is needed. -/
def spelled (f : Fragment) : Fragment := if f.pieces.isEmpty then ⟨[.words "undefined"], f.params⟩ else f

def text (f : Fragment) : String := String.join (f.pieces.map Piece.text)

def text? (f : Fragment) : Option String := if f.pieces.isEmpty then none else some f.text

@[simp] theorem append_params (a b : Fragment) : (a ++ b).params = a.params ++ b.params := rfl

@[simp] theorem append_pieces (a b : Fragment) :
    (a ++ b).pieces = a.pieces ++ b.pieces.map (Piece.shift a.params.length) := rfl

theorem append_assoc (a b c : Fragment) : a ++ b ++ c = a ++ (b ++ c) := by
  cases a; cases b; cases c
  show Fragment.mk _ _ = Fragment.mk _ _
  simp [Piece.shift_shift, Function.comp_def]

@[simp] theorem empty_append (f : Fragment) : empty ++ f = f := by
  cases f
  show Fragment.mk _ _ = Fragment.mk _ _
  simp [empty]

@[simp] theorem append_empty (f : Fragment) : f ++ empty = f := by
  cases f
  show Fragment.mk _ _ = Fragment.mk _ _
  simp [empty]

end Fragment

end EntityQuery.Sql
