import EntityQuery.Number
/-! Slices of lists between two positions. Fractions of a position are cut off, and a negative position
counts from the end. -/

namespace EntityQuery.Slice

variable {α : Type}

def position (length : Nat) (n : Number) : Nat :=
  match n.truncate with
  | .integer i => if i < 0 then (length + i).toNat else i.toNat
  | .infinity negative => if negative then 0 else length
  | _ => 0

def dropTo (n : Number) (l : List α) : List α := l.drop (position l.length n)

def takeTo (n : Number) (l : List α) : List α := l.take (position l.length n)

def between (start stop : Number) (l : List α) : List α :=
  (l.take (position l.length stop)).drop (position l.length start)

theorem position_ofNat (length n : Nat) : position length (.integer n) = n := by
  have nonneg : ¬ (n : Int) < 0 := by omega
  simp only [position, Number.truncate, if_neg nonneg, Int.toNat_natCast]

end EntityQuery.Slice
