import EntityQuery.Number.Reading
/-! Records: named members in order. Names that are array indices come first and ascend; the others
follow in the order in which they were first written. -/

namespace EntityQuery

abbrev Record (α : Type) := List (String × α)

namespace Record

variable {α β : Type}

def greatestIndex : Nat := Nat.pow 2 32 - 2

/-- The number of a name written as an array index: decimal digits without a leading zero. -/
def index? (name : String) : Option Nat :=
  match name.toList with
  | [] => none
  | ['0'] => some 0
  | '0' :: _ => none
  | digits =>
    if digits.all Char.isDigit then
      let n := Number.ofDigits digits
      if n ≤ greatestIndex then some n else none
    else none

def get? : Record α → String → Option α
  | [], _ => none
  | (key, value) :: rest, name => if key = name then some value else get? rest name

def has (r : Record α) (name : String) : Bool := (r.get? name).isSome

def names (r : Record α) : List String := r.map (·.1)

def values (r : Record α) : List α := r.map (·.2)

def replace : Record α → String → α → Record α
  | [], _, _ => []
  | (key, old) :: rest, name, value =>
    if key = name then (key, value) :: rest else (key, old) :: replace rest name value

/-- Place a new index name before the first name that is not a smaller index. -/
def insertIndex (i : Nat) (name : String) (value : α) : Record α → Record α
  | [] => [(name, value)]
  | (key, old) :: rest =>
    match index? key with
    | some j => if j < i then (key, old) :: insertIndex i name value rest else (name, value) :: (key, old) :: rest
    | none => (name, value) :: (key, old) :: rest

/-- Write a member: a present name keeps its place, a new one takes the place its name has. -/
def put (r : Record α) (name : String) (value : α) : Record α :=
  if r.has name then r.replace name value
  else
    match index? name with
    | some i => insertIndex i name value r
    | none => r ++ [(name, value)]

/-- The record that a list of members writes, one after another. -/
def ofPairs (pairs : List (String × α)) : Record α :=
  pairs.foldl (fun r pair => r.put pair.1 pair.2) []

/-- Write all members of the second record into the first. -/
def merge (r s : Record α) : Record α := s.foldl (fun acc pair => acc.put pair.1 pair.2) r

def mapValues (f : α → β) (r : Record α) : Record β := r.map fun (name, value) => (name, f value)

theorem get?_replace_of_ne {r : Record α} {name other : String} {value : α} (h : other ≠ name) :
    (r.replace name value).get? other = r.get? other := by
  induction r with
  | nil => rfl
  | cons pair rest ih =>
    obtain ⟨key, old⟩ := pair
    by_cases hk : key = name
    · subst hk
      simp [replace, get?, Ne.symm h]
    · by_cases ho : key = other
      · subst ho
        simp [replace, get?, hk]
      · simp only [replace, get?, hk, ho, if_false]
        exact ih

theorem get?_replace {r : Record α} {name : String} {value : α} (h : (r.get? name).isSome) :
    (r.replace name value).get? name = some value := by
  induction r with
  | nil => simp [get?] at h
  | cons pair rest ih =>
    obtain ⟨key, old⟩ := pair
    by_cases hk : key = name
    · subst hk
      simp [replace, get?]
    · simp only [get?, hk, if_false] at h
      simp only [replace, get?, hk, if_false]
      exact ih h

end Record

end EntityQuery
