import EntityQuery.Sorting.Merge
/-! A stable sort by merging runs, for comparisons that may fail and for orders in which some items have no
place: the outcome then hangs on which pairs are compared. -/

namespace EntityQuery.Sorting

variable {ε α : Type} (less : α → α → Except ε Bool)

/-- The least length of a run: a number of items halved until it is below 64, and one more if that left a
remainder. -/
def leastRun (n : Nat) (remainder : Nat) : Nat :=
  if n < 64 then n + remainder else leastRun (n / 2) (max remainder (n % 2))

/-- Are the newest runs too long beside the runs below them? The lengths are those of the newest run and of the
older ones. -/
def crowded : List Nat → Bool
  | c :: b :: a :: z :: _ => b ≤ c || a ≤ b + c || z ≤ a + b
  | [c, b, a] => b ≤ c || a ≤ b + c
  | [c, b] => b ≤ c
  | _ => false

/-- Merge the newest runs while they are crowded, or until one is left. Of three runs the middle one goes with
the shorter of its neighbours. -/
def collapse (all : Bool) (patience : Nat) (stack : List (List α)) : Except ε (List (List α) × Nat) :=
  match stack with
  | c :: b :: a :: older =>
    if !all && !crowded (stack.map (·.length)) then .ok (stack, patience)
    else if a.length < c.length then do
      let (m, patience) ← merged less a b patience
      collapse all patience (c :: m :: older)
    else do
      let (m, patience) ← merged less b c patience
      collapse all patience (m :: a :: older)
  | [c, b] =>
    if !all && !crowded (stack.map (·.length)) then .ok (stack, patience)
    else do
      let (m, patience) ← merged less b c patience
      return ([m], patience)
  | _ => .ok (stack, patience)
termination_by stack.length

/-- Sort a list; items that tie keep their order. -/
def sort (items : List α) : Except ε (List α) := do
  let found ← runs less (leastRun items.length 0) items.length items
  let (stack, patience) ← found.foldlM (fun (stack, patience) run => collapse less false patience (run :: stack))
    ([], Merge.worthwhile)
  let (stack, _) ← collapse less true patience stack
  return stack.flatten

end EntityQuery.Sorting
