import EntityQuery.Sorting.Run
/-! Merging two runs that follow each other. Items go one by one until one run wins many times in a row; then
whole stretches go at once, found by strides that double. The merge begins at the end of the shorter run, so a
merge from the back works on both runs turned round. -/

namespace EntityQuery.Sorting

variable {ε α : Type}

/-- Two places between which a property ends, the second found by strides that double. -/
def stride (p : α → Except ε Bool) (items : List α) (last next : Nat) : Except ε (Nat × Nat) :=
  if h : next < items.length then do
    if ← p items[next] then stride p items next (2 * next + 1) else return (last, next)
  else .ok (last, items.length)
termination_by items.length - next

/-- The place between two where a property ends. `up` says which of two middles is tried. -/
def narrow (up : Bool) (p : α → Except ε Bool) (items : List α) (low high : Nat) : Except ε Nat :=
  if low < high then
    let middle := low + (if up then high - low else high - low - 1) / 2
    match items[middle]? with
    | some a => do if ← p a then narrow up p items (middle + 1) high else narrow up p items low middle
    | none => .ok low
  else .ok low
termination_by high - low
decreasing_by all_goals (split <;> omega)

/-- How many items a list begins with that have a property, for a property that ends once. -/
def gallop (up : Bool) (p : α → Except ε Bool) (items : List α) : Except ε Nat :=
  match items with
  | [] => .ok 0
  | a :: _ => do
    if !(← p a) then return 0
    let (last, next) ← stride p items 0 1
    narrow up p items (last + 1) next

/-- A merge on its way: the items that are placed, the newest first, and what is left of the shorter and of the
longer run. `patience` is how often in a row a run has to win before whole stretches of it go at once. -/
structure Merge (α : Type) where
  placed : List α
  short : List α
  long : List α
  patience : Nat

namespace Merge

/-- A merge is done when no pair is left that could tell. -/
def isDone (m : Merge α) : Bool := m.short.length < 2 || m.long.isEmpty

def takeShort (m : Merge α) (n : Nat) : Merge α :=
  { m with placed := (m.short.take n).reverse ++ m.placed, short := m.short.drop n }

def takeLong (m : Merge α) (n : Nat) : Merge α :=
  { m with placed := (m.long.take n).reverse ++ m.placed, long := m.long.drop n }

def result (m : Merge α) : List α := m.placed.reverse ++ (m.long ++ m.short)

variable (longFirst : α → α → Except ε Bool)

/-- Place items one by one until a run has won so often in a row as the patience says. -/
def oneByOne (m : Merge α) (shortWins longWins : Nat) : Nat → Except ε (Merge α)
  | 0 => .ok m
  | fuel + 1 =>
    match m.short, m.long with
    | s :: _, l :: _ => do
      let first ← longFirst s l
      let next := if first then m.takeLong 1 else m.takeShort 1
      let shortWins := if first then 0 else shortWins + 1
      let longWins := if first then longWins + 1 else 0
      if next.isDone || m.patience ≤ max shortWins longWins then return next
      else oneByOne next shortWins longWins fuel
    | _, _ => .ok m

/-- Place what goes before the first of the longer run, then that one; also how many went before. -/
def shortStretch (up : Bool) (m : Merge α) : Except ε (Merge α × Nat) :=
  match m.long with
  | [] => .ok (m, 0)
  | l :: _ => do
    let n ← gallop up (fun s => do return !(← longFirst s l)) m.short
    let next := m.takeShort n
    return (if next.isDone then next else next.takeLong 1, n)

/-- Place what goes before the first of the shorter run, then that one; also how many went before. -/
def longStretch (up : Bool) (m : Merge α) : Except ε (Merge α × Nat) :=
  match m.short with
  | [] => .ok (m, 0)
  | s :: _ => do
    let n ← gallop up (longFirst s) m.long
    let next := m.takeLong n
    return (if next.isDone then next else next.takeShort 1, n)

/-- Place a stretch of both runs, that of the run in front first; also the longer of the two lengths. -/
def stretches (forward : Bool) (m : Merge α) : Except ε (Merge α × Nat) := do
  let (m, n) ← if forward then shortStretch longFirst forward m else longStretch longFirst forward m
  if m.isDone then return (m, n)
  let (m, k) ← if forward then longStretch longFirst forward m else shortStretch longFirst forward m
  return (m, max n k)

def worthwhile : Nat := 7

/-- Carry on with a merge until it is done. Stretches that pay make the patience shorter. -/
def finish (forward stretching : Bool) (m : Merge α) : Nat → Except ε (Merge α)
  | 0 => .ok m
  | fuel + 1 => do
    if m.isDone then return m
    else if stretching then
      let (m, n) ← stretches longFirst forward m
      if m.isDone then return m
      else if worthwhile ≤ n then finish forward true { m with patience := max 1 (m.patience - 1) } fuel
      else finish forward false { m with patience := m.patience + 1 } fuel
    else finish forward true (← oneByOne longFirst m 0 0 (m.short.length + m.long.length)) fuel

/-- Merge a shorter and a longer run, of which the longer begins. -/
def run (forward : Bool) (short long : List α) (patience : Nat) : Except ε (Merge α) :=
  finish longFirst forward false ((Merge.mk [] short long patience).takeLong 1) (short.length + long.length)

end Merge

variable (less : α → α → Except ε Bool)

/-- Merge two runs; the items of the first that go before the second, and those of the second that go after the
first, stay where they are. Also the patience that is left. -/
def merged (first second : List α) (patience : Nat) : Except ε (List α × Nat) :=
  match second with
  | [] => .ok (first, patience)
  | b :: _ => do
    let before ← gallop true (fun a => do return !(← less b a)) first
    let kept := first.take before
    let first := first.drop before
    match first.getLast? with
    | none => return (kept ++ second, patience)
    | some a =>
      let after ← gallop false (fun b => do return !(← less b a)) second.reverse
      let rest := second.drop (second.length - after)
      let second := second.take (second.length - after)
      if second.isEmpty then return (kept ++ (first ++ rest), patience)
      else if first.length ≤ second.length then
        let m ← Merge.run (fun s l => less l s) true first second patience
        return (kept ++ (m.result ++ rest), m.patience)
      else
        let m ← Merge.run less false second.reverse first.reverse patience
        return (kept ++ (m.result.reverse ++ rest), m.patience)

end EntityQuery.Sorting
