/-! Runs of items in order. A list begins with a run, ascending or strictly descending; a short run grows by
insertion at the place that halving finds. Comparisons may fail, so it matters which pairs are compared. -/

namespace EntityQuery.Sorting

variable {ε α : Type} (less : α → α → Except ε Bool)

/-- The items that go on with a run after its last item, and those that follow the run. -/
def goOn (descending : Bool) (last : α) : List α → Except ε (List α × List α)
  | [] => .ok ([], [])
  | a :: rest => do
    if (← less a last) == descending then
      let (more, others) ← goOn descending a rest
      return (a :: more, others)
    else return ([], a :: rest)

/-- The run that a list begins with, a descending one turned round, and the items that follow it. -/
def leading : List α → Except ε (List α × List α)
  | a :: b :: rest => do
    let descending ← less b a
    let (more, others) ← goOn less descending b rest
    let start := a :: b :: more
    return (if descending then start.reverse else start, others)
  | items => .ok (items, [])

/-- The place of an item between two positions of a run, behind what it is not less than. -/
def place (a : α) (items : List α) (low high : Nat) : Except ε Nat :=
  if low < high then
    let middle := (low + high) / 2
    match items[middle]? with
    | some b => do if ← less a b then place a items low middle else place a items (middle + 1) high
    | none => .ok low
  else .ok low
termination_by high - low

def insert (items : List α) (a : α) : Except ε (List α) := do
  let position ← place less a items 0 items.length
  return items.take position ++ a :: items.drop position

/-- The runs of a list, each of at least a given length but the last. -/
def runs (least : Nat) : Nat → List α → Except ε (List (List α))
  | fuel + 1, a :: items => do
    let (run, others) ← leading less (a :: items)
    let missing := least - run.length
    let run ← (others.take missing).foldlM (insert less) run
    return run :: (← runs least fuel (others.drop missing))
  | _, _ => .ok []

theorem append_of_goOn {descending : Bool} {last : α} {items more others : List α}
    (h : goOn less descending last items = .ok (more, others)) : more ++ others = items := by
  induction items generalizing last more with
  | nil => cases h; rfl
  | cons a rest ih =>
    unfold goOn at h
    cases hc : less a last with
    | error e => simp [hc, bind, Except.bind] at h
    | ok c =>
      simp only [hc, bind, Except.bind] at h
      split at h
      · cases hg : goOn less descending a rest with
        | error e => simp [hg] at h
        | ok p =>
          simp only [hg, pure, Except.pure, Except.ok.injEq, Prod.mk.injEq] at h
          obtain ⟨rfl, rfl⟩ := h
          exact congrArg (a :: ·) (ih hg)
      · simp only [pure, Except.pure, Except.ok.injEq, Prod.mk.injEq] at h
        obtain ⟨rfl, rfl⟩ := h
        rfl

end EntityQuery.Sorting
