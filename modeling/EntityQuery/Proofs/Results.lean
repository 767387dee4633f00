import EntityQuery.Failure
/-! Results that may fail, alone and over lists, with their failures or without them. A step over a list succeeds exactly
when it succeeds on every item, and is then the plain operation on the values. -/

namespace EntityQuery.Results

variable {ε α β : Type}

theorem bindOk {x : Except ε α} {f : α → Except ε β} {b : β} (h : (x >>= f) = .ok b) :
    ∃ a, x = .ok a ∧ f a = .ok b := by
  cases x with
  | error e => cases h
  | ok a => exact ⟨a, rfl, h⟩

theorem toOptionBind (x : Except ε α) (f : α → Except ε β) : (x >>= f).toOption = x.toOption.bind fun a => (f a).toOption := by
  cases x <;> rfl

theorem toOptionOk {x : Except ε α} {a : α} (h : x.toOption = some a) : x = .ok a := by
  cases x with
  | error f => cases h
  | ok b => exact congrArg Except.ok (Option.some.inj h)

/-- The value of a result, or a given one in place of a failure. -/
def valueOr (d : α) : Except Failure α → α
  | .ok a => a
  | .error _ => d

theorem eqOkValueOr (d : α) {r : Except Failure α} (h : ∃ a, r = .ok a) : r = .ok (valueOr d r) := by
  obtain ⟨a, rfl⟩ := h
  rfl

theorem filterAux {l : List α} {f : α → Except Failure Bool} {p : α → Bool} (h : ∀ x ∈ l, f x = .ok (p x))
    (acc : List α) : l.filterAuxM f acc = .ok ((l.filter p).reverse ++ acc) := by
  induction l generalizing acc with
  | nil => rfl
  | cons x rest ih =>
    have tail : ∀ y ∈ rest, f y = .ok (p y) := fun y mem => h y (List.mem_cons_of_mem x mem)
    rw [List.filterAuxM, h x List.mem_cons_self]
    change rest.filterAuxM f (cond (p x) (x :: acc) acc) = _
    rw [ih tail]
    cases hp : p x <;> simp [hp]

theorem filterOk {l : List α} {f : α → Except Failure Bool} {p : α → Bool} (h : ∀ x ∈ l, f x = .ok (p x)) :
    l.filterM f = .ok (l.filter p) := by
  rw [List.filterM, filterAux h []]
  simp [bind, Except.bind, pure, Except.pure]

theorem filterAuxItems {l : List α} {f : α → Except Failure Bool} {acc kept : List α}
    (h : l.filterAuxM f acc = .ok kept) : ∀ x ∈ l, ∃ b, f x = .ok b := by
  induction l generalizing acc with
  | nil => simp
  | cons x rest ih =>
    obtain ⟨b, hx, hrest⟩ := bindOk h
    intro y mem
    rcases List.mem_cons.mp mem with rfl | inside
    · exact ⟨b, hx⟩
    · exact ih hrest y inside

theorem filterItems {l : List α} {f : α → Except Failure Bool} {kept : List α} (h : l.filterM f = .ok kept) :
    ∀ x ∈ l, ∃ b, f x = .ok b := by
  obtain ⟨_, aux, _⟩ := bindOk h
  exact filterAuxItems aux

theorem anyOk {l : List α} {f : α → Except Failure Bool} {p : α → Bool} (h : ∀ x ∈ l, f x = .ok (p x)) :
    l.anyM f = .ok (l.any p) := by
  induction l with
  | nil => rfl
  | cons x rest ih =>
    have tail := ih fun y mem => h y (List.mem_cons_of_mem x mem)
    rw [List.anyM, h x List.mem_cons_self]
    cases hp : p x with
    | true => simp [bind, Except.bind, pure, Except.pure, hp]
    | false => simpa [bind, Except.bind, hp] using tail

theorem allOk {l : List α} {f : α → Except Failure Bool} (h : ∀ x ∈ l, ∃ b, f x = .ok b) : ∃ b, l.allM f = .ok b := by
  induction l with
  | nil => exact ⟨true, rfl⟩
  | cons x rest ih =>
    obtain ⟨⟨passed, here⟩, later⟩ := List.forall_mem_cons.mp h
    rw [List.allM, here]
    cases passed with
    | true => exact ih later
    | false => exact ⟨false, rfl⟩

/-- The first item that passes ends the search, so only a failed search says something of every item. -/
theorem anyItems {l : List α} {f : α → Except Failure Bool} {b : Bool} (h : l.anyM f = .ok b) :
    if b then ∃ x ∈ l, f x = .ok true else ∀ x ∈ l, f x = .ok false := by
  induction l with
  | nil =>
    cases h
    simp
  | cons x rest ih =>
    rw [List.anyM] at h
    obtain ⟨passed, here, h⟩ := bindOk h
    cases passed with
    | true =>
      cases h
      exact ⟨x, List.mem_cons_self, here⟩
    | false =>
      cases b with
      | true =>
        obtain ⟨y, mem, later⟩ := ih h
        exact ⟨y, List.mem_cons_of_mem x mem, later⟩
      | false =>
        refine List.forall_mem_cons.mpr ⟨here, ?_⟩
        exact ih h

theorem mapAllOk {l : List α} {f : α → Except Failure β} {g : α → β} (h : ∀ x ∈ l, f x = .ok (g x)) :
    l.mapM f = .ok (l.map g) := by
  induction l with
  | nil => rfl
  | cons x rest ih =>
    have tail := ih fun y mem => h y (List.mem_cons_of_mem x mem)
    rw [List.mapM_cons, h x List.mem_cons_self, tail]
    rfl

theorem mapAllValues (d : β) {l : List α} {f : α → Except Failure β} {out : List β} (h : l.mapM f = .ok out) :
    out = l.map (fun x => valueOr d (f x)) ∧ ∀ x ∈ l, ∃ y, f x = .ok y := by
  induction l generalizing out with
  | nil =>
    cases h
    simp
  | cons x rest ih =>
    rw [List.mapM_cons] at h
    obtain ⟨first, hx, h⟩ := bindOk h
    obtain ⟨others, hrest, h⟩ := bindOk h
    cases h
    obtain ⟨same, each⟩ := ih hrest
    rw [List.forall_mem_cons, List.map_cons, ← same, hx]
    exact ⟨rfl, ⟨first, rfl⟩, each⟩

theorem mapAllItems {l : List α} {f : α → Except ε β} {out : List β} (h : l.mapM f = .ok out) :
    ∀ y ∈ out, ∃ x ∈ l, f x = .ok y := by
  induction l generalizing out with
  | nil =>
    cases h
    simp
  | cons x rest ih =>
    rw [List.mapM_cons] at h
    obtain ⟨first, hx, h⟩ := bindOk h
    obtain ⟨others, hrest, h⟩ := bindOk h
    cases h
    intro y mem
    rcases List.mem_cons.mp mem with rfl | inside
    · exact ⟨x, List.mem_cons_self, hx⟩
    · obtain ⟨z, memz, hz⟩ := ih hrest y inside
      exact ⟨z, List.mem_cons_of_mem x memz, hz⟩

theorem mapSame {l : List α} {f g : α → Except ε β} (same : ∀ x ∈ l, f x = g x) : l.mapM f = l.mapM g := by
  induction l with
  | nil => rfl
  | cons x rest ih =>
    rw [List.mapM_cons, List.mapM_cons, same x List.mem_cons_self, ih fun y mem => same y (List.mem_cons_of_mem x mem)]

theorem existsBind {x : Except ε α} {f : α → Except ε β} : (∃ b, (x >>= f) = .ok b) ↔ ∃ a, x = .ok a ∧ ∃ b, f a = .ok b := by
  constructor
  · rintro ⟨b, ran⟩
    obtain ⟨a, first, later⟩ := bindOk ran
    exact ⟨a, first, b, later⟩
  · rintro ⟨a, rfl, b, later⟩
    exact ⟨b, later⟩

theorem existsMapAll {l : List α} {f : α → Except ε β} : (∃ out, l.mapM f = .ok out) ↔ ∀ x ∈ l, ∃ y, f x = .ok y := by
  induction l with
  | nil => exact ⟨fun _ => nofun, fun _ => ⟨[], rfl⟩⟩
  | cons x rest ih =>
    rw [List.mapM_cons, existsBind, List.forall_mem_cons, ← ih]
    constructor
    · rintro ⟨y, here, _, later⟩
      obtain ⟨ys, tail, -⟩ := bindOk later
      exact ⟨⟨y, here⟩, ys, tail⟩
    · rintro ⟨⟨y, here⟩, ys, tail⟩
      exact ⟨y, here, y :: ys, by rw [tail]; rfl⟩

theorem foldOk {f : β → α → Except ε β} {h : β → α → β} {l : List α} {start : β}
    (step : ∀ b, ∀ x ∈ l, f b x = .ok (h b x)) : l.foldlM f start = .ok (l.foldl h start) := by
  induction l generalizing start with
  | nil => rfl
  | cons x rest ih =>
    rw [List.foldlM_cons, step start x List.mem_cons_self]
    exact ih fun b y mem => step b y (List.mem_cons_of_mem x mem)

/-- By induction on a list: what every step keeps, all of them keep. -/
theorem foldKeeps {P : β → Prop} {f : β → α → Except ε β} {l : List α} {start out : β}
    (step : ∀ b, ∀ x ∈ l, ∀ next, P b → f b x = .ok next → P next) (ran : l.foldlM f start = .ok out) (held : P start) :
    P out := by
  induction l generalizing start with
  | nil =>
    cases ran
    exact held
  | cons x rest ih =>
    rw [List.foldlM_cons] at ran
    obtain ⟨next, here, later⟩ := bindOk ran
    exact ih (fun b y mem => step b y (List.mem_cons_of_mem x mem)) later (step start x List.mem_cons_self next held here)

theorem mapAllMap {γ : Type} {l : List α} {f : α → Except ε β} {g : α → γ} {h : β → γ} {out : List β}
    (same : ∀ x y, f x = .ok y → h y = g x) (ran : l.mapM f = .ok out) : out.map h = l.map g := by
  induction l generalizing out with
  | nil =>
    cases ran
    rfl
  | cons x rest ih =>
    rw [List.mapM_cons] at ran
    obtain ⟨first, here, ran⟩ := bindOk ran
    obtain ⟨others, later, ran⟩ := bindOk ran
    cases ran
    rw [List.map_cons, List.map_cons, same x first here, ih later]

end EntityQuery.Results

namespace EntityQuery.Options

variable {α β γ : Type} {l : List α} {f : α → Option β}

theorem mapCongr {g : α → Option β} (same : ∀ x ∈ l, f x = g x) : l.mapM f = l.mapM g := by
  induction l with
  | nil => rfl
  | cons x rest ih =>
    rw [List.mapM_cons, List.mapM_cons, same x List.mem_cons_self, ih fun y mem => same y (List.mem_cons_of_mem x mem)]

theorem mapSome {g : α → β} (same : ∀ x ∈ l, f x = some (g x)) : l.mapM f = some (l.map g) :=
  (mapCongr same).trans List.mapM_pure

theorem mapNone {x : α} (mem : x ∈ l) (none : f x = none) : l.mapM f = .none := by
  induction l with
  | nil => cases mem
  | cons y rest ih =>
    rw [List.mapM_cons]
    rcases List.mem_cons.mp mem with rfl | later
    · rw [none]
      rfl
    · rw [ih later]
      cases f y <;> rfl

theorem mapLength {out : List β} (h : l.mapM f = some out) : out.length = l.length := by
  induction l generalizing out with
  | nil =>
    cases h
    rfl
  | cons x rest ih =>
    rw [List.mapM_cons] at h
    obtain ⟨y, -, h⟩ := Option.bind_eq_some_iff.mp h
    obtain ⟨ys, later, h⟩ := Option.bind_eq_some_iff.mp h
    cases h
    exact congrArg (· + 1) (ih later)

theorem mapItems {out : List β} (h : l.mapM f = some out) : ∀ y ∈ out, ∃ x ∈ l, f x = some y := by
  induction l generalizing out with
  | nil =>
    cases h
    exact fun y mem => absurd mem List.not_mem_nil
  | cons x rest ih =>
    rw [List.mapM_cons] at h
    obtain ⟨first, here, h⟩ := Option.bind_eq_some_iff.mp h
    obtain ⟨others, later, h⟩ := Option.bind_eq_some_iff.mp h
    cases h
    intro y mem
    rcases List.mem_cons.mp mem with rfl | inside
    · exact ⟨x, List.mem_cons_self, here⟩
    · obtain ⟨z, listed, found⟩ := ih later y inside
      exact ⟨z, List.mem_cons_of_mem x listed, found⟩

/-- Steps over a list, one after the other, are the two steps for each item. -/
theorem mapBind (l : List α) (f : α → Option β) (g : β → Option γ) :
    ((l.mapM f).bind fun out => out.mapM g) = l.mapM fun x => (f x).bind g := by
  induction l with
  | nil => rfl
  | cons x rest ih =>
    rw [List.mapM_cons, List.mapM_cons, ← ih]
    cases f x with
    | none => rfl
    | some y =>
      change (((rest.mapM f).bind fun ys => some (y :: ys)).bind fun out => out.mapM g) =
        (g y).bind fun z => ((rest.mapM f).bind fun out => out.mapM g).bind fun zs => some (z :: zs)
      cases rest.mapM f with
      | none => cases g y <;> rfl
      | some ys => exact List.mapM_cons

theorem exceptMap (l : List α) (f : α → Except Failure β) : (l.mapM f).toOption = l.mapM fun x => (f x).toOption := by
  induction l with
  | nil => rfl
  | cons x rest ih =>
    rw [List.mapM_cons, List.mapM_cons, ← ih]
    cases f x with
    | error e => rfl
    | ok y => cases rest.mapM f <;> rfl

end EntityQuery.Options
