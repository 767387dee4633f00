import Mathlib.Data.List.Induction
/-! Parts of a text that are joined by bars. The parts are told apart again if each starts in a way of its own and no part but
one holds a bar before something that starts in that way. -/

namespace EntityQuery.Text

/-- Parts joined by bars. -/
def barred (parts : List (List Char)) : List Char := ['|'].intercalate parts

theorem barredSingle (p : List Char) : barred [p] = p := List.intercalate_singleton

theorem barredCons (p q : List Char) (parts : List (List Char)) : barred (p :: q :: parts) = p ++ '|' :: barred (q :: parts) := by
  unfold barred
  rw [List.intercalate_cons_cons, List.append_assoc]
  rfl

theorem barredConcat {parts : List (List Char)} (some : parts ≠ []) (q : List Char) :
    barred (parts ++ [q]) = barred parts ++ '|' :: q := by
  induction parts with
  | nil => exact absurd rfl some
  | cons p parts ih =>
    cases parts with
    | nil =>
      rw [List.singleton_append, barredCons, barredSingle, barredSingle]
    | cons next parts =>
      have rest := ih nofun
      rw [List.cons_append] at rest
      rw [List.cons_append, List.cons_append, barredCons, barredCons, rest, List.append_assoc]
      rfl

/-- What stands before the first bar. -/
def headOf (p : List Char) : List Char := p.takeWhile (· != '|')

theorem headBarred (p rest : List Char) : headOf (p ++ '|' :: rest) = headOf p := by
  unfold headOf
  induction p with
  | nil => rfl
  | cons c p ih =>
    rw [List.cons_append, List.takeWhile_cons, List.takeWhile_cons, ih]

/-- Does a text hold a bar before what starts a part? -/
def Divides (starts : List Char → Bool) (p : List Char) : Prop := ∃ u rest, p = u ++ '|' :: rest ∧ starts (headOf rest)

theorem barless {starts : List Char → Bool} {p : List Char} (none : '|' ∉ p) : ¬ Divides starts p := by
  rintro ⟨u, rest, rfl, -⟩
  simp at none

section Apart

variable {starts : List Char → Bool} {p q r s : List Char}

theorem barAfter {p q r s u : List Char} (more : q = p ++ u) (same : '|' :: r = u ++ '|' :: s) :
    p = q ∧ r = s ∨ ∃ v, q = p ++ '|' :: v ∧ r = v ++ '|' :: s := by
  cases u with
  | nil =>
    rw [List.append_nil] at more
    exact .inl ⟨more.symm, (List.cons.inj same).2⟩
  | cons c v =>
    obtain ⟨rfl, rest⟩ := List.cons.inj same
    exact .inr ⟨v, more, rest⟩

/-- Of two texts with a bar the first ends in the same place, or one of them goes on behind the bar of the other. -/
theorem barCases (same : p ++ '|' :: r = q ++ '|' :: s) :
    p = q ∧ r = s ∨ (∃ v, q = p ++ '|' :: v ∧ r = v ++ '|' :: s) ∨ ∃ v, p = q ++ '|' :: v ∧ s = v ++ '|' :: r := by
  rcases List.append_eq_append_iff.mp same with ⟨u, more, rest⟩ | ⟨u, more, rest⟩
  · exact (barAfter more rest).imp_right .inl
  · rcases barAfter more rest with ⟨rfl, rfl⟩ | longer
    · exact .inl ⟨rfl, rfl⟩
    · exact .inr (.inr longer)

theorem frontOnce (hp : ¬ Divides starts p) (hq : ¬ Divides starts q) (hr : starts (headOf r)) (hs : starts (headOf s))
    (same : p ++ '|' :: r = q ++ '|' :: s) : p = q ∧ r = s := by
  rcases barCases same with equal | ⟨v, longer, rfl⟩ | ⟨v, longer, rfl⟩
  · exact equal
  · rw [headBarred] at hr
    exact absurd ⟨p, v, longer, hr⟩ hq
  · rw [headBarred] at hs
    exact absurd ⟨q, v, longer, hs⟩ hp

theorem backOnce (hr : ¬ Divides starts r) (hs : ¬ Divides starts s) (startR : starts (headOf r)) (startS : starts (headOf s))
    (same : p ++ '|' :: r = q ++ '|' :: s) : p = q ∧ r = s := by
  rcases barCases same with equal | ⟨v, -, rest⟩ | ⟨v, -, rest⟩
  · exact equal
  · exact absurd ⟨v, s, rest, startS⟩ hr
  · exact absurd ⟨v, r, rest, startR⟩ hs

end Apart

section Fields

variable {α : Type} {starts : List Char → Bool} {f g : α → List Char}

theorem barredStarts {fields : List α} (some : fields ≠ []) (hf : ∀ x ∈ fields, starts (headOf (f x))) :
    starts (headOf (barred (fields.map f))) := by
  cases fields with
  | nil => exact absurd rfl some
  | cons x fields =>
    have first := hf x List.mem_cons_self
    cases fields with
    | nil =>
      rw [List.map_singleton, barredSingle]
      exact first
    | cons y fields =>
      rw [List.map_cons, List.map_cons, barredCons, headBarred]
      exact first

/-- By induction on the fields after the free one, from the last. -/
theorem tailOnce {free : α} {after : List α} (hf : ∀ x ∈ after, starts (headOf (f x))) (hg : ∀ x ∈ after, starts (headOf (g x)))
    (pf : ∀ x ∈ after, ¬ Divides starts (f x)) (pg : ∀ x ∈ after, ¬ Divides starts (g x))
    (same : barred ((free :: after).map f) = barred ((free :: after).map g)) : ∀ x ∈ free :: after, f x = g x := by
  induction after using List.reverseRecOn with
  | nil =>
    intro x mem
    rw [List.map_singleton, List.map_singleton, barredSingle, barredSingle] at same
    rw [List.mem_singleton.mp mem]
    exact same
  | append_singleton after last ih =>
    have here : last ∈ after ++ [last] := List.mem_append_right _ List.mem_cons_self
    have there {x : α} (mem : x ∈ after) : x ∈ after ++ [last] := List.mem_append_left _ mem
    rw [← List.cons_append, List.map_append, List.map_append, List.map_singleton, List.map_singleton,
      barredConcat (by simp), barredConcat (by simp)] at same
    -- the last part divides on neither side, so the bar before it stands in one place
    obtain ⟨rest, equal⟩ := backOnce (pf last here) (pg last here) (hf last here) (hg last here) same
    have others := ih (fun x mem => hf x (there mem)) (fun x mem => hg x (there mem)) (fun x mem => pf x (there mem))
      (fun x mem => pg x (there mem)) rest
    intro x mem
    rw [← List.cons_append] at mem
    rcases List.mem_append.mp mem with mem | mem
    · exact others x mem
    · rw [List.mem_singleton.mp mem]
      exact equal

/-- By induction on the fields before the free one: one joined text has one part for each field, if only the free field may
have parts that divide. -/
theorem barredOnce {free : α} {before after : List α} (hf : ∀ x ∈ before ++ free :: after, starts (headOf (f x)))
    (hg : ∀ x ∈ before ++ free :: after, starts (headOf (g x))) (pf : ∀ x ∈ before ++ after, ¬ Divides starts (f x))
    (pg : ∀ x ∈ before ++ after, ¬ Divides starts (g x))
    (same : barred ((before ++ free :: after).map f) = barred ((before ++ free :: after).map g)) :
    ∀ x ∈ before ++ free :: after, f x = g x := by
  induction before with
  | nil =>
    exact tailOnce (fun x mem => hf x (List.mem_cons_of_mem _ mem)) (fun x mem => hg x (List.mem_cons_of_mem _ mem)) pf pg same
  | cons y before ih =>
    have some : before ++ free :: after ≠ [] := by simp
    have startF := barredStarts some fun x mem => hf x (List.mem_cons_of_mem _ mem)
    have startG := barredStarts some fun x mem => hg x (List.mem_cons_of_mem _ mem)
    have split (h : α → List Char) :
        barred ((y :: before ++ free :: after).map h) = h y ++ '|' :: barred ((before ++ free :: after).map h) := by
      cases before <;> exact barredCons _ _ _
    rw [split, split] at same
    -- the first part divides on neither side, so the bar behind it stands in one place
    obtain ⟨first, rest⟩ := frontOnce (pf y List.mem_cons_self) (pg y List.mem_cons_self) startF startG same
    have others := ih (fun x mem => hf x (List.mem_cons_of_mem _ mem)) (fun x mem => hg x (List.mem_cons_of_mem _ mem))
      (fun x mem => pf x (List.mem_cons_of_mem _ mem)) (fun x mem => pg x (List.mem_cons_of_mem _ mem)) rest
    exact List.forall_mem_cons.mpr ⟨first, others⟩

end Fields

end EntityQuery.Text
