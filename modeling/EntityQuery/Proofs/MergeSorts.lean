import EntityQuery.Proofs.Results
import EntityQuery.Store.Order
import Mathlib.Data.List.Perm.Basic
/-! The sort by runs only moves its items, whatever order its comparisons give, and it ends as long as they do not fail. Each
step of it is followed by what it yields: a place in a list, or the items it was given in another order. -/

namespace EntityQuery

namespace Results

variable {ε α β : Type}

/-- A computation that does not fail, with a result of a property. -/
def Yields (x : Except ε α) (post : α → Prop) : Prop := ∃ a, x = .ok a ∧ post a

theorem yieldsOk {a : α} {post : α → Prop} (h : post a) : Yields (.ok a : Except ε α) post := ⟨a, rfl, h⟩

theorem yieldsBind {x : Except ε α} {f : α → Except ε β} {mid : α → Prop} {post : β → Prop} (first : Yields x mid)
    (next : ∀ a, mid a → Yields (f a) post) : Yields (x >>= f) post := by
  obtain ⟨a, rfl, h⟩ := first
  exact next a h

theorem yieldsMono {x : Except ε α} {post other : α → Prop} (h : Yields x post) (weaker : ∀ a, post a → other a) :
    Yields x other := by
  obtain ⟨a, rfl, h⟩ := h
  exact ⟨a, rfl, weaker a h⟩

/-- What is known of a computation: its result has a property, and it does not fail where it has to be total. -/
def Follows (total : Bool) (x : Except ε α) (post : α → Prop) : Prop := (total → ∃ a, x = .ok a) ∧ ∀ a, x = .ok a → post a

theorem yieldsFollows {x : Except ε α} {post : α → Prop} : Yields x post ↔ Follows true x post := by
  constructor
  · rintro ⟨a, rfl, h⟩
    exact ⟨fun _ => ⟨a, rfl⟩, fun b same => Except.ok.inj same ▸ h⟩
  · rintro ⟨total, h⟩
    obtain ⟨a, given⟩ := total rfl
    exact ⟨a, given, h a given⟩

section

variable {total : Bool}

theorem followsOk {a : α} {post : α → Prop} (h : post a) : Follows total (.ok a : Except ε α) post :=
  ⟨fun _ => ⟨a, rfl⟩, fun _ same => Except.ok.inj same ▸ h⟩

theorem followsBind {x : Except ε α} {f : α → Except ε β} {mid : α → Prop} {post : β → Prop} (first : Follows total x mid)
    (next : ∀ a, mid a → Follows total (f a) post) : Follows total (x >>= f) post := by
  obtain ⟨ends, has⟩ := first
  refine ⟨fun wanted => ?_, fun b ran => ?_⟩
  · obtain ⟨a, rfl⟩ := ends wanted
    exact (next a (has a rfl)).1 wanted
  · obtain ⟨a, rfl, ran⟩ := bindOk ran
    exact (next a (has a rfl)).2 b ran

theorem followsMono {x : Except ε α} {post other : α → Prop} (h : Follows total x post) (weaker : ∀ a, post a → other a) :
    Follows total x other := ⟨h.1, fun a given => weaker a (h.2 a given)⟩

end

/-- By induction on a list: steps that keep a property without failing keep it together. -/
theorem foldYields {f : β → α → Except ε β} {keeps : β → Prop} {l : List α} {start : β}
    (step : ∀ b, keeps b → ∀ x ∈ l, Yields (f b x) keeps) (held : keeps start) : Yields (l.foldlM f start) keeps := by
  induction l generalizing start with
  | nil => exact yieldsOk held
  | cons x rest ih =>
    rw [List.foldlM_cons]
    exact yieldsBind (step start held x List.mem_cons_self) fun next kept =>
      ih (fun b other y mem => step b other y (List.mem_cons_of_mem x mem)) kept

end Results

namespace Sorting

open Results (Follows followsOk followsBind followsMono)

variable {ε α : Type}

/-- Are all items of a list of a kind? -/
def AllOf (kind : α → Prop) (items : List α) : Prop := ∀ a ∈ items, kind a

theorem allPerm {kind : α → Prop} {items others : List α} (same : items.Perm others) (h : AllOf kind others) : AllOf kind items :=
  fun a mem => h a (same.mem_iff.mp mem)

/-- A test that does not fail on items of a kind, where it has to be total. -/
def Tests (total : Bool) (kind : α → Prop) (p : α → Except ε Bool) : Prop := ∀ a, kind a → Follows total (p a) fun _ => True

/-- A comparison that does not fail on items of a kind, where it has to be total. -/
def Compares (total : Bool) (kind : α → Prop) (less : α → α → Except ε Bool) : Prop :=
  ∀ a b, kind a → kind b → Follows total (less a b) fun _ => True

variable {total : Bool} {kind : α → Prop} {p : α → Except ε Bool} {less : α → α → Except ε Bool} {items others : List α}

section Places

theorem strideFollows (tests : Tests total kind p) (all : AllOf kind items) (last next : Nat) :
    Follows total (stride p items last next) fun _ => True := by
  induction last, next using stride.induct items with
  | case1 last next inside ih =>
    rw [stride, dif_pos inside]
    refine followsBind (tests _ (all _ (List.getElem_mem inside))) fun b _ => ?_
    split
    · exact ih
    · exact followsOk trivial
  | case2 last next outside =>
    rw [stride, dif_neg outside]
    exact followsOk trivial

theorem narrowFollows (tests : Tests total kind p) (all : AllOf kind items) (up : Bool) (low high : Nat) :
    Follows total (narrow up p items low high) fun _ => True := by
  induction low, high using narrow.induct up items with
  | case1 low high less middle a found ih1 ih2 =>
    rw [narrow, if_pos less]
    extract_lets half
    rw [show items[half]? = some a from found]
    refine followsBind (tests a (all a (List.mem_of_getElem? found))) fun b _ => ?_
    split
    · exact ih1
    · exact ih2
  | case2 low high less middle missing =>
    rw [narrow, if_pos less]
    extract_lets half
    rw [show items[half]? = none from missing]
    exact followsOk trivial
  | case3 low high passed =>
    rw [narrow, if_neg passed]
    exact followsOk trivial

theorem gallopFollows (tests : Tests total kind p) (all : AllOf kind items) (up : Bool) : Follows total (gallop up p items) fun _ => True := by
  cases items with
  | nil => exact followsOk trivial
  | cons a items =>
    refine followsBind (tests a (all a List.mem_cons_self)) fun b _ => ?_
    split
    · exact followsOk trivial
    · exact followsBind (strideFollows tests all 0 1) fun _ _ => narrowFollows tests all up _ _

theorem placeFollows (compares : Compares total kind less) {a : α} (one : kind a) (all : AllOf kind items) (low high : Nat) :
    Follows total (place less a items low high) fun _ => True := by
  induction low, high using place.induct items with
  | case1 low high below middle b found ih1 ih2 =>
    rw [place, if_pos below]
    extract_lets
    rw [found]
    refine followsBind (compares a b one (all b (List.mem_of_getElem? found))) fun _ _ => ?_
    split
    · exact ih1
    · exact ih2
  | case2 low high below middle missing =>
    rw [place, if_pos below]
    extract_lets
    rw [missing]
    exact followsOk trivial
  | case3 low high passed =>
    rw [place, if_neg passed]
    exact followsOk trivial

end Places

section Runs

theorem goOnFollows (compares : Compares total kind less) (descending : Bool) {last : α} (one : kind last) (all : AllOf kind items) :
    Follows total (goOn less descending last items) fun parts => parts.1 ++ parts.2 = items := by
  induction items generalizing last with
  | nil => exact followsOk rfl
  | cons a rest ih =>
    have head := all a List.mem_cons_self
    refine followsBind (compares a last head one) fun c _ => ?_
    split
    · exact followsBind (ih head fun b mem => all b (List.mem_cons_of_mem a mem)) fun parts same => followsOk (congrArg (a :: ·) same)
    · exact followsOk rfl

/-- The run that a list begins with is not empty if the list is not, and no item is lost. -/
theorem leadingFollows (compares : Compares total kind less) (all : AllOf kind items) :
    Follows total (leading less items) fun parts => (parts.1 ++ parts.2).Perm items ∧ (items ≠ [] → parts.1 ≠ []) := by
  match items with
  | [] => exact followsOk ⟨.refl _, fun nonempty => nonempty⟩
  | [a] => exact followsOk ⟨.refl _, fun nonempty => nonempty⟩
  | a :: b :: rest =>
    have second := all b (List.mem_cons_of_mem a List.mem_cons_self)
    refine followsBind (compares b a second (all a List.mem_cons_self)) fun descending _ => ?_
    refine followsBind (goOnFollows compares descending second fun c mem =>
      all c (List.mem_cons_of_mem a (List.mem_cons_of_mem b mem)))
      fun parts same => followsOk ?_
    subst same
    cases descending with
    | true => exact ⟨(List.reverse_perm _).append_right _, fun _ => by simp⟩
    | false => exact ⟨.refl _, fun _ => List.cons_ne_nil a _⟩

theorem insertFollows (compares : Compares total kind less) {a : α} (one : kind a) (all : AllOf kind items) :
    Follows total (insert less items a) fun out => out.Perm (a :: items) := by
  refine followsBind (placeFollows compares one all _ _) fun position _ => followsOk ?_
  calc (items.take position ++ a :: items.drop position).Perm (a :: (items.take position ++ items.drop position)) :=
    List.perm_middle
    _ = a :: items := by rw [List.take_append_drop]

theorem insertAllFollows (compares : Compares total kind less) (all : AllOf kind items) (more : AllOf kind others) :
    Follows total (others.foldlM (insert less) items) fun out => out.Perm (items ++ others) := by
  induction others generalizing items with
  | nil =>
    rw [List.append_nil]
    exact followsOk (.refl _)
  | cons a others ih =>
    rw [List.foldlM_cons]
    have head := more a List.mem_cons_self
    refine followsBind (insertFollows compares head all) fun next moved => ?_
    have known : AllOf kind next := allPerm moved (List.forall_mem_cons.mpr ⟨head, all⟩)
    refine followsMono (ih known fun b mem => more b (List.mem_cons_of_mem a mem)) fun out sorted => ?_
    calc out.Perm (next ++ others) := sorted
      _ |>.Perm (a :: items ++ others) := moved.append_right others
      _ |>.Perm (items ++ a :: others) := List.perm_middle.symm

/-- By induction on the fuel, of which every run takes one and leaves a shorter list. -/
theorem runsFollows (compares : Compares total kind less) (least : Nat) {fuel : Nat} (enough : items.length ≤ fuel)
    (all : AllOf kind items) :
    Follows total (runs less least fuel items) fun found => found.flatten.Perm items := by
  induction fuel generalizing items with
  | zero =>
    obtain rfl := List.length_eq_zero_iff.mp (Nat.le_zero.mp enough)
    exact followsOk (.refl _)
  | succ fuel ih =>
    cases items with
    | nil => exact followsOk (.refl _)
    | cons a items =>
      refine followsBind (leadingFollows compares all) fun (run, others) ⟨moved, first⟩ => ?_
      dsimp only at moved first ⊢
      have known := allPerm moved all
      have inRun : AllOf kind run := fun b mem => known b (List.mem_append_left _ mem)
      have after : AllOf kind others := fun b mem => known b (List.mem_append_right _ mem)
      refine followsBind (insertAllFollows compares inRun fun b mem => after b (List.mem_of_mem_take mem)) fun grown sorted => ?_
      have shorter : (others.drop (least - run.length)).length ≤ fuel := by
        have count := moved.length_eq
        have run := List.length_pos_iff.mpr (first (List.cons_ne_nil a items))
        rw [List.length_append] at count
        rw [← count] at enough
        rw [List.length_drop]
        omega
      refine followsBind (ih shorter fun b mem => after b (List.mem_of_mem_drop mem)) fun found rest => followsOk ?_
      rw [List.flatten_cons]
      calc (grown ++ found.flatten).Perm (run ++ others.take (least - run.length) ++ others.drop (least - run.length)) :=
            sorted.append rest
        _ = run ++ others := by rw [List.append_assoc, List.take_append_drop]
        _ |>.Perm (a :: items) := moved

end Runs

namespace Merge

/-- The items of a merge, placed or left. -/
def content (m : Merge α) : List α := m.placed ++ (m.short ++ m.long)

variable {m n : Merge α}

theorem resultContent (m : Merge α) : m.result.Perm m.content :=
  (List.reverse_perm _).append List.perm_append_comm

theorem takeShortContent (m : Merge α) (n : Nat) : (m.takeShort n).content.Perm m.content := by
  show ((m.short.take n).reverse ++ m.placed ++ (m.short.drop n ++ m.long)).Perm _
  calc ((m.short.take n).reverse ++ m.placed ++ (m.short.drop n ++ m.long)).Perm
        (m.placed ++ m.short.take n ++ (m.short.drop n ++ m.long)) :=
          (((List.reverse_perm _).append_right _).trans List.perm_append_comm).append_right _
    _ = m.content := by
      rw [List.append_assoc, ← List.append_assoc (m.short.take n), List.take_append_drop]
      rfl

theorem takeLongContent (m : Merge α) (n : Nat) : (m.takeLong n).content.Perm m.content := by
  show ((m.long.take n).reverse ++ m.placed ++ (m.short ++ m.long.drop n)).Perm _
  calc ((m.long.take n).reverse ++ m.placed ++ (m.short ++ m.long.drop n)).Perm
        (m.placed ++ m.long.take n ++ (m.short ++ m.long.drop n)) :=
          (((List.reverse_perm _).append_right _).trans List.perm_append_comm).append_right _
    _ = m.placed ++ (m.long.take n ++ m.short ++ m.long.drop n) := by simp only [List.append_assoc]
    _ |>.Perm (m.placed ++ (m.short ++ m.long.take n ++ m.long.drop n)) := (List.perm_append_comm.append_right _).append_left _
    _ = m.content := by
      rw [List.append_assoc m.short, List.take_append_drop]
      rfl

theorem shortKnown (all : AllOf kind m.content) : AllOf kind m.short :=
  fun a mem => all a (List.mem_append_right _ (List.mem_append_left _ mem))

theorem longKnown (all : AllOf kind m.content) : AllOf kind m.long :=
  fun a mem => all a (List.mem_append_right _ (List.mem_append_right _ mem))

theorem oneByOneFollows (compares : Compares total kind less) (all : AllOf kind m.content) (shortWins longWins fuel : Nat) :
    Follows total (oneByOne less m shortWins longWins fuel) fun n => n.content.Perm m.content := by
  induction fuel generalizing m shortWins longWins with
  | zero => exact followsOk (.refl _)
  | succ fuel ih =>
    unfold oneByOne
    split
    · next s _ l _ isShort isLong =>
      have short : kind s := shortKnown all s (by rw [isShort]; exact List.mem_cons_self)
      have long : kind l := longKnown all l (by rw [isLong]; exact List.mem_cons_self)
      refine followsBind (compares s l short long) fun first _ => ?_
      have moved : (if first then m.takeLong 1 else m.takeShort 1).content.Perm m.content := by
        cases first
        · exact takeShortContent m 1
        · exact takeLongContent m 1
      extract_lets
      split
      · exact followsOk moved
      · exact followsMono (ih (allPerm moved all) _ _) fun n same => same.trans moved
    · exact followsOk (.refl _)

theorem shortStretchFollows (compares : Compares total kind less) (all : AllOf kind m.content) (up : Bool) :
    Follows total (shortStretch less up m) fun out => out.1.content.Perm m.content := by
  unfold shortStretch
  split
  · exact followsOk (.refl _)
  · next l _ isLong =>
    have long : kind l := longKnown all l (by rw [isLong]; exact List.mem_cons_self)
    have tests : Tests total kind fun s => do return !(← less s l) :=
      fun s short => followsBind (compares s l short long) fun _ _ => followsOk trivial
    refine followsBind (gallopFollows tests (shortKnown all) up) fun n _ => followsOk ?_
    dsimp only
    split
    · exact takeShortContent m n
    · exact (takeLongContent _ 1).trans (takeShortContent m n)

theorem longStretchFollows (compares : Compares total kind less) (all : AllOf kind m.content) (up : Bool) :
    Follows total (longStretch less up m) fun out => out.1.content.Perm m.content := by
  unfold longStretch
  split
  · exact followsOk (.refl _)
  · next s _ isShort =>
    have short : kind s := shortKnown all s (by rw [isShort]; exact List.mem_cons_self)
    refine followsBind (gallopFollows (fun l long => compares s l short long) (longKnown all) up) fun n _ => followsOk ?_
    dsimp only
    split
    · exact takeLongContent m n
    · exact (takeShortContent _ 1).trans (takeLongContent m n)

theorem stretchesFollows (compares : Compares total kind less) (all : AllOf kind m.content) (forward : Bool) :
    Follows total (stretches less forward m) fun out => out.1.content.Perm m.content := by
  have pair {first second : Merge α → Except ε (Merge α × Nat)}
      (one : ∀ {m}, AllOf kind m.content → Follows total (first m) fun out => out.1.content.Perm m.content)
      (other : ∀ {m}, AllOf kind m.content → Follows total (second m) fun out => out.1.content.Perm m.content) :
      Follows total (first m >>= fun early => if early.1.isDone then pure early else
        second early.1 >>= fun late => pure (late.1, max early.2 late.2)) fun out => out.1.content.Perm m.content := by
    refine followsBind (one all) fun early moved => ?_
    split
    · exact followsOk moved
    · exact followsBind (other (allPerm moved all)) fun late again => followsOk (again.trans moved)
  cases forward with
  | true => exact pair (fun all => shortStretchFollows compares all true) fun all => longStretchFollows compares all true
  | false => exact pair (fun all => longStretchFollows compares all false) fun all => shortStretchFollows compares all false

theorem finishFollows (compares : Compares total kind less) (all : AllOf kind m.content) (forward stretching : Bool) (fuel : Nat) :
    Follows total (finish less forward stretching m fuel) fun n => n.content.Perm m.content := by
  induction fuel generalizing m stretching with
  | zero => exact followsOk (.refl _)
  | succ fuel ih =>
    unfold finish
    split
    · exact followsOk (.refl _)
    split
    · refine followsBind (stretchesFollows compares all forward) fun (next, n) moved => ?_
      dsimp only
      split
      · exact followsOk moved
      split
      · have later := ih (m := { next with patience := max 1 (next.patience - 1) }) (allPerm moved all) true
        exact followsMono later fun n same => same.trans moved
      · have later := ih (m := { next with patience := next.patience + 1 }) (allPerm moved all) false
        exact followsMono later fun n same => same.trans moved
    · refine followsBind (oneByOneFollows compares all 0 0 _) fun next moved => ?_
      exact followsMono (ih (allPerm moved all) true) fun n same => same.trans moved

theorem runFollows (compares : Compares total kind less) {short long : List α} (all : AllOf kind (short ++ long)) (forward : Bool)
    (patience : Nat) :
    Follows total (run less forward short long patience) fun m => m.result.Perm (short ++ long) := by
  have moved := takeLongContent (Merge.mk [] short long patience) 1
  exact followsMono (finishFollows compares (allPerm moved all) forward false _) fun m same =>
    (resultContent m).trans (same.trans moved)

end Merge

theorem mergedFollows (compares : Compares total kind less) {first second : List α} (all : AllOf kind (first ++ second)) (patience : Nat) :
    Follows total (merged less first second patience) fun out => out.1.Perm (first ++ second) := by
  have inFirst : AllOf kind first := fun a mem => all a (List.mem_append_left _ mem)
  have inSecond : AllOf kind second := fun a mem => all a (List.mem_append_right _ mem)
  unfold merged
  split
  · rw [List.append_nil]
    exact followsOk (.refl _)
  · next b rest =>
    have before : Tests total kind fun a => do return !(← less b a) :=
      fun a one => followsBind (compares b a (inSecond b List.mem_cons_self) one) fun _ _ => followsOk trivial
    refine followsBind (gallopFollows before inFirst true) fun n _ => ?_
    extract_lets kept left
    have front : kept ++ left = first := List.take_append_drop n first
    have inLeft : AllOf kind left := fun a mem => inFirst a (List.mem_of_mem_drop mem)
    split
    · next none =>
      rw [List.getLast?_eq_none_iff.mp none, List.append_nil] at front
      rw [front]
      exact followsOk (.refl _)
    · next a last =>
      have after : Tests total kind fun b => do return !(← less b a) :=
        fun b one => followsBind (compares b a one (inLeft a (List.mem_of_getLast? last))) fun _ _ => followsOk trivial
      refine followsBind (gallopFollows after (allPerm (List.reverse_perm _) inSecond) false) fun k _ => ?_
      extract_lets tail middle
      have back : middle ++ tail = b :: rest := List.take_append_drop _ _
      have whole {inner : List α} (moved : inner.Perm (left ++ middle)) : (kept ++ (inner ++ tail)).Perm (first ++ b :: rest) := by
        rw [← front, ← back, List.append_assoc, ← List.append_assoc left]
        exact (moved.append_right tail).append_left kept
      have inner : AllOf kind (left ++ middle) := fun c mem =>
        (List.mem_append.mp mem).elim (inLeft c) fun mem => inSecond c (List.mem_of_mem_take mem)
      split
      · next empty =>
        rw [List.isEmpty_iff.mp empty, List.append_nil] at whole
        exact followsOk (whole (.refl _))
      split
      · have turned : Compares total kind fun s l => less l s := fun s l short long => compares l s long short
        exact followsBind (Merge.runFollows turned inner true patience) fun m moved => followsOk (whole moved)
      · have swapped : (middle.reverse ++ left.reverse).Perm (left ++ middle) := by
          rw [← List.reverse_append]
          exact List.reverse_perm _
        exact followsBind (Merge.runFollows compares (allPerm swapped inner) false patience) fun m moved =>
          followsOk (whole ((List.reverse_perm _).trans (moved.trans swapped)))

/-- By recursion on the runs that wait, of which each merge leaves one less. -/
theorem collapseFollows (compares : Compares total kind less) (whole : Bool) (patience : Nat) {stack : List (List α)}
    (all : AllOf kind stack.flatten) :
    Follows total (collapse less whole patience stack) fun out => out.1.flatten.Perm stack.flatten := by
  -- which runs are merged is decided by their lengths only, so each branch just moves what the stack holds
  have pair {run next : List α} (memRun : run ∈ stack) (memNext : next ∈ stack) : AllOf kind (run ++ next) := fun x mem =>
    (List.mem_append.mp mem).elim (fun mem => all x (List.mem_flatten.mpr ⟨run, memRun, mem⟩))
      fun mem => all x (List.mem_flatten.mpr ⟨next, memNext, mem⟩)
  match stack with
  | c :: b :: a :: older =>
    unfold collapse
    split
    · exact followsOk (.refl _)
    split
    · refine followsBind (mergedFollows compares (pair (by simp) (by simp)) patience) fun (m, left) moved => ?_
      have known : (c :: m :: older).flatten.Perm (c :: b :: a :: older).flatten := by
        simp only [List.flatten_cons, ← List.append_assoc b]
        exact ((moved.trans List.perm_append_comm).append_right _).append_left c
      exact followsMono (collapseFollows compares whole left (allPerm known all)) fun out same => same.trans known
    · refine followsBind (mergedFollows compares (pair (by simp) (by simp)) patience) fun (m, left) moved => ?_
      have known : (m :: a :: older).flatten.Perm (c :: b :: a :: older).flatten := by
        simp only [List.flatten_cons, ← List.append_assoc c]
        exact (moved.trans List.perm_append_comm).append_right _
      exact followsMono (collapseFollows compares whole left (allPerm known all)) fun out same => same.trans known
  | [c, b] =>
    unfold collapse
    split
    · exact followsOk (.refl _)
    · refine followsBind (mergedFollows compares (pair (by simp) (by simp)) patience) fun (m, left) moved => followsOk ?_
      simp only [List.flatten_cons, List.flatten_nil, List.append_nil]
      exact moved.trans List.perm_append_comm
  | [c] | [] =>
    unfold collapse
    exact followsOk (.refl _)
termination_by stack.length

theorem pushFollows (compares : Compares total kind less) {found stack : List (List α)} {patience : Nat}
    (all : AllOf kind (stack.flatten ++ found.flatten)) :
    Follows total (found.foldlM (fun (stack, patience) run => collapse less false patience (run :: stack)) (stack, patience)) fun out =>
      out.1.flatten.Perm (stack.flatten ++ found.flatten) := by
  induction found generalizing stack patience with
  | nil =>
    rw [List.flatten_nil, List.append_nil]
    exact followsOk (.refl _)
  | cons run found ih =>
    rw [List.foldlM_cons]
    have front : ((run :: stack).flatten ++ found.flatten).Perm (stack.flatten ++ (run :: found).flatten) := by
      rw [List.flatten_cons, List.flatten_cons, List.append_assoc]
      exact List.perm_append_comm_assoc _ _ _
    have known := allPerm front all
    refine followsBind (collapseFollows compares false patience fun a mem => known a (List.mem_append_left _ mem))
      fun (next, left) moved => ?_
    have same := (moved.append_right found.flatten).trans front
    exact followsMono (ih (allPerm same all)) fun out rest => rest.trans same

/-- Sorting only moves the items, and ends if no comparison of them fails. -/
theorem sortFollows (compares : Compares total kind less) (all : AllOf kind items) :
    Follows total (sort less items) fun out => out.Perm items := by
  refine followsBind (runsFollows compares _ (Nat.le_refl _) all) fun found cut => ?_
  have pushed : AllOf kind ((([] : List (List α)).flatten) ++ found.flatten) := allPerm cut all
  refine followsBind (pushFollows compares pushed) fun (stack, patience) moved => ?_
  have whole := moved.trans cut
  exact followsBind (collapseFollows compares true patience (allPerm whole all)) fun (last, _) same => followsOk (same.trans whole)

end Sorting

namespace Store

open Results (Yields yieldsOk yieldsBind yieldsMono)

/-- Is a value nothing, or one that compares? -/
def Settles (v : Value) : Prop := v.isNothing ∨ Yields (comparable v) fun _ => True

variable {a b : Row} {terms : List OrderTerm} {rows : List Row}

theorem orderYields {v w : Value} (hv : Yields (comparable v) fun _ => True) (hw : Yields (comparable w) fun _ => True) :
    Yields (order v w) fun _ => True :=
  yieldsBind hv fun _ _ => yieldsBind hw fun _ _ => yieldsOk trivial

theorem rowOrderYields (ha : ∀ t ∈ terms, Settles (Row.value a t.column)) (hb : ∀ t ∈ terms, Settles (Row.value b t.column)) :
    Yields (rowOrder a b terms) fun _ => True := by
  induction terms with
  | nil => exact yieldsOk trivial
  | cons t terms ih =>
    have rest := ih (fun u mem => ha u (List.mem_cons_of_mem t mem)) fun u mem => hb u (List.mem_cons_of_mem t mem)
    have later (o : Ordering) : Yields (if o == .eq then rowOrder a b terms else pure o) fun _ => True := by
      split
      · exact rest
      · exact yieldsOk trivial
    have settledA := ha t List.mem_cons_self
    have settledB := hb t List.mem_cons_self
    unfold rowOrder
    extract_lets v w
    by_cases nothing : v.isNothing || w.isNothing
    · rw [if_pos nothing]
      exact later _
    · rw [if_neg nothing]
      obtain ⟨someV, someW⟩ := not_or.mp fun either => nothing (Bool.or_eq_true _ _ |>.mpr either)
      obtain ⟨o, compared, -⟩ := orderYields (settledA.resolve_left someV) (settledB.resolve_left someW)
      rw [compared]
      exact later _

theorem keyedRow {keyed : List SortKey × Row} (found : keyed? terms a = some keyed) : keyed.2 = a := by
  unfold keyed? at found
  cases keys : (terms.mapM fun t => sortKey (Row.value a t.column)).toOption with
  | none => simp [keys] at found
  | some keys =>
    simp only [keys, Option.bind_eq_bind, Option.bind_some] at found
    split at found
    · cases found
      rfl
    · cases found

theorem keyedRows {keyed : List (List SortKey × Row)} (found : rows.mapM (keyed? terms) = some keyed) : keyed.map (·.2) = rows := by
  induction rows generalizing keyed with
  | nil =>
    cases found
    rfl
  | cons row rows ih =>
    rw [List.mapM_cons] at found
    obtain ⟨first, here, found⟩ := Option.bind_eq_some_iff.mp found
    obtain ⟨others, later, found⟩ := Option.bind_eq_some_iff.mp found
    cases found
    rw [List.map_cons, keyedRow here, ih later]

/-- Sorting rows moves them only, and does not fail if all the values that order them compare. -/
theorem sortRowsFollows {total : Bool} (settled : total → ∀ row ∈ rows, ∀ t ∈ terms, Settles (Row.value row t.column)) :
    Results.Follows total (sortRows terms rows) fun out => out.Perm rows := by
  unfold sortRows
  split
  · next keyed found =>
    refine Results.followsOk ?_
    calc ((keyed.mergeSort fun a b => termsOrder terms a.1 b.1 != .gt).map (·.2)).Perm (keyed.map (·.2)) :=
          (List.mergeSort_perm keyed _).map _
      _ = rows := keyedRows found
  · have compares : Sorting.Compares total (· ∈ rows) fun a b => do return (← rowOrder a b terms) == .lt := by
      refine fun a b ha hb => ⟨fun wanted => ?_, fun _ _ => trivial⟩
      obtain ⟨o, ordered, -⟩ := rowOrderYields (settled wanted a ha) (settled wanted b hb)
      dsimp only
      rw [ordered]
      exact ⟨_, rfl⟩
    exact Sorting.sortFollows compares fun row mem => mem

theorem sortRowsYields (settled : ∀ row ∈ rows, ∀ t ∈ terms, Settles (Row.value row t.column)) :
    Yields (sortRows terms rows) fun out => out.Perm rows :=
  Results.yieldsFollows.mpr (sortRowsFollows fun _ => settled)

/-- Whatever rows are sorted by: sorted rows are the rows. -/
theorem sortRowsMoves {out : List Row} (sorted : sortRows terms rows = .ok out) : out.Perm rows := by
  have moved : Results.Follows false (sortRows terms rows) fun out => out.Perm rows := sortRowsFollows nofun
  exact moved.2 out sorted

end Store

end EntityQuery
