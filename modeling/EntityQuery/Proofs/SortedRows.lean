import EntityQuery.Proofs.Comparing
import Mathlib.Tactic.Ring
/-! Sorting rows whose values all have a place in the order. The sort is stable and the order total, so that of some
of the rows each stands where it stands when those rows are sorted alone. -/

namespace EntityQuery

namespace Sorting

variable {α : Type} {le : α → α → Bool}

/-- A list falls in one way into a part that has a property and a part that has not. -/
theorem splitUnique {p : α → Bool} {a b c d : List α} (same : a ++ b = c ++ d) (ha : ∀ x ∈ a, p x) (hb : ∀ x ∈ b, p x = false)
    (hc : ∀ x ∈ c, p x) (hd : ∀ x ∈ d, p x = false) : a = c ∧ b = d := by
  have kept : ∀ {u v : List α}, (∀ x ∈ u, p x) → (∀ x ∈ v, p x = false) → (u ++ v).filter p = u := by
    intro u v hu hv
    have none : v.filter p = [] := List.filter_eq_nil_iff.mpr fun x mem => by rw [hv x mem]; exact Bool.false_ne_true
    rw [List.filter_append, List.filter_eq_self.mpr hu, none, List.append_nil]
  have first : a = c := by rw [← kept ha hb, same, kept hc hd]
  subst first
  exact ⟨rfl, List.append_cancel_left same⟩

theorem filterOrdered (trans : ∀ a b c, le a b → le b c → le a c) (total : ∀ a b, (le a b || le b a) = true) (p : α → Bool)
    (l : List α) : (l.mergeSort le).filter p = (l.filter p).mergeSort le := by
  induction l with
  | nil => simp
  | cons a l ih =>
    obtain ⟨before, after, whole, rest, front⟩ := List.mergeSort_cons trans total a l
    rw [rest, List.filter_append] at ih
    rw [whole, List.filter_append]
    cases kept : p a with
    | false => rw [List.filter_cons_of_neg (by simp [kept]), List.filter_cons_of_neg (by simp [kept]), ih]
    | true =>
      rw [List.filter_cons_of_pos kept, List.filter_cons_of_pos kept]
      obtain ⟨before', after', whole', rest', front'⟩ := List.mergeSort_cons trans total a (l.filter p)
      -- what goes before the first item is what it is not less than or equal to, in both lists
      have back : ∀ x ∈ after, le a x := by
        have sorted := List.pairwise_mergeSort trans total (a :: l)
        rw [whole] at sorted
        exact (List.pairwise_cons.mp (List.pairwise_append.mp sorted).2.1).1
      have back' : ∀ x ∈ after', le a x := by
        have sorted := List.pairwise_mergeSort trans total (a :: l.filter p)
        rw [whole'] at sorted
        exact (List.pairwise_cons.mp (List.pairwise_append.mp sorted).2.1).1
      obtain ⟨same, others⟩ := splitUnique (p := fun x => !le a x) (ih.trans rest')
        (fun x mem => front x (List.mem_filter.mp mem).1)
        (fun x mem => by rw [back x (List.mem_filter.mp mem).1]; rfl) front' (fun x mem => by rw [back' x mem]; rfl)
      rw [whole', same, others]

/-- Some of the items of a list, in the order in which all of them are sorted, stand as they are sorted alone. -/
theorem filterSorted {l : List α} (trans : ∀ a ∈ l, ∀ b ∈ l, ∀ c ∈ l, le a b → le b c → le a c)
    (total : ∀ a ∈ l, ∀ b ∈ l, (le a b || le b a) = true) (p : α → Bool) :
    (l.mergeSort le).filter p = (l.filter p).mergeSort le := by
  have sorted : ∀ k : List { a // a ∈ l }, (k.mergeSort fun a b => le a.1 b.1).map Subtype.val = (k.map Subtype.val).mergeSort le :=
    fun k => List.map_mergeSort fun _ _ _ _ => rfl
  have filtered : ∀ k : List { a // a ∈ l }, (k.filter (p ∘ Subtype.val)).map Subtype.val = (k.map Subtype.val).filter p :=
    fun k => List.filter_map.symm
  have alone := congrArg (List.map Subtype.val) (@filterOrdered _ (fun a b : { a // a ∈ l } => le a.1 b.1)
    (fun a b c => trans a.1 a.2 b.1 b.2 c.1 c.2) (fun a b => total a.1 a.2 b.1 b.2) (p ∘ Subtype.val) l.attach)
  rwa [filtered, sorted, sorted, filtered, List.attach_map_subtype_val] at alone

theorem sortedPairwise {l : List α} (trans : ∀ a ∈ l, ∀ b ∈ l, ∀ c ∈ l, le a b → le b c → le a c)
    (total : ∀ a ∈ l, ∀ b ∈ l, (le a b || le b a) = true) : (l.mergeSort le).Pairwise fun a b => le a b := by
  have sorted : (l.attach.mergeSort fun a b => le a.1 b.1).map Subtype.val = l.mergeSort le := by
    rw [List.map_mergeSort (s := le) fun _ _ _ _ => rfl, List.attach_map_subtype_val]
  rw [← sorted, List.pairwise_map]
  exact List.pairwise_mergeSort (fun a b c => trans a.1 a.2 b.1 b.2 c.1 c.2) (fun a b => total a.1 a.2 b.1 b.2) l.attach

end Sorting

namespace Number

variable {x y z : Number}

theorem compareSwap (x y : Number) : (x.compare? y).getD .eq = ((y.compare? x).getD .eq).swap := by
  rcases ratioCases x with rfl | ⟨p, rfl⟩ | ⟨a, b, hx⟩
  · rw [(compareNaN y).1, (compareNaN y).2]
    rfl
  · rcases ratioCases y with rfl | ⟨q, rfl⟩ | ⟨c, d, hy⟩
    · rfl
    · cases p <;> cases q <;> rfl
    · cases y <;> cases hy <;> cases p <;> rfl
  · rcases ratioCases y with rfl | ⟨q, rfl⟩ | ⟨c, d, hy⟩
    · rw [(compareNaN x).1, (compareNaN x).2]
      rfl
    · cases x <;> cases hx <;> cases q <;> rfl
    · rw [compareRatio hx hy, compareRatio hy hx, Option.getD_some, Option.getD_some]
      exact Std.OrientedCmp.eq_swap

theorem compareLe (placed : y ≠ .nan) (xy : ((x.compare? y).getD .eq).isLE) (yz : ((y.compare? z).getD .eq).isLE) :
    x = .nan ∨ z = .nan ∨ ((x.compare? z).getD .eq).isLE := by
  rcases ratioCases x with rfl | ⟨p, rfl⟩ | ⟨a, b, hx⟩
  · exact .inl rfl
  · rcases ratioCases z with rfl | ⟨r, rfl⟩ | ⟨e, f, hz⟩
    · exact .inr (.inl rfl)
    · rcases ratioCases y with rfl | ⟨q, rfl⟩ | ⟨c, d, hy⟩
      · exact absurd rfl placed
      · cases p <;> cases q <;> cases r <;> simp_all [compare?]
      · cases y <;> cases hy <;> cases p <;> cases r <;> simp_all [compare?]
    · cases p with
      | true => cases z <;> cases hz <;> exact .inr (.inr rfl)
      | false =>
        rcases ratioCases y with rfl | ⟨q, rfl⟩ | ⟨c, d, hy⟩
        · exact absurd rfl placed
        · cases q
          · cases z <;> cases hz <;> cases yz
          · cases xy
        · cases y <;> cases hy <;> cases xy
  · rcases ratioCases z with rfl | ⟨r, rfl⟩ | ⟨e, f, hz⟩
    · exact .inr (.inl rfl)
    · cases r with
      | false => cases x <;> cases hx <;> exact .inr (.inr rfl)
      | true =>
        rcases ratioCases y with rfl | ⟨q, rfl⟩ | ⟨c, d, hy⟩
        · exact absurd rfl placed
        · cases q
          · cases yz
          · cases x <;> cases hx <;> cases xy
        · cases y <;> cases hy <;> cases yz
    · rcases ratioCases y with rfl | ⟨q, rfl⟩ | ⟨c, d, hy⟩
      · exact absurd rfl placed
      · cases q
        · cases z <;> cases hz <;> cases yz
        · cases x <;> cases hx <;> cases xy
      · rw [compareRatio hx hy, Option.getD_some, Std.isLE_compare] at xy
        rw [compareRatio hy hz, Option.getD_some, Std.isLE_compare] at yz
        rw [compareRatio hx hz, Option.getD_some, Std.isLE_compare]
        -- the denominator in the middle is positive, so it can be cancelled
        have middle : (0 : Int) < d := by exact_mod_cast ratioPositive hy
        refine .inr (.inr (le_of_mul_le_mul_right ?_ middle))
        calc a * f * d = a * d * f := by ring
          _ ≤ c * b * f := mul_le_mul_of_nonneg_right xy (Int.natCast_nonneg f)
          _ = c * f * b := by ring
          _ ≤ e * d * b := mul_le_mul_of_nonneg_right yz (Int.natCast_nonneg b)
          _ = e * b * d := by ring

end Number

namespace Store

theorem unitsCompared (a b : List Nat) : Text.compareLists a b = compare a b := by
  induction a generalizing b with
  | nil => cases b <;> rfl
  | cons m rest ih =>
    cases b with
    | nil => rfl
    | cons n others =>
      rw [Text.compareLists, ih, List.compare_cons_cons]
      split
      · rename_i less
        rw [compare_lt_iff_lt.mpr less]
        rfl
      · rename_i notLess
        split
        · rename_i more
          rw [compare_gt_iff_gt.mpr more]
          rfl
        · obtain rfl : m = n := by omega
          rw [compare_eq_iff_eq.mpr rfl]
          rfl

/-- Values that have a place in the order. -/
abbrev Placed := { x : Comparable // isPlaced (some x) }

theorem placedNumber {n : Number} (placed : isPlaced (some (.number n))) : n ≠ .nan := by
  rintro rfl
  cases placed

instance placedOrder : Std.TransCmp fun a b : Placed => a.1.order b.1 where
  eq_swap := by
    rintro ⟨m | (_ | s), hm⟩ ⟨n | (_ | t), hn⟩ <;> try rfl
    · exact Number.compareSwap m n
    · change Text.compareLists _ _ = (Text.compareLists _ _).swap
      rw [unitsCompared, unitsCompared]
      exact Std.OrientedCmp.eq_swap
  isLE_trans := by
    rintro ⟨x, hx⟩ ⟨y, hy⟩ ⟨z, hz⟩ xy yz
    rcases y with n | (_ | t)
    · rcases x with m | (_ | s)
      · rcases z with k | _
        · rcases Number.compareLe (placedNumber hy) xy yz with nan | nan | le
          · exact absurd nan (placedNumber hx)
          · exact absurd nan (placedNumber hz)
          · exact le
        · rfl
      · cases hx
      · cases xy
    · cases hy
    · rcases z with _ | (_ | u)
      · cases yz
      · cases hz
      · rcases x with _ | (_ | s)
        · rfl
        · cases hx
        · change (Text.compareLists _ _).isLE at xy yz ⊢
          rw [unitsCompared] at xy yz ⊢
          exact Std.TransCmp.isLE_trans xy yz

theorem missingSwap (t : OrderTerm) (a b : Bool) : missingOrder t a b = (missingOrder t b a).swap := by
  unfold missingOrder
  cases missingFirst t <;> cases a <;> cases b <;> rfl

theorem directedSwap (t : OrderTerm) (o : Ordering) : directed t o.swap = (directed t o).swap := by
  unfold directed
  cases t.direction <;> rfl

/-- Keys to sort by that have a place in the order. -/
abbrev PlacedKey := { k : SortKey // isPlaced k }

instance termCompares (t : OrderTerm) : Std.TransCmp fun a b : PlacedKey => termOrder t a.1 b.1 where
  eq_swap := by
    rintro ⟨_ | x, hx⟩ ⟨_ | y, hy⟩
    · exact missingSwap t true true
    · exact missingSwap t true false
    · exact missingSwap t false true
    · have swapped : x.order y = (y.order x).swap := placedOrder.eq_swap (a := ⟨x, hx⟩) (b := ⟨y, hy⟩)
      change directed t _ = (directed t _).swap
      rw [swapped, directedSwap]
  isLE_trans := by
    rintro ⟨_ | x, hx⟩ ⟨_ | y, hy⟩ ⟨_ | z, hz⟩ xy yz
    · exact xy
    · exact yz
    · rfl
    · exact xy
    · exact xy
    · -- what is missing cannot come both after and before what is there
      change (missingOrder t false true).isLE at xy
      change (missingOrder t true false).isLE at yz
      unfold missingOrder at xy yz
      cases first : missingFirst t with
      | true =>
        rw [first] at xy
        exact absurd xy Bool.false_ne_true
      | false =>
        rw [first] at yz
        exact absurd yz Bool.false_ne_true
    · exact yz
    · change (directed t (x.order y)).isLE at xy
      change (directed t (y.order z)).isLE at yz
      change (directed t (x.order z)).isLE
      have back : ∀ {a b : Comparable}, (a.order b).swap.isLE = (a.order b).isGE := Ordering.isLE_swap
      cases ascending : t.direction with
      | ascending =>
        simp only [directed, ascending] at xy yz ⊢
        exact placedOrder.isLE_trans (a := ⟨x, hx⟩) (b := ⟨y, hy⟩) (c := ⟨z, hz⟩) xy yz
      | descending | foreign _ =>
        simp only [directed, ascending, back] at xy yz ⊢
        exact @Std.TransCmp.isGE_trans _ _ placedOrder ⟨x, hx⟩ ⟨y, hy⟩ ⟨z, hz⟩ xy yz

theorem termsCompare {α : Type} {key : α → OrderTerm → SortKey} {terms : List OrderTerm}
    (placed : ∀ a, ∀ t ∈ terms, isPlaced (key a t)) :
    Std.TransCmp fun a b => termsOrder terms (terms.map (key a)) (terms.map (key b)) := by
  induction terms with
  | nil => exact { eq_swap := rfl, isLE_trans := fun _ _ => rfl }
  | cons t rest ih =>
    have later := ih fun a u mem => placed a u (List.mem_cons_of_mem t mem)
    have column : ∀ a, isPlaced (key a t) := fun a => placed a t List.mem_cons_self
    have here : Std.TransCmp fun a b => termOrder t (key a t) (key b t) :=
      { eq_swap := fun {a b} => (termCompares t).eq_swap (a := ⟨key a t, column a⟩) (b := ⟨key b t, column b⟩)
        isLE_trans := fun {a b c} =>
          (termCompares t).isLE_trans (a := ⟨key a t, column a⟩) (b := ⟨key b t, column b⟩) (c := ⟨key c t, column c⟩) }
    exact inferInstanceAs (Std.TransCmp (compareLex (fun a b => termOrder t (key a t) (key b t))
      fun a b => termsOrder rest (rest.map (key a)) (rest.map (key b))))

/-- What a row is sorted by under a term. -/
def rank (row : Row) (t : OrderTerm) : SortKey := Results.valueOr none (sortKey (Row.value row t.column))

/-- Have all values of a row that terms order a place? -/
def Ranks (terms : List OrderTerm) (row : Row) : Prop :=
  ∀ t ∈ terms, ∃ k, sortKey (Row.value row t.column) = .ok k ∧ isPlaced k

/-- Rows in the order of terms. -/
def ranked (terms : List OrderTerm) (rows : List Row) : List Row :=
  rows.mergeSort fun a b => termsOrder terms (terms.map (rank a)) (terms.map (rank b)) != .gt

theorem rankOk {terms : List OrderTerm} {row : Row} (ranks : Ranks terms row) {t : OrderTerm} (mem : t ∈ terms) :
    sortKey (Row.value row t.column) = .ok (rank row t) ∧ isPlaced (rank row t) := by
  obtain ⟨k, found, placed⟩ := ranks t mem
  have same : rank row t = k := by
    unfold rank
    rw [found]
    rfl
  rw [same]
  exact ⟨found, placed⟩

theorem keyedRanks {terms : List OrderTerm} {row : Row} (ranks : Ranks terms row) :
    keyed? terms row = some (terms.map (rank row), row) := by
  have keys : terms.mapM (fun t => sortKey (Row.value row t.column)) = .ok (terms.map (rank row)) :=
    Results.mapAllOk fun t mem => (rankOk ranks mem).1
  have placed : (terms.map (rank row)).all isPlaced := by
    rw [List.all_map, List.all_eq_true]
    exact fun t mem => (rankOk ranks mem).2
  unfold keyed?
  rw [keys]
  exact if_pos placed

theorem sortRanked {terms : List OrderTerm} {rows : List Row} (ranks : ∀ row ∈ rows, Ranks terms row) :
    sortRows terms rows = .ok (ranked terms rows) := by
  have keyed : rows.mapM (keyed? terms) = some (rows.map fun row => (terms.map (rank row), row)) := by
    induction rows with
    | nil => rfl
    | cons row rest ih =>
      rw [List.mapM_cons, keyedRanks (ranks row List.mem_cons_self), ih fun row mem => ranks row (List.mem_cons_of_mem _ mem)]
      rfl
  unfold sortRows ranked
  rw [keyed]
  dsimp only
  rw [← List.map_mergeSort (r := fun a b => termsOrder terms (terms.map (rank a)) (terms.map (rank b)) != .gt) (fun _ _ _ _ => rfl),
    List.map_map]
  exact congrArg Except.ok (List.map_id _)

/-- Is a row sorted no later than another? -/
abbrev atMost (terms : List OrderTerm) (a b : Row) : Bool := termsOrder terms (terms.map (rank a)) (terms.map (rank b)) != .gt

section Ranked

variable {terms : List OrderTerm} {rows : List Row}

theorem ranksCompare (ranks : ∀ row ∈ rows, Ranks terms row) :
    Std.TransCmp fun a b : { row // row ∈ rows } => termsOrder terms (terms.map (rank a.1)) (terms.map (rank b.1)) :=
  termsCompare fun a _ mem => (rankOk (ranks a.1 a.2) mem).2

theorem atMostTrans (ranks : ∀ row ∈ rows, Ranks terms row) :
    ∀ a ∈ rows, ∀ b ∈ rows, ∀ c ∈ rows, atMost terms a b → atMost terms b c → atMost terms a c := by
  have same : ∀ o : Ordering, (o != .gt) = o.isLE := fun o => by cases o <;> rfl
  intro a ha b hb c hc ab bc
  rw [atMost, same] at ab bc ⊢
  exact (ranksCompare ranks).isLE_trans (a := ⟨a, ha⟩) (b := ⟨b, hb⟩) (c := ⟨c, hc⟩) ab bc

theorem atMostTotal (ranks : ∀ row ∈ rows, Ranks terms row) :
    ∀ a ∈ rows, ∀ b ∈ rows, (atMost terms a b || atMost terms b a) = true := by
  intro a ha b hb
  have swapped := (ranksCompare ranks).eq_swap (a := ⟨b, hb⟩) (b := ⟨a, ha⟩)
  dsimp only at swapped
  rw [atMost, atMost, swapped]
  cases termsOrder terms (terms.map (rank a)) (terms.map (rank b)) <;> rfl

/-- Some of the rows, in the order in which all of them are sorted, stand as they are sorted alone. -/
theorem rankedFilter (ranks : ∀ row ∈ rows, Ranks terms row) (p : Row → Bool) :
    (ranked terms rows).filter p = ranked terms (rows.filter p) :=
  Sorting.filterSorted (atMostTrans ranks) (atMostTotal ranks) p

theorem rankedPairwise (ranks : ∀ row ∈ rows, Ranks terms row) : (ranked terms rows).Pairwise fun a b => atMost terms a b :=
  Sorting.sortedPairwise (atMostTrans ranks) (atMostTotal ranks)

/-- Items in the order of the rows that are made of them, and some of them in that order. -/
theorem rankedItems {α : Type} {l : List α} {out : α → Row} (ranks : ∀ x ∈ l, Ranks terms (out x)) :
    ((l.mergeSort fun a b => atMost terms (out a) (out b)).Pairwise fun a b => atMost terms (out a) (out b)) ∧
      ∀ p : α → Bool, ranked terms ((l.filter p).map out) =
        ((l.mergeSort fun a b => atMost terms (out a) (out b)).filter p).map out := by
  have rows : ∀ row ∈ l.map out, Ranks terms row := by
    intro row mem
    obtain ⟨x, listed, rfl⟩ := List.mem_map.mp mem
    exact ranks x listed
  have trans : ∀ a ∈ l, ∀ b ∈ l, ∀ c ∈ l,
      atMost terms (out a) (out b) → atMost terms (out b) (out c) → atMost terms (out a) (out c) := fun a ha b hb c hc =>
    atMostTrans rows _ (List.mem_map_of_mem ha) _ (List.mem_map_of_mem hb) _ (List.mem_map_of_mem hc)
  have total : ∀ a ∈ l, ∀ b ∈ l, (atMost terms (out a) (out b) || atMost terms (out b) (out a)) = true := fun a ha b hb =>
    atMostTotal rows _ (List.mem_map_of_mem ha) _ (List.mem_map_of_mem hb)
  refine ⟨Sorting.sortedPairwise trans total, fun p => ?_⟩
  rw [Sorting.filterSorted trans total p]
  unfold ranked
  rw [List.map_mergeSort (s := atMost terms) fun _ _ _ _ => rfl]

end Ranked

end Store

end EntityQuery
