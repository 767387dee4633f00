import EntityQuery.Row
/-! What is under the names of a record once a member has been written. -/

namespace EntityQuery

namespace Record

variable {α : Type} {r : Record α}

theorem replaceSame {name : String} {old v : α} (h : r.get? name = some old) :
    r.replace name v = r ↔ v = old := by
  induction r with
  | nil => cases h
  | cons pair rest ih =>
    obtain ⟨key, here⟩ := pair
    unfold get? at h
    unfold replace
    split at h
    · rename_i own
      cases h
      rw [if_pos own]
      simp
    · rename_i other
      rw [if_neg other, List.cons_inj_right]
      exact ih h

theorem memNames {name : String} : name ∈ r.names ↔ (r.get? name).isSome := by
  induction r with
  | nil => simp [names, get?]
  | cons pair rest ih =>
    by_cases own : pair.1 = name
    · simp [names, get?, own]
    · rw [get?, if_neg own, ← ih]
      simp [names, Ne.symm own]

theorem memPairs (distinct : r.names.Nodup) {name : String} {v : α} : (name, v) ∈ r ↔ r.get? name = some v := by
  induction r with
  | nil => simp [get?]
  | cons pair rest ih =>
    obtain ⟨key, here⟩ := pair
    obtain ⟨apart, others⟩ := List.nodup_cons.mp distinct
    by_cases own : key = name
    · subst own
      have absent : (key, v) ∉ rest := fun mem => apart (List.mem_map.mpr ⟨_, mem, rfl⟩)
      simp [get?, absent, eq_comm]
    · simp [get?, own, Ne.symm own, ih others]

theorem getMapped {β : Type} (f : α → β) (r : Record α) (name : String) : get? (mapValues f r) name = (get? r name).map f := by
  induction r with
  | nil => rfl
  | cons pair rest ih =>
    by_cases here : pair.1 = name
    · simp [mapValues, get?, here]
    · simpa [mapValues, get?, here] using ih

theorem namesMapped {β : Type} (f : α → β) (r : Record α) : names (mapValues f r) = names r := by
  simp [names, mapValues]

theorem replaceTwice (r : Record α) (name : String) (v w : α) : (r.replace name v).replace name w = r.replace name w := by
  induction r with
  | nil => rfl
  | cons pair rest ih =>
    obtain ⟨key, old⟩ := pair
    by_cases own : key = name
    · simp [replace, own]
    · simp [replace, own, ih]

theorem getInsertIndex (i : Nat) (name : String) (v : α) (r : Record α) (absent : r.get? name = none) :
    (insertIndex i name v r).get? name = some v ∧
      ∀ other, other ≠ name → (insertIndex i name v r).get? other = r.get? other := by
  induction r with
  | nil => simp [insertIndex, get?, eq_comm]
  | cons pair rest ih =>
    obtain ⟨key, old⟩ := pair
    have differs : key ≠ name := by
      rintro rfl
      simp [get?] at absent
    have absentRest : get? rest name = none := by simpa [get?, differs] using absent
    obtain ⟨here, others⟩ := ih absentRest
    have front : get? ((name, v) :: (key, old) :: rest) name = some v ∧
        ∀ other, other ≠ name → get? ((name, v) :: (key, old) :: rest) other = get? ((key, old) :: rest) other := by
      refine ⟨by simp [get?], fun other apart => ?_⟩
      rw [get?, if_neg apart.symm]
    unfold insertIndex
    split
    · split
      · refine ⟨by simp [get?, differs, here], fun other apart => ?_⟩
        rw [get?, get?, others other apart]
      · exact front
    · exact front

theorem getAppend (name : String) (v : α) (r : Record α) (absent : r.get? name = none) :
    get? (r ++ [(name, v)]) name = some v ∧ ∀ other, other ≠ name → get? (r ++ [(name, v)]) other = r.get? other := by
  induction r with
  | nil => simp [get?, eq_comm]
  | cons pair rest ih =>
    obtain ⟨key, old⟩ := pair
    have differs : key ≠ name := by
      rintro rfl
      simp [get?] at absent
    have absentRest : get? rest name = none := by simpa [get?, differs] using absent
    obtain ⟨here, others⟩ := ih absentRest
    refine ⟨by simp [get?, differs, here], fun other apart => ?_⟩
    rw [List.cons_append, get?, get?, others other apart]

theorem getPut (r : Record α) (name : String) (v : α) :
    (r.put name v).get? name = some v ∧ ∀ other, other ≠ name → (r.put name v).get? other = r.get? other := by
  unfold put
  split
  · rename_i present
    exact ⟨get?_replace present, fun other apart => get?_replace_of_ne apart⟩
  · rename_i missing
    have absent : r.get? name = none := by simpa [has] using missing
    split
    · exact getInsertIndex _ name v r absent
    · exact getAppend name v r absent

theorem putSame {name : String} {v : α} (h : r.get? name = some v) : r.put name v = r := by
  unfold put
  rw [if_pos (by simp [has, h])]
  exact (replaceSame h).mpr rfl

theorem replaceAdded {name : String} (absent : r.get? name = none) (i : Nat) (v w : α) :
    replace (insertIndex i name v r) name w = insertIndex i name w r ∧
      replace (r ++ [(name, v)]) name w = r ++ [(name, w)] := by
  induction r with
  | nil => simp [insertIndex, replace]
  | cons pair rest ih =>
    obtain ⟨key, old⟩ := pair
    have differs : key ≠ name := by
      rintro rfl
      simp [get?] at absent
    obtain ⟨inserted, appended⟩ := ih (by simpa [get?, differs] using absent)
    refine ⟨?_, by simp [replace, differs, appended]⟩
    unfold insertIndex
    split
    · split <;> simp [replace, differs, inserted]
    · simp [replace]

theorem putTwice (r : Record α) (name : String) (v w : α) : (r.put name v).put name w = r.put name w := by
  have present : (r.put name v).has name := by
    rw [has, (getPut r name v).1]
    rfl
  rw [put, if_pos present]
  unfold put
  split
  · exact replaceTwice r name v w
  · rename_i missing
    have absent : r.get? name = none := by simpa [has] using missing
    split
    · exact (replaceAdded absent _ v w).1
    · exact (replaceAdded absent 0 v w).2

theorem permInsertIndex (i : Nat) (name : String) (v : α) (r : Record α) : (insertIndex i name v r).Perm ((name, v) :: r) := by
  induction r with
  | nil => exact .refl _
  | cons pair rest ih =>
    unfold insertIndex
    split
    · split
      · exact (ih.cons pair).trans (.swap ..)
      · exact .refl _
    · exact .refl _

/-- A member with a new name is added to those that are there. -/
theorem permPut {name : String} (v : α) (fresh : r.get? name = none) : (r.put name v).Perm ((name, v) :: r) := by
  have absent : ¬ r.has name := by
    unfold has
    rw [fresh]
    exact Bool.false_ne_true
  unfold put
  rw [if_neg absent]
  split
  · exact permInsertIndex _ name v r
  · exact List.perm_append_comm

/-- Members of different names all become members of the record that is written from them. -/
theorem permOfPairs {pairs : List (String × α)} (distinct : (pairs.map (·.1)).Nodup) : (ofPairs pairs).Perm pairs := by
  have added : ∀ acc : Record α, (∀ pair ∈ pairs, acc.get? pair.1 = none) →
      (pairs.foldl (fun r pair => r.put pair.1 pair.2) acc).Perm (acc ++ pairs) := by
    induction pairs with
    | nil =>
      intro acc _
      rw [List.append_nil]
      exact .refl _
    | cons pair rest ih =>
      intro acc fresh
      obtain ⟨apart, others⟩ := List.nodup_cons.mp distinct
      have placed := permPut pair.2 (fresh pair List.mem_cons_self)
      have later : ∀ other ∈ rest, (acc.put pair.1 pair.2).get? other.1 = none := by
        intro other mem
        have another : other.1 ≠ pair.1 := fun same => apart (List.mem_map.mpr ⟨other, mem, same⟩)
        rw [(getPut acc pair.1 pair.2).2 other.1 another]
        exact fresh other (List.mem_cons_of_mem pair mem)
      calc
        (rest.foldl (fun r pair => r.put pair.1 pair.2) (acc.put pair.1 pair.2)).Perm (acc.put pair.1 pair.2 ++ rest) :=
          ih others _ later
        List.Perm _ (pair :: acc ++ rest) := placed.append_right rest
        List.Perm _ (acc ++ pair :: rest) := List.perm_middle.symm
  exact added [] fun _ _ => rfl

end Record

namespace Row

theorem valuePut (row : Row) (column : String) (v : Value) : Row.value (Record.put row column v) column = v := by
  rw [Row.value, (Record.getPut row column v).1]
  rfl

theorem valuePutOther (row : Row) {column other : String} (v : Value) (apart : other ≠ column) :
    Row.value (Record.put row column v) other = Row.value row other := by
  rw [Row.value, (Record.getPut row column v).2 other apart]
  rfl

end Row

end EntityQuery
