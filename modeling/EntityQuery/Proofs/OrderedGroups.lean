import EntityQuery.Proofs.GroupedRows
import EntityQuery.Proofs.SharedRows
/-! Groups by one column, in their order. A group is the rows that have the text of its first row, and a field asks for just
those rows by equality with what it reads of that row. -/

namespace EntityQuery

namespace Store

section Firsts

variable {text : Row → String} {rows firsts : List Row} {row first : Row}

/-- The rows that have the text of a row. -/
def sharing (text : Row → String) (rows : List Row) (first : Row) : List Row := rows.filter fun row => text row == text first

/-- The first row of every text. -/
structure Firsts (text : Row → String) (rows firsts : List Row) : Prop where
  own : ∀ first ∈ firsts, (sharing text rows first).head? = some first
  apart : (firsts.map text).Nodup
  each : ∀ row ∈ rows, text row ∈ firsts.map text

theorem Firsts.inside (held : Firsts text rows firsts) : ∀ first ∈ firsts, first ∈ rows := fun first mem =>
  (List.mem_filter.mp (List.mem_of_mem_head? (held.own first mem))).1

theorem Firsts.fewer (held : Firsts text rows firsts) : firsts.length ≤ rows.length :=
  (List.subperm_of_subset (List.Nodup.of_map _ held.apart) held.inside).length_le

/-- The groups of some rows under their texts. -/
def entries (text : Row → String) (rows firsts : List Row) : List (String × List Row) :=
  firsts.map fun first => (text first, sharing text rows first)

theorem sharingSame (same : text row = text first) : sharing text (rows ++ [row]) first = sharing text rows first ++ [row] := by
  unfold sharing
  rw [List.filter_append, List.filter_cons_of_pos (by simpa using same), List.filter_nil]

theorem sharingOther (other : text row ≠ text first) : sharing text (rows ++ [row]) first = sharing text rows first := by
  unfold sharing
  rw [List.filter_append, List.filter_cons_of_neg (by simpa using other), List.filter_nil, List.append_nil]

theorem entriesFresh (fresh : text row ∉ firsts.map text) : entries text (rows ++ [row]) firsts = entries text rows firsts := by
  refine List.map_congr_left fun first mem => ?_
  rw [sharingOther fun same => fresh (List.mem_map.mpr ⟨first, mem, same.symm⟩)]

theorem addKnown (apart : (firsts.map text).Nodup) (known : text row ∈ firsts.map text) :
    addToGroup (text row) row (entries text rows firsts) = entries text (rows ++ [row]) firsts := by
  induction firsts with
  | nil => cases known
  | cons first rest ih =>
    obtain ⟨fresh, others⟩ := List.nodup_cons.mp apart
    have unfolded (rows : List Row) : entries text rows (first :: rest) =
      (text first, sharing text rows first) :: entries text rows rest := rfl
    rw [unfolded, unfolded, addToGroup]
    split
    · next same =>
      rw [sharingSame same.symm, entriesFresh (same ▸ fresh)]
    · next other =>
      rw [sharingOther fun same => other same.symm, ih others ((List.mem_cons.mp known).resolve_left fun same => other same.symm)]

theorem addFresh (fresh : text row ∉ firsts.map text) :
    addToGroup (text row) row (entries text rows firsts) = entries text rows firsts ++ [(text row, [row])] := by
  induction firsts with
  | nil => rfl
  | cons first rest ih =>
    obtain ⟨other, later⟩ := not_or.mp fun either => fresh (List.mem_cons.mpr either)
    change addToGroup (text row) row ((text first, sharing text rows first) :: entries text rows rest) = _
    rw [addToGroup, if_neg fun same => other same.symm, ih later]
    rfl

theorem sharingNew (held : Firsts text rows firsts) (fresh : text row ∉ firsts.map text) : sharing text rows row = [] := by
  refine List.filter_eq_nil_iff.mpr fun old mem same => fresh ?_
  rw [← eq_of_beq same]
  exact held.each old mem

/-- A row joins the group of its text, or begins the last one. -/
theorem firstsAdd (held : Firsts text rows firsts) (row : Row) :
    ∃ next, Firsts text (rows ++ [row]) next ∧
      addToGroup (text row) row (entries text rows firsts) = entries text (rows ++ [row]) next := by
  have kept {first : Row} (mem : first ∈ firsts) : (sharing text (rows ++ [row]) first).head? = some first := by
    by_cases same : text row = text first
    · rw [sharingSame same, List.head?_append, held.own first mem]
      rfl
    · rw [sharingOther same, held.own first mem]
  by_cases known : text row ∈ firsts.map text
  · refine ⟨firsts, ⟨fun first => kept, held.apart, fun other mem => ?_⟩, addKnown held.apart known⟩
    rcases List.mem_append.mp mem with old | new
    · exact held.each other old
    · rw [List.mem_singleton.mp new]
      exact known
  · have alone : sharing text (rows ++ [row]) row = [row] := by
      rw [sharingSame rfl, sharingNew held known]
      rfl
    have names : (firsts ++ [row]).map text = firsts.map text ++ [text row] := List.map_append
    refine ⟨firsts ++ [row], ⟨fun first mem => ?_, ?_, fun other mem => ?_⟩, ?_⟩
    · rcases List.mem_append.mp mem with old | new
      · exact kept old
      · rw [List.mem_singleton.mp new, alone]
        rfl
    · rw [names]
      exact List.nodup_append.mpr ⟨held.apart, List.nodup_singleton _, fun old mem new listed same =>
        known (List.mem_singleton.mp listed ▸ same ▸ mem)⟩
    · rw [names, List.mem_append, List.mem_singleton]
      rcases List.mem_append.mp mem with old | new
      · exact .inl (held.each other old)
      · exact .inr (congrArg text (List.mem_singleton.mp new))
    · rw [addFresh known]
      unfold entries
      rw [List.map_append, List.map_singleton, alone]
      exact congrArg (· ++ _) (entriesFresh known).symm

/-- By induction on the rows: what each of them keeps, all of them keep. -/
theorem firstsAll {columns : List String} {before : List Row} (written : ∀ row ∈ rows, groupKey columns row = .ok (text row))
    (held : Firsts text before firsts) :
    ∃ next, Firsts text (before ++ rows) next ∧
      rows.foldlM (fun groups row => do return addToGroup (← groupKey columns row) row groups) (entries text before firsts) =
        .ok (entries text (before ++ rows) next) := by
  induction rows generalizing before firsts with
  | nil =>
    rw [List.append_nil]
    exact ⟨firsts, held, rfl⟩
  | cons row rows ih =>
    obtain ⟨next, added, here⟩ := firstsAdd held row
    obtain ⟨last, all, later⟩ := ih (fun other mem => written other (List.mem_cons_of_mem row mem)) added
    rw [List.append_assoc] at all later
    refine ⟨last, all, ?_⟩
    rw [List.foldlM_cons, written row List.mem_cons_self]
    change rows.foldlM _ (addToGroup (text row) row (entries text before firsts)) = _
    rw [here]
    exact later

theorem groupRowsFirsts {columns : List String} (some : columns ≠ [])
    (written : ∀ row ∈ rows, groupKey columns row = .ok (text row)) :
    ∃ firsts, Firsts text rows firsts ∧ groupRows columns rows = .ok (firsts.map (sharing text rows)) := by
  have none : Firsts text [] [] := ⟨fun _ => nofun, List.nodup_nil, fun _ => nofun⟩
  obtain ⟨firsts, held, ran⟩ := firstsAll written none
  refine ⟨firsts, held, ?_⟩
  unfold groupRows
  rw [if_neg (by simpa using some)]
  change (rows.foldlM _ (entries text [] []) >>= _) = _
  rw [ran]
  change Except.ok _ = _
  unfold entries
  rw [List.map_map]
  rfl

end Firsts

end Store

theorem Value.exactInteger {x : Number} {n : Int} : (Value.number x).exact = .integer n ↔ x.int? = some n := by
  unfold exact
  cases x.int? <;> simp

/-- A number is equal to an integer exactly if it is that integer. -/
theorem Number.equalInteger {x : Number} (double : x.IsDouble) (number : x ≠ .nan) (n : Int) :
    (x.compare? (.integer n)).getD .eq = .eq ↔ x.int? = some n := by
  have ratios {a : Int} {b : Nat} (ratio : x.ratio? = some (a, b)) : (x.compare? (.integer n)).getD .eq = .eq ↔ a = n * b := by
    rw [compareRatio ratio (show ratio? (.integer n) = some (n, 1) from rfl), Option.getD_some, compare_eq_iff_eq, Nat.cast_one,
      Int.mul_one]
  cases x with
  | nan => exact absurd rfl number
  | infinity negative => cases negative <;> constructor <;> intro same <;> cases same
  | integer m =>
    rw [ratios rfl]
    simp [int?]
  | negativeZero =>
    rw [ratios rfl]
    simp [int?]
  | fraction m k =>
    obtain ⟨odd, -, scaled, -⟩ := double
    obtain ⟨j, rfl⟩ : ∃ j, k = j + 1 := ⟨k - 1, by omega⟩
    rw [ratios rfl]
    refine ⟨fun same => ?_, fun whole => by cases whole⟩
    -- the denominator is even, and the numerator is not
    have even : m = 2 * (n * (2 ^ j : Nat)) := by
      rw [same, show Nat.pow 2 (j + 1) = 2 ^ j * 2 from rfl, Nat.cast_mul]
      ring
    omega

namespace Field

variable {f : Field} {v w u : Value}

/-- What is written to a column stays in it: nothing, or a value in the form of the type that is a number if it is to be one,
and if it is a text what the text is written as, with the halves of all pairs joined. -/
structure HoldsWritten (f : Field) (v : Value) : Prop where
  typed : f.HoldsTyped v
  number : v ≠ .number .nan
  text : ∀ s, v = .text s → f.encode v = .ok v ∧ Text.isJoined s.toList

theorem HoldsWritten.form (held : f.HoldsWritten v) (there : v.isNothing = false) : TypedForm f.type v :=
  held.typed.resolve_left (by simp [there])

theorem formTaken {type : ScalarType} (form : TypedForm type v) : type.takes v := by
  cases form with
  | wide wide => exact wide
  | _ => rfl

/-- What a column holds is asked for as it is written. -/
theorem operandHeld (keyed : f.type.isKeyType) (plain : f.type ≠ .json) (held : f.HoldsWritten w) (there : w.isNothing = false)
    (written : f.encode w = .ok u) : f.encodeOperand w = .ok u := by
  have form := held.form there
  refine operandWritten (formTaken form) keyed ?_ written
  refine Bool.and_eq_false_imp.mpr fun _ => ?_
  generalize f.type = type at form plain ⊢
  cases form with
  | json => exact absurd rfl plain
  | _ => rfl

theorem textsEqual {a b : String} (ha : Text.isJoined a.toList) (hb : Text.isJoined b.toList) :
    ∃ same, Store.same (.text a) (.text b) = .ok same ∧ (same = true ↔ Store.Equals (.text a) (.text b)) := by
  refine ⟨_, Store.sameTexts ha hb, ?_⟩
  rw [beq_iff_eq]
  exact (Value.text.injEq a b).symm ▸ Iff.rfl

theorem integersEqual {width : IntegerType} {name : String} (hv : TypedForm (.integer width) v) (hw : TypedForm (.integer width) w)
    (number : v ≠ .number .nan) (written : encodeInteger width name w = .ok u) :
    ∃ same, Store.same v u = .ok same ∧ (same = true ↔ Store.Equals v w) := by
  unfold encodeInteger at written
  split at written
  · cases written
  · next n exactly =>
    split at written
    · cases written
      unfold ofWidth
      cases hv with
      | @wide _ m wide =>
        cases hw with
        | wide _ =>
          cases exactly
          rw [if_pos wide]
          refine ⟨_, Store.sameOf rfl rfl, ?_⟩
          rw [beq_iff_eq]
          exact compare_eq_iff_eq.trans (Value.integer.injEq m n ▸ Iff.rfl)
        | narrow narrow _ => cases wide.symm.trans narrow
      | @narrow _ x narrow double =>
        cases hw with
        | wide wide => cases wide.symm.trans narrow
        | @narrow _ y _ _ =>
          rw [if_neg (by rw [narrow]; exact Bool.false_ne_true)]
          refine ⟨_, Store.sameOf rfl rfl, ?_⟩
          have whole : (Value.number y).exact = .integer n := Value.exactInteger.mpr exactly
          change _ ↔ (Value.number x).exact = (Value.number y).exact
          rw [beq_iff_eq, whole, Value.exactInteger]
          exact Number.equalInteger double (fun nan => number (congrArg Value.number nan)) n
    · cases written

/-- A value of a column is equal to the operand that another one is asked for by exactly if the two are equal. -/
theorem equalsOperand (keyed : f.type.isKeyType) (plain : f.type ≠ .json) (hv : f.HoldsWritten v) (hw : f.HoldsWritten w)
    (there : w.isNothing = false) (written : f.encode w = .ok u) :
    ∃ same, Store.equals v u = .ok same ∧ (same = true ↔ Store.Equals v w) := by
  cases missing : v.isNothing with
  | true =>
    refine ⟨false, if_pos (by rw [missing]; rfl), ?_⟩
    rw [Store.equalsNothing missing, there]
  | false =>
    have given := writtenThere (formTaken (hw.form there)) keyed written
    have compared : Store.equals v u = Store.same v u := if_neg (by rw [missing, given]; exact Bool.false_ne_true)
    rw [compared]
    have formV := hv.form missing
    have formW := hw.form there
    cases type : f.type with
    | float _ | opaqueType =>
      rw [type] at keyed
      cases keyed
    | json => exact absurd type plain
    | integer width =>
      rw [encodeGiven type there] at written
      rw [type] at formV formW
      exact integersEqual formV formW hv.number written
    | bool =>
      rw [encodeGiven type there] at written
      rw [type] at formV formW
      cases formV with | @bool a =>
      cases formW with | @bool b =>
      cases written
      refine ⟨_, Store.sameOf rfl rfl, ?_⟩
      change _ ↔ Value.bool a = .bool b
      rw [Value.bool.injEq]
      cases a <;> cases b <;> decide
    | datetime =>
      rw [encodeGiven type there] at written
      rw [type] at formV formW
      cases formV with | @datetime s _ =>
      cases formW with | @datetime t _ =>
      cases written
      refine ⟨_, Store.sameOf rfl rfl, ?_⟩
      rw [beq_iff_eq]
      refine compare_eq_iff_eq.trans ?_
      change s = t ↔ Value.date (some s) = .date (some t)
      simp
    | text | date | time | uuid =>
      rw [type] at formV formW
      cases formV
      cases formW
      obtain ⟨again, joined⟩ := hw.text _ rfl
      obtain rfl := Except.ok.inj (again.symm.trans written)
      exact textsEqual (hv.text _ rfl).2 joined

end Field

end EntityQuery
