import EntityQuery.Proofs.Comparing
import EntityQuery.Proofs.Statements
import Mathlib.Data.List.Basic
import Mathlib.Data.List.Pairwise
/-! Updates that succeed: what they make of the rows of a table, and that unique columns keep distinct values. -/

namespace EntityQuery.Store

variable {table : String} {fields : List Field} {assignments : List Assignment}

/-- No two rows have one value in a primary key or a unique column. -/
def Distinct (fields : List Field) (rows : List Row) : Prop :=
  rows.Pairwise fun a b => ∀ f ∈ fields, (f.primaryKey || f.unique) → clashes a b f ≠ .ok true

theorem clashesSymm {a b : Row} {f : Field} {clash : Bool} (h : clashes a b f = .ok clash) : clashes b a f = .ok clash := by
  unfold clashes at h ⊢
  dsimp only at h ⊢
  rw [Bool.or_comm]
  split at h
  · rename_i missing
    rwa [if_pos missing]
  · rename_i there
    rw [if_neg there]
    exact sameSymm h

theorem distinctMiddle {before after : List Row} {row : Row} :
    Distinct fields (before ++ row :: after) ↔
      (∀ other ∈ before ++ after, ∀ f ∈ fields, (f.primaryKey || f.unique) → clashes row other f ≠ .ok true) ∧
        Distinct fields (before ++ after) := by
  unfold Distinct
  rw [List.pairwise_middle, List.pairwise_cons]
  intro a b apart f mem unique
  exact fun clash => apart f mem unique (clashesSymm clash)

/-- Rows that have one value in a primary key or a unique column are one row. -/
theorem distinctSame {rows : List Row} {a b : Row} {f : Field} (distinct : Distinct fields rows) (ha : a ∈ rows)
    (hb : b ∈ rows) (mem : f ∈ fields) (unique : f.primaryKey || f.unique)
    (there : (Row.value a f.column).isNothing = false)
    (same : same (Row.value a f.column) (Row.value b f.column) = .ok true)
    (other : (Row.value b f.column).isNothing = false) : a = b := by
  by_contra differs
  have symmetric : Std.Symm fun a b : Row => ∀ f ∈ fields, (f.primaryKey || f.unique) → clashes a b f ≠ .ok true :=
    ⟨fun _ _ apart f mem unique clash => apart f mem unique (clashesSymm clash)⟩
  have apart := List.Pairwise.forall distinct ha hb differs f mem unique
  unfold clashes at apart
  simp only [there, other, Bool.or_self, Bool.false_eq_true, if_false] at apart
  exact apart (sameSymm same)

theorem checkedApart {row : Row} {others : List Row} (h : checkUnique table fields row others = .ok ()) :
    ∀ other ∈ others, ∀ f ∈ fields, (f.primaryKey || f.unique) → clashes row other f = .ok false := by
  intro other mem f inside unique
  unfold checkUnique at h
  have listed : f ∈ fields.filter fun f => f.primaryKey || f.unique := List.mem_filter.mpr ⟨inside, unique⟩
  generalize (fields.filter fun f => f.primaryKey || f.unique) = checked at h listed
  induction checked with
  | nil => cases listed
  | cons g rest ih =>
    unfold List.forM at h
    obtain ⟨_, here, later⟩ := Results.bindOk h
    rcases List.mem_cons.mp listed with rfl | tail
    · obtain ⟨clash, searched, decided⟩ := Results.bindOk here
      cases clash with
      | true => cases decided
      | false => exact Results.anyItems searched other mem
    · exact ih later tail

theorem checkedOf {row : Row} {others : List Row}
    (apart : ∀ other ∈ others, ∀ f ∈ fields, (f.primaryKey || f.unique) → clashes row other f = .ok false) :
    checkUnique table fields row others = .ok () := by
  have each : ∀ f ∈ fields.filter fun f => f.primaryKey || f.unique,
      others.anyM (fun other => clashes row other f) = .ok false := by
    intro f mem
    obtain ⟨inside, unique⟩ := List.mem_filter.mp mem
    rw [Results.anyOk fun other among => apart other among f inside unique, List.any_eq_false.mpr fun _ _ => Bool.false_ne_true]
  unfold checkUnique
  generalize (fields.filter fun f => f.primaryKey || f.unique) = checked at each
  induction checked with
  | nil => rfl
  | cons f rest ih =>
    obtain ⟨here, later⟩ := List.forall_mem_cons.mp each
    unfold List.forM
    rw [here]
    exact ih later

theorem checkedUnique {row : Row} {others : List Row} (h : checkUnique table fields row others = .ok ()) :
    ∀ other ∈ others, ∀ f ∈ fields, (f.primaryKey || f.unique) → clashes row other f ≠ .ok true := by
  intro other mem f inside unique
  rw [checkedApart h other mem f inside unique]
  exact nofun

theorem distinctReplaced {kept : List Field} {before after : List Row} {row next : Row} (sub : kept ⊆ fields)
    (distinct : Distinct kept (before ++ row :: after)) (checked : checkUnique table fields next (before ++ after) = .ok ()) :
    Distinct kept (before ++ next :: after) :=
  distinctMiddle.mpr ⟨fun other mem f inside => checkedUnique checked other mem f (sub inside), (distinctMiddle.mp distinct).2⟩

theorem distinctAdded {kept : List Field} {rows : List Row} {row : Row} (sub : kept ⊆ fields) (distinct : Distinct kept rows)
    (checked : checkUnique table fields row rows = .ok ()) : Distinct kept (rows ++ [row]) := by
  refine distinctMiddle.mpr ⟨fun other mem f inside => ?_, by rwa [List.append_nil]⟩
  rw [List.append_nil] at mem
  exact checkedUnique checked other mem f (sub inside)

theorem notRefused {row : Row} {others : List Row} (h : refusal? table fields assignments row others = none) :
    (∃ after, assignAll table fields row assignments row = (none, after)) ∧
      checkUnique table fields (assignedRow table fields assignments row) others = .ok () := by
  unfold refusal? at h
  unfold assignedRow
  split at h
  · cases h
  · rename_i after assigned
    rw [assigned]
    refine ⟨⟨after, rfl⟩, ?_⟩
    split at h
    · cases h
    · assumption

/-- What an update makes of a row that is flagged or not. -/
def updatedRow (table : String) (fields : List Field) (assignments : List Assignment) (flag : Bool × Row) : Row :=
  if flag.1 then assignedRow table fields assignments flag.2 else flag.2

/-- By induction on the rows: an update that is not stopped changes all flagged rows, and each of them was checked
against all others when it was changed. -/
theorem updateFromDone {kept : List Field} (sub : kept ⊆ fields) (before changed : List Row) (rows : List (Bool × Row))
    (done : (updateFrom table fields assignments before changed rows).failure = none) :
    (updateFrom table fields assignments before changed rows).rows =
        before ++ rows.map (updatedRow table fields assignments) ∧
      (updateFrom table fields assignments before changed rows).changed =
        changed ++ (rows.filter (·.1)).map (fun flag => assignedRow table fields assignments flag.2) ∧
      (Distinct kept (before ++ rows.map (·.2)) →
        Distinct kept (before ++ rows.map (updatedRow table fields assignments))) := by
  induction rows generalizing before changed with
  | nil => exact ⟨by rw [updateFrom, List.map_nil, List.append_nil], by simp [updateFrom], id⟩
  | cons flag rest ih =>
    obtain ⟨isFlagged, row⟩ := flag
    cases isFlagged with
    | false =>
      rw [updateFromPassed] at done ⊢
      obtain ⟨listed, found, distinct⟩ := ih _ _ done
      rw [List.append_assoc, List.append_assoc] at distinct
      refine ⟨by rw [listed, List.append_assoc]; rfl, by rw [found, List.filter_cons_of_neg Bool.false_ne_true], distinct⟩
    | true =>
      rw [updateFromFlagged] at done ⊢
      cases refused : refusal? table fields assignments row (before ++ rest.map (·.2)) with
      | some e =>
        rw [refused] at done
        cases done
      | none =>
        rw [refused] at done
        obtain ⟨listed, found, distinct⟩ := ih _ _ done
        rw [List.append_assoc, List.append_assoc] at distinct
        refine ⟨by rw [listed, List.append_assoc]; rfl, ?_, fun apart => distinct ?_⟩
        · rw [found, List.append_assoc, List.filter_cons_of_pos rfl]
          rfl
        · exact distinctReplaced sub apart (notRefused refused).2

section Done

variable {s t : Store} {w : Written}

theorem updateDone {q : Update} (ran : s.updateRows q = (.ok w, t)) :
    ∃ fields stored, s.fieldsOf q.table = .ok fields ∧ Record.get? s.tables q.table = some stored ∧
      (∀ row ∈ stored, ∃ truth, matchesRow s.tables q.table q.condition row = .ok truth) ∧
      t.content = (s.fields, Record.replace s.tables q.table
        (stored.map fun row => updatedRow q.table fields q.assignments (isMatch s.tables q.table q.condition row, row))) ∧
      (∀ kept, kept ⊆ fields → Distinct kept stored → Distinct kept
        (stored.map fun row => updatedRow q.table fields q.assignments (isMatch s.tables q.table q.condition row, row))) ∧
      written fields q.returning ((stored.filter (isMatch s.tables q.table q.condition)).map
        (assignedRow q.table fields q.assignments)) = .ok w := by
  unfold updateRows at ran
  split at ran
  · cases ran
  · rename_i fields rows flagging
    obtain ⟨known, stored, there, rfl, truths⟩ := flaggedOk flagging
    refine ⟨fields, stored, known, there, truths, ?_⟩
    unfold updateFlagged at ran
    dsimp only at ran
    split at ran
    · cases ran
    · rename_i done
      obtain ⟨listed, changed, -⟩ := updateFromDone (List.nil_subset fields) [] [] _ done
      rw [List.nil_append, List.map_map] at listed
      rw [List.nil_append, List.filter_map, List.map_map] at changed
      rw [listed, changed] at ran
      obtain ⟨answer, rfl⟩ := Prod.mk.inj ran
      refine ⟨rfl, fun kept sub apart => ?_, answer⟩
      have start : Distinct kept
          ([] ++ (stored.map fun row => (isMatch s.tables q.table q.condition row, row)).map (·.2)) := by
        rw [List.nil_append, List.map_map]
        exact (List.map_id stored).symm ▸ apart
      have after := (updateFromDone sub [] [] _ done).2.2 start
      rw [List.nil_append, List.map_map] at after
      exact after

theorem deleteDone {q : Delete} (ran : s.deleteRows q = (.ok w, t)) :
    ∃ fields stored, s.fieldsOf q.table = .ok fields ∧ Record.get? s.tables q.table = some stored ∧
      (∀ row ∈ stored, ∃ truth, matchesRow s.tables q.table q.condition row = .ok truth) ∧
      t.content = (s.fields, Record.replace s.tables q.table
        (stored.filter fun row => !isMatch s.tables q.table q.condition row)) := by
  cases flagging : s.flagged q.table q.condition with
  | error e =>
    unfold deleteRows deleteFrom at ran
    rw [flagging] at ran
    cases ran
  | ok found =>
    obtain ⟨fields, rows⟩ := found
    obtain ⟨known, stored, there, listed, truths⟩ := flaggedOk flagging
    refine ⟨fields, stored, known, there, truths, ?_⟩
    have tables := deleteFromTables (fun fields gone => written fields q.returning gone) flagging listed
    unfold deleteRows at ran
    rw [ran] at tables
    have columns : t.fields = s.fields := by
      unfold deleteFrom at ran
      rw [flagging] at ran
      obtain ⟨-, rfl⟩ := Prod.mk.inj ran
      rfl
    exact Prod.ext columns tables

end Done

end EntityQuery.Store
