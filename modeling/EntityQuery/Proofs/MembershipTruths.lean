import EntityQuery.Proofs.Checks
import EntityQuery.Proofs.ConditionText
import EntityQuery.Proofs.Matching
import EntityQuery.Proofs.Meaning
import EntityQuery.Proofs.Sample
/-! Membership in a list and its meaning in SQL: the disjunction of the comparisons with the listed values, or its
negation. A list that holds a missing value and no value equal to the stored one tells them apart. -/

namespace EntityQuery

namespace Results

theorem anyFails {α : Type} {l : List α} {f : α → Except Failure Bool} {failure : Failure} (h : l.anyM f = .error failure) :
    ∃ x ∈ l, f x = .error failure := by
  induction l with
  | nil => cases h
  | cons x rest ih =>
    rw [List.anyM] at h
    cases here : f x with
    | error own =>
      rw [here] at h
      cases h
      exact ⟨x, List.mem_cons_self, here⟩
    | ok passed =>
      rw [here] at h
      cases passed with
      | true => cases h
      | false =>
        obtain ⟨y, mem, failed⟩ := ih h
        exact ⟨y, List.mem_cons_of_mem x mem, failed⟩

end Results

namespace Sql

/-- The value that a name or an operand of an expression stands for. -/
inductive Denotes (scope : Store.Scope) : Expr → Value → Prop
  | column {table name : String} {v : Value} (read : Store.columnValue scope ⟨table, name⟩ = .ok v) :
      Denotes scope (.column table name) v
  | operand (v : Value) : Denotes scope (.operand v) v

/-- The truth of `l = r`. -/
def Equals (scope : Store.Scope) (l r : Expr) (t : Truth) : Prop :=
  ∃ v w, Denotes scope l v ∧ Denotes scope r w ∧ Store.compareTruth (.of .eq) v w = .ok t

/-- The truth of a membership, or of its negation, from the truths of the comparisons with the members. -/
def membership (negated : Bool) (ts : List Truth) : Truth :=
  if negated then (Meaning.disjunction ts).negate else Meaning.disjunction ts

/-- What equality and membership mean in PostgreSQL: `e IN (x, y)` is short for `e = x OR e = y`, and `e NOT IN (x, y)` is
its negation. -/
inductive Means (scope : Store.Scope) : Expr → Truth → Prop
  | equal {l r : Expr} {t : Truth} : Equals scope l r t → Means scope (.binary "=" l r) t
  | among {e : Expr} {items : List Expr} {ts : List Truth} (negated : Bool) : List.Forall₂ (Equals scope e) items ts →
      Means scope (.among e items negated) (membership negated ts)

variable {scope : Store.Scope}

theorem denotesOnce {e : Expr} {v w : Value} (first : Denotes scope e v) (second : Denotes scope e w) : v = w := by
  cases first with
  | column read =>
    cases second with
    | column again => exact Except.ok.inj (read.symm.trans again)
  | operand =>
    cases second
    rfl

theorem equalsOnce {l r : Expr} {t u : Truth} (first : Equals scope l r t) (second : Equals scope l r u) : t = u := by
  obtain ⟨v, w, left, right, compared⟩ := first
  obtain ⟨v', w', left', right', again⟩ := second
  obtain rfl := denotesOnce left left'
  obtain rfl := denotesOnce right right'
  exact Except.ok.inj (compared.symm.trans again)

/-- An expression has one meaning. -/
theorem meansOnce {e : Expr} {t u : Truth} (first : Means scope e t) (second : Means scope e u) : t = u := by
  cases first with
  | equal one =>
    cases second with
    | equal other => exact equalsOnce one other
  | among negated one =>
    cases second with
    | among _ other =>
      have unique : ∀ l : Expr, Relator.RightUnique (Equals scope l) := fun _ _ _ _ here there => equalsOnce here there
      exact congrArg (membership negated) (List.right_unique_forall₂' (unique _) one other)

end Sql

namespace Store

variable {tables : Tables} {scope : Scope} {r : ColumnRef} {v : Value} {values : List Value} {ts : List Truth}

/-- The truths of the comparisons of a column with the values of a list. -/
def comparisons (tables : Tables) (scope : Scope) (r : ColumnRef) (values : List Value) : Except Failure (List Truth) :=
  values.mapM fun w => evaluate tables scope (.compare r (.of .eq) w)

/-- Is the value of a column there and equal to no value of a list, of which one is missing? -/
def Overlooks (scope : Scope) (r : ColumnRef) (values : List Value) (ts : List Truth) : Prop :=
  ∃ v, columnValue scope r = .ok v ∧ v.isNothing = false ∧ (∃ w ∈ values, w.isNothing) ∧ .known true ∉ ts

theorem evaluateCompare (read : columnValue scope r = .ok v) (w : Value) :
    evaluate tables scope (.compare r (.of .eq) w) = compareTruth (.of .eq) v w := by
  rw [evaluate, read]
  rfl

theorem evaluateMember (read : columnValue scope r = .ok v) (negated : Bool) :
    evaluate tables scope (.member r values negated) = memberTruth v values negated := by
  rw [evaluate, read]
  rfl

theorem compareMissing {w : Value} (missing : v.isNothing || w.isNothing) : compareTruth (.of .eq) v w = .ok .unknown :=
  if_pos missing

theorem comparePresent {w : Value} (there : v.isNothing = false) (given : w.isNothing = false) :
    compareTruth (.of .eq) v w = (same v w).map .known := by
  unfold compareTruth same
  rw [there, given]
  cases order v w <;> rfl

/-- Of a missing value nothing is known. -/
theorem missingUnknown (missing : v.isNothing) (listed : values ≠ [])
    (compared : values.mapM (compareTruth (.of .eq) v) = .ok ts) : Meaning.disjunction ts = .unknown := by
  have each : values.mapM (compareTruth (.of .eq) v) = .ok (values.map fun _ => .unknown) :=
    Results.mapAllOk fun w _ => compareMissing (by simp [missing])
  obtain rfl := Except.ok.inj (each.symm.trans compared)
  clear each compared
  induction values with
  | nil => exact absurd rfl listed
  | cons w rest ih =>
    cases rest with
    | nil => rfl
    | cons u rest =>
      change Meaning.either .unknown (Meaning.disjunction ((u :: rest).map fun _ => .unknown)) = .unknown
      rw [ih (List.cons_ne_nil u rest)]
      rfl

/-- A value that is there is found among the listed ones, or is not and one of those is missing, or is none of them. -/
theorem presentDisjunction (there : v.isNothing = false) (compared : values.mapM (compareTruth (.of .eq) v) = .ok ts) :
    ∃ found, isAmong v values = .ok found ∧ (found = true ↔ .known true ∈ ts) ∧
      Meaning.disjunction ts = if found then .known true else if values.any Value.isNothing then .unknown else .known false := by
  induction values generalizing ts with
  | nil =>
    cases compared
    exact ⟨false, rfl, by simp, rfl⟩
  | cons w rest ih =>
    rw [List.mapM_cons] at compared
    obtain ⟨t, here, compared⟩ := Results.bindOk compared
    obtain ⟨us, later, compared⟩ := Results.bindOk compared
    cases compared
    obtain ⟨found, search, present, joined⟩ := ih later
    cases given : w.isNothing with
    | true =>
      obtain rfl := Except.ok.inj ((compareMissing (by simp [given])).symm.trans here)
      refine ⟨found, ?_, by simpa using present, ?_⟩
      · unfold isAmong
        rw [List.anyM, given]
        exact search
      · change Meaning.either .unknown (Meaning.disjunction us) = _
        rw [joined, List.any_cons, given]
        cases found with
        | true => rfl
        | false => cases rest.any Value.isNothing <;> rfl
    | false =>
      rw [comparePresent there given] at here
      cases equal : same v w with
      | error failure =>
        rw [equal] at here
        cases here
      | ok b =>
        rw [equal] at here
        cases here
        have tested : isAmong v (w :: rest) = if b then .ok true else isAmong v rest := by
          unfold isAmong
          rw [List.anyM, given, if_neg Bool.false_ne_true, equal]
          cases b <;> rfl
        cases b with
        | true => exact ⟨true, tested, by simp, rfl⟩
        | false =>
          refine ⟨found, tested.trans search, by simpa using present, ?_⟩
          change Meaning.either (.known false) (Meaning.disjunction us) = _
          rw [joined, List.any_cons, given]
          cases found with
          | true => rfl
          | false => cases rest.any Value.isNothing <;> rfl

/-- What a membership is, and its meaning: they differ where a missing member is overlooked. -/
theorem memberMeaning (listed : values ≠ []) (read : columnValue scope r = .ok v) (negated : Bool)
    (compared : comparisons tables scope r values = .ok ts) :
    ∃ t, evaluate tables scope (.member r values negated) = .ok t ∧
      (Overlooks scope r values ts → t = .known negated ∧ Sql.membership negated ts = .unknown) ∧
      (¬ Overlooks scope r values ts → t = Sql.membership negated ts) := by
  have each : values.mapM (compareTruth (.of .eq) v) = .ok ts :=
    (Results.mapSame fun w _ => (evaluateCompare read w).symm).trans compared
  rw [evaluateMember read]
  cases missing : v.isNothing with
  | true =>
    refine ⟨.unknown, ?_, fun ⟨u, again, there, _⟩ => ?_, fun _ => ?_⟩
    · exact if_pos missing
    · obtain rfl := Except.ok.inj (read.symm.trans again)
      exact absurd (missing.symm.trans there) (by decide)
    · unfold Sql.membership
      rw [missingUnknown missing listed each]
      cases negated <;> rfl
  | false =>
    obtain ⟨found, search, present, joined⟩ := presentDisjunction missing each
    have told : memberTruth v values negated = .ok (.known (found != negated)) := by
      unfold memberTruth
      rw [missing, if_neg Bool.false_ne_true]
      change (isAmong v values >>= _) = _
      rw [search]
      rfl
    refine ⟨_, told, fun ⟨u, again, there, ⟨w, mem, gone⟩, unmatched⟩ => ?_, fun seen => ?_⟩
    · obtain rfl : found = false := by simpa using mt present.mp unmatched
      have holds : values.any Value.isNothing = true := List.any_eq_true.mpr ⟨w, mem, gone⟩
      unfold Sql.membership
      rw [joined, if_neg Bool.false_ne_true, if_pos holds]
      cases negated <;> exact ⟨rfl, rfl⟩
    · unfold Sql.membership
      rw [joined]
      cases found with
      | true => cases negated <;> rfl
      | false =>
        have whole : values.any Value.isNothing = false := by
          rw [Bool.eq_false_iff]
          intro some
          obtain ⟨w, mem, gone⟩ := List.any_eq_true.mp some
          exact seen ⟨v, read, missing, ⟨w, mem, gone⟩, mt present.mpr Bool.false_ne_true⟩
        rw [whole]
        cases negated <;> rfl

/-- A membership fails with a comparison of its own. -/
theorem memberFails (listed : values ≠ []) (negated : Bool) {failure : Failure}
    (failed : evaluate tables scope (.member r values negated) = .error failure) :
    ∃ w ∈ values, evaluate tables scope (.compare r (.of .eq) w) = .error failure := by
  obtain ⟨first, rest, rfl⟩ := List.exists_cons_of_ne_nil listed
  cases read : columnValue scope r with
  | error own =>
    rw [evaluate, read] at failed
    cases failed
    refine ⟨first, List.mem_cons_self, ?_⟩
    rw [evaluate, read]
    rfl
  | ok v =>
    rw [evaluateMember read] at failed
    unfold memberTruth at failed
    cases there : v.isNothing with
    | true =>
      rw [if_pos there] at failed
      cases failed
    | false =>
      rw [there, if_neg Bool.false_ne_true] at failed
      change (isAmong v (first :: rest) >>= _) = _ at failed
      cases search : isAmong v (first :: rest) with
      | ok found =>
        rw [search] at failed
        cases failed
      | error own =>
        rw [search] at failed
        cases failed
        obtain ⟨w, mem, unequal⟩ := Results.anyFails search
        refine ⟨w, mem, ?_⟩
        rw [evaluateCompare read]
        cases given : w.isNothing with
        | true =>
          rw [if_pos given] at unequal
          cases unequal
        | false =>
          rw [given, if_neg Bool.false_ne_true] at unequal
          rw [comparePresent there given, unequal]
          rfl

/-- The text of a membership means the disjunction of the comparisons with its members, or its negation, and the store
evaluates it to that, unless it overlooks a missing member: then it takes what is unknown for a miss. -/
theorem membershipMeaning (tables : Tables) (scope : Scope) (r : ColumnRef) (values : List Value) (negated : Bool)
    (listed : values ≠ []) : ∃ f e, Sql.condition (.member r values negated) = .ok f ∧ f.reading = some e ∧
      (∀ ts, comparisons tables scope r values = .ok ts →
        (∀ m, Sql.Means scope e m ↔ m = Sql.membership negated ts) ∧
        ∃ t, evaluate tables scope (.member r values negated) = .ok t ∧
          (Overlooks scope r values ts → t = .known negated ∧ Sql.membership negated ts = .unknown) ∧
          (¬ Overlooks scope r values ts → t = Sql.membership negated ts)) ∧
      ∀ failure, evaluate tables scope (.member r values negated) = .error failure →
        ∃ w ∈ values, evaluate tables scope (.compare r (.of .eq) w) = .error failure := by
  obtain ⟨f, rendered, reads⟩ := Sql.renderedReadsBack (.member r values negated) rfl
  refine ⟨f, _, rendered, reads, fun ts compared => ?_, fun failure => memberFails listed negated⟩
  obtain ⟨v, read⟩ : ∃ v, columnValue scope r = .ok v := by
    cases read : columnValue scope r with
    | ok v => exact ⟨v, rfl⟩
    | error failure =>
      obtain ⟨first, rest, rfl⟩ := List.exists_cons_of_ne_nil listed
      rw [comparisons, List.mapM_cons, evaluate, read] at compared
      cases compared
  have means : Sql.Means scope (Sql.outline (.member r values negated)) (Sql.membership negated ts) := by
    refine .among negated (List.forall₂_map_left_iff.mpr ((Results.mapAllPaired compared).imp fun w t here => ?_))
    exact ⟨v, w, .column read, .operand w, (evaluateCompare read w).symm.trans here⟩
  refine ⟨fun m => ⟨fun own => Sql.meansOnce own means, fun same => same ▸ means⟩, memberMeaning listed read negated compared⟩

end Store

namespace Sample

/-- Neither equal to 2 nor surely different from what is missing, and taken for different. -/
theorem missingMemberOverlooked :
    Store.evaluate tables [("users", bob)] (.member ⟨"users", "lead_id"⟩ [.int 2, .null] true) = .ok (.known true) ∧
    ∃ f e, Sql.condition (.member ⟨"users", "lead_id"⟩ [.int 2, .null] true) = .ok f ∧ f.reading = some e ∧
      Sql.Means [("users", bob)] e .unknown := by
  obtain ⟨f, e, rendered, reads, meant, -⟩ := Store.membershipMeaning tables [("users", bob)] ⟨"users", "lead_id"⟩
    [.int 2, .null] true (List.cons_ne_nil _ _)
  obtain ⟨means, t, evaluated, overlooked, -⟩ := meant [.known false, .unknown] rfl
  obtain ⟨rfl, unknown⟩ := overlooked ⟨.int 1, rfl, rfl, ⟨.null, by simp, rfl⟩, by decide⟩
  exact ⟨evaluated, f, e, rendered, reads, (means _).mpr unknown.symm⟩

end Sample

end EntityQuery
