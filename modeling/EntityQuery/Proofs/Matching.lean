import EntityQuery.Proofs.Comparing
/-! Conditions of equality and of membership: what they say of a row, from the values of its columns. -/

namespace EntityQuery.Store

/-- Equality as a condition on a column asks for it: what is missing is equal to nothing. -/
def equals (v w : Value) : Except Failure Bool := if v.isNothing || w.isNothing then .ok false else same v w

def meets (v w : Value) : Bool := Results.valueOr false (equals v w)

theorem meetsOk {v w : Value} (h : meets v w = true) :
    v.isNothing = false ∧ w.isNothing = false ∧ same v w = .ok true := by
  unfold meets equals at h
  split at h
  · cases h
  · rename_i there
    rw [Bool.or_eq_true, not_or] at there
    refine ⟨by simpa using there.1, by simpa using there.2, ?_⟩
    cases compared : same v w with
    | error e =>
      rw [compared] at h
      cases h
    | ok b =>
      rw [compared] at h
      exact congrArg Except.ok h

theorem meetsOf {v w : Value} (there : v.isNothing = false) (other : w.isNothing = false) (equal : same v w = .ok true) :
    meets v w := by
  unfold meets equals
  rw [there, other, Bool.or_self, if_neg Bool.false_ne_true, equal]
  rfl

theorem meetsSelf {v : Value} (places : Places v) : meets v v := by
  obtain ⟨there, x, comparable, -⟩ := places
  exact meetsOf there there (sameSelf comparable)

theorem readColumn (table column : String) (row : Row) : columnValue [(table, row)] ⟨table, column⟩ = .ok (Row.value row column) := by
  simp [columnValue, Record.get?]

theorem compareProper {c : Comparison} {v operand : Value} {t : Truth} (ran : compareTruth (.of c) v operand = .ok t) :
    t.isProper := by
  unfold compareTruth at ran
  split at ran
  · cases ran
    rfl
  · obtain ⟨o, -, ran⟩ := Results.bindOk ran
    cases ran
    rfl

theorem matchesCompare (tables : Tables) (table column : String) (operand : Value) (row : Row) :
    matchesRow tables table (.compare ⟨table, column⟩ (.of .eq) operand) row = equals (Row.value row column) operand := by
  unfold matchesRow
  rw [evaluate, readColumn]
  change (do return (← compareTruth (.of .eq) (Row.value row column) operand).isTrue) = _
  unfold compareTruth equals same
  split
  · rfl
  · cases order (Row.value row column) operand with
    | error e => rfl
    | ok o => cases o <;> rfl

def isAmong (v : Value) (values : List Value) : Except Failure Bool :=
  values.anyM fun candidate => if candidate.isNothing then .ok false else same v candidate

theorem memberKnown {v : Value} (there : v.isNothing = false) (values : List Value) :
    memberTruth v values false = do return .known (← isAmong v values) := by
  unfold memberTruth
  rw [there, if_neg Bool.false_ne_true]
  unfold isAmong
  cases values.anyM fun candidate => if candidate.isNothing then .ok false else same v candidate with
  | error e => rfl
  | ok found => cases found <;> rfl

theorem matchesMember {table column : String} {values : List Value} {row : Row} (tables : Tables)
    (there : (Row.value row column).isNothing = false) :
    matchesRow tables table (.member ⟨table, column⟩ values false) row = isAmong (Row.value row column) values := by
  unfold matchesRow
  simp only [evaluate, readColumn, columnTruth]
  change (do return (← memberTruth (Row.value row column) values false).isTrue) = _
  rw [memberKnown there]
  cases isAmong (Row.value row column) values with
  | error e => rfl
  | ok found => cases found <;> rfl

theorem matchesBut {table column other : String} {operand : Value} {values : List Value} {row : Row} (tables : Tables)
    (there : (Row.value row other).isNothing = false) :
    matchesRow tables table
        (.all [.compare ⟨table, column⟩ (.of .eq) operand, .not (.member ⟨table, other⟩ values false)]) row = (do
      let equal ← equals (Row.value row column) operand
      let listed ← isAmong (Row.value row other) values
      return equal && !listed) := by
  have evaluated : evaluate tables [(table, row)]
      (.all [.compare ⟨table, column⟩ (.of .eq) operand, .not (.member ⟨table, other⟩ values false)]) = (do
        let equal ← compareTruth (.of .eq) (Row.value row column) operand
        let listed ← memberTruth (Row.value row other) values false
        return Truth.all [equal, listed.negate]) := by
    simp only [evaluate, evaluateAll, readColumn, columnTruth, bind, Except.bind, pure, Except.pure]
    cases compareTruth (.of .eq) (Row.value row column) operand with
    | error e => rfl
    | ok equal => cases memberTruth (Row.value row other) values false <;> rfl
  unfold matchesRow
  rw [evaluated, memberKnown there]
  unfold compareTruth equals same
  cases isAmong (Row.value row other) values with
  | error e =>
    cases (Row.value row column).isNothing || operand.isNothing with
    | true => rfl
    | false => cases order (Row.value row column) operand <;> rfl
  | ok listed =>
    cases (Row.value row column).isNothing || operand.isNothing with
    | true => cases listed <;> rfl
    | false =>
      cases order (Row.value row column) operand with
      | error e => rfl
      | ok o => cases o <;> cases listed <;> rfl

end EntityQuery.Store
