import EntityQuery.Proofs.PlainConditions
import EntityQuery.Proofs.ReachedRows
import EntityQuery.Proofs.SharedRows
/-! Predicates that are added to a list. The list compiles as it did without them, and of the rows that it matches those are
left on which the condition that was added is true. -/

namespace EntityQuery

namespace Store

variable {tables : Tables} {table : String} {row : Row} {c : Condition} {cs : List Condition} {t : Truth}

theorem evaluateAllAppend (scope : Scope) (cs ds : List Condition) : evaluateAll tables scope (cs ++ ds) = (do
    let ts ← evaluateAll tables scope cs
    let us ← evaluateAll tables scope ds
    return ts ++ us) := by
  induction cs with
  | nil =>
    change evaluateAll tables scope ds = (evaluateAll tables scope ds >>= fun us => .ok us)
    cases evaluateAll tables scope ds <;> rfl
  | cons c rest ih =>
    rw [List.cons_append, evaluateAll, evaluateAll, ih]
    cases evaluate tables scope c with
    | error e => rfl
    | ok t =>
      cases evaluateAll tables scope rest with
      | error e => rfl
      | ok ts => cases evaluateAll tables scope ds <;> rfl

/-- A conjunction with a condition that is no constant at its end. -/
theorem matchesAdded (plain : c.constant? = none) (evaluates : evaluate tables [(table, row)] c = .ok t) (proper : t.isProper) :
    matchesRow tables table (Condition.conjunction (cs ++ [c])) row = do
      return (← passing tables table cs row) && t.isTrue := by
  obtain ⟨alone, notFalse⟩ := keptPlain plain []
  have last : evaluateAll tables [(table, row)] [c] = .ok [t] := by
    rw [evaluateAll, evaluates]
    rfl
  unfold Condition.conjunction passing
  rw [List.filter_append, alone, List.filter_nil]
  dsimp only
  rw [List.any_append, List.any_cons, notFalse, List.any_nil, Bool.or_false, Bool.or_false]
  split
  · rfl
  · generalize cs.filter (fun c => !c.isTrue) = kept
    have many (d : Condition) (rest : List Condition) :
        (do return (← evaluate tables [(table, row)] (.all (d :: rest ++ [c]))).isTrue : Except Failure Bool) = (do
          return (← (do return (← evaluateAll tables [(table, row)] (d :: rest)).all Truth.passes)) && t.isTrue) := by
      rw [evaluate, evaluateAllAppend, last]
      cases evaluateAll tables [(table, row)] (d :: rest) with
      | error e => rfl
      | ok ts =>
        change Except.ok (Truth.all (ts ++ [t])).isTrue = .ok (ts.all Truth.passes && t.isTrue)
        rw [Truth.allTrue, List.all_append, List.all_cons, List.all_nil, Bool.and_true, Truth.passesTrue proper]
    cases kept with
    | nil =>
      change (do return (← evaluate tables [(table, row)] c).isTrue) = Except.ok (true && t.isTrue)
      rw [evaluates, Bool.true_and]
      rfl
    | cons d rest => cases rest <;> exact many d _

/-- Conditions of known forms that match a row leave a conjunction true on it. -/
theorem passingMatched (plain : ∀ c ∈ cs, c.Plain) {b : Bool}
    (matched : matchesRow tables table (Condition.conjunction cs) row = .ok b) : passing tables table cs row = .ok b := by
  unfold Condition.conjunction at matched
  unfold passing
  dsimp only at matched
  split at matched
  · next refused =>
    rw [if_pos refused]
    exact matched
  · next kept =>
    rw [if_neg kept]
    have inside : ∀ c ∈ cs.filter fun c => !c.isTrue, c.Plain := fun c mem => plain c (List.mem_filter.mp mem).1
    generalize cs.filter (fun c => !c.isTrue) = kept at matched inside
    split at matched
    · exact matched
    · next only =>
      obtain ⟨t, evaluated, same⟩ := Results.bindOk matched
      cases same
      rw [evaluateAll, evaluated]
      change Except.ok ([t].all Truth.passes) = _
      have proper := ((inside only List.mem_cons_self).hasTruth evaluated).proper
      rw [List.all_cons, List.all_nil, Bool.and_true, Truth.passesTrue proper]
    · obtain ⟨t, evaluated, same⟩ := Results.bindOk matched
      cases same
      rw [evaluate] at evaluated
      obtain ⟨ts, all, evaluated⟩ := Results.bindOk evaluated
      cases evaluated
      rw [all, Truth.allTrue]
      rfl

/-- Of the rows that conditions of known forms match, one more keeps those that it picks. -/
theorem Picks.narrowed {s : Store} {rows found : List Row} {p : Row → Bool} (plain : ∀ c ∈ cs, c.Plain)
    (there : Record.get? s.tables table = some rows) (picks : Picks s.tables table rows c p)
    (matched : s.matching table (Condition.conjunction cs) = .ok found) :
    s.matching table (Condition.conjunction (cs ++ [c])) = .ok (found.filter p) := by
  unfold Store.matching rowsOf tableRows at matched ⊢
  rw [there] at matched ⊢
  change rows.filterM (matchesRow s.tables table (Condition.conjunction cs)) = .ok found at matched
  change rows.filterM (matchesRow s.tables table (Condition.conjunction (cs ++ [c]))) = _
  have narrowed : ∀ row ∈ rows, matchesRow s.tables table (Condition.conjunction (cs ++ [c])) row = do
      return p row && (← matchesRow s.tables table (Condition.conjunction cs) row) := by
    intro row mem
    obtain ⟨t, evaluates, proper, same⟩ := picks.truths row mem
    obtain ⟨b, here⟩ := Results.filterItems matched row mem
    rw [matchesAdded picks.plain evaluates proper, passingMatched plain here, here, same]
    exact congrArg Except.ok (Bool.and_comm ..)
  rw [Results.filterPicks narrowed, matched]
  rfl

end Store

namespace Predicate

variable {φ : Type} {registry : Registry φ} {e : Entity} {f : Field} {ps : List Predicate} {p : Predicate}

theorem compileAppend (s : Scope) (insensitive : List String) (ps : List Predicate) (p : Predicate) :
    compileMembers registry s insensitive (ps ++ [p]) = (do
      let cs ← compileMembers registry s insensitive ps
      let c ← compileOne registry s insensitive p
      return cs ++ c.toList) := by
  induction ps with
  | nil =>
    change (compileOne registry s insensitive p >>= fun c => .ok _) = (compileOne registry s insensitive p >>= fun c => .ok _)
    cases compileOne registry s insensitive p with
    | error e => rfl
    | ok c => cases c <;> rfl
  | cons q rest ih =>
    rw [List.cons_append, compileMembers, compileMembers, ih]
    cases compileOne registry s insensitive q with
    | error e => rfl
    | ok d =>
      cases compileMembers registry s insensitive rest with
      | error e => rfl
      | ok cs =>
        cases compileOne registry s insensitive p with
        | error e => rfl
        | ok c => cases d <;> rfl

/-- A list that compiles still does so with a predicate at its end that sets no mode, if that one does. -/
theorem conditionAdded {condition : Condition} (typed : AreTyped ps) (compiled : Predicate.condition registry e ps = .ok condition) :
    ∃ insensitive cs, condition = .conjunction cs ∧ (∀ c ∈ cs, c.Plain) ∧
      (∀ name, insensitive.contains name = (Meaning.lastMode? name ps).getD false) ∧
      ∀ p c, (∀ fields, modes [p] fields = .ok fields) →
        compileOne registry ⟨e, e.table, 0⟩ insensitive p = .ok (some c) →
        Predicate.condition registry e (ps ++ [p]) = .ok (.conjunction (cs ++ [c])) := by
  obtain ⟨insensitive, modal, compiled⟩ := Results.bindOk compiled
  obtain ⟨cs, members, compiled⟩ := Results.bindOk compiled
  cases compiled
  refine ⟨insensitive, cs, rfl, plainMembers ps typed members, modesRule modal, fun p c kept one => ?_⟩
  have joined : modes (ps ++ [p]) [] = .ok insensitive := by
    unfold modes at modal ⊢
    rw [List.foldlM_append, modal]
    exact kept insensitive
  unfold Predicate.condition compile
  rw [joined]
  change (compileMembers registry ⟨e, e.table, 0⟩ insensitive (ps ++ [p]) >>= _) = _
  rw [compileAppend, members, one]
  rfl

/-- A test for nothing compiles where the field may hold nothing. -/
theorem nothingOne {insensitive : List String} (found : e.field? f.name = some f) (nullable : f.nullable) :
    compileOne registry ⟨e, e.table, 0⟩ insensitive (e.test f (.null false)) =
      .ok (some (.null ⟨e.table, f.column⟩ false)) := by
  have named : e.fieldNamed (.text f.name) = .ok f := by
    change e.field f.name = _
    rw [Entity.field, found]
  have offered : f.offers (Operator.null false).tag := by
    unfold Field.offers Field.operators
    rw [nullable, List.any_append, List.any_append]
    simp [Operator.nullChecks]
  have given : checkEntity ⟨e, e.table, 0⟩ (.text e.name) = .ok () := if_pos (beq_self_eq_true _)
  unfold Entity.test compileOne
  change (checkEntity ⟨e, e.table, 0⟩ (.text e.name) >>= fun _ =>
    compileField ⟨e, e.table, 0⟩ insensitive (.text f.name) (.null false)) = _
  rw [given]
  change compileField ⟨e, e.table, 0⟩ insensitive (.text f.name) (.null false) = _
  unfold compileField
  rw [named]
  change (if !(f.offers (Operator.null false).tag) then _ else _) = _
  rw [offered]
  rfl

end Predicate

end EntityQuery
