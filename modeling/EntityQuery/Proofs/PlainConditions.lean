import EntityQuery.Proofs.CompiledTruth
import EntityQuery.Proofs.Matching
/-! Conditions that are true, false or unknown whenever they have a truth value at all. Those that are compiled from
predicates of known forms are, whatever the rows hold that they are asked of. -/

namespace EntityQuery

namespace Condition

/-- A condition of a known form, which is read from no document. -/
inductive Plain : Condition → Prop where
  | constant (b : Bool) : Plain (.constant b)
  | compare (r : ColumnRef) (c : Comparison) (operand : Value) : Plain (.compare r (.of c) operand)
  | equals (r : ColumnRef) (part : Value) (ignoreCase : Bool) : Plain (.text r .equals part ignoreCase)
  | part (r : ColumnRef) (o : Occurrence) (part : Value) (ignoreCase : Bool) : Plain (.text r (.part o) part ignoreCase)
  | member (r : ColumnRef) (values : List Value) (negated : Bool) : Plain (.member r values negated)
  | null (r : ColumnRef) (negated : Bool) : Plain (.null r negated)
  | json (r : ColumnRef) (o : JsonOperator) (steps : List Value) {operand : Value} (typed : o.IsOperand operand) :
      Plain (.json r (o.test steps operand))
  | all (members : List Condition) : Plain (.all members)
  | any (members : List Condition) : Plain (.any members)
  | not (inner : Condition) : Plain (.not inner)
  | related (table label : String) (join : Join) (inner : Condition) (negated : Bool) :
      Plain (.related table label join inner negated)

variable {tables : Store.Tables} {scope : Store.Scope} {c : Condition} {t : Truth}

theorem equalsProper {part v : Value} {ignoreCase : Bool} (ran : Store.textTruth .equals part ignoreCase v = .ok t) :
    t.isProper := by
  unfold Store.textTruth at ran
  split at ran
  · obtain ⟨needle, -, ran⟩ := Results.bindOk ran
    cases ran
    rfl
  · cases ran
    rfl

theorem partProper {o : Occurrence} {part v : Value} {ignoreCase : Bool}
    (ran : Store.textTruth (.part o) part ignoreCase v = .ok t) :
    t.isProper := by
  unfold Store.textTruth at ran
  split at ran
  · obtain ⟨needle, -, ran⟩ := Results.bindOk ran
    obtain ⟨text, -, ran⟩ := Results.bindOk ran
    cases ran
    rfl
  · cases ran
    rfl

theorem memberProper {v : Value} {values : List Value} {negated : Bool} (ran : Store.memberTruth v values negated = .ok t) :
    t.isProper := by
  unfold Store.memberTruth at ran
  split at ran
  · cases ran
    rfl
  · obtain ⟨found, -, ran⟩ := Results.bindOk ran
    cases ran
    rfl

theorem documentProper {o : JsonOperator} {operand : Value} (typed : o.IsOperand operand) {steps : List Value}
    {document : Option Json}
    (ran : Store.documentTruth document (o.test steps operand) = .ok t) : t.isProper := by
  have every : ∀ part, Store.partTruth (o.test steps operand) part = .ok t → t.isProper := by
    intro part found
    obtain ⟨u, same, proper⟩ := JsonOperator.partTruthOk typed steps part
    obtain rfl := Except.ok.inj (found.symm.trans same)
    exact proper
  obtain ⟨path, -, ran⟩ := Results.bindOk ran
  cases document with
  | none => exact every none ran
  | some j =>
    obtain ⟨part, -, found⟩ := Results.bindOk ran
    exact every part found

/-- A condition of a known form has one of the three truth values wherever it has one, and is constant only as that. -/
theorem Plain.hasTruth (plain : c.Plain) (ran : Store.evaluate tables scope c = .ok t) : HasTruth tables scope c t := by
  cases plain with
  | constant b =>
    cases ran
    exact hasConstant b
  | compare r c operand =>
    obtain ⟨v, -, compared⟩ := Results.bindOk ran
    exact ⟨Store.compareProper compared, ran, nofun⟩
  | equals r part ignoreCase =>
    obtain ⟨v, -, matched⟩ := Results.bindOk ran
    exact ⟨equalsProper matched, ran, nofun⟩
  | part r o part ignoreCase =>
    obtain ⟨v, -, matched⟩ := Results.bindOk ran
    exact ⟨partProper matched, ran, nofun⟩
  | member r values negated =>
    obtain ⟨v, -, listed⟩ := Results.bindOk ran
    exact ⟨memberProper listed, ran, nofun⟩
  | null r negated =>
    obtain ⟨v, -, tested⟩ := Results.bindOk ran
    cases tested
    exact ⟨rfl, ran, nofun⟩
  | json r o steps typed =>
    obtain ⟨v, -, tested⟩ := Results.bindOk ran
    obtain ⟨document, -, tested⟩ := Results.bindOk tested
    exact ⟨documentProper typed tested, ran, nofun⟩
  | all members =>
    obtain ⟨ts, -, joined⟩ := Results.bindOk ran
    cases joined
    exact ⟨Truth.properGathered true ts, ran, nofun⟩
  | any members =>
    obtain ⟨ts, -, joined⟩ := Results.bindOk ran
    cases joined
    exact ⟨Truth.properGathered false ts, ran, nofun⟩
  | not inner =>
    obtain ⟨u, -, negated⟩ := Results.bindOk ran
    cases negated
    exact ⟨Truth.isProper_negate u, ran, nofun⟩
  | related table label join inner negated =>
    refine ⟨?_, ran, nofun⟩
    obtain ⟨outer, -, ran⟩ := Results.bindOk ran
    dsimp only at ran
    split at ran
    · cases ran
      rfl
    · obtain ⟨rows, -, ran⟩ := Results.bindOk ran
      obtain ⟨found, -, ran⟩ := Results.bindOk ran
      cases ran
      rfl

theorem plainGathered (neutral : Bool) {group : List Condition → Condition} (grouped : ∀ cs, (group cs).Plain)
    {members : List Condition}
    (plain : ∀ c ∈ members, c.Plain) : (gathered neutral group members).Plain := by
  unfold gathered
  dsimp only
  split
  · exact .constant _
  · split
    · exact .constant _
    · rename_i only kept
      have listed : only ∈ members.filter fun c => !(c.constant? == some neutral) := by
        rw [kept]
        exact List.mem_singleton_self only
      exact plain only (List.mem_of_mem_filter listed)
    · exact grouped _

theorem plainConjunction {members : List Condition} (plain : ∀ c ∈ members, c.Plain) : (conjunction members).Plain := by
  rw [conjunctionEq]
  exact plainGathered true .all plain

theorem plainDisjunction {members : List Condition} (plain : ∀ c ∈ members, c.Plain) : (disjunction members).Plain := by
  rw [disjunctionEq]
  exact plainGathered false .any plain

theorem plainNegation (c : Condition) : c.negation.Plain := by
  unfold negation
  split
  · exact .constant _
  · exact .not c

end Condition

namespace Predicate

variable {φ : Type} {registry : Registry φ}

theorem plainTest {s : Scope} {f : Field} {ignoreCase : Bool} {t : FieldTest} {c : Condition} (typed : t.IsTyped)
    (h : compileTest s f ignoreCase t = .ok (some c)) : c.Plain := by
  cases t with
  | compare comparison operand =>
    have valued : ∀ operand, (valueTest (s.column f) comparison operand ignoreCase).Plain := by
      intro operand
      unfold valueTest
      split
      · exact .equals _ _ _
      · exact Condition.plainNegation _
      · exact .compare _ _ _
    cases operand with
    | null =>
      obtain ⟨_, -, h⟩ := Results.bindOk h
      cases h
      cases comparison <;> exact .null _ _
    | _ =>
      cases h
      exact valued _
  | member values negated =>
    cases h
    unfold Condition.inList
    split
    · exact .constant _
    · exact .member _ _ _
  | text kind part =>
    cases h
    exact .part _ _ _ _
  | mode name => cases h
  | json o path operand =>
    obtain ⟨⟨steps, rfl⟩, asked⟩ := typed
    cases h
    exact .json _ o _ asked
  | null negated =>
    cases h
    exact .null _ _
  | foreign operation => exact typed.elim

theorem plainQuantified {q : Quantifier} {table label : String} {join : Join} {inner c : Condition}
    (h : quantify q table label join inner = .ok c) : c.Plain := by
  cases q with
  | some | every | none =>
    cases h
    exact .related _ _ _ _ _
  | foreign v =>
    obtain ⟨_, -, h⟩ := Results.bindOk h
    cases h

mutual

theorem plainOne (p : Predicate) {s : Scope} {insensitive : List String} {c : Condition} (typed : p.IsTyped)
    (h : compileOne registry s insensitive p = .ok (some c)) : c.Plain := by
  cases p with
  | field entity name test unique =>
    rw [compileOne] at h
    obtain ⟨_, -, h⟩ := Results.bindOk h
    obtain ⟨f, -, h⟩ := Results.bindOk h
    rw [IsTyped] at typed
    dsimp only at h
    split at h
    · obtain ⟨_, -, h⟩ := Results.bindOk h
      cases h
    · exact plainTest typed h
  | group connective entity members =>
    rw [compileGroup] at h
    obtain ⟨_, -, h⟩ := Results.bindOk h
    obtain ⟨fields, -, h⟩ := Results.bindOk h
    obtain ⟨cs, compiled, h⟩ := Results.bindOk h
    cases h
    rw [IsTyped] at typed
    have plain := plainMembers members typed compiled
    cases connective with
    | all => exact Condition.plainConjunction plain
    | any => exact Condition.plainDisjunction plain
    | not => exact Condition.plainNegation _
  | related entity relation q members =>
    rw [compileOne] at h
    obtain ⟨_, -, h⟩ := Results.bindOk h
    obtain ⟨⟨r, target⟩, -, h⟩ := Results.bindOk h
    obtain ⟨fields, -, h⟩ := Results.bindOk h
    obtain ⟨cs, -, h⟩ := Results.bindOk h
    obtain ⟨asked, quantified, h⟩ := Results.bindOk h
    cases h
    exact plainQuantified quantified
  | foreign node => exact absurd typed (by simp [IsTyped])

theorem plainMembers (members : List Predicate) {s : Scope} {insensitive : List String} {cs : List Condition}
    (typed : AreTyped members) (h : compileMembers registry s insensitive members = .ok cs) : ∀ c ∈ cs, c.Plain := by
  cases members with
  | nil =>
    cases h
    exact fun c mem => absurd mem List.not_mem_nil
  | cons p rest =>
    rw [compileMembers] at h
    obtain ⟨one, compiled, h⟩ := Results.bindOk h
    obtain ⟨others, tail, h⟩ := Results.bindOk h
    rw [AreTyped] at typed
    have later := plainMembers rest typed.2 tail
    cases one with
    | none =>
      cases h
      exact later
    | some c =>
      cases h
      exact List.forall_mem_cons.mpr ⟨plainOne p typed.1 compiled, later⟩

end

/-- A condition that is compiled from predicates of known forms is of a known form. -/
theorem plainCompiled {e : Entity} {ps : List Predicate} {c : Condition} (typed : AreTyped ps)
    (h : condition registry e ps = .ok c) : c.Plain := by
  obtain ⟨fields, -, h⟩ := Results.bindOk h
  obtain ⟨cs, compiled, h⟩ := Results.bindOk h
  cases h
  exact Condition.plainConjunction (plainMembers ps typed compiled)

end Predicate

namespace Store

variable {tables : Tables} {table : String} {row : Row} {c d : Condition} {t u : Truth}

/-- A conjunction of two conditions is true of a row if both are. -/
theorem matchesBoth (first : Condition.HasTruth tables [(table, row)] c t) (second : Condition.HasTruth tables [(table, row)] d u) :
    matchesRow tables table (Condition.conjunction [c, d]) row = .ok (t.isTrue && u.isTrue) := by
  have both := Condition.hasConjunction (.cons first (.cons second .nil))
  unfold matchesRow
  rw [both.evaluates]
  have firstProper := first.proper
  have secondProper := second.proper
  cases t with
  | beside counted => cases firstProper
  | known a =>
    cases u with
    | beside counted => cases secondProper
    | known b => cases a <;> cases b <;> rfl
    | unknown => cases a <;> rfl
  | unknown =>
    cases u with
    | beside counted => cases secondProper
    | known b => cases b <;> rfl
    | unknown => rfl

/-- A conjunction of one condition is true of a row if that is. -/
theorem matchesAlone (alone : Condition.HasTruth tables [(table, row)] c t) :
    matchesRow tables table (Condition.conjunction [c]) row = .ok t.isTrue := by
  have one := Condition.hasConjunction (.cons alone .nil)
  unfold matchesRow
  rw [one.evaluates]
  have proper := alone.proper
  cases t with
  | beside counted => cases proper
  | known b => cases b <;> rfl
  | unknown => rfl

theorem plainMatches (plain : c.Plain) {b : Bool} (ran : matchesRow tables table (Condition.conjunction [c]) row = .ok b) :
    ∃ t, Condition.HasTruth tables [(table, row)] c t ∧ t.isTrue = b := by
  have evaluates : ∃ t, evaluate tables [(table, row)] c = .ok t := by
    cases plain with
    | constant b => exact ⟨_, rfl⟩
    | _ =>
      obtain ⟨t, evaluated, -⟩ := Results.bindOk ran
      exact ⟨t, evaluated⟩
  obtain ⟨t, evaluated⟩ := evaluates
  have truth := plain.hasTruth evaluated
  exact ⟨t, truth, Except.ok.inj ((matchesAlone truth).symm.trans ran)⟩

end Store

end EntityQuery
