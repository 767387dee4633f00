import EntityQuery.Proofs.DigitTexts
import EntityQuery.Proofs.PlainConditions
/-! The names that subqueries go by. Subqueries are numbered by their depth, and the column of the row around one is
read through the name of that row: the number before its own, or outside all subqueries the name that the caller
chose. Only that name can be the number of a subquery, and only of an outermost one. -/

namespace EntityQuery

/-- A subquery of a condition: the name of the row around it, its own name, and what it is joined by. -/
structure Subquery where
  around : String
  label : String
  join : Join
  deriving DecidableEq, Repr

namespace Subquery

/-- The name of the subqueries at a depth. -/
def numbered (depth : Nat) : String := s!"r{depth}"

theorem numberedInjective {m n : Nat} (same : numbered m = numbered n) : m = n := by
  have digits : "r" ++ m.repr = "r" ++ n.repr := same
  have chars := congrArg String.toList ((String.append_right_inj "r").mp digits)
  unfold Nat.repr at chars
  rw [String.toList_ofList, String.toList_ofList] at chars
  have read := congrArg Number.ofDigits chars
  rwa [Number.digitsBack, Number.digitsBack] at read

/-- A subquery that is reached from the row named `around` at `depth`, and stands itself below the depth `level`. -/
structure StandsAt (q : Subquery) (around : String) (depth level : Nat) : Prop where
  label : q.label = numbered (level + 1)
  around : q.around = if level = depth then around else numbered level
  outer : q.join.outer.table = q.around
  inner : q.join.inner.table = q.label

end Subquery

namespace Condition

mutual

/-- The subqueries of a condition, outer ones first. -/
def subqueries (around : String) : Condition → List Subquery
  | .all members | .any members => subqueriesOf around members
  | .not inner | .annotated _ inner => subqueries around inner
  | .related _ label join inner _ => ⟨around, label, join⟩ :: subqueries label inner
  | _ => []
termination_by structural c => c

def subqueriesOf (around : String) : List Condition → List Subquery
  | [] => []
  | c :: rest => subqueries around c ++ subqueriesOf around rest
termination_by structural cs => cs

end

mutual

/-- Are all subqueries numbered from a depth on, and joined through the names of the rows around them and their own? -/
def Numbered (around : String) (depth : Nat) : Condition → Prop
  | .all members | .any members => AllNumbered around depth members
  | .not inner | .annotated _ inner => Numbered around depth inner
  | .related _ label join inner _ =>
    label = Subquery.numbered (depth + 1) ∧ join.outer.table = around ∧ join.inner.table = label ∧ Numbered label (depth + 1) inner
  | _ => True
termination_by structural c => c

def AllNumbered (around : String) (depth : Nat) : List Condition → Prop
  | [] => True
  | c :: rest => Numbered around depth c ∧ AllNumbered around depth rest
termination_by structural cs => cs

end

variable {around : String} {depth : Nat}

theorem allNumbered {cs : List Condition} : AllNumbered around depth cs ↔ ∀ c ∈ cs, c.Numbered around depth := by
  induction cs with
  | nil => exact ⟨fun _ c mem => absurd mem List.not_mem_nil, fun _ => trivial⟩
  | cons c rest ih => rw [List.forall_mem_cons, ← ih, AllNumbered]

theorem numberedGathered (neutral : Bool) {group : List Condition → Condition}
    (grouped : ∀ {cs}, (∀ c ∈ cs, c.Numbered around depth) → (group cs).Numbered around depth) {members : List Condition}
    (each : ∀ c ∈ members, c.Numbered around depth) : (gathered neutral group members).Numbered around depth := by
  have kept : ∀ c ∈ members.filter fun c => !(c.constant? == some neutral), c.Numbered around depth :=
    fun c mem => each c (List.mem_of_mem_filter mem)
  unfold gathered
  dsimp only
  split
  · trivial
  · split
    · trivial
    · rename_i only one
      exact kept only (one ▸ List.mem_singleton_self only)
    · exact grouped kept

theorem numberedConjunction {cs : List Condition} (each : ∀ c ∈ cs, c.Numbered around depth) :
    (conjunction cs).Numbered around depth := by
  rw [conjunctionEq]
  exact numberedGathered true allNumbered.mpr each

theorem numberedDisjunction {cs : List Condition} (each : ∀ c ∈ cs, c.Numbered around depth) :
    (disjunction cs).Numbered around depth := by
  rw [disjunctionEq]
  exact numberedGathered false allNumbered.mpr each

theorem numberedNegation {c : Condition} (inner : c.Numbered around depth) : c.negation.Numbered around depth := by
  unfold negation
  split
  · trivial
  · exact inner

theorem numberedOnColumn {document : Value} {r : ColumnRef} {c : Condition} (read : onColumn? document r = some c) :
    c.Numbered around depth := by
  unfold onColumn? at read
  split at read
  · cases read
    trivial
  · cases read
    trivial
  · split at read
    · cases read
      trivial
    · cases read
  · cases read
    trivial
  · cases read
    trivial
  · cases read

/-- A document on one column reads as no subquery. -/
theorem numberedDocument {type : String} {members : List (String × Value)} (column : type = "in" ∨ type = "json") :
    (ofDocument (node type members)).Numbered around depth := by
  have assembled {c : Condition} {list : Option (List Condition)} {inner : Condition}
      (read : assemble? (node type members) list inner = some c) : c.Numbered around depth := by
    rcases column with rfl | rfl
    · obtain ⟨r, -, read⟩ := Option.bind_eq_some_iff.mp read
      exact numberedOnColumn read
    · obtain ⟨r, -, read⟩ := Option.bind_eq_some_iff.mp read
      exact numberedOnColumn read
  show ((assemble? (node type members) _ _).getD (.foreign (node type members))).Numbered around depth
  cases read : assemble? (node type members) (ofMembers (("type", .text type) :: members))
    (ofInner (("type", .text type) :: members)) with
  | none => trivial
  | some c => exact assembled read

mutual

theorem numberedSubqueries {around : String} {depth : Nat} (c : Condition) (numbered : c.Numbered around depth) :
    ∀ q ∈ c.subqueries around, ∃ level ≥ depth, q.StandsAt around depth level := by
  cases c with
  | all members | any members => exact numberedSubqueriesOf members numbered
  | not inner | annotated document inner => exact numberedSubqueries inner numbered
  | related table label join inner negated =>
    obtain ⟨rfl, outer, own, below⟩ := numbered
    rw [subqueries, List.forall_mem_cons]
    refine ⟨⟨depth, Nat.le_refl depth, rfl, (if_pos rfl).symm, outer, own⟩, fun q mem => ?_⟩
    obtain ⟨level, deeper, stands⟩ := numberedSubqueries inner below q mem
    refine ⟨level, by omega, stands.label, ?_, stands.outer, stands.inner⟩
    rw [stands.around, if_neg (show level ≠ depth by omega)]
    split
    · rename_i next
      rw [next]
    · rfl
  | _ => exact fun q mem => absurd mem List.not_mem_nil

theorem numberedSubqueriesOf {around : String} {depth : Nat} (cs : List Condition) (numbered : AllNumbered around depth cs) :
    ∀ q ∈ subqueriesOf around cs, ∃ level ≥ depth, q.StandsAt around depth level := by
  cases cs with
  | nil => exact fun q mem => absurd mem List.not_mem_nil
  | cons c rest =>
    intro q mem
    rcases List.mem_append.mp mem with here | later
    · exact numberedSubqueries c numbered.1 q here
    · exact numberedSubqueriesOf rest numbered.2 q later

end

mutual

/-- A condition with subqueries has an outermost one. -/
theorem outermost {around : String} {depth : Nat} (c : Condition) (numbered : c.Numbered around depth)
    (some : c.subqueries around ≠ []) : ∃ q ∈ c.subqueries around, q.StandsAt around depth depth := by
  cases c with
  | all members | any members => exact outermostOf members numbered some
  | not inner | annotated document inner => exact outermost inner numbered some
  | related table label join inner negated =>
    obtain ⟨rfl, outer, own, -⟩ := numbered
    exact ⟨_, List.mem_cons_self, rfl, (if_pos rfl).symm, outer, own⟩
  | _ => exact absurd rfl some

theorem outermostOf {around : String} {depth : Nat} (cs : List Condition) (numbered : AllNumbered around depth cs)
    (some : subqueriesOf around cs ≠ []) : ∃ q ∈ subqueriesOf around cs, q.StandsAt around depth depth := by
  cases cs with
  | nil => exact absurd rfl some
  | cons c rest =>
    by_cases here : c.subqueries around = []
    · rw [subqueriesOf, here, List.nil_append] at some ⊢
      exact outermostOf rest numbered.2 some
    · obtain ⟨q, mem, stands⟩ := outermost c numbered.1 here
      exact ⟨q, List.mem_append_left _ mem, stands⟩

end

end Condition

namespace Predicate

variable {φ : Type} {registry : Registry φ} {around : String} {depth : Nat}

theorem numberedTest {s : Scope} {f : Field} {ignoreCase : Bool} {t : FieldTest} {c : Condition}
    (h : compileTest s f ignoreCase t = .ok (some c)) : c.Numbered around depth := by
  cases t with
  | compare comparison operand =>
    have valued : ∀ operand, (valueTest (s.column f) comparison operand ignoreCase).Numbered around depth := by
      intro operand
      unfold valueTest
      split
      · trivial
      · exact Condition.numberedNegation trivial
      · trivial
    cases operand with
    | null =>
      obtain ⟨_, -, h⟩ := Results.bindOk h
      cases h
      cases comparison <;> trivial
    | _ =>
      cases h
      exact valued _
  | member values negated =>
    cases h
    unfold Condition.inList
    split <;> trivial
  | json o path operand =>
    cases h
    unfold jsonTest
    split
    · trivial
    · exact Condition.numberedDocument (.inr rfl)
  | foreign operation =>
    obtain ⟨d, tested, h⟩ := Results.bindOk h
    cases h
    unfold foreignTest at tested
    split at tested
    · obtain ⟨_, -, tested⟩ := Results.bindOk tested
      split at tested
      · cases tested
        trivial
      · cases tested
        exact Condition.numberedDocument (.inl rfl)
    · obtain ⟨_, -, tested⟩ := Results.bindOk tested
      cases tested
  | mode name => cases h
  | text kind part | null negated =>
    cases h
    trivial

theorem numberedField {s : Scope} {insensitive : List String} {name : Value} {t : FieldTest} {c : Condition}
    (h : compileField s insensitive name t = .ok (some c)) : c.Numbered around depth := by
  obtain ⟨f, -, h⟩ := Results.bindOk h
  dsimp only at h
  split at h
  · obtain ⟨_, -, h⟩ := Results.bindOk h
    cases h
  · exact numberedTest h

theorem numberedForeign {s : Scope} {insensitive : List String} {node : Value} {c : Condition}
    (h : foreignNode registry s insensitive node = .ok (some c)) : c.Numbered around depth := by
  unfold foreignNode at h
  split at h
  · exact numberedField h
  · obtain ⟨_, -, h⟩ := Results.bindOk h
    obtain ⟨_, -, h⟩ := Results.bindOk h
    cases h
  · dsimp only at h
    split at h
    · obtain ⟨_, -, h⟩ := Results.bindOk h
      obtain ⟨_, -, h⟩ := Results.bindOk h
      cases h
    · obtain ⟨_, -, h⟩ := Results.bindOk h
      cases h

theorem numberedQuantified {s : Scope} {q : Quantifier} {target : Entity} {outer inner : String} {asked c : Condition}
    (numbered : asked.Numbered (s.inside target).label (s.inside target).depth)
    (h : quantify q target.table (s.inside target).label ⟨⟨s.label, outer⟩, ⟨(s.inside target).label, inner⟩⟩ asked = .ok c) :
    c.Numbered s.label s.depth := by
  cases q with
  | some | none =>
    cases h
    exact ⟨rfl, rfl, rfl, numbered⟩
  | every =>
    cases h
    exact ⟨rfl, rfl, rfl, Condition.numberedNegation numbered⟩
  | foreign v =>
    obtain ⟨_, -, h⟩ := Results.bindOk h
    cases h

mutual

theorem numberedOne (p : Predicate) {s : Scope} {insensitive : List String} {c : Condition}
    (h : compileOne registry s insensitive p = .ok (some c)) : c.Numbered s.label s.depth := by
  cases p with
  | field entity name test unique =>
    rw [compileOne] at h
    obtain ⟨_, -, h⟩ := Results.bindOk h
    exact numberedField h
  | group connective entity members =>
    rw [compileGroup] at h
    obtain ⟨_, -, h⟩ := Results.bindOk h
    obtain ⟨fields, -, h⟩ := Results.bindOk h
    obtain ⟨cs, compiled, h⟩ := Results.bindOk h
    cases h
    have numbered := numberedMembers members compiled
    cases connective with
    | all => exact Condition.numberedConjunction numbered
    | any => exact Condition.numberedDisjunction numbered
    | not => exact Condition.numberedNegation (Condition.numberedConjunction numbered)
  | related entity relation q members =>
    rw [compileOne] at h
    obtain ⟨_, -, h⟩ := Results.bindOk h
    obtain ⟨⟨r, target⟩, -, h⟩ := Results.bindOk h
    obtain ⟨fields, -, h⟩ := Results.bindOk h
    obtain ⟨cs, compiled, h⟩ := Results.bindOk h
    obtain ⟨asked, quantified, h⟩ := Results.bindOk h
    cases h
    exact numberedQuantified (Condition.numberedConjunction (numberedMembers members compiled)) quantified
  | foreign node =>
    rw [compileOne] at h
    obtain ⟨_, -, h⟩ := Results.bindOk h
    exact numberedForeign h

theorem numberedMembers (members : List Predicate) {s : Scope} {insensitive : List String} {cs : List Condition}
    (h : compileMembers registry s insensitive members = .ok cs) : ∀ c ∈ cs, c.Numbered s.label s.depth := by
  cases members with
  | nil =>
    cases h
    exact fun c mem => absurd mem List.not_mem_nil
  | cons p rest =>
    rw [compileMembers] at h
    obtain ⟨one, compiled, h⟩ := Results.bindOk h
    obtain ⟨others, tail, h⟩ := Results.bindOk h
    have later := numberedMembers rest tail
    cases one with
    | none =>
      cases h
      exact later
    | some c =>
      cases h
      exact List.forall_mem_cons.mpr ⟨numberedOne p compiled, later⟩

end

/-- What is compiled numbers its subqueries from the first on. -/
theorem numberedCompiled {e : Entity} {label : String} {ps : List Predicate} {c : Condition}
    (h : compile registry e label ps = .ok c) : c.Numbered label 0 := by
  obtain ⟨fields, -, h⟩ := Results.bindOk h
  obtain ⟨cs, compiled, h⟩ := Results.bindOk h
  cases h
  exact Condition.numberedConjunction (numberedMembers ps compiled)

/-- Every subquery is joined through its own name and that of the row around it. These differ everywhere unless the
rows themselves go by the name of the first subquery and there is one; and where they differ, the join reads its columns of
the row of the subquery and of the row around it. -/
theorem subqueriesApart {e : Entity} {label : String} {ps : List Predicate} {c : Condition}
    (h : compile registry e label ps = .ok c) :
    (∀ q ∈ c.subqueries label, q.join.outer.table = q.around ∧ q.join.inner.table = q.label) ∧
      ((∀ q ∈ c.subqueries label, q.label ≠ q.join.outer.table) ↔ label ≠ Subquery.numbered 1 ∨ c.subqueries label = []) ∧
      (label ≠ Subquery.numbered 1 → ∀ q ∈ c.subqueries label, ∀ (row enclosing : Row) (scope : Store.Scope),
        Store.columnValue ((q.label, row) :: (q.around, enclosing) :: scope) q.join.outer =
            .ok (Row.value enclosing q.join.outer.column) ∧
          Store.columnValue ((q.label, row) :: (q.around, enclosing) :: scope) q.join.inner =
            .ok (Row.value row q.join.inner.column)) := by
  have numbered := numberedCompiled h
  have stands := Condition.numberedSubqueries c numbered
  have apart : label ≠ Subquery.numbered 1 → ∀ q ∈ c.subqueries label, q.label ≠ q.join.outer.table := by
    intro free q mem same
    obtain ⟨level, -, stands⟩ := stands q mem
    rw [stands.label, stands.outer, stands.around] at same
    split at same
    · rename_i first
      rw [first] at same
      exact free same.symm
    · have next := Subquery.numberedInjective same
      omega
  refine ⟨?_, ⟨?_, ?_⟩, ?_⟩
  · intro q mem
    obtain ⟨level, -, stands⟩ := stands q mem
    exact ⟨stands.outer, stands.inner⟩
  · intro differs
    by_cases some : c.subqueries label = []
    · exact .inr some
    · refine .inl fun captured => ?_
      obtain ⟨q, mem, stands⟩ := Condition.outermost c numbered some
      have same : q.label = q.join.outer.table := by rw [stands.label, stands.outer, stands.around, if_pos rfl, captured]
      exact differs q mem same
  · rintro (free | none)
    · exact apart free
    · rw [none]
      exact fun q mem => absurd mem List.not_mem_nil
  · intro free q mem row enclosing scope
    have differ := apart free q mem
    obtain ⟨level, -, stands⟩ := stands q mem
    have outer : Record.get? ((q.label, row) :: (q.around, enclosing) :: scope) q.join.outer.table = some enclosing := by
      rw [Record.get?, if_neg differ, stands.outer, Record.get?, if_pos rfl]
    have inner : Record.get? ((q.label, row) :: (q.around, enclosing) :: scope) q.join.inner.table = some row := by
      rw [stands.inner, Record.get?, if_pos rfl]
    unfold Store.columnValue
    rw [outer, inner]
    exact ⟨rfl, rfl⟩

/-- Users who lead someone who leads no one. -/
def leadersOfOthers : List Predicate := [.related "User" "reports" .some [.related "User" "reports" .none []]]

theorem subqueriesApartOfUsers : ∃ c, compile (Sample.registry : Registry Unit) Sample.user "users" leadersOfOthers = .ok c ∧
    "users" ≠ Subquery.numbered 1 ∧
    c.subqueries "users" =
      [⟨"users", "r1", ⟨⟨"users", "id"⟩, ⟨"r1", "lead_id"⟩⟩⟩, ⟨"r1", "r2", ⟨⟨"r1", "id"⟩, ⟨"r2", "lead_id"⟩⟩⟩] ∧
    ∀ q ∈ c.subqueries "users", q.label ≠ q.join.outer.table := by
  have free : "users" ≠ Subquery.numbered 1 := by decide
  have compiled : compile (Sample.registry : Registry Unit) Sample.user "users" leadersOfOthers = .ok _ := rfl
  exact ⟨_, compiled, free, rfl, (subqueriesApart compiled).2.1.mpr (.inl free)⟩

-- Where the rows go by the name of the first subquery, that one compares its rows with themselves.
example : (compile (Sample.registry : Registry Unit) Sample.user "r1" leadersOfOthers).map (·.subqueries "r1") =
    .ok [⟨"r1", "r1", ⟨⟨"r1", "id"⟩, ⟨"r1", "lead_id"⟩⟩⟩, ⟨"r1", "r2", ⟨⟨"r1", "id"⟩, ⟨"r2", "lead_id"⟩⟩⟩] := by rfl

end Predicate

end EntityQuery
