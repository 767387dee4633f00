import EntityQuery.Proofs.Checks
import EntityQuery.Proofs.CompiledTruth
import Mathlib.Data.List.Nodup
/-! Which predicates compile: those that speak of the entity whose rows they are asked of, of fields and relations that
it has, and of tests that its fields offer. Every node is looked at, also beside one that settles the list around it, and
any other predicate is refused as a query that is not valid or for a relation that is missing. -/

namespace EntityQuery

namespace Operator

theorem allListed (o : Operator) : o ∈ all := by
  cases o with
  | compare c => cases c <;> decide
  | member negated | null negated => cases negated <;> decide
  | arithmetic a => cases a <;> decide
  | text kind => cases kind <;> decide
  | json test =>
    cases test with
    | text kind => cases kind <;> decide
    | array item => cases item <;> decide
    | _ => decide
  | _ => decide

/-- No two operators have the same tag. -/
theorem tagInjective {o p : Operator} (same : o.tag = p.tag) : o = p := by
  have apart : (all.map tag).Nodup := by decide +kernel
  exact List.inj_on_of_nodup_map apart (allListed o) (allListed p) same

end Operator

namespace FieldTest

/-- The operator of a test of a known form. -/
def operator? : FieldTest → Option Operator
  | .compare c _ => some (.compare c)
  | .member _ negated => some (.member negated)
  | .text kind _ => some (.text kind)
  | .mode _ => some .mode
  | .json o _ _ => some (.json o)
  | .null negated => some (.null negated)
  | .foreign _ => none

theorem operatorTag {t : FieldTest} {o : Operator} (named : t.operator? = some o) : t.tag = .text o.tag := by
  cases t <;> cases named <;> rfl

end FieldTest

namespace Field

theorem offersListed {f : Field} {o : Operator} : f.offers o.tag = true ↔ o ∈ f.operators := by
  unfold offers
  rw [List.any_eq_true]
  constructor
  · rintro ⟨p, mem, same⟩
    rw [← Operator.tagInjective (beq_iff_eq.mp same)]
    exact mem
  · exact fun mem => ⟨o, mem, beq_self_eq_true o.tag⟩

/-- Does a field admit a test: does it offer the operator, and can it be nothing where it is compared with null? -/
structure Admits (f : Field) (t : FieldTest) : Prop where
  offered : ∃ o, t.operator? = some o ∧ o ∈ f.operators
  nullable : ∀ c, t = .compare c .null → f.nullable

end Field

namespace Predicate

mutual

/-- Is a predicate of a known form, with the nodes under it? -/
def IsKnown : Predicate → Prop
  | .field _ _ test _ => test.operator?.isSome
  | .group _ _ members => AreKnown members
  | .related _ _ q members => (∀ v, q ≠ .foreign v) ∧ AreKnown members
  | .foreign _ => False
termination_by structural p => p

def AreKnown : List Predicate → Prop
  | [] => True
  | p :: rest => IsKnown p ∧ AreKnown rest
termination_by structural ps => ps

end

mutual

/-- Does a predicate fit an entity: is each node for the entity of its scope, and has that the field, which admits the
test, or the relation, whose target is registered and fits the nodes under it? -/
def Fits {φ : Type} (registry : Registry φ) (e : Entity) : Predicate → Prop
  | .field entity name test _ => entity = e.name ∧ ∃ f, e.field? name = some f ∧ f.Admits test
  | .group _ entity members => entity = e.name ∧ AllFit registry e members
  | .related entity relation _ members =>
    entity = e.name ∧
      ∃ r target, e.relation? relation = some r ∧ registry.get? r.target = some target ∧ AllFit registry target members
  | .foreign _ => False
termination_by structural p => p

def AllFit {φ : Type} (registry : Registry φ) (e : Entity) : List Predicate → Prop
  | [] => True
  | p :: rest => Fits registry e p ∧ AllFit registry e rest
termination_by structural ps => ps

end

/-- A failure that is reported as a query that is not valid, or as a missing relation. -/
def Refused (f : Failure) : Prop :=
  ∃ report, f.report? = some report ∧ (report.name = "QueryValidationError" ∨ report.name = "RelationNotFoundError")

theorem refusedQuery (fault : QueryFault) : Refused (.query fault) := ⟨_, rfl, .inl rfl⟩

theorem refusedRelation (entity shown : String) (relation : Value) : Refused (.missingRelation entity shown relation) :=
  ⟨_, rfl, .inr rfl⟩

variable {φ : Type} {registry : Registry φ}

theorem settledEntity (s : Scope) (given : String) : Settles Refused (checkEntity s (.text given)) (given = s.entity.name) := by
  unfold checkEntity
  split
  · rename_i own
    have same : given = s.entity.name := Option.some.inj (beq_iff_eq.mp own)
    exact (Settles.ok ()).congr (iff_of_true trivial same)
  · rename_i other
    have apart : given ≠ s.entity.name := fun same => other (beq_iff_eq.mpr (congrArg some same))
    exact (Settles.refused (refusedQuery _)).congr (iff_of_false id apart)

theorem settledNullable (s : Scope) (f : Field) (c : Comparison) : Settles Refused (requireNullable s f c) (f.nullable = true) := by
  unfold requireNullable
  split
  · rename_i nullable
    exact (Settles.ok ()).congr (iff_of_true trivial nullable)
  · rename_i never
    exact (Settles.refused (refusedQuery _)).congr (iff_of_false id never)

theorem settledTest (s : Scope) (f : Field) (ignoreCase : Bool) {t : FieldTest} (known : t.operator?.isSome) :
    Settles Refused (compileTest s f ignoreCase t) (∀ c, t = .compare c .null → f.nullable) := by
  have unasked {c : Option Condition} (other : ∀ c, t ≠ .compare c .null) :
      Settles Refused (.ok c) (∀ c, t = .compare c .null → f.nullable) :=
    (Settles.ok c).congr (iff_of_true trivial fun c same => absurd same (other c))
  cases t with
  | compare c operand =>
    cases operand with
    | null =>
      refine (settledNullable s f c).map.congr ⟨?_, fun asked => asked c rfl⟩
      rintro nullable _ ⟨⟩
      exact nullable
    | _ => exact unasked nofun
  | foreign operation => cases known
  | _ => exact unasked nofun

theorem settledOffer (s : Scope) (f : Field) (insensitive : List String) {t : FieldTest} (known : t.operator?.isSome) :
    Settles Refused (do
      if !t.tag.text?.any f.offers then
        throw (.query (.operatorUnavailable (← t.tag.inserted) s.entity.name f.name f.type.tag))
      compileTest s f (insensitive.contains f.name && f.typeClass == .text) t) (f.Admits t) := by
  obtain ⟨o, named⟩ := Option.isSome_iff_exists.mp known
  have offered : t.tag.text?.any f.offers = true ↔ ∃ o, t.operator? = some o ∧ o ∈ f.operators := by
    rw [FieldTest.operatorTag named, named]
    exact Field.offersListed.trans ⟨fun mem => ⟨o, rfl, mem⟩, fun ⟨_, same, mem⟩ => Option.some.inj same ▸ mem⟩
  have inserted : t.tag.inserted = .ok o.tag := by
    rw [FieldTest.operatorTag named]
    rfl
  rw [inserted]
  cases lists : t.tag.text?.any f.offers with
  | false =>
    have refused : ¬f.Admits t := fun admits => by
      rw [offered.mpr admits.offered] at lists
      cases lists
    exact (Settles.refused (refusedQuery _)).congr (iff_of_false id refused)
  | true =>
    exact (settledTest s f _ known).congr ⟨fun nullable => ⟨offered.mp lists, nullable⟩, fun admits => admits.nullable⟩

theorem settledField (s : Scope) (insensitive : List String) (name : String) {t : FieldTest} (known : t.operator?.isSome) :
    Settles Refused (compileField s insensitive (.text name) t) (∃ f, s.entity.field? name = some f ∧ f.Admits t) := by
  have found {f : Field} : s.entity.fieldNamed (.text name) = .ok f ↔ s.entity.field? name = some f := by
    show s.entity.field name = _ ↔ _
    unfold Entity.field
    cases s.entity.field? name with
    | none => exact ⟨nofun, nofun⟩
    | some g => rw [Except.ok.injEq, Option.some.injEq]
  have missing : ∀ failure, s.entity.fieldNamed (.text name) = .error failure → Refused failure := by
    intro failure ran
    change s.entity.field name = _ at ran
    unfold Entity.field at ran
    split at ran
    · cases ran
    · cases ran
      exact refusedQuery _
  refine (Settles.follow missing fun f _ => settledOffer s f insensitive known).congr ?_
  exact exists_congr fun f => and_congr_left' found

theorem targetFound {s : Scope} {relation : String} {r : Relation} {target : Entity} :
    relationTarget registry s (.text relation) = .ok (r, target) ↔
      s.entity.relation? relation = some r ∧ registry.get? r.target = some target := by
  unfold relationTarget
  show (s.entity.relation relation >>= _) = _ ↔ _
  unfold Entity.relation
  cases s.entity.relation? relation with
  | none => exact ⟨nofun, nofun⟩
  | some own =>
    dsimp only [bind, Except.bind]
    cases aimed : registry.get? own.target with
    | none =>
      refine ⟨nofun, fun both => ?_⟩
      obtain ⟨⟨⟩, registered⟩ := both
      cases aimed.symm.trans registered
    | some found =>
      change Except.ok (own, found) = .ok (r, target) ↔ _
      rw [Except.ok.injEq, Prod.mk.injEq, Option.some.injEq]
      refine and_congr_right fun same => ?_
      rw [← same, aimed, Option.some.injEq]

theorem targetRefused {s : Scope} {relation : String} {f : Failure}
    (failed : relationTarget registry s (.text relation) = .error f) : Refused f := by
  unfold relationTarget at failed
  change (s.entity.relation relation >>= _) = _ at failed
  unfold Entity.relation at failed
  split at failed
  · dsimp only [bind, Except.bind] at failed
    split at failed
    · cases failed
    · cases failed
      exact refusedQuery _
  · cases failed
    exact refusedRelation _ _ _

theorem quantified {q : Quantifier} (known : ∀ v, q ≠ .foreign v) (table label : String) (join : Join) (inner : Condition) :
    ∃ c, quantify q table label join inner = .ok c := by
  cases q with
  | foreign v => exact absurd rfl (known v)
  | _ => exact ⟨_, rfl⟩

theorem modesKnown {members : List Predicate} (known : AreKnown members) (inherited : List String) :
    ∃ fields, modes members inherited = .ok fields := by
  induction members generalizing inherited with
  | nil => exact ⟨inherited, rfl⟩
  | cons p rest ih =>
    obtain ⟨own, others⟩ := known
    unfold modes
    rw [List.foldlM_cons]
    cases p with
    | field entity name t unique => cases t <;> exact ih others _
    | group connective entity members => exact ih others _
    | related entity relation q members => exact ih others _
    | foreign node => exact own.elim

mutual

theorem settledOne (p : Predicate) (known : p.IsKnown) (s : Scope) (insensitive : List String) :
    Settles Refused (compileOne registry s insensitive p) (p.Fits registry s.entity) := by
  cases p with
  | field entity name t unique =>
    rw [compileOne]
    exact (settledEntity s entity).bind fun _ _ => settledField s insensitive name known
  | group connective entity members =>
    obtain ⟨fields, modal⟩ := modesKnown known insensitive
    rw [compileGroup, modal]
    exact (settledEntity s entity).bind fun _ _ => (settledMembers members known s fields).map
  | related entity relation q members =>
    obtain ⟨quantifier, known⟩ := known
    obtain ⟨fields, modal⟩ := modesKnown known []
    rw [compileOne, modal]
    refine (settledEntity s entity).bind fun _ _ => ?_
    refine (Settles.follow (q := fun aimed => AllFit registry aimed.2 members) (fun f => targetRefused) fun aimed _ => ?_).congr ?_
    · refine ((settledMembers members known (s.inside aimed.2) fields).bind fun cs _ => ?_).congr (and_iff_left trivial)
      obtain ⟨c, made⟩ := quantified quantifier aimed.2.table (s.inside aimed.2).label
        ⟨⟨s.label, aimed.1.own.column⟩, ⟨(s.inside aimed.2).label, aimed.1.remote.column⟩⟩ (Condition.conjunction cs)
      dsimp only
      rw [made]
      exact .ok (some c)
    · rw [Prod.exists]
      refine exists_congr fun r => exists_congr fun target => ?_
      rw [targetFound, and_assoc]
  | foreign node => exact known.elim

theorem settledMembers (members : List Predicate) (known : AreKnown members) (s : Scope) (insensitive : List String) :
    Settles Refused (compileMembers registry s insensitive members) (AllFit registry s.entity members) := by
  cases members with
  | nil => exact .ok []
  | cons p rest =>
    rw [compileMembers]
    exact (settledOne p known.1 s insensitive).bind fun _ _ => (settledMembers rest known.2 s insensitive).map

end

/-- Predicates of known forms compile exactly if they fit the entity that they are asked of, whatever the name its rows
go by; any others are refused. -/
theorem acceptedFitting {e : Entity} (label : String) {ps : List Predicate} (known : AreKnown ps) :
    ((∃ c, compile registry e label ps = .ok c) ↔ AllFit registry e ps) ∧
      ∀ f, compile registry e label ps = .error f →
        ∃ report, f.report? = some report ∧
          (report.name = "QueryValidationError" ∨ report.name = "RelationNotFoundError") := by
  obtain ⟨fields, modal⟩ := modesKnown known []
  have settled : Settles Refused (compile registry e label ps) (AllFit registry e ps) := by
    unfold compile
    rw [modal]
    exact (settledMembers ps known ⟨e, label, 0⟩ fields).map
  exact ⟨settled.exact, settled.failure⟩

/-- Membership in an empty list, which no row has, beside a text that is looked for in a number. -/
def noneBesideText : List Predicate :=
  [.field "User" "id" (.member [] false) false,
    .related "User" "reports" .every [.group .any "User" [.field "User" "lead" (.text .contains (.text "1")) false]]]

theorem acceptedFittingBesideNone : AreKnown noneBesideText ∧
    ∃ f, condition (Sample.registry : Registry Unit) Sample.user noneBesideText = .error f ∧
      ¬AllFit (Sample.registry : Registry Unit) Sample.user noneBesideText ∧
      ∃ report, f.report? = some report ∧ (report.name = "QueryValidationError" ∨ report.name = "RelationNotFoundError") := by
  have known : AreKnown noneBesideText := ⟨rfl, ⟨nofun, ⟨rfl, trivial⟩, trivial⟩, trivial⟩
  obtain ⟨same, failure⟩ := @acceptedFitting Unit Sample.registry Sample.user "users" noneBesideText known
  have refused : condition (Sample.registry : Registry Unit) Sample.user noneBesideText =
      .error (.query (.operatorUnavailable "contains" "User" "lead" "i32")) := by rfl
  refine ⟨known, _, refused, fun fit => ?_, failure _ refused⟩
  obtain ⟨c, compiled⟩ := same.mpr fit
  cases refused.symm.trans compiled

end Predicate

end EntityQuery
