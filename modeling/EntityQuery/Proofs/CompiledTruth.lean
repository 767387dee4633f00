import EntityQuery.Predicate.Compiled
import EntityQuery.Proofs.Content
import EntityQuery.Proofs.Meaning
import EntityQuery.Proofs.Sample
import EntityQuery.Proofs.TypedPredicates
import Mathlib.Data.List.Forall2
/-! Compiled conditions are true where the predicates that they come from are. Conditions that are folded into
constants, lists of one and negations keep their truth value, and related rows are read one table further in. -/

namespace EntityQuery

open Store (Tables)

namespace Truth

/-- The truth of a list with a neutral value: its opposite decides, then an unknown one. -/
def gathered (neutral : Bool) (ts : List Truth) : Truth :=
  if ts.contains (known !neutral) then known !neutral else if ts.contains unknown then unknown else known neutral

def joined (neutral : Bool) : Truth → Truth → Truth := if neutral then Meaning.both else Meaning.either

theorem gatheredCons (neutral : Bool) {t : Truth} (proper : t.isProper) (ts : List Truth) :
    gathered neutral (t :: ts) = joined neutral t (gathered neutral ts) := by
  unfold gathered
  rw [List.contains_cons, List.contains_cons]
  generalize ts.contains (known !neutral) = decided
  generalize ts.contains unknown = undecided
  cases t with
  | known b => cases b <;> cases neutral <;> cases decided <;> cases undecided <;> rfl
  | unknown => cases neutral <;> cases decided <;> cases undecided <;> rfl
  | beside counted => cases proper

theorem foldrJoined (neutral : Bool) {ts : List Truth} (proper : ∀ t ∈ ts, t.isProper) :
    ts.foldr (joined neutral) (known neutral) = gathered neutral ts := by
  induction ts with
  | nil => rfl
  | cons t rest ih =>
    have tail := ih fun u mem => proper u (List.mem_cons_of_mem t mem)
    rw [gatheredCons neutral (proper t List.mem_cons_self), ← tail]
    rfl

theorem gatheredOne (neutral : Bool) {t : Truth} (proper : t.isProper) : gathered neutral [t] = t := by
  cases t with
  | known b => cases b <;> cases neutral <;> rfl
  | unknown => cases neutral <;> rfl
  | beside counted => cases proper

theorem properGathered (neutral : Bool) (ts : List Truth) : (gathered neutral ts).isProper := by
  unfold gathered
  split
  · rfl
  · split <;> rfl

theorem joinedNeutral (neutral : Bool) {t : Truth} (proper : t.isProper) : joined neutral (known neutral) t = t := by
  cases t with
  | known b => cases b <;> cases neutral <;> rfl
  | unknown => cases neutral <;> rfl
  | beside counted => cases proper

theorem anyNegated {ts : List Truth} (proper : ∀ t ∈ ts, t.isProper) :
    (ts.map negate).any (· == known true) = ts.any (· == known false) := by
  induction ts with
  | nil => rfl
  | cons t rest ih =>
    have here : t.isProper := proper t List.mem_cons_self
    have tail := ih fun u mem => proper u (List.mem_cons_of_mem t mem)
    rw [List.map_cons, List.any_cons, List.any_cons, tail]
    cases t with
    | known b => cases b <;> rfl
    | unknown => rfl
    | beside counted => cases here

theorem gatheredDecided {neutral : Bool} {ts : List Truth} (mem : known (!neutral) ∈ ts) :
    gathered neutral ts = known !neutral := by
  rw [gathered, if_pos (List.contains_iff_mem.mpr mem)]

end Truth

namespace Condition

/-- A list of conditions without neutral members; an opposite member decides, and one member stands for
itself. -/
def gathered (neutral : Bool) (group : List Condition → Condition) (members : List Condition) : Condition :=
  let kept := members.filter fun c => !(c.constant? == some neutral)
  if kept.any (fun c => c.constant? == some !neutral) then .constant !neutral
  else
    match kept with
    | [] => .constant neutral
    | [only] => only
    | _ => group kept

theorem conjunctionEq (members : List Condition) : conjunction members = gathered true .all members := rfl

theorem disjunctionEq (members : List Condition) : disjunction members = gathered false .any members := rfl

/-- A condition has a proper truth value on the rows of a scope, and is constant only as that value. -/
structure HasTruth (tables : Tables) (scope : Store.Scope) (c : Condition) (t : Truth) : Prop where
  proper : t.isProper
  evaluates : Store.evaluate tables scope c = .ok t
  constant : ∀ b, c.constant? = some b → t = .known b

variable {tables : Tables} {scope : Store.Scope} {c : Condition} {t : Truth}

theorem hasConstant (b : Bool) : HasTruth tables scope (.constant b) (.known b) := by
  refine ⟨rfl, rfl, ?_⟩
  intro d h
  cases h
  rfl

theorem evaluateAllOk {cs : List Condition} {ts : List Truth} (h : List.Forall₂ (HasTruth tables scope) cs ts) :
    Store.evaluateAll tables scope cs = .ok ts := by
  induction h with
  | nil => rfl
  | cons here _ ih =>
    rw [Store.evaluateAll, here.evaluates, ih]
    rfl

theorem properAll {cs : List Condition} {ts : List Truth} (h : List.Forall₂ (HasTruth tables scope) cs ts) :
    ∀ t ∈ ts, t.isProper := by
  induction h with
  | nil => simp
  | cons here _ ih =>
    intro u mem
    rcases List.mem_cons.mp mem with rfl | inside
    · exact here.proper
    · exact ih u inside

theorem keptTruths {cs : List Condition} {ts : List Truth} (neutral : Bool)
    (h : List.Forall₂ (HasTruth tables scope) cs ts) :
    ∃ kept, List.Forall₂ (HasTruth tables scope) (cs.filter fun c => !(c.constant? == some neutral)) kept ∧
      Truth.gathered neutral kept = Truth.gathered neutral ts := by
  induction h with
  | nil => exact ⟨[], .nil, rfl⟩
  | @cons c t cs ts here _ ih =>
    obtain ⟨kept, members, same⟩ := ih
    rw [Truth.gatheredCons neutral here.proper]
    -- a member that is left out is constant, and its truth is the neutral one
    cases left : c.constant? == some neutral with
    | true =>
      have value := here.constant neutral (eq_of_beq left)
      rw [value, Truth.joinedNeutral neutral (Truth.properGathered neutral ts)]
      exact ⟨kept, by simpa [left] using members, same⟩
    | false =>
      refine ⟨t :: kept, by simpa [left] using List.Forall₂.cons here members, ?_⟩
      rw [Truth.gatheredCons neutral here.proper, same]

theorem constantTruth {cs : List Condition} {ts : List Truth} {b : Bool}
    (h : List.Forall₂ (HasTruth tables scope) cs ts) (found : cs.any (fun c => c.constant? == some b)) :
    Truth.known b ∈ ts := by
  induction h with
  | nil => cases found
  | cons here _ ih =>
    rcases Bool.or_eq_true_iff.mp found with first | later
    · rw [here.constant b (eq_of_beq first)]
      exact List.mem_cons_self
    · exact List.mem_cons_of_mem _ (ih later)

theorem hasGathered (neutral : Bool) {group : List Condition → Condition} {cs : List Condition} {ts : List Truth}
    (grouped : ∀ members truths, Store.evaluateAll tables scope members = .ok truths →
      Store.evaluate tables scope (group members) = .ok (Truth.gathered neutral truths))
    (unfixed : ∀ members, (group members).constant? = none) (h : List.Forall₂ (HasTruth tables scope) cs ts) :
    HasTruth tables scope (gathered neutral group cs) (Truth.gathered neutral ts) := by
  obtain ⟨kept, members, same⟩ := keptTruths neutral h
  rw [← same]
  unfold gathered
  generalize cs.filter (fun c => !(c.constant? == some neutral)) = cs at members
  by_cases decided : cs.any (fun c => c.constant? == some !neutral)
  · rw [Truth.gatheredDecided (constantTruth members decided)]
    simp only [decided, if_true]
    exact hasConstant !neutral
  · simp only [decided, Bool.false_eq_true, if_false]
    cases members with
    | nil => exact hasConstant neutral
    | @cons c t rest truths here tail =>
      cases tail with
      | nil =>
        rw [Truth.gatheredOne neutral here.proper]
        exact here
      | cons next tail =>
        refine ⟨Truth.properGathered neutral _, grouped _ _ (evaluateAllOk (.cons here (.cons next tail))), ?_⟩
        intro b h
        rw [unfixed] at h
        cases h

theorem hasConjunction {cs : List Condition} {ts : List Truth} (h : List.Forall₂ (HasTruth tables scope) cs ts) :
    HasTruth tables scope (conjunction cs) (Meaning.conjunction ts) := by
  have value : Meaning.conjunction ts = Truth.gathered true ts := Truth.foldrJoined true (properAll h)
  rw [value, conjunctionEq]
  refine hasGathered true ?_ (fun _ => rfl) h
  intro members truths evaluated
  rw [Store.evaluate, evaluated]
  rfl

theorem hasDisjunction {cs : List Condition} {ts : List Truth} (h : List.Forall₂ (HasTruth tables scope) cs ts) :
    HasTruth tables scope (disjunction cs) (Meaning.disjunction ts) := by
  have value : Meaning.disjunction ts = Truth.gathered false ts := Truth.foldrJoined false (properAll h)
  rw [value, disjunctionEq]
  refine hasGathered false ?_ (fun _ => rfl) h
  intro members truths evaluated
  rw [Store.evaluate, evaluated]
  rfl

theorem hasNegation (h : HasTruth tables scope c t) : HasTruth tables scope c.negation t.negate := by
  unfold negation
  cases fixed : c.constant? with
  | some b =>
    rw [h.constant b fixed]
    exact hasConstant !b
  | none =>
    refine ⟨Truth.isProper_negate t, ?_, by intro b h; cases h⟩
    rw [Store.evaluate, h.evaluates]
    rfl

end Condition

namespace Predicate

theorem modesStep {p : Predicate} {rest : List Predicate} {inherited fields : List String}
    (h : modes (p :: rest) inherited = .ok fields) :
    ∃ next, modes rest next = .ok fields ∧
      ∀ name, next.contains name = (Meaning.modeOf? name p).getD (inherited.contains name) := by
  obtain ⟨next, stepped, later⟩ := Results.bindOk h
  refine ⟨next, later, ?_⟩
  intro name
  cases p with
  | field entity field test unique =>
    cases test with
    | mode mode =>
      cases stepped
      by_cases own : field = name
      · subst own
        cases insensitive : mode.text? == some "insensitive" <;> simp [Meaning.modeOf?, insensitive]
      · have other : ¬ name = field := fun eq => own eq.symm
        cases insensitive : mode.text? == some "insensitive" <;> simp [Meaning.modeOf?, own, other]
    | _ =>
      cases stepped
      rfl
  | foreign node =>
    obtain ⟨_, _, stepped⟩ := Results.bindOk stepped
    cases stepped
    rfl
  | _ =>
    cases stepped
    rfl

theorem modesRule {members : List Predicate} {inherited fields : List String}
    (h : modes members inherited = .ok fields) (name : String) :
    fields.contains name = (Meaning.lastMode? name members).getD (inherited.contains name) := by
  induction members generalizing inherited with
  | nil =>
    cases h
    rfl
  | cons p rest ih =>
    obtain ⟨next, later, rule⟩ := modesStep h
    rw [ih later, rule, Meaning.lastMode?]
    cases Meaning.lastMode? name rest <;> rfl

end Predicate

namespace Condition

variable {tables : Tables} {scope : Store.Scope} {r : ColumnRef} {v : Value}

theorem hasColumn {c : Condition} {t : Truth} (read : Store.columnValue scope r = .ok v)
    (evaluated : Store.evaluate tables scope c = do Store.columnTruth (← Store.columnValue scope r) c)
    (unfixed : c.constant? = none) (proper : t.isProper) (truth : Store.columnTruth v c = .ok t) :
    HasTruth tables scope c t := by
  refine ⟨proper, ?_, ?_⟩
  · rw [evaluated, read]
    exact truth
  · intro b h
    rw [unfixed] at h
    cases h

theorem hasNull (read : Store.columnValue scope r = .ok v) (negated : Bool) :
    HasTruth tables scope (.null r negated) (.known (v.isNothing != negated)) :=
  hasColumn read (by rw [Store.evaluate]) rfl rfl rfl

theorem hasNullTest (read : Store.columnValue scope r = .ok v) (c : Comparison) :
    HasTruth tables scope (Predicate.nullTest r c) (.known (v.isNothing == Meaning.asksMissing c)) := by
  have whether (b : Bool) : (b == true) = (b != false) ∧ (b == false) = (b != true) := by cases b <;> exact ⟨rfl, rfl⟩
  cases c with
  | eq | lt | le =>
    rw [Meaning.asksMissing, (whether _).1]
    exact hasNull read false
  | ne | gt | ge =>
    rw [Meaning.asksMissing, (whether _).2]
    exact hasNull read true

theorem hasCaseless (read : Store.columnValue scope r = .ok v) (s : String) :
    HasTruth tables scope (.text r .equals (.text s) true) (Meaning.caselessTruth true s v) := by
  refine hasColumn read (by rw [Store.evaluate]) rfl ?_ ?_
  · cases v <;> rfl
  · cases v with
    | text t =>
      have flipped : (some (Text.toLower s) == some (Text.toLower t)) = ((Text.toLower t == Text.toLower s) == true) := by
        rw [beq_true, BEq.comm (a := Text.toLower t)]
        rfl
      change Except.ok (Truth.known (some (Text.toLower s) == some (Text.toLower t))) = _
      rw [flipped]
      rfl
    | _ => rfl

theorem caselessNegated (s : String) (v : Value) :
    Meaning.caselessTruth false s v = (Meaning.caselessTruth true s v).negate := by
  cases v with
  | text t => cases same : Text.toLower t == Text.toLower s <;> simp [Meaning.caselessTruth, Truth.negate, same]
  | _ => rfl

theorem orderOk {operand : Value} (hv : ∃ x, Store.comparable v = .ok x)
    (ho : ∃ y, Store.comparable operand = .ok y) : ∃ o, Store.order v operand = .ok o := by
  obtain ⟨x, hx⟩ := hv
  obtain ⟨y, hy⟩ := ho
  exact ⟨x.order y, by rw [Store.order, hx, hy]; rfl⟩

theorem hasCompare (read : Store.columnValue scope r = .ok v) (c : Comparison) {operand : Value}
    (there : operand ≠ .null) (hv : ∃ x, Store.comparable v = .ok x) (ho : ∃ y, Store.comparable operand = .ok y) :
    ∃ t, Meaning.comparisonTruth c operand v = .ok t ∧ HasTruth tables scope (.compare r (.of c) operand) t := by
  obtain ⟨o, ordered⟩ := orderOk hv ho
  have evaluated : Store.evaluate tables scope (.compare r (.of c) operand) =
      (do Store.columnTruth (← Store.columnValue scope r) (.compare r (.of c) operand)) := by rw [Store.evaluate]
  have meant : Meaning.comparisonTruth c operand v =
      (if v.isNothing || operand.isNothing then .ok .unknown else .ok (.known (Store.holds c o))) := by
    unfold Meaning.comparisonTruth
    split
    · exact absurd rfl there
    · rw [ordered]
      split <;> rfl
  rw [meant]
  cases missing : v.isNothing || operand.isNothing with
  | true =>
    refine ⟨.unknown, rfl, hasColumn read evaluated rfl rfl ?_⟩
    simp [Store.columnTruth, Store.compareTruth, missing, pure, Except.pure]
  | false =>
    refine ⟨.known (Store.holds c o), rfl, hasColumn read evaluated rfl rfl ?_⟩
    simp only [Store.columnTruth, Store.compareTruth, missing, ordered]
    rfl

theorem hasOccurrence (read : Store.columnValue scope r = .ok v) (kind : Occurrence) (ignoreCase : Bool) (s : String) :
    HasTruth tables scope (.text r (.part kind) (.text s) ignoreCase)
      (Meaning.occurrenceTruth kind ignoreCase s v) := by
  refine hasColumn read (by rw [Store.evaluate]) rfl ?_ ?_
  · cases v <;> rfl
  · cases v with
    | text t => cases ignoreCase <;> rfl
    | _ => rfl

theorem amongOk {values : List Value} (hv : ∃ x, Store.comparable v = .ok x)
    (ho : ∀ w ∈ values, ∃ y, Store.comparable w = .ok y) :
    ∃ b, Meaning.isAmong v values = .ok b ∧
      values.anyM (fun w => if w.isNothing then .ok false else Store.same v w) = .ok b := by
  induction values with
  | nil => exact ⟨false, rfl, rfl⟩
  | cons w rest ih =>
    obtain ⟨b, meant, anyRest⟩ := ih fun u mem => ho u (List.mem_cons_of_mem w mem)
    rw [Meaning.isAmong, List.anyM]
    cases missing : w.isNothing with
    | true => exact ⟨b, by simpa using meant, by simpa [missing, bind, Except.bind] using anyRest⟩
    | false =>
      obtain ⟨o, ordered⟩ := orderOk hv (ho w List.mem_cons_self)
      have compared : Store.same v w = .ok (o == .eq) := by rw [Store.same, ordered]; rfl
      refine ⟨(o == .eq) || b, ?_, ?_⟩
      · simp only [Bool.false_eq_true, if_false, compared, meant]
        rfl
      · simp only [Bool.false_eq_true, if_false, compared]
        cases equal : o == .eq with
        | true => rfl
        | false => simpa [bind, Except.bind] using anyRest

theorem hasMember (read : Store.columnValue scope r = .ok v) {values : List Value} (negated : Bool)
    (hv : ∃ x, Store.comparable v = .ok x) (ho : ∀ w ∈ values, ∃ y, Store.comparable w = .ok y) :
    ∃ t, Meaning.memberTruth values negated v = .ok t ∧ HasTruth tables scope (inList r values negated) t := by
  obtain ⟨b, meant, found⟩ := amongOk hv ho
  have evaluated : Store.evaluate tables scope (.member r values negated) =
      (do Store.columnTruth (← Store.columnValue scope r) (.member r values negated)) := by rw [Store.evaluate]
  unfold Meaning.memberTruth inList
  cases empty : values.isEmpty with
  | true => exact ⟨.known negated, rfl, hasConstant negated⟩
  | false =>
    cases missing : v.isNothing with
    | true =>
      refine ⟨.unknown, rfl, hasColumn read evaluated rfl rfl ?_⟩
      simp [Store.columnTruth, Store.memberTruth, missing]
    | false =>
      refine ⟨.known (b != negated), by rw [meant]; rfl, hasColumn read evaluated rfl rfl ?_⟩
      simp only [Store.columnTruth, Store.memberTruth, missing, Bool.false_eq_true, if_false, found]
      rfl

theorem hasJson (read : Store.columnValue scope r = .ok v) {o : JsonOperator} {steps : List String} {operand : Value}
    (typed : o.IsOperand operand) (document : ∃ j, Store.documentOf v = .ok j) :
    ∃ t, Meaning.jsonTruth o (.array (steps.map .text)) operand v = .ok t ∧
      HasTruth tables scope (.json r (o.test (steps.map .text) operand)) t := by
  obtain ⟨j, hj⟩ := document
  obtain ⟨t, ht, proper⟩ := JsonOperator.documentTruthOk typed steps j
  have truth : (do Store.documentTruth (← Store.documentOf v) (o.test (steps.map .text) operand)) = .ok t := by
    rw [hj]
    exact ht
  exact ⟨t, truth, hasColumn read (by rw [Store.evaluate]) rfl proper truth⟩

end Condition

namespace Field

theorem jsonOffered (c : TypeClass) (o : JsonOperator) (nullable : Bool) (notJson : c ≠ .json) :
    (c.operators ++ (if nullable then Operator.nullChecks else []) ++ [Operator.set]).any (fun offered => offered.tag == o.tag) = false := by
  have kinds : ∀ o ∈ JsonOperator.all, (c.operators ++ (if nullable then Operator.nullChecks else []) ++ [Operator.set]).any
      (fun offered => offered.tag == o.tag) = false := by
    cases c with
    | json => exact absurd rfl notJson
    | _ => cases nullable <;> decide +kernel
  refine kinds o ?_
  cases o with
  | text kind => cases kind <;> decide
  | array item => cases item <;> decide
  | _ => decide

theorem jsonOfOffers {f : Field} {o : JsonOperator} (h : f.offers o.tag) : f.type = .json := by
  by_cases json : f.typeClass = .json
  · unfold typeClass at json
    cases type : f.type with
    | json => rfl
    | _ => simp [type, ScalarType.typeClass] at json
  · have never := jsonOffered f.typeClass o f.nullable json
    unfold offers operators at h
    rw [never] at h
    cases h

end Field

namespace Predicate

variable {tables : Tables} {scope : Store.Scope}

/-- A condition stands for a truth value, and none for none. -/
abbrev Stands (tables : Tables) (scope : Store.Scope) : Option Condition → Option Truth → Prop :=
  Option.Rel (Condition.HasTruth tables scope)

theorem valueTestCases (r : ColumnRef) (c : Comparison) (operand : Value) (ignoreCase : Bool) :
    (∃ s, operand = .text s ∧ ignoreCase = true ∧ (c = .eq ∨ c = .ne)) ∨
      Meaning.caseless? ignoreCase c operand = none ∧
        valueTest r c operand ignoreCase = .compare r (.of c) operand := by
  cases ignoreCase with
  | false => cases c <;> cases operand <;> exact .inr ⟨rfl, rfl⟩
  | true =>
    cases operand with
    | text s =>
      cases c with
      | eq => exact .inl ⟨s, rfl, rfl, .inl rfl⟩
      | ne => exact .inl ⟨s, rfl, rfl, .inr rfl⟩
      | _ => exact .inr ⟨rfl, rfl⟩
    | _ => cases c <;> exact .inr ⟨rfl, rfl⟩

theorem valueTestOk {r : ColumnRef} {v : Value} (read : Store.columnValue scope r = .ok v) (c : Comparison)
    {operand : Value} (ignoreCase : Bool) (there : operand ≠ .null) (hv : ∃ x, Store.comparable v = .ok x)
    (ho : ∃ y, Store.comparable operand = .ok y) :
    ∃ t, Meaning.testTruth ignoreCase (.compare c operand) v = .ok (some t) ∧
      Condition.HasTruth tables scope (valueTest r c operand ignoreCase) t := by
  rcases valueTestCases r c operand ignoreCase with ⟨s, rfl, rfl, rfl | rfl⟩ | ⟨plain, test⟩
  · exact ⟨_, rfl, Condition.hasCaseless read s⟩
  · refine ⟨_, rfl, ?_⟩
    rw [Condition.caselessNegated]
    exact Condition.hasNegation (Condition.hasCaseless read s)
  · obtain ⟨t, meant, truth⟩ := Condition.hasCompare read c there hv ho
    refine ⟨t, ?_, ?_⟩
    · simp only [Meaning.testTruth, plain, meant]
      rfl
    · rw [test]
      exact truth

theorem compiledTest {s : Scope} {f : Field} {row : Row} {t : FieldTest} {ignoreCase : Bool} {c : Option Condition}
    (isRow : s.entity.IsRow row) (mem : f ∈ s.entity.fields) (found : Record.get? scope s.label = some row)
    (typed : t.IsTyped) (offered : t.tag.text?.any f.offers) (h : compileTest s f ignoreCase t = .ok c) :
    ∃ truth, Meaning.testTruth ignoreCase t (Row.value row f.column) = .ok truth ∧ Stands tables scope c truth := by
  have read : Store.columnValue scope (s.column f) = .ok (Row.value row f.column) := by
    simp only [Store.columnValue, Scope.column, found]
  have hv := Entity.comparableValue isRow f.column
  cases t with
  | compare comparison operand =>
    by_cases missing : operand = .null
    · subst missing
      obtain ⟨_, _, h⟩ := Results.bindOk h
      cases h
      refine ⟨_, ?_, .some (Condition.hasNullTest read comparison)⟩
      cases comparison <;> rfl
    · obtain ⟨truth, meant, holds⟩ := valueTestOk read comparison ignoreCase missing hv typed
      have compiled : compileTest s f ignoreCase (.compare comparison operand) =
          .ok (some (valueTest (s.column f) comparison operand ignoreCase)) := by
        cases operand <;> first | rfl | exact absurd rfl missing
      rw [compiled] at h
      cases h
      exact ⟨some truth, meant, .some holds⟩
  | member values negated =>
    cases h
    obtain ⟨truth, meant, holds⟩ := Condition.hasMember read negated hv typed
    exact ⟨some truth, by simp only [Meaning.testTruth, meant]; rfl, .some holds⟩
  | text kind part =>
    cases h
    obtain ⟨part, rfl⟩ := typed
    exact ⟨_, rfl, .some (Condition.hasOccurrence read kind ignoreCase part)⟩
  | mode _ =>
    cases h
    exact ⟨none, rfl, .none⟩
  | json o path operand =>
    cases h
    obtain ⟨⟨steps, rfl⟩, typed⟩ := typed
    have json : f.type = .json := Field.jsonOfOffers offered
    obtain ⟨truth, meant, holds⟩ := Condition.hasJson read typed
      (Entity.documentValue isRow mem json)
    exact ⟨some truth, by simp only [Meaning.testTruth, meant]; rfl, .some holds⟩
  | null negated =>
    cases h
    exact ⟨_, rfl, .some (Condition.hasNull read negated)⟩
  | foreign operation => cases typed

end Predicate

def joins (outer : Value) (column : String) (row : Row) : Bool :=
  !(outer.isNothing || (Row.value row column).isNothing) &&
    Results.valueOr false (Store.same (Row.value row column) outer)

namespace Condition

variable {tables : Tables} {scope : Store.Scope}

theorem sameOk {v w : Value} (hv : ∃ x, Store.comparable v = .ok x) (hw : ∃ y, Store.comparable w = .ok y) :
    Store.same v w = .ok (Results.valueOr false (Store.same v w)) := by
  obtain ⟨o, ordered⟩ := orderOk hv hw
  exact Results.eqOkValueOr false ⟨o == .eq, by rw [Store.same, ordered]; rfl⟩

theorem relatedRowsOk {table column : String} {outer : Value} {rows : List Row}
    (stored : Store.tableRows tables table = .ok rows)
    (comparable : ∀ row ∈ rows, ∃ x, Store.comparable (Row.value row column) = .ok x)
    (ho : ∃ y, Store.comparable outer = .ok y) :
    Meaning.relatedRows tables table column outer = .ok (rows.filter (joins outer column)) := by
  rw [Meaning.relatedRows, stored]
  refine Results.filterOk ?_
  intro row mem
  unfold joins
  cases missing : outer.isNothing || (Row.value row column).isNothing with
  | true => simp [missing]
  | false => simpa [missing] using sameOk (comparable row mem) ho

/-- A condition on related rows is true when one that joins makes the inner condition true. -/
theorem hasRelated {table label : String} {join : Join} {inner : Condition} {outer : Value} {rows : List Row}
    {truthOf : Row → Truth} (negated : Bool) (read : Store.columnValue scope join.outer = .ok outer)
    (stored : Store.tableRows tables table = .ok rows)
    (comparable : ∀ row ∈ rows, ∃ x, Store.comparable (Row.value row join.inner.column) = .ok x)
    (ho : ∃ y, Store.comparable outer = .ok y)
    (holds : ∀ row ∈ rows, HasTruth tables ((label, row) :: scope) inner (truthOf row)) :
    HasTruth tables scope (.related table label join inner negated)
      (.known (((rows.filter (joins outer join.inner.column)).map truthOf).any (· == .known true) != negated)) := by
  refine ⟨rfl, ?_, by intro b h; cases h⟩
  rw [Store.evaluate, read]
  cases missing : outer.isNothing with
  | true =>
    have none : rows.filter (joins outer join.inner.column) = [] := by simp [joins, missing]
    rw [none]
    cases negated <;> simp [bind, Except.bind, pure, Except.pure, missing]
  | false =>
    have each : ∀ row ∈ rows, (if (Row.value row join.inner.column).isNothing then .ok false
        else do
          if ← Store.same (Row.value row join.inner.column) outer then
            return (← Store.evaluate tables ((label, row) :: scope) inner).isTrue
          else return false) = Except.ok (ε := Failure) (joins outer join.inner.column row && truthOf row == .known true) := by
      intro row mem
      unfold joins
      rw [sameOk (comparable row mem) ho, (holds row mem).evaluates]
      cases (Row.value row join.inner.column).isNothing with
      | true => simp
      | false =>
        cases Results.valueOr false (Store.same (Row.value row join.inner.column) outer) <;>
          simp [missing, Results.valueOr, bind, Except.bind, pure, Except.pure, Truth.isTrue]
    simp only [bind, Except.bind, missing, Bool.false_eq_true, if_false, stored]
    simp only [bind, Except.bind] at each
    rw [Results.anyOk each]
    simp [pure, Except.pure, List.any_filter]

/-- `every` asks for no row of which the negation is true, `none` for no row that passes. -/
theorem hasQuantified {table label : String} {join : Join} {inner c : Condition} {outer : Value} {rows : List Row}
    {truthOf : Row → Truth} {q : Quantifier} (read : Store.columnValue scope join.outer = .ok outer)
    (stored : Store.tableRows tables table = .ok rows)
    (comparable : ∀ row ∈ rows, ∃ x, Store.comparable (Row.value row join.inner.column) = .ok x)
    (ho : ∃ y, Store.comparable outer = .ok y)
    (holds : ∀ row ∈ rows, HasTruth tables ((label, row) :: scope) inner (truthOf row))
    (h : Predicate.quantify q table label join inner = .ok c) :
    HasTruth tables scope c
      (Meaning.quantified q ((rows.filter (joins outer join.inner.column)).map truthOf)) := by
  cases q with
  | some =>
    cases h
    have asked := hasRelated false read stored comparable ho holds
    rwa [Bool.bne_false] at asked
  | every =>
    cases h
    have negatives : ∀ row ∈ rows,
        HasTruth tables ((label, row) :: scope) inner.negation ((Truth.negate ∘ truthOf) row) :=
      fun row mem => hasNegation (holds row mem)
    have asked := hasRelated true read stored comparable ho negatives
    have proper : ∀ t ∈ (rows.filter (joins outer join.inner.column)).map truthOf, t.isProper := by
      intro t mem
      obtain ⟨row, inside, rfl⟩ := List.mem_map.mp mem
      exact (holds row (List.mem_of_mem_filter inside)).proper
    rw [← List.map_map, Truth.anyNegated proper, Bool.bne_true, List.not_any_eq_all_not] at asked
    exact asked
  | none =>
    cases h
    have asked := hasRelated true read stored comparable ho holds
    rw [Bool.bne_true, List.not_any_eq_all_not] at asked
    exact asked
  | foreign v =>
    obtain ⟨_, _, h⟩ := Results.bindOk h
    cases h

end Condition

namespace Predicate

variable {φ : Type} {registry : Registry φ} {tables : Tables}

structure Reads (s : Scope) (scope : Store.Scope) (row : Row) : Prop where
  isRow : s.entity.IsRow row
  found : Record.get? scope s.label = some row

theorem fieldOfName {e : Entity} {name : String} {f : Field} (h : e.field name = .ok f) :
    f ∈ e.fields ∧ f.name = name := by
  unfold Entity.field Entity.field? at h
  split at h
  · rename_i found
    cases h
    have own := List.find?_some found
    exact ⟨List.mem_of_find?_eq_some found, eq_of_beq own⟩
  · cases h

theorem compiledField {s : Scope} {scope : Store.Scope} {row : Row} {insensitive : List String}
    {rule : Meaning.CaseRule} {name : String} {t : FieldTest} {c : Option Condition} (reads : Reads s scope row)
    (cased : ∀ name, insensitive.contains name = rule name) (typed : t.IsTyped)
    (h : compileField s insensitive (.text name) t = .ok c) :
    ∃ truth, (do
        let f ← s.entity.field name
        Meaning.testTruth (rule name && f.typeClass == TypeClass.text) t (Row.value row f.column)) = .ok truth ∧
      Stands tables scope c truth := by
  obtain ⟨f, named, h⟩ := Results.bindOk h
  have named : s.entity.field name = .ok f := named
  obtain ⟨mem, own⟩ := fieldOfName named
  cases offered : t.tag.text?.any f.offers with
  | false =>
    simp only [offered, Bool.not_false, if_true] at h
    obtain ⟨_, _, h⟩ := Results.bindOk h
    cases h
  | true =>
    simp only [offered, Bool.not_true, Bool.false_eq_true, if_false] at h
    rw [named]
    rw [← cased, ← own]
    exact compiledTest reads.isRow mem reads.found typed offered h

theorem relatedOfTarget {s : Scope} {relation : String} {r : Relation} {target : Entity}
    (h : relationTarget registry s (.text relation) = .ok (r, target)) :
    registry.related s.entity (.text relation) = .ok (r, target) ∧ target ∈ registry.entities := by
  obtain ⟨found, named, h⟩ := Results.bindOk h
  split at h
  · rename_i e known
    cases h
    refine ⟨?_, Registry.memOfGet known⟩
    rw [Registry.related, named]
    simp only [bind, Except.bind, known]
    rfl
  · cases h

def joinedBy (connective : Connective) (cs : List Condition) : Condition :=
  match connective with
  | .all => Condition.conjunction cs
  | .any => Condition.disjunction cs
  | .not => (Condition.conjunction cs).negation

def truthBy (connective : Connective) (ts : List Truth) : Truth :=
  match connective with
  | .all => Meaning.conjunction ts
  | .any => Meaning.disjunction ts
  | .not => (Meaning.conjunction ts).negate

theorem compileGroup (s : Scope) (insensitive : List String) (connective : Connective) (entity : String)
    (members : List Predicate) :
    compileOne registry s insensitive (.group connective entity members) = do
      checkEntity s (.text entity)
      return some (joinedBy connective (← compileMembers registry s (← modes members insensitive) members)) := by
  cases connective <;> rw [compileOne] <;> rfl

theorem ofGroup (e : Entity) (rule : Meaning.CaseRule) (row : Row) (connective : Connective) (entity : String)
    (members : List Predicate) :
    Meaning.ofPredicate registry tables e rule row (.group connective entity members) = do
      return some (truthBy connective (← Meaning.ofMembers registry tables e (rule.within members) row members)) := by
  cases connective <;> rw [Meaning.ofPredicate] <;> rfl

theorem hasJoined {scope : Store.Scope} {cs : List Condition} {ts : List Truth} (connective : Connective)
    (h : List.Forall₂ (Condition.HasTruth tables scope) cs ts) :
    Condition.HasTruth tables scope (joinedBy connective cs) (truthBy connective ts) := by
  cases connective with
  | all => exact Condition.hasConjunction h
  | any => exact Condition.hasDisjunction h
  | not => exact Condition.hasNegation (Condition.hasConjunction h)

theorem compiledRelated (described : registry.Describes tables) {s : Scope} {scope : Store.Scope} {row : Row}
    {r : Relation} {target : Entity} {q : Quantifier} {members : List Predicate} {cs : List Condition}
    {asked : Condition} (reads : Reads s scope row) (inside : target ∈ registry.entities)
    (quantified : quantify q target.table (s.inside target).label
      ⟨⟨s.label, r.own.column⟩, ⟨(s.inside target).label, r.remote.column⟩⟩ (Condition.conjunction cs) = .ok asked)
    (listed : ∀ {other}, Reads (s.inside target) (((s.inside target).label, other) :: scope) other →
      ∃ ts, Meaning.ofMembers registry tables target (Meaning.CaseRule.sensitive.within members) other members = .ok ts ∧
        List.Forall₂ (Condition.HasTruth tables (((s.inside target).label, other) :: scope)) cs ts) :
    ∃ t, (do
        let rows ← Meaning.relatedRows tables target.table r.remote.column (Row.value row r.own.column)
        let truths ← rows.mapM fun other => do
          return Meaning.conjunction
            (← Meaning.ofMembers registry tables target (Meaning.CaseRule.sensitive.within members) other members)
        return some (Meaning.quantified q truths)) = .ok (some t) ∧
      Condition.HasTruth tables scope asked t := by
  obtain ⟨rows, stored, areRows⟩ := described target inside
  let meaning (other : Row) : Except Failure Truth := do
    return Meaning.conjunction
      (← Meaning.ofMembers registry tables target (Meaning.CaseRule.sensitive.within members) other members)
  have read : Store.columnValue scope ⟨s.label, r.own.column⟩ = .ok (Row.value row r.own.column) := by
    simp only [Store.columnValue, reads.found]
  have own := Entity.comparableValue reads.isRow r.own.column
  have remote : ∀ other ∈ rows, ∃ x, Store.comparable (Row.value other r.remote.column) = .ok x :=
    fun other mem => Entity.comparableValue (areRows other mem) r.remote.column
  have each : ∀ other ∈ rows, ∃ ts, meaning other = .ok (Meaning.conjunction ts) ∧
      List.Forall₂ (Condition.HasTruth tables (((s.inside target).label, other) :: scope)) cs ts := by
    intro other mem
    obtain ⟨ts, meant, holds⟩ := listed ⟨areRows other mem, by simp [Record.get?]⟩
    exact ⟨ts, by simp only [meaning, meant]; rfl, holds⟩
  have holds : ∀ other ∈ rows, Condition.HasTruth tables (((s.inside target).label, other) :: scope)
      (Condition.conjunction cs) (Results.valueOr .unknown (meaning other)) := by
    intro other mem
    obtain ⟨ts, meant, members⟩ := each other mem
    rw [meant]
    exact Condition.hasConjunction members
  have truths : ∀ other ∈ rows.filter (joins (Row.value row r.own.column) r.remote.column),
      meaning other = .ok (Results.valueOr .unknown (meaning other)) := by
    intro other mem
    obtain ⟨ts, meant, _⟩ := each other (List.mem_of_mem_filter mem)
    exact Results.eqOkValueOr .unknown ⟨_, meant⟩
  have answered := Condition.hasQuantified read stored remote own holds quantified
  rw [Condition.relatedRowsOk stored remote own]
  change ∃ t, (do
    let truths ← (rows.filter (joins (Row.value row r.own.column) r.remote.column)).mapM meaning
    return some (Meaning.quantified q truths)) = Except.ok (some t) ∧ _
  rw [Results.mapAllOk truths]
  exact ⟨_, rfl, answered⟩

mutual

theorem compiledOne (described : registry.Describes tables) (p : Predicate) {s : Scope} {scope : Store.Scope}
    {row : Row} {insensitive : List String} {rule : Meaning.CaseRule} {c : Option Condition}
    (reads : Reads s scope row) (cased : ∀ name, insensitive.contains name = rule name) (typed : p.IsTyped)
    (h : compileOne registry s insensitive p = .ok c) :
    ∃ t, Meaning.ofPredicate registry tables s.entity rule row p = .ok t ∧ Stands tables scope c t := by
  -- the scope, the row it reads and the rule for case all change from a list to the lists in it
  cases p with
  | field entity name test unique =>
    rw [compileOne] at h
    obtain ⟨_, _, h⟩ := Results.bindOk h
    rw [Meaning.ofPredicate]
    exact compiledField reads cased typed h
  | group connective entity members =>
    rw [compileGroup] at h
    obtain ⟨_, _, h⟩ := Results.bindOk h
    obtain ⟨fields, modal, h⟩ := Results.bindOk h
    obtain ⟨cs, compiled, h⟩ := Results.bindOk h
    cases h
    have within : ∀ name, fields.contains name = rule.within members name := by
      intro name
      rw [modesRule modal, cased]
      rfl
    obtain ⟨ts, meant, holds⟩ := compiledMembers described members reads within typed compiled
    rw [ofGroup, meant]
    exact ⟨_, rfl, .some (hasJoined connective holds)⟩
  | related entity relation q members =>
    rw [compileOne] at h
    obtain ⟨_, _, h⟩ := Results.bindOk h
    obtain ⟨⟨r, target⟩, aimed, h⟩ := Results.bindOk h
    obtain ⟨fields, modal, h⟩ := Results.bindOk h
    obtain ⟨cs, compiled, h⟩ := Results.bindOk h
    obtain ⟨asked, quantified, h⟩ := Results.bindOk h
    cases h
    obtain ⟨meantTarget, inside⟩ := relatedOfTarget aimed
    obtain ⟨t, meant, holds⟩ := compiledRelated described reads inside quantified fun reads =>
      compiledMembers described members reads (modesRule modal) typed.2 compiled
    rw [Meaning.ofPredicate, meantTarget]
    exact ⟨some t, meant, .some holds⟩
  | foreign node => exact absurd typed (by simp [IsTyped])

theorem compiledMembers (described : registry.Describes tables) (members : List Predicate) {s : Scope}
    {scope : Store.Scope} {row : Row} {insensitive : List String} {rule : Meaning.CaseRule} {cs : List Condition}
    (reads : Reads s scope row) (cased : ∀ name, insensitive.contains name = rule name) (typed : AreTyped members)
    (h : compileMembers registry s insensitive members = .ok cs) :
    ∃ ts, Meaning.ofMembers registry tables s.entity rule row members = .ok ts ∧
      List.Forall₂ (Condition.HasTruth tables scope) cs ts := by
  cases members with
  | nil =>
    cases h
    exact ⟨[], rfl, .nil⟩
  | cons p rest =>
    rw [compileMembers] at h
    obtain ⟨c, one, h⟩ := Results.bindOk h
    obtain ⟨others, tail, h⟩ := Results.bindOk h
    cases h
    obtain ⟨t, meant, stands⟩ := compiledOne described p reads cased typed.1 one
    obtain ⟨ts, meantTail, holds⟩ := compiledMembers described rest reads cased typed.2 tail
    rw [Meaning.ofMembers, meant, meantTail]
    refine ⟨t.toList ++ ts, rfl, ?_⟩
    cases stands with
    | none => exact holds
    | some here => exact .cons here holds

end

/-- A condition that compiles is true, false or unknown of a row exactly as its predicates are read. -/
theorem conditionMeaning {e : Entity} {row : Row} {ps : List Predicate} {c : Condition}
    (described : registry.Describes tables) (isRow : e.IsRow row) (typed : AreTyped ps)
    (h : condition registry e ps = .ok c) :
    ∃ t, t.isProper ∧ Meaning.ofList registry tables e row ps = .ok t ∧
      Store.evaluate tables [(e.table, row)] c = .ok t := by
  obtain ⟨fields, modal, h⟩ := Results.bindOk h
  obtain ⟨cs, compiled, h⟩ := Results.bindOk h
  cases h
  have reads : Reads ⟨e, e.table, 0⟩ [(e.table, row)] row := ⟨isRow, by simp [Record.get?]⟩
  obtain ⟨ts, meant, holds⟩ := compiledMembers described ps reads (modesRule modal) typed compiled
  have meant : Meaning.ofMembers registry tables e (Meaning.CaseRule.sensitive.within ps) row ps = .ok ts := meant
  have whole := Condition.hasConjunction holds
  exact ⟨Meaning.conjunction ts, whole.proper, by rw [Meaning.ofList, meant]; rfl, whole.evaluates⟩

/-- A name that starts with a small or a capital letter, and no report of one name. -/
def askedOfAnn : List Predicate :=
  [.field "User" "name" (.text .startsWith (.text "a")) false,
    .related "User" "reports" .every [.field "User" "name" (.compare .ne (.text "Ann")) false],
    .field "User" "name" (.mode (.text "insensitive")) false]

theorem conditionMeaningOfAnn :
    ∃ c, condition (Sample.registry : Registry Unit) Sample.user askedOfAnn = .ok c ∧
      ∃ t, t.isProper ∧ Meaning.ofList (Sample.registry : Registry Unit) Sample.tables Sample.user Sample.ann askedOfAnn = .ok t ∧
        Store.evaluate Sample.tables [(Sample.user.table, Sample.ann)] c = .ok t := by
  have typed : AreTyped askedOfAnn := by
    simp only [askedOfAnn, AreTyped, IsTyped, FieldTest.IsTyped, Store.comparable]
    simp
  have accepted : (condition (Sample.registry : Registry Unit) Sample.user askedOfAnn).isOk := by decide +kernel
  cases compiled : condition (Sample.registry : Registry Unit) Sample.user askedOfAnn with
  | error e =>
    rw [compiled] at accepted
    cases accepted
  | ok c =>
    exact ⟨c, rfl, conditionMeaning Sample.described (Sample.isRow 1 (.inr rfl) (.inl rfl)) typed compiled⟩

end Predicate

end EntityQuery
