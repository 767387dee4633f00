import EntityQuery.Field.Operand
import EntityQuery.Proofs.Content
/-! Predicates with operands of the kinds that their tests are made for: values that can be compared, parts
and keys that are texts, JSON data, and paths of texts. Tests of stored documents then always have a truth
value. -/

namespace EntityQuery

namespace Value

mutual

theorem toJsonOfJson (rule : IntegerRule) (j : Json) : (ofJson j).toJson? rule = .ok (some j) := by
  cases j with
  | null | bool _ | number _ | text _ => rfl
  | array items =>
    rw [ofJson, toJson?, toJsonOfItems rule items]
    rfl
  | object members =>
    rw [ofJson, toJson?, toJsonOfMembers rule members]
    rfl

theorem toJsonOfItems (rule : IntegerRule) (items : List Json) :
    toJsonItems rule (ofJsonItems items) = .ok items := by
  cases items with
  | nil => rfl
  | cons item rest =>
    rw [ofJsonItems, toJsonItems, toJsonOfJson rule item, toJsonOfItems rule rest]
    rfl

theorem toJsonOfMembers (rule : IntegerRule) (members : List (String × Json)) :
    toJsonMembers rule (ofJsonMembers members) = .ok members := by
  cases members with
  | nil => rfl
  | cons pair rest =>
    obtain ⟨name, value⟩ := pair
    rw [ofJsonMembers, toJsonMembers, toJsonOfJson rule value, toJsonOfMembers rule rest]
    rfl

end

theorem jsonTextOfJson (rule : IntegerRule) (j : Json) : (ofJson j).jsonText? rule = .ok (some j.print) := by
  rw [jsonText?, document, toJsonOfJson rule j]
  rfl

end Value

namespace Store

theorem sameTextOk (document j : Json) : ∃ b, sameText document (.ofJson j) = .ok b := by
  rw [sameText, Value.jsonTextOfJson]
  exact ⟨_, rfl⟩

theorem sharedHoldsOk (name : String) (j : Json) : ∃ b, sharedHolds name (.ofJson j) = .ok b := by
  unfold sharedHolds
  split
  · rw [Value.jsonTextOfJson]
    exact ⟨_, rfl⟩
  · exact sameTextOk .null j
  · exact ⟨_, rfl⟩

theorem sharedContainsOk (j : Json) : ∃ b, sharedContains (.ofJson j) = .ok b := by
  cases j with
  | object members =>
    refine Results.allOk ?_
    induction members with
    | nil => exact nofun
    | cons m rest ih => exact List.forall_mem_cons.mpr ⟨sharedHoldsOk m.1 m.2, ih⟩
  | _ => exact sameTextOk (.object []) _

mutual

theorem containsOk (j : Json) (document : Json) : ∃ b, contains (.ofJson j) document = .ok b := by
  have whole := sameTextOk document j
  cases j with
  | null | bool _ | number _ | text _ =>
    rw [Value.ofJson, contains]
    · exact whole
    all_goals simp
  | array items =>
    cases document with
    | array candidates =>
      rw [Value.ofJson, contains]
      exact containsItemsOk items candidates
    | _ =>
      rw [Value.ofJson, contains]
      · exact whole
      all_goals simp
  | object members =>
    cases document with
    | object candidates =>
      rw [Value.ofJson, contains]
      exact containsMembersOk members candidates
    | _ =>
      rw [Value.ofJson, contains]
      · exact whole
      all_goals simp

theorem containsItemsOk (items : List Json) (candidates : List Json) :
    ∃ b, containsItems (Value.ofJsonItems items) candidates = .ok b := by
  cases items with
  | nil => exact ⟨_, rfl⟩
  | cons item rest =>
    have each : ∀ c ∈ candidates, contains (.ofJson item) c = .ok (Results.valueOr false (contains (.ofJson item) c)) :=
      fun c _ => Results.eqOkValueOr false (containsOk item c)
    rw [Value.ofJsonItems, containsItems, Results.anyOk each]
    simp only [bind, Except.bind]
    split
    · exact containsItemsOk rest candidates
    · exact ⟨_, rfl⟩

theorem containsMembersOk (members : List (String × Json)) (candidates : List (String × Json)) :
    ∃ b, containsMembers (Value.ofJsonMembers members) candidates = .ok b := by
  cases members with
  | nil => exact ⟨_, rfl⟩
  | cons pair rest =>
    obtain ⟨name, value⟩ := pair
    have go : ∀ found : Bool, ∃ b, (if found then containsMembers (Value.ofJsonMembers rest) candidates
        else pure false) = .ok b := by
      intro found
      cases found with
      | true => exact containsMembersOk rest candidates
      | false => exact ⟨_, rfl⟩
    rw [Value.ofJsonMembers, containsMembers]
    split
    · obtain ⟨b, hb⟩ := containsOk value _
      rw [hb]
      exact go b
    · rw [Value.jsonTextOfJson]
      exact go false
    · obtain ⟨b, hb⟩ := sharedContainsOk value
      rw [hb]
      exact go b
    · exact go false

end

theorem stepIntoOk (step : String) (document : Json) : ∃ part, stepInto (.text step) document = .ok part := by
  cases document <;> exact ⟨_, rfl⟩

theorem navigateOk (steps : List String) (document : Json) :
    ∃ part, navigate document (steps.map .text) = .ok part := by
  induction steps generalizing document with
  | nil => exact ⟨_, rfl⟩
  | cons step rest ih =>
    obtain ⟨part, hpart⟩ := stepIntoOk step document
    rw [List.map_cons, navigate, hpart]
    cases part with
    | none => exact ⟨_, rfl⟩
    | some inner => exact ih inner

theorem hasKeyOk (key : String) (document : Json) : ∃ b, hasKey (.text key) document = .ok b := by
  cases document <;> exact ⟨_, rfl⟩

theorem itemTestOk (item : Option Json) (j : Json) :
    ∃ t, itemTest item (.ofJson j) = .ok t ∧ t.isProper := by
  cases item with
  | none => exact ⟨_, rfl, rfl⟩
  | some found =>
    obtain ⟨b, hb⟩ := sameTextOk found j
    exact ⟨.known b, by rw [itemTest, hb]; rfl, rfl⟩

end Store

namespace JsonOperator

/-- What a JSON test looks for: a text, JSON data, a key, or a kind of missing value. -/
def IsOperand (o : JsonOperator) (v : Value) : Prop :=
  match o with
  | .path => True
  | .text _ | .objectKey => ∃ s, v = .text s
  | .array _ => ∃ j, v = .ofJson j
  | .null => v = .text "db" ∨ v = .text "json" ∨ v = .text "any"

theorem partTruthOk {o : JsonOperator} {operand : Value} (typed : o.IsOperand operand) (steps : List Value)
    (target : Option Json) : ∃ t, Store.partTruth (o.test steps operand) target = .ok t ∧ t.isProper := by
  cases o with
  | path => exact ⟨_, rfl, rfl⟩
  | text kind =>
    obtain ⟨s, rfl⟩ := typed
    cases found : target.bind Store.scalarText with
    | none => exact ⟨.unknown, by simp [test, Store.partTruth, found, pure, Except.pure], rfl⟩
    | some subject =>
      refine ⟨.known (Store.occurs kind s.toList subject.toList), ?_, rfl⟩
      simp only [test, Store.partTruth, found]
      rfl
  | array item =>
    obtain ⟨j, rfl⟩ := typed
    cases target with
    | none => cases item <;> exact ⟨_, rfl, rfl⟩
    | some document =>
      cases document with
      | array items =>
        cases item with
        | any =>
          obtain ⟨b, hb⟩ := Store.containsOk (.array [j]) (.array items)
          have listed : Store.contains (.array [.ofJson j]) (.array items) = .ok b := hb
          exact ⟨.known b, by rw [test, Store.partTruth, listed]; rfl, rfl⟩
        | first => exact Store.itemTestOk items.head? j
        | last => exact Store.itemTestOk items.getLast? j
      | _ => cases item <;> exact ⟨_, rfl, rfl⟩
  | objectKey =>
    obtain ⟨s, rfl⟩ := typed
    cases target with
    | none => exact ⟨_, rfl, rfl⟩
    | some document =>
      obtain ⟨b, hb⟩ := Store.hasKeyOk s document
      exact ⟨.known b, by rw [test, Store.partTruth, hb]; rfl, rfl⟩
  | null =>
    rcases typed with rfl | rfl | rfl <;> cases target <;> exact ⟨_, rfl, rfl⟩

theorem stepsOfTest (o : JsonOperator) (steps : List Value) (operand : Value) :
    Store.stepsOf (o.test steps operand) = .ok steps := by
  cases o <;> rfl

theorem documentTruthOk {o : JsonOperator} {operand : Value} (typed : o.IsOperand operand) (steps : List String)
    (document : Option Json) :
    ∃ t, Store.documentTruth document (o.test (steps.map .text) operand) = .ok t ∧ t.isProper := by
  rw [Store.documentTruth, stepsOfTest]
  cases document with
  | none => exact partTruthOk typed _ none
  | some j =>
    obtain ⟨part, hpart⟩ := Store.navigateOk steps j
    obtain ⟨t, ht, proper⟩ := partTruthOk typed (steps.map .text) part
    exact ⟨t, by simp only [bind, Except.bind, hpart, ht], proper⟩

end JsonOperator

/-- Is the operand of a test of the kind that its operator is made for? -/
def FieldTest.IsTyped (test : FieldTest) : Prop :=
  match test with
  | .compare _ operand => ∃ x, Store.comparable operand = .ok x
  | .member values _ => ∀ v ∈ values, ∃ x, Store.comparable v = .ok x
  | .text _ part => ∃ s, part = .text s
  | .mode _ | .null _ => True
  | .json o path operand => (∃ steps : List String, path = .array (steps.map .text)) ∧ o.IsOperand operand
  | .foreign _ => False

namespace Predicate

mutual

def IsTyped : Predicate → Prop
  | .field _ _ test _ => test.IsTyped
  | .group _ _ members => AreTyped members
  | .related _ _ quantifier members => (∀ v, quantifier ≠ .foreign v) ∧ AreTyped members
  | .foreign _ => False
termination_by structural p => p

def AreTyped : List Predicate → Prop
  | [] => True
  | p :: rest => IsTyped p ∧ AreTyped rest
termination_by structural ps => ps

end

end Predicate

namespace Field

theorem encodeJsonComparable {v w : Value} (h : encodeJson v = .ok w) : ∃ x, Store.comparable w = .ok x := by
  unfold encodeJson at h
  split at h
  · cases h
    exact ⟨_, rfl⟩
  · obtain ⟨text, _, h⟩ := Results.bindOk h
    cases text <;> cases h <;> exact ⟨_, rfl⟩

theorem encodeComparable {f : Field} {v w : Value} (h : f.encode v = .ok w) (notOpaque : f.type ≠ .opaqueType) :
    ∃ x, Store.comparable w = .ok x := by
  by_cases json : f.type = .json
  · unfold encode at h
    split at h
    · split at h
      · cases h
        exact ⟨_, rfl⟩
      · cases h
    · simp only [encodePresent, json] at h
      exact encodeJsonComparable h
  · rcases encodeHolds h json notOpaque with nothing | form
    · cases w with
      | absent | null => exact ⟨_, rfl⟩
      | _ => cases nothing
    · exact comparableForm form

theorem encodeOperandComparable {f : Field} {v w : Value} (h : f.encodeOperand v = .ok w)
    (notOpaque : f.type ≠ .opaqueType) : ∃ x, Store.comparable w = .ok x := by
  unfold encodeOperand at h
  split at h
  · cases h
    exact ⟨_, rfl⟩
  · split at h
    · obtain ⟨_, _, h⟩ := Results.bindOk h
      obtain ⟨_, _, h⟩ := Results.bindOk h
      exact encodeComparable h notOpaque
    · exact encodeComparable h notOpaque

end Field

namespace Entity

/-- Comparisons of fields are made with operands that can be compared. -/
theorem compareTyped {e : Entity} {f : Field} {c : Comparison} {v : Value} {p : Predicate}
    (h : e.compare f c v = .ok p) (notOpaque : f.type ≠ .opaqueType) : p.IsTyped := by
  obtain ⟨operand, encoded, h⟩ := Results.bindOk h
  cases h
  exact Field.encodeOperandComparable encoded notOpaque

theorem amongTyped {e : Entity} {f : Field} {vs : List Value} {negated : Bool} {p : Predicate}
    (h : e.among f vs negated = .ok p) (notOpaque : f.type ≠ .opaqueType) : p.IsTyped := by
  obtain ⟨operands, encoded, h⟩ := Results.bindOk h
  cases h
  intro w mem
  obtain ⟨v, -, encoded⟩ := Results.mapAllItems encoded w mem
  exact Field.encodeOperandComparable encoded notOpaque

end Entity

end EntityQuery
