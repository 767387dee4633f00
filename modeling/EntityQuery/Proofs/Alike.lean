import EntityQuery.Operation.Execution
import EntityQuery.Proofs.Statements
import EntityQuery.Proofs.Steps
/-! What an operation does inside a transaction does not depend on the transaction: on which connection its
statements are sent, whether the store counts it as open, how many were closed before, and which operations the
session holds. Two runs that differ in these alone end alike. -/

namespace EntityQuery

/-- The parts of a session that statements neither read nor write. -/
structure Marks where
  inTransaction : Bool
  commits : Nat
  rollbacks : Nat
  operations : List Operation

def Store.marked (m : Marks) (s : Store) : Store :=
  { s with inTransaction := m.inTransaction, commits := m.commits, rollbacks := m.rollbacks }

namespace Session

def marks (s : Session Store) : Marks :=
  ⟨s.backend.inTransaction, s.backend.commits, s.backend.rollbacks, s.operations⟩

def marked (m : Marks) (s : Session Store) : Session Store :=
  { s with backend := s.backend.marked m, operations := m.operations }

end Session

/-- Two steps give the same result and the same state from states that differ in their marks; the first one
keeps its marks. -/
def Alike {α : Type} (a b : Action Store α) : Prop :=
  ∀ m s, a.runOn (s.marked m) = ((b.runOn s).1, (b.runOn s).2.marked m)

namespace Alike

variable {α β : Type} {a b : Action Store α}

theorem pure (x : α) : Alike (Pure.pure x) (Pure.pure x) := fun _ _ => rfl

theorem fail (e : Failure) : Alike (throw e : Action Store α) (throw e) := fun _ _ => rfl

theorem lift (r : Except Failure α) : Alike (liftM r) (liftM r) := fun _ _ => rfl

theorem tell (channel : Channel) (text : String) : Alike (Action.tell channel text) (Action.tell channel text) :=
  fun _ _ => rfl

theorem bind {f g : α → Action Store β} (first : Alike a b) (later : ∀ x, Alike (f x) (g x)) :
    Alike (a >>= f) (b >>= g) := by
  intro m s
  rw [Step.runBind, Step.runBind, first m s]
  rcases b.runOn s with ⟨r, t⟩
  cases r with
  | error e => rfl
  | ok x => exact later x m t

theorem map {f : α → β} (first : Alike a b) : Alike (f <$> a) (f <$> b) := by
  rw [map_eq_pure_bind, map_eq_pure_bind]
  exact bind first fun x => pure (f x)

theorem refuse (e : Failure) (f g : α → Action Store β) : Alike (throw e >>= f) (throw e >>= g) := fun _ _ => rfl

theorem ite {p : Prop} [Decidable p] {c d : Action Store α} (yes : p → Alike a b) (no : ¬p → Alike c d) :
    Alike (if p then a else c) (if p then b else d) := by
  by_cases h : p
  · rw [if_pos h, if_pos h]
    exact yes h
  · rw [if_neg h, if_neg h]
    exact no h

end Alike

namespace Store

/-- A statement whose answer and effect do not depend on the marks of the store. -/
def Unmarked {α : Type} (step : Step Store α) : Prop :=
  ∀ m s, step.runOn (s.marked m) = ((step.runOn s).1, (step.runOn s).2.marked m)

theorem markedRelabels (m : Marks) : Relabels (marked m) where
  content _ := rfl
  sequences _ := rfl
  counted _ _ := rfl
  stored _ _ := rfl

theorem insertMarked (h : Handle) (q : Insert) : Unmarked (Backend.insert h q : Step Store Written) :=
  fun m s => insertRelabeled (markedRelabels m) q (s.record .insert q.table)

theorem updateMarked (h : Handle) (q : Update) : Unmarked (Backend.update h q : Step Store Written) :=
  fun m s => updateRelabeled (markedRelabels m) q (s.record .update q.table)

theorem deleteMarked (h : Handle) (q : Delete) : Unmarked (Backend.delete h q : Step Store Written) :=
  fun m s => deleteRelabeled (markedRelabels m) q (s.record .delete q.table)

theorem selectMarked (h : Handle) (q : Select) : Unmarked (Backend.select h q : Step Store (List Row)) := fun _ _ => rfl

theorem countMarked (h : Handle) (q : Count) : Unmarked (Backend.count h q : Step Store Number) := fun _ _ => rfl

end Store

namespace Alike

variable {α : Type}

theorem statement {step : Step Store α} (unmarked : Store.Unmarked step) :
    Alike (.onBackend step) (.onBackend step) := by
  intro m s
  have ran := unmarked m s.backend
  change ((step.runOn (s.backend.marked m)).1, (s.marked m).withBackend (step.runOn (s.backend.marked m)).2) = _
  rw [ran]
  rfl

end Alike

namespace Context

variable (registry : Registry Fetcher) (h k : Handle)

theorem selectAlike (q : Select) :
    Alike ((⟨registry, h⟩ : Context).select q) ((⟨registry, k⟩ : Context).select q) :=
  .statement (Store.selectMarked h q)

theorem insertAlike (q : Insert) :
    Alike ((⟨registry, h⟩ : Context).insert q) ((⟨registry, k⟩ : Context).insert q) :=
  .statement (Store.insertMarked h q)

theorem updateAlike (q : Update) :
    Alike ((⟨registry, h⟩ : Context).update q) ((⟨registry, k⟩ : Context).update q) :=
  .statement (Store.updateMarked h q)

theorem deleteAlike (q : Delete) :
    Alike ((⟨registry, h⟩ : Context).delete q) ((⟨registry, k⟩ : Context).delete q) :=
  .statement (Store.deleteMarked h q)

theorem countAlike (q : Count) :
    Alike ((⟨registry, h⟩ : Context).count q) ((⟨registry, k⟩ : Context).count q) :=
  .statement (Store.countMarked h q)

theorem cursorKeyAlike (e : Entity) (cursor : Predicate) :
    Alike ((⟨registry, h⟩ : Context).cursorKey e cursor) ((⟨registry, k⟩ : Context).cursorKey e cursor) := by
  unfold cursorKey
  refine .bind (.lift _) fun condition => ?_
  exact .bind (selectAlike registry h k _) fun rows => .pure _

theorem cursorConditionAlike (e : Entity) (cursor : Predicate) (order : List OrderSpec) :
    Alike ((⟨registry, h⟩ : Context).cursorCondition e cursor order)
      ((⟨registry, k⟩ : Context).cursorCondition e cursor order) := by
  unfold cursorCondition
  refine .bind (cursorKeyAlike registry h k e cursor) fun key => ?_
  exact .ite (fun _ => .bind (.tell _ _) fun _ => .pure _) fun _ => .pure _

theorem readRowsAlike (e : Entity) (condition : Condition) (w : Window) :
    Alike ((⟨registry, h⟩ : Context).readRows e condition w) ((⟨registry, k⟩ : Context).readRows e condition w) := by
  have reached : ∀ order, Alike ((⟨registry, h⟩ : Context).withCursor e [condition] w order)
      ((⟨registry, k⟩ : Context).withCursor e [condition] w order) := by
    intro order
    unfold withCursor
    cases w.cursor with
    | none => exact .pure _
    | some cursor => exact .bind (cursorConditionAlike registry h k e cursor order) fun after => .pure _
  unfold readRows
  refine .bind (.lift _) fun _ => .bind (.lift _) fun order => .bind (reached order) fun found => ?_
  cases found with
  | none => exact .pure _
  | some conditions =>
    refine .bind (.lift _) fun terms => ?_
    cases w.distinct.isEmpty with
    | true =>
      refine .bind (.lift _) fun limit => .bind (.lift _) fun offset => .bind (selectAlike registry h k _) fun rows => ?_
      simp only [Step.mapLift]
      refine .bind (.lift _) fun decoded => .ite (fun _ => .lift _) fun _ => ?_
      exact .bind (.lift _) fun _ => .ite (fun _ => .pure _) fun _ => .pure _
    | false =>
      refine .bind (.pure _) fun limit => .bind (.pure _) fun offset => .bind (selectAlike registry h k _) fun rows => ?_
      simp only [Step.mapLift]
      refine .bind (.lift _) fun decoded => .ite (fun _ => .lift _) fun _ => ?_
      exact .bind (.lift _) fun _ => .ite (fun _ => .pure _) fun _ => .pure _

theorem lookupAlike (selector : Predicate) :
    Alike ((⟨registry, h⟩ : Context).lookup selector) ((⟨registry, k⟩ : Context).lookup selector) := by
  unfold lookup
  refine .bind (.lift _) fun e => .bind (.lift _) fun condition => ?_
  exact .bind (readRowsAlike registry h k e condition _) fun rows => .pure _

theorem insertRowAlike (e : Entity) (data : Row) :
    Alike ((⟨registry, h⟩ : Context).insertRow e data) ((⟨registry, k⟩ : Context).insertRow e data) := by
  unfold insertRow
  refine .bind (.lift _) fun values => .bind (.lift _) fun _ => .bind (insertAlike registry h k _) fun w => ?_
  cases w.rows with
  | nil => exact .fail _
  | cons row _ => exact .lift _

theorem writeKeyAlike (o : OwnedRelation) (condition : Condition) (v : Value) :
    Alike ((⟨registry, h⟩ : Context).writeKey o condition v) ((⟨registry, k⟩ : Context).writeKey o condition v) := by
  unfold writeKey
  refine .bind (.lift _) fun f => .bind (.lift _) fun operand => ?_
  exact .bind (updateAlike registry h k _) fun w => .pure _

theorem requireRelatedAlike (p : Parent) (o : OwnedRelation) (selector : Predicate) :
    Alike ((⟨registry, h⟩ : Context).requireRelated p o selector)
      ((⟨registry, k⟩ : Context).requireRelated p o selector) := by
  unfold requireRelated
  refine .bind (lookupAlike registry h k selector) fun found => ?_
  cases found with
  | none => exact .bind (.lift _) fun name => .fail _
  | some row => exact .pure _

theorem detachCurrentAlike (p : Parent) (o : OwnedRelation) (kept : Option Row) :
    Alike ((⟨registry, h⟩ : Context).detachCurrent p o kept) ((⟨registry, k⟩ : Context).detachCurrent p o kept) := by
  unfold detachCurrent
  refine .ite (fun _ => .pure _) fun _ => .bind (.lift _) fun related => ?_
  cases kept with
  | none =>
    refine .bind (.pure _) fun current => .ite (fun _ => ?_) fun _ => ?_
    · exact .bind (writeKeyAlike registry h k o current .null) fun detached => .tell _ _
    · exact .bind (countAlike registry h k _) fun attached => .ite (fun _ => .fail _) fun _ => .pure _
  | some row =>
    refine .bind (.lift _) fun among => .bind (.pure _) fun current => .ite (fun _ => ?_) fun _ => ?_
    · exact .bind (writeKeyAlike registry h k o current .null) fun detached => .tell _ _
    · exact .bind (countAlike registry h k _) fun attached => .ite (fun _ => .fail _) fun _ => .pure _

theorem connectRelatedAlike (p : Parent) (relation : String) (selector : Predicate) :
    Alike ((⟨registry, h⟩ : Context).connectRelated p relation selector)
      ((⟨registry, k⟩ : Context).connectRelated p relation selector) := by
  unfold connectRelated
  refine .bind (.lift _) fun o => .bind (requireRelatedAlike registry h k p o selector) fun row => ?_
  refine .bind (detachCurrentAlike registry h k p o (some row)) fun _ => .bind (.lift _) fun condition => ?_
  exact .bind (.lift _) fun key => .bind (writeKeyAlike registry h k o condition key) fun _ => .pure _

theorem disconnectRelatedAlike (p : Parent) (relation : String) (selector : Option Predicate) :
    Alike ((⟨registry, h⟩ : Context).disconnectRelated p relation selector)
      ((⟨registry, k⟩ : Context).disconnectRelated p relation selector) := by
  unfold disconnectRelated
  refine .bind (.lift _) fun o => .ite (fun _ => .refuse _ _ _) fun _ => .bind (.lift _) fun related => ?_
  cases selector with
  | none => exact .bind (writeKeyAlike registry h k o related .null) fun _ => .pure _
  | some selector =>
    refine .bind (requireRelatedAlike registry h k p o selector) fun row => .bind (.lift _) fun only => ?_
    exact .bind (writeKeyAlike registry h k o _ .null) fun _ => .pure _

theorem createRelatedAlike (p : Parent) (relation : String) (data : Row) :
    Alike ((⟨registry, h⟩ : Context).createRelated p relation data)
      ((⟨registry, k⟩ : Context).createRelated p relation data) := by
  unfold createRelated
  refine .bind (.lift _) fun o => .bind (detachCurrentAlike registry h k p o none) fun _ => ?_
  exact .bind (.lift _) fun key => .bind (insertRowAlike registry h k o.target _) fun _ => .pure _

theorem requireAllAlike (p : Parent) (o : OwnedRelation) (selectors : List Predicate) :
    Alike ((⟨registry, h⟩ : Context).requireAll p o selectors) ((⟨registry, k⟩ : Context).requireAll p o selectors) := by
  induction selectors with
  | nil => exact .pure _
  | cons selector rest ih =>
    unfold requireAll
    refine .bind (.lift _) fun _ => .bind (requireRelatedAlike registry h k p o selector) fun row => ?_
    exact .bind ih fun rows => .pure _

theorem setRelatedAlike (p : Parent) (relation : String) (selectors : Except Failure (List Predicate)) :
    Alike ((⟨registry, h⟩ : Context).setRelated p relation selectors)
      ((⟨registry, k⟩ : Context).setRelated p relation selectors) := by
  unfold setRelated
  refine .bind (.lift _) fun o => .ite (fun _ => .refuse _ _ _) fun _ => .bind (.lift _) fun selected => ?_
  refine .bind (requireAllAlike registry h k p o selected) fun rows => .bind (.lift _) fun key => ?_
  refine .bind (.lift _) fun related => .bind (.lift _) fun among => ?_
  have attached : Alike
      (do if !rows.isEmpty then let _ ← (⟨registry, h⟩ : Context).writeKey o among key)
      (do if !rows.isEmpty then let _ ← (⟨registry, k⟩ : Context).writeKey o among key) :=
    .ite (fun _ => .bind (writeKeyAlike registry h k o among key) fun _ => .pure _) fun _ => .pure _
  refine .ite (fun _ => ?_) fun _ => ?_
  · exact .bind (writeKeyAlike registry h k o _ .null) fun detached => .bind (.tell _ _) fun _ => attached
  · exact .bind (deleteAlike registry h k _) fun deleted => .bind (.tell _ _) fun _ => attached

theorem changeRelatedAlike (p : Parent) (relation : String) (change : RelationChange) :
    Alike ((⟨registry, h⟩ : Context).changeRelated p relation change)
      ((⟨registry, k⟩ : Context).changeRelated p relation change) := by
  cases change with
  | connect selector => exact connectRelatedAlike registry h k p relation selector
  | disconnect selector => exact disconnectRelatedAlike registry h k p relation selector
  | set selectors => exact setRelatedAlike registry h k p relation (.ok selectors)
  | create data => exact createRelatedAlike registry h k p relation data
  | foreign operation =>
    unfold changeRelated
    refine .bind (.lift _) fun op => ?_
    split
    · exact setRelatedAlike registry h k p relation _
    · exact .pure _

theorem resolveLookupsAlike (e : Entity) (lookups : List Lookup) (values : Row) :
    Alike ((⟨registry, h⟩ : Context).resolveLookups e lookups values)
      ((⟨registry, k⟩ : Context).resolveLookups e lookups values) := by
  induction lookups generalizing values with
  | nil => exact .pure _
  | cons l rest ih =>
    unfold resolveLookups
    refine .bind (lookupAlike registry h k l.selector) fun found => .bind (.lift _) fun field => ?_
    cases found with
    | none => exact .fail _
    | some found => exact .bind (.tell _ _) fun _ => ih _

theorem changeAllAlike (p : Parent) (changes : List (String × RelationChange)) :
    Alike ((⟨registry, h⟩ : Context).changeAll p changes) ((⟨registry, k⟩ : Context).changeAll p changes) := by
  induction changes with
  | nil => exact .pure _
  | cons pair rest ih => exact .bind (changeRelatedAlike registry h k p pair.1 pair.2) fun _ => ih

theorem createAlike (e : Entity) (creation : Creation) :
    Alike ((⟨registry, h⟩ : Context).create e creation) ((⟨registry, k⟩ : Context).create e creation) := by
  unfold create
  refine .bind (resolveLookupsAlike registry h k e _ _) fun values => ?_
  refine .bind (insertRowAlike registry h k e values) fun row => ?_
  exact .bind (changeAllAlike registry h k ⟨e, row⟩ _) fun _ => .pure _

theorem ownKeyAssignmentAlike (e : Entity) (r : Relation) (change : RelationChange) :
    Alike ((⟨registry, h⟩ : Context).ownKeyAssignment e r change)
      ((⟨registry, k⟩ : Context).ownKeyAssignment e r change) := by
  unfold ownKeyAssignment
  refine .bind (.lift _) fun key => ?_
  cases change with
  | connect selector =>
    refine .bind (.lift _) fun _ => .bind (lookupAlike registry h k selector) fun found => ?_
    cases found with
    | none => exact .bind (.lift _) fun name => .fail _
    | some target => exact .bind (.lift _) fun v => .pure _
  | disconnect selector => exact .ite (fun _ => .pure _) fun _ => .fail _
  | _ => exact .bind (.lift _) fun tag => .bind (.lift _) fun shown => .fail _

theorem flushAlike (e : Entity) (p : Pending) :
    Alike ((⟨registry, h⟩ : Context).flush e p) ((⟨registry, k⟩ : Context).flush e p) := by
  unfold flush
  refine .ite (fun _ => .pure _) fun _ => .bind (.lift _) fun condition => ?_
  refine .bind (updateAlike registry h k _) fun w => ?_
  cases w.rows with
  | nil => exact .fail _
  | cons row _ => exact .bind (.lift _) fun decoded => .pure _

theorem addAssignmentAlike (e : Entity) (p : Pending) (a : Assignment) :
    Alike ((⟨registry, h⟩ : Context).addAssignment e p a) ((⟨registry, k⟩ : Context).addAssignment e p a) := by
  unfold addAssignment
  refine .ite (fun _ => ?_) fun _ => ?_
  · exact .bind (flushAlike registry h k e p) fun flushed => .pure _
  · exact .bind (.pure _) fun kept => .pure _

theorem mutateRelationAlike (e : Entity) (p : Pending) (relation : Value) (change : RelationChange) :
    Alike ((⟨registry, h⟩ : Context).mutateRelation e p relation change)
      ((⟨registry, k⟩ : Context).mutateRelation e p relation change) := by
  unfold mutateRelation
  refine .bind (.lift _) fun r => .ite (fun _ => ?_) fun _ => ?_
  · refine .bind (ownKeyAssignmentAlike registry h k e r change) fun a => ?_
    exact addAssignmentAlike registry h k e p a
  · refine .bind (flushAlike registry h k e p) fun flushed => ?_
    exact .bind (changeRelatedAlike registry h k ⟨e, flushed.row⟩ r.name change) fun _ => .pure _

theorem mutateAlike (e : Entity) (p : Pending) (m : Mutation) :
    Alike ((⟨registry, h⟩ : Context).mutate e p m) ((⟨registry, k⟩ : Context).mutate e p m) := by
  unfold mutate
  refine .bind (.lift _) fun _ => ?_
  cases m with
  | field entity name change operand =>
    exact .bind (.lift _) fun a => addAssignmentAlike registry h k e p a
  | relation entity name change => exact mutateRelationAlike registry h k e p (.text name) change
  | foreign node =>
    dsimp only
    split
    · exact .bind (.lift _) fun a => addAssignmentAlike registry h k e p a
    · exact mutateRelationAlike registry h k e p _ _

theorem mutateAllAlike (e : Entity) (mutations : List Mutation) (p : Pending) :
    Alike ((⟨registry, h⟩ : Context).mutateAll e mutations p) ((⟨registry, k⟩ : Context).mutateAll e mutations p) := by
  induction mutations generalizing p with
  | nil => exact .pure _
  | cons m rest ih => exact .bind (mutateAlike registry h k e p m) fun changed => ih changed

theorem changeAlike (e : Entity) (mutations : List Mutation) (row : Row) :
    Alike ((⟨registry, h⟩ : Context).change e mutations row) ((⟨registry, k⟩ : Context).change e mutations row) := by
  unfold change
  refine .bind (mutateAllAlike registry h k e mutations _) fun p => ?_
  exact .bind (flushAlike registry h k e p) fun flushed => .pure _

theorem requireRowAlike (e : Entity) (selector : Predicate) :
    Alike ((⟨registry, h⟩ : Context).requireRow e selector) ((⟨registry, k⟩ : Context).requireRow e selector) := by
  unfold requireRow
  refine .bind (lookupAlike registry h k selector) fun found => ?_
  cases found with
  | none => exact .bind (.lift _) fun name => .bind (.lift _) fun shown => .fail _
  | some row => exact .pure _

theorem deleteOneAlike (e : Entity) (selector : Predicate) :
    Alike ((⟨registry, h⟩ : Context).deleteOne e selector) ((⟨registry, k⟩ : Context).deleteOne e selector) := by
  unfold deleteOne
  refine .bind (.lift _) fun condition => .bind (deleteAlike registry h k _) fun w => ?_
  cases w.rows with
  | nil => exact .bind (.lift _) fun name => .bind (.lift _) fun shown => .fail _
  | cons row _ => exact .lift _

theorem updateManyAlike (e : Entity) (filter : List Predicate) (assignments : List Assignment) :
    Alike ((⟨registry, h⟩ : Context).updateMany e filter assignments)
      ((⟨registry, k⟩ : Context).updateMany e filter assignments) := by
  unfold updateMany
  refine .bind (.lift _) fun condition => .ite (fun _ => countAlike registry h k _) fun _ => ?_
  exact .bind (updateAlike registry h k _) fun w => .pure _

theorem deleteManyAlike (e : Entity) (filter : List Predicate) :
    Alike ((⟨registry, h⟩ : Context).deleteMany e filter) ((⟨registry, k⟩ : Context).deleteMany e filter) := by
  unfold deleteMany
  exact .bind (.lift _) fun condition => .bind (deleteAlike registry h k _) fun w => .pure _

theorem insertManyAlike (e : Entity) (rows : List Row) :
    Alike ((⟨registry, h⟩ : Context).insertMany e rows) ((⟨registry, k⟩ : Context).insertMany e rows) := by
  unfold insertMany
  exact .ite (fun _ => .pure _) fun _ => .bind (insertAlike registry h k _) fun w => .pure _

end Context

end EntityQuery
