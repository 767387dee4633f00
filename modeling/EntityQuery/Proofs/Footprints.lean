import EntityQuery.Proofs.SentStatements
import EntityQuery.Proofs.Statements
import Mathlib.Order.Defs.Unbundled
/-! What an operation may write. Operations are made of statements, one after another; what each of the statements that
write leaves true, the whole operation leaves true. -/

namespace EntityQuery

namespace WriteStatement

def run (s : Store) : WriteStatement → Except Failure Written × Store
  | insert q => s.insertRows q
  | update q => s.updateRows q
  | delete q => s.deleteRows q

end WriteStatement

/-- A step that is made of statements, of which only certain ones write. -/
inductive Writes (may : WriteStatement → Prop) : {α : Type} → Action Store α → Prop where
  | pure {α : Type} (a : α) : Writes may (Pure.pure a)
  | lift {α : Type} (r : Except Failure α) : Writes may (liftM r)
  | tell (channel : Channel) (text : String) : Writes may (Action.tell channel text)
  | noteFetch (f : Fetched) : Writes may (Action.noteFetch f)
  | select (c : Context) (q : Select) : Writes may (c.select q)
  | count (c : Context) (q : Count) : Writes may (c.count q)
  | insert (c : Context) (q : Insert) (held : may (.insert q)) : Writes may (c.insert q)
  | update (c : Context) (q : Update) (held : may (.update q)) : Writes may (c.update q)
  | delete (c : Context) (q : Delete) (held : may (.delete q)) : Writes may (c.delete q)
  | bind {α β : Type} {step : Action Store α} {next : α → Action Store β} (first : Writes may step)
      (later : ∀ a, Writes may (next a)) : Writes may (step >>= next)

namespace Writes

variable {may : WriteStatement → Prop} {α β : Type}

theorem widen {more : WriteStatement → Prop} {step : Action Store α} (writes : Writes may step) (wider : ∀ q, may q → more q) :
    Writes more step := by
  induction writes with
  | pure a => exact .pure a
  | lift r => exact .lift r
  | tell channel text => exact .tell channel text
  | noteFetch f => exact .noteFetch f
  | select c q => exact .select c q
  | count c q => exact .count c q
  | insert c q held => exact .insert c q (wider _ held)
  | update c q held => exact .update c q (wider _ held)
  | delete c q held => exact .delete c q (wider _ held)
  | bind _ _ before after => exact .bind before after

theorem liftBind {r : Except Failure α} {next : α → Action Store β} (later : ∀ a, r = .ok a → Writes may (next a)) :
    Writes may (liftM r >>= next) := by
  cases r with
  | error e => exact .lift (.error e)
  | ok a => exact later a rfl

theorem map {f : α → β} {step : Action Store α} (first : Writes may step) : Writes may (f <$> step) := by
  rw [map_eq_pure_bind]
  exact first.bind fun a => .pure _

theorem skip {p : Prop} [Decidable p] {step : Action Store Unit} (first : Writes may step) :
    Writes may (if p then step else Pure.pure ()) := by
  split
  · exact first
  · exact .pure ()

theorem mapAll {f : α → Action Store β} (l : List α) (each : ∀ x, Writes may (f x)) :
    Writes may (l.mapM f) := by
  induction l with
  | nil => exact .pure []
  | cons x rest ih =>
    rw [List.mapM_cons]
    exact (each x).bind fun y => ih.bind fun ys => .pure _

end Writes

/-- Statements that are sent in one context write what they may. -/
theorem SentIn.writes {c : Context} {may : WriteStatement → Prop} {α : Type} {step : Action Store α} (sent : SentIn c may step) :
    Writes may step := by
  induction sent with
  | pure a => exact .pure a
  | lift r => exact .lift r
  | tell channel text => exact .tell channel text
  | noteFetch f => exact .noteFetch f
  | select q => exact .select c q
  | count q => exact .count c q
  | insert q held => exact .insert c q held
  | update q held => exact .update c q held
  | delete q held => exact .delete c q held
  | bind _ _ before after => exact .bind before after

namespace Context

variable {may : WriteStatement → Prop} (c : Context)

theorem cursorKeyWrites (e : Entity) (cursor : Predicate) : Writes may (c.cursorKey e cursor : Action Store Value) :=
  (c.cursorKeySent e cursor).writes

theorem cursorConditionWrites (e : Entity) (cursor : Predicate) (order : List OrderSpec) :
    Writes may (c.cursorCondition e cursor order : Action Store (Option Condition)) := by
  unfold cursorCondition
  refine .bind (c.cursorKeyWrites e _) fun key => ?_
  split
  · exact .bind (.tell _ _) fun _ => .pure _
  · exact .pure _

theorem withCursorWrites (e : Entity) (conditions : List Condition) (w : Window) (order : List OrderSpec) :
    Writes may (c.withCursor e conditions w order : Action Store (Option (List Condition))) :=
  (c.withCursorSent e conditions w order).writes

/-- What is left of a read once its order and its conditions are known. -/
def readWindow (c : Context) (e : Entity) (w : Window) (order : List OrderSpec) (conditions : List Condition) :
    Action Store (List Row) := do
  let paged := w.distinct.isEmpty
  let terms ← Window.orderTerms e order
  let limit ← if paged then w.limit else pure none
  let offset ← if paged then Window.bound w.skip else pure none
  let rows ← c.select ⟨e.table, e.columns, .conjunction conditions, terms, .ofBound limit, .ofBound offset⟩
  let decoded ← rows.mapM fun row => (e.decodeRow row : Except Failure Row)
  if !paged then w.apply decoded
  else if ← w.isBackwards then return decoded.reverse
  else return decoded

theorem readRowsSteps (e : Entity) (condition : Condition) (w : Window) :
    (c.readRows e condition w : Action Store (List Row)) = (do
      w.validate e
      let order ← w.effectiveOrder e
      let conditions ← c.withCursor e [condition] w order
      conditions.elim (pure []) (c.readWindow e w order)) := by
  unfold readRows
  refine congrArg _ (funext fun _ => congrArg _ (funext fun order => congrArg _ (funext fun conditions => ?_)))
  cases conditions <;> rfl

theorem readWindowWrites (e : Entity) (w : Window) (order : List OrderSpec) (conditions : List Condition) :
    Writes may (c.readWindow e w order conditions) := by
  have rows : ∀ q : Select, Writes may (do
      let rows ← c.select q
      let decoded ← rows.mapM fun row => (e.decodeRow row : Except Failure Row)
      if !w.distinct.isEmpty then w.apply decoded
      else if ← w.isBackwards then return decoded.reverse
      else return decoded : Action Store (List Row)) := by
    intro q
    simp only [Step.mapLift]
    refine .bind (.select c q) fun rows => .liftBind fun decoded _ => ?_
    split
    · exact .lift _
    · refine .liftBind fun backwards _ => ?_
      split <;> exact .pure _
  unfold readWindow
  refine .liftBind fun terms _ => ?_
  dsimp only
  split
  · exact .liftBind fun limit _ => .liftBind fun offset _ => rows _
  · exact .bind (.pure _) fun limit => .bind (.pure _) fun offset => rows _

theorem readRowsWrites (e : Entity) (condition : Condition) (w : Window) :
    Writes may (c.readRows e condition w : Action Store (List Row)) :=
  (c.readRowsSent e condition w).writes

theorem fetchTableWrites (r : Relation) (target : Entity) (values : List Value) (filter : List Predicate) (w : Window) :
    Writes may (c.fetchTable r target values filter w : Action Store (List Row)) :=
  (c.fetchTableSent r target values filter w).writes

theorem attachAllWrites (e : Entity) (specs : List Include) (parents : Counted) :
    Writes may (c.attachAll e specs parents : Action Store Counted) :=
  (c.attachAllSent e specs parents).writes

theorem attachWrites (e : Entity) (spec : Include) (parents : Counted) :
    Writes may (c.attach e spec parents : Action Store Counted) :=
  (c.attachSent e spec parents).writes

theorem loadIncludesWrites (e : Entity) (specs : List Include) (rows : List Row) :
    Writes may (c.loadIncludes e specs rows : Action Store (List Row)) :=
  (c.loadIncludesSent e specs rows).writes

theorem lookupWrites (p : Predicate) : Writes may (c.lookup p : Action Store (Option Row)) :=
  (c.lookupSent p).writes

theorem requireRowWrites (e : Entity) (p : Predicate) : Writes may (c.requireRow e p : Action Store Row) :=
  (c.requireRowSent e p).writes

theorem insertRowWrites (e : Entity) (data : Row) (held : ∀ values, may (.insert ⟨e.table, [values], e.columns⟩)) :
    Writes may (c.insertRow e data : Action Store Row) :=
  (c.insertRowSent e data held).writes

section Related

variable (p : Parent)

theorem requireRelatedWrites (o : OwnedRelation) (selector : Predicate) :
    Writes may (c.requireRelated p o selector : Action Store Row) :=
  (c.requireRelatedSent p o selector).writes

theorem requireAllWrites (o : OwnedRelation) (selectors : List Predicate) :
    Writes may (c.requireAll p o selectors : Action Store (List Row)) :=
  (c.requireAllSent p o selectors).writes

theorem changeRelatedWrites (relation : String) (change : RelationChange) :
    Writes (c.RelatedSends p.entity relation change) (c.changeRelated p relation change : Action Store Unit) :=
  (c.changeRelatedSent p relation change).writes

theorem changeAllWrites (changes : List (String × RelationChange)) :
    Writes (fun q => ∃ change ∈ changes, c.RelatedSends p.entity change.1 change.2 q) (c.changeAll p changes : Action Store Unit) :=
  (c.changeAllSent p changes).writes

end Related

theorem resolveLookupsWrites (e : Entity) (lookups : List Lookup) (values : Row) :
    Writes may (c.resolveLookups e lookups values : Action Store Row) :=
  (c.resolveLookupsSent e lookups values).writes

theorem ownKeyAssignmentWrites (e : Entity) (r : Relation) (change : RelationChange) :
    Writes may (c.ownKeyAssignment e r change : Action Store Assignment) :=
  (c.ownKeyAssignmentSent e r change).writes

theorem flushWrites (e : Entity) (p : Pending)
    (held : ∀ condition, may (.update ⟨e.table, p.assignments, condition, e.columns⟩)) :
    Writes may (c.flush e p : Action Store Pending) :=
  (c.flushSent e p held).writes

section Whole

variable (all : ∀ q, may q)

include all

theorem addAssignmentWrites (e : Entity) (p : Pending) (a : Assignment) :
    Writes may (c.addAssignment e p a : Action Store Pending) :=
  (c.addAssignmentSent all e p a).writes

theorem mutateWrites (e : Entity) (p : Pending) (m : Mutation) : Writes may (c.mutate e p m : Action Store Pending) :=
  (c.mutateSent all e p m).writes

theorem mutateAllWrites (e : Entity) (ms : List Mutation) (p : Pending) :
    Writes may (c.mutateAll e ms p : Action Store Pending) :=
  (c.mutateAllSent all e ms p).writes

theorem changeWrites (e : Entity) (ms : List Mutation) (row : Row) : Writes may (c.change e ms row : Action Store Row) :=
  (c.changeSent all e ms row).writes

theorem createWrites (e : Entity) (creation : Creation) : Writes may (c.create e creation : Action Store Row) :=
  (c.createSent all e creation).writes

end Whole

end Context

section Kept

variable {R : List (String × List Field) × Store.Tables → List (String × List Field) × Store.Tables → Prop}
  {may : WriteStatement → Prop} {α : Type}

/-- What a statement that succeeds makes of the columns and rows of all tables. -/
def Store.Admits (R : List (String × List Field) × Store.Tables → List (String × List Field) × Store.Tables → Prop)
    (q : WriteStatement) : Prop :=
  ∀ {s t : Store} {w : Written}, q.run s = (.ok w, t) → R s.content t.content

/-- By induction on the statements: what all that may be sent leave true, a run that succeeds leaves true. -/
theorem Writes.kept [IsPreorder _ R] {step : Action Store α} (writes : Writes may step)
    (admits : ∀ q, may q → Store.Admits R q) {s t : Session Store} {a : α}
    (ran : step.runOn s = (.ok a, t)) : R s.backend.content t.backend.content := by
  induction writes generalizing s t with
  | pure a | lift r | tell channel text | noteFetch f | select c q | count c q =>
    obtain ⟨-, rfl⟩ := Prod.mk.inj ran
    exact Std.Refl.refl _
  | insert c q held =>
    rw [Context.insertRun] at ran
    obtain ⟨answer, rfl⟩ := Prod.mk.inj ran
    exact admits _ held (s := s.backend.record .insert q.table) (Prod.ext answer rfl)
  | update c q held =>
    rw [Context.updateRun] at ran
    obtain ⟨answer, rfl⟩ := Prod.mk.inj ran
    exact admits _ held (s := s.backend.record .update q.table) (Prod.ext answer rfl)
  | delete c q held =>
    rw [Context.deleteRun] at ran
    obtain ⟨answer, rfl⟩ := Prod.mk.inj ran
    exact admits _ held (s := s.backend.record .delete q.table) (Prod.ext answer rfl)
  | bind first later before after =>
    obtain ⟨b, u, begun, ended⟩ := Step.bindOk ran
    exact IsTrans.trans _ _ _ (before begun) (after b ended)

/-- A step that writes no table keeps the columns and rows of all. -/
theorem Writes.keeps {step : Action Store α} (writes : Writes (fun _ => False) step) {s t : Session Store} {a : α}
    (ran : step.runOn s = (.ok a, t)) : t.backend.content = s.backend.content := by
  have same := writes.kept (R := Eq) (fun _ never => never.elim) ran
  exact same.symm

/-- However a run ends, it leaves true what all the statements that it may send leave true however they end. -/
theorem Writes.leaves [IsPreorder _ R] {step : Action Store α} (writes : Writes may step)
    (admits : ∀ q, may q → ∀ s : Store, R s.content (q.run s).2.content) (s : Session Store) :
    R s.backend.content (step.runOn s).2.backend.content := by
  induction writes generalizing s with
  | pure a | lift r | tell channel text | noteFetch f | select c q | count c q => exact Std.Refl.refl _
  | insert c q held =>
    rw [Context.insertRun]
    exact admits _ held (s.backend.record .insert q.table)
  | update c q held =>
    rw [Context.updateRun]
    exact admits _ held (s.backend.record .update q.table)
  | delete c q held =>
    rw [Context.deleteRun]
    exact admits _ held (s.backend.record .delete q.table)
  | bind first later before after =>
    exact Step.bindLeaves (P := fun t : Session Store => R s.backend.content t.backend.content) (before s)
      fun b t _ begun => IsTrans.trans _ _ _ begun (after b t)

end Kept

end EntityQuery
