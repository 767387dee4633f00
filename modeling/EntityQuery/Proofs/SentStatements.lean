import EntityQuery.Include.Loading
import EntityQuery.Operation.Changing
import EntityQuery.Proofs.Results
import EntityQuery.Proofs.Steps
/-! The statements that operations are made of. An operation sends every statement of its own in the context that it
was given, whatever the backend answers; which of them write is known beforehand. -/

namespace EntityQuery

/-- A statement that writes. -/
inductive WriteStatement where
  | insert (q : Insert)
  | update (q : Update)
  | delete (q : Delete)

namespace WriteStatement

def table : WriteStatement → String
  | insert q => q.table
  | update q => q.table
  | delete q => q.table

end WriteStatement

variable {σ : Type} [Backend σ]

/-- A step that is made of statements sent in one context, of which only certain ones write. -/
inductive SentIn (c : Context) (may : WriteStatement → Prop) : {α : Type} → Action σ α → Prop where
  | pure {α : Type} (a : α) : SentIn c may (Pure.pure a)
  | lift {α : Type} (r : Except Failure α) : SentIn c may (liftM r)
  | tell (channel : Channel) (text : String) : SentIn c may (Action.tell channel text)
  | noteFetch (f : Fetched) : SentIn c may (Action.noteFetch f)
  | select (q : Select) : SentIn c may (c.select q)
  | count (q : Count) : SentIn c may (c.count q)
  | insert (q : Insert) (held : may (.insert q)) : SentIn c may (c.insert q)
  | update (q : Update) (held : may (.update q)) : SentIn c may (c.update q)
  | delete (q : Delete) (held : may (.delete q)) : SentIn c may (c.delete q)
  | bind {α β : Type} {step : Action σ α} {next : α → Action σ β} (first : SentIn c may step)
      (later : ∀ a, SentIn c may (next a)) : SentIn c may (step >>= next)

namespace SentIn

variable {c : Context} {may : WriteStatement → Prop} {α β : Type}

theorem widen {more : WriteStatement → Prop} {step : Action σ α} (sent : SentIn c may step) (wider : ∀ q, may q → more q) :
    SentIn c more step := by
  induction sent with
  | pure a => exact .pure a
  | lift r => exact .lift r
  | tell channel text => exact .tell channel text
  | noteFetch f => exact .noteFetch f
  | select q => exact .select q
  | count q => exact .count q
  | insert q held => exact .insert q (wider _ held)
  | update q held => exact .update q (wider _ held)
  | delete q held => exact .delete q (wider _ held)
  | bind _ _ before after => exact .bind before after

theorem liftBind {r : Except Failure α} {next : α → Action σ β} (later : ∀ a, r = .ok a → SentIn c may (next a)) :
    SentIn c may (liftM r >>= next) := by
  cases r with
  | error e => exact .lift (.error e)
  | ok a => exact later a rfl

theorem map {f : α → β} {step : Action σ α} (first : SentIn c may step) : SentIn c may (f <$> step) := by
  rw [map_eq_pure_bind]
  exact first.bind fun a => .pure _

theorem skip {p : Prop} [Decidable p] {step : Action σ Unit} (first : SentIn c may step) :
    SentIn c may (if p then step else Pure.pure ()) := by
  split
  · exact first
  · exact .pure ()

theorem guarded {p : Prop} [Decidable p] {e : Failure} {next : PUnit → Action σ α} (later : SentIn c may (next ⟨⟩)) :
    SentIn c may (if p then throw e >>= next else next ⟨⟩) := by
  split
  · exact .lift (.error e)
  · exact later

end SentIn

namespace Context

variable {may : WriteStatement → Prop} (c : Context)

theorem cursorKeySent (e : Entity) (cursor : Predicate) : SentIn c may (c.cursorKey e cursor : Action σ Value) := by
  unfold cursorKey
  refine .liftBind fun condition _ => .bind (.select _) fun rows => .pure _

theorem withCursorSent (e : Entity) (conditions : List Condition) (w : Window) (order : List OrderSpec) :
    SentIn c may (c.withCursor e conditions w order : Action σ (Option (List Condition))) := by
  unfold withCursor
  split
  · exact .pure _
  · unfold cursorCondition
    refine .bind (.bind (c.cursorKeySent e _) fun key => ?_) fun after => .pure _
    split
    · exact .bind (.tell _ _) fun _ => .pure _
    · exact .pure _

theorem readRowsSent (e : Entity) (condition : Condition) (w : Window) :
    SentIn c may (c.readRows e condition w : Action σ (List Row)) := by
  have rows : ∀ q : Select, SentIn c may (do
      let rows ← c.select q
      let decoded ← rows.mapM fun row => (e.decodeRow row : Except Failure Row)
      if !w.distinct.isEmpty then w.apply decoded
      else if ← w.isBackwards then return decoded.reverse
      else return decoded : Action σ (List Row)) := by
    intro q
    simp only [Step.mapLift]
    refine .bind (.select q) fun rows => .liftBind fun decoded _ => ?_
    split
    · exact .lift _
    · refine .liftBind fun backwards _ => ?_
      split <;> exact .pure _
  unfold readRows
  refine .liftBind fun _ _ => .liftBind fun order _ => .bind (c.withCursorSent e _ w order) fun conditions => ?_
  cases conditions with
  | none => exact .pure _
  | some conditions =>
    refine .liftBind fun terms _ => ?_
    dsimp only
    split
    · exact .liftBind fun limit _ => .liftBind fun offset _ => rows _
    · exact .bind (.pure _) fun limit => .bind (.pure _) fun offset => rows _

theorem fetchTableSent (r : Relation) (target : Entity) (values : List Value) (filter : List Predicate) (w : Window) :
    SentIn c may (c.fetchTable r target values filter w : Action σ (List Row)) := by
  unfold fetchTable
  simp only [Step.mapLift]
  refine .liftBind fun keys _ => ?_
  split
  · exact .pure _
  · refine .liftBind fun remote _ => .liftBind fun _ _ => .liftBind fun order _ => .liftBind fun operands _ => ?_
    refine .liftBind fun condition _ => .bind (c.withCursorSent _ _ _ _) fun conditions => ?_
    split
    · exact .pure _
    · exact .bind (.tell _ _) fun _ => .liftBind fun terms _ => .bind (.select _) fun rows => .lift _

theorem fetchSent (r : Relation) (target : Entity) (values : List Value) (filter : List Predicate) (w : Window) :
    SentIn c may (c.fetch r target values filter w : Action σ (List Row)) := by
  unfold fetch
  refine .liftBind fun fetcher _ => ?_
  split
  · exact c.fetchTableSent r target values filter w
  · exact .bind (.noteFetch _) fun _ => .pure _
  · exact .lift (.error _)

mutual

theorem attachAllSent (e : Entity) (specs : List Include) (parents : Counted) :
    SentIn c may (c.attachAll e specs parents : Action σ Counted) := by
  cases specs with
  | nil => exact .pure _
  | cons spec rest => exact .bind (attachSent e spec parents) fun parents => attachAllSent e rest parents
termination_by structural specs

theorem attachSent (e : Entity) (spec : Include) (parents : Counted) :
    SentIn c may (c.attach e spec parents : Action σ Counted) := by
  cases spec with
  | mk relation filter window fields counted nested =>
    unfold attach
    simp only [Step.mapLift]
    refine .liftBind fun found _ => .bind (c.fetchSent _ _ _ _ _) fun related => .liftBind fun keyed _ => ?_
    refine .liftBind fun matched _ => .liftBind fun windowed _ => ?_
    split
    · exact .bind (.pure _) fun loaded => .pure _
    · exact .bind (attachAllSent _ nested _).map fun loaded => .pure _
termination_by structural spec

end

theorem loadIncludesSent (e : Entity) (specs : List Include) (rows : List Row) :
    SentIn c may (c.loadIncludes e specs rows : Action σ (List Row)) := by
  unfold loadIncludes
  split
  · exact .pure _
  · exact .bind (c.attachAllSent e specs _) fun parents => .pure _

theorem lookupSent (p : Predicate) : SentIn c may (c.lookup p : Action σ (Option Row)) := by
  unfold lookup
  exact .liftBind fun e _ => .liftBind fun condition _ => .bind (c.readRowsSent e condition _) fun rows => .pure _

theorem requireRowSent (e : Entity) (p : Predicate) : SentIn c may (c.requireRow e p : Action σ Row) := by
  unfold requireRow
  refine .bind (c.lookupSent p) fun found => ?_
  split
  · exact .pure _
  · exact .liftBind fun _ _ => .liftBind fun _ _ => .lift (.error _)

theorem insertRowSent (e : Entity) (data : Row) (held : ∀ values, may (.insert ⟨e.table, [values], e.columns⟩)) :
    SentIn c may (c.insertRow e data : Action σ Row) := by
  unfold insertRow
  refine .liftBind fun values _ => .liftBind fun _ _ => .bind (.insert _ (held values)) fun w => ?_
  split
  · exact .lift _
  · exact .lift (.error _)

end Context

namespace OwnedRelation

/-- Statements that write the key of a relation. -/
def WritesKey (o : OwnedRelation) (q : WriteStatement) : Prop :=
  ∃ f operand condition, o.foreignKey = .ok f ∧ q = .update ⟨o.target.table, [⟨f.column, .set, operand⟩], condition, []⟩

/-- Statements that a change of a relation may send. A row that is created replaces another in a has-one relation
only, and rows are deleted where a set leaves them. -/
def Sends (o : OwnedRelation) (change : RelationChange) (q : WriteStatement) : Prop :=
  match change with
  | .connect _ | .disconnect _ => o.WritesKey q
  | .create _ => (o.relation.kind = .hasOne ∧ o.WritesKey q) ∨ ∃ values, q = .insert ⟨o.target.table, [values], o.target.columns⟩
  | .set _ | .foreign _ => o.WritesKey q ∨ ∃ condition, q = .delete ⟨o.target.table, condition, []⟩

end OwnedRelation

namespace Context

variable {may : WriteStatement → Prop} (c : Context)

section Related

variable (p : Parent) (o : OwnedRelation)

theorem writeKeySent (condition : Condition) (v : Value) (held : ∀ q, o.WritesKey q → may q) :
    SentIn c may (c.writeKey o condition v : Action σ Number) := by
  unfold writeKey
  refine .liftBind fun f key => .liftBind fun operand _ => .bind (.update _ ?_) fun w => .pure _
  exact held _ ⟨f, operand, condition, key, rfl⟩

theorem requireRelatedSent (selector : Predicate) :
    SentIn c may (c.requireRelated p o selector : Action σ Row) := by
  unfold requireRelated
  refine .bind (c.lookupSent selector) fun found => ?_
  split
  · exact .pure _
  · exact .liftBind fun _ _ => .lift (.error _)

theorem detachCurrentSent (kept : Option Row) (held : ∀ q, o.relation.kind = .hasOne → o.WritesKey q → may q) :
    SentIn c may (c.detachCurrent p o kept : Action σ Unit) := by
  unfold detachCurrent
  split
  · exact .pure _
  · rename_i one
    have single : o.relation.kind = .hasOne := by simpa using one
    refine .liftBind fun related _ => ?_
    have detaching : ∀ current : Condition, SentIn c may (do
        if o.relation.foreignKeyNullable then
          let detached ← c.writeKey o current .null
          Action.tell .db s!"Detached {detached.toText} {o.target.name} row(s) from {p.entity.name}.{o.relation.name}"
        else
          let attached ← c.count ⟨o.target.table, current⟩
          if attached.compare? (.integer 0) == some .gt then
            throw (.query (.cannotReplace p.entity.name o.relation.name o.target.name o.relation.remote.field)) :
          Action σ Unit) := by
      intro current
      split
      · exact .bind (c.writeKeySent o current .null fun q => held q single) fun n => .tell _ _
      · exact .bind (.count _) fun n => .skip (.lift (.error _))
    cases kept with
    | some row => exact .liftBind fun among _ => detaching _
    | none => exact detaching _

variable {p o}

theorem relatedToOk {registry : Registry Fetcher} {e : Entity} {relation : Value} {asked : Except Failure Value}
    {found : Relation × Entity} (chosen : registry.relatedTo e relation asked = .ok found) :
    registry.related e relation = .ok found ∧ ∃ v, asked = .ok v ∧ registry.means v found.2 = .ok true := by
  unfold Registry.relatedTo at chosen
  obtain ⟨⟨r, target⟩, known, chosen⟩ := Results.bindOk chosen
  obtain ⟨name, named, chosen⟩ := Results.bindOk chosen
  obtain ⟨same, means, chosen⟩ := Results.bindOk chosen
  split at chosen
  · rename_i isSame
    cases chosen
    exact ⟨known, name, named, isSame ▸ means⟩
  · obtain ⟨_, -, chosen⟩ := Results.bindOk chosen
    cases chosen

/-- The relation of a name, whichever selector asked for it. -/
theorem ownedRelated {registry : Registry Fetcher} {relation : String} {selector : Option Predicate}
    (owned : p.owned registry relation selector = .ok o) :
    registry.related p.entity (.text relation) = .ok (o.relation, o.target) := by
  have keyed : ∀ found : Relation × Entity, (if found.1.ownsKey then
      throw (.query (.ownKey p.entity.name relation)) else return ⟨found.1, found.2⟩ : Except Failure OwnedRelation) = .ok o →
        found = (o.relation, o.target) := by
    intro found kept
    split at kept
    · cases kept
    · cases kept
      rfl
  unfold Parent.owned at owned
  dsimp only at owned
  split at owned
  · obtain ⟨found, chosen, owned⟩ := Results.bindOk owned
    rw [← keyed found owned]
    exact (relatedToOk chosen).1
  · obtain ⟨found, known, owned⟩ := Results.bindOk owned
    rw [← keyed found owned]
    exact known

section Changes

variable (p) (relation : String)

/-- What a change of a relation of a name may send. -/
def RelatedSends (c : Context) (e : Entity) (relation : String) (change : RelationChange) (q : WriteStatement) : Prop :=
  ∃ r target, c.registry.related e (.text relation) = .ok (r, target) ∧ (OwnedRelation.mk r target).Sends change q

theorem ownedBind {α : Type} {change : RelationChange} {selector : Option Predicate} {next : OwnedRelation → Action σ α}
    (later : ∀ o : OwnedRelation, (∀ q, o.Sends change q → c.RelatedSends p.entity relation change q) →
      SentIn c (c.RelatedSends p.entity relation change) (next o)) :
    SentIn c (c.RelatedSends p.entity relation change) (liftM (p.owned c.registry relation selector) >>= next) :=
  .liftBind fun o owned => later o fun _ sends => ⟨o.relation, o.target, ownedRelated owned, sends⟩

theorem connectRelatedSent (selector : Predicate) :
    SentIn c (c.RelatedSends p.entity relation (.connect selector)) (c.connectRelated p relation selector : Action σ Unit) := by
  unfold connectRelated
  refine c.ownedBind p relation fun o held => .bind (c.requireRelatedSent p o selector) fun row => ?_
  refine .bind (c.detachCurrentSent p o (some row) fun q _ => held q) fun _ => ?_
  refine .liftBind fun condition _ => .liftBind fun key _ => ?_
  exact .bind (c.writeKeySent o condition key held) fun n => .pure _

theorem disconnectRelatedSent (selector : Option Predicate) :
    SentIn c (c.RelatedSends p.entity relation (.disconnect selector))
      (c.disconnectRelated p relation selector : Action σ Unit) := by
  unfold disconnectRelated
  refine c.ownedBind p relation fun o held => .guarded (.liftBind fun related _ => ?_)
  split
  · exact .bind (c.writeKeySent o related .null held) fun n => .pure _
  · refine .bind (c.requireRelatedSent p o _) fun row => .liftBind fun only _ => ?_
    exact .bind (c.writeKeySent o _ .null held) fun n => .pure _

theorem createRelatedSent (data : Row) :
    SentIn c (c.RelatedSends p.entity relation (.create data)) (c.createRelated p relation data : Action σ Unit) := by
  unfold createRelated
  refine c.ownedBind p relation fun o held => ?_
  refine .bind (c.detachCurrentSent p o none fun q one key => held q (.inl ⟨one, key⟩)) fun _ => .liftBind fun key _ => ?_
  exact .bind (c.insertRowSent o.target _ fun values => held _ (.inr ⟨values, rfl⟩)) fun row => .pure _

theorem requireAllSent (o : OwnedRelation) (selectors : List Predicate) :
    SentIn c may (c.requireAll p o selectors : Action σ (List Row)) := by
  induction selectors with
  | nil => exact .pure _
  | cons selector rest ih =>
    unfold requireAll
    refine .liftBind fun _ _ => .bind (c.requireRelatedSent p o selector) fun row => ?_
    exact .bind ih fun rows => .pure _

theorem setRelatedSent {change : RelationChange} (selectors : Except Failure (List Predicate))
    (sets : ∀ (o : OwnedRelation) q, (o.WritesKey q ∨ ∃ condition, q = .delete ⟨o.target.table, condition, []⟩) → o.Sends change q) :
    SentIn c (c.RelatedSends p.entity relation change) (c.setRelated p relation selectors : Action σ Unit) := by
  unfold setRelated
  refine c.ownedBind p relation fun o held => .guarded (.liftBind fun listed _ => ?_)
  have keys : ∀ q, o.WritesKey q → c.RelatedSends p.entity relation change q := fun q key => held q (sets o q (.inl key))
  refine .bind (c.requireAllSent p o listed) fun rows => .liftBind fun key _ => ?_
  refine .liftBind fun related _ => .liftBind fun among _ => ?_
  have attaching : SentIn c (c.RelatedSends p.entity relation change) (do
      if !rows.isEmpty then
        let _ ← c.writeKey o among key : Action σ Unit) :=
    .skip (.bind (c.writeKeySent o among key keys) fun n => .pure _)
  dsimp only
  split
  · exact .bind (c.writeKeySent o _ .null keys) fun n => .bind (.tell _ _) fun _ => attaching
  · refine .bind (.delete _ ?_) fun w => .bind (.tell _ _) fun _ => attaching
    exact held _ (sets o _ (.inr ⟨_, rfl⟩))

theorem changeRelatedSent (change : RelationChange) :
    SentIn c (c.RelatedSends p.entity relation change) (c.changeRelated p relation change : Action σ Unit) := by
  unfold changeRelated
  split
  · exact c.connectRelatedSent p relation _
  · exact c.disconnectRelatedSent p relation _
  · exact c.setRelatedSent p relation _ fun _ _ sent => sent
  · exact c.createRelatedSent p relation _
  · refine .liftBind fun op _ => ?_
    split
    · exact c.setRelatedSent p relation _ fun _ _ sent => sent
    · exact .pure _

end Changes

end Related

section Whole

theorem resolveLookupsSent (e : Entity) (lookups : List Lookup) (values : Row) :
    SentIn c may (c.resolveLookups e lookups values : Action σ Row) := by
  induction lookups generalizing values with
  | nil => exact .pure _
  | cons l rest ih =>
    unfold resolveLookups
    refine .bind (c.lookupSent l.selector) fun found => .liftBind fun field _ => ?_
    split
    · exact .lift (.error _)
    · exact .bind (.tell _ _) fun _ => ih _

theorem changeAllSent (p : Parent) (changes : List (String × RelationChange)) :
    SentIn c (fun q => ∃ change ∈ changes, c.RelatedSends p.entity change.1 change.2 q) (c.changeAll p changes : Action σ Unit) := by
  induction changes with
  | nil => exact .pure _
  | cons change rest ih =>
    refine .bind ((c.changeRelatedSent p change.1 change.2).widen fun q sent => ?_) fun _ => ih.widen fun q later => ?_
    · exact ⟨change, List.mem_cons_self, sent⟩
    · obtain ⟨other, mem, sent⟩ := later
      exact ⟨other, List.mem_cons_of_mem _ mem, sent⟩

theorem ownKeyAssignmentSent (e : Entity) (r : Relation) (change : RelationChange) :
    SentIn c may (c.ownKeyAssignment e r change : Action σ Assignment) := by
  unfold ownKeyAssignment
  refine .liftBind fun key _ => ?_
  split
  · refine .liftBind fun _ _ => .bind (c.lookupSent _) fun found => ?_
    split
    · exact .liftBind fun _ _ => .lift (.error _)
    · exact .liftBind fun v _ => .pure _
  · split
    · exact .pure _
    · exact .lift (.error _)
  · exact .liftBind fun tag _ => .liftBind fun _ _ => .lift (.error _)

theorem flushSent (e : Entity) (p : Pending)
    (held : ∀ condition, may (.update ⟨e.table, p.assignments, condition, e.columns⟩)) :
    SentIn c may (c.flush e p : Action σ Pending) := by
  unfold flush
  split
  · exact .pure _
  · refine .liftBind fun condition _ => .bind (.update _ (held condition)) fun w => ?_
    split
    · exact .liftBind fun row _ => .pure _
    · exact .lift (.error _)

variable (all : ∀ q, may q)

include all

theorem addAssignmentSent (e : Entity) (p : Pending) (a : Assignment) :
    SentIn c may (c.addAssignment e p a : Action σ Pending) := by
  unfold addAssignment
  dsimp only
  split
  · exact .bind (c.flushSent e p fun _ => all _) fun p => .pure _
  · exact .bind (.pure _) fun p => .pure _

theorem mutateRelationSent (e : Entity) (p : Pending) (relation : Value) (change : RelationChange) :
    SentIn c may (c.mutateRelation e p relation change : Action σ Pending) := by
  unfold mutateRelation
  refine .liftBind fun r _ => ?_
  split
  · exact .bind (c.ownKeyAssignmentSent e r change) fun a => c.addAssignmentSent all e p a
  · refine .bind (c.flushSent e p fun _ => all _) fun p => ?_
    exact .bind ((c.changeRelatedSent _ r.name change).widen fun q _ => all q) fun _ => .pure _

theorem mutateSent (e : Entity) (p : Pending) (m : Mutation) : SentIn c may (c.mutate e p m : Action σ Pending) := by
  unfold mutate
  refine .liftBind fun _ _ => ?_
  split
  · exact .liftBind fun a _ => c.addAssignmentSent all e p a
  · exact c.mutateRelationSent all e p _ _
  · split
    · exact .liftBind fun a _ => c.addAssignmentSent all e p a
    · exact c.mutateRelationSent all e p _ _

theorem mutateAllSent (e : Entity) (ms : List Mutation) (p : Pending) :
    SentIn c may (c.mutateAll e ms p : Action σ Pending) := by
  induction ms generalizing p with
  | nil => exact .pure _
  | cons m rest ih => exact .bind (c.mutateSent all e p m) fun p => ih p

theorem changeSent (e : Entity) (ms : List Mutation) (row : Row) : SentIn c may (c.change e ms row : Action σ Row) := by
  unfold change
  exact .bind (c.mutateAllSent all e ms _) fun p => .bind (c.flushSent e p fun _ => all _) fun p => .pure _

theorem createSent (e : Entity) (creation : Creation) : SentIn c may (c.create e creation : Action σ Row) := by
  unfold create
  refine .bind (c.resolveLookupsSent e _ _) fun values => .bind (c.insertRowSent e values fun _ => all _) fun row => ?_
  exact .bind ((c.changeAllSent _ _).widen fun q _ => all q) fun _ => .pure _

end Whole

end Context

end EntityQuery
