import EntityQuery.Operation.Execution
import EntityQuery.Proofs.CellRules
import EntityQuery.Proofs.ReturnedRows
/-! Operations keep a rule on what columns hold. Each function has one lemma: from tables that are as the rule says it
leads to such tables, whatever comes of it, and the rows and assignments that it returns are as the rule says. -/

namespace EntityQuery

theorem Writes.calm {α : Type} {step : Action Store α} (writes : Writes (fun _ => False) step) (s : Session Store) :
    (step.runOn s).2.backend.content = s.backend.content ∧ (step.runOn s).2.backend.sequences = s.backend.sequences := by
  induction writes generalizing s with
  | pure | lift | tell | noteFetch | select | count => exact ⟨rfl, rfl⟩
  | insert _ _ never | update _ _ never | delete _ _ never => exact never.elim
  | bind first later before after =>
    refine Step.bindLeaves (P := fun t : Session Store => t.backend.content = s.backend.content ∧
      t.backend.sequences = s.backend.sequences) (before s) fun a t _ same => ?_
    exact ⟨(after a t).1.trans same.1, (after a t).2.trans same.2⟩

namespace CellRule

variable {schema : Schema} {rule : CellRule schema}

/-- A step that keeps a rule, and whose answers have a property. -/
def Keeps {α : Type} (rule : CellRule schema) (post : α → Prop) (step : Action Store α) : Prop :=
  ∀ s, rule.Holds s.backend → rule.Holds (step.runOn s).2.backend ∧ ∀ a t, step.runOn s = (.ok a, t) → post a

namespace Keeps

variable {α β : Type} {post : α → Prop} {last : β → Prop}

theorem lift {r : Except Failure α} (held : ∀ a, r = .ok a → post a) : rule.Keeps post (liftM r) := by
  intro s holds
  refine ⟨holds, fun a t ran => ?_⟩
  rw [Step.runLift] at ran
  exact held a (Prod.mk.inj ran).1

theorem pure {a : α} (held : post a) : rule.Keeps post (Pure.pure a) :=
  lift (r := .ok a) fun _ same => Except.ok.inj same ▸ held

theorem fail {e : Failure} : rule.Keeps post (liftM (.error e : Except Failure α)) := lift fun _ never => by cases never

theorem bind {step : Action Store α} {next : α → Action Store β} (first : rule.Keeps post step)
    (later : ∀ a, post a → rule.Keeps last (next a)) : rule.Keeps last (step >>= next) := by
  intro s holds
  obtain ⟨kept, answers⟩ := first s holds
  rw [Step.runBind]
  cases ran : step.runOn s with
  | mk r t =>
    rw [ran] at kept answers
    cases r with
    | error e => exact ⟨kept, fun _ _ never => by cases never⟩
    | ok a => exact later a (answers a t rfl) t kept

theorem liftBind {r : Except Failure α} {next : α → Action Store β} (later : ∀ a, r = .ok a → rule.Keeps last (next a)) :
    rule.Keeps last (liftM r >>= next) := by
  have first : rule.Keeps (fun a => r = .ok a) (liftM r) := lift fun _ same => same
  exact bind first later

theorem guarded {p : Prop} [Decidable p] {e : Failure} {next : PUnit → Action Store α} (later : rule.Keeps post (next ⟨⟩)) :
    rule.Keeps post (if p then throw e >>= next else next ⟨⟩) := by
  split
  · have stops : rule.Keeps (fun _ => False) (throw e : Action Store PUnit) := fail
    exact bind stops fun _ never => never.elim
  · exact later

theorem calm {step : Action Store α} (writes : Writes (fun _ => False) step) : rule.Keeps (fun _ => True) step := by
  intro s holds
  obtain ⟨content, sequences⟩ := writes.calm s
  exact ⟨holds.same content sequences, fun _ _ _ => trivial⟩

/-- What is returned can be read off the tables that the step leaves. -/
theorem read {step : Action Store α} (keeps : rule.Keeps (fun _ => True) step)
    (answers : ∀ s a t, rule.Holds s.backend → rule.Holds t.backend → step.runOn s = (.ok a, t) → post a) :
    rule.Keeps post step := by
  intro s holds
  refine ⟨(keeps s holds).1, fun a t ran => answers s a t holds ?_ ran⟩
  have kept := (keeps s holds).1
  rwa [ran] at kept

end Keeps

/-- A schema and the registry of its client, for a rule. Where a relation leads to an entity that does not have its
remote field, rows of that entity still have something under its name. -/
structure Serves (rule : CellRule schema) (registry : Registry Fetcher) : Prop where
  apart : schema.NamesApart
  sound : schema.Sound
  entities : ∀ e ∈ registry.entities, e ∈ schema.entities
  remote : ∀ e ∈ schema.entities, ∀ r ∈ e.relations, ∀ target, registry.get? r.target = some target →
    target.field? r.remote.field = none → rule.plain (.inherited r.remote.field)

/-- A row of an entity as it is read from its table. -/
structure Decoded (rule : CellRule schema) (e : Entity) (row : Row) : Prop where
  plain : ∀ pair ∈ row, rule.plain pair.2
  names : row.map (·.1) = e.fields.map (·.name)

section Values

variable {e : Entity} {row : Row}

theorem decodedOf (mem : e ∈ schema.entities) {s : Store} (holds : rule.Holds s) (stores : e.Stores s.content row) :
    rule.Decoded e row := by
  obtain ⟨rows, place, stored, there, placed, out, projected, decoding⟩ := stores
  have cells := holds.rows e mem rows there stored (List.mem_of_getElem? placed)
  refine ⟨fun pair inside => ?_, ?_⟩
  · obtain ⟨f, among, read⟩ := Results.mapAllItems decoding pair inside
    obtain ⟨w, decoded, read⟩ := Results.bindOk read
    cases read
    exact rule.read mem among (cells f among) (Store.projectValue projected f.column (List.mem_map_of_mem among)) decoded
  · refine Results.mapAllMap (fun f pair read => ?_) decoding
    obtain ⟨w, -, read⟩ := Results.bindOk read
    cases read
    rfl

theorem Decoded.value (decoded : rule.Decoded e row) {name : String}
    (unknown : e.field? name = none → rule.plain (.inherited name)) : rule.plain (Row.value row name) := by
  unfold Row.value
  cases found : Record.get? row name with
  | some v => exact decoded.plain _ (Record.memOfGet? found)
  | none =>
    refine unknown (List.find?_eq_none.mpr fun f mem same => ?_)
    have named : f.name ∈ row.map (·.1) := decoded.names ▸ List.mem_map_of_mem mem
    obtain ⟨pair, inside, own⟩ := List.mem_map.mp named
    have absent : (name, pair.2) ∉ row := Record.absentOfGet found
    rw [← eq_of_beq same, ← own] at absent
    exact absent inside

theorem Decoded.known (decoded : rule.Decoded e row) {name : String} {f : Field} (found : e.field? name = some f) :
    rule.plain (Row.value row name) :=
  decoded.value fun none => by rw [found] at none; cases none

end Values

namespace Serves

variable {c : Context} {e : Entity} {α : Type}

section Statements

variable (serves : rule.Serves c.registry) (mem : e ∈ schema.entities)

include serves mem

theorem insertKeeps {q : Insert} (admits : rule.Admits e (.insert q)) : rule.Keeps (fun _ => True) (c.insert q) := by
  intro s holds
  rw [Context.insertRun]
  have recorded : rule.Holds (s.backend.record .insert q.table) := holds.same rfl rfl
  exact ⟨admitsHolds serves.apart mem admits recorded, fun _ _ _ => trivial⟩

theorem updateKeeps {q : Update} (admits : rule.Admits e (.update q)) : rule.Keeps (fun _ => True) (c.update q) := by
  intro s holds
  rw [Context.updateRun]
  have recorded : rule.Holds (s.backend.record .update q.table) := holds.same rfl rfl
  exact ⟨admitsHolds serves.apart mem admits recorded, fun _ _ _ => trivial⟩

theorem deleteKeeps {q : Delete} (admits : rule.Admits e (.delete q)) : rule.Keeps (fun _ => True) (c.delete q) := by
  intro s holds
  rw [Context.deleteRun]
  have recorded : rule.Holds (s.backend.record .delete q.table) := holds.same rfl rfl
  exact ⟨admitsHolds serves.apart mem admits recorded, fun _ _ _ => trivial⟩

theorem columnsOf {s : Session Store} (holds : rule.Holds s.backend) :
    Record.get? s.backend.fields e.table = some e.fields := by
  rw [holds.columns]
  exact Store.fieldsKnown serves.apart.tables mem

end Statements

section Reading

variable (serves : rule.Serves c.registry)

include serves

theorem entityKnown {p : Predicate} (meant : c.entityOf p = .ok e) : e ∈ schema.entities := by
  obtain ⟨name, -, found⟩ := Context.entityAsked meant
  exact serves.entities _ (Registry.memOfGet found)

theorem lookupKeeps (p : Predicate) : rule.Keeps
    (fun found => ∀ row, found = some row → ∃ e ∈ schema.entities, c.entityOf p = .ok e ∧ rule.Decoded e row) (c.lookup p) := by
  refine (Keeps.calm (c.lookupWrites p)).read fun s found t holds kept ran row same => ?_
  subst same
  obtain ⟨e, meant⟩ : ∃ e, c.entityOf p = .ok e := by
    unfold Context.lookup at ran
    obtain ⟨e, meant, -⟩ := Step.liftOk ran
    exact ⟨e, meant⟩
  have mem := serves.entityKnown meant
  exact ⟨e, mem, meant, decodedOf mem kept (Context.lookupStores meant (serves.columnsOf mem holds) ran)⟩

theorem insertRowKeeps (mem : e ∈ schema.entities) (data : Row) : rule.Keeps (rule.Decoded e) (c.insertRow e data) := by
  have whole : rule.Keeps (fun _ => True) (c.insertRow e data) := by
    unfold Context.insertRow
    refine .liftBind fun values encoded => .liftBind fun _ checked => .bind (serves.insertKeeps mem ⟨rfl, ?_⟩) fun w _ => ?_
    · intro row inside
      obtain rfl := List.mem_singleton.mp inside
      exact ⟨⟨data, encoded⟩, checked⟩
    · split
      · exact .lift fun _ _ => trivial
      · exact .fail
  refine whole.read fun s row t holds kept ran => decodedOf mem kept ?_
  obtain ⟨values, stored, one, -, there, content, -, -, reads⟩ := Context.insertRowOk (serves.columnsOf mem holds) ran
  refine ⟨stored ++ [one], stored.length, one, ?_, by simp, reads⟩
  rw [content]
  exact Record.get?_replace (by rw [there]; rfl)

end Reading

section Related

variable {p : Parent} {o : OwnedRelation} (serves : rule.Serves c.registry)

include serves

theorem relatedKnown {relation : String} {found : Relation × Entity}
    (related : c.registry.related e (.text relation) = .ok found) :
    e.relation? relation = some found.1 ∧ found.2 ∈ schema.entities ∧ c.registry.get? found.1.target = some found.2 := by
  obtain ⟨r, named, related⟩ := Results.bindOk related
  obtain ⟨known, -⟩ := Entity.relationOk named
  split at related
  · rename_i target there
    cases related
    exact ⟨known, serves.entities _ (Registry.memOfGet there), there⟩
  · cases related

theorem ownedKnown {relation : String} {selector : Option Predicate} (owned : p.owned c.registry relation selector = .ok o) :
    o.relation ∈ p.entity.relations ∧ o.target ∈ schema.entities := by
  obtain ⟨named, mem, -⟩ := serves.relatedKnown (Context.ownedRelated owned)
  exact ⟨List.mem_of_find?_eq_some named, mem⟩

theorem writeKeyKeeps (mem : o.target ∈ schema.entities) (condition : Condition) {v : Value} (plain : rule.plain v) :
    rule.Keeps (fun _ => True) (c.writeKey o condition v) := by
  unfold Context.writeKey
  refine .liftBind fun f key => .liftBind fun operand written => ?_
  refine .bind (serves.updateKeeps mem ⟨rfl, ?_⟩) fun _ _ => .pure trivial
  intro a inside
  obtain rfl := List.mem_singleton.mp inside
  have among := (Entity.fieldFound (Entity.fieldOk key)).1
  exact ⟨f, among, rfl, .inl ⟨rfl, rule.written mem among plain written⟩⟩

theorem detachCurrentKeeps (mem : o.target ∈ schema.entities) (kept : Option Row) :
    rule.Keeps (fun _ => True) (c.detachCurrent p o kept) := by
  unfold Context.detachCurrent
  split
  · exact .pure trivial
  · refine .liftBind fun related _ => ?_
    have detaching : ∀ current : Condition, rule.Keeps (fun _ => True) (do
        if o.relation.foreignKeyNullable then
          let detached ← c.writeKey o current .null
          Action.tell .db s!"Detached {detached.toText} {o.target.name} row(s) from {p.entity.name}.{o.relation.name}"
        else
          let attached ← c.count ⟨o.target.table, current⟩
          if attached.compare? (.integer 0) == some .gt then
            throw (.query (.cannotReplace p.entity.name o.relation.name o.target.name o.relation.remote.field)) :
          Action Store Unit) := by
      intro current
      split
      · exact .bind (serves.writeKeyKeeps mem current rule.plainNull) fun _ _ => .calm (.tell _ _)
      · exact .calm (.bind (.count c _) fun n => .skip (.lift (.error _)))
    cases kept with
    | some row => exact .liftBind fun among _ => detaching _
    | none => exact detaching _

theorem disconnectRelatedKeeps (relation : String) (selector : Option Predicate) :
    rule.Keeps (fun _ => True) (c.disconnectRelated p relation selector) := by
  unfold Context.disconnectRelated
  refine .liftBind fun o owned => ?_
  obtain ⟨-, target⟩ := serves.ownedKnown owned
  refine .guarded (.liftBind fun related _ => ?_)
  split
  · exact .bind (serves.writeKeyKeeps target related rule.plainNull) fun _ _ => .pure trivial
  · refine .bind (.calm (c.requireRelatedWrites p o _)) fun row _ => .liftBind fun only _ => ?_
    exact .bind (serves.writeKeyKeeps target _ rule.plainNull) fun _ _ => .pure trivial

theorem createRelatedKeeps (relation : String) (data : Row) :
    rule.Keeps (fun _ => True) (c.createRelated p relation data) := by
  unfold Context.createRelated
  refine .liftBind fun o owned => ?_
  obtain ⟨-, target⟩ := serves.ownedKnown owned
  refine .bind (serves.detachCurrentKeeps target none) fun _ _ => .liftBind fun key _ => ?_
  exact .bind (serves.insertRowKeeps target _) fun _ _ => .pure trivial

variable (mem : p.entity ∈ schema.entities) (decoded : rule.Decoded p.entity p.row)

include mem decoded

theorem plainKey {r : Relation} {v : Value} (inside : r ∈ p.entity.relations) (key : p.key r = .ok v) : rule.plain v := by
  obtain ⟨f, found, -⟩ := serves.sound.own p.entity mem r inside
  obtain ⟨-, rfl⟩ := Parent.keyOk key
  exact decoded.known found

theorem connectRelatedKeeps (relation : String) (selector : Predicate) :
    rule.Keeps (fun _ => True) (c.connectRelated p relation selector) := by
  unfold Context.connectRelated
  refine .liftBind fun o owned => .bind (.calm (c.requireRelatedWrites p o selector)) fun row _ => ?_
  obtain ⟨inside, target⟩ := serves.ownedKnown owned
  refine .bind (serves.detachCurrentKeeps target (some row)) fun _ _ => ?_
  refine .liftBind fun condition _ => .liftBind fun key found => ?_
  exact .bind (serves.writeKeyKeeps target condition (serves.plainKey mem decoded inside found)) fun _ _ => .pure trivial

theorem setRelatedKeeps (relation : String) (selectors : Except Failure (List Predicate)) :
    rule.Keeps (fun _ => True) (c.setRelated p relation selectors) := by
  unfold Context.setRelated
  refine .liftBind fun o owned => ?_
  obtain ⟨inside, target⟩ := serves.ownedKnown owned
  refine .guarded (.liftBind fun listed _ => .bind (.calm (c.requireAllWrites p o listed)) fun rows _ => ?_)
  refine .liftBind fun key found => .liftBind fun related _ => .liftBind fun among _ => ?_
  have attaching : rule.Keeps (fun _ => True) (do
      if !rows.isEmpty then
        let _ ← c.writeKey o among key : Action Store Unit) := by
    split
    · exact .bind (serves.writeKeyKeeps target among (serves.plainKey mem decoded inside found)) fun _ _ => .pure trivial
    · exact .pure trivial
  dsimp only
  split
  · exact .bind (serves.writeKeyKeeps target _ rule.plainNull) fun _ _ => .bind (.calm (.tell _ _)) fun _ _ => attaching
  · exact .bind (serves.deleteKeeps target rfl) fun _ _ => .bind (.calm (.tell _ _)) fun _ _ => attaching

theorem changeRelatedKeeps (relation : String) (change : RelationChange) :
    rule.Keeps (fun _ => True) (c.changeRelated p relation change) := by
  unfold Context.changeRelated
  split
  · exact serves.connectRelatedKeeps mem decoded relation _
  · exact serves.disconnectRelatedKeeps relation _
  · exact serves.setRelatedKeeps mem decoded relation _
  · exact serves.createRelatedKeeps relation _
  · refine .liftBind fun op _ => ?_
    split
    · exact serves.setRelatedKeeps mem decoded relation _
    · exact .pure trivial

theorem changeAllKeeps (changes : List (String × RelationChange)) : rule.Keeps (fun _ => True) (c.changeAll p changes) := by
  induction changes with
  | nil => exact .pure trivial
  | cons change rest ih => exact .bind (serves.changeRelatedKeeps mem decoded change.1 change.2) fun _ _ => ih

end Related

theorem meantEntity (serves : rule.Serves c.registry) (mem : e ∈ schema.entities) {selector : Predicate} {v : Value}
    {other : Entity} (asked : selector.askEntity = .ok v) (means : c.registry.means v e = .ok true)
    (meant : c.entityOf selector = .ok other) :
    other = e :=
  List.inj_on_of_nodup_map serves.sound.names (serves.entityKnown meant) mem (Context.meansNamed meant asked means)

section Changing

variable (serves : rule.Serves c.registry) (mem : e ∈ schema.entities)

include serves mem

theorem createKeeps (creation : Creation) : rule.Keeps (rule.Decoded e) (c.create e creation) := by
  unfold Context.create
  refine .bind (.calm (c.resolveLookupsWrites e _ _)) fun values _ => ?_
  refine .bind (serves.insertRowKeeps mem values) fun row decoded => ?_
  exact .bind (serves.changeAllKeeps (p := ⟨e, row⟩) mem decoded creation.related) fun _ _ => .pure decoded

theorem ownKeyAssignmentKeeps {r : Relation} (named : e.relation? r.name = some r) (one : r.kind = .belongsTo)
    (change : RelationChange) : rule.Keeps (rule.Assigns e) (c.ownKeyAssignment e r change) := by
  unfold Context.ownKeyAssignment
  refine .liftBind fun key found => ?_
  have inside := List.mem_of_find?_eq_some named
  have among := (Entity.fieldFound (Entity.fieldOk found)).1
  split
  · rename_i selector
    refine .liftBind fun related chosen => .bind (serves.lookupKeeps selector) fun found looked => ?_
    split
    · exact .liftBind fun _ _ => .fail
    · rename_i row
      refine .liftBind fun v written => .pure ⟨key, among, rfl, .inl ⟨rfl, rule.written mem among ?_ written⟩⟩
      obtain ⟨other, otherMem, meant, decoded⟩ := looked row rfl
      obtain ⟨⟨s, target⟩, relating, chosen⟩ := Results.bindOk chosen
      obtain ⟨v, asked, chosen⟩ := Results.bindOk chosen
      obtain ⟨means, isMeant, chosen⟩ := Results.bindOk chosen
      obtain ⟨again, targetMem, there⟩ := serves.relatedKnown relating
      obtain rfl : r = s := Option.some.inj (named.symm.trans again)
      split at chosen
      · rename_i yes
        subst yes
        obtain rfl := serves.meantEntity targetMem asked isMeant meant
        exact decoded.value (serves.remote e mem r inside _ there)
      · obtain ⟨_, -, refused⟩ := Results.bindOk chosen
        cases refused
  · split
    · rename_i nullable
      obtain ⟨f, known, allowed⟩ := serves.sound.own e mem r inside
      obtain rfl : f = key := Option.some.inj (known.symm.trans (Entity.fieldOk found))
      refine .pure ⟨f, among, rfl, .inl ⟨rfl, rule.written mem among rule.plainNull (w := .null) ?_⟩⟩
      rw [Field.encode_of_isNothing rfl, if_pos (allowed one nullable)]
    · exact .fail
  · exact .liftBind fun _ _ => .liftBind fun _ _ => .fail

/-- A row being changed: it is as it was read, and the assignments that wait are as the rule says. -/
structure Waits (rule : CellRule schema) (e : Entity) (p : Context.Pending) : Prop where
  decoded : rule.Decoded e p.row
  assigns : ∀ a ∈ p.assignments, rule.Assigns e a

theorem flushKeeps {p : Context.Pending} (waits : Waits rule e p) : rule.Keeps (Waits rule e) (c.flush e p) := by
  have whole : rule.Keeps (fun _ => True) (c.flush e p) := by
    unfold Context.flush
    split
    · exact .pure trivial
    · refine .liftBind fun condition _ => .bind (serves.updateKeeps mem ⟨rfl, waits.assigns⟩) fun w _ => ?_
      split
      · exact .liftBind fun row _ => .pure trivial
      · exact .fail
  refine whole.read fun s q t holds kept ran => ?_
  obtain ⟨none, ⟨-, rfl, -⟩ | stores⟩ := Context.flushStores (serves.columnsOf mem holds) ran
  · exact waits
  · exact ⟨decodedOf mem kept stores, by simp [none]⟩

theorem addAssignmentKeeps {p : Context.Pending} {a : Assignment} (waits : Waits rule e p) (assigns : rule.Assigns e a) :
    rule.Keeps (Waits rule e) (c.addAssignment e p a) := by
  have added : ∀ q : Context.Pending, Waits rule e q → rule.Keeps (Waits rule e)
      (pure { q with assignments := q.assignments ++ [a] } : Action Store Context.Pending) := by
    intro q held
    refine .pure ⟨held.decoded, fun b inside => ?_⟩
    rcases List.mem_append.mp inside with old | new
    · exact held.assigns b old
    · exact List.mem_singleton.mp new ▸ assigns
  unfold Context.addAssignment
  dsimp only
  split
  · exact .bind (serves.flushKeeps mem waits) added
  · exact .bind (.pure waits) added

theorem mutateRelationKeeps {p : Context.Pending} (waits : Waits rule e p) (relation : String) (change : RelationChange) :
    rule.Keeps (Waits rule e) (c.mutateRelation e p (.text relation) change) := by
  unfold Context.mutateRelation
  refine .liftBind fun r named => ?_
  obtain ⟨known, rfl⟩ := Entity.relationOk named
  split
  · rename_i one
    exact .bind (serves.ownKeyAssignmentKeeps mem known one change) fun a assigns => serves.addAssignmentKeeps mem waits assigns
  · refine .bind (serves.flushKeeps mem waits) fun q held => ?_
    exact .bind (serves.changeRelatedKeeps (p := ⟨e, q.row⟩) mem held.decoded r.name change) fun _ _ => .pure held

/-- The mutations of an entity that the rule allows: a field is set to a value that its column may hold, or changed by
arithmetic, with an operand of the field. -/
def Allows (rule : CellRule schema) (e : Entity) : Mutation → Prop
  | .field entity name change operand => entity = e.name → ∀ f, e.field? name = some f →
    rule.Assigns e ⟨f.column, change, operand⟩
  | .relation .. => True
  | .foreign _ => False

omit serves mem in
theorem allowedAssigns {entity name : String} {change : ColumnChange} {operand : Value} {a : Assignment}
    (allows : Allows rule e (.field entity name change operand))
    (checked : e.checkMutation (.field entity name change operand) = .ok ())
    (made : e.assignmentOf (.field entity name change operand) = .ok a) : rule.Assigns e a := by
  have own : entity = e.name := by
    obtain ⟨given, asked, checked⟩ := Results.bindOk checked
    cases asked
    split at checked
    · rename_i same
      simpa [Mutation.entity, Value.text?] using same
    · obtain ⟨_, -, refused⟩ := Results.bindOk checked
      cases refused
  obtain ⟨f, named, made⟩ := Results.bindOk made
  have assigned : a = ⟨f.column, change, operand⟩ := by
    unfold Entity.assignment at made
    split at made
    · cases made
      rfl
    · split at made
      · cases made
        rfl
      · obtain ⟨_, -, refused⟩ := Results.bindOk made
        cases refused
  exact assigned ▸ allows own f (Entity.fieldOk named)

theorem mutateKeeps {p : Context.Pending} {m : Mutation} (waits : Waits rule e p) (allows : Allows rule e m) :
    rule.Keeps (Waits rule e) (c.mutate e p m) := by
  unfold Context.mutate
  refine .liftBind fun _ checked => ?_
  cases m with
  | field entity name change operand =>
    exact .liftBind fun a made => serves.addAssignmentKeeps mem waits (allowedAssigns allows checked made)
  | relation entity name change => exact serves.mutateRelationKeeps mem waits name change
  | foreign node => exact allows.elim

theorem changeKeeps {row : Row} {ms : List Mutation} (decoded : rule.Decoded e row) (allows : ∀ m ∈ ms, Allows rule e m) :
    rule.Keeps (rule.Decoded e) (c.change e ms row) := by
  have all : ∀ p, Waits rule e p → rule.Keeps (Waits rule e) (c.mutateAll e ms p) := by
    induction ms with
    | nil => exact fun p waits => .pure waits
    | cons m rest ih =>
      obtain ⟨here, later⟩ := List.forall_mem_cons.mp allows
      exact fun p waits => .bind (serves.mutateKeeps mem waits here) (ih later)
  unfold Context.change
  refine .bind (all ⟨row, []⟩ ⟨decoded, by simp⟩) fun p waits => ?_
  exact .bind (serves.flushKeeps mem waits) fun q held => .pure held.decoded

end Changing

section Transactions

variable {post : α → Prop}

theorem transactionKeeps {work : Context → Action Store α} (keeps : ∀ h, rule.Keeps post (work { c with handle := h })) :
    rule.Keeps post (c.transaction work) := by
  intro s holds
  obtain ⟨-, ran⟩ | ⟨e, ran⟩ | ⟨start, begins, ran⟩ := Context.transactionCases c work s
  · rw [ran]
    exact keeps c.handle s holds
  · rw [ran]
    exact ⟨holds, fun _ _ never => by cases never⟩
  · have opened : rule.Holds (s.withBackend start).backend := by
      rw [Context.openedTables begins]
      exact holds.same rfl rfl
    obtain ⟨kept, answers⟩ := keeps .bound (s.withBackend start) opened
    rw [ran]
    cases during : (work { c with handle := .bound }).runOn (s.withBackend start) with
    | mk r t =>
      rw [during] at kept answers
      cases r with
      -- the work failed, and copies of what was there when it began come back
      | error e => exact ⟨restoredHolds holds kept, fun _ _ never => by cases never⟩
      | ok a =>
        refine ⟨kept.same rfl rfl, fun b u same => ?_⟩
        cases same
        exact answers a t rfl

variable (serves : rule.Serves c.registry) (mem : e ∈ schema.entities)

include serves

theorem requireRowKeeps {selector : Predicate} (about : ∀ other, c.entityOf selector = .ok other → other = e) :
    rule.Keeps (rule.Decoded e) (c.requireRow e selector) := by
  unfold Context.requireRow
  refine .bind (serves.lookupKeeps selector) fun found looked => ?_
  split
  · rename_i row
    obtain ⟨other, -, meant, decoded⟩ := looked row rfl
    exact .pure (about other meant ▸ decoded)
  · exact .liftBind fun _ _ => .liftBind fun _ _ => .fail

include mem

theorem updateOneKeeps {selector : Predicate} {ms : List Mutation}
    (about : ∀ other, c.entityOf selector = .ok other → other = e) (allows : ∀ m ∈ ms, Allows rule e m) : rule.Keeps (rule.Decoded e) (c.updateOne e selector ms) := by
  refine transactionKeeps fun h => ?_
  have bound : rule.Serves ({ c with handle := h } : Context).registry := serves
  exact .bind (bound.requireRowKeeps about) fun row decoded => bound.changeKeeps mem decoded allows

theorem upsertOneKeeps {selector : Predicate} {creation : Creation} {ms : List Mutation}
    (about : ∀ other, c.entityOf selector = .ok other → other = e) (allows : ∀ m ∈ ms, Allows rule e m) :
    rule.Keeps (rule.Decoded e) (c.upsertOne e selector creation ms) := by
  refine transactionKeeps fun h => ?_
  have bound : rule.Serves ({ c with handle := h } : Context).registry := serves
  refine .bind (bound.lookupKeeps selector) fun found looked => ?_
  split
  · rename_i row
    obtain ⟨other, -, meant, decoded⟩ := looked row rfl
    exact bound.changeKeeps mem (about other meant ▸ decoded) allows
  · exact .bind (.calm (.tell _ _)) fun _ _ => bound.createKeeps mem creation

theorem deleteOneKeeps (selector : Predicate) : rule.Keeps (fun _ => True) (c.deleteOne e selector) := by
  unfold Context.deleteOne
  refine .liftBind fun condition _ => .bind (serves.deleteKeeps mem rfl) fun w _ => ?_
  split
  · exact .lift fun _ _ => trivial
  · exact .liftBind fun _ _ => .liftBind fun _ _ => .fail

theorem updateManyKeeps (filter : List Predicate) {assignments : List Assignment}
    (assigns : ∀ a ∈ assignments, rule.Assigns e a) :
    rule.Keeps (fun _ => True) (c.updateMany e filter assignments) := by
  unfold Context.updateMany
  refine .liftBind fun condition _ => ?_
  split
  · exact .calm (.count c _)
  · exact .bind (serves.updateKeeps mem ⟨rfl, assigns⟩) fun _ _ => .pure trivial

theorem deleteManyKeeps (filter : List Predicate) : rule.Keeps (fun _ => True) (c.deleteMany e filter) := by
  unfold Context.deleteMany
  exact .liftBind fun condition _ => .bind (serves.deleteKeeps mem rfl) fun _ _ => .pure trivial

theorem insertManyKeeps {rows : List Row} (checked : ∀ values ∈ rows, (∃ data, e.encodeRow data = .ok values) ∧
    e.checkRequired values = .ok ()) : rule.Keeps (fun _ => True) (c.insertMany e rows) := by
  unfold Context.insertMany
  split
  · exact .pure trivial
  · exact .bind (serves.insertKeeps mem ⟨rfl, checked⟩) fun _ _ => .pure trivial

end Transactions

section Performing

theorem groupKeeps (q : Grouping) : rule.Keeps (fun _ => True) (c.group q) :=
  fun _ holds => ⟨holds.same rfl rfl, fun _ _ _ => trivial⟩

theorem aggregateKeeps (e : Entity) (a : AggregateRead) : rule.Keeps (fun _ => True) (c.aggregate e a) := by
  unfold Context.aggregate
  exact .liftBind fun condition _ => .bind (groupKeeps _) fun rows _ => .lift fun _ _ => trivial

theorem groupsKeeps (e : Entity) (g : GroupRead) : rule.Keeps (fun _ => True) (c.groups e g) := by
  unfold Context.groups
  simp only [Step.mapLift]
  exact .liftBind fun condition _ => .bind (groupKeeps _) fun rows _ => .lift fun _ _ => trivial

theorem findKeeps (e : Entity) (r : Read) (take : Value) : rule.Keeps (fun _ => True) (c.find e r take) :=
  .calm (c.findWrites e r take)

/-- Requests as a client makes them: new rows are encoded and checked, a selector is about the entity, and the rule
allows the mutations. -/
def Permits (rule : CellRule schema) (registry : Registry Fetcher) (e : Entity) : Request → Prop
  | .createMany rows => ∀ values ∈ rows, (∃ data, e.encodeRow data = .ok values) ∧ e.checkRequired values = .ok ()
  | .update selector ms | .upsert selector _ ms =>
    (∃ v, selector.askEntity = .ok v ∧ registry.means v e = .ok true) ∧ ∀ m ∈ ms, Allows rule e m
  | .updateMany _ assignments => ∀ a ∈ assignments, rule.Assigns e a
  | .find .. | .count _ | .aggregate _ | .group _ | .create _ | .delete _ | .deleteMany _ => True

/-- Whatever comes of an operation, the rule holds afterwards. -/
theorem performKeeps (serves : rule.Serves c.registry) (mem : e ∈ schema.entities) {r : Request}
    (permits : Permits rule c.registry e r) : rule.Keeps (fun _ => True) (c.perform e r) := by
  cases r with
  | find mode r =>
    cases mode with
    | many => exact .bind (findKeeps e r _) fun _ _ => .pure trivial
    | first => exact .liftBind fun _ _ => .bind (findKeeps e r _) fun _ _ => .pure trivial
    | unique => exact .bind (findKeeps e r _) fun _ _ => .pure trivial
  | count filter => exact .bind (.calm (.liftBind fun condition _ => .count c _)) fun _ _ => .pure trivial
  | aggregate a => exact .bind (aggregateKeeps e a) fun _ _ => .pure trivial
  | group g => exact .bind (groupsKeeps e g) fun _ _ => .pure trivial
  | create creation =>
    have created : rule.Keeps (rule.Decoded e) (c.transaction fun c => c.create e creation) := by
      refine transactionKeeps fun h => ?_
      have bound : rule.Serves ({ c with handle := h } : Context).registry := serves
      exact bound.createKeeps mem creation
    exact .bind created fun _ _ => .pure trivial
  | createMany rows => exact .bind (serves.insertManyKeeps mem permits) fun _ _ => .pure trivial
  | update selector ms =>
    obtain ⟨⟨v, asked, means⟩, allows⟩ := permits
    exact .bind (serves.updateOneKeeps mem (fun other => serves.meantEntity mem asked means) allows) fun _ _ => .pure trivial
  | updateMany filter assignments => exact .bind (serves.updateManyKeeps mem filter permits) fun _ _ => .pure trivial
  | upsert selector creation ms =>
    obtain ⟨⟨v, asked, means⟩, allows⟩ := permits
    exact .bind (serves.upsertOneKeeps mem (fun other => serves.meantEntity mem asked means) allows) fun _ _ => .pure trivial
  | delete selector => exact .bind (serves.deleteOneKeeps mem selector) fun _ _ => .pure trivial
  | deleteMany filter => exact .bind (serves.deleteManyKeeps mem filter) fun _ _ => .pure trivial

end Performing

end Serves

end CellRule

end EntityQuery
