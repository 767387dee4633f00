import EntityQuery.Proofs.RelatedSetsAgain
import EntityQuery.Proofs.Sample
/-! Updates that set the rows related to the updated one: which rows refer to it afterwards, what becomes of those
that did, and that the same update once more changes nothing. -/

namespace EntityQuery

namespace Context

variable {α : Type} {c : Context} {s t : Session Store}

theorem transactionOk {work : Context → Action Store α} {a : α} (ran : (c.transaction work).runOn s = (.ok a, t)) :
    ∃ k u v, (work { c with handle := k }).runOn u = (.ok a, v) ∧ u.backend.content = s.backend.content ∧
      t.backend.content = v.backend.content := by
  obtain ⟨-, same⟩ | ⟨e, same⟩ | ⟨start, opened, same⟩ := transactionCases c work s
  · exact ⟨c.handle, s, t, same.symm.trans ran, rfl, rfl⟩
  · cases same.symm.trans ran
  · rw [same] at ran
    have begun : start.content = s.backend.content := by rw [openedTables opened]; rfl
    cases worked : (work { c with handle := .bound }).runOn (s.withBackend start) with
    | mk result v =>
      rw [worked] at ran
      cases result with
      | error e => cases ran
      | ok b =>
        cases ran
        exact ⟨.bound, s.withBackend start, v, worked, begun, rfl⟩

/-- A transaction leaves the tables as they are if its work does so wherever it is done, and if it is not rolled
back to copies that differ. -/
theorem transactionKeeps {work : Context → Action Store α}
    (keeps : ∀ k u, u.backend.content = s.backend.content → Keeps (work { c with handle := k }) u)
    (data : (∃ a, ((c.transaction work).runOn s).1 = .ok a) ∨ s.backend.HoldsData) : Keeps (c.transaction work) s := by
  unfold Keeps
  obtain ⟨-, ran⟩ | ⟨e, ran⟩ | ⟨start, opened, ran⟩ := transactionCases c work s
  · rw [ran]
    exact keeps c.handle s rfl
  · rw [ran]
  · have begun : start.content = s.backend.content := by rw [openedTables opened]; rfl
    have kept := keeps .bound (s.withBackend start) begun
    unfold Keeps at kept
    rw [ran] at data ⊢
    cases worked : (work { c with handle := .bound }).runOn (s.withBackend start) with
    | mk result v =>
      rw [worked] at data kept
      have same : v.backend.content = s.backend.content := kept.trans begun
      cases result with
      | ok a => exact same
      | error e =>
        rcases data with ⟨a, done⟩ | data
        · cases done
        · obtain ⟨columns, -⟩ := Prod.mk.inj same
          exact Prod.ext columns (Store.copiedTablesData data)

theorem requireRowKeeps (c : Context) (e : Entity) (p : Predicate) (s : Session Store) : Keeps (c.requireRow e p) s := by
  unfold requireRow
  refine Keeps.bind (lookupKeeps c p s) fun found t _ => ?_
  cases found with
  | some row => exact rfl
  | none => exact Keeps.liftBind fun _ _ => Keeps.liftBind fun _ _ => rfl

theorem requireRowOk {e : Entity} (x : Selector e) (named : c.registry.get? e.name = some e)
    (columns : Record.get? s.backend.fields e.table = some e.fields) {row : Row}
    (ran : (c.requireRow e x.predicate).runOn s = (.ok row, t)) :
    ∃ rows stored, Record.get? s.backend.tables e.table = some rows ∧ rows.find? x.picks = some stored ∧
      e.Reads stored row := by
  unfold requireRow at ran
  obtain ⟨looked, u, lookup, ran⟩ := Step.bindOk ran
  obtain ⟨rows, there, first⟩ := lookupOk x named columns lookup
  cases picked : rows.find? x.picks with
  | none =>
    rw [picked] at first
    subst first
    obtain ⟨_, _, ran⟩ := Step.liftOk ran
    obtain ⟨_, _, ran⟩ := Step.liftOk ran
    cases ran
  | some stored =>
    rw [picked] at first
    obtain ⟨decoded, rfl, reads⟩ := first
    cases ran
    exact ⟨rows, stored, there, picked, reads⟩

end Context

namespace ManyRelation

variable {registry : Registry Fetcher} {m : ManyRelation registry} {h : Handle} {s t : Session Store}
  {rows : List Row} {selector : Selector m.owner} {selectors : List (Selector m.target)} {key : Value}

theorem changeBySet (m : ManyRelation registry) (h : Handle) (row : Row) (ps : List Predicate) :
    (Context.mk registry h).change m.owner [.relation m.owner.name m.relation.name (.set ps)] row = (do
      (Context.mk registry h).setRelated (m.parent row) m.relation.name (.ok ps)
      return row : Action Store Row) := by
  have checked : m.owner.checkMutation (.relation m.owner.name m.relation.name (.set ps)) = .ok () := by
    unfold Entity.checkMutation
    change (if (some m.owner.name == some m.owner.name) = true then Except.ok () else _) = _
    rw [if_pos (beq_self_eq_true _)]
  have named : m.owner.relationNamed (.text m.relation.name) = .ok m.relation := by
    change m.owner.relation m.relation.name = _
    rw [Entity.relation, m.found]
  have many : m.relation.kind ≠ .belongsTo := by
    rw [m.many]
    decide
  have mutated : (Context.mk registry h).mutate m.owner ⟨row, []⟩
      (.relation m.owner.name m.relation.name (.set ps)) = (do
        (Context.mk registry h).setRelated (m.parent row) m.relation.name (.ok ps)
        return ⟨row, []⟩ : Action Store Context.Pending) := by
    unfold Context.mutate
    rw [checked]
    change (Context.mk registry h).mutateRelation m.owner ⟨row, []⟩ (.text m.relation.name) (.set ps) = _
    unfold Context.mutateRelation
    rw [named]
    change (if m.relation.kind = .belongsTo then _ else _) = _
    rw [if_neg many]
    rfl
  unfold Context.change Context.mutateAll
  rw [mutated]
  simp only [bind_assoc, pure_bind]
  rfl

/-- The parent that a selector finds, and its key as the rows related to it store it. -/
def IsParent (m : ManyRelation registry) (b : Store) (selector : Selector m.owner) (owner : Row) (key : Value) : Prop :=
  ∃ owners parent, Record.get? b.tables m.owner.table = some owners ∧ owners.find? selector.picks = some owner ∧
    m.owner.Reads owner parent ∧ (Row.value parent m.relation.own.field).isNothing = false ∧
      m.foreign.encode (Row.value parent m.relation.own.field) = .ok key

/-- The rows of the target before and after the rows related to the parent of a key were set: those that selectors
find refer to it and no others, those that did are detached or gone, and the rest stays. -/
structure Settles (m : ManyRelation registry) (key : Value) (selectors : List (Selector m.target))
    (before after : List Row) : Prop where
  found : ∀ x ∈ selectors, ∃ row ∈ before, x.picks row
  attached : after.filter (m.refers key) =
    (before.filter (m.selects selectors)).map fun row => Record.put row m.foreign.column key
  detached : m.relation.foreignKeyNullable → ∀ row ∈ before, m.refers key row → m.selects selectors row = false →
    Record.put row m.foreign.column .null ∈ after
  deleted : m.relation.foreignKeyNullable = false → ∀ row ∈ before, m.refers key row → m.selects selectors row = false →
    ∀ next ∈ after, Store.meets (m.primaryOf next) (m.primaryOf row) = false
  others : ∀ row ∈ before, m.refers key row = false → m.selects selectors row = false → row ∈ after

theorem placedSettles (places : Store.Places key) (distinct : Store.Distinct m.target.fields rows) {keys : List Value}
    (picks : m.Picks selectors rows keys) : m.Settles key selectors rows (rows.filterMap (m.placed key selectors)) := by
  refine ⟨?_, placedFilter places rows, ?_, ?_, ?_⟩
  · intro x mem
    obtain ⟨_, _, row, found, _⟩ := picksSelector picks x mem
    exact ⟨row, List.mem_of_find?_eq_some found, List.find?_some found⟩
  · intro nullable row mem refers unselected
    refine List.mem_filterMap.mpr ⟨row, mem, ?_⟩
    rw [placed, unselected, if_neg Bool.false_ne_true, if_pos refers, if_pos nullable]
  · intro required row mem refers unselected next inside
    by_contra equal
    obtain ⟨origin, originMem, placing⟩ := List.mem_filterMap.mp inside
    have kept : m.primaryOf next = m.primaryOf origin := placedOther m.apart placing
    rw [kept, Bool.not_eq_false] at equal
    obtain rfl := samePrimary distinct originMem mem equal
    rw [placed, unselected, if_neg Bool.false_ne_true, if_pos refers, required, if_neg Bool.false_ne_true] at placing
    cases placing
  · intro row mem unrelated unselected
    refine List.mem_filterMap.mpr ⟨row, mem, ?_⟩
    rw [placed, unselected, if_neg Bool.false_ne_true, unrelated, if_neg Bool.false_ne_true]

theorem storedSame {a b : Store} (same : b.content = a.content) (held : m.Stored a rows) : m.Stored b rows := by
  obtain ⟨columns, tables⟩ := Prod.mk.inj same
  exact ⟨columns ▸ held.ownerColumns, columns ▸ held.targetColumns, tables ▸ held.stored, held.present, held.distinct,
    held.primaries⟩

theorem updateInsideOk {row : Row} (held : m.Stored s.backend rows)
    (ran : ((Context.mk registry h).updateInside m.owner selector.predicate
      [.relation m.owner.name m.relation.name (.set (selectors.map Selector.predicate))]).runOn s = (.ok row, t)) :
    ∃ owner key, m.IsParent s.backend selector owner key ∧
      t.backend.content = (s.backend.fields, Record.replace s.backend.tables m.target.table
        (rows.filterMap (m.placed key selectors))) ∧
      Store.Distinct m.target.fields (rows.filterMap (m.placed key selectors)) ∧
      ∃ keys, m.Picks selectors rows keys := by
  unfold Context.updateInside at ran
  obtain ⟨parent, u, required, ran⟩ := Step.bindOk ran
  rw [changeBySet] at ran
  obtain ⟨_, v, setting, done⟩ := Step.bindOk ran
  obtain ⟨-, rfl⟩ := Prod.mk.inj done
  obtain ⟨owners, owner, there, found, reads⟩ :=
    Context.requireRowOk selector m.ownerNamed held.ownerColumns required
  have kept := Context.requireRowKeeps (Context.mk registry h) m.owner selector.predicate s
  unfold Keeps at kept
  rw [required] at kept
  obtain ⟨columns, tables⟩ := Prod.mk.inj kept
  obtain ⟨present, key, written, content, distinct, picks⟩ := setRelatedOk (storedSame kept held) setting
  rw [columns, tables] at content
  exact ⟨owner, key, ⟨owners, parent, there, found, reads, present, written⟩, content, distinct, picks⟩

theorem updateInsideKeeps {b : Store} {owner : Row} {keys : List Value} (held : m.Stored b rows)
    (isParent : m.IsParent b selector owner key) (places : Store.Places key) (picks : m.Picks selectors rows keys)
    (distinct : Store.Distinct m.target.fields (rows.filterMap (m.placed key selectors)))
    (content : s.backend.content =
      (b.fields, Record.replace b.tables m.target.table (rows.filterMap (m.placed key selectors))))
    (steady : m.Steady selector selectors owner key) :
    Keeps ((Context.mk registry h).updateInside m.owner selector.predicate
      [.relation m.owner.name m.relation.name (.set (selectors.map Selector.predicate))]) s := by
  obtain ⟨owners, parent, there, found, reads, -, written⟩ := isParent
  have after := storedAfter held distinct content
  have required := Context.requireRowKeeps (Context.mk registry h) m.owner selector.predicate s
  unfold Context.updateInside
  refine Keeps.bind required fun next u ran => ?_
  obtain ⟨others, again, later, foundAgain, readsAgain⟩ :=
    Context.requireRowOk selector m.ownerNamed after.ownerColumns ran
  unfold Keeps at required
  rw [ran] at required
  rw [changeBySet]
  refine Keeps.bind ?_ fun _ v _ => rfl
  refine setAgainKeeps places held.distinct picks (storedSame required after) fun other present writtenAgain => ?_
  have own := ownAgain held distinct there found content later foundAgain steady
  exact keyAgain reads readsAgain written places.1 steady own present writtenAgain

section Runs

open Sample

def following : ManyRelation ⟨[task], []⟩ where
  owner := task
  relation := next
  target := task
  own := idField
  foreign := beforeField
  ownerNamed := rfl
  targetNamed := rfl
  found := rfl
  many := rfl
  targeted := rfl
  ownFound := rfl
  foreignFound := rfl
  primaryHeld := List.mem_cons_self
  primary := rfl
  apart := by decide
  keyed := ⟨rfl, rfl⟩
  ownerNames := by decide
  targetNames := by decide
  targetColumns := by decide
  tables := fun _ => rfl

def equality (field : String) (v : Value) : Predicate := .field "Task" field (.compare .eq v) true

def settingNext (parent selected : Predicate) : Request :=
  .update parent [.relation "Task" "next" (.set [selected])]

def runNext (r : Request) (s : Session Store) : Except Failure Value × Session Store :=
  (Context.perform ⟨⟨[task], []⟩, .pooled⟩ task r).runOn s

def runTwice (r : Request) (s : Session Store) : (Except Failure Value × Session Store) × Except Failure Value × Session Store :=
  (runNext r s, runNext r (runNext r s).2)

/-- The tasks that tasks come after, where there are any. -/
def foreignKeys (tables : Store.Tables) : List (List (Option Int)) :=
  tables.map fun entry => entry.2.map fun row => Field.exactInt? (Row.value row "before_id")

def threeTasks : List Row := [taskRow (.int 1) .null .null, taskRow (.int 2) (.int 1) .null, taskRow (.int 3) .null .null]

def byId (n : Int) (holds : IntegerType.i32.holds n) : Selector task :=
  .ofWritten idField rfl rfl nofun (v := .int n) (if_pos holds) rfl

theorem storedTasks : following.Stored (tasks threeTasks).backend threeTasks where
  ownerColumns := rfl
  targetColumns := rfl
  stored := rfl
  present := by
    intro row mem
    simp only [threeTasks, List.mem_cons, List.not_mem_nil, or_false] at mem
    rcases mem with rfl | rfl | rfl <;> rfl
  distinct := by
    have first : Store.checkUnique "tasks" task.fields (taskRow (.int 1) .null .null)
        [taskRow (.int 2) (.int 1) .null, taskRow (.int 3) .null .null] = .ok () := rfl
    have second : Store.checkUnique "tasks" task.fields (taskRow (.int 2) (.int 1) .null)
        [taskRow (.int 3) .null .null] = .ok () := rfl
    exact .cons (Store.checkedUnique first) (.cons (Store.checkedUnique second) (List.pairwise_singleton _ _))
  primaries := by
    have carried : ∀ n : Int, IntegerType.i32.holds n → idField.Carries task.fields (.int n) := by
      intro n holds
      have written : idField.encode (.int n) = .ok (.int n) := if_pos holds
      exact Field.carriesWritten following.targetColumns following.primaryHeld rfl nofun written rfl
    intro row mem
    simp only [threeTasks, List.mem_cons, List.not_mem_nil, or_false] at mem
    rcases mem with rfl | rfl | rfl
    · exact carried 1 rfl
    · exact carried 2 rfl
    · exact carried 3 rfl

def numberMarks : Session Store :=
  tasks [taskRow (.int 1) .null .null, taskRow (.int 2) .null (.int 5), taskRow (.int 3) .null (.int 6)]

def selected (s : Session Store) : Session Store := s.withBackend (s.backend.record .select "tasks")

/-- Not a number is equal to both marks; the first row is set. -/
theorem setFirstMark : ∃ v t, runNext (settingNext (equality "id" (.int 1)) (equality "mark" (.number .nan))) numberMarks =
    (.ok v, t) ∧ t.backend.tables =
      [("tasks", [taskRow (.int 1) .null .null, taskRow (.int 2) (.int 1) (.int 5), taskRow (.int 3) .null (.int 6)])] := by
  let c : Context := ⟨⟨[task], []⟩, .bound⟩
  let s : Session Store := numberMarks.withBackend { numberMarks.backend with inTransaction := true }
  let first : Row := [("id", .int 1), ("before", .null), ("mark", .null)]
  let second : Row := [("id", .int 2), ("before", .null), ("mark", .int 5)]
  have required : (c.requireRow task (equality "id" (.int 1))).runOn s = (.ok first, selected s) := by
    unfold Context.requireRow
    rw [Step.runBind, Context.lookupRun rfl rfl, Store.selectOne]
    rfl
  have looked : (c.lookup (equality "mark" (.number .nan))).runOn (selected s) =
      (.ok (some second), selected (selected s)) := by
    rw [Context.lookupRun rfl rfl, Store.selectOne]
    rfl
  have related : (c.requireRelated (following.parent first) following.owned (equality "mark" (.number .nan))).runOn
      (selected s) = (.ok second, selected (selected s)) := Step.thenRun looked
  have chosen : (c.requireAll (following.parent first) following.owned [equality "mark" (.number .nan)]).runOn
      (selected s) = (.ok [second], selected (selected s)) := Step.thenRun related
  obtain ⟨t, setting, tables⟩ : ∃ t, (c.setRelated (following.parent first) "next"
      (.ok [equality "mark" (.number .nan)])).runOn (selected s) = (.ok (), t) ∧ t.backend.tables =
        [("tasks", [taskRow (.int 1) .null .null, taskRow (.int 2) (.int 1) (.int 5), taskRow (.int 3) .null (.int 6)])] := by
    change ∃ t, ((Context.mk _ .bound).setRelated (following.parent first) following.relation.name
      (.ok [equality "mark" (.number .nan)])).runOn (selected s) = (.ok (), t) ∧ _
    rw [following.setSteps, Step.thenRun chosen]
    exact ⟨_, rfl, rfl⟩
  obtain ⟨u, inside, same⟩ : ∃ u, (c.updateInside task (equality "id" (.int 1))
      [.relation "Task" "next" (.set [equality "mark" (.number .nan)])]).runOn s = (.ok first, u) ∧
        u.backend.tables = t.backend.tables := by
    unfold Context.updateInside
    rw [Step.thenRun required]
    change ∃ u, ((Context.mk _ .bound).change following.owner [.relation following.owner.name following.relation.name
      (.set [equality "mark" (.number .nan)])] first).runOn (selected s) = (.ok first, u) ∧ _
    rw [following.changeBySet]
    exact ⟨_, Step.thenRun setting, rfl⟩
  have alone : Backend.joins (⟨⟨[task], []⟩, .pooled⟩ : Context).handle numberMarks.backend = false := rfl
  refine ⟨.object first, u.withBackend (Backend.committed numberMarks.backend u.backend), ?_, same.trans tables⟩
  unfold runNext settingNext
  rw [Context.performOpening _ _ rfl, Context.transactionOpened alone rfl]
  exact congrArg (Context.settled numberMarks) (Step.thenRun inside)

def textKey : Session Store := tasks [taskRow (.int 1) .null .null, taskRow (.text "2") (.int 5) .null]

def ownNext : Session Store := tasks [taskRow (.int 1) (.int 1) .null, taskRow (.int 2) .null .null]

def keyMark : Session Store := tasks [taskRow (.int 1) .null (.key (.text "a")), taskRow (.int 2) (.int 5) .null]

end Runs

end ManyRelation

end EntityQuery
