import EntityQuery.Proofs.RowPlaces
import EntityQuery.Proofs.SoleRelated
/-! Relations of one row whose key may not be null: a parent that has a row of the relation gets no other one, and however a
change of the relation ends, each row that was there is as it was or refers to the parent. -/

namespace EntityQuery

namespace OwnedRelation.Keys

variable {o : OwnedRelation} (k : o.Keys) (key : Value)

/-- A row is as it was, or refers to the parent. -/
def Stands (row next : Row) : Prop := next = row ∨ next = Record.put row k.foreign.column key

instance : IsPreorder Row (k.Stands key) where
  refl _ := .inl rfl
  trans row middle next first second := by
    rcases first with rfl | rfl
    · exact second
    · rcases second with rfl | rfl
      · exact .inr rfl
      · exact .inr (Record.putTwice row _ key key)

theorem assignsStands (table : String) (fields : List Field) (row : Row) :
    k.Stands key row (Store.assignAll table fields row [⟨k.foreign.column, .set, key⟩] row).2 := by
  unfold Store.assignAll
  cases assigned : Store.assigned table fields row ⟨k.foreign.column, .set, key⟩ with
  | error e => exact .inl rfl
  | ok v =>
    unfold Store.assigned at assigned
    dsimp only at assigned
    split at assigned
    · cases assigned
    · cases assigned
      exact .inr rfl

variable {k key}

theorem standsRefers (places : Store.Places key) {row next : Row} (stands : k.Stands key row next)
    (refers : k.refers key row) : k.refers key next := by
  rcases stands with rfl | rfl
  · exact refers
  · exact k.refersPut places row

end OwnedRelation.Keys

namespace Context

variable (c : Context) (p : Parent) (o : OwnedRelation)

/-- What is left of connecting a row that was found, once no other row is in its way. -/
def attachFound (found : Row) : Action Store Unit := do
  let among ← o.among [found]
  let key ← p.key o.relation
  let _ ← c.writeKey o among key

def insertRelated (data : Row) : Action Store Unit := do
  let key ← p.key o.relation
  let _ ← c.insertRow o.target (Record.put data o.relation.remote.field key)

end Context

namespace TargetRelation

variable {registry : Registry Fetcher} {m : TargetRelation registry} {h : Handle} {key : Value} {parent : Row}

/-- What may be written of related rows where the key is not nullable: the key of the parent, and rows that are added. -/
def Adds (m : TargetRelation registry) (key : Value) (q : WriteStatement) : Prop :=
  (∃ condition, q = .update ⟨m.owned.target.table, [⟨m.keys.foreign.column, .set, key⟩], condition, []⟩) ∨ ∃ i, q = .insert i

theorem addsStands (q : WriteStatement) (adds : m.Adds key q) (s : Store) :
    Store.Kept m.owned.target.table (m.keys.Stands key) s.content (q.run s).2.content := by
  rcases adds with ⟨condition, rfl⟩ | ⟨i, rfl⟩
  · exact Store.keptUpdate _ s fun fields row => m.keys.assignsStands key _ fields row
  · exact Store.keptInsert i s

section Required

variable (one : m.owned.relation.kind = .hasOne) (required : m.owned.relation.foreignKeyNullable = false)

include one required

theorem detachWrites (may : WriteStatement → Prop) (p : Parent) (kept : Option Row) :
    Writes may ((Context.mk registry h).detachCurrent p m.owned kept : Action Store Unit) := by
  rw [Context.detachSteps one]
  refine .liftBind fun related _ => .liftBind fun among _ => ?_
  unfold Context.releaseCurrent
  rw [required, if_neg Bool.false_ne_true]
  exact .bind (.count _ _) fun n => .skip (.lift (.error _))

variable (written : m.keys.foreign.encode (Row.value parent m.owned.relation.own.field) = .ok key)

include written

theorem connectWrites (selector : Predicate) :
    Writes (m.Adds key) ((Context.mk registry h).connectRelated (m.parent parent) m.owned.relation.name selector :
      Action Store Unit) := by
  unfold Context.connectRelated
  refine .liftBind fun o asked => ?_
  obtain rfl := ownedOk asked
  refine .bind (Context.requireRelatedWrites _ _ _ _) fun row => .bind (detachWrites one required _ _ _) fun _ => ?_
  refine .liftBind fun condition _ => .liftBind fun v keyed => .bind ?_ fun n => .pure ()
  obtain ⟨-, rfl⟩ := Parent.keyOk keyed
  unfold Context.writeKey
  rw [m.keys.foreignKeyOk]
  refine .liftBind fun f known => ?_
  cases known
  refine .liftBind fun operand encoded => .bind (.update _ _ (.inl ⟨condition, ?_⟩)) fun w => .pure _
  obtain rfl : key = operand := Except.ok.inj (written.symm.trans encoded)
  rfl

omit written in
theorem createWrites (key : Value) (data : Row) :
    Writes (m.Adds key) ((Context.mk registry h).createRelated (m.parent parent) m.owned.relation.name data :
      Action Store Unit) := by
  unfold Context.createRelated
  refine .liftBind fun o asked => ?_
  obtain rfl := ownedOk asked
  refine .bind (detachWrites one required _ _ _) fun _ => .liftBind fun v _ => ?_
  exact .bind (Context.insertRowWrites _ _ _ fun values => .inr ⟨_, rfl⟩) fun row => .pure ()

end Required

section Guarded

variable {s u : Session Store} {rows : List Row} {selectors : List Predicate} {among : Condition}

/-- A change that is refused where something is in its way, everything being as it was, and goes on where nothing is. -/
def Guarded (m : TargetRelation registry) (p : Parent) (s : Session Store) (blocked : Prop) (change : Action Store Unit)
    (ran : Except Failure Unit × Session Store) : Prop :=
  ∃ w : Session Store, w.backend.content = s.backend.content ∧
    (blocked → ran = (.error (.query (.cannotReplace p.entity.name m.owned.relation.name m.owned.target.name
      m.owned.relation.remote.field)), w)) ∧
    (¬ blocked → ran = change.runOn w)

/-- Of each row it can be told whether a condition finds it. -/
def Tells (m : TargetRelation registry) (tables : Store.Tables) (rows : List Row) (condition : Condition) : Prop :=
  ∀ row ∈ rows, ∃ truth, Store.matchesRow tables m.owned.target.table condition row = .ok truth

theorem relatedAsked (there : (Row.value parent m.owned.relation.own.field).isNothing = false)
    (written : m.keys.foreign.encode (Row.value parent m.owned.relation.own.field) = .ok key) :
    m.owned.related (m.parent parent) = .ok (m.keys.related key) := by
  have keyed : (m.parent parent).key m.owned.relation = .ok (Row.value parent m.owned.relation.own.field) :=
    if_neg (Bool.eq_false_iff.mp there)
  unfold OwnedRelation.related
  simp only [m.keys.foreignKeyOk, keyed, written, bind, Except.bind]
  rfl

theorem detachGuarded (kept : Option Row) (held : m.keys.Stored s.backend rows) (one : m.owned.relation.kind = .hasOne)
    (required : m.owned.relation.foreignKeyNullable = false)
    (there : (Row.value parent m.owned.relation.own.field).isNothing = false)
    (written : m.keys.foreign.encode (Row.value parent m.owned.relation.own.field) = .ok key)
    (reads : m.Finds s.backend.tables rows selectors kept.toList)
    (listed : m.owned.among kept.toList = .ok among) (same : u.backend.content = s.backend.content)
    (tells : m.Tells s.backend.tables rows
      (if kept.isNone then m.keys.related key else .conjunction [m.keys.related key, among.negation]))
    (change : Action Store Unit) :
    m.Guarded (m.parent parent) s
      (∃ other ∈ rows, m.keys.refers key other ∧ ¬ ∃ selector ∈ selectors, m.find s.backend.tables rows selector = some other)
      change (((Context.mk registry h).detachCurrent (m.parent parent) m.owned kept >>= fun _ => change).runOn u) := by
  obtain ⟨-, tables⟩ := Prod.mk.inj same
  obtain ⟨keys, rfl, named⟩ := m.keys.amongOk reads (fun _ _ => findMem) held.primaries listed
  have counted := keysCounted reads named
  rw [Context.leavingOf m.keys counted] at tells
  have truths : ∀ row ∈ rows, ∃ truth,
      Store.matchesRow u.backend.tables m.owned.target.table (m.keys.leaving key keys) row = .ok truth := tables ▸ tells
  have counts := Context.releaseCounts (c := Context.mk registry h) (p := m.parent parent) required
    (m.keys.storedSame same held).stored truths
  have leaves : ∀ row ∈ rows, (Store.isMatch u.backend.tables m.owned.target.table (m.keys.leaving key keys) row ↔
      m.keys.refers key row ∧ ¬ ∃ selector ∈ selectors, m.find s.backend.tables rows selector = some row) :=
    fun row mem => OwnedRelation.Keys.leavingMatch named (fun _ _ => findMem) held.distinct held.present mem
      (truths row mem)
  have detached : ((Context.mk registry h).detachCurrent (m.parent parent) m.owned kept).runOn u =
      ((Context.mk registry h).releaseCurrent (m.parent parent) m.owned (m.keys.leaving key keys)).runOn u := by
    rw [Context.detachSteps one, relatedAsked there written, listed, ← Context.leavingOf m.keys counted]
    rfl
  rw [counts] at detached
  refine ⟨u.withBackend (u.backend.record .count m.owned.target.table), same, fun ⟨other, mem, blocks⟩ => ?_,
    fun free => ?_⟩
  · have blocked : rows.any (Store.isMatch u.backend.tables m.owned.target.table (m.keys.leaving key keys)) :=
      List.any_eq_true.mpr ⟨other, mem, (leaves other mem).mpr blocks⟩
    rw [if_pos blocked] at detached
    exact Step.stopRun detached
  · have nobody : rows.any (Store.isMatch u.backend.tables m.owned.target.table (m.keys.leaving key keys)) = false :=
      List.any_eq_false.mpr fun other mem matched => free ⟨other, mem, (leaves other mem).mp matched⟩
    rw [nobody, if_neg Bool.false_ne_true] at detached
    exact Step.thenRun detached

theorem connectGuarded {selector : Predicate} {decoded : Row} (held : m.keys.Stored s.backend rows)
    (one : m.owned.relation.kind = .hasOne) (required : m.owned.relation.foreignKeyNullable = false)
    (there : (Row.value parent m.owned.relation.own.field).isNothing = false)
    (written : m.keys.foreign.encode (Row.value parent m.owned.relation.own.field) = .ok key)
    (asked : (m.parent parent).owned registry m.owned.relation.name (some selector) = .ok m.owned)
    (finds : ((Context.mk registry h).requireRelated (m.parent parent) m.owned selector).runOn s = (.ok decoded, u))
    (listed : m.owned.among [decoded] = .ok among)
    (tells : m.Tells s.backend.tables rows (.conjunction [m.keys.related key, among.negation])) :
    m.Guarded (m.parent parent) s (∃ other ∈ rows, m.keys.refers key other ∧ m.find s.backend.tables rows selector ≠ some other)
      ((Context.mk registry h).attachFound (m.parent parent) m.owned decoded)
      (((Context.mk registry h).connectRelated (m.parent parent) m.owned.relation.name selector).runOn s) := by
  have reads := requireFinds held (fun e meant => selectorMeant asked meant) finds
  have steps : ((Context.mk registry h).connectRelated (m.parent parent) m.owned.relation.name selector).runOn s =
      ((Context.mk registry h).detachCurrent (m.parent parent) m.owned (some decoded) >>= fun _ =>
        (Context.mk registry h).attachFound (m.parent parent) m.owned decoded).runOn u := by
    unfold Context.connectRelated
    rw [asked]
    exact Step.thenRun finds
  have guarded := detachGuarded (h := h) (some decoded) held one required there written (.cons reads .nil) listed
    (requireKept finds) tells ((Context.mk registry h).attachFound (m.parent parent) m.owned decoded)
  rw [steps]
  simpa only [List.mem_singleton, exists_eq_left] using guarded

theorem createGuarded {data : Row} (held : m.keys.Stored s.backend rows) (one : m.owned.relation.kind = .hasOne)
    (required : m.owned.relation.foreignKeyNullable = false)
    (there : (Row.value parent m.owned.relation.own.field).isNothing = false)
    (written : m.keys.foreign.encode (Row.value parent m.owned.relation.own.field) = .ok key)
    (tells : m.Tells s.backend.tables rows (m.keys.related key)) :
    m.Guarded (m.parent parent) s (∃ other ∈ rows, m.keys.refers key other)
      ((Context.mk registry h).insertRelated (m.parent parent) m.owned data)
      (((Context.mk registry h).createRelated (m.parent parent) m.owned.relation.name data).runOn s) := by
  have steps : ((Context.mk registry h).createRelated (m.parent parent) m.owned.relation.name data).runOn s =
      ((Context.mk registry h).detachCurrent (m.parent parent) m.owned none >>= fun _ =>
        (Context.mk registry h).insertRelated (m.parent parent) m.owned data).runOn s := by
    unfold Context.createRelated
    rw [Parent.ownedNamed (p := m.parent parent) m.found m.targeted m.remote]
    rfl
  have guarded := detachGuarded (h := h) none held one required there written .nil rfl rfl tells
    ((Context.mk registry h).insertRelated (m.parent parent) m.owned data)
  rw [steps]
  simpa only [List.not_mem_nil, false_and, exists_false, not_false_eq_true, and_true] using guarded

/-- Rows that refer to the parent stay as its rows in their places, and the others are as they were or join them. -/
def Holds (m : TargetRelation registry) (key : Value) (rows : List Row) (t : Session Store) : Prop :=
  ∃ after, Record.get? t.backend.tables m.owned.target.table = some after ∧ Store.InPlace (m.keys.Stands key) rows after ∧
    Store.InPlace (fun row next => m.keys.refers key row → m.keys.refers key next) rows after

theorem writesHold {step : Action Store Unit} (writes : Writes (m.Adds key) step) (places : Store.Places key)
    (stored : Record.get? s.backend.tables m.owned.target.table = some rows) : m.Holds key rows (step.runOn s).2 := by
  obtain ⟨after, there, placed⟩ := writes.leaves addsStands s rows stored
  refine ⟨after, there, placed, fun i row inside => ?_⟩
  obtain ⟨next, found, stands⟩ := placed i row inside
  exact ⟨next, found, OwnedRelation.Keys.standsRefers places stands⟩

end Guarded

variable {s : Session Store} {rows : List Row}

section Runs

open Sample

def soleNext (nullable : Bool) : Relation := { next with kind := .hasOne, foreignKeyNullable := nullable }

def soleBefore (nullable : Bool) : Field := { beforeField with nullable := nullable, unique := false }

/-- Tasks of which one at most is to come after each, and has to where keys are not nullable. -/
def soleTask (nullable : Bool) : Entity :=
  { task with fields := [idField, soleBefore nullable, nameField], relations := [soleNext nullable] }

def sole (nullable : Bool) : TargetRelation ⟨[soleTask nullable], []⟩ where
  owner := soleTask nullable
  owned := ⟨soleNext nullable, soleTask nullable⟩
  keys := {
    foreign := soleBefore nullable
    foreignFound := rfl
    primaryHeld := List.mem_cons_self
    primary := rfl
    keyed := ⟨rfl, rfl⟩
    names := show ["id", "before", "name"].Nodup by decide
    columns := show ["id", "before_id", "name"].Nodup by decide }
  found := rfl
  remote := rfl
  targeted := rfl
  alone := fun _ mem _ => List.mem_singleton.mp mem

def soleRow (id before : Value) (name : String) : Row := [("id", id), ("before_id", before), ("name", .text name)]

/-- Two tasks that come after the first one, and one that comes after another. -/
def soleRows : List Row :=
  [soleRow (.int 1) (.int 5) "A", soleRow (.int 2) (.int 1) "B", soleRow (.int 3) (.int 1) "C",
    soleRow (.int 4) (.int 5) "D"]

def soleTasks (nullable : Bool) (rows : List Row) : Session Store :=
  .start
    { fields := [("tasks", (soleTask nullable).fields)], tables := [("tasks", rows)], sequences := [], journal := [],
      inTransaction := false, commits := 0, rollbacks := 0 }

theorem storedSole (nullable : Bool) : (sole nullable).keys.Stored (soleTasks nullable soleRows).backend soleRows where
  columns := rfl
  stored := rfl
  present := by
    intro row mem
    simp only [soleRows, List.mem_cons, List.not_mem_nil, or_false] at mem
    rcases mem with rfl | rfl | rfl | rfl <;> rfl
  distinct := by
    have first : Store.checkUnique "tasks" (soleTask nullable).fields (soleRow (.int 1) (.int 5) "A")
        [soleRow (.int 2) (.int 1) "B", soleRow (.int 3) (.int 1) "C", soleRow (.int 4) (.int 5) "D"] = .ok () := rfl
    have second : Store.checkUnique "tasks" (soleTask nullable).fields (soleRow (.int 2) (.int 1) "B")
        [soleRow (.int 3) (.int 1) "C", soleRow (.int 4) (.int 5) "D"] = .ok () := rfl
    have third : Store.checkUnique "tasks" (soleTask nullable).fields (soleRow (.int 3) (.int 1) "C")
        [soleRow (.int 4) (.int 5) "D"] = .ok () := rfl
    exact .cons (Store.checkedUnique first) (.cons (Store.checkedUnique second) (.cons (Store.checkedUnique third)
      (List.pairwise_singleton _ _)))
  primaries := by
    have carried : ∀ n : Int, IntegerType.i32.holds n → idField.Carries (soleTask nullable).fields (.int n) := by
      intro n holds
      have written : idField.encode (.int n) = .ok (.int n) := if_pos holds
      exact Field.carriesWritten (sole nullable).keys.columns (sole nullable).keys.primaryHeld rfl nofun written rfl
    intro row mem
    simp only [soleRows, List.mem_cons, List.not_mem_nil, or_false] at mem
    rcases mem with rfl | rfl | rfl | rfl
    · exact carried 1 rfl
    · exact carried 2 rfl
    · exact carried 3 rfl
    · exact carried 4 rfl

theorem writtenSole (nullable : Bool) :
    (sole nullable).keys.foreign.encode (Row.value [("id", .int 1)] (sole nullable).owned.relation.own.field) = .ok (.int 1) :=
  rfl

def connectNext (nullable : Bool) (selector : Predicate) (s : Session Store) : Except Failure Unit × Session Store :=
  ((Context.mk ⟨[soleTask nullable], []⟩ .pooled).connectRelated ((sole nullable).parent [("id", .int 1)]) "next"
    selector).runOn s

def createNext (nullable : Bool) (data : Row) (s : Session Store) : Except Failure Unit × Session Store :=
  ((Context.mk ⟨[soleTask nullable], []⟩ .pooled).createRelated ((sole nullable).parent [("id", .int 1)]) "next" data).runOn s

/-- A task that is found, whose primary key is stored in another form than it is written in. -/
def otherForm : List Row := [soleRow (.int 1) .null "A", soleRow (.text "2") (.int 5) "B"]

end Runs

end TargetRelation

end EntityQuery
