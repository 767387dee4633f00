import EntityQuery.Proofs.Content
import EntityQuery.Proofs.OwnedRelations
import EntityQuery.Proofs.SentStatements
import Mathlib.Data.List.Forall2
/-! Relations of an entity whose key the target stores: the rows that their selectors find, and what becomes of the row that
a parent of one row has before it gets another one. -/

namespace EntityQuery

/-- A relation of an entity whose key the rows of the target store, the target being the only entity of its name. -/
structure TargetRelation (registry : Registry Fetcher) where
  owner : Entity
  owned : OwnedRelation
  keys : owned.Keys
  found : owner.relation? owned.relation.name = some owned.relation
  remote : owned.relation.ownsKey = false
  targeted : registry.get? owned.relation.target = some owned.target
  alone : ∀ e ∈ registry.entities, e.name = owned.target.name → e = owned.target

namespace Context

/-- Detach the rows that a condition finds, or refuse to where the key is not nullable. -/
def releaseCurrent (c : Context) (p : Parent) (o : OwnedRelation) (current : Condition) : Action Store Unit := do
  if o.relation.foreignKeyNullable then
    let detached ← c.writeKey o current .null
    Action.tell .db s!"Detached {detached.toText} {o.target.name} row(s) from {p.entity.name}.{o.relation.name}"
  else
    let attached ← c.count ⟨o.target.table, current⟩
    if attached.compare? (.integer 0) == some .gt then
      throw (.query (.cannotReplace p.entity.name o.relation.name o.target.name o.relation.remote.field))

variable {c : Context} {p : Parent} {o : OwnedRelation} {k : o.Keys} {s t : Session Store} {kept : Option Row}

theorem detachSteps (one : o.relation.kind = .hasOne) : (c.detachCurrent p o kept : Action Store Unit) = (do
    let related ← o.related p
    let among ← o.among kept.toList
    c.releaseCurrent p o (if kept.isNone then related else .conjunction [related, among.negation])) := by
  have single : (o.relation.kind != .hasOne) = false := by
    rw [one]
    rfl
  unfold detachCurrent
  rw [single, if_neg Bool.false_ne_true]
  refine congrArg (fun next => (liftM (o.related p) : Action Store Condition) >>= next) (funext fun related => ?_)
  cases kept with
  | none =>
    have nobody : (liftM (o.among []) : Action Store Condition) = pure (o.amongKeys []) := rfl
    rw [Option.toList_none, nobody, pure_bind]
    rfl
  | some row => exact congrArg (fun next => (liftM (o.among [row]) : Action Store Condition) >>= next) (funext fun among => rfl)

theorem detachOther (many : o.relation.kind ≠ .hasOne) : (c.detachCurrent p o kept : Action Store Unit) = pure () := by
  have several : (o.relation.kind != .hasOne) = true := by simp [many]
  unfold detachCurrent
  rw [several, if_pos rfl]

theorem amongOf {rows : List Row} {condition : Condition} (listed : o.among rows = .ok condition) :
    ∃ keys, condition = o.amongKeys keys ∧ keys.isEmpty = rows.isEmpty := by
  obtain ⟨keys, encoded, done⟩ := Results.bindOk listed
  cases done
  refine ⟨keys, rfl, ?_⟩
  cases rows with
  | nil =>
    cases encoded
    rfl
  | cons row rest =>
    change ((row :: rest).mapM fun row => o.target.primaryKey.encode (o.target.keyOf row)) = .ok keys at encoded
    rw [List.mapM_cons] at encoded
    obtain ⟨key, -, encoded⟩ := Results.bindOk encoded
    obtain ⟨others, -, encoded⟩ := Results.bindOk encoded
    cases encoded
    rfl

theorem leavingOf (k : o.Keys) {key : Value} {keys : List Value} (filled : keys.isEmpty = kept.isNone) :
    (if kept.isNone then k.related key else .conjunction [k.related key, (o.amongKeys keys).negation]) = k.leaving key keys := by
  unfold OwnedRelation.Keys.leaving
  rw [filled]

theorem detachOk (k : o.Keys) (one : o.relation.kind = .hasOne) (ran : (c.detachCurrent p o kept).runOn s = (.ok (), t)) :
    ∃ key among, k.foreign.encode (Row.value p.row o.relation.own.field) = .ok key ∧ o.among kept.toList = .ok among ∧
      (c.releaseCurrent p o (if kept.isNone then k.related key else .conjunction [k.related key, among.negation])).runOn s =
        (.ok (), t) := by
  rw [detachSteps one] at ran
  obtain ⟨condition, asked, ran⟩ := Step.liftOk ran
  obtain ⟨among, listed, ran⟩ := Step.liftOk ran
  obtain ⟨-, key, encoded, rfl⟩ := OwnedRelation.Keys.relatedOk (k := k) asked
  exact ⟨key, among, encoded, listed, ran⟩

section Released

variable {b : Store} {rows after : List Row} {current : Condition}

theorem releaseDetached (nullable : o.relation.foreignKeyNullable) (held : k.Stored b rows) (now : o.WithRows b after s.backend)
    (ran : (c.releaseCurrent p o current).runOn s = (.ok (), t)) :
    (∀ row ∈ after, ∃ truth, Store.matchesRow s.backend.tables o.target.table current row = .ok truth) ∧
      o.WithRows b (after.map (k.rewritten s.backend.tables current .null)) t.backend := by
  unfold releaseCurrent at ran
  rw [if_pos nullable] at ran
  obtain ⟨n, u, written, told⟩ := Step.bindOk ran
  obtain ⟨operand, encoded, truths, detached⟩ := OwnedRelation.Keys.writeKeyRows held now written
  obtain rfl := Field.emptied encoded
  obtain ⟨-, rfl⟩ := Prod.mk.inj told
  exact ⟨truths, detached⟩

/-- Where the key is not nullable, the rows that would lose it are counted, and one is enough to refuse. -/
theorem releaseCounts (required : o.relation.foreignKeyNullable = false)
    (stored : Record.get? s.backend.tables o.target.table = some rows)
    (truths : ∀ row ∈ rows, ∃ truth, Store.matchesRow s.backend.tables o.target.table current row = .ok truth) :
    (c.releaseCurrent p o current).runOn s =
      (if rows.any (Store.isMatch s.backend.tables o.target.table current) then
        .error (.query (.cannotReplace p.entity.name o.relation.name o.target.name o.relation.remote.field)) else .ok (),
        s.withBackend (s.backend.record .count o.target.table)) := by
  have matching : (s.backend.record .count o.target.table).matching o.target.table current =
      .ok (rows.filter (Store.isMatch s.backend.tables o.target.table current)) := by
    have read : (s.backend.record .count o.target.table).rowsOf o.target.table = .ok rows := by
      change Store.tableRows s.backend.tables o.target.table = .ok rows
      unfold Store.tableRows
      rw [stored]
    unfold Store.matching
    rw [read]
    exact Results.filterOk fun row mem => Results.eqOkValueOr false (truths row mem)
  have counted : (c.count ⟨o.target.table, current⟩).runOn s =
      (.ok (.integer (rows.filter (Store.isMatch s.backend.tables o.target.table current)).length),
        s.withBackend (s.backend.record .count o.target.table)) := by
    rw [countRun]
    unfold Store.countRows
    dsimp only
    rw [matching]
    rfl
  unfold releaseCurrent
  rw [required, if_neg Bool.false_ne_true, Step.thenRun counted]
  have some : ((Number.integer (rows.filter (Store.isMatch s.backend.tables o.target.table current)).length).compare?
      (.integer 0) == some .gt) = rows.any (Store.isMatch s.backend.tables o.target.table current) := by
    cases listed : rows.filter (Store.isMatch s.backend.tables o.target.table current) with
    | nil => exact (List.any_eq_false.mpr (List.filter_eq_nil_iff.mp listed)).symm
    | cons row rest =>
      obtain ⟨mem, matched⟩ := List.mem_filter.mp (listed ▸ List.mem_cons_self : row ∈ rows.filter _)
      exact (List.any_eq_true.mpr ⟨row, mem, matched⟩).symm
  rw [some]
  cases rows.any (Store.isMatch s.backend.tables o.target.table current) <;> rfl

/-- A release that succeeds where the key is not nullable found nobody to detach, and left everything as it was. -/
theorem releaseChecked (required : o.relation.foreignKeyNullable = false)
    (stored : Record.get? s.backend.tables o.target.table = some rows)
    (ran : (c.releaseCurrent p o current).runOn s = (.ok (), t)) :
    (∀ row ∈ rows, ∃ truth, Store.matchesRow s.backend.tables o.target.table current row = .ok truth) ∧
      (∀ row ∈ rows, Store.isMatch s.backend.tables o.target.table current row = false) ∧
        t.backend.content = s.backend.content := by
  have truths : ∀ row ∈ rows, ∃ truth, Store.matchesRow s.backend.tables o.target.table current row = .ok truth := by
    unfold releaseCurrent at ran
    rw [required, if_neg Bool.false_ne_true] at ran
    obtain ⟨n, u, counted, -⟩ := Step.bindOk ran
    rw [countRun] at counted
    obtain ⟨number, counting, -⟩ := Results.bindOk (Prod.mk.inj counted).1
    obtain ⟨kept, matching, -⟩ := Results.bindOk counting
    obtain ⟨others, read, filtered⟩ := Results.bindOk matching
    obtain rfl : others = rows := Option.some.inj ((Store.rowsOfOk read).symm.trans stored)
    exact Results.filterItems filtered
  rw [releaseCounts required stored truths] at ran
  obtain ⟨answer, rfl⟩ := Prod.mk.inj ran
  refine ⟨truths, ?_, rfl⟩
  split at answer
  · cases answer
  · rename_i nobody
    simpa using nobody

end Released

end Context

namespace TargetRelation

variable {registry : Registry Fetcher} (m : TargetRelation registry) (h : Handle)

def parent (row : Row) : Parent := ⟨m.owner, row⟩

/-- The row that a selector finds in a table: the first one that satisfies it. -/
def find (tables : Store.Tables) (rows : List Row) (selector : Predicate) : Option Row :=
  match Predicate.condition registry m.owned.target [selector] with
  | .ok condition => rows.find? (Store.isMatch tables m.owned.target.table (.conjunction [condition]))
  | .error _ => none

/-- What was read of the rows that selectors find, one for each. -/
def Finds (tables : Store.Tables) (rows : List Row) (selectors : List Predicate) (found : List Row) : Prop :=
  List.Forall₂ (fun selector decoded => ∃ row, m.find tables rows selector = some row ∧ m.owned.target.Reads row decoded)
    selectors found

variable {m h} {s t : Session Store} {rows : List Row} {row : Row} {selector : Predicate}

theorem findMem {tables : Store.Tables} (found : m.find tables rows selector = some row) : row ∈ rows := by
  unfold find at found
  split at found
  · exact List.mem_of_find?_eq_some found
  · cases found

theorem targetMeant {found : Relation × Entity} {e : Entity}
    (chosen : registry.relatedTo m.owner (.text m.owned.relation.name) selector.askEntity = .ok found)
    (meant : (Context.mk registry h).entityOf selector = .ok e) : e = m.owned.target := by
  obtain ⟨related, v, asked, means⟩ := Context.relatedToOk chosen
  obtain rfl := Except.ok.inj (related.symm.trans (Parent.relatedNamed (p := m.parent []) m.found m.targeted))
  obtain ⟨name, -, known⟩ := Context.entityAsked meant
  exact m.alone e (Registry.memOfGet known) (Context.meansNamed meant asked means)

theorem ownedOk {o : OwnedRelation} {selector : Option Predicate}
    (asked : (m.parent row).owned registry m.owned.relation.name selector = .ok o) : o = m.owned := by
  have related := Context.ownedRelated asked
  have same := Except.ok.inj (related.symm.trans (Parent.relatedNamed (p := m.parent row) m.found m.targeted))
  obtain ⟨relation, target⟩ := o
  obtain ⟨rfl, rfl⟩ := Prod.mk.inj same
  rfl

/-- What a selector of the relation is looked up in is the target; nothing is looked up for a selector that is missing. -/
theorem selectorMeant {o : OwnedRelation} {e : Entity}
    (asked : (m.parent row).owned registry m.owned.relation.name (some selector) = .ok o)
    (meant : (Context.mk registry h).entityOf selector = .ok e) : e = m.owned.target := by
  unfold Parent.owned at asked
  cases given : selector.isGiven with
  | true =>
    rw [Option.filter_some, if_pos given] at asked
    obtain ⟨found, chosen, -⟩ := Results.bindOk asked
    exact targetMeant chosen meant
  | false =>
    obtain ⟨name, named, -⟩ := Context.entityAsked meant
    cases selector with
    | foreign node =>
      cases node with
      | object members => cases given
      | _ => cases named
    | _ => cases given

section Found

variable {parent decoded : Row}

theorem requireFinds (held : m.keys.Stored s.backend rows)
    (about : ∀ e, (Context.mk registry h).entityOf selector = .ok e → e = m.owned.target)
    (ran : ((Context.mk registry h).requireRelated (m.parent parent) m.owned selector).runOn s = (.ok decoded, t)) :
    ∃ row, m.find s.backend.tables rows selector = some row ∧ m.owned.target.Reads row decoded := by
  have lookup := Context.requireRelatedOk ran
  obtain ⟨e, meant⟩ : ∃ e, (Context.mk registry h).entityOf selector = .ok e := by
    unfold Context.lookup at lookup
    obtain ⟨e, meant, -⟩ := Step.liftOk lookup
    exact ⟨e, meant⟩
  obtain rfl := about e meant
  obtain ⟨condition, others, compiled, there, first⟩ := Context.lookupFound meant held.columns lookup
  obtain rfl : others = rows := Option.some.inj (there.symm.trans held.stored)
  unfold find
  have read : Predicate.condition registry m.owned.target [selector] = .ok condition := compiled
  rw [read]
  dsimp only
  cases picked : others.find? (Store.isMatch s.backend.tables m.owned.target.table (.conjunction [condition])) with
  | none =>
    rw [picked] at first
    cases first
  | some row =>
    rw [picked] at first
    obtain ⟨found, same, reads⟩ := first
    obtain rfl := Option.some.inj same
    exact ⟨row, rfl, reads⟩

theorem requireKept
    (ran : ((Context.mk registry h).requireRelated (m.parent parent) m.owned selector).runOn s = (.ok decoded, t)) :
    t.backend.content = s.backend.content := by
  have kept := Context.requireRelatedKeeps (Context.mk registry h) (m.parent parent) m.owned selector s
  unfold Keeps at kept
  rwa [ran] at kept

theorem requireAllFinds {selectors : List Predicate} {found : List Row} (held : m.keys.Stored s.backend rows)
    (ran : ((Context.mk registry h).requireAll (m.parent parent) m.owned selectors).runOn s = (.ok found, t)) :
    m.Finds s.backend.tables rows selectors found := by
  refine (Context.requireAllOk ran).imp fun selector decoded ⟨⟨chosen, about⟩, u, v, same, one⟩ => ?_
  have finds := requireFinds (OwnedRelation.Keys.storedSame m.keys same held) (fun e meant => targetMeant about meant) one
  obtain ⟨-, tables⟩ := Prod.mk.inj same
  rwa [tables] at finds

theorem requireAllKept {selectors : List Predicate} {found : List Row}
    (ran : ((Context.mk registry h).requireAll (m.parent parent) m.owned selectors).runOn s = (.ok found, t)) :
    t.backend.content = s.backend.content := by
  have kept := Context.requireAllKeeps (Context.mk registry h) (m.parent parent) m.owned selectors s
  unfold Keeps at kept
  rwa [ran] at kept

/-- A row that is connected is found first, then others are detached, and then its key is written. -/
theorem connectOk (ran : ((Context.mk registry h).connectRelated (m.parent parent) m.owned.relation.name selector).runOn s =
      (.ok (), t)) :
    ∃ decoded u w among n, (∀ e, (Context.mk registry h).entityOf selector = .ok e → e = m.owned.target) ∧
      ((Context.mk registry h).requireRelated (m.parent parent) m.owned selector).runOn s = (.ok decoded, u) ∧
      ((Context.mk registry h).detachCurrent (m.parent parent) m.owned (some decoded)).runOn u = (.ok (), w) ∧
      m.owned.among [decoded] = .ok among ∧
      ((Context.mk registry h).writeKey m.owned among (Row.value parent m.owned.relation.own.field)).runOn w = (.ok n, t) := by
  unfold Context.connectRelated at ran
  obtain ⟨o, asked, ran⟩ := Step.liftOk ran
  obtain rfl := ownedOk asked
  obtain ⟨decoded, u, required, ran⟩ := Step.bindOk ran
  obtain ⟨_, w, detached, ran⟩ := Step.bindOk ran
  obtain ⟨among, listed, ran⟩ := Step.liftOk ran
  obtain ⟨v, keyed, ran⟩ := Step.liftOk ran
  obtain ⟨n, x, written, ran⟩ := Step.bindOk ran
  cases ran
  obtain ⟨-, rfl⟩ := Parent.keyOk keyed
  exact ⟨decoded, u, w, among, n, fun e meant => selectorMeant asked meant, required, detached, listed, written⟩

/-- Before a row is created, others are detached. -/
theorem createOk {data : Row}
    (ran : ((Context.mk registry h).createRelated (m.parent parent) m.owned.relation.name data).runOn s = (.ok (), t)) :
    ∃ w decoded, ((Context.mk registry h).detachCurrent (m.parent parent) m.owned none).runOn s = (.ok (), w) ∧
      (Row.value parent m.owned.relation.own.field).isNothing = false ∧
      ((Context.mk registry h).insertRow m.owned.target
        (Record.put data m.owned.relation.remote.field (Row.value parent m.owned.relation.own.field))).runOn w =
          (.ok decoded, t) := by
  unfold Context.createRelated at ran
  obtain ⟨o, asked, ran⟩ := Step.liftOk ran
  obtain rfl := ownedOk asked
  obtain ⟨_, w, detached, ran⟩ := Step.bindOk ran
  obtain ⟨v, keyed, ran⟩ := Step.liftOk ran
  obtain ⟨decoded, x, inserted, ran⟩ := Step.bindOk ran
  cases ran
  obtain ⟨there, rfl⟩ := Parent.keyOk keyed
  exact ⟨w, decoded, detached, there, inserted⟩

/-- Setting is for relations of many rows, and its selectors are to be read. -/
theorem setAsked {asked : Except Failure (List Predicate)}
    (ran : ((Context.mk registry h).setRelated (m.parent parent) m.owned.relation.name asked).runOn s = (.ok (), t)) :
    m.owned.relation.kind = .hasMany ∧ ∃ selectors, asked = .ok selectors := by
  unfold Context.setRelated at ran
  obtain ⟨o, asks, ran⟩ := Step.liftOk ran
  obtain rfl := ownedOk asks
  dsimp only at ran
  split at ran
  · cases ran
  · rename_i single
    obtain ⟨selectors, listed, -⟩ := Step.liftOk ran
    exact ⟨by simpa using single, selectors, listed⟩

end Found

end TargetRelation

end EntityQuery
