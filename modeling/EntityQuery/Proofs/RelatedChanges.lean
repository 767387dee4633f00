import EntityQuery.Proofs.Insertions
import EntityQuery.Proofs.RelatedUpdates
import EntityQuery.Proofs.TargetRelations
/-! What changes of related rows leave as it is: they reach no row besides those that refer to the parent and those that
selectors find, and write nothing but the foreign key. -/

namespace EntityQuery

namespace OwnedRelation

variable {o : OwnedRelation}

namespace Keys

/-- What may become of a row: it is kept, or its foreign key is written where the row may be reached, or it goes where
it may. -/
inductive Treated (k : o.Keys) (reached gone : Row → Prop) (row : Row) : Option Row → Prop where
  | kept : Treated k reached gone row (some row)
  | written (v : Value) (touched : reached row) : Treated k reached gone row (some (Record.put row k.foreign.column v))
  | removed (left : gone row) : Treated k reached gone row none

namespace Treated

variable {k : o.Keys} {reached gone : Row → Prop} {row next : Row} {made : Option Row}

theorem moves (treated : k.Treated reached gone row made) (moved : made ≠ some row) : reached row ∨ gone row := by
  cases treated with
  | kept => exact absurd rfl moved
  | written v touched => exact .inl touched
  | removed left => exact .inr left

theorem writes (treated : k.Treated reached gone row (some next)) :
    next = row ∨ ∃ v, next = Record.put row k.foreign.column v := by
  cases treated with
  | kept => exact .inl rfl
  | written v touched => exact .inr ⟨v, rfl⟩

theorem goes (treated : k.Treated reached gone row none) : gone row := by
  cases treated with
  | removed left => exact left

end Treated

def Confined (k : o.Keys) (reached gone : Row → Prop) (rows after : List Row) : Prop :=
  ∃ f : Row → Option Row, after = rows.filterMap f ∧ ∀ row ∈ rows, k.Treated reached gone row (f row)

section Confined

variable {k : o.Keys} {reached gone : Row → Prop} {rows after : List Row} {tables : Store.Tables} {condition : Condition}

theorem confinedSelf (k : o.Keys) (reached gone : Row → Prop) (rows : List Row) : k.Confined reached gone rows rows :=
  ⟨some, List.filterMap_some.symm, fun _ _ => .kept⟩

/-- The foreign key is written of rows that were reached before, and of others that may be. -/
theorem confinedWrite (confined : k.Confined reached gone rows after) (operand : Value)
    (may : ∀ row ∈ rows, row ∈ after → Store.isMatch tables o.target.table condition row → reached row) :
    k.Confined reached gone rows (after.map (k.rewritten tables condition operand)) := by
  obtain ⟨f, rfl, each⟩ := confined
  refine ⟨fun row => (f row).map (k.rewritten tables condition operand), List.map_filterMap, fun row mem => ?_⟩
  have survives : ∀ next, f row = some next → next ∈ rows.filterMap f := fun next made => List.mem_filterMap.mpr ⟨row, mem, made⟩
  have here := each row mem
  dsimp only
  generalize f row = next at here survives
  cases here with
  | kept =>
    rw [Option.map_some, rewritten]
    split
    · rename_i matched
      exact .written operand (may row mem (survives row rfl) matched)
    · exact .kept
  | written v touched =>
    rw [Option.map_some, rewritten]
    split
    · rw [Record.putTwice]
      exact .written operand touched
    · exact .written v touched
  | removed left => exact .removed left

theorem confinedLeft (reachedBy : ∀ row, Store.isMatch tables o.target.table condition row → reached row)
    (goneBy : o.relation.foreignKeyNullable = false →
      ∀ row, Store.isMatch tables o.target.table condition row → gone row) (rows : List Row) :
    k.Confined reached gone rows (rows.filterMap (k.left tables condition)) := by
  refine ⟨k.left tables condition, rfl, fun row _ => ?_⟩
  unfold left
  split
  · rename_i matched
    cases nullable : o.relation.foreignKeyNullable with
    | true => exact .written .null (reachedBy row matched)
    | false => exact .removed (goneBy nullable row matched)
  · exact .kept

end Confined

end Keys

end OwnedRelation

namespace TargetRelation

variable {registry : Registry Fetcher} {m : TargetRelation registry} {h : Handle} {s t : Session Store} {rows : List Row}
  {selector : Predicate}

section Confined

variable {parent : Row} {selectors : List Predicate} {reached gone : Row → Prop}

/-- A row refers to a parent if its foreign key is equal to the key of the parent as it is stored. -/
def Relates (m : TargetRelation registry) (parent row : Row) : Prop :=
  ∃ key, m.keys.foreign.encode (Row.value parent m.owned.relation.own.field) = .ok key ∧ m.keys.refers key row

theorem detachConfined {kept : Option Row} {u : Session Store} (held : m.keys.Stored s.backend rows)
    (now : m.owned.WithRows s.backend rows u.backend) (may : ∀ row, m.Relates parent row → reached row)
    (ran : ((Context.mk registry h).detachCurrent (m.parent parent) m.owned kept).runOn u = (.ok (), t)) :
    ∃ after, m.owned.WithRows s.backend after t.backend ∧ m.keys.Confined reached gone rows after := by
  have unchanged := OwnedRelation.Keys.confinedSelf m.keys reached gone rows
  by_cases one : m.owned.relation.kind = .hasOne
  · obtain ⟨key, among, encoded, listed, released⟩ := Context.detachOk m.keys one ran
    obtain ⟨keys, rfl, filled⟩ := Context.amongOf listed
    have counted : keys.isEmpty = kept.isNone := by
      rw [filled]
      cases kept <;> rfl
    rw [Context.leavingOf m.keys counted] at released
    cases nullable : m.owned.relation.foreignKeyNullable with
    | true =>
      obtain ⟨-, after⟩ := Context.releaseDetached nullable held now released
      refine ⟨_, after, OwnedRelation.Keys.confinedWrite unchanged .null fun row _ _ matched => ?_⟩
      exact may row ⟨key, encoded, OwnedRelation.Keys.leavingRefers matched⟩
    | false =>
      obtain ⟨-, -, same⟩ := Context.releaseChecked nullable (OwnedRelation.Keys.withRowsStored held now) released
      exact ⟨rows, same.trans now, unchanged⟩
  · rw [Context.detachOther one] at ran
    cases ran
    exact ⟨rows, now, unchanged⟩

/-- Writing the key of the rows that selectors found reaches these rows, besides those that were reached before. -/
theorem attachConfined {found after : List Row} {among : Condition} {v : Value} {n : Number} {u : Session Store}
    (held : m.keys.Stored s.backend rows)
    (reads : m.Finds s.backend.tables rows selectors found)
    (listed : m.owned.among found = .ok among) (now : m.owned.WithRows s.backend after u.backend)
    (confined : m.keys.Confined reached gone rows after)
    (may : ∀ row, (∃ selector ∈ selectors, m.find s.backend.tables rows selector = some row) → reached row)
    (ran : ((Context.mk registry h).writeKey m.owned among v).runOn u = (.ok n, t)) :
    ∃ next, m.owned.WithRows s.backend next t.backend ∧ m.keys.Confined reached gone rows next := by
  obtain ⟨keys, rfl, named⟩ := m.keys.amongOk reads (fun _ _ => findMem) held.primaries listed
  obtain ⟨operand, -, truths, next⟩ := OwnedRelation.Keys.writeKeyRows held now ran
  refine ⟨_, next, OwnedRelation.Keys.confinedWrite confined operand fun row mem survives matched => may row ?_⟩
  exact (m.keys.amongMatch named (fun _ _ => findMem) held.distinct held.present mem rfl (truths row survives)).mp matched

/-- A row that a change of related rows may reach: it refers to the parent, or a selector finds it. -/
def Reaches (m : TargetRelation registry) (tables : Store.Tables) (rows : List Row) (parent : Row) (selectors : List Predicate)
    (row : Row) : Prop :=
  m.Relates parent row ∨ ∃ selector ∈ selectors, m.find tables rows selector = some row

theorem connectConfined (gone : Row → Prop) (held : m.keys.Stored s.backend rows)
    (ran : ((Context.mk registry h).connectRelated (m.parent parent) m.owned.relation.name selector).runOn s = (.ok (), t)) :
    ∃ after, m.owned.WithRows s.backend after t.backend ∧
      m.keys.Confined (m.Reaches s.backend.tables rows parent [selector]) gone rows after := by
  obtain ⟨decoded, u, w, among, n, about, required, detached, listed, written⟩ := connectOk ran
  have reads := requireFinds held about required
  have start : m.owned.WithRows s.backend rows u.backend := (requireKept required).trans (m.keys.withRowsSelf held)
  obtain ⟨after, now, confined⟩ : ∃ after, m.owned.WithRows s.backend after w.backend ∧
      m.keys.Confined (m.Reaches s.backend.tables rows parent [selector]) gone rows after :=
    detachConfined held start (fun row => .inl) detached
  exact attachConfined held (.cons reads .nil) listed now confined (fun row => .inr) written

/-- Emptying the key of rows that refer to the parent reaches no other ones. -/
theorem emptiedConfined {u : Session Store} {condition : Condition} {n : Number} (gone : Row → Prop)
    (held : m.keys.Stored s.backend rows) (now : m.owned.WithRows s.backend rows u.backend)
    (related : ∀ tables row, Store.isMatch tables m.owned.target.table condition row → m.Relates parent row)
    (ran : ((Context.mk registry h).writeKey m.owned condition .null).runOn u = (.ok n, t)) :
    ∃ after, m.owned.WithRows s.backend after t.backend ∧ m.keys.Confined (m.Relates parent) gone rows after := by
  obtain ⟨operand, -, -, after⟩ := OwnedRelation.Keys.writeKeyRows held now ran
  exact ⟨_, after, OwnedRelation.Keys.confinedWrite (OwnedRelation.Keys.confinedSelf m.keys _ _ rows) operand
    fun row _ _ matched => related _ row matched⟩

theorem disconnectConfined {chosen : Option Predicate} (gone : Row → Prop) (held : m.keys.Stored s.backend rows)
    (ran : ((Context.mk registry h).disconnectRelated (m.parent parent) m.owned.relation.name chosen).runOn s = (.ok (), t)) :
    ∃ after, m.owned.WithRows s.backend after t.backend ∧ m.keys.Confined (m.Relates parent) gone rows after := by
  unfold Context.disconnectRelated at ran
  obtain ⟨o, asked, ran⟩ := Step.liftOk ran
  obtain rfl := ownedOk asked
  have start := m.keys.withRowsSelf held
  dsimp only at ran
  split at ran
  · cases ran
  · obtain ⟨condition, related, ran⟩ := Step.liftOk ran
    obtain ⟨-, key, encoded, rfl⟩ := OwnedRelation.Keys.relatedOk (k := m.keys) related
    cases chosen with
    | none =>
      obtain ⟨n, x, written, ran⟩ := Step.bindOk ran
      cases ran
      refine emptiedConfined gone held start (fun tables row matched => ⟨key, encoded, ?_⟩) written
      exact OwnedRelation.Keys.relatedMatch.symm.trans matched
    | some selector =>
      obtain ⟨decoded, u, required, ran⟩ := Step.bindOk ran
      obtain ⟨only, listed, ran⟩ := Step.liftOk ran
      obtain ⟨n, x, written, ran⟩ := Step.bindOk ran
      cases ran
      obtain ⟨keys, rfl, filled⟩ := Context.amongOf listed
      refine emptiedConfined gone held ((requireKept required).trans start) (fun tables row matched => ⟨key, encoded, ?_⟩) written
      cases keys with
      | nil => cases filled
      | cons first rest => exact Store.matchedEquality matched

theorem createConfined {data : Row} (gone : Row → Prop) (held : m.keys.Stored s.backend rows)
    (ran : ((Context.mk registry h).createRelated (m.parent parent) m.owned.relation.name data).runOn s = (.ok (), t)) :
    ∃ after new, m.owned.WithRows s.backend (after ++ [new]) t.backend ∧ m.keys.Confined (m.Relates parent) gone rows after := by
  obtain ⟨w, decoded, detached, -, inserted⟩ := createOk ran
  obtain ⟨after, now, confined⟩ := detachConfined held (m.keys.withRowsSelf held) (fun row => id) detached
  obtain ⟨values, stored, new, -, there, content, -⟩ := Context.insertRowOk (m.keys.withRowsColumns held now) inserted
  obtain rfl := Option.some.inj (there.symm.trans (m.keys.withRowsStored held now))
  exact ⟨stored, new, OwnedRelation.Keys.withRowsAgain now content, confined⟩

/-- The rows that a set lets go lose their key or are dropped, and all of them refer to the parent. -/
theorem releaseConfined {found : List Row} {condition among : Condition} {u : Session Store} (held : m.keys.Stored s.backend rows)
    (now : m.owned.WithRows s.backend rows u.backend) (may : ∀ row, m.Relates parent row → reached row)
    (related : m.owned.related (m.parent parent) = .ok condition) (listed : m.owned.among found = .ok among)
    (ran : ((Context.mk registry h).releaseRelated (m.parent parent) m.owned
      (if found.isEmpty then condition else .conjunction [condition, among.negation])).runOn u = (.ok (), t)) :
    ∃ after, m.owned.WithRows s.backend after t.backend ∧ m.keys.Confined reached
      (fun row => m.Relates parent row ∧ m.owned.relation.foreignKeyNullable = false) rows after := by
  obtain ⟨keys, rfl, filled⟩ := Context.amongOf listed
  obtain ⟨-, key, encoded, rfl⟩ := OwnedRelation.Keys.relatedOk (k := m.keys) related
  have leaves : (if found.isEmpty then m.keys.related key
      else .conjunction [m.keys.related key, (m.owned.amongKeys keys).negation]) = m.keys.leaving key keys := by
    rw [← filled]
    rfl
  rw [leaves] at ran
  obtain ⟨-, after, -⟩ := Context.releaseRelatedOk (k := m.keys) (m.keys.withRowsColumns held now)
    (m.keys.withRowsStored held now) ran
  have leaver : ∀ row, Store.isMatch u.backend.tables m.owned.target.table (m.keys.leaving key keys) row →
      m.Relates parent row := fun row matched => ⟨key, encoded, OwnedRelation.Keys.leavingRefers matched⟩
  exact ⟨_, OwnedRelation.Keys.withRowsAgain now after, OwnedRelation.Keys.confinedLeft
    (fun row matched => may row (leaver row matched)) (fun required row matched => ⟨leaver row matched, required⟩) rows⟩

theorem setConfined {asked : Except Failure (List Predicate)} (held : m.keys.Stored s.backend rows)
    (ran : ((Context.mk registry h).setRelated (m.parent parent) m.owned.relation.name asked).runOn s = (.ok (), t)) :
    ∃ selectors after, asked = .ok selectors ∧ m.owned.WithRows s.backend after t.backend ∧
      m.keys.Confined (m.Reaches s.backend.tables rows parent selectors)
        (fun row => m.Relates parent row ∧ m.owned.relation.foreignKeyNullable = false) rows after := by
  obtain ⟨many, selectors, rfl⟩ := setAsked ran
  refine ⟨selectors, ?_⟩
  rw [Context.setSteps (Parent.ownedNamed (p := m.parent parent) m.found m.targeted m.remote) many] at ran
  obtain ⟨found, u, required, ran⟩ := Step.bindOk ran
  obtain ⟨v, -, ran⟩ := Step.liftOk ran
  obtain ⟨condition, related, ran⟩ := Step.liftOk ran
  obtain ⟨among, listed, ran⟩ := Step.liftOk ran
  obtain ⟨_, w, released, attached⟩ := Step.bindOk ran
  have start : m.owned.WithRows s.backend rows u.backend := (requireAllKept required).trans (m.keys.withRowsSelf held)
  obtain ⟨after, now, confined⟩ : ∃ after, m.owned.WithRows s.backend after w.backend ∧
      m.keys.Confined (m.Reaches s.backend.tables rows parent selectors)
        (fun row => m.Relates parent row ∧ m.owned.relation.foreignKeyNullable = false) rows after :=
    releaseConfined held start (fun row => .inl) related listed released
  unfold Context.attachRelated at attached
  split at attached
  · obtain ⟨n, x, written, ended⟩ := Step.bindOk attached
    cases ended
    obtain ⟨next, last, confined⟩ := attachConfined held (requireAllFinds held required) listed now confined
      (fun row => .inr) written
    exact ⟨next, rfl, last, confined⟩
  · cases attached
    exact ⟨after, rfl, now, confined⟩

end Confined

end TargetRelation

namespace RelationChange

def selectors : RelationChange → List Predicate
  | connect selector => [selector]
  | disconnect selector => selector.toList
  | set selectors => selectors
  | create _ | foreign _ => []

/-- How many rows a change adds. -/
def adds : RelationChange → Nat
  | create _ => 1
  | _ => 0

end RelationChange

namespace TargetRelation

variable {registry : Registry Fetcher} {m : TargetRelation registry} {h : Handle} {s t : Session Store} {rows : List Row}
  {parent : Row} {change : RelationChange}

/-- What a change may have made of the rows of the target, one by one, and the rows that it added. Rows that it reached
refer to the parent or are found by a selector, and disconnecting reached related rows only. Nothing was written but the
foreign key, and rows went only as related rows that a set dropped where the key is not nullable. -/
structure Framed (m : TargetRelation registry) (tables : Store.Tables) (rows : List Row) (parent : Row) (change : RelationChange)
    (f : Row → Option Row) (added : List Row) : Prop where
  reached : ∀ row ∈ rows, f row ≠ some row →
    m.Relates parent row ∨ ∃ selector ∈ change.selectors, m.find tables rows selector = some row
  disconnected : ∀ selector, change = .disconnect selector → ∀ row ∈ rows, f row ≠ some row → m.Relates parent row
  rewritten : ∀ row ∈ rows, ∀ next, f row = some next → next = row ∨ ∃ v, next = Record.put row m.keys.foreign.column v
  removed : ∀ row ∈ rows, f row = none → m.Relates parent row ∧ m.owned.relation.foreignKeyNullable = false ∧
    ∃ selectors, change = .set selectors
  counted : added.length = change.adds

theorem confinedFramed {after added : List Row} {reached gone : Row → Prop}
    (now : m.owned.WithRows s.backend (after ++ added) t.backend) (confined : m.keys.Confined reached gone rows after)
    (reaches : ∀ row, reached row → m.Reaches s.backend.tables rows parent change.selectors row)
    (parts : ∀ selector, change = .disconnect selector → ∀ row, reached row → m.Relates parent row)
    (goes : ∀ row, gone row → m.Relates parent row ∧ m.owned.relation.foreignKeyNullable = false ∧
      ∃ selectors, change = .set selectors) (counted : added.length = change.adds) :
    ∃ f added, t.backend.fields = s.backend.fields ∧
      t.backend.tables = Record.replace s.backend.tables m.owned.target.table (rows.filterMap f ++ added) ∧
        m.Framed s.backend.tables rows parent change f added := by
  obtain ⟨columns, tables⟩ := Prod.mk.inj now
  obtain ⟨f, rfl, each⟩ := confined
  have moves : ∀ row ∈ rows, f row ≠ some row → reached row ∨ gone row := fun row mem moved => (each row mem).moves moved
  refine ⟨f, added, columns, tables, fun row mem moved => ?_, fun selector parting row mem moved => ?_,
    fun row mem next made => ?_, fun row mem lost => ?_, counted⟩
  · rcases moves row mem moved with touched | left
    · exact reaches row touched
    · exact .inl (goes row left).1
  · rcases moves row mem moved with touched | left
    · exact parts selector parting row touched
    · exact (goes row left).1
  · exact (made ▸ each row mem).writes
  · exact goes row (lost ▸ each row mem).goes

/-- A change of related rows that succeeds leaves all other tables as they are, and the rows of the target but for those that
it may reach. -/
theorem changeFramed (m : TargetRelation registry) (h : Handle) (held : m.keys.Stored s.backend rows)
    (ran : ((Context.mk registry h).changeRelated (m.parent parent) m.owned.relation.name change).runOn s = (.ok (), t)) :
    ∃ f added, t.backend.fields = s.backend.fields ∧
      t.backend.tables = Record.replace s.backend.tables m.owned.target.table (rows.filterMap f ++ added) ∧
        m.Framed s.backend.tables rows parent change f added := by
  have alone : ∀ after, m.owned.WithRows s.backend after t.backend → m.owned.WithRows s.backend (after ++ []) t.backend :=
    fun after now => by rwa [List.append_nil]
  unfold Context.changeRelated at ran
  cases change with
  | connect selector =>
    obtain ⟨after, now, confined⟩ := connectConfined (fun _ => False) held ran
    exact confinedFramed (alone after now) confined (fun _ => id) nofun nofun rfl
  | disconnect selector =>
    obtain ⟨after, now, confined⟩ := disconnectConfined (fun _ => False) held ran
    exact confinedFramed (alone after now) confined (fun _ => .inl) (fun _ _ _ => id) nofun rfl
  | set selectors =>
    obtain ⟨asked, after, same, now, confined⟩ := setConfined held ran
    obtain rfl := Except.ok.inj same
    exact confinedFramed (alone after now) confined (fun _ => id) nofun
      (fun row ⟨related, required⟩ => ⟨related, required, selectors, rfl⟩) rfl
  | create data =>
    obtain ⟨after, new, now, confined⟩ := createConfined (fun _ => False) held ran
    exact confinedFramed now confined (fun _ => .inl) nofun nofun rfl
  | «foreign» operation =>
    obtain ⟨op, asked, ran⟩ := Step.liftOk ran
    have unchanged : t.backend.content = s.backend.content := by
      split at ran
      · obtain ⟨_, _, same, -⟩ := setConfined held ran
        cases same
      · cases ran
        rfl
    exact confinedFramed (alone rows (unchanged.trans (m.keys.withRowsSelf held)))
      (OwnedRelation.Keys.confinedSelf m.keys (fun _ => False) (fun _ => False) rows) nofun nofun nofun rfl

section Runs

open Sample

def followed : TargetRelation ⟨[task], []⟩ where
  owner := task
  owned := ManyRelation.following.owned
  keys := ManyRelation.following.keys
  found := rfl
  remote := rfl
  targeted := rfl
  alone := fun _ mem _ => List.mem_singleton.mp mem

def changeNext (change : RelationChange) (s : Session Store) : Except Failure Unit × Session Store :=
  ((Context.mk ⟨[task], []⟩ .pooled).changeRelated (followed.parent [("id", .int 1)]) "next" change).runOn s

theorem changeFramedOfTasks : ∃ t f added,
    changeNext (.set [ManyRelation.equality "id" (.int 3)]) (tasks ManyRelation.threeTasks) = (.ok (), t) ∧
    t.backend.tables = Record.replace (tasks ManyRelation.threeTasks).backend.tables "tasks"
      (ManyRelation.threeTasks.filterMap f ++ added) ∧
    followed.Framed (tasks ManyRelation.threeTasks).backend.tables ManyRelation.threeTasks [("id", .int 1)]
      (.set [ManyRelation.equality "id" (.int 3)]) f added := by
  have done : (changeNext (.set [ManyRelation.equality "id" (.int 3)]) (tasks ManyRelation.threeTasks)).1.isOk := by
    decide +kernel
  cases ran : changeNext (.set [ManyRelation.equality "id" (.int 3)]) (tasks ManyRelation.threeTasks) with
  | mk result t =>
    rw [ran] at done
    cases result with
    | error f => cases done
    | ok _ =>
      have held := ManyRelation.storedTasks
      obtain ⟨f, added, -, rows, framed⟩ := changeFramed followed .pooled
        ⟨held.targetColumns, held.stored, held.present, held.distinct, held.primaries⟩ ran
      exact ⟨t, f, added, rfl, rows, framed⟩

/-- A task whose primary key is stored in another form, beside the task that has this key as it is written. -/
def twoForms : List Row := [taskRow (.int 1) .null .null, taskRow (.text "2") (.int 5) .null, taskRow (.int 2) .null .null]

/-- The task that a selector finds stays as it is, and another one comes to follow the parent. -/
theorem changeReachesOther :
    Store.Distinct task.fields twoForms ∧ (∀ row ∈ twoForms, (Row.value row "id").isNothing = false) ∧
    (changeNext (.connect (ManyRelation.equality "before" (.int 5))) (tasks twoForms)).1.isOk ∧
    (followed.find (tasks twoForms).backend.tables twoForms (ManyRelation.equality "before" (.int 5))).map
      (fun row => Field.exactInt? (Row.value row "before_id")) = some (some 5) ∧
    ¬ followed.Relates [("id", .int 1)] (taskRow (.int 2) .null .null) ∧
    ManyRelation.foreignKeys (changeNext (.connect (ManyRelation.equality "before" (.int 5))) (tasks twoForms)).2.backend.tables =
      [[none, some 5, some 1]] := by
  refine ⟨?_, ?_, by decide +kernel, by decide +kernel, ?_, by decide +kernel⟩
  · have first : Store.checkUnique "tasks" task.fields (taskRow (.int 1) .null .null)
        [taskRow (.text "2") (.int 5) .null, taskRow (.int 2) .null .null] = .ok () := rfl
    have second : Store.checkUnique "tasks" task.fields (taskRow (.text "2") (.int 5) .null)
        [taskRow (.int 2) .null .null] = .ok () := rfl
    exact .cons (Store.checkedUnique first) (.cons (Store.checkedUnique second) (List.pairwise_singleton _ _))
  · intro row mem
    simp only [twoForms, List.mem_cons, List.not_mem_nil, or_false] at mem
    rcases mem with rfl | rfl | rfl <;> rfl
  · rintro ⟨key, -, refers⟩
    exact absurd (Store.meetsOk refers).1 (by decide)

end Runs

end TargetRelation

end EntityQuery
