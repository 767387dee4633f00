import EntityQuery.Operation.Execution
import EntityQuery.Proofs.Checks
import EntityQuery.Proofs.Outcomes
import EntityQuery.Proofs.Sample
import Mathlib.Algebra.GroupWithZero.Nat
import Mathlib.Algebra.Order.BigOperators.Group.List
import Mathlib.Algebra.Order.Group.Nat
/-! The statements that reads send. A read selects once for its own rows and once for each include that it reaches, and once
more where a cursor has to be found, however many rows there are; every row that is given to a load comes back in its
place. -/

namespace EntityQuery

section Recorded

variable {α β : Type} {s : Session Store} {tables : List String}

/-- A run that sends nothing but selects, from some of the tables, in their order. -/
def Action.Selects (step : Action Store α) (s : Session Store) (tables : List String) : Prop :=
  ∃ read : List String, read.Sublist tables ∧
    (step.runOn s).2.backend.journal = s.backend.journal ++ read.map fun table => (.select, table)

namespace Action.Selects

theorem silent {step : Action Store α} (quiet : (step.runOn s).2.backend = s.backend) : step.Selects s tables :=
  ⟨[], List.nil_sublist tables, by rw [quiet, List.map_nil, List.append_nil]⟩

theorem pure (a : α) : (Pure.pure a : Action Store α).Selects s tables := silent rfl

theorem lift (r : Except Failure α) : (liftM r : Action Store α).Selects s tables := silent rfl

theorem select (c : Context) (q : Select) : (c.select q : Action Store (List Row)).Selects s [q.table] :=
  ⟨[q.table], List.Sublist.refl _, rfl⟩

theorem bind {step : Action Store α} {next : α → Action Store β} {more : List String} (first : step.Selects s tables)
    (later : ∀ a t, step.runOn s = (.ok a, t) → (next a).Selects t more) : (step >>= next).Selects s (tables ++ more) := by
  obtain ⟨read, listed, recorded⟩ := first
  unfold Selects
  rw [Step.runBind]
  generalize ran : step.runOn s = done at recorded
  obtain ⟨_ | a, t⟩ := done
  · exact ⟨read, listed.trans (List.sublist_append_left tables more), recorded⟩
  · obtain ⟨read', listed', recorded'⟩ := later a t ran
    refine ⟨read ++ read', listed.append listed', ?_⟩
    rw [recorded', recorded, List.map_append, List.append_assoc]

/-- What follows sends nothing. -/
theorem last {step : Action Store α} {next : α → Action Store β} (first : step.Selects s tables)
    (later : ∀ a t, (next a).Selects t []) : (step >>= next).Selects s tables := by
  rw [← List.append_nil tables]
  exact first.bind fun a t _ => later a t

theorem liftBind {r : Except Failure α} {next : α → Action Store β} (later : ∀ a, r = .ok a → (next a).Selects s tables) :
    (liftM r >>= next).Selects s tables := by
  cases r with
  | error e => exact lift (.error e)
  | ok a => exact later a rfl

end Action.Selects

end Recorded

/-- The tables that reading a window selects from: that of the row that its cursor names, if there is one, and that of its
rows. -/
def Window.reads (w : Window) (e : Entity) : List String := (if w.cursor.isSome then [e.table] else []) ++ [e.table]

/-- How often reading a window selects. -/
def Window.selects (w : Window) : Nat := if w.cursor.isSome then 2 else 1

theorem Window.readsLength (w : Window) (e : Entity) : (w.reads e).length = w.selects := by
  unfold reads selects
  split <;> rfl

namespace Include

mutual

/-- The includes of a tree, each before those nested in it. -/
def nodesAll : List Include → List Include
  | [] => []
  | spec :: rest => nodes spec ++ nodesAll rest
termination_by structural specs => specs

def nodes : Include → List Include
  | .mk relation filter window fields counted nested =>
    .mk relation filter window fields counted nested :: nodesAll nested
termination_by structural spec => spec

end

end Include

namespace Context

/-- What is read for one include, for all rows at once: the rows that match each of them, and those that its window
keeps. -/
structure Level where
  relation : Relation
  target : Entity
  matched : List (List Row)
  windowed : List (List Row)

namespace Level

/-- The rows that the level produced. -/
def rows (l : Level) : List Row := l.windowed.flatten

/-- Give every row its own part of the loaded rows. -/
def give (l : Level) (spec : Include) (parents : Counted) (loaded : List Row) : Counted :=
  match spec with
  | .mk relation _ _ fields counted nested =>
    (parents.zip ((Include.splitBy (l.windowed.map List.length) loaded).zip l.matched)).map fun ((row, counts), kids, all) =>
      (Record.put row relation (Include.valueOf l.relation (kids.map (Include.project fields (Include.names nested)))),
        if counted then Record.put counts relation (.nat all.length) else counts)

end Level

section Levels

variable {σ : Type} [Backend σ]

/-- Read the level of an include: fetch the related rows of all parents at once, share them out, and cut the window of
each. -/
def level (c : Context) (e : Entity) (spec : Include) (parents : Counted) : Action σ Level :=
  match spec with
  | .mk relation filter window _ _ _ => do
    let (r, target) ← c.registry.related e (.text relation)
    let values := parents.map fun p => Row.value p.1 r.own.field
    let related ← c.fetch r target values filter window
    let keyed ← Include.keyedRows r.remote.field related
    let matched ← values.mapM fun v => (Include.rowsFor keyed v : Except Failure (List Row))
    let windowed ← matched.mapM fun rows => (window.apply rows : Except Failure (List Row))
    return ⟨r, target, matched, windowed⟩

/-- Attaching an include is reading its level, loading what is nested in it for the rows of that level, and giving every
row its own part. -/
theorem attachLevel (c : Context) (e : Entity) (relation : String) (filter : List Predicate) (window : Window)
    (fields : List String) (counted : Bool) (nested : List Include) (parents : Counted) :
    (c.attach e (.mk relation filter window fields counted nested) parents : Action σ Counted) = (do
      let l ← c.level e (.mk relation filter window fields counted nested) parents
      let loaded ← c.loadIncludes l.target nested l.rows
      return l.give (.mk relation filter window fields counted nested) parents loaded) := by
  unfold attach level
  simp only [bind_assoc, pure_bind]
  refine congrArg _ (funext fun found => congrArg _ (funext fun related => congrArg _ (funext fun keyed => ?_)))
  refine congrArg _ (funext fun matched => congrArg _ (funext fun windowed => ?_))
  unfold loadIncludes Level.rows
  split
  · rfl
  · simp only [map_eq_pure_bind, bind_assoc, pure_bind]
    rfl

end Levels

variable (c : Context) {s : Session Store}

/-- An include that is reached when includes are loaded: the rows that it is loaded for, the entity of its own rows, if there
is one, and the rows that its level produced, none where it cannot be read. -/
structure Visit where
  spec : Include
  parents : List Row
  target : Option Entity
  rows : Option (List Row)

namespace Visit

/-- The tables that the level of the include selects from at most. -/
def tables (v : Visit) : List String := v.target.elim [] v.spec.window.reads

theorem tablesLength (v : Visit) : v.tables.length ≤ v.spec.window.selects := by
  unfold tables
  cases v.target with
  | none => exact Nat.zero_le _
  | some e => exact (v.spec.window.readsLength e).le

end Visit

mutual

/-- The includes that are reached when includes are attached to rows, in a store as it is. -/
def visitsAll (s : Session Store) (e : Entity) (specs : List Include) (parents : Counted) : List Visit :=
  match specs with
  | [] => []
  | spec :: rest =>
    visits s e spec parents ++ ((c.attach e spec parents : Action Store Counted).answer s).elim [] fun parents =>
      visitsAll s e rest parents
termination_by structural specs

/-- An include is reached itself, and those nested in it where its level produced rows. -/
def visits (s : Session Store) (e : Entity) (spec : Include) (parents : Counted) : List Visit :=
  match spec with
  | .mk relation filter window fields counted nested =>
    let level := (c.level e (.mk relation filter window fields counted nested) parents : Action Store Level).answer s
    ⟨.mk relation filter window fields counted nested, parents.map (·.1),
        (c.registry.related e (.text relation)).toOption.map (·.2), level.map Level.rows⟩ ::
      level.elim [] fun l => if l.rows.isEmpty then [] else visitsAll s l.target nested (l.rows.map fun row => (row, []))
termination_by structural spec

end

/-- The includes that are reached when includes are loaded for rows; for no rows, none. -/
def loadVisits (s : Session Store) (e : Entity) (specs : List Include) (rows : List Row) : List Visit :=
  if rows.isEmpty then [] else c.visitsAll s e specs (rows.map fun row => (row, []))

theorem withCursorSelects (e : Entity) (conditions : List Condition) (w : Window) (order : List OrderSpec) :
    (c.withCursor e conditions w order : Action Store _).Selects s (if w.cursor.isSome then [e.table] else []) := by
  unfold withCursor
  split
  · exact .pure _
  · rename_i cursor given
    rw [given, Option.isSome_some, if_pos rfl]
    have key : (c.cursorKey e cursor : Action Store Value).Selects s [e.table] := by
      unfold cursorKey
      refine .liftBind fun condition _ => ?_
      exact (Action.Selects.select c ⟨e.table, _, condition, _, _, _⟩).last fun rows t => .pure _
    unfold cursorCondition
    rw [bind_assoc]
    refine key.last fun v t => ?_
    split <;> exact .silent rfl

theorem readRowsSelects (e : Entity) (condition : Condition) (w : Window) :
    (c.readRows e condition w : Action Store (List Row)).Selects s (w.reads e) := by
  rw [readRowsSteps]
  refine .liftBind fun _ _ => .liftBind fun order _ => (c.withCursorSelects e _ w order).bind fun conditions t _ => ?_
  cases conditions with
  | none => exact .pure _
  | some conditions =>
    have rows : ∀ q : Select, q.table = e.table → (do
        let rows ← c.select q
        let decoded ← rows.mapM fun row => (e.decodeRow row : Except Failure Row)
        if !w.distinct.isEmpty then w.apply decoded
        else if ← w.isBackwards then return decoded.reverse
        else return decoded : Action Store (List Row)).Selects t [e.table] := by
      intro q own
      simp only [Step.mapLift]
      rw [← own]
      refine (Action.Selects.select c q).last fun rows u => .liftBind fun decoded _ => ?_
      split
      · exact .lift _
      · refine .liftBind fun backwards _ => ?_
        split <;> exact .pure _
    change (c.readWindow e w order conditions).Selects t [e.table]
    unfold readWindow
    refine .liftBind fun terms _ => ?_
    dsimp only
    split
    · exact .liftBind fun limit _ => .liftBind fun offset _ => rows _ rfl
    · rw [pure_bind, pure_bind]
      exact rows _ rfl

theorem fetchTableSelects (r : Relation) (target : Entity) (values : List Value) (filter : List Predicate) (w : Window) :
    (c.fetchTable r target values filter w : Action Store (List Row)).Selects s (w.reads target) := by
  unfold fetchTable
  simp only [Step.mapLift]
  refine .liftBind fun keys _ => ?_
  split
  · exact .pure _
  · refine .liftBind fun remote _ => .liftBind fun _ _ => .liftBind fun order _ => .liftBind fun operands _ => ?_
    refine .liftBind fun condition _ => (c.withCursorSelects _ _ w _).bind fun conditions t _ => ?_
    cases conditions with
    | none => exact .pure _
    | some conditions =>
      rw [← List.nil_append [target.table]]
      refine .bind (.silent rfl) fun _ u _ => .liftBind fun terms _ => ?_
      exact (Action.Selects.select c ⟨target.table, _, _, _, _, _⟩).last fun rows v => .lift _

theorem fetchSelects (r : Relation) (target : Entity) (values : List Value) (filter : List Predicate) (w : Window) :
    (c.fetch r target values filter w : Action Store (List Row)).Selects s (w.reads target) := by
  unfold fetch
  refine .liftBind fun fetcher _ => ?_
  split
  · exact c.fetchTableSelects r target values filter w
  · exact .silent rfl
  · exact .lift (.error _)

/-- A level is read by one fetch. -/
theorem levelSelects (e : Entity) (relation : String) (filter : List Predicate) (window : Window) (fields : List String)
    (counted : Bool) (nested : List Include) (parents : Counted) :
    (c.level e (.mk relation filter window fields counted nested) parents : Action Store Level).Selects s
      (((c.registry.related e (.text relation)).toOption.map (·.2)).elim [] window.reads) := by
  unfold level
  simp only [Step.mapLift]
  refine .liftBind fun found related => ?_
  rw [related]
  refine (c.fetchSelects found.1 found.2 _ filter window).last fun rows t => .liftBind fun keyed _ => ?_
  exact .liftBind fun matched _ => .liftBind fun windowed _ => .pure _

theorem levelWrites {may : WriteStatement → Prop} (e : Entity) (spec : Include) (parents : Counted) :
    Writes may (c.level e spec parents : Action Store Level) := by
  cases spec with
  | mk relation filter window fields counted nested =>
    unfold level
    simp only [Step.mapLift]
    refine .liftBind fun found _ => .bind (c.fetchSent _ _ _ _ _).writes fun related => .liftBind fun keyed _ => ?_
    exact .liftBind fun matched _ => .liftBind fun windowed _ => .pure _

/-- A run that writes nothing gives the answer of the store as it is, and leaves that as it was. -/
theorem ranAlike {α : Type} {step : Action Store α} (writes : Writes (fun _ => False) step) {t u : Session Store} {a : α}
    (alike : t.bare = s.bare) (ran : step.runOn t = (.ok a, u)) : step.answer s = some a ∧ u.bare = s.bare := by
  have ended : step.outcome t = some (a, u.bare) := by
    unfold Action.outcome
    rw [ran]
    rfl
  have kept := writes.outcomeKeeps ended
  rw [← writes.blind, alike, writes.blind] at ended
  unfold Action.answer
  rw [ended]
  exact ⟨rfl, kept.trans alike⟩

mutual

theorem attachAllSelects {t : Session Store} (alike : t.bare = s.bare) (e : Entity) (specs : List Include) (parents : Counted) :
    (c.attachAll e specs parents : Action Store Counted).Selects t ((c.visitsAll s e specs parents).flatMap Visit.tables) := by
  cases specs with
  | nil => exact .pure _
  | cons spec rest =>
    unfold attachAll visitsAll
    rw [List.flatMap_append]
    refine (attachSelects alike e spec parents).bind fun attached u ran => ?_
    obtain ⟨answered, alike'⟩ := ranAlike (c.attachWrites e spec parents) alike ran
    rw [answered]
    exact attachAllSelects alike' e rest attached
termination_by structural specs

/-- By induction on the tree of includes: a level is read by one fetch for all parents, and what is nested in it is
loaded for the rows that it produced. -/
theorem attachSelects {t : Session Store} (alike : t.bare = s.bare) (e : Entity) (spec : Include) (parents : Counted) :
    (c.attach e spec parents : Action Store Counted).Selects t ((c.visits s e spec parents).flatMap Visit.tables) := by
  cases spec with
  | mk relation filter window fields counted nested =>
    rw [attachLevel]
    unfold visits
    rw [List.flatMap_cons]
    refine (c.levelSelects e relation filter window fields counted nested parents).bind fun l u ran => ?_
    obtain ⟨answered, alike'⟩ := ranAlike (c.levelWrites e _ parents) alike ran
    rw [answered]
    refine .last ?_ fun loaded v => .pure _
    unfold loadIncludes
    dsimp only [Option.elim]
    split
    · exact .pure _
    · exact (attachAllSelects alike' l.target nested _).last fun loaded v => .pure _
termination_by structural spec

end

theorem loadSelects {t : Session Store} (alike : t.bare = s.bare) (e : Entity) (specs : List Include) (rows : List Row) :
    (c.loadIncludes e specs rows : Action Store (List Row)).Selects t ((c.loadVisits s e specs rows).flatMap Visit.tables) := by
  unfold loadIncludes loadVisits
  split
  · exact .pure _
  · exact (c.attachAllSelects alike e specs _).last fun loaded v => .pure _

mutual

/-- No include is reached more than once, and each is reached before those nested in it. -/
theorem visitsAllListed (e : Entity) (specs : List Include) (parents : Counted) :
    ((c.visitsAll s e specs parents).map Visit.spec).Sublist (Include.nodesAll specs) := by
  cases specs with
  | nil => exact List.Sublist.refl []
  | cons spec rest =>
    unfold visitsAll Include.nodesAll
    rw [List.map_append]
    refine (visitsListed e spec parents).append ?_
    cases (c.attach e spec parents : Action Store Counted).answer s with
    | none => exact List.nil_sublist _
    | some attached => exact visitsAllListed e rest attached
termination_by structural specs

theorem visitsListed (e : Entity) (spec : Include) (parents : Counted) :
    ((c.visits s e spec parents).map Visit.spec).Sublist (Include.nodes spec) := by
  cases spec with
  | mk relation filter window fields counted nested =>
    unfold visits Include.nodes
    refine List.Sublist.cons_cons _ ?_
    cases (c.level e (.mk relation filter window fields counted nested) parents : Action Store Level).answer s with
    | none => exact List.nil_sublist _
    | some l =>
      dsimp only [Option.elim]
      split
      · exact List.nil_sublist _
      · exact visitsAllListed l.target nested _
termination_by structural spec

end

theorem loadListed (e : Entity) (specs : List Include) (rows : List Row) :
    ((c.loadVisits s e specs rows).map Visit.spec).Sublist (Include.nodesAll specs) := by
  unfold loadVisits
  split
  · exact List.nil_sublist _
  · exact c.visitsAllListed e specs _

section Kept

/-- Rows that agree in every member but some named ones. -/
def Agree (names : List String) (parent loaded : Row × Record Value) : Prop :=
  ∀ name, name ∉ names → Record.get? loaded.1 name = Record.get? parent.1 name

theorem levelLengths {e : Entity} {spec : Include} {parents : Counted} {l : Level} {t u : Session Store}
    (ran : (c.level e spec parents : Action Store Level).runOn t = (.ok l, u)) :
    l.matched.length = parents.length ∧ l.windowed.length = parents.length := by
  cases spec with
  | mk relation filter window fields counted nested =>
    unfold level at ran
    simp only [Step.mapLift] at ran
    obtain ⟨found, -, ran⟩ := Step.liftOk ran
    obtain ⟨rows, v, -, ran⟩ := Step.bindOk ran
    obtain ⟨keyed, -, ran⟩ := Step.liftOk ran
    obtain ⟨matched, shared, ran⟩ := Step.liftOk ran
    obtain ⟨windowed, cut, ran⟩ := Step.liftOk ran
    cases ran
    have shares := (Results.mapAllPaired shared).length_eq
    have cuts := (Results.mapAllPaired cut).length_eq
    rw [List.length_map] at shares
    exact ⟨shares.symm, cuts.symm.trans shares.symm⟩

theorem splitLength {α : Type} (sizes : List Nat) (l : List α) : (Include.splitBy sizes l).length = sizes.length := by
  induction sizes generalizing l with
  | nil => rfl
  | cons n rest ih => exact congrArg (· + 1) (ih (l.drop n))

/-- Lists that are paired stay so when one is put beside the other. -/
theorem zipPaired {α β : Type} {R : α → β → Prop} {T : α → α × β → Prop} (own : ∀ x y, R x y → T x (x, y)) {l : List α} {m : List β}
    (paired : List.Forall₂ R l m) : List.Forall₂ T l (l.zip m) := by
  induction paired with
  | nil => exact .nil
  | cons here _ ih => exact .cons (own _ _ here) ih

theorem zipBeside {α β γ : Type} {R : α → β → Prop} {l : List α} {m : List β} {n : List γ} (same : n.length = m.length)
    (paired : List.Forall₂ R l m) : List.Forall₂ (fun x y => R x y.2) l (n.zip m) := by
  induction paired generalizing n with
  | nil =>
    rw [List.zip_nil_right]
    exact .nil
  | cons here _ ih =>
    cases n with
    | nil => cases same
    | cons z others => exact .cons here (ih (Nat.succ.inj same))

/-- What attaching an include makes of a row: a member of its name, and a count if the include counts. -/
def Attaches (spec : Include) (count : Nat) (parent attached : Row × Record Value) : Prop :=
  (∃ v, attached.1 = Record.put parent.1 spec.relation v) ∧
    attached.2 = if countsRows spec then Record.put parent.2 spec.relation (.nat count) else parent.2

/-- Whatever has been loaded, every row gets its own part, in its place. -/
theorem giveAttaches {l : Level} {spec : Include} {parents : Counted} {R : Row × Record Value → List Row → Prop}
    (shared : List.Forall₂ R parents l.matched) (cut : l.windowed.length = parents.length) (loaded : List Row) :
    List.Forall₂ (fun parent attached => ∃ all, R parent all ∧ Attaches spec all.length parent attached) parents
      (l.give spec parents loaded) := by
  cases spec with
  | mk relation filter window fields counted nested =>
    have parts : (Include.splitBy (l.windowed.map List.length) loaded).length = l.matched.length := by
      rw [splitLength, List.length_map, cut, shared.length_eq]
    unfold Level.give
    rw [List.forall₂_map_right_iff]
    exact zipPaired (fun parent own related => ⟨own.2, related, ⟨_, rfl⟩, rfl⟩) (zipBeside parts shared)

theorem agreeThen {names others : List String} {first next last : Counted} (begun : List.Forall₂ (Agree names) first next)
    (ended : List.Forall₂ (Agree others) next last) : List.Forall₂ (Agree (names ++ others)) first last := by
  refine Results.pairedTrans begun ended fun _ _ _ here there name apart => ?_
  rw [List.mem_append, not_or] at apart
  exact (there name apart.2).trans (here name apart.1)

theorem attachAttaches {e : Entity} {spec : Include} {parents attached : Counted} {t u : Session Store}
    (ran : (c.attach e spec parents : Action Store Counted).runOn t = (.ok attached, u)) :
    List.Forall₂ (fun parent attached => ∃ count, Attaches spec count parent attached) parents attached := by
  cases spec with
  | mk relation filter window fields counted nested =>
    rw [attachLevel] at ran
    obtain ⟨l, v, read, ran⟩ := Step.bindOk ran
    obtain ⟨loaded, w, -, ran⟩ := Step.bindOk ran
    cases ran
    obtain ⟨shared, cut⟩ := c.levelLengths read
    have matched : List.Forall₂ (fun _ _ => True) parents l.matched := List.forall₂_iff_zip.mpr ⟨shared.symm, fun _ => trivial⟩
    exact (giveAttaches matched cut loaded).imp fun _ _ ⟨all, _, attaches⟩ => ⟨all.length, attaches⟩

theorem attachKeeps {e : Entity} {spec : Include} {parents attached : Counted} {t u : Session Store}
    (ran : (c.attach e spec parents : Action Store Counted).runOn t = (.ok attached, u)) :
    List.Forall₂ (Agree [spec.relation]) parents attached := by
  refine (c.attachAttaches ran).imp fun parent attached ⟨_, ⟨v, put⟩, _⟩ name other => ?_
  rw [put]
  exact (Record.getPut parent.1 spec.relation v).2 name fun same => other (List.mem_singleton.mpr same)

/-- By induction on the includes: each puts its own member into every row, in its place. -/
theorem attachAllKeeps {e : Entity} {specs : List Include} {parents attached : Counted} {t u : Session Store}
    (ran : (c.attachAll e specs parents : Action Store Counted).runOn t = (.ok attached, u)) :
    List.Forall₂ (Agree (Include.names specs)) parents attached := by
  induction specs generalizing parents t with
  | nil =>
    cases ran
    exact List.forall₂_same.mpr fun parent _ name _ => rfl
  | cons spec rest ih =>
    unfold attachAll at ran
    obtain ⟨first, v, begun, ended⟩ := Step.bindOk ran
    exact agreeThen (c.attachKeeps begun) (ih ended)

/-- A load gives back the rows that it was given, each in its place, with the related rows and the counts beside their other
members. -/
theorem loadKeeps {e : Entity} {specs : List Include} {rows loaded : List Row} {t u : Session Store}
    (ran : (c.loadIncludes e specs rows : Action Store (List Row)).runOn t = (.ok loaded, u)) :
    List.Forall₂ (fun row loaded => ∀ name, name ∉ Include.names specs → name ≠ "_count" →
      Record.get? loaded name = Record.get? row name) rows loaded := by
  unfold loadIncludes at ran
  split at ran
  · rename_i empty
    cases ran
    rw [List.isEmpty_iff.mp empty]
    exact .nil
  · obtain ⟨attached, v, begun, ended⟩ := Step.bindOk ran
    cases ended
    unfold withCounts
    rw [List.forall₂_map_right_iff]
    have kept := c.attachAllKeeps begun
    rw [List.forall₂_map_left_iff] at kept
    refine kept.imp fun row attached agree name apart other => ?_
    dsimp only
    split
    · exact ((Record.getPut _ "_count" _).2 name other).trans (agree name apart)
    · exact agree name apart

end Kept

/-- However many rows there are at each level, an include that is reached once costs no more than its window. -/
theorem visitsCost {specs : List Include} {visits : List Visit} (listed : (visits.map Visit.spec).Sublist specs) :
    (visits.flatMap Visit.tables).length ≤ (specs.map fun spec => spec.window.selects).sum := by
  rw [List.length_flatMap]
  refine (List.sum_le_sum fun v _ => v.tablesLength).trans ?_
  rw [← Function.comp_def (fun spec : Include => spec.window.selects) Visit.spec, ← List.map_map]
  exact (listed.map _).sum_le_sum fun n _ => Nat.zero_le n

/-- Loading succeeds where attaching does, and for no rows it always does. -/
theorem loadGivenFrom {e : Entity} {specs : List Include} (rows : List Row)
    (given : ((c.attachAll e specs (rows.map fun row => (row, [])) : Action Store Counted).answer s).isSome ↔
      ∀ v ∈ c.visitsAll s e specs (rows.map fun row => (row, [])), v.rows.isSome) :
    ((c.loadIncludes e specs rows : Action Store (List Row)).answer s).isSome ↔
      ∀ v ∈ c.loadVisits s e specs rows, v.rows.isSome := by
  unfold loadIncludes loadVisits
  split
  · exact ⟨fun _ v mem => absurd mem List.not_mem_nil, fun _ => rfl⟩
  · rw [(c.attachAllWrites e specs _).answerBind fun loaded => .pure _, ← given]
    cases (c.attachAll e specs _ : Action Store Counted).answer s <;> rfl

mutual

/-- By induction on the tree: attaching succeeds exactly where every level that is reached can be read. -/
theorem attachAllGiven (e : Entity) (specs : List Include) (parents : Counted) :
    ((c.attachAll e specs parents : Action Store Counted).answer s).isSome ↔
      ∀ v ∈ c.visitsAll s e specs parents, v.rows.isSome := by
  cases specs with
  | nil => exact ⟨fun _ v mem => absurd mem List.not_mem_nil, fun _ => rfl⟩
  | cons spec rest =>
    unfold attachAll visitsAll
    rw [List.forall_mem_append, ← attachGiven e spec parents,
      (c.attachWrites e spec parents).answerBind fun attached => c.attachAllWrites e rest attached]
    cases (c.attach e spec parents : Action Store Counted).answer s with
    | none => simp
    | some attached =>
      rw [Option.bind_some, attachAllGiven e rest attached]
      simp
termination_by structural specs

theorem attachGiven (e : Entity) (spec : Include) (parents : Counted) :
    ((c.attach e spec parents : Action Store Counted).answer s).isSome ↔ ∀ v ∈ c.visits s e spec parents, v.rows.isSome := by
  cases spec with
  | mk relation filter window fields counted nested =>
    rw [attachLevel, (c.levelWrites e _ parents).answerBind fun l =>
      (c.loadIncludesWrites l.target nested l.rows).bind fun loaded => .pure _]
    unfold visits
    rw [List.forall_mem_cons]
    dsimp only
    cases (c.level e (.mk relation filter window fields counted nested) parents : Action Store Level).answer s with
    | none => simp
    | some l =>
      rw [Option.bind_some, (c.loadIncludesWrites l.target nested l.rows).answerBind fun loaded => .pure _]
      refine Iff.trans ?_ ((c.loadGivenFrom l.rows (attachAllGiven l.target nested _)).trans (by simp [loadVisits]))
      cases (c.loadIncludes l.target nested l.rows : Action Store (List Row)).answer s <;> rfl
termination_by structural spec

end

mutual

/-- An include is reached only with rows to be loaded for. -/
theorem visitsAllParents (e : Entity) (specs : List Include) {parents : Counted} (given : parents ≠ []) :
    ∀ v ∈ c.visitsAll s e specs parents, v.parents ≠ [] := by
  cases specs with
  | nil => exact fun v mem => absurd mem List.not_mem_nil
  | cons spec rest =>
    unfold visitsAll
    refine List.forall_mem_append.mpr ⟨visitsParents e spec given, ?_⟩
    cases answered : (c.attach e spec parents : Action Store Counted).answer s with
    | none => exact fun v mem => absurd mem List.not_mem_nil
    | some attached =>
      obtain ⟨⟨next, t⟩, ended, same⟩ := Option.map_eq_some_iff.mp answered
      obtain ⟨u, ran, -⟩ := Action.outcomeRan ended
      obtain rfl : next = attached := same
      refine visitsAllParents e rest fun none => given ?_
      have kept := c.attachKeeps ran
      rw [none, List.forall₂_nil_right_iff] at kept
      exact kept
termination_by structural specs

theorem visitsParents (e : Entity) (spec : Include) {parents : Counted} (given : parents ≠ []) :
    ∀ v ∈ c.visits s e spec parents, v.parents ≠ [] := by
  cases spec with
  | mk relation filter window fields counted nested =>
    unfold visits
    refine List.forall_mem_cons.mpr ⟨fun none => given (List.map_eq_nil_iff.mp none), ?_⟩
    cases (c.level e (.mk relation filter window fields counted nested) parents : Action Store Level).answer s with
    | none => exact fun v mem => absurd mem List.not_mem_nil
    | some l =>
      dsimp only [Option.elim]
      split
      · exact fun v mem => absurd mem List.not_mem_nil
      · rename_i produced
        exact visitsAllParents l.target nested fun none => produced (List.isEmpty_iff.mpr (List.map_eq_nil_iff.mp none))
termination_by structural spec

end

theorem loadParents (e : Entity) (specs : List Include) (rows : List Row) :
    ∀ v ∈ c.loadVisits s e specs rows, v.parents ≠ [] := by
  unfold loadVisits
  split
  · exact fun v mem => absurd mem List.not_mem_nil
  · rename_i given
    exact c.visitsAllParents e specs fun none => given (List.isEmpty_iff.mpr (List.map_eq_nil_iff.mp none))

end Context

/-- The window of a find: what is asked for decides how many rows it takes. -/
def Read.windowFor (r : Read) : ReadMode → Except Failure Window
  | .many => return r.window
  | .first => do
    let take : Int := if ← r.window.isBackwards then -1 else 1
    return { r.window with take := .int take }
  | .unique => return { r.window with take := .int 1 }

theorem Read.windowReads (r : Read) {mode : ReadMode} {w : Window} (taken : r.windowFor mode = .ok w) (e : Entity) :
    r.window.reads e = w.reads e := by
  cases mode with
  | many | unique =>
    cases taken
    rfl
  | first =>
    obtain ⟨backwards, -, taken⟩ := Results.bindOk taken
    cases taken
    rfl

namespace Context

variable (c : Context)

/-- The rows that a find reads before anything is loaded for them. -/
def findRows (e : Entity) (mode : ReadMode) (r : Read) : Action Store (List Row) := do
  let w ← r.windowFor mode
  let condition ← c.condition e r.filter
  c.readRows e condition w

/-- The includes that a find reaches. -/
def findVisits (s : Session Store) (e : Entity) (mode : ReadMode) (r : Read) : List Visit :=
  ((c.findRows e mode r).answer s).elim [] (c.loadVisits s e r.includes)

theorem findRowsWrites {may : WriteStatement → Prop} (e : Entity) (mode : ReadMode) (r : Read) :
    Writes may (c.findRows e mode r) := .liftBind fun w _ => .liftBind fun condition _ => c.readRowsWrites e condition w

theorem findRowsSelects {s : Session Store} (e : Entity) (mode : ReadMode) (r : Read) :
    (c.findRows e mode r).Selects s (r.window.reads e) := by
  unfold findRows
  refine .liftBind fun w taken => .liftBind fun condition _ => ?_
  rw [r.windowReads taken e]
  exact c.readRowsSelects e condition w

theorem performFind (e : Entity) (mode : ReadMode) (r : Read) :
    (c.perform e (.find mode r) : Action Store Value) = (do
      let rows ← c.findRows e mode r
      let loaded ← c.loadIncludes e r.includes rows
      return match mode with
        | .many => .array (loaded.map .object)
        | .first | .unique => firstOf loaded) := by
  cases mode with
  | many | first | unique => simp only [perform, find, findRows, Read.windowFor, bind_assoc, pure_bind, liftM_pure, liftM_bind]

/-- A find selects for its base rows and for each include that it reaches, and for each of them once more only where a cursor
has to be found; an include is reached once, and only where there are rows to load it for. A load succeeds where the levels
that it reaches can be read, and gives back the rows that it was given, each in its place. -/
theorem findSelects (e : Entity) (mode : ReadMode) (r : Read) (s : Session Store) :
    (∃ read : List String,
      ((c.perform e (.find mode r) : Action Store Value).runOn s).2.backend.journal =
        s.backend.journal ++ read.map (fun table => (StatementKind.select, table)) ∧
      read.Sublist (r.window.reads e ++ (c.findVisits s e mode r).flatMap Visit.tables) ∧
      read.length ≤ r.window.selects + ((Include.nodesAll r.includes).map fun spec => spec.window.selects).sum) ∧
    ((c.findVisits s e mode r).map Visit.spec).Sublist (Include.nodesAll r.includes) ∧
    (∀ v ∈ c.findVisits s e mode r, v.parents ≠ [] ∧ v.tables.length ≤ v.spec.window.selects) ∧
    ∀ specs rows,
      (((c.loadIncludes e specs rows : Action Store (List Row)).answer s).isSome ↔
        ∀ v ∈ c.loadVisits s e specs rows, v.rows.isSome) ∧
      ∀ loaded t, (c.loadIncludes e specs rows : Action Store (List Row)).runOn s = (.ok loaded, t) →
        List.Forall₂ (fun row loaded => ∀ name, name ∉ Include.names specs → name ≠ "_count" →
          Record.get? loaded name = Record.get? row name) rows loaded := by
  have listed : ((c.findVisits s e mode r).map Visit.spec).Sublist (Include.nodesAll r.includes) := by
    unfold findVisits
    cases (c.findRows e mode r).answer s with
    | none => exact List.nil_sublist _
    | some rows => exact c.loadListed e r.includes rows
  have parents : ∀ v ∈ c.findVisits s e mode r, v.parents ≠ [] := by
    unfold findVisits
    cases (c.findRows e mode r).answer s with
    | none => exact fun v mem => absurd mem List.not_mem_nil
    | some rows => exact c.loadParents e r.includes rows
  have selects : (c.perform e (.find mode r) : Action Store Value).Selects s
      (r.window.reads e ++ (c.findVisits s e mode r).flatMap Visit.tables) := by
    rw [performFind]
    refine (c.findRowsSelects e mode r).bind fun rows t ran => .last ?_ fun loaded u => .pure _
    obtain ⟨answered, alike⟩ := ranAlike (c.findRowsWrites e mode r) rfl ran
    unfold findVisits
    rw [answered]
    exact c.loadSelects alike e r.includes rows
  obtain ⟨read, among, recorded⟩ := selects
  refine ⟨⟨read, recorded, among, among.length_le.trans ?_⟩, listed, fun v mem => ⟨parents v mem, v.tablesLength⟩,
    fun specs rows => ⟨c.loadGivenFrom rows (c.attachAllGiven e specs _), fun loaded t ran => c.loadKeeps ran⟩⟩
  rw [List.length_append, Window.readsLength]
  exact Nat.add_le_add_left (visitsCost listed) _

open Sample in
/-- Two levels of pieces below all parts take three selects at most. -/
theorem findSelectsOfParts :
    ∃ read : List String, read.length ≤ 3 ∧
      (((Context.mk partsRegistry .pooled).perform part (.find .many ⟨[], .empty,
        [.mk "pieces" [] .empty [] true [.mk "pieces" [] .empty [] false []]]⟩) : Action Store Value).runOn (partsSession
          [partRow 1 wheel .null .null .null, partRow 2 frame (.text wheel) .null .null])).2.backend.journal =
        read.map fun table => (StatementKind.select, table) := by
  obtain ⟨⟨read, recorded, -, bounded⟩, -⟩ := findSelects ⟨partsRegistry, .pooled⟩ part .many ⟨[], .empty,
    [.mk "pieces" [] .empty [] true [.mk "pieces" [] .empty [] false []]]⟩
    (partsSession [partRow 1 wheel .null .null .null, partRow 2 frame (.text wheel) .null .null])
  exact ⟨read, bounded, recorded⟩

end Context

end EntityQuery
