import EntityQuery.Proofs.OwnRow
import EntityQuery.Proofs.ReturnedRows
/-! Lookups while assignments of a row wait to be written: a lookup that neither asks for nor reads a column that is
assigned to finds the same before they are written and after. -/

namespace EntityQuery

namespace Entity

variable {e : Entity}

/-- The relation that a mutation is about, and the change of it, if the related rows store its key. -/
def related? (e : Entity) (m : Mutation) : Option (Relation × RelationChange) :=
  match m.relation? with
  | none => none
  | some (relation, change) =>
    match e.relationNamed relation with
    | .ok r => if r.kind = .belongsTo then none else some (r, change)
    | .error _ => none

/-- The assignments that a mutation may make of its row. -/
def Makes (e : Entity) (m : Mutation) (a : Assignment) : Prop :=
  match m.relation? with
  | none => e.assignmentOf m = .ok a
  | some (relation, _) => ∃ r key w, e.relationNamed relation = .ok r ∧ e.field r.own.field = .ok key ∧
      a = ⟨key.column, .set, w⟩ ∧ (w = .null ∨ ∃ v, key.encode v = .ok w)

/-- Sessions that differ in certain columns of one row of a table. -/
structure Differs (e : Entity) (columns : List String) (s t : Session Store) : Prop where
  fields : t.backend.fields = s.backend.fields
  others : ∀ table, table ≠ e.table → Record.get? t.backend.tables table = Record.get? s.backend.tables table
  row : ∃ before stored next after row out, e.Stands s before stored after row ∧ e.Stands t before next after out ∧
    ∀ column, column ∉ columns → Row.value next column = Row.value stored column

theorem Differs.symm {columns : List String} {s t : Session Store} (differs : e.Differs columns s t) : e.Differs columns t s := by
  obtain ⟨before, stored, next, after, row, out, stands, stands', agree⟩ := differs.row
  exact ⟨differs.fields.symm, fun table apart => (differs.others table apart).symm,
    before, next, stored, after, out, row, stands', stands, fun column outside => (agree column outside).symm⟩

theorem Stands.differs {columns : List String} {s : Session Store} {before after : List Row} {stored row next out : Row}
    {assignments : List Assignment} (stands : e.Stands s before stored after row)
    (made : e.rewritten (before ++ after) stored assignments = some (next, out))
    (inside : ∀ a ∈ assignments, a.column ∈ columns) : e.Differs columns s (e.placed s (before ++ next :: after)) := by
  refine ⟨rfl, fun table apart => Record.get?_replace_of_ne apart,
    before, stored, next, after, row, out, stands, stands.next made, fun column outside => ?_⟩
  obtain ⟨assigned, -, -⟩ := rewrittenIff.mp made
  have same : Row.value (Store.assignAll e.table e.fields stored assignments stored).2 column = Row.value stored column :=
    Store.assignedOther stored stored fun a mem equal => outside (equal ▸ inside a mem)
  rwa [assigned] at same

end Entity

namespace Context

variable (c : Context) {e : Entity} {s t : Session Store}

/-- The assignment that a mutation makes of its row. -/
def assigns (c : Context) (e : Entity) (m : Mutation) : Action Store Assignment := do
  e.checkMutation m
  match m.relation? with
  | none => e.assignmentOf m
  | some (relation, change) => c.ownKeyAssignment e (← e.relationNamed relation) change

theorem assignsWrites (e : Entity) (m : Mutation) : Writes (fun _ => False) (c.assigns e m) := by
  unfold assigns
  refine .liftBind fun _ _ => ?_
  split
  · exact .lift _
  · exact .liftBind fun r _ => c.ownKeyAssignmentWrites e r _

theorem mutateForm (e : Entity) (p : Pending) (m : Mutation) : (c.mutate e p m : Action Store Pending) = (do
    e.checkMutation m
    match m.relation? with
    | none => c.addAssignment e p (← e.assignmentOf m)
    | some (relation, change) => c.mutateRelation e p relation change) := by
  unfold mutate
  refine congrArg _ (funext fun _ => ?_)
  cases m with
  | field _ _ _ _ | relation _ _ _ => rfl
  | foreign node =>
    dsimp only
    split
    · rename_i kind
      have about : (Mutation.foreign node).relation? = none := by
        unfold Mutation.relation?
        dsimp only
        rw [kind]
        rfl
      rw [about]
    · rename_i other
      have about : (Mutation.foreign node).relation? = some (node.member "relation", .ofValue (node.member "operation")) := by
        unfold Mutation.relation?
        dsimp only
        split
        · rename_i same
          exact (other same).elim
        · rfl
      rw [about]

/-- A mutation of no related rows makes an assignment, which is added to those that wait. -/
theorem mutateOwn {m : Mutation} (own : e.related? m = none) (p : Pending) :
    (c.mutate e p m : Action Store Pending) = c.assigns e m >>= c.addAssignment e p := by
  rw [mutateForm]
  unfold assigns
  rw [bind_assoc]
  refine congrArg _ (funext fun _ => ?_)
  unfold Entity.related? at own
  cases about : m.relation? with
  | none => rfl
  | some asked =>
    obtain ⟨relation, change⟩ := asked
    rw [about] at own
    dsimp only at own ⊢
    unfold mutateRelation
    rw [bind_assoc]
    cases named : e.relationNamed relation with
    | error f => rfl
    | ok r =>
      rw [named] at own
      dsimp only at own
      split at own
      · rename_i belongs
        change (if r.kind = .belongsTo then _ else _) = _
        rw [if_pos belongs]
        rfl
      · cases own

/-- A mutation of related rows comes after what waits has been written. -/
theorem mutateRelated {m : Mutation} {r : Relation} {change : RelationChange} (related : e.related? m = some (r, change))
    (p : Pending) : (c.mutate e p m : Action Store Pending) = (do
      e.checkMutation m
      let p ← c.flush e p
      c.changeRelated ⟨e, p.row⟩ r.name change
      return p) := by
  rw [mutateForm]
  refine congrArg _ (funext fun _ => ?_)
  unfold Entity.related? at related
  split at related
  · cases related
  · rename_i relation change' about
    split at related
    · rename_i r' named
      split at related
      · cases related
      · rename_i others
        cases related
        unfold mutateRelation
        rw [named]
        change (if r.kind = .belongsTo then _ else _) = _
        rw [if_neg others]
    · cases related

theorem assignsMakes {m : Mutation} {a : Assignment} (ran : (c.assigns e m).answer s = some a) : e.Makes m a := by
  obtain ⟨⟨a', t⟩, ended, rfl⟩ := Option.map_eq_some_iff.mp ran
  obtain ⟨u, ran, -⟩ := Action.outcomeRan ended
  unfold assigns at ran
  obtain ⟨_, -, ran⟩ := Step.liftOk ran
  unfold Entity.Makes
  cases about : m.relation? with
  | none =>
    rw [about] at ran
    exact (Prod.mk.inj ran).1
  | some asked =>
    obtain ⟨relation, change⟩ := asked
    rw [about] at ran
    obtain ⟨r, named, ran⟩ := Step.liftOk ran
    unfold ownKeyAssignment at ran
    obtain ⟨key, keyed, ran⟩ := Step.liftOk ran
    split at ran
    · obtain ⟨_, -, ran⟩ := Step.liftOk ran
      obtain ⟨found, v, -, ran⟩ := Step.bindOk ran
      split at ran
      · obtain ⟨_, -, ran⟩ := Step.liftOk ran
        cases ran
      · obtain ⟨w, encodes, ran⟩ := Step.liftOk ran
        cases ran
        exact ⟨r, key, w, named, keyed, rfl, .inr ⟨_, encodes⟩⟩
    · split at ran
      · cases ran
        exact ⟨r, key, .null, named, keyed, rfl, .inl rfl⟩
      · cases ran
    · obtain ⟨_, -, ran⟩ := Step.liftOk ran
      obtain ⟨_, -, ran⟩ := Step.liftOk ran
      cases ran

theorem answerRun {α : Type} (step : Action Store α) (s : Session Store) : step.answer s = (step.runOn s).1.toOption := by
  unfold Action.answer Action.outcome
  rcases step.runOn s with ⟨_ | a, t⟩ <;> rfl

theorem answerRan {α : Type} {step : Action Store α} {s : Session Store} {a : α} (answered : step.answer s = some a) :
    ∃ u, step.runOn s = (.ok a, u) := by
  rw [answerRun] at answered
  generalize step.runOn s = ran at answered ⊢
  obtain ⟨_ | b, u⟩ := ran <;> cases answered
  exact ⟨u, rfl⟩

/-- A lookup succeeds where every row can be compared and the first one that is picked, if there is one, can be read. -/
theorem lookupAnswers (x : Selector e) (named : c.registry.get? e.name = some e)
    (columns : Record.get? s.backend.fields e.table = some e.fields) {rows : List Row}
    (there : Record.get? s.backend.tables e.table = some rows) {found : Option Row} :
    (c.lookup x.predicate).answer s = some found ↔
      (∀ row ∈ rows, ∃ b, Store.equals (Row.value row x.field.column) x.operand = .ok b) ∧
        match rows.find? x.picks with
        | none => found = none
        | some stored => ∃ row, found = some row ∧ e.read stored = .ok row := by
  have meant : c.entityOf x.predicate = .ok e := entityMeant named
  have compiled : c.condition e [x.predicate] = .ok (.compare ⟨e.table, x.field.column⟩ (.of .eq) x.operand) :=
    Predicate.equalityCompiles x.found x.given
  have ran : (c.lookup x.predicate).answer s = (do
      let found ← s.backend.selectRows
        ⟨e.table, e.columns, .compare ⟨e.table, x.field.column⟩ (.of .eq) x.operand, [], .int 1, .null⟩
      return (← found.mapM fun row => e.decodeRow row).head? : Except Failure (Option Row)).toOption := by
    rw [answerRun, lookupRun meant compiled]
    rfl
  have truth : ∀ row, Store.matchesRow s.backend.tables e.table (.compare ⟨e.table, x.field.column⟩ (.of .eq) x.operand) row =
      Store.equals (Row.value row x.field.column) x.operand := Store.matchesCompare _ _ _ _
  rw [ran]
  constructor
  · intro answered
    obtain ⟨u, answer⟩ : ∃ u, (c.lookup x.predicate).runOn s = (.ok found, u) := by
      rw [← ran] at answered
      obtain ⟨⟨_, t⟩, ended, rfl⟩ := Option.map_eq_some_iff.mp answered
      obtain ⟨u, done, -⟩ := Action.outcomeRan ended
      exact ⟨u, done⟩
    obtain ⟨rows', there', first⟩ := lookupOk x named columns answer
    obtain rfl := Option.some.inj (there'.symm.trans there)
    refine ⟨fun row mem => ?_, ?_⟩
    · rw [lookupRun meant compiled] at answer
      obtain ⟨selected, selecting, -⟩ := Results.bindOk (Prod.mk.inj answer).1
      rw [Store.selectOne] at selecting
      obtain ⟨kept, matching, -⟩ := Results.bindOk selecting
      obtain ⟨stored, known, filtered⟩ := Results.bindOk matching
      obtain rfl := Option.some.inj ((Store.rowsOfOk known).symm.trans there)
      obtain ⟨b, decided⟩ := Results.filterItems filtered row mem
      exact ⟨b, (truth row).symm.trans decided⟩
    · cases picked : rows'.find? x.picks with
      | none =>
        rw [picked] at first
        exact first
      | some stored =>
        rw [picked] at first
        obtain ⟨decoded, rfl, reads⟩ := first
        exact ⟨decoded, rfl, Entity.readsRead reads⟩
  · rintro ⟨truths, first⟩
    have decided : ∀ row ∈ rows, Store.matchesRow s.backend.tables e.table
        (.compare ⟨e.table, x.field.column⟩ (.of .eq) x.operand) row = .ok (x.picks row) := by
      intro row mem
      rw [truth]
      exact Results.eqOkValueOr false (truths row mem)
    rw [Store.selectDecided columns there decided]
    split at first
    · rename_i none
      rw [none, first]
      rfl
    · rename_i stored picked
      obtain ⟨row, rfl, read⟩ := first
      obtain ⟨out, projected, decodes⟩ := Results.bindOk read
      rw [picked, Option.toList_some, List.mapM_cons, List.mapM_nil, projected]
      change (do return (← [out].mapM fun row => e.decodeRow row).head? : Except Failure (Option Row)).toOption = _
      rw [List.mapM_cons, List.mapM_nil, decodes]
      rfl

theorem liftAnswer {α : Type} (r : Except Failure α) (s : Session Store) : (liftM r : Action Store α).answer s = r.toOption := by
  cases r <;> rfl

section Replaced

variable {before after : List Row} {stored next row out : Row}

/-- A lookup in a table of which one row has been rewritten, but not in the column that is asked for, finds the same as
before, up to columns that were rewritten. -/
theorem lookupReplaced (x : Selector e) (named : c.registry.get? e.name = some e) (names : (e.fields.map (·.name)).Nodup)
    (columns : Record.get? s.backend.fields e.table = some e.fields) (columns' : Record.get? t.backend.fields e.table = some e.fields)
    (rows : Record.get? s.backend.tables e.table = some (before ++ stored :: after))
    (rows' : Record.get? t.backend.tables e.table = some (before ++ next :: after))
    (reads : e.read stored = .ok row) (reads' : e.read next = .ok out)
    (asked : Row.value next x.field.column = Row.value stored x.field.column)
    {f : Field} (mem : f ∈ e.fields) (same : Row.value next f.column = Row.value stored f.column) {found : Option Row}
    (ran : (c.lookup x.predicate).answer s = some found) :
    ∃ found', (c.lookup x.predicate).answer t = some found' ∧
      found'.map (Row.value · f.name) = found.map (Row.value · f.name) := by
  obtain ⟨truths, first⟩ := (c.lookupAnswers x named columns rows).mp ran
  have picks : x.picks next = x.picks stored := by
    unfold Selector.picks
    rw [asked]
  have truths' : ∀ row ∈ before ++ next :: after, ∃ b, Store.equals (Row.value row x.field.column) x.operand = .ok b := by
    intro row mem
    rcases List.mem_append.mp mem with old | later
    · exact truths row (List.mem_append_left _ old)
    · rcases List.mem_cons.mp later with rfl | new
      · rw [asked]
        exact truths stored (List.mem_append_right _ List.mem_cons_self)
      · exact truths row (List.mem_append_right _ (List.mem_cons_of_mem _ new))
  have values : Row.value out f.name = Row.value row f.name := by
    obtain ⟨raw, returned, decodes⟩ := Entity.readsValue names (Entity.readReads reads) mem
    obtain ⟨raw', returned', decodes'⟩ := Entity.readsValue names (Entity.readReads reads') mem
    rw [same, returned] at returned'
    obtain rfl := Except.ok.inj returned'
    exact Except.ok.inj (decodes'.symm.trans decodes)
  rw [List.find?_append] at first
  cases early : before.find? x.picks with
  | some other =>
    rw [early] at first
    refine ⟨found, (c.lookupAnswers x named columns' rows').mpr ⟨truths', ?_⟩, rfl⟩
    rw [List.find?_append, early]
    exact first
  | none =>
    rw [early] at first
    cases picked : x.picks stored with
    | true =>
      rw [Option.none_or, List.find?_cons_of_pos picked] at first
      obtain ⟨row', rfl, read⟩ := first
      obtain rfl := Except.ok.inj (reads.symm.trans read)
      refine ⟨some out, (c.lookupAnswers x named columns' rows').mpr ⟨truths', ?_⟩, congrArg some values⟩
      rw [List.find?_append, early, Option.none_or, List.find?_cons_of_pos (picks.trans picked)]
      exact ⟨out, rfl, reads'⟩
    | false =>
      have missed : ¬x.picks stored = true := by simp [picked]
      have missed' : ¬x.picks next = true := by simp [picks, picked]
      rw [Option.none_or, List.find?_cons_of_neg missed] at first
      refine ⟨found, (c.lookupAnswers x named columns' rows').mpr ⟨truths', ?_⟩, rfl⟩
      rw [List.find?_append, early, Option.none_or, List.find?_cons_of_neg missed']
      exact first

end Replaced

/-- Does a lookup that a mutation makes neither ask for nor read one of certain columns of the table of its row? -/
def LooksPast (c : Context) (e : Entity) (columns : List String) (m : Mutation) : Prop :=
  ∀ relation selector r, m.relation? = some (relation, .connect selector) → e.relationNamed relation = .ok r →
    r.kind = .belongsTo → ∃ (target : Entity) (x : Selector target), selector = x.predicate ∧
      c.registry.get? target.name = some target ∧
      (target.table = e.table → target = e ∧ x.field.column ∉ columns ∧
        ∃ f, e.field? r.remote.field = some f ∧ f.column ∉ columns)

theorem looksPastFewer {columns more : List String} {m : Mutation} (sub : columns ⊆ more) (past : c.LooksPast e more m) :
    c.LooksPast e columns m := by
  intro relation selector r about named belongs
  obtain ⟨target, x, asked, known, apart⟩ := past relation selector r about named belongs
  refine ⟨target, x, asked, known, fun same => ?_⟩
  obtain ⟨rfl, outside, f, found, unread⟩ := apart same
  exact ⟨rfl, fun mem => outside (sub mem), f, found, fun mem => unread (sub mem)⟩

/-- A step that gives in one session what it gives in another, if it succeeds there. -/
def Passes {α : Type} (step : Action Store α) (s t : Session Store) : Prop := ∀ a, step.answer s = some a → step.answer t = some a

theorem liftPasses {α : Type} (r : Except Failure α) : Passes (liftM r) s t :=
  fun _ ran => (liftAnswer r t).trans ((liftAnswer r s).symm.trans ran)

theorem liftBindPasses {α β : Type} {r : Except Failure α} {next : α → Action Store β}
    (later : ∀ a, r = .ok a → Passes (next a) s t) : Passes (liftM r >>= next) s t := by
  cases r with
  | error e => exact fun _ => nofun
  | ok a => exact later a rfl

section Past

variable {columns : List String} {m : Mutation}

theorem lookupPasses {target : Entity} (x : Selector target) (named : c.registry.get? target.name = some target)
    (differs : e.Differs columns s t) (apart : target.table ≠ e.table) : (c.lookup x.predicate).answer t = (c.lookup x.predicate).answer s := by
  have meant : c.entityOf x.predicate = .ok target := entityMeant named
  have compiled : c.condition target [x.predicate] = .ok (.compare ⟨target.table, x.field.column⟩ (.of .eq) x.operand) :=
    Predicate.equalityCompiles x.found x.given
  have rows : t.backend.rowsOf target.table = s.backend.rowsOf target.table := by
    unfold Store.rowsOf Store.tableRows
    rw [differs.others target.table apart]
  have fields : t.backend.fieldsOf target.table = s.backend.fieldsOf target.table := by
    unfold Store.fieldsOf
    rw [differs.fields]
  have matching : t.backend.matching target.table (.compare ⟨target.table, x.field.column⟩ (.of .eq) x.operand) =
      s.backend.matching target.table (.compare ⟨target.table, x.field.column⟩ (.of .eq) x.operand) := by
    unfold Store.matching
    rw [rows]
    refine congrArg _ (funext fun stored => congrArg (fun test => stored.filterM test) (funext fun row => ?_))
    rw [Store.matchesCompare, Store.matchesCompare]
  rw [answerRun, answerRun, lookupRun meant compiled, lookupRun meant compiled]
  change (do
    let found ← t.backend.selectRows ⟨target.table, target.columns, .compare ⟨target.table, x.field.column⟩ (.of .eq) x.operand, [], .int 1, .null⟩
    return (← found.mapM fun row => target.decodeRow row).head? : Except Failure (Option Row)).toOption = _
  rw [Store.selectOne, matching, fields, ← Store.selectOne]
  rfl

/-- A key that a row is to store is the same once other columns of the row have been rewritten. -/
theorem ownKeyPasses {r : Relation} {change : RelationChange} (names : (e.fields.map (·.name)).Nodup)
    (differs : e.Differs columns s t)
    (past : ∀ selector, change = .connect selector → ∃ (target : Entity) (x : Selector target), selector = x.predicate ∧
      c.registry.get? target.name = some target ∧ (target.table = e.table → target = e ∧ x.field.column ∉ columns ∧
        ∃ f, e.field? r.remote.field = some f ∧ f.column ∉ columns)) :
    Passes (c.ownKeyAssignment e r change : Action Store Assignment) s t := by
  unfold ownKeyAssignment
  refine liftBindPasses fun key _ => ?_
  split
  · rename_i selector
    refine liftBindPasses fun _ _ => ?_
    obtain ⟨target, x, rfl, named, apart⟩ := past selector rfl
    intro a ran
    rw [Writes.answerBind (c.lookupWrites _)] at ran ⊢
    · obtain ⟨found, looked, ran⟩ := Option.bind_eq_some_iff.mp ran
      by_cases own : target.table = e.table
      · obtain ⟨rfl, unasked, f, remote, unread⟩ := apart own
        obtain ⟨before, stored, next, after, row, out, stands, stands', agree⟩ := differs.row
        obtain ⟨found', looked', same⟩ := c.lookupReplaced x named names stands.columns stands'.columns stands.rows stands'.rows
          stands.reads stands'.reads (agree _ unasked) (List.mem_of_find?_eq_some remote) (agree _ unread) looked
        have called : f.name = r.remote.field := by simpa using List.find?_some remote
        rw [called] at same
        rw [looked']
        cases found with
        | none =>
          obtain rfl := Option.map_eq_none_iff.mp same
          exact liftBindPasses (fun _ _ => liftPasses (.error _)) a ran
        | some old =>
          obtain ⟨new, rfl, value⟩ := Option.map_eq_some_iff.mp same
          change (liftM (key.encode (Row.value new r.remote.field)) >>= fun v => pure ⟨key.column, .set, v⟩ :
            Action Store Assignment).answer t = some a
          rw [value]
          exact liftBindPasses (fun v _ => liftPasses (.ok _)) a ran
      · rw [c.lookupPasses x named differs own, looked]
        cases found with
        | none => exact liftBindPasses (fun _ _ => liftPasses (.error _)) a ran
        | some old => exact liftBindPasses (fun v _ => liftPasses (.ok _)) a ran
    · intro found
      split
      · exact .liftBind fun _ _ => .lift (.error _)
      · exact .liftBind fun v _ => .pure _
    · intro found
      split
      · exact .liftBind fun _ _ => .lift (.error _)
      · exact .liftBind fun v _ => .pure _
  · split
    · exact liftPasses (.ok _)
    · exact liftPasses (.error _)
  · exact liftBindPasses fun _ _ => liftBindPasses fun _ _ => liftPasses (.error _)

/-- The assignment that a mutation makes of a row is the same once columns of the row have been rewritten past which the
mutation looks. -/
theorem assignsPasses (own : e.related? m = none) (past : c.LooksPast e columns m) (names : (e.fields.map (·.name)).Nodup)
    (differs : e.Differs columns s t) : Passes (c.assigns e m) s t := by
  unfold assigns
  refine liftBindPasses fun _ _ => ?_
  split
  · exact liftPasses _
  · rename_i relation change about
    refine liftBindPasses fun r named => ?_
    refine c.ownKeyPasses names differs fun selector same => ?_
    subst same
    refine past relation selector r about named ?_
    unfold Entity.related? at own
    rw [about] at own
    dsimp only at own
    rw [named] at own
    dsimp only at own
    split at own
    · assumption
    · cases own

end Past

end Context

end EntityQuery
