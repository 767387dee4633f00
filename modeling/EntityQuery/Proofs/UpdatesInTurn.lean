import EntityQuery.Proofs.PendingLookups
/-! One update with a list of mutations, and an update for each of them in turn. The one gathers assignments until it has
to write them; the others write each. Both end alike where no mutation sees what the first one has not written yet. -/

namespace EntityQuery

namespace Context

variable (c : Context) {e : Entity} {s t : Session Store} {before after : List Row} {stored row : Row}

/-- Update the same row by one mutation after another, each time by the primary key that was read of it last. -/
def updateEach (c : Context) (e : Entity) : List Mutation → Row → Action Store Unit
  | [], _ => return ()
  | m :: rest, row => do c.updateEach e rest (← c.updateOne e (← e.keySelector row) [m])

/-- Update the row of a selector by one mutation after another in one transaction. -/
def updateInTurn (c : Context) (e : Entity) (selector : Predicate) (ms : List Mutation) : Action Store Unit :=
  c.transaction fun c => do c.updateEach e ms (← c.requireRow e selector)

/-- Does a change of the rows related to a stored row leave the row itself as it is, and apart from all others? -/
def LeavesRow (c : Context) (e : Entity) (stored : Row) (r : Relation) (change : RelationChange) : Prop :=
  ∀ k s t before after row, e.Stands s before stored after row →
    ((Context.mk c.registry k).changeRelated ⟨e, row⟩ r.name change : Action Store Unit).outcome s = some ((), t) →
      ∃ before after, e.Stands t before stored after row

/-- May mutations of a stored row be carried out one update at a time? The primary key of the row can be written again
before each of them, lookups look past the columns that were assigned to since rows were last written, and only the last
change of related rows may touch the row itself. -/
def Orderly (c : Context) (e : Entity) : Row → List String → List Mutation → Prop
  | _, _, [] => True
  | stored, columns, m :: rest =>
    e.primaryKey.Recurs e.fields (Row.value stored e.primaryKey.column) ∧
      match e.related? m with
      | some (r, change) => (rest = [] ∨ c.LeavesRow e stored r change) ∧ c.Orderly e stored [] rest
      | none => c.LooksPast e columns m ∧ ∀ a v, e.Makes m a → Store.assigned e.table e.fields stored a = .ok v →
          c.Orderly e (Record.put stored a.column v) (a.column :: columns) rest

theorem orderlyFewer {ms : List Mutation} {columns more : List String} (sub : columns ⊆ more)
    (orderly : c.Orderly e stored more ms) : c.Orderly e stored columns ms := by
  induction ms generalizing stored columns more with
  | nil => trivial
  | cons m rest ih =>
    unfold Orderly at orderly ⊢
    obtain ⟨recurs, orderly⟩ := orderly
    refine ⟨recurs, ?_⟩
    cases about : e.related? m with
    | some related =>
      rw [about] at orderly
      exact orderly
    | none =>
      rw [about] at orderly
      obtain ⟨past, later⟩ := orderly
      exact ⟨c.looksPastFewer sub past, fun a v makes given => ih (List.cons_subset_cons a.column sub) (later a v makes given)⟩

theorem orderlyOn {ms : List Mutation} {columns : List String} (k : Handle) (orderly : c.Orderly e stored columns ms) :
    (Context.mk c.registry k).Orderly e stored columns ms := by
  induction ms generalizing stored columns with
  | nil => trivial
  | cons m rest ih =>
    unfold Orderly at orderly ⊢
    obtain ⟨recurs, orderly⟩ := orderly
    refine ⟨recurs, ?_⟩
    cases about : e.related? m with
    | some related =>
      rw [about] at orderly
      exact ⟨orderly.1, ih orderly.2⟩
    | none =>
      rw [about] at orderly
      exact ⟨orderly.1, fun a v makes given => ih (orderly.2 a v makes given)⟩

/-- Apply mutations to a row that is being changed, and write what waits in the end. -/
def applyAll (c : Context) (e : Entity) (ms : List Mutation) (p : Pending) : Action Store Pending := do
  c.flush e (← c.mutateAll e ms p)

section Steps

variable (e) (p : Pending)

theorem applyWrites (ms : List Mutation) : Writes (fun _ => True) (c.applyAll e ms p) :=
  .bind (c.mutateAllWrites (fun _ => trivial) e ms p) fun p => c.flushWrites e p fun _ => trivial

theorem applyNil : c.applyAll e [] p = c.flush e p := rfl

theorem applyCons (m : Mutation) (rest : List Mutation) :
    (c.applyAll e (m :: rest) p).outcome s =
      ((c.mutate e p m : Action Store Pending).outcome s).bind fun r => (c.applyAll e rest r.1).outcome r.2 := by
  have split : c.applyAll e (m :: rest) p = c.mutate e p m >>= c.applyAll e rest := by
    change (c.mutate e p m >>= c.mutateAll e rest) >>= c.flush e = _
    rw [bind_assoc]
    rfl
  rw [split, Writes.outcomeBind fun p => c.applyWrites e p rest]

theorem changeOutcome (ms : List Mutation) (row : Row) :
    Option.map (·.2) ((c.change e ms row : Action Store Row).outcome s) = Option.map (·.2) ((c.applyAll e ms ⟨row, []⟩).outcome s) := by
  have steps : (c.change e ms row : Action Store Row) = c.applyAll e ms ⟨row, []⟩ >>= fun p => pure p.row := by
    change (c.mutateAll e ms ⟨row, []⟩ >>= fun p => c.flush e p >>= fun p => pure p.row : Action Store Row) =
      (c.mutateAll e ms ⟨row, []⟩ >>= fun p => c.flush e p) >>= fun p => pure p.row
    rw [bind_assoc]
  have reads : (c.applyAll e ms ⟨row, []⟩ >>= fun p => pure p.row : Action Store Row).outcome s =
      ((c.applyAll e ms ⟨row, []⟩).outcome s).bind fun q => (pure q.1.row : Action Store Row).outcome q.2 :=
    Writes.outcomeBind fun p => .pure p.row
  rw [steps, reads]
  cases ran : (c.applyAll e ms ⟨row, []⟩).outcome s with
  | none => rfl
  | some q =>
    obtain ⟨q, t⟩ := q
    obtain ⟨u, -, rfl⟩ := Action.outcomeRan ran
    rfl

theorem flushNothing (row : Row) : (c.flush e ⟨row, []⟩ : Action Store Pending).outcome s = some (⟨row, []⟩, s.bare) := rfl

theorem mutateOwnOutcome {m : Mutation} (own : e.related? m = none) :
    (c.mutate e p m : Action Store Pending).outcome s =
      ((c.assigns e m).answer s).bind fun a => (c.addAssignment e p a : Action Store Pending).outcome s := by
  have adds : ∀ a, Writes (fun _ => True) (c.addAssignment e p a : Action Store Pending) :=
    fun a => c.addAssignmentWrites (fun _ => trivial) e p a
  rw [c.mutateOwn own, Writes.outcomeBind adds, (c.assignsWrites e m).outcomeAnswer]
  cases (c.assigns e m).answer s with
  | none => rfl
  | some a => exact (adds a).blind s

theorem mutateRelatedOutcome {m : Mutation} {r : Relation} {change : RelationChange} (related : e.related? m = some (r, change))
    (checked : e.checkMutation m = .ok ()) :
    (c.mutate e p m : Action Store Pending).outcome s =
      ((c.flush e p : Action Store Pending).outcome s).bind fun q =>
        ((c.changeRelated ⟨e, q.1.row⟩ r.name change : Action Store Unit).outcome q.2).map fun u => (q.1, u.2) := by
  rw [c.mutateRelated related, checked]
  change (c.flush e p >>= fun p => c.changeRelated ⟨e, p.row⟩ r.name change >>= fun _ => pure p : Action Store Pending).outcome s = _
  have changes : ∀ q : Pending, Writes (fun _ => True) (c.changeRelated ⟨e, q.row⟩ r.name change : Action Store Unit) :=
    fun q => (c.changeRelatedWrites ⟨e, q.row⟩ r.name change).widen fun _ _ => trivial
  rw [Writes.outcomeBind fun q => .bind (changes q) fun _ => .pure q]
  refine congrArg _ (funext fun q => ?_)
  rw [Writes.outcomeBind fun _ => .pure q.1]
  cases ran : (c.changeRelated ⟨e, q.1.row⟩ r.name change : Action Store Unit).outcome q.2 with
  | none => rfl
  | some u =>
    obtain ⟨_, t⟩ := u
    obtain ⟨v, -, rfl⟩ := Action.outcomeRan ran
    rfl

theorem mutateUnchecked {m : Mutation} {r : Relation} {change : RelationChange} (related : e.related? m = some (r, change))
    {f : Failure} (checked : e.checkMutation m = .error f) : (c.mutate e p m : Action Store Pending).outcome s = none := by
  rw [c.mutateRelated related, checked]
  rfl

/-- An assignment to a column that waits already is added once that has been written, any other one at once. -/
theorem addOutcome (a : Assignment) :
    (c.addAssignment e p a : Action Store Pending).outcome s =
      if p.assignments.any fun b => b.column == a.column then
        ((c.flush e p : Action Store Pending).outcome s).map fun q => ({ q.1 with assignments := q.1.assignments ++ [a] }, q.2)
      else some ({ p with assignments := p.assignments ++ [a] }, s.bare) := by
  unfold addAssignment
  split
  · change (c.flush e p >>= fun p => pure { p with assignments := p.assignments ++ [a] } : Action Store Pending).outcome s = _
    rw [Writes.outcomeBind fun _ => .pure _]
    cases ran : (c.flush e p : Action Store Pending).outcome s with
    | none => rfl
    | some q =>
      obtain ⟨q, t⟩ := q
      obtain ⟨v, -, rfl⟩ := Action.outcomeRan ran
      rfl
  · rfl

end Steps

section Gathered

variable (found : e.field? e.primaryKey.name = some e.primaryKey) (primary : e.primaryKey.primaryKey)
  (names : (e.fields.map (·.name)).Nodup)

theorem placedTwice (rows others : List Row) : e.placed (e.placed s rows) others = e.placed s others := by
  unfold Entity.placed Store.setRows
  exact congrArg (fun tables => Session.mk { s.backend.bare with tables } [] [] []) (Record.replaceTwice _ _ _ _)

theorem orderlyNext {m : Mutation} {rest : List Mutation} {columns : List String} {a : Assignment} {v : Value}
    (orderly : c.Orderly e stored columns (m :: rest)) (own : e.related? m = none) (makes : e.Makes m a)
    (given : Store.assigned e.table e.fields stored a = .ok v) :
    c.Orderly e (Record.put stored a.column v) (a.column :: columns) rest := by
  unfold Orderly at orderly
  rw [own] at orderly
  exact orderly.2.2 a v makes given

/-- The assignment that a mutation makes is the same once those that wait have been written. -/
theorem answerWritten {m : Mutation} {rest : List Mutation} {columns : List String} {assignments : List Assignment}
    {next out : Row} (names : (e.fields.map (·.name)).Nodup) (own : e.related? m = none)
    (stands : e.Stands s before stored after row) (made : e.rewritten (before ++ after) stored assignments = some (next, out))
    (inside : ∀ a ∈ assignments, a.column ∈ columns) (orderly : c.Orderly e next columns (m :: rest)) :
    (c.assigns e m).answer (e.placed s (before ++ next :: after)) = (c.assigns e m).answer s := by
  unfold Orderly at orderly
  rw [own] at orderly
  have differs := stands.differs made inside
  refine Option.ext fun a => ⟨?_, ?_⟩
  · exact c.assignsPasses own orderly.2.1 names differs.symm a
  · exact c.assignsPasses own orderly.2.1 names differs a

/-- Mutations stay orderly when the assignment of the first one to a new column joins those that wait. -/
theorem orderlyAdded {m : Mutation} {rest : List Mutation} {assignments : List Assignment} {columns : List String} {a : Assignment}
    {last : Row} (orderly : ∀ next, Store.assignAll e.table e.fields stored assignments stored = (none, next) →
      c.Orderly e next columns (m :: rest)) (own : e.related? m = none) (makes : e.Makes m a)
    (fresh : ∀ b ∈ assignments, b.column ≠ a.column)
    (made : Store.assignAll e.table e.fields stored (assignments ++ [a]) stored = (none, last)) :
    c.Orderly e last (a.column :: columns) rest := by
  rw [Store.assignAllAppend] at made
  split at made
  · cases made
  · rename_i next first
    obtain ⟨v, given, rfl⟩ := Store.assignedOne made
    have same : Row.value (Store.assignAll e.table e.fields stored assignments stored).2 a.column =
        Row.value stored a.column := Store.assignedOther stored stored fresh
    rw [first] at same
    exact c.orderlyNext (orderly next first) own makes ((Store.assignedSame same).trans given)

include found primary names

/-- Assignments are written in two statements as in one where the last one is of a new column. -/
theorem flushSplit {assignments : List Assignment} {a : Assignment} (waits : assignments ≠ [])
    (fresh : ∀ b ∈ assignments, b.column ≠ a.column) (stands : e.Stands s before stored after row)
    (recurs : e.primaryKey.Recurs e.fields (Row.value stored e.primaryKey.column))
    (again : ∀ next, Store.assignAll e.table e.fields stored assignments stored = (none, next) →
      e.primaryKey.Recurs e.fields (Row.value next e.primaryKey.column)) :
    (c.flush e ⟨row, assignments ++ [a]⟩ : Action Store Pending).outcome s =
      ((c.flush e ⟨row, assignments⟩ : Action Store Pending).outcome s).bind fun q =>
        (c.flush e ⟨q.1.row, [a]⟩ : Action Store Pending).outcome q.2 := by
  have some : assignments ++ [a] ≠ [] := List.append_ne_nil_of_left_ne_nil waits _
  rw [e.flushOutcome found primary names c some stands recurs, e.flushOutcome found primary names c waits stands recurs,
    Entity.rewrittenSplit ⟨row, stands.reads⟩ stands.apart fresh]
  cases made : e.rewritten (before ++ after) stored assignments with
  | none => rfl
  | some r =>
    obtain ⟨next, out⟩ := r
    have recursThen := again next (Entity.rewrittenIff.mp made).1
    dsimp only [Option.map_some, Option.bind_some]
    rw [e.flushOutcome found primary names c (List.cons_ne_nil a []) (stands.next made) recursThen]
    refine congrArg (fun f => (e.rewritten (before ++ after) next [a]).map f) (funext fun r => ?_)
    rw [placedTwice]

/-- A change of related rows is made once the assignments that wait have been written. -/
theorem flushRelated {m : Mutation} {rest : List Mutation} {assignments : List Assignment} {r : Relation} {change : RelationChange}
    (waits : assignments ≠ []) (stands : e.Stands s before stored after row)
    (recurs : e.primaryKey.Recurs e.fields (Row.value stored e.primaryKey.column)) (related : e.related? m = some (r, change)) :
    (c.applyAll e (m :: rest) ⟨row, assignments⟩).outcome s =
      ((c.flush e ⟨row, assignments⟩ : Action Store Pending).outcome s).bind fun q => (c.applyAll e (m :: rest) q.1).outcome q.2 := by
  cases checked : e.checkMutation m with
  | error f =>
    have never : ∀ (q : Pending) (t : Session Store), (c.applyAll e (m :: rest) q).outcome t = none := by
      intro q t
      rw [applyCons, c.mutateUnchecked e q related checked]
      rfl
    rw [never]
    cases (c.flush e ⟨row, assignments⟩ : Action Store Pending).outcome s with
    | none => rfl
    | some q => exact (never q.1 q.2).symm
  | ok _ =>
    rw [applyCons, c.mutateRelatedOutcome e _ related checked, e.flushOutcome found primary names c waits stands recurs]
    cases e.rewritten (before ++ after) stored assignments with
    | none => rfl
    | some made =>
      dsimp only [Option.map_some, Option.bind_some]
      rw [applyCons, c.mutateRelatedOutcome e _ related checked, flushNothing]
      rfl

/-- A mutation of the row itself assigns the same once the assignments that wait have been written. -/
theorem appliedWritten {m : Mutation} {rest : List Mutation} {assignments : List Assignment} {columns : List String} {q : Pending}
    {t : Session Store} (waits : assignments ≠ []) (stands : e.Stands s before stored after row)
    (recurs : e.primaryKey.Recurs e.fields (Row.value stored e.primaryKey.column)) (inside : ∀ a ∈ assignments, a.column ∈ columns)
    (orderly : ∀ next, Store.assignAll e.table e.fields stored assignments stored = (none, next) →
      c.Orderly e next columns (m :: rest)) (own : e.related? m = none)
    (flushed : (c.flush e ⟨row, assignments⟩ : Action Store Pending).outcome s = some (q, t)) :
    (c.applyAll e (m :: rest) q).outcome t =
      ((c.assigns e m).answer s).bind fun a => (c.applyAll e rest ⟨q.row, [a]⟩).outcome t := by
  rw [e.flushOutcome found primary names c waits stands recurs] at flushed
  obtain ⟨⟨next, out⟩, made, placed⟩ := Option.map_eq_some_iff.mp flushed
  cases placed
  rw [applyCons, c.mutateOwnOutcome e _ own,
    c.answerWritten names own stands made inside (orderly next (Entity.rewrittenIff.mp made).1)]
  cases (c.assigns e m).answer s <;> rfl

/-- By induction on the mutations: it makes no difference whether assignments that wait are written first. -/
theorem flushFirst {ms : List Mutation} {assignments : List Assignment} {columns : List String} (waits : assignments ≠ [])
    (stands : e.Stands s before stored after row) (recurs : e.primaryKey.Recurs e.fields (Row.value stored e.primaryKey.column))
    (inside : ∀ a ∈ assignments, a.column ∈ columns)
    (orderly : ∀ next, Store.assignAll e.table e.fields stored assignments stored = (none, next) → c.Orderly e next columns ms) :
    (c.applyAll e ms ⟨row, assignments⟩).outcome s =
      ((c.flush e ⟨row, assignments⟩ : Action Store Pending).outcome s).bind fun q => (c.applyAll e ms q.1).outcome q.2 := by
  induction ms generalizing s before stored after row assignments columns with
  | nil =>
    rw [applyNil, e.flushOutcome found primary names c waits stands recurs]
    cases e.rewritten (before ++ after) stored assignments <;> rfl
  | cons m rest ih =>
    cases related : e.related? m with
    | some about => exact c.flushRelated found primary names waits stands recurs related
    | none =>
      have later : ∀ {next : Row} {a : Assignment} {v : Value},
          Store.assignAll e.table e.fields stored assignments stored = (none, next) → e.Makes m a →
            Store.assigned e.table e.fields next a = .ok v →
              c.Orderly e (Record.put next a.column v) (a.column :: columns) rest :=
        fun made makes given => c.orderlyNext (orderly _ made) related makes given
      have again : ∀ next, Store.assignAll e.table e.fields stored assignments stored = (none, next) →
          e.primaryKey.Recurs e.fields (Row.value next e.primaryKey.column) := by
        intro next made
        have orderly := orderly next made
        unfold Orderly at orderly
        exact orderly.1
      have written := fun q t => c.appliedWritten found primary names waits stands recurs inside orderly related (q := q) (t := t)
      rw [applyCons, c.mutateOwnOutcome e _ related]
      cases answered : (c.assigns e m).answer s with
      | none =>
        cases flushed : (c.flush e ⟨row, assignments⟩ : Action Store Pending).outcome s with
        | none => rfl
        | some q =>
          rw [answered] at written
          exact (written q.1 q.2 flushed).symm
      | some a =>
        have makes := c.assignsMakes answered
        rw [answered] at written
        rw [Option.bind_some, addOutcome]
        split
        · cases flushed : (c.flush e ⟨row, assignments⟩ : Action Store Pending).outcome s with
          | none => rfl
          | some q =>
            rw [Option.bind_some, written q.1 q.2 flushed]
            rw [e.flushOutcome found primary names c waits stands recurs] at flushed
            obtain ⟨⟨next, out⟩, -, rfl⟩ := Option.map_eq_some_iff.mp flushed
            rfl
        · rename_i single
          have fresh : ∀ b ∈ assignments, b.column ≠ a.column := by simpa using single
          have orderlyThen : ∀ last, Store.assignAll e.table e.fields stored (assignments ++ [a]) stored = (none, last) →
              c.Orderly e last (a.column :: columns) rest :=
            fun last made => c.orderlyAdded orderly related makes fresh made
          have insideThen : ∀ b ∈ assignments ++ [a], b.column ∈ a.column :: columns := by
            intro b mem
            rcases List.mem_append.mp mem with old | new
            · exact List.mem_cons_of_mem _ (inside b old)
            · rw [List.mem_singleton.mp new]
              exact List.mem_cons_self
          rw [Option.bind_some, (c.applyWrites e _ rest).blind s,
            ih (List.append_ne_nil_of_left_ne_nil waits _) stands recurs insideThen orderlyThen,
            c.flushSplit found primary names waits fresh stands recurs again]
          cases flushed : (c.flush e ⟨row, assignments⟩ : Action Store Pending).outcome s with
          | none => rfl
          | some q =>
            rw [Option.bind_some, Option.bind_some, written q.1 q.2 flushed, Option.bind_some]
            rw [e.flushOutcome found primary names c waits stands recurs] at flushed
            obtain ⟨⟨next, out⟩, made, rfl⟩ := Option.map_eq_some_iff.mp flushed
            have first := (Entity.rewrittenIff.mp made).1
            have alone : ∀ b ∈ [a], b.column ∈ a.column :: columns :=
              fun b mem => List.mem_singleton.mp mem ▸ List.mem_cons_self
            refine (ih (List.cons_ne_nil a []) (stands.next made) (again next first) alone fun last one => ?_).symm
            obtain ⟨v, given, rfl⟩ := Store.assignedOne one
            exact later first makes given

end Gathered

/-- A change of related rows that at most adds rows to the table of a row leaves the row. -/
theorem leavesRow {m : Mutation} {r : Relation} {change : RelationChange} (related : e.related? m = some (r, change))
    (calm : ¬c.Disturbs e m) (stored : Row) : c.LeavesRow e stored r change := by
  intro k s t before after row stands ran
  have adds : ∀ q, c.RelatedSends e r.name change q → q.table = e.table → ∃ i, q = .insert i := by
    unfold Entity.related? at related
    split at related
    · cases related
    · rename_i relation change' about
      split at related
      · rename_i r' named
        split at related
        · cases related
        · cases related
          intro q sends own
          by_contra other
          exact calm ⟨relation, change, r, q, about, named, sends, own, fun i same => other ⟨i, same⟩⟩
      · cases related
  obtain ⟨u, done, rfl⟩ := Action.outcomeRan ran
  obtain ⟨columns, still⟩ := ((Context.mk c.registry k).changeRelatedWrites ⟨e, row⟩ r.name change).kept
    (R := Store.Stays e.table e.fields fun rows => ∃ after, rows = before ++ stored :: after ∧
      Store.checkUnique e.table e.fields stored (before ++ after) = .ok ())
    (fun q sent => Store.staysApart fun own => adds q sent own) done
  obtain ⟨rows, there, later, rfl, apart⟩ := still stands.columns _ stands.rows ⟨after, rfl, stands.apart⟩
  exact ⟨before, later, (congrArg (fun fields => Record.get? fields e.table) columns).trans stands.columns, there, stands.reads, apart⟩

/-- Updates in turn as they are carried out inside a transaction, which each of them joins. -/
def updateEachInside (c : Context) (e : Entity) : List Mutation → Row → Action Store Unit
  | [], _ => return ()
  | m :: rest, row => do c.updateEachInside e rest (← c.updateInside e (← e.keySelector row) [m])

theorem updateInsideWrites (e : Entity) (selector : Predicate) (ms : List Mutation) :
    Writes (fun _ => True) (c.updateInside e selector ms : Action Store Row) :=
  .bind (c.requireRowWrites e selector) fun row => c.changeWrites (fun _ => trivial) e ms row

theorem eachWrites (e : Entity) (ms : List Mutation) (row : Row) : Writes (fun _ => True) (c.updateEachInside e ms row) := by
  induction ms generalizing row with
  | nil => exact .pure ()
  | cons m rest ih => exact .liftBind fun selector _ => .bind (c.updateInsideWrites e selector [m]) ih

theorem eachJoined (e : Entity) (ms : List Mutation) (row : Row) (joins : s.backend.inTransaction) :
    (c.updateEach e ms row).runOn s = (c.updateEachInside e ms row).runOn s := by
  induction ms generalizing row s with
  | nil => rfl
  | cons m rest ih =>
    change (liftM (e.keySelector row) >>= fun p => c.updateOne e p [m] >>= c.updateEach e rest : Action Store Unit).runOn s =
      (liftM (e.keySelector row) >>= fun p => c.updateInside e p [m] >>= c.updateEachInside e rest : Action Store Unit).runOn s
    cases e.keySelector row with
    | error f => rfl
    | ok p =>
      change (c.updateOne e p [m] >>= c.updateEach e rest : Action Store Unit).runOn s =
        (c.updateInside e p [m] >>= c.updateEachInside e rest : Action Store Unit).runOn s
      have joined : (c.updateOne e p [m]).runOn s = (c.updateInside e p [m]).runOn s := transactionJoined joins _
      rw [Step.runBind, Step.runBind, joined]
      cases ran : (c.updateInside e p [m]).runOn s with
      | mk r t =>
        cases r with
        | error f => rfl
        | ok next => exact ih next (((c.updateInsideWrites e p [m]).runJoined ran).trans joins)

section Compared

variable (found : e.field? e.primaryKey.name = some e.primaryKey) (primary : e.primaryKey.primaryKey)
  (names : (e.fields.map (·.name)).Nodup) (named : c.registry.get? e.name = some e)

include found primary names named

/-- An update by one mutation finds the row that stands, and applies the mutation to it. -/
theorem eachStep {m : Mutation} {rest : List Mutation} (stands : e.Stands s before stored after row)
    (recurs : e.primaryKey.Recurs e.fields (Row.value stored e.primaryKey.column)) :
    (c.updateEachInside e (m :: rest) row).outcome s =
      ((c.applyAll e [m] ⟨row, []⟩).outcome s).bind fun q => (c.updateEachInside e rest q.1.row).outcome q.2 := by
  have applied : ∀ row, Writes (fun _ => True)
      (c.applyAll e [m] ⟨row, []⟩ >>= fun q => c.updateEachInside e rest q.row : Action Store Unit) :=
    fun row => .bind (c.applyWrites e _ [m]) fun q => c.eachWrites e rest q.row
  have steps : c.updateEachInside e (m :: rest) row = (do c.requireRow e (← e.keySelector row)) >>= fun row =>
      c.applyAll e [m] ⟨row, []⟩ >>= fun q => c.updateEachInside e rest q.row := by
    change (liftM (e.keySelector row) >>= fun p => (c.requireRow e p >>= fun row => (c.mutateAll e [m] ⟨row, []⟩ >>= fun p =>
      c.flush e p >>= fun p => pure p.row)) >>= c.updateEachInside e rest : Action Store Unit) =
        (liftM (e.keySelector row) >>= fun p => c.requireRow e p) >>= fun row =>
          (c.mutateAll e [m] ⟨row, []⟩ >>= fun p => c.flush e p) >>= fun q => c.updateEachInside e rest q.row
    simp only [bind_assoc, pure_bind]
  rw [steps, Writes.outcomeBind applied, e.requireOwn found primary names c named stands recurs, Option.bind_some,
    (applied row).blind s]
  exact Writes.outcomeBind fun q => c.eachWrites e rest q.row

/-- By induction on the mutations: an update by all of them ends like updates by one after another. -/
theorem eachOutcome {ms : List Mutation} (stands : e.Stands s before stored after row) (orderly : c.Orderly e stored [] ms) :
    ((c.applyAll e ms ⟨row, []⟩).outcome s).map (·.2) = ((c.updateEachInside e ms row).outcome s).map (·.2) := by
  induction ms generalizing s before stored after row with
  | nil => rfl
  | cons m rest ih =>
    have recurs : e.primaryKey.Recurs e.fields (Row.value stored e.primaryKey.column) := by
      unfold Orderly at orderly
      exact orderly.1
    rw [c.eachStep found primary names named stands recurs, applyCons, applyCons]
    cases related : e.related? m with
    | some about =>
      obtain ⟨r, change⟩ := about
      cases checked : e.checkMutation m with
      | error f =>
        rw [c.mutateUnchecked e _ related checked]
        rfl
      | ok _ =>
        have later : (rest = [] ∨ c.LeavesRow e stored r change) ∧ c.Orderly e stored [] rest := by
          unfold Orderly at orderly
          rw [related] at orderly
          exact orderly.2
        rw [c.mutateRelatedOutcome e _ related checked, flushNothing, Option.bind_some]
        cases changed : (c.changeRelated ⟨e, row⟩ r.name change : Action Store Unit).outcome s.bare with
        | none => rfl
        | some u =>
          obtain ⟨_, t⟩ := u
          have left : (c.updateEachInside e rest row).outcome t.bare = (c.updateEachInside e rest row).outcome t :=
            (c.eachWrites e rest row).blind t
          change ((c.applyAll e rest ⟨row, []⟩).outcome t).map (·.2) = ((c.updateEachInside e rest row).outcome t.bare).map (·.2)
          rw [left]
          rcases later.1 with rfl | leaves
          · rfl
          · obtain ⟨before', after', still⟩ := leaves c.handle _ _ before after row stands.bare changed
            exact ih still later.2
    | none =>
      rw [c.mutateOwnOutcome e _ related]
      cases answered : (c.assigns e m).answer s with
      | none => rfl
      | some a =>
        have makes := c.assignsMakes answered
        have one : ∀ b ∈ [a], b.column ∈ [a.column] := fun b mem => List.mem_singleton.mp mem ▸ List.mem_cons_self
        have later : ∀ next, Store.assignAll e.table e.fields stored [a] stored = (none, next) → c.Orderly e next [a.column] rest := by
          intro next assigned
          obtain ⟨v, given, rfl⟩ := Store.assignedOne assigned
          exact c.orderlyNext orderly related makes given
        have first := c.flushFirst found primary names (List.cons_ne_nil a []) stands recurs one later
        have bare : ∀ ms, (c.applyAll e ms ⟨row, [a]⟩).outcome s.bare = (c.applyAll e ms ⟨row, [a]⟩).outcome s :=
          fun ms => (c.applyWrites e _ ms).blind s
        change ((c.applyAll e rest ⟨row, [a]⟩).outcome s.bare).map (·.2) =
          (((c.applyAll e [] ⟨row, [a]⟩).outcome s.bare).bind fun q => (c.updateEachInside e rest q.1.row).outcome q.2).map (·.2)
        rw [bare, bare, first, applyNil, e.flushOutcome found primary names c (List.cons_ne_nil a []) stands recurs]
        cases made : e.rewritten (before ++ after) stored [a] with
        | none => rfl
        | some q =>
          obtain ⟨next, out⟩ := q
          have orderlyThen := later next (Entity.rewrittenIff.mp made).1
          exact ih (stands.next made) (c.orderlyFewer (List.nil_subset _) orderlyThen)

/-- What comes of the updates inside a transaction. -/
theorem insideInTurn (x : Selector e) {rows : List Row} {ms : List Mutation}
    (columns : Record.get? s.backend.fields e.table = some e.fields) (there : Record.get? s.backend.tables e.table = some rows)
    (ready : ∀ before stored after, rows = before ++ stored :: after → x.picks stored →
      Store.checkUnique e.table e.fields stored (before ++ after) = .ok () ∧ c.Orderly e stored [] ms)
    (joins : s.backend.inTransaction) :
    Option.map (·.2) ((c.requireRow e x.predicate >>= c.change e ms : Action Store Row).outcome s) =
      Option.map (·.2) ((c.requireRow e x.predicate >>= c.updateEach e ms : Action Store Unit).outcome s) := by
  unfold Action.outcome
  rw [Step.runBind, Step.runBind]
  cases ran : (c.requireRow e x.predicate : Action Store Row).runOn s with
  | mk r t =>
    cases r with
    | error f => rfl
    | ok row =>
      obtain ⟨rows', stored, there', picked, reads⟩ := requireRowOk x named columns ran
      obtain rfl := Option.some.inj (there'.symm.trans there)
      obtain ⟨meets, before, after, listed, -⟩ := List.find?_eq_some_iff_append.mp picked
      obtain ⟨apart, orderly⟩ := ready before stored after listed meets
      have asks : Writes (fun _ => False) (c.requireRow e x.predicate : Action Store Row) := c.requireRowWrites e x.predicate
      have kept : t.backend.content = s.backend.content := asks.keeps ran
      obtain ⟨sameFields, sameTables⟩ := Prod.mk.inj kept
      have stands : e.Stands t before stored after row := by
        refine ⟨(congrArg (fun fields => Record.get? fields e.table) sameFields).trans columns, ?_, Entity.readsRead reads, apart⟩
        rw [← listed]
        exact (congrArg (fun tables => Record.get? tables e.table) sameTables).trans there
      have open' : t.backend.inTransaction := (asks.runJoined ran).trans joins
      dsimp only
      rw [c.eachJoined e ms row open']
      have ended := c.eachOutcome found primary names named stands orderly
      rw [← c.changeOutcome] at ended
      exact ended

/-- An update with a list of mutations succeeds exactly where the updates by one after another in one transaction do,
and then leaves the same tables. -/
theorem updateAsInTurn (x : Selector e) {rows : List Row} {ms : List Mutation}
    (columns : Record.get? s.backend.fields e.table = some e.fields) (there : Record.get? s.backend.tables e.table = some rows)
    (ready : ∀ before stored after, rows = before ++ stored :: after → x.picks stored →
      Store.checkUnique e.table e.fields stored (before ++ after) = .ok () ∧ c.Orderly e stored [] ms) (tables : Store.Tables) :
    (∃ row t, (c.updateOne e x.predicate ms).runOn s = (.ok row, t) ∧ t.backend.tables = tables) ↔
      ∃ u, (c.updateInTurn e x.predicate ms).runOn s = (.ok (), u) ∧ u.backend.tables = tables := by
  have same : ((c.updateOne e x.predicate ms).outcome s).map (·.2) = ((c.updateInTurn e x.predicate ms).outcome s).map (·.2) := by
    refine transactionOutcome fun k u content joins => ?_
    obtain ⟨sameFields, sameTables⟩ := Prod.mk.inj content
    refine (Context.mk c.registry k).insideInTurn found primary names named x
      ((congrArg (fun fields => Record.get? fields e.table) sameFields).trans columns)
      ((congrArg (fun tables => Record.get? tables e.table) sameTables).trans there) (fun before stored after listed picked => ?_) joins
    obtain ⟨apart, orderly⟩ := ready before stored after listed picked
    exact ⟨apart, c.orderlyOn k orderly⟩
  constructor
  · rintro ⟨row, t, ran, rfl⟩
    obtain ⟨_, u, ran', left⟩ := Action.leftRan same ran
    exact ⟨u, ran', congrArg (fun s => s.backend.tables) left⟩
  · rintro ⟨u, ran, rfl⟩
    obtain ⟨row, t, ran', left⟩ := Action.leftRan same.symm ran
    exact ⟨row, t, ran', congrArg (fun s => s.backend.tables) left⟩

end Compared

/-- A user is renamed twice and gets a new key, a report and a lead. -/
def promotion : List Mutation :=
  [.field "User" "name" .set (.text "Cy"), .field "User" "id" (.arithmetic .increment) (.int 6),
    .field "User" "name" .set (.text "Kim"), .relation "User" "reports" (.create [("name", .text "Rey")]),
    .field "User" "lead" .set (.int 2), .relation "User" "reports" (.connect (.field "User" "id" (.compare .eq (.int 2)) true))]

theorem promotionOrderly : (Context.mk Sample.registry .pooled).Orderly Sample.user Sample.ann [] promotion := by
  have recurs : ∀ n : Int, Sample.idField.encode (.int n) = .ok (.int n) → Sample.idField.Recurs Sample.user.fields (.int n) :=
    fun n written => ⟨.int n, .int n, .int n, rfl, rfl, written, ⟨rfl, _, rfl, rfl⟩, Store.meetsSelf ⟨rfl, _, rfl, rfl⟩⟩
  refine ⟨recurs 1 rfl, nofun, fun a v makes given => ?_⟩
  cases makes
  cases given
  refine ⟨recurs 1 rfl, nofun, fun a v makes given => ?_⟩
  cases makes
  cases given
  refine ⟨recurs 7 rfl, nofun, fun a v makes given => ?_⟩
  cases makes
  cases given
  refine ⟨recurs 7 rfl, .inr (leavesRow _ (m := .relation "User" "reports" (.create [("name", .text "Rey")])) rfl ?_ _),
    recurs 7 rfl, nofun, fun a v makes given => ?_⟩
  · rintro ⟨_, _, _, q, about, named, ⟨_, _, known, sends⟩, -, other⟩
    cases about
    cases named
    cases known
    rcases sends with ⟨single, -⟩ | ⟨values, rfl⟩
    · cases single
    · exact other _ rfl
  · cases makes
    cases given
    exact ⟨recurs 7 rfl, .inl rfl, trivial⟩

theorem updateAsInTurnOfAnn : ∃ row t u,
    ((Context.mk Sample.registry .pooled).updateOne Sample.user (.field "User" "name" (.compare .eq (.text "Ann")) true)
      promotion).runOn (Sample.session false [Sample.ann, Sample.bob] [] []) = (.ok row, t) ∧
    ((Context.mk Sample.registry .pooled).updateInTurn Sample.user (.field "User" "name" (.compare .eq (.text "Ann")) true)
      promotion).runOn (Sample.session false [Sample.ann, Sample.bob] [] []) = (.ok (), u) ∧
    u.backend.tables = t.backend.tables := by
  have succeeds : (((Context.mk Sample.registry .pooled).updateOne Sample.user
      (.field "User" "name" (.compare .eq (.text "Ann")) true) promotion).runOn
        (Sample.session false [Sample.ann, Sample.bob] [] [])).1.isOk := by decide +kernel
  cases ran : ((Context.mk Sample.registry .pooled).updateOne Sample.user
      (.field "User" "name" (.compare .eq (.text "Ann")) true) promotion).runOn
        (Sample.session false [Sample.ann, Sample.bob] [] []) with
  | mk r t =>
    cases r with
    | error f =>
      rw [ran] at succeeds
      cases succeeds
    | ok row =>
      let x : Selector Sample.user :=
        .ofWritten Sample.nameField rfl rfl nofun (rfl : Sample.nameField.encode (.text "Ann") = .ok (.text "Ann")) rfl
      have ready : ∀ before stored after, [Sample.ann, Sample.bob] = before ++ stored :: after → x.picks stored →
          Store.checkUnique Sample.user.table Sample.user.fields stored (before ++ after) = .ok () ∧
            (Context.mk Sample.registry .pooled).Orderly Sample.user stored [] promotion := by
        intro before stored after listed picked
        match before, listed with
        | [], listed =>
          cases listed
          exact ⟨rfl, promotionOrderly⟩
        | [_], listed =>
          cases listed
          cases picked
        | _ :: _ :: _, listed => simp at listed
      obtain ⟨u, ran', left⟩ := (updateAsInTurn _ rfl rfl (by decide) rfl x rfl rfl ready t.backend.tables).mp ⟨row, t, ran, rfl⟩
      exact ⟨row, t, u, rfl, ran', left⟩

end Context

end EntityQuery
