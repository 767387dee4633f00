import EntityQuery.Proofs.CreatedRows
import EntityQuery.Proofs.Sample
/-! The rows that writes return. They are read when the row itself was last written; what the operation does to its own
table after that is not in them. -/

namespace EntityQuery

/-- The relation that a mutation is about, and the change of it. -/
def Mutation.relation? : Mutation → Option (Value × RelationChange)
  | .field .. => none
  | .relation _ name change => some (.text name, change)
  | .foreign node =>
    match node.member "kind" with
    | .text "field" => none
    | _ => some (node.member "relation", .ofValue (node.member "operation"))

namespace Entity

/-- Does a mutation assign to a column of the row itself? -/
def OwnColumn (e : Entity) (m : Mutation) : Prop :=
  ∀ relation change, m.relation? = some (relation, change) → ∃ r, e.relationNamed relation = .ok r ∧ r.kind = .belongsTo

/-- The row that was returned is read of a stored one. -/
def Stores (e : Entity) (content : List (String × List Field) × Store.Tables) (row : Row) : Prop :=
  ∃ (rows : List Row) (place : Nat) (stored : Row),
    Record.get? content.2 e.table = some rows ∧ rows[place]? = some stored ∧ e.Reads stored row

end Entity

/-- The first row that an update returns is read of a row that is stored then. -/
theorem Store.updateReturns {s t : Store} {q : Update} {w : Written} {out : Row} {rest : List Row}
    (ran : s.updateRows q = (.ok w, t)) (first : w.rows = out :: rest) :
    ∃ (fields : List Field) (rows : List Row) (place : Nat) (stored : Row), s.fieldsOf q.table = .ok fields ∧
      Record.get? t.tables q.table = some rows ∧ rows[place]? = some stored ∧
      project fields q.returning stored = .ok out := by
  obtain ⟨fields, stored, known, there, -, content, -, answer⟩ := updateDone ran
  obtain ⟨returned, projected, answer⟩ := Results.bindOk answer
  cases answer
  obtain rfl : returned = out :: rest := first
  unfold returning at projected
  split at projected
  · cases projected
  · obtain ⟨row, mem, one⟩ := Results.mapAllItems projected out List.mem_cons_self
    obtain ⟨before, kept, rfl⟩ := List.mem_map.mp mem
    obtain ⟨inside, matched⟩ := List.mem_filter.mp kept
    obtain ⟨place, placed⟩ := List.mem_iff_getElem?.mp inside
    have there' := (congrArg (fun tables => Record.get? tables q.table) (Prod.mk.inj content).2).trans
      (Record.get?_replace (by rw [there]; rfl))
    refine ⟨fields, _, place, _, known, there', ?_, one⟩
    rw [List.getElem?_map, placed]
    exact congrArg some (if_pos matched)

namespace Context

variable {c : Context} {e : Entity} {s t : Session Store} {row : Row}

/-- May a mutation change or delete rows of the table of its entity, through a relation whose key those rows store? -/
def Disturbs (c : Context) (e : Entity) (m : Mutation) : Prop :=
  ∃ relation change r q, m.relation? = some (relation, change) ∧ e.relationNamed relation = .ok r ∧
    c.RelatedSends e r.name change q ∧ q.table = e.table ∧ ∀ i, q ≠ .insert i

/-- Is every mutation that may change rows of the own table followed by one that writes the row itself? -/
def Settles (c : Context) (e : Entity) (mutations : List Mutation) : Prop :=
  ∀ before m after, mutations = before ++ m :: after → c.Disturbs e m → ∃ later ∈ after, e.OwnColumn later

theorem settlesTail {m : Mutation} {rest : List Mutation} (settles : c.Settles e (m :: rest)) : c.Settles e rest :=
  fun before other after listed => settles (m :: before) other after (by rw [listed, List.cons_append])

theorem lookupStores {p : Predicate} (meant : c.entityOf p = .ok e)
    (columns : Record.get? s.backend.fields e.table = some e.fields) (ran : (c.lookup p).runOn s = (.ok (some row), t)) :
    e.Stores t.backend.content row := by
  obtain ⟨condition, rows, -, there, first⟩ := lookupFound meant columns ran
  have kept := lookupKeeps c p s
  unfold Keeps at kept
  rw [ran] at kept
  split at first
  · cases first
  · rename_i stored picked
    obtain ⟨decoded, same, reads⟩ := first
    obtain rfl := Option.some.inj same
    obtain ⟨place, placed⟩ := List.mem_iff_getElem?.mp (List.mem_of_find?_eq_some picked)
    exact ⟨rows, place, stored, (congrArg (fun content => Record.get? content.2 e.table) kept).trans there, placed, reads⟩

/-- Writing the assignments of a row returns it as it is stored then; without assignments nothing is written. -/
theorem flushStores {p q : Pending} (columns : Record.get? s.backend.fields e.table = some e.fields)
    (ran : (c.flush e p).runOn s = (.ok q, t)) :
    q.assignments = [] ∧ ((p.assignments = [] ∧ q = p ∧ t = s) ∨ e.Stores t.backend.content q.row) := by
  unfold flush at ran
  split at ran
  · rename_i none
    cases ran
    exact ⟨List.isEmpty_iff.mp none, .inl ⟨List.isEmpty_iff.mp none, rfl, rfl⟩⟩
  · obtain ⟨condition, -, ran⟩ := Step.liftOk ran
    obtain ⟨w, u, updated, ran⟩ := Step.bindOk ran
    rw [updateRun] at updated
    obtain ⟨answer, rfl⟩ := Prod.mk.inj updated
    split at ran
    · rename_i out rest first
      obtain ⟨decoded, decodes, ran⟩ := Step.liftOk ran
      cases ran
      obtain ⟨fields, rows, place, stored, known, there, placed, projected⟩ :=
        Store.updateReturns (Prod.ext answer rfl) first
      obtain rfl : fields = e.fields := Option.some.inj ((Store.fieldsOfOk known).symm.trans columns)
      exact ⟨rfl, .inr ⟨rows, place, stored, there, placed, out, projected, decodes⟩⟩
    · cases ran

/-- A row that is stored still is after a change of a relation that at most adds rows to its table. -/
theorem relatedStores {relation : String} {change : RelationChange} {p : Parent} {v : Row}
    (columns : Record.get? s.backend.fields e.table = some e.fields) (about : p.entity = e)
    (adds : ∀ q, c.RelatedSends e relation change q → q.table = e.table → ∃ i, q = .insert i)
    (stores : e.Stores s.backend.content v) (ran : (c.changeRelated p relation change).runOn s = (.ok (), t)) :
    e.Stores t.backend.content v := by
  subst about
  obtain ⟨rows, place, stored, there, placed, reads⟩ := stores
  obtain ⟨-, still⟩ := (c.changeRelatedWrites p relation change).kept
    (R := Store.Stays p.entity.table p.entity.fields fun rows => rows[place]? = some stored)
    (fun q sent => Store.staysPlaced fun own => adds q sent own) ran
  obtain ⟨next, there', placed'⟩ := still columns rows there placed
  exact ⟨next, place, stored, there', placed', reads⟩

/-- What a step of an operation leaves of the columns of all tables: everything. -/
theorem columnsKept {α : Type} {step : Action Store α} {a : α} (writes : Writes (fun _ => True) step)
    (columns : Record.get? s.backend.fields e.table = some e.fields) (ran : step.runOn s = (.ok a, t)) :
    Record.get? t.backend.fields e.table = some e.fields := by
  obtain ⟨same, -⟩ := writes.kept (R := Store.Stays e.table e.fields (Store.Distinct []))
    (fun q _ => Store.staysDistinct (List.nil_subset _) q) ran
  exact (congrArg (fun fields => Record.get? fields e.table) same).trans columns

/-- A row being changed is as it is stored, or it will be written again: assignments wait, or mutations that assign
are still to come. -/
def Settling (e : Entity) (s : Session Store) (p : Pending) (rest : List Mutation) : Prop :=
  p.assignments ≠ [] ∨ e.Stores s.backend.content p.row ∨ ∃ later ∈ rest, e.OwnColumn later

theorem addAssignmentWaits {p q : Pending} {a : Assignment} (ran : (c.addAssignment e p a).runOn s = (.ok q, t)) :
    q.assignments ≠ [] := by
  unfold addAssignment at ran
  dsimp only at ran
  split at ran
  · obtain ⟨_, _, -, ran⟩ := Step.bindOk ran
    cases ran
    exact List.append_ne_nil_of_right_ne_nil _ (List.cons_ne_nil _ _)
  · obtain ⟨_, _, -, ran⟩ := Step.bindOk ran
    cases ran
    exact List.append_ne_nil_of_right_ne_nil _ (List.cons_ne_nil _ _)

theorem mutateRelationSettles {p q : Pending} {m : Mutation} {rest : List Mutation} {relation : Value} {change : RelationChange}
    (columns : Record.get? s.backend.fields e.table = some e.fields) (about : m.relation? = some (relation, change))
    (settles : c.Settles e (m :: rest)) (settling : Settling e s p (m :: rest))
    (ran : (c.mutateRelation e p relation change).runOn s = (.ok q, t)) : Settling e t q rest := by
  unfold mutateRelation at ran
  obtain ⟨r, named, ran⟩ := Step.liftOk ran
  split at ran
  · obtain ⟨a, u, -, ran⟩ := Step.bindOk ran
    exact .inl (addAssignmentWaits ran)
  · rename_i others
    obtain ⟨p', u, flushed, ran⟩ := Step.bindOk ran
    obtain ⟨_, v, changed, ran⟩ := Step.bindOk ran
    cases ran
    have columnsThen := columnsKept (c.flushWrites e p fun _ => trivial) columns flushed
    -- the row is as it is stored once the assignments are written, unless a later mutation writes it again
    have flushing : e.Stores u.backend.content q.row ∨ ∃ later ∈ rest, e.OwnColumn later := by
      obtain ⟨-, ⟨none, rfl, rfl⟩ | stores⟩ := flushStores columns flushed
      · rcases settling with waiting | stores | ⟨later, mem, own⟩
        · exact (waiting none).elim
        · exact .inl stores
        · rcases List.mem_cons.mp mem with rfl | tail
          · obtain ⟨found, named', belongs⟩ := own relation change about
            obtain rfl := Except.ok.inj (named.symm.trans named')
            exact (others belongs).elim
          · exact .inr ⟨later, tail, own⟩
      · exact .inl stores
    rcases flushing with stores | later
    · by_cases disturbs : c.Disturbs e m
      · exact .inr (.inr (settles [] m rest rfl disturbs))
      · refine .inr (.inl (relatedStores columnsThen rfl (fun sent may own => ?_) stores changed))
        by_contra other
        exact disturbs ⟨relation, change, r, sent, about, named, may, own, fun i same => other ⟨i, same⟩⟩
    · exact .inr (.inr later)

theorem mutateSettles {p q : Pending} {m : Mutation} {rest : List Mutation}
    (columns : Record.get? s.backend.fields e.table = some e.fields) (settles : c.Settles e (m :: rest))
    (settling : Settling e s p (m :: rest)) (ran : (c.mutate e p m).runOn s = (.ok q, t)) : Settling e t q rest := by
  unfold mutate at ran
  obtain ⟨_, -, ran⟩ := Step.liftOk ran
  split at ran
  · obtain ⟨a, -, ran⟩ := Step.liftOk ran
    exact .inl (addAssignmentWaits ran)
  · exact mutateRelationSettles columns rfl settles settling ran
  · rename_i node
    split at ran
    · obtain ⟨a, -, ran⟩ := Step.liftOk ran
      exact .inl (addAssignmentWaits ran)
    · rename_i kind
      refine mutateRelationSettles columns ?_ settles settling ran
      unfold Mutation.relation?
      split
      · contradiction
      · rename_i same
        cases same
      · rename_i same
        cases same
        split
        · contradiction
        · rfl

theorem mutateAllSettles {p q : Pending} {mutations : List Mutation}
    (columns : Record.get? s.backend.fields e.table = some e.fields) (settles : c.Settles e mutations)
    (settling : Settling e s p mutations) (ran : (c.mutateAll e mutations p).runOn s = (.ok q, t)) : Settling e t q [] := by
  induction mutations generalizing p s with
  | nil =>
    cases ran
    exact settling
  | cons m rest ih =>
    obtain ⟨p', u, mutated, ran⟩ := Step.bindOk ran
    have columnsThen := columnsKept (c.mutateWrites (fun _ => trivial) e p m) columns mutated
    exact ih columnsThen (settlesTail settles) (mutateSettles columns settles settling mutated) ran

theorem changeStores {start : Row} {mutations : List Mutation}
    (columns : Record.get? s.backend.fields e.table = some e.fields) (settles : c.Settles e mutations)
    (stores : e.Stores s.backend.content start) (ran : (c.change e mutations start).runOn s = (.ok row, t)) :
    e.Stores t.backend.content row := by
  unfold change at ran
  obtain ⟨p, u, mutated, ran⟩ := Step.bindOk ran
  obtain ⟨q, v, flushed, ran⟩ := Step.bindOk ran
  cases ran
  have columnsThen := columnsKept (c.mutateAllWrites (fun _ => trivial) e mutations _) columns mutated
  obtain ⟨-, ⟨none, rfl, rfl⟩ | now⟩ := flushStores columnsThen flushed
  · rcases mutateAllSettles columns settles (.inr (.inl stores)) mutated with waiting | stores | ⟨_, mem, -⟩
    · exact (waiting none).elim
    · exact stores
    · cases mem
  · exact now

theorem createStores {creation : Creation} (columns : Record.get? s.backend.fields e.table = some e.fields)
    (adds : c.AddsOnly e creation) (ran : (c.create e creation).runOn s = (.ok row, t)) : e.Stores t.backend.content row := by
  obtain ⟨values, u, resolved, ran⟩ := Step.bindOk ran
  obtain ⟨returned, x, inserted, ran⟩ := Step.bindOk ran
  obtain ⟨_, y, changed, ran⟩ := Step.bindOk ran
  cases ran
  have columnsThen := columnsKept (c.resolveLookupsWrites e _ _) columns resolved
  obtain ⟨encoded, old, stored, -, known, content, -, -, reads⟩ := insertRowOk columnsThen inserted
  have fresh : Record.get? x.backend.tables e.table = some (old ++ [stored]) :=
    (congrArg (fun tables => Record.get? tables e.table) (Prod.mk.inj content).2).trans (Record.get?_replace (by rw [known]; rfl))
  obtain ⟨-, still⟩ := (c.changeAllWrites ⟨e, row⟩ creation.related).kept
    (R := Store.Stays e.table e.fields fun rows => rows[old.length]? = some stored)
    (fun q ⟨change, inside, sent⟩ => Store.staysPlaced fun own => adds change inside q sent own) changed
  obtain ⟨rows, last, placed⟩ := still
    (columnsKept (c.insertRowWrites e values fun _ => trivial) columnsThen inserted) _ fresh (by simp)
  exact ⟨rows, old.length, stored, last, placed, reads⟩

/-- Are the rows that a write returns as they are stored at its end? What a creation goes on to do adds rows to its
table at most, and what a list of mutations changes there is followed by a change of the row itself. -/
def Returns (c : Context) (e : Entity) : Request → Prop
  | .create creation => c.AddsOnly e creation
  | .update selector mutations => c.entityOf selector = .ok e ∧ c.Settles e mutations
  | .upsert selector creation mutations => c.entityOf selector = .ok e ∧ c.AddsOnly e creation ∧ c.Settles e mutations
  | _ => False

theorem insideStores {r : Request} (columns : Record.get? s.backend.fields e.table = some e.fields)
    (returns : c.Returns e r) (ran : (c.inside e r).runOn s = (.ok (.object row), t)) :
    e.Stores t.backend.content row := by
  cases r with
  | create creation =>
    obtain ⟨created, u, ran, answer⟩ := Step.bindOk ran
    cases answer
    exact createStores columns returns ran
  | update selector mutations =>
    obtain ⟨meant, settles⟩ := returns
    obtain ⟨updated, u, ran, answer⟩ := Step.bindOk ran
    cases answer
    unfold updateInside requireRow at ran
    obtain ⟨start, v, required, changed⟩ := Step.bindOk ran
    obtain ⟨found, x, looked, required⟩ := Step.bindOk required
    cases found with
    | none =>
      obtain ⟨_, -, required⟩ := Step.liftOk required
      obtain ⟨_, -, required⟩ := Step.liftOk required
      cases required
    | some start =>
      cases required
      exact changeStores (columnsKept (c.lookupWrites selector) columns looked) settles (lookupStores meant columns looked) changed
  | upsert selector creation mutations =>
    obtain ⟨meant, adds, settles⟩ := returns
    obtain ⟨updated, u, ran, answer⟩ := Step.bindOk ran
    cases answer
    unfold upsertInside at ran
    obtain ⟨found, x, looked, ran⟩ := Step.bindOk ran
    have columnsThen := columnsKept (c.lookupWrites selector) columns looked
    cases found with
    | none =>
      obtain ⟨_, y, told, ran⟩ := Step.bindOk ran
      exact createStores (columnsKept (.tell _ _) columnsThen told) adds ran
    | some start => exact changeStores columnsThen settles (lookupStores meant columns looked) ran
  | _ => exact returns.elim

theorem insideWrites (c : Context) (e : Entity) {r : Request} (opening : r.opens) :
    Writes (fun _ => True) (c.inside e r : Action Store Value) := by
  refine (c.insideSent e fun reads => ?_).writes
  cases r with
  | create _ | update _ _ | upsert _ _ _ => cases reads
  | _ => cases opening

theorem returnsOpens {r : Request} (returns : c.Returns e r) : r.opens := by
  cases r with
  | create _ | update _ _ | upsert _ _ _ => rfl
  | _ => exact returns.elim

/-- The row that a write returns is read of the stored row with its primary key. -/
theorem returnedRow {r : Request} {rows : List Row} (columns : Record.get? s.backend.fields e.table = some e.fields)
    (mem : e.primaryKey ∈ e.fields) (primary : e.primaryKey.primaryKey)
    (stored : Record.get? s.backend.tables e.table = some rows) (distinct : Store.Distinct [e.primaryKey] rows)
    (returns : c.Returns e r) (ran : (c.perform e r).runOn s = (.ok (.object row), t)) :
    ∃ after held, Record.get? t.backend.tables e.table = some after ∧ held ∈ after ∧ e.Reads held row ∧
      ∀ other ∈ after, Store.meets (Row.value other e.primaryKey.column) (Row.value held e.primaryKey.column) →
        other = held := by
  have opens := returnsOpens returns
  rw [performOpening c e opens] at ran
  obtain ⟨k, u, v, worked, begun, ended⟩ := transactionOk ran
  obtain ⟨sameFields, sameTables⟩ := Prod.mk.inj begun
  obtain ⟨-, lastTables⟩ := Prod.mk.inj ended
  have columnsThen : Record.get? u.backend.fields e.table = some e.fields := sameFields ▸ columns
  obtain ⟨after, place, held, there, placed, reads⟩ := insideStores (c := ⟨c.registry, k⟩) columnsThen returns worked
  obtain ⟨-, still⟩ := (insideWrites ⟨c.registry, k⟩ e opens).kept
    (R := Store.Stays e.table e.fields (Store.Distinct [e.primaryKey]))
    (fun q _ => Store.staysDistinct (List.cons_subset.mpr ⟨mem, List.nil_subset _⟩) q) worked
  obtain ⟨last, there', apart⟩ := still columnsThen rows
    ((congrArg (fun tables => Record.get? tables e.table) sameTables).trans stored) distinct
  obtain rfl : after = last := Option.some.inj (there.symm.trans there')
  have inside := List.mem_of_getElem? placed
  refine ⟨after, held, lastTables ▸ there, inside, reads, fun other among equal => ?_⟩
  obtain ⟨given, there, same⟩ := Store.meetsOk equal
  exact Store.distinctSame apart among inside List.mem_cons_self (by rw [primary, Bool.true_or]) given same there

/-- A user who is created together with a report. -/
def leader : Creation := ⟨[("name", .text "Cy")], [], [("reports", .create [("name", .text "Kim")])]⟩

theorem returnedRowOfLeader :
    ∃ t, ((Context.mk Sample.registry .pooled).perform Sample.user (.create leader)).runOn
        (Sample.session false [Sample.ann] [] []) = (.ok (.object [("id", .int 2), ("name", .text "Cy"), ("lead", .null)]), t) ∧
      ∃ after held, Record.get? t.backend.tables "users" = some after ∧ held ∈ after ∧
        Sample.user.Reads held [("id", .int 2), ("name", .text "Cy"), ("lead", .null)] ∧
          ∀ other ∈ after, Store.meets (Row.value other "id") (Row.value held "id") → other = held := by
  have adds : (Context.mk Sample.registry .pooled).AddsOnly Sample.user leader := by
    intro change mem q ⟨r, target, related, sends⟩ own
    obtain rfl := List.mem_singleton.mp mem
    cases related
    rcases sends with ⟨single, -⟩ | ⟨values, rfl⟩
    · cases single
    · exact ⟨_, rfl⟩
  obtain ⟨t, ran⟩ : ∃ t, ((Context.mk Sample.registry .pooled).perform Sample.user (.create leader)).runOn
      (Sample.session false [Sample.ann] [] []) =
        (.ok (.object [("id", .int 2), ("name", .text "Cy"), ("lead", .null)]), t) := ⟨_, rfl⟩
  refine ⟨t, ran, ?_⟩
  exact returnedRow (c := ⟨Sample.registry, .pooled⟩) (e := Sample.user) (s := Sample.session false [Sample.ann] [] [])
    (r := .create leader) rfl List.mem_cons_self rfl rfl (List.pairwise_singleton _ _) adds ran

end Context

end EntityQuery
