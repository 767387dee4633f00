import EntityQuery.Field.Operand
import EntityQuery.Proofs.Lookups
import EntityQuery.Proofs.Matching
import EntityQuery.Proofs.Preserved
import EntityQuery.Proofs.Sample
/-! States in which no two rows of a table have one value in a primary key or a unique column. Statements that complete
lead from one to another, and so does a transaction, which keeps what its statements did or restores copies of the rows
that were there. In such a state a unique filter finds at most one row. -/

namespace EntityQuery

namespace Value

mutual

/-- A copy is written as the JSON data that its original is written as. -/
theorem copiedJson (rule : IntegerRule) (v : Value) : (Store.copied v).toJson? rule = v.toJson? rule := by
  cases v with
  | key k => exact copiedKeyJson rule k
  | array items => rw [Store.copied, toJson?, toJson?, copiedItemsJson rule items]
  | object members => rw [Store.copied, toJson?, toJson?, copiedMembersJson rule members]
  | _ => rfl

theorem copiedKeyJson (rule : IntegerRule) (k : KeyForm Value) : (Store.copiedKey k).toJson? rule = (Value.key k).toJson? rule := by
  cases k with
  | json payload =>
    have inner := copiedJson rule payload
    unfold Store.copiedKey
    simp only [toJson?, toJsonMembers, inner]
    cases payload.toJson? rule with
    | error e => rfl
    | ok j => cases j <;> rfl
  | integer width n =>
    unfold Store.copiedKey
    simp only [toJson?, toJsonMembers, KeyForm.value]
    cases width.isWide with
    | false => rfl
    | true => cases rule <;> rfl
  | _ => rfl

theorem copiedItemsJson (rule : IntegerRule) (items : List Value) :
    toJsonItems rule (Store.copiedItems items) = toJsonItems rule items := by
  cases items with
  | nil => rfl
  | cons v rest => rw [Store.copiedItems, toJsonItems, toJsonItems, copiedJson rule v, copiedItemsJson rule rest]

theorem copiedMembersJson (rule : IntegerRule) (members : List (String × Value)) :
    toJsonMembers rule (Store.copiedMembers members) = toJsonMembers rule members := by
  cases members with
  | nil => rfl
  | cons pair rest => rw [Store.copiedMembers, toJsonMembers, toJsonMembers, copiedJson rule pair.2, copiedMembersJson rule rest]

end

end Value

namespace Store

theorem comparableCopied (v : Value) : comparable (copied v) = comparable v := by
  have shown : (copied v).jsonText? .refused = v.jsonText? .refused := by
    unfold Value.jsonText? Value.document
    rw [Value.copiedJson]
  cases v with
  | key k =>
    have text : comparable (copied (.key k)) = do return .text (← (copied (.key k)).jsonText? .refused) := by
      cases k <;> rfl
    rw [text, shown]
    rfl
  | array items => exact congrArg (fun r => do return Comparable.text (← r)) shown
  | object members => exact congrArg (fun r => do return Comparable.text (← r)) shown
  | _ => rfl

theorem copiedNothing (v : Value) : (copied v).isNothing = v.isNothing := by
  cases v with
  | key k => cases k <;> rfl
  | _ => rfl

theorem sameCopied (v w : Value) : same (copied v) (copied w) = same v w := by
  unfold same order
  rw [comparableCopied, comparableCopied]

theorem inheritedCopied (name : String) : (Value.inherited name) = copied (Value.inherited name) := by
  unfold Value.inherited
  split
  · rfl
  · split <;> rfl

theorem valueCopied (row : Row) (column : String) : Row.value (Record.mapValues copied row) column = copied (Row.value row column) := by
  unfold Row.value
  rw [Record.getMapped]
  cases Record.get? row column with
  | none => exact inheritedCopied column
  | some v => rfl

theorem clashesCopied (a b : Row) (f : Field) :
    clashes (Record.mapValues copied a) (Record.mapValues copied b) f = clashes a b f := by
  unfold clashes
  rw [valueCopied, valueCopied]
  simp only [copiedNothing, sameCopied]

theorem distinctCopied {fields : List Field} {rows : List Row} (distinct : Distinct fields rows) :
    Distinct fields (rows.map (Record.mapValues copied)) := by
  refine List.pairwise_map.mpr (distinct.imp fun apart f mem unique => ?_)
  rw [clashesCopied]
  exact apart f mem unique

theorem tableCopied (tables : Tables) (table : String) :
    Record.get? (copiedTables tables) table = (Record.get? tables table).map (·.map (Record.mapValues copied)) :=
  Record.getMapped _ tables table

section Schema

variable {entities : List Entity}

theorem putEntryNew {α : Type} {entries : List (String × α)} {name : String} (value : α) (new : name ∉ entries.map (·.1)) :
    putEntry entries name value = entries ++ [(name, value)] := by
  have absent : Record.get? entries name = none := by
    induction entries with
    | nil => rfl
    | cons pair rest ih =>
      rw [List.map_cons, List.mem_cons, not_or] at new
      simp [Record.get?, Ne.symm new.1, ih new.2]
  simp [putEntry, absent]

/-- Tables of different names are listed with the columns of their entities. -/
theorem ofSchemaFields {schema : Schema} (tables : (schema.entities.map (·.table)).Nodup) :
    (ofSchema schema).fields = schema.entities.map fun e => (e.table, e.fields) := by
  have folded : ∀ (entries : List (String × List Field)) (entities : List Entity),
      (entries.map (·.1) ++ entities.map (·.table)).Nodup →
      entities.foldl (fun acc e => putEntry acc e.table e.fields) entries = entries ++ entities.map fun e => (e.table, e.fields) := by
    intro entries entities
    induction entities generalizing entries with
    | nil => simp
    | cons e rest ih =>
      intro distinct
      have new : e.table ∉ entries.map (·.1) := by
        rw [List.map_cons, List.nodup_append] at distinct
        exact fun mem => distinct.2.2 _ mem _ List.mem_cons_self rfl
      rw [List.foldl_cons, putEntryNew _ new, ih, List.append_assoc]
      · rfl
      · simpa using distinct
  simpa [ofSchema] using folded [] schema.entities (by simpa using tables)

theorem fieldsKnown {schema : Schema} (tables : (schema.entities.map (·.table)).Nodup) {e : Entity}
    (mem : e ∈ schema.entities) : Record.get? (ofSchema schema).fields e.table = some e.fields := by
  rw [ofSchemaFields tables]
  generalize schema.entities = entities at tables mem
  induction entities with
  | nil => cases mem
  | cons first rest ih =>
    rw [List.map_cons, List.nodup_cons] at tables
    rcases List.mem_cons.mp mem with rfl | later
    · simp [Record.get?]
    · have other : first.table ≠ e.table := fun same => tables.1 (same ▸ List.mem_map_of_mem later)
      simpa [Record.get?, other] using ih tables.2 later

end Schema

end Store

/-- The fields that tell rows apart need not hold numbers with a fraction. -/
def Entity.exactFields (e : Entity) : List Field := e.fields.filter fun f => f.typeClass != .float

/-- A state of the tables of a schema in which no two rows of one have one value in a primary key or a unique column. -/
structure Schema.TellsApart (schema : Schema) (s : Store) : Prop where
  columns : s.fields = (Store.ofSchema schema).fields
  distinct : ∀ e ∈ schema.entities, ∃ rows, Record.get? s.tables e.table = some rows ∧ Store.Distinct e.exactFields rows

namespace WriteStatement

def send (h : Handle) : WriteStatement → Step Store Written
  | insert q => Backend.insert h q
  | update q => Backend.update h q
  | delete q => Backend.delete h q

theorem sendRun (h : Handle) (q : WriteStatement) (s : Store) :
    ∃ before, before.content = s.content ∧ (q.send h).runOn s = q.run before := by
  cases q with
  | insert q => exact ⟨s.record .insert q.table, rfl, rfl⟩
  | update q => exact ⟨s.record .update q.table, rfl, rfl⟩
  | delete q => exact ⟨s.record .delete q.table, rfl, rfl⟩

theorem runColumns (q : WriteStatement) (s : Store) : (q.run s).2.fields = s.fields := by
  cases q with
  | insert q => exact Store.insertColumns s q
  | update q => exact Store.updateColumns s q
  | delete q => exact Store.deleteColumns s q

end WriteStatement

namespace Store

/-- Work on the store that is made of statements, begun in a state. All that write have to complete where that is asked;
inside a transaction of its own it is asked for if the work returns, since all is undone if it does not. -/
inductive Made : Bool → {α : Type} → Step Store α → Store → Prop
  | inspect {complete : Bool} {α : Type} (f : Store → Except Failure α) (s : Store) : Made complete (Step.inspect f) s
  | read {complete : Bool} {α : Type} (kind : StatementKind) (table : String) (f : Store → Except Failure α) (s : Store) :
    Made complete (reading kind table f) s
  | write {complete : Bool} (h : Handle) (q : WriteStatement) {s : Store}
    (completes : complete → ∃ w t, (q.send h).runOn s = (.ok w, t)) : Made complete (q.send h) s
  | bind {complete : Bool} {α β : Type} {step : Step Store α} {next : α → Step Store β} {s : Store}
    (first : Made complete step s) (later : ∀ a t, step.runOn s = (.ok a, t) → Made complete (next a) t) :
    Made complete (step >>= next) s
  | handle {complete : Bool} {α : Type} {step : Step Store α} {handler : Failure → Step Store α} {s : Store}
    (first : Made complete step s) (later : ∀ e t, step.runOn s = (.error e, t) → Made complete (handler e) t) :
    Made complete (tryCatch step handler) s
  | transaction {complete : Bool} {α : Type} (h : Handle) {work : Handle → Step Store α} {s : Store}
    (joined : s.inTransaction → Made complete (work h) s)
    (issued : ∀ start, s.opened = .ok start → Made false (work .bound) start)
    (returned : complete → ∀ start a t, s.opened = .ok start → (work .bound).runOn start = (.ok a, t) →
      Made true (work .bound) start) :
    Made complete (Backend.transaction id (fun b _ => b) h work) s

variable {schema : Schema} {α : Type} {complete : Bool} {step : Step Store α} {s t : Store}

theorem writeTellsApart (tables : (schema.entities.map (·.table)).Nodup) {q : WriteStatement} {w : Written}
    (apart : schema.TellsApart s) (ran : q.run s = (.ok w, t)) : schema.TellsApart t := by
  have kept : t.fields = s.fields := by
    have := q.runColumns s
    rwa [ran] at this
  refine ⟨kept.trans apart.columns, fun e mem => ?_⟩
  have known : Record.get? s.fields e.table = some e.fields := apart.columns ▸ fieldsKnown tables mem
  obtain ⟨rows, there, distinct⟩ := apart.distinct e mem
  exact (staysDistinct (List.filter_subset_self _) q ran).2 known rows there distinct

theorem copiedTellsApart (apart : schema.TellsApart s) (columns : t.fields = s.fields)
    (copies : t.tables = copiedTables s.tables) : schema.TellsApart t := by
  refine ⟨columns.trans apart.columns, fun e mem => ?_⟩
  obtain ⟨rows, there, distinct⟩ := apart.distinct e mem
  refine ⟨rows.map (Record.mapValues copied), ?_, distinctCopied distinct⟩
  rw [copies, tableCopied, there]
  rfl

theorem openedContent {start : Store} (begins : s.opened = .ok start) : start.content = s.content := by
  unfold opened at begins
  split at begins
  · obtain ⟨_, -, refused⟩ := Results.bindOk begins
    cases refused
  · cases begins
    rfl

theorem contentTellsApart (same : t.content = s.content) : schema.TellsApart t ↔ schema.TellsApart s := by
  obtain ⟨columns, tables⟩ := Prod.mk.inj same
  constructor
  · exact fun ⟨listed, distinct⟩ => ⟨columns ▸ listed, tables ▸ distinct⟩
  · exact fun ⟨listed, distinct⟩ => ⟨columns ▸ listed, tables ▸ distinct⟩

theorem transactionRun (h : Handle) (work : Handle → Step Store α) (s : Store) :
    (Backend.transaction id (fun b _ => b) h work).runOn s =
      if s.inTransaction then (work h).runOn s
      else
        match s.opened with
        | .error e => (.error e, s)
        | .ok start =>
          match (work .bound).runOn start with
          | (.ok a, stop) => (.ok a, { stop with inTransaction := false, commits := stop.commits + 1 })
          | (.error e, stop) => (.error e, restored s stop) := by
  change (if s.inTransaction then (work h).runOn s else _) = _
  refine congrArg _ ?_
  rw [show Backend.opened (id s) = s.opened from rfl]
  cases s.opened with
  | error e => rfl
  | ok start =>
    dsimp only
    rcases (work .bound).runOn start with ⟨r, stop⟩
    cases r <;> rfl

/-- By induction on the work. The columns of the tables stay whether or not statements complete, so that a rollback
brings back rows of the same tables. -/
theorem madeTellsApart (tables : (schema.entities.map (·.table)).Nodup) (made : Made complete step s) :
    ∀ {r t}, step.runOn s = (r, t) → t.fields = s.fields ∧ (complete → schema.TellsApart s → schema.TellsApart t) := by
  induction made with
  | inspect f s =>
    rintro r t ⟨⟩
    exact ⟨rfl, fun _ => id⟩
  | read kind table f s =>
    rintro r t ⟨⟩
    exact ⟨rfl, fun _ => (contentTellsApart (s := s) (t := s.record kind table) rfl).mpr⟩
  | @write complete h q s completes =>
    intro r t ran
    obtain ⟨before, same, sent⟩ := q.sendRun h s
    have columns := q.runColumns before
    rw [← sent, ran] at columns
    refine ⟨columns.trans (congrArg Prod.fst same), fun asked apart => ?_⟩
    obtain ⟨w, u, completed⟩ := completes asked
    obtain ⟨-, rfl⟩ := Prod.mk.inj (ran.symm.trans completed)
    exact writeTellsApart tables ((contentTellsApart same).mpr apart) (sent.symm.trans completed)
  | @bind complete α β step next s first later before after =>
    intro r t ran
    rw [Step.runBind] at ran
    split at ran
    · rename_i a u ended
      obtain ⟨columns, apart⟩ := before ended
      obtain ⟨columns', apart'⟩ := after a u ended ran
      exact ⟨columns'.trans columns, fun asked held => apart' asked (apart asked held)⟩
    · rename_i e u ended
      cases ran
      exact before ended
  | @handle complete α step handler s first later before after =>
    intro r t ran
    rw [Step.runCatch] at ran
    split at ran
    · rename_i a u ended
      cases ran
      exact before ended
    · rename_i e u ended
      obtain ⟨columns, apart⟩ := before ended
      obtain ⟨columns', apart'⟩ := after e u ended ran
      exact ⟨columns'.trans columns, fun asked held => apart' asked (apart asked held)⟩
  | @transaction complete α h work s joined issued returned inside during after =>
    intro r t ran
    rw [transactionRun] at ran
    split at ran
    · rename_i joins
      exact inside joins ran
    · split at ran
      · cases ran
        exact ⟨rfl, fun _ => id⟩
      · rename_i start begins
        have opening := openedContent begins
        split at ran
        · rename_i a stop ended
          cases ran
          obtain ⟨columns, -⟩ := during start begins ended
          refine ⟨columns.trans (congrArg Prod.fst opening), fun asked apart => ?_⟩
          have stays := (after asked start a stop begins ended ended).2 rfl ((contentTellsApart opening).mpr apart)
          refine (contentTellsApart (s := stop) ?_).mpr stays
          rfl
        · rename_i e stop ended
          cases ran
          obtain ⟨columns, -⟩ := during start begins ended
          have kept : stop.fields = s.fields := columns.trans (congrArg Prod.fst opening)
          exact ⟨kept, fun _ apart => copiedTellsApart apart kept rfl⟩

end Store

namespace Selector

variable {e : Entity}

theorem picksAtMostOne (x : Selector e) {kept : List Field} {rows : List Row} (mem : x.field ∈ kept)
    (distinct : Store.Distinct kept rows) : (rows.filter x.picks).length ≤ 1 := by
  have apart := List.Pairwise.filter x.picks distinct
  cases found : rows.filter x.picks with
  | nil => exact Nat.zero_le 1
  | cons first more =>
    cases more with
    | nil => exact Nat.le_refl 1
    | cons second others =>
      have picked : ∀ row ∈ first :: second :: others, x.picks row := fun row inside =>
        (List.mem_filter.mp (found ▸ inside)).2
      have one := picked first List.mem_cons_self
      have other := picked second (List.mem_cons_of_mem _ List.mem_cons_self)
      rw [found] at apart
      have differs := (List.pairwise_cons.mp apart).1 second List.mem_cons_self x.field mem (by rw [x.unique, Bool.or_true])
      unfold Store.clashes at differs
      simp only [(Store.meetsOk one).1, (Store.meetsOk other).1, Bool.or_self, Bool.false_eq_true, if_false] at differs
      exact absurd (x.picksSame other one) differs

theorem isMatchPicks (x : Selector e) (tables : Store.Tables) :
    Store.isMatch tables e.table (.compare ⟨e.table, x.field.column⟩ (.of .eq) x.operand) = x.picks :=
  funext fun row => congrArg (Results.valueOr false) (Store.matchesCompare tables _ _ _ row)

/-- What a field of a known type is compared with has a place in the order, if it is there. -/
theorem ofCompared {f : Field} {v operand : Value} (found : e.field? f.name = some f) (unique : f.unique)
    (known : f.type ≠ .opaqueType) (built : e.compare f .eq v = .ok (.field e.name f.name (.compare .eq operand) true))
    (given : operand.isNothing = false) : ∃ x : Selector e, x.field = f ∧ x.operand = operand := by
  unfold Entity.compare at built
  obtain ⟨w, encoded, built⟩ := Results.bindOk built
  obtain rfl : w = operand := by
    injection built with p
    injection p with _ _ test _
    injection test
  have written : ∃ u, f.encode u = .ok w := by
    unfold Field.encodeOperand at encoded
    split at encoded
    · cases encoded
      cases given
    · split at encoded
      · obtain ⟨key, -, encoded⟩ := Results.bindOk encoded
        obtain ⟨u, -, encoded⟩ := Results.bindOk encoded
        exact ⟨u, encoded⟩
      · exact ⟨v, encoded⟩
  obtain ⟨u, written⟩ := written
  exact ⟨.ofWritten f found unique known written given, rfl, rfl⟩

end Selector

namespace Schema

variable {schema : Schema}

/-- Statements that complete and transactions made of them lead from states in which rows are told apart to others, and
in these a unique filter whose operand has a place in the order is true of one row at most. -/
theorem staysToldApart (tables : (schema.entities.map (·.table)).Nodup) :
    (∀ {α : Type} (step : Step Store α) (s : Store), schema.TellsApart s → Store.Made true step s →
      schema.TellsApart (step.runOn s).2) ∧
    ∀ s, schema.TellsApart s → ∀ e ∈ schema.entities,
      (∀ (registry : Registry Fetcher) (x : Selector e) (c : Condition), x.field ∈ e.exactFields →
        Predicate.condition registry e [x.predicate] = .ok c →
          ∃ rows, Record.get? s.tables e.table = some rows ∧ (rows.filter (Store.isMatch s.tables e.table c)).length ≤ 1) ∧
      ∀ (f : Field) (v operand : Value), e.field? f.name = some f → f.unique → f.type ≠ .opaqueType →
        e.compare f .eq v = .ok (.field e.name f.name (.compare .eq operand) true) → operand.isNothing = false →
          ∃ x : Selector e, x.field = f ∧ x.operand = operand := by
  refine ⟨fun step s apart made => ?_, fun s apart e mem => ⟨fun registry x c exact compiled => ?_, ?_⟩⟩
  · exact (Store.madeTellsApart tables made rfl).2 rfl apart
  · obtain rfl := x.condition compiled
    obtain ⟨rows, there, distinct⟩ := apart.distinct e mem
    rw [x.isMatchPicks]
    exact ⟨rows, there, x.picksAtMostOne exact distinct⟩
  · exact fun f v operand found unique known built given => Selector.ofCompared found unique known built given

section Marks

open Sample

def marks : Schema := ⟨[task]⟩

def markedTasks : Store := (Sample.tasks [taskRow (.int 1) .null (.int 1), taskRow (.int 2) .null (.int 2)]).backend

theorem marksApart : marks.TellsApart markedTasks := by
  refine ⟨rfl, fun e mem => ?_⟩
  obtain rfl := List.mem_singleton.mp mem
  refine ⟨[taskRow (.int 1) .null (.int 1), taskRow (.int 2) .null (.int 2)], rfl, ?_⟩
  have alone : Store.checkUnique "tasks" task.fields (taskRow (.int 1) .null (.int 1)) [] = .ok () := rfl
  have apart : Store.checkUnique "tasks" task.fields (taskRow (.int 2) .null (.int 2)) [taskRow (.int 1) .null (.int 1)] = .ok () := rfl
  exact Store.distinctAdded (List.filter_subset_self _)
    (Store.distinctAdded (List.filter_subset_self _) List.Pairwise.nil alone) apart

/-- A transaction that adds a task without a mark and is rolled back. -/
def adding (h : Handle) : Step Store Written := do
  let _ ← (WriteStatement.insert ⟨"tasks", [[("id", .int 3)]], []⟩).send h
  throw (.store (.unknownTable "nowhere"))

theorem staysToldApartOfMarks :
    marks.TellsApart (Step.runOn (Backend.transaction id (fun b _ => b) .pooled adding) markedTasks).2 ∧
      ∃ rows, Record.get? markedTasks.tables "tasks" = some rows ∧
        (rows.filter (Store.isMatch markedTasks.tables "tasks" (.compare ⟨"tasks", "id"⟩ (.of .eq) (.int 1)))).length ≤ 1 := by
  have tables : (marks.entities.map (·.table)).Nodup := by simp [marks]
  obtain ⟨stays, alone⟩ := staysToldApart tables
  constructor
  · refine stays _ _ marksApart (.transaction .pooled (absurd · Bool.false_ne_true) (fun start _ => ?_) fun _ start a t _ ran => ?_)
    · exact .bind (.write .bound _ (absurd · Bool.false_ne_true)) fun _ t _ => .inspect _ t
    · obtain ⟨_, _, -, refused⟩ := Step.bindOk ran
      cases refused
  · have known : idField.type ≠ .opaqueType := by simp [idField]
    let x : Selector task := .ofWritten idField rfl rfl known (v := .int 1) rfl rfl
    exact (alone markedTasks marksApart task List.mem_cons_self).1 ⟨[task], []⟩ x _ List.mem_cons_self rfl

/-- Not a number equals both marks, and a filter can ask for it. -/
theorem notToldApart : marks.TellsApart markedTasks ∧ markField ∈ task.exactFields ∧
    task.compare markField .eq (.number .nan) = .ok (.field "Task" "mark" (.compare .eq (.number .nan)) true) ∧
    ∃ c rows, Predicate.condition (⟨[task], []⟩ : Registry Fetcher) task
        [.field "Task" "mark" (.compare .eq (.number .nan)) true] = .ok c ∧
      Record.get? markedTasks.tables "tasks" = some rows ∧
      (rows.filter (Store.isMatch markedTasks.tables "tasks" c)).length = 2 :=
  ⟨marksApart, by simp [Entity.exactFields, task, markField, Field.typeClass, ScalarType.typeClass], rfl, _, _, rfl, rfl, rfl⟩

end Marks

end Schema

end EntityQuery
