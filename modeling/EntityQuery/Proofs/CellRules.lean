import EntityQuery.Field.Operand
import EntityQuery.Proofs.CompiledSchemas
import EntityQuery.Proofs.CreatedRows
import EntityQuery.Proofs.UniqueStates
/-! Rules on what the columns of a schema hold, by field. A statement that an operation makes of encoded values keeps
such a rule, whether it completes or stops half way, and so does a rollback. -/

namespace EntityQuery

namespace Store

section Counting

variable {s t : Store} {table : String} {f : Field} {v : Value}

/-- Keys are counted from zero. -/
def Counts (s : Store) : Prop := ∀ entry ∈ s.sequences, 0 ≤ entry.2

theorem replaceMem {α : Type} {entries : List (String × α)} {name : String} {value : α} :
    ∀ entry ∈ Record.replace entries name value, entry ∈ entries ∨ entry.2 = value := by
  induction entries with
  | nil => exact fun entry never => .inl never
  | cons old rest ih =>
    unfold Record.replace
    split
    · refine List.forall_mem_cons.mpr ⟨.inr rfl, fun entry mem => .inl (List.mem_cons_of_mem _ mem)⟩
    · refine List.forall_mem_cons.mpr ⟨.inl List.mem_cons_self, fun entry mem => ?_⟩
      exact (ih entry mem).imp_left (List.mem_cons_of_mem _)

theorem putEntryMem {α : Type} {entries : List (String × α)} {name : String} {value : α} :
    ∀ entry ∈ putEntry entries name value, entry ∈ entries ∨ entry.2 = value := by
  intro entry mem
  unfold putEntry at mem
  split at mem
  · exact replaceMem entry mem
  · exact (List.mem_append.mp mem).imp_right fun new => congrArg Prod.snd (List.mem_singleton.mp new)

theorem nextKeyAbove {last next : Int} {column : String} {rows : List Row} (found : nextKey last column rows = .ok next) :
    last < next := by
  refine Results.foldKeeps (P := fun next => last < next) ?_ found (Int.lt_succ last)
  intro best row mem next above step
  obtain ⟨stored, -, step⟩ := Results.bindOk step
  split at step
  · cases step
    split <;> omega
  · cases step
    exact above

theorem generatedKey {width : IntegerType} (counts : s.Counts) (typed : f.type = .integer width)
    (made : s.generate table f = .ok (v, t)) :
    ∃ n, 0 < n ∧ v = (if width.isWide then .integer n else .number (Number.ofInt n)) ∧
      t.sequences = putEntry s.sequences table n := by
  unfold generate at made
  rw [typed] at made
  obtain ⟨rows, -, made⟩ := Results.bindOk made
  obtain ⟨next, found, made⟩ := Results.bindOk made
  cases made
  refine ⟨next, ?_, rfl, rfl⟩
  have above := nextKeyAbove found
  have last : 0 ≤ (Record.get? s.sequences table).getD 0 := by
    cases there : Record.get? s.sequences table with
    | none => exact Int.le_refl 0
    | some n => exact counts _ (Record.memOfGet? there)
  omega

theorem generateCounts (counts : s.Counts) (made : s.generate table f = .ok (v, t)) : t.Counts := by
  cases typed : f.type with
  | integer width =>
    obtain ⟨n, positive, -, written⟩ := generatedKey counts typed made
    intro entry mem
    rw [written] at mem
    rcases putEntryMem entry mem with old | new
    · exact counts entry old
    · omega
  | _ =>
    unfold generate at made
    rw [typed] at made
    cases made
    exact counts

theorem fillCounts (table : String) (values : Row) (fields : List Field) (start : Row) (counts : s.Counts) :
    (fill table values fields start s).2.Counts := by
  induction fields generalizing start s with
  | nil => exact counts
  | cons f rest ih =>
    unfold fill
    split
    · exact ih _ counts
    · split
      · split
        · rename_i made
          exact ih _ (generateCounts counts made)
        · exact counts
      · exact ih _ counts

theorem newRowsCounts (table : String) (fields : List Field) (old new made : List Row) (counts : s.Counts) :
    (newRows table fields old new made s).2.Counts := by
  induction new generalizing made s with
  | nil => exact counts
  | cons values rest ih =>
    have filled := fillCounts table values fields [] counts
    unfold newRows
    split
    · rename_i ran
      rw [ran] at filled
      exact filled
    · rename_i ran
      rw [ran] at filled
      split
      · exact filled
      · exact ih _ filled

theorem updateSequences (s : Store) (q : Update) : (s.updateRows q).2.sequences = s.sequences := by
  unfold updateRows updateFlagged
  split
  · rfl
  · dsimp only
    split <;> rfl

theorem deleteSequences (s : Store) (q : Delete) : (s.deleteRows q).2.sequences = s.sequences := by
  unfold deleteRows deleteFrom
  split <;> rfl

end Counting

end Store

/-- A rule on what columns hold. Besides the column of each field it says which values operations read from rows to
write them again, and which fields arithmetic may change. A column can only be left out of a new row where the check of
required fields lets it pass. -/
structure CellRule (schema : Schema) where
  cell : Entity → Field → Value → Prop
  plain : Value → Prop
  computes : Entity → Field → Prop
  plainNull : plain .null
  copied : ∀ {e f v}, cell e f v → cell e f (Store.copied v)
  read : ∀ {e f v raw w}, e ∈ schema.entities → f ∈ e.fields → cell e f v → Store.returned e.fields f.column v = .ok raw →
    f.decode raw = .ok w → plain w
  written : ∀ {e f v w}, e ∈ schema.entities → f ∈ e.fields → plain v → f.encode v = .ok w → cell e f w
  entered : ∀ {e f v w}, e ∈ schema.entities → f ∈ e.fields → f.encode v = .ok w →
    (f.generated ∨ f.nullable ∨ w ≠ .absent) → cell e f w
  omitted : ∀ {e f}, e ∈ schema.entities → f ∈ e.fields → f.generated = false →
    (f.nullable ∨ Value.inherited f.column ≠ .absent) → cell e f .null
  generated : ∀ {e f} {s t : Store} {v}, e ∈ schema.entities → f ∈ e.fields → f.generated → s.Counts →
    s.generate e.table f = .ok (v, t) → cell e f v
  changed : ∀ {e f operation v operand current w}, e ∈ schema.entities → f ∈ e.fields → computes e f →
    f.encodeArithmetic operation v = .ok operand → cell e f current →
      Store.arithmetic operation f current operand = .ok w → cell e f w

/-- What all rows of an entity have in the column of a field. -/
def Entity.Column (e : Entity) (f : Field) (P : Value → Prop) (s : Store) : Prop :=
  ∀ rows, Record.get? s.tables e.table = some rows → ∀ row ∈ rows, P (Row.value row f.column)

/-- Tables have names of their own, and so have the columns of each. -/
structure Schema.NamesApart (schema : Schema) : Prop where
  tables : (schema.entities.map (·.table)).Nodup
  columns : ∀ e ∈ schema.entities, (e.fields.map (·.column)).Nodup

namespace CellRule

variable {schema : Schema} (rule : CellRule schema)

def OfRow (e : Entity) (row : Row) : Prop := ∀ f ∈ e.fields, rule.cell e f (Row.value row f.column)

/-- The tables have the columns of the schema, keys are counted from zero, and every row is as the rule says. -/
structure Holds (s : Store) : Prop where
  columns : s.fields = (Store.ofSchema schema).fields
  counts : s.Counts
  rows : ∀ e ∈ schema.entities, ∀ rows, Record.get? s.tables e.table = some rows → ∀ row ∈ rows, rule.OfRow e row

/-- An assignment of a value that the field's column may hold, or arithmetic with an operand of the field. -/
def Assigns (e : Entity) (a : Assignment) : Prop :=
  ∃ f ∈ e.fields, a.column = f.column ∧
    ((a.change = .set ∧ rule.cell e f a.operand) ∨
      ∃ operation v, a.change = .arithmetic operation ∧ rule.computes e f ∧ f.encodeArithmetic operation v = .ok a.operand)

/-- The statements that operations make: new rows are encoded and checked, and columns are assigned as the rule says. -/
def Admits (e : Entity) : WriteStatement → Prop
  | .insert q =>
    q.table = e.table ∧ ∀ values ∈ q.rows, (∃ data, e.encodeRow data = .ok values) ∧ e.checkRequired values = .ok ()
  | .update q => q.table = e.table ∧ ∀ a ∈ q.assignments, rule.Assigns e a
  | .delete q => q.table = e.table

end CellRule

namespace Entity

variable {e : Entity}

theorem relationOk {name : String} {r : Relation} (named : e.relation name = .ok r) :
    e.relation? name = some r ∧ r.name = name := by
  unfold relation at named
  split at named
  · rename_i found
    obtain rfl := Except.ok.inj named
    exact ⟨found, by simpa using List.find?_some found⟩
  · cases named

theorem encodedColumns {data values : Row} (encoded : e.encodeRow data = .ok values) {column : String} {w : Value}
    (found : Record.get? values column = some w) : ∃ f ∈ e.fields, f.column = column ∧ ∃ v, f.encode v = .ok w := by
  refine Results.foldKeeps (P := fun row : Row => ∀ column w, Record.get? row column = some w →
    ∃ f ∈ e.fields, f.column = column ∧ ∃ v, f.encode v = .ok w) ?_ encoded (fun _ _ none => by cases none) column w found
  rintro row ⟨name, v⟩ - next held step column w found
  dsimp only at step
  split at step
  · cases step
    exact held column w found
  · obtain ⟨f, named, step⟩ := Results.bindOk step
    obtain ⟨x, written, step⟩ := Results.bindOk step
    cases step
    by_cases own : column = f.column
    · subst own
      rw [(Record.getPut row f.column x).1] at found
      cases found
      exact ⟨f, (fieldFound (fieldOk named)).1, rfl, v, written⟩
    · rw [(Record.getPut row f.column x).2 column own] at found
      exact held column w found

theorem requiredThere {values : Row} (checked : e.checkRequired values = .ok ()) {f : Field} (mem : f ∈ e.fields) :
    f.generated ∨ f.nullable ∨ Row.value values f.column ≠ .absent := by
  unfold checkRequired at checked
  generalize e.fields = fields at checked mem
  induction fields with
  | nil => cases mem
  | cons g rest ih =>
    unfold List.forM at checked
    obtain ⟨_, here, later⟩ := Results.bindOk checked
    rcases List.mem_cons.mp mem with rfl | tail
    · split at here
      · rename_i either
        rw [Bool.or_eq_true] at either
        rcases either with generated | nullable
        · exact .inl generated
        · exact .inr (.inl nullable)
      · refine .inr (.inr fun absent => ?_)
        rw [absent] at here
        cases here
    · exact ih later tail

end Entity

namespace CellRule

variable {schema : Schema} {rule : CellRule schema} {e : Entity}

theorem Holds.same {s t : Store} (holds : rule.Holds s) (content : t.content = s.content)
    (sequences : t.sequences = s.sequences) : rule.Holds t := by
  obtain ⟨columns, tables⟩ := Prod.mk.inj content
  refine ⟨columns.trans holds.columns, fun entry mem => holds.counts entry (sequences ▸ mem), ?_⟩
  rw [tables]
  exact holds.rows

theorem Holds.column {s : Store} (holds : rule.Holds s) (mem : e ∈ schema.entities) {f : Field} (inside : f ∈ e.fields) :
    e.Column f (rule.cell e f) s := fun rows there row among => holds.rows e mem rows there row among f inside

section Rows

variable {s t : Store} {table : String} {values start row : Row}

theorem fillCells {cell : Field → Value → Prop} {fields : List Field} (columns : (fields.map (·.column)).Nodup)
    (given : ∀ f ∈ fields, ∀ v, Record.get? values f.column = some v → cell f v)
    (omitted : ∀ f ∈ fields, Record.get? values f.column = none → f.generated = false → cell f .null)
    (generated : ∀ f ∈ fields, ∀ (u w : Store) v, f.generated → u.Counts → u.generate table f = .ok (v, w) → cell f v)
    (counts : s.Counts) (ran : Store.fill table values fields start s = (.ok row, t)) :
    ∀ f ∈ fields, cell f (Row.value row f.column) := by
  -- each column is written once, so that what is put there is what the row has in the end
  induction fields generalizing start s with
  | nil => simp
  | cons f rest ih =>
    obtain ⟨fresh, apart⟩ := List.nodup_cons.mp columns
    obtain ⟨givenHere, givenLater⟩ := List.forall_mem_cons.mp given
    obtain ⟨omittedHere, omittedLater⟩ := List.forall_mem_cons.mp omitted
    obtain ⟨generatedHere, generatedLater⟩ := List.forall_mem_cons.mp generated
    have step : ∀ {v : Value} {u : Store}, cell f v → u.Counts →
        Store.fill table values rest (Record.put start f.column v) u = (.ok row, t) →
          ∀ g ∈ f :: rest, cell g (Row.value row g.column) := by
      intro v u held counted later
      refine List.forall_mem_cons.mpr ⟨?_, ih apart givenLater omittedLater generatedLater counted later⟩
      rw [(Store.fillOk later).2.1 _ fresh, Row.valuePut]
      exact held
    unfold Store.fill at ran
    split at ran
    · rename_i v found
      exact step (givenHere v found) counts ran
    · rename_i none
      split at ran
      · rename_i isGenerated
        split at ran
        · rename_i v u made
          exact step (generatedHere _ _ v isGenerated counts made) (Store.generateCounts counts made) ran
        · cases ran
      · rename_i plain
        exact step (omittedHere none (by simpa using plain)) counts ran

theorem newRowsCells {Q : Row → Prop} {fields : List Field} {old new made out : List Row}
    (each : ∀ values ∈ new, ∀ row (u w : Store), u.Counts → Store.fill table values fields [] u = (.ok row, w) → Q row)
    (counts : s.Counts) (ran : Store.newRows table fields old new made s = (.ok out, t)) (held : ∀ row ∈ made, Q row) :
    ∀ row ∈ out, Q row := by
  induction new generalizing made s with
  | nil =>
    cases ran
    exact held
  | cons values rest ih =>
    obtain ⟨here, later⟩ := List.forall_mem_cons.mp each
    unfold Store.newRows at ran
    split at ran
    · cases ran
    · rename_i row u filled
      have counted := Store.fillCounts table values fields [] counts
      rw [filled] at counted
      split at ran
      · cases ran
      · refine ih later counted ran fun other mem => ?_
        rcases List.mem_append.mp mem with old | new
        · exact held other old
        · obtain rfl := List.mem_singleton.mp new
          exact here other _ _ counts filled

theorem updateFromCells {Q : Row → Prop} {fields : List Field} {assignments : List Assignment}
    (each : ∀ row, Q row → Q (Store.assignedRow table fields assignments row)) {before changed : List Row}
    {rows : List (Bool × Row)} (passed : ∀ row ∈ before, Q row) (later : ∀ flag ∈ rows, Q flag.2) :
    ∀ row ∈ (Store.updateFrom table fields assignments before changed rows).rows, Q row := by
  induction rows generalizing before changed with
  | nil => exact passed
  | cons flag rest ih =>
    obtain ⟨isFlagged, row⟩ := flag
    obtain ⟨here, others⟩ := List.forall_mem_cons.mp later
    have extend : ∀ next, Q next → ∀ other ∈ before ++ [next], Q other := by
      intro next held other mem
      rcases List.mem_append.mp mem with old | new
      · exact passed other old
      · exact List.mem_singleton.mp new ▸ held
    cases isFlagged with
    | false =>
      rw [Store.updateFromPassed]
      exact ih (extend row here) others
    | true =>
      rw [Store.updateFromFlagged]
      split
      · intro other mem
        rcases List.mem_append.mp mem with old | new
        · exact passed other old
        · rcases List.mem_cons.mp new with rfl | tail
          · exact each row here
          · obtain ⟨flag, inside, rfl⟩ := List.mem_map.mp tail
            exact others flag inside
      · exact ih (extend _ (each row here)) others

end Rows

section Statements

variable (apart : schema.NamesApart) (mem : e ∈ schema.entities)

include apart mem

theorem filledRow {s t : Store} {values row : Row} (encoded : ∃ data, e.encodeRow data = .ok values)
    (checked : e.checkRequired values = .ok ()) (counts : s.Counts)
    (ran : Store.fill e.table values e.fields [] s = (.ok row, t)) : rule.OfRow e row := by
  obtain ⟨data, encoded⟩ := encoded
  have columns := apart.columns e mem
  refine fillCells columns (fun f inside v found => ?_) (fun f inside none plain => ?_)
    (fun f inside u w v => rule.generated mem inside) counts ran
  · obtain ⟨g, among, same, x, written⟩ := Entity.encodedColumns encoded found
    obtain rfl := List.inj_on_of_nodup_map columns among inside same
    refine rule.entered mem inside written ?_
    have there := Entity.requiredThere checked inside
    unfold Row.value at there
    rwa [found] at there
  · refine rule.omitted mem inside plain ?_
    have there := Entity.requiredThere checked inside
    unfold Row.value at there
    rw [none] at there
    rcases there with generated | allowed
    · exact absurd (generated.symm.trans plain) (by decide)
    · exact allowed

theorem assignedCell {a : Assignment} {before : Row} {v : Value} (assigns : rule.Assigns e a) (held : rule.OfRow e before)
    (ran : Store.assigned e.table e.fields before a = .ok v) : ∃ f ∈ e.fields, a.column = f.column ∧ rule.cell e f v := by
  obtain ⟨f, inside, named, kinds⟩ := assigns
  refine ⟨f, inside, named, ?_⟩
  unfold Store.assigned at ran
  rw [named, Store.fieldAtColumn (apart.columns e mem) inside] at ran
  rcases kinds with ⟨set, allowed⟩ | ⟨operation, x, computed, may, operand⟩
  · rw [set] at ran
    cases ran
    exact allowed
  · rw [computed] at ran
    exact rule.changed mem inside may operand (held f inside) ran

theorem assignedAll {assignments : List Assignment} (assigns : ∀ a ∈ assignments, rule.Assigns e a) {before row : Row}
    (read : rule.OfRow e before) (held : rule.OfRow e row) :
    rule.OfRow e (Store.assignAll e.table e.fields before assignments row).2 := by
  induction assignments generalizing row with
  | nil => exact held
  | cons a rest ih =>
    obtain ⟨here, later⟩ := List.forall_mem_cons.mp assigns
    unfold Store.assignAll
    split
    · exact held
    · rename_i v ran
      obtain ⟨f, inside, named, allowed⟩ := assignedCell apart mem here read ran
      refine ih later fun g among => ?_
      rw [named]
      by_cases own : g.column = f.column
      · obtain rfl := List.inj_on_of_nodup_map (apart.columns e mem) among inside own
        rw [Row.valuePut]
        exact allowed
      · rw [Row.valuePutOther row v own]
        exact held g among

theorem holdsReplaced {s t : Store} {rows next : List Row} (holds : rule.Holds s) (columns : t.fields = s.fields)
    (counts : t.Counts) (tables : t.tables = Record.replace s.tables e.table next)
    (there : Record.get? s.tables e.table = some rows) (each : ∀ row ∈ next, rule.OfRow e row) : rule.Holds t := by
  refine ⟨columns.trans holds.columns, counts, fun other among found listed row inside => ?_⟩
  rw [tables] at listed
  by_cases own : other.table = e.table
  · obtain rfl := List.inj_on_of_nodup_map apart.tables among mem own
    rw [Record.get?_replace (by rw [there]; rfl)] at listed
    cases listed
    exact each row inside
  · rw [Record.get?_replace_of_ne own] at listed
    exact holds.rows other among found listed row inside

theorem fieldsOfEntity {s : Store} {fields : List Field} (holds : rule.Holds s)
    (known : s.fieldsOf e.table = .ok fields) : fields = e.fields := by
  have listed : Record.get? s.fields e.table = some e.fields := by
    rw [holds.columns]
    exact Store.fieldsKnown apart.tables mem
  exact Option.some.inj ((Store.fieldsOfOk known).symm.trans listed)

/-- Whatever comes of a statement that an operation makes, the rule holds afterwards. -/
theorem admitsHolds {q : WriteStatement} {s : Store} (admits : rule.Admits e q) (holds : rule.Holds s) :
    rule.Holds (q.run s).2 := by
  cases q with
  | insert q =>
    obtain ⟨table, rows⟩ := admits
    change rule.Holds (s.insertRows q).2
    unfold Store.insertRows Store.insertInto
    split
    · exact holds
    · exact holds
    · rename_i fields old known there
      have kept := Store.newRowsContent q.table fields old q.rows [] s
      have counted := Store.newRowsCounts q.table fields old q.rows [] holds.counts
      rw [table] at known there ⊢
      obtain rfl := fieldsOfEntity apart mem holds known
      rw [table] at kept counted
      split
      · rename_i f t ran
        rw [ran] at kept counted
        obtain ⟨columns, tables⟩ := Prod.mk.inj kept
        exact ⟨columns.trans holds.columns, counted, tables ▸ holds.rows⟩
      · rename_i made t ran
        rw [ran] at kept counted
        obtain ⟨columns, tables⟩ := Prod.mk.inj kept
        have stored := Store.rowsOfOk there
        have replaced : (t.setRows e.table (old ++ made)).tables = Record.replace s.tables e.table (old ++ made) :=
          congrArg (fun tables => Record.replace tables e.table (old ++ made)) tables
        refine holdsReplaced apart mem holds columns counted replaced stored fun row inside => ?_
        rcases List.mem_append.mp inside with before | new
        · exact holds.rows e mem old stored row before
        · refine newRowsCells (fun values among out u w counts filled => ?_) holds.counts ran (by simp) row new
          exact filledRow apart mem (rows values among).1 (rows values among).2 counts filled
  | update q =>
    obtain ⟨table, assigns⟩ := admits
    change rule.Holds (s.updateRows q).2
    have columns := Store.updateColumns s q
    have sequences := Store.updateSequences s q
    unfold Store.updateRows at columns sequences ⊢
    rw [table] at columns sequences ⊢
    split
    · exact holds
    · rename_i fields rows flagging
      rw [flagging] at columns sequences
      obtain ⟨known, stored, there, rfl, -⟩ := Store.flaggedOk flagging
      obtain rfl := fieldsOfEntity apart mem holds known
      have tables := Store.updateFlaggedTables s e.table e.fields q.assignments
        (stored.map fun row => (Store.isMatch s.tables e.table q.condition row, row))
        fun fields changed => Store.written fields q.returning changed
      refine holdsReplaced apart mem holds columns (fun entry among => holds.counts entry (sequences ▸ among)) tables there ?_
      refine updateFromCells (fun row held => assignedAll apart mem assigns held held) (by simp) fun flag inside => ?_
      obtain ⟨row, among, rfl⟩ := List.mem_map.mp inside
      exact holds.rows e mem stored there row among
  | delete q =>
    change rule.Holds (s.deleteRows q).2
    have columns := Store.deleteColumns s q
    have sequences := Store.deleteSequences s q
    cases flagging : s.flagged q.table q.condition with
    | error f =>
      unfold Store.deleteRows Store.deleteFrom
      rw [flagging]
      exact holds
    | ok found =>
      obtain ⟨fields, rows⟩ := found
      obtain ⟨-, stored, there, listed, -⟩ := Store.flaggedOk flagging
      have tables := Store.deleteFromTables (fun fields gone => Store.written fields q.returning gone) flagging listed
      have table : q.table = e.table := admits
      unfold Store.deleteRows at columns sequences ⊢
      rw [table] at there tables columns sequences ⊢
      refine holdsReplaced apart mem holds columns (fun entry among => holds.counts entry (sequences ▸ among)) tables there ?_
      exact fun row inside => holds.rows e mem stored there row (List.mem_filter.mp inside).1

end Statements

theorem restoredHolds {s t : Store} (holds : rule.Holds s) (after : rule.Holds t) : rule.Holds (Store.restored s t) := by
  -- the tables are those that are there afterwards, the rows are copies of those that were there before
  refine ⟨after.columns, holds.counts, fun e mem rows listed row inside f among => ?_⟩
  obtain ⟨stored, there, rfl⟩ := Option.map_eq_some_iff.mp ((Store.tableCopied s.tables e.table).symm.trans listed)
  obtain ⟨before, old, rfl⟩ := List.mem_map.mp inside
  rw [Store.valueCopied]
  exact rule.copied (holds.rows e mem stored there before old f among)

theorem freshHolds : rule.Holds (Store.ofSchema schema) := by
  refine ⟨rfl, fun entry never => (List.not_mem_nil never).elim, fun e mem rows listed row inside => ?_⟩
  have empty := Record.getMapped (fun _ => ([] : List Row)) (Store.ofSchema schema).fields e.table
  obtain ⟨fields, there, rfl⟩ := Option.map_eq_some_iff.mp (empty.symm.trans listed)
  cases inside

end CellRule

end EntityQuery
