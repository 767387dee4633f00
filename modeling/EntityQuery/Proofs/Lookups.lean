import EntityQuery.Operation.Related
import EntityQuery.Proofs.Keys
import EntityQuery.Proofs.Matching
import EntityQuery.Proofs.Statements
import EntityQuery.Proofs.Steps
/-! Looking up the row of a unique selector: which stored row is found, and what is read of it. -/

namespace EntityQuery

namespace Store

/-- Every column that a projection asks for comes back as it is stored, up to the form in which it is returned. -/
theorem projectValue {fields : List Field} {columns : List String} {row out : Row}
    (h : project fields columns row = .ok out) :
    ∀ column ∈ columns, returned fields column (Row.value row column) = .ok (Row.value out column) := by
  have run : ∀ (columns : List String) (start : Row),
      columns.foldlM (fun out c => do return Record.put out c (← returned fields c (Row.value row c))) start = .ok out →
        (∀ column ∈ columns, returned fields column (Row.value row column) = .ok (Row.value out column)) ∧
          ∀ column, column ∉ columns → Row.value out column = Row.value start column := by
    intro columns
    induction columns with
    | nil =>
      intro start h
      cases h
      exact ⟨nofun, fun _ _ => rfl⟩
    | cons c rest ih =>
      intro start h
      rw [List.foldlM_cons] at h
      obtain ⟨next, step, h⟩ := Results.bindOk h
      obtain ⟨v, read, step⟩ := Results.bindOk step
      cases step
      obtain ⟨inside, outside⟩ := ih _ h
      have here : returned fields c (Row.value row c) = .ok (Row.value out c) := by
        by_cases again : c ∈ rest
        · exact inside c again
        · rw [outside c again, Row.valuePut, read]
      refine ⟨?_, ?_⟩
      · rw [List.forall_mem_cons]
        exact ⟨here, inside⟩
      · intro column apart
        have differs : column ≠ c := fun eq => apart (List.mem_cons.mpr (.inl eq))
        have apartRest : column ∉ rest := fun mem => apart (List.mem_cons_of_mem c mem)
        rw [outside column apartRest, Row.valuePutOther start v differs]
  exact (run columns [] h).1

end Store

namespace Entity

variable {e : Entity}

theorem decodeValue {row decoded : Row} (names : (e.fields.map (·.name)).Nodup) (h : e.decodeRow row = .ok decoded)
    {f : Field} (mem : f ∈ e.fields) : f.decode (Row.value row f.column) = .ok (Row.value decoded f.name) := by
  unfold decodeRow at h
  generalize e.fields = fields at names mem h
  induction fields generalizing decoded with
  | nil => cases mem
  | cons g rest ih =>
    rw [List.mapM_cons] at h
    obtain ⟨pair, here, h⟩ := Results.bindOk h
    obtain ⟨v, read, here⟩ := Results.bindOk here
    obtain ⟨others, later, h⟩ := Results.bindOk h
    cases here
    cases h
    obtain ⟨fresh, names⟩ := List.nodup_cons.mp names
    rcases List.mem_cons.mp mem with rfl | inside
    · rw [read, Row.value, Record.get?, if_pos rfl]
      rfl
    · have apart : g.name ≠ f.name := fun same => fresh (List.mem_map.mpr ⟨f, inside, same.symm⟩)
      rw [ih names inside later, Row.value, Row.value, Record.get?, if_neg apart]

def Reads (e : Entity) (stored decoded : Row) : Prop :=
  ∃ out, Store.project e.fields e.columns stored = .ok out ∧ e.decodeRow out = .ok decoded

theorem readsValue {stored decoded : Row} (names : (e.fields.map (·.name)).Nodup) (reads : e.Reads stored decoded)
    {f : Field} (mem : f ∈ e.fields) :
    ∃ raw, Store.returned e.fields f.column (Row.value stored f.column) = .ok raw ∧
      f.decode raw = .ok (Row.value decoded f.name) := by
  obtain ⟨out, projected, decoding⟩ := reads
  exact ⟨_, Store.projectValue projected f.column (List.mem_map_of_mem mem), decodeValue names decoding mem⟩

end Entity

/-- An equality of a unique field of an entity with a value that is there, and that has a place in the order if it
can be compared at all. -/
structure Selector (e : Entity) where
  field : Field
  operand : Value
  found : e.field? field.name = some field
  unique : field.unique
  given : operand.isNothing = false
  placed : ∀ c, Store.comparable operand = .ok c → Store.isPlaced (some c)

/-- An equality compiles to itself: nothing makes its texts compare without case. -/
theorem Predicate.equalityCondition {registry : Registry Fetcher} {e : Entity} {f : Field} {operand : Value} {unique : Bool}
    {c : Condition} (found : e.field? f.name = some f) (there : operand.isNothing = false)
    (compiled : Predicate.condition registry e [.field e.name f.name (.compare .eq operand) unique] = .ok c) :
    c = .compare ⟨e.table, f.column⟩ (.of .eq) operand := by
  unfold Predicate.condition compile at compiled
  obtain ⟨insensitive, moded, compiled⟩ := Results.bindOk compiled
  cases moded
  obtain ⟨cs, listed, compiled⟩ := Results.bindOk compiled
  obtain ⟨asked, one, listed⟩ := Results.bindOk listed
  obtain ⟨rest, none, listed⟩ := Results.bindOk listed
  cases none
  unfold compileOne compileField at one
  obtain ⟨_, -, one⟩ := Results.bindOk one
  obtain ⟨g, named, tested⟩ := Results.bindOk one
  have same : e.fieldNamed (.text f.name) = .ok f := by
    change e.field f.name = _
    rw [Entity.field, found]
  obtain rfl := Except.ok.inj (named.symm.trans same)
  dsimp only at tested
  split at tested
  · obtain ⟨_, -, refused⟩ := Results.bindOk tested
    cases refused
  · have asks : asked = some (.compare ⟨e.table, g.column⟩ (.of .eq) operand) := by
      cases operand with
      | null | absent => cases there
      | _ =>
        cases tested
        rfl
    subst asks
    cases listed
    cases compiled
    rfl

namespace Selector

variable {e : Entity} {registry : Registry Fetcher}

/-- An operand that was written through a field has a place in the order, unless the field is opaque. -/
def ofWritten (field : Field) (found : e.field? field.name = some field) (unique : field.unique)
    (notOpaque : field.type ≠ .opaqueType) {v operand : Value} (written : field.encode v = .ok operand)
    (given : operand.isNothing = false) : Selector e where
  field := field
  operand := operand
  found := found
  unique := unique
  given := given
  placed := by
    intro c comparable
    obtain ⟨-, d, same, placed⟩ := Field.encodePlaces written notOpaque given
    exact Except.ok.inj (same.symm.trans comparable) ▸ placed

def predicate (x : Selector e) : Predicate := .field e.name x.field.name (.compare .eq x.operand) true

def picks (x : Selector e) (row : Row) : Bool := Store.meets (Row.value row x.field.column) x.operand

/-- Rows that a selector picks hold one value, as its operand has a place in the order. -/
theorem picksSame (x : Selector e) {a b : Row} (pa : x.picks a) (pb : x.picks b) :
    Store.same (Row.value a x.field.column) (Row.value b x.field.column) = .ok true := by
  obtain ⟨-, -, sameA⟩ := Store.meetsOk pa
  obtain ⟨-, -, sameB⟩ := Store.meetsOk pb
  obtain ⟨_, c, -, comparable, -⟩ := Store.sameOk sameA
  have places : Store.Places x.operand := ⟨x.given, c, comparable, x.placed c comparable⟩
  exact Store.sameTrans places sameA sameB

theorem condition (x : Selector e) {c : Condition} (compiled : Predicate.condition registry e [x.predicate] = .ok c) :
    c = .compare ⟨e.table, x.field.column⟩ (.of .eq) x.operand :=
  Predicate.equalityCondition x.found x.given compiled

end Selector

/-- A step that leaves the columns and the rows of all tables as they are. -/
def Keeps {α : Type} (step : Action Store α) (s : Session Store) : Prop :=
  (step.runOn s).2.backend.content = s.backend.content

namespace Keeps

variable {α β : Type} {s : Session Store}

theorem lift (r : Except Failure α) : Keeps (liftM r) s := rfl

theorem bind {step : Action Store α} {next : α → Action Store β} (first : Keeps step s)
    (later : ∀ a t, step.runOn s = (.ok a, t) → Keeps (next a) t) : Keeps (step >>= next) s := by
  refine Step.bindLeaves (P := fun t : Session Store => t.backend.content = s.backend.content) first fun a t ran same => ?_
  exact (later a t ran).trans same

theorem liftBind {r : Except Failure α} {next : α → Action Store β} (later : ∀ a, r = .ok a → Keeps (next a) s) :
    Keeps (liftM r >>= next) s := by
  refine bind (lift r) fun a t ran => ?_
  rw [Step.runLift, Prod.mk.injEq] at ran
  obtain ⟨value, rfl⟩ := ran
  exact later a value

theorem select (c : Context) (q : Select) : Keeps (c.select q) s := rfl

end Keeps

namespace Context

variable (c : Context) (e : Entity) (condition : Condition)

theorem readFirst : (c.readRows e condition { Window.empty with take := .int 1 } : Action Store (List Row)) = do
    let rows ← c.select ⟨e.table, e.columns, .conjunction [condition], [], .int 1, .null⟩
    let decoded ← (rows.mapM fun row => e.decodeRow row : Except Failure (List Row))
    return decoded := by
  have valid : ({ Window.empty with take := .int 1 } : Window).validate e = .ok () := rfl
  have order : ({ Window.empty with take := .int 1 } : Window).effectiveOrder e = .ok [] := rfl
  have forwards : ({ Window.empty with take := .int 1 } : Window).isBackwards = .ok false := rfl
  have limit : ({ Window.empty with take := .int 1 } : Window).limit = .ok (some (.integer 1)) := rfl
  unfold readRows
  rw [valid, order, limit, forwards]
  simp only [Step.mapLift]
  change (c.select ⟨e.table, e.columns, .conjunction [condition], [], .int 1, .null⟩ >>= fun rows =>
    liftM (rows.mapM fun row => e.decodeRow row) >>= fun decoded =>
      liftM (Except.ok false : Except Failure Bool) >>= fun backwards =>
        if backwards then pure decoded.reverse else pure decoded) = _
  refine congrArg _ (funext fun rows => ?_)
  cases rows.mapM fun row => e.decodeRow row <;> rfl

end Context

namespace Store

theorem sortedAsStored (rows : List Row) : sortRows [] rows = .ok rows := by
  have keyed : rows.mapM (keyed? []) = some (rows.map fun row => ([], row)) := by
    induction rows with
    | nil => rfl
    | cons row rest ih =>
      rw [List.mapM_cons, ih]
      rfl
  unfold sortRows
  rw [keyed]
  dsimp only
  rw [List.mergeSort_of_pairwise]
  · rw [List.map_map]
    exact congrArg Except.ok (List.map_id rows)
  · rw [List.pairwise_map]
    exact List.pairwise_of_forall fun _ _ => rfl

theorem pageFirst (rows : List Row) : page (.int 1) .null rows = .ok (rows.take 1) := by
  have start : (Value.int 0).plainNumber = .ok (.integer 0) := rfl
  have stop : (Value.int 0).plus (.int 1) = .ok (.int 1) := rfl
  unfold page
  change (do
    let stop ← (Value.int 0).plus (.int 1)
    return Slice.between (← (Value.int 0).plainNumber) (← stop.plainNumber) rows) = _
  rw [stop, start]
  change Except.ok (Slice.between (.integer 0) (.integer 1) rows) = _
  unfold Slice.between
  have first : Slice.position rows.length (.integer 0) = 0 := Slice.position_ofNat rows.length 0
  have last : Slice.position rows.length (.integer 1) = 1 := Slice.position_ofNat rows.length 1
  rw [first, last, List.drop_zero]

theorem rowsOfOk {s : Store} {table : String} {rows : List Row} (h : s.rowsOf table = .ok rows) :
    Record.get? s.tables table = some rows := by
  unfold rowsOf tableRows at h
  split at h
  · rename_i there
    cases h
    exact there
  · cases h

theorem fieldsOfOk {s : Store} {table : String} {fields : List Field} (h : s.fieldsOf table = .ok fields) :
    Record.get? s.fields table = some fields := by
  unfold fieldsOf at h
  split at h
  · rename_i there
    cases h
    exact there
  · cases h

theorem selectOne (s : Store) (table : String) (columns : List String) (c : Condition) :
    s.selectRows ⟨table, columns, c, [], .int 1, .null⟩ = (do
      let rows ← s.matching table c
      let fields ← s.fieldsOf table
      (rows.take 1).mapM fun row => project fields columns row) := by
  unfold selectRows
  refine congrArg (fun next => s.matching table c >>= next) (funext fun rows => ?_)
  dsimp only
  rw [sortedAsStored]
  refine congrArg (fun next => s.fieldsOf table >>= next) (funext fun fields => ?_)
  rw [pageFirst]
  rfl

theorem selectFirst {s : Store} {e : Entity} {c : Condition} {found : List Row}
    (columns : Record.get? s.fields e.table = some e.fields)
    (ran : s.selectRows ⟨e.table, e.columns, c, [], .int 1, .null⟩ = .ok found) :
    ∃ rows, Record.get? s.tables e.table = some rows ∧
      match rows.find? (isMatch s.tables e.table c) with
      | none => found = []
      | some row => ∃ out, found = [out] ∧ project e.fields e.columns row = .ok out := by
  rw [selectOne] at ran
  obtain ⟨kept, matched, ran⟩ := Results.bindOk ran
  obtain ⟨fields, known, ran⟩ := Results.bindOk ran
  unfold matching at matched
  obtain ⟨rows, there, matched⟩ := Results.bindOk matched
  obtain rfl : fields = e.fields := Option.some.inj ((fieldsOfOk known).symm.trans columns)
  have truths : ∀ row ∈ rows, matchesRow s.tables e.table c row = .ok (isMatch s.tables e.table c row) := by
    intro row mem
    exact Results.eqOkValueOr false (Results.filterItems matched row mem)
  rw [Results.filterOk truths] at matched
  cases matched
  refine ⟨rows, rowsOfOk there, ?_⟩
  rw [← List.head?_filter]
  cases first : rows.filter (isMatch s.tables e.table c) with
  | nil =>
    rw [first] at ran
    cases ran
    rfl
  | cons row rest =>
    rw [first] at ran
    obtain ⟨out, projected, ran⟩ := Results.bindOk ran
    cases ran
    exact ⟨out, rfl, projected⟩

end Store

namespace Context

variable {c : Context} {e : Entity} {s t : Session Store}

/-- A lookup whose selector can be read is one selection, of which the first row is decoded. -/
theorem lookupRun {p : Predicate} {condition : Condition} (meant : c.entityOf p = .ok e)
    (compiled : c.condition e [p] = .ok condition) :
    (c.lookup p).runOn s = ((do
        let found ← s.backend.selectRows ⟨e.table, e.columns, .conjunction [condition], [], .int 1, .null⟩
        return (← found.mapM fun row => e.decodeRow row).head?),
      s.withBackend (s.backend.record .select e.table)) := by
  have same : (s.backend.record .select e.table).selectRows = s.backend.selectRows := rfl
  unfold lookup
  rw [meant]
  change (do
    let condition ← c.condition e [p]
    return (← c.readRows e condition { Window.empty with take := .int 1 }).head? : Action Store (Option Row)).runOn s = _
  rw [compiled]
  change (c.readRows e condition { Window.empty with take := .int 1 } >>= fun rows => pure rows.head?).runOn s = _
  rw [readFirst, Step.runBind, Step.runBind, selectRun, same]
  cases s.backend.selectRows ⟨e.table, e.columns, .conjunction [condition], [], .int 1, .null⟩ with
  | error f => rfl
  | ok found =>
    dsimp only
    rw [Step.runLift]
    change _ = ((do return (← found.mapM fun row => e.decodeRow row).head?), _)
    cases found.mapM fun row => e.decodeRow row <;> rfl

theorem lookupKeeps (c : Context) (p : Predicate) (s : Session Store) : Keeps (c.lookup p) s := by
  unfold lookup
  refine Keeps.liftBind fun e _ => Keeps.liftBind fun condition _ => ?_
  rw [readFirst]
  exact Keeps.bind (Keeps.bind (Keeps.select c _) fun rows t _ => Keeps.lift _) fun rows t _ => rfl

theorem entityMeant {field : String} {test : FieldTest} {unique : Bool} (named : c.registry.get? e.name = some e) :
    c.entityOf (.field e.name field test unique) = .ok e := by
  change (c.registry.require e.name).mapError Failure.schema = _
  rw [Registry.require, named]
  rfl

/-- An entity that is meant is one that the registry holds under the name that is asked for. -/
theorem entityAsked {p : Predicate} (meant : c.entityOf p = .ok e) :
    ∃ name, p.askEntity = .ok (.text name) ∧ c.registry.get? name = some e := by
  obtain ⟨v, asked, meant⟩ := Results.bindOk meant
  unfold Registry.needed at meant
  split at meant
  · rename_i name
    refine ⟨name, asked, ?_⟩
    unfold Registry.require at meant
    cases there : c.registry.get? name with
    | none =>
      rw [there] at meant
      cases meant
    | some found =>
      rw [there] at meant
      exact congrArg some (Except.ok.inj meant)
  · rename_i other
    obtain ⟨found, looked, meant⟩ := Results.bindOk meant
    have none : found = none := by
      unfold Registry.find at looked
      split at looked
      · exact absurd rfl (other _)
      · split at looked <;> cases looked
        rfl
    subst none
    obtain ⟨_, -, refused⟩ := Results.bindOk meant
    cases refused

/-- The entity of a selector has the name of the one that it is to be about. -/
theorem meansNamed {p : Predicate} {v : Value} {other : Entity} (meant : c.entityOf p = .ok other)
    (asked : p.askEntity = .ok v) (means : c.registry.means v e = .ok true) : other.name = e.name := by
  obtain ⟨name, again, known⟩ := entityAsked meant
  obtain rfl := Except.ok.inj (again.symm.trans asked)
  have same : ((c.registry.get? name).any fun found => found.name == e.name) = true := Except.ok.inj means
  rw [known, Option.any_some] at same
  exact eq_of_beq same

/-- A lookup that succeeds read the first row that its selector finds, if there is one. -/
theorem lookupFound {p : Predicate} {found : Option Row} (meant : c.entityOf p = .ok e)
    (columns : Record.get? s.backend.fields e.table = some e.fields) (ran : (c.lookup p).runOn s = (.ok found, t)) :
    ∃ condition rows, c.condition e [p] = .ok condition ∧ Record.get? s.backend.tables e.table = some rows ∧
      match rows.find? (Store.isMatch s.backend.tables e.table (.conjunction [condition])) with
      | none => found = none
      | some row => ∃ decoded, found = some decoded ∧ e.Reads row decoded := by
  obtain ⟨condition, compiled⟩ : ∃ condition, c.condition e [p] = .ok condition := by
    unfold lookup at ran
    rw [meant] at ran
    obtain ⟨_, found, asked⟩ := Step.liftOk ran
    cases found
    obtain ⟨condition, compiled, -⟩ := Step.liftOk asked
    exact ⟨condition, compiled⟩
  rw [lookupRun meant compiled] at ran
  obtain ⟨rows, selected, ran⟩ := Results.bindOk (congrArg Prod.fst ran)
  obtain ⟨decoded, decoding, answer⟩ := Results.bindOk ran
  cases answer
  obtain ⟨stored, there, first⟩ := Store.selectFirst columns selected
  refine ⟨condition, stored, compiled, there, ?_⟩
  cases picked : stored.find? (Store.isMatch s.backend.tables e.table (.conjunction [condition])) with
  | none =>
    rw [picked] at first
    subst first
    cases decoding
    rfl
  | some row =>
    rw [picked] at first
    obtain ⟨out, rfl, projected⟩ := first
    obtain ⟨value, decodes, rest⟩ := Results.bindOk decoding
    cases rest
    exact ⟨value, rfl, out, projected, decodes⟩

theorem lookupOk (x : Selector e) (named : c.registry.get? e.name = some e)
    (columns : Record.get? s.backend.fields e.table = some e.fields) {found : Option Row}
    (ran : (c.lookup x.predicate).runOn s = (.ok found, t)) :
    ∃ rows, Record.get? s.backend.tables e.table = some rows ∧
      match rows.find? x.picks with
      | none => found = none
      | some row => ∃ decoded, found = some decoded ∧ e.Reads row decoded := by
  obtain ⟨condition, rows, compiled, there, first⟩ := lookupFound (entityMeant named) columns ran
  obtain rfl := x.condition compiled
  have picks : Store.isMatch s.backend.tables e.table
      (.conjunction [.compare ⟨e.table, x.field.column⟩ (.of .eq) x.operand]) = x.picks := by
    funext row
    exact congrArg (Results.valueOr false) (Store.matchesCompare _ _ _ _ row)
  rw [picks] at first
  exact ⟨rows, there, first⟩

end Context

end EntityQuery
