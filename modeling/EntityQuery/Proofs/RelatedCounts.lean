import EntityQuery.Proofs.Includes
import EntityQuery.Proofs.MergeSorts
import EntityQuery.Proofs.RecordedSelects
import EntityQuery.Proofs.SharedRows
/-! How many rows are related to a row. An include without a cursor counts the rows that match its filter, whatever its window
keeps of them: the order of a window moves rows only, and the rest of it is cut from what has been counted. -/

namespace EntityQuery

namespace Results

variable {ε α β : Type}

theorem mapMoved {f : α → Except ε β} {l m : List α} {out : List β} (moved : l.Perm m) (ran : l.mapM f = .ok out) :
    ∃ others, m.mapM f = .ok others ∧ out.Perm others := by
  induction moved generalizing out with
  | nil => exact ⟨out, ran, .refl _⟩
  | cons x _ ih =>
    rw [List.mapM_cons] at ran
    obtain ⟨y, here, ran⟩ := bindOk ran
    obtain ⟨ys, later, ran⟩ := bindOk ran
    cases ran
    obtain ⟨others, tail, same⟩ := ih later
    exact ⟨y :: others, by rw [List.mapM_cons, here, tail]; rfl, same.cons y⟩
  | swap x y l =>
    rw [List.mapM_cons, List.mapM_cons] at ran
    obtain ⟨a, first, ran⟩ := bindOk ran
    obtain ⟨rest, ran, done⟩ := bindOk ran
    obtain ⟨b, second, ran⟩ := bindOk ran
    obtain ⟨bs, later, ran⟩ := bindOk ran
    cases ran
    cases done
    exact ⟨b :: a :: bs, by rw [List.mapM_cons, List.mapM_cons, first, second, later]; rfl, .swap b a bs⟩
  | trans _ _ ih ih' =>
    obtain ⟨between, there, same⟩ := ih ran
    obtain ⟨others, end', again⟩ := ih' there
    exact ⟨others, end', same.trans again⟩

end Results

namespace Include

variable {field : String} {rows others : List Row} {keyed : List (String × Row)} {v : Value}

/-- Rows that are shared out in another order are shared out alike. -/
theorem sharedMoved (moved : rows.Perm others) (texts : keyedRows field rows = .ok keyed) {matched : List Row}
    (shared : rowsFor keyed v = .ok matched) :
    ∃ keyed' matched', keyedRows field others = .ok keyed' ∧ rowsFor keyed' v = .ok matched' ∧ matched.Perm matched' := by
  obtain ⟨keyed', texts', same⟩ := Results.mapMoved moved texts
  refine ⟨keyed', ?_⟩
  unfold rowsFor at shared ⊢
  split at shared
  · cases shared
    rename_i missing
    exact ⟨[], texts', if_pos missing, .refl _⟩
  · rename_i there
    obtain ⟨key, text, shared⟩ := Results.bindOk shared
    cases shared
    rw [if_neg there, text]
    exact ⟨_, texts', rfl, (same.filter _).map _⟩

end Include

namespace Context

variable {c : Context} {r : Relation} {target : Entity} {filter : List Predicate} {w : Window} {values : List Value}
  {s t u : Session Store}

/-- The rows that a fetch for some values brings for one of them where there is no window. -/
def unwindowed (c : Context) (r : Relation) (target : Entity) (filter : List Predicate) (values : List Value) (v : Value) :
    Action Store (List Row) := do
  let related ← c.fetchTable r target values filter .empty
  let keyed ← Include.keyedRows r.remote.field related
  Include.rowsFor keyed v

/-- What is selected in an order is selected in no order, moved. -/
theorem selectMoved {b : Store} {q : Select} {out : List Row} (whole : q.limit = .null ∧ q.offset = .null)
    (ran : b.selectRows q = .ok out) : ∃ plain, b.selectRows { q with order := [] } = .ok plain ∧ out.Perm plain := by
  unfold Store.selectRows at ran ⊢
  obtain ⟨found, matched, ran⟩ := Results.bindOk ran
  obtain ⟨sorted, sorts, ran⟩ := Results.bindOk ran
  obtain ⟨fields, known, ran⟩ := Results.bindOk ran
  obtain ⟨plain, unsorted, moved⟩ : ∃ plain, Store.sortRows [] found = .ok plain ∧ plain.Perm found :=
    Store.sortRowsYields fun row _ t mem => absurd mem List.not_mem_nil
  have all : ∀ l : List Row, Store.page q.limit q.offset l = .ok l := by
    intro l
    rw [whole.1, whole.2]
    rfl
  rw [matched]
  change ∃ plain, (do
    let sorted ← Store.sortRows [] found
    let fields ← b.fieldsOf q.table
    (← Store.page q.limit q.offset sorted).mapM (Store.project fields q.columns)) = .ok plain ∧ out.Perm plain
  rw [all sorted] at ran
  rw [unsorted, known]
  change ∃ plain', ((Store.page q.limit q.offset plain) >>= fun l => l.mapM (Store.project fields q.columns)) = .ok plain' ∧ out.Perm plain'
  rw [all plain]
  exact Results.mapMoved ((Store.sortRowsMoves sorts).trans moved.symm) ran

/-- What a fetch answers for a window without a cursor. -/
theorem fetchUncut (uncut : w.cursor = none) :
    (c.fetchTable r target values filter w : Action Store (List Row)).answer t = (do
      let keys ← (Include.distinctKeys values).toOption
      if keys.isEmpty then return []
      let remote ← (target.field r.remote.field).toOption
      let _ ← (w.validate target).toOption
      let order ← (w.effectiveOrder target).toOption
      let operands ← (keys.mapM remote.encode).toOption
      let condition ← (c.condition target filter).toOption
      let terms ← (Window.orderTerms target order).toOption
      let rows ← (t.backend.selectRows ⟨target.table, target.columns,
        .conjunction [.inList (target.ref remote.column) operands false, condition], terms, .null, .null⟩).toOption
      (rows.mapM target.decodeRow).toOption) := by
  unfold fetchTable
  simp only [Step.mapLift]
  rw [liftAnswered]
  refine congrArg _ (funext fun keys => ?_)
  split
  · rfl
  · rw [liftAnswered]
    refine congrArg _ (funext fun remote => ?_)
    rw [liftAnswered]
    refine congrArg _ (funext fun _ => ?_)
    rw [liftAnswered]
    refine congrArg _ (funext fun order => ?_)
    rw [liftAnswered]
    refine congrArg _ (funext fun operands => ?_)
    rw [liftAnswered]
    refine congrArg _ (funext fun condition => ?_)
    have later : ∀ q : Select, Writes (fun _ => False) (do
        let rows ← c.select q
        liftM (rows.mapM target.decodeRow) : Action Store (List Row)) := fun q => .bind (.select c q) fun rows => .lift _
    unfold withCursor
    rw [uncut, pure_bind]
    refine ((Writes.tell _ _).answerBind (fun _ => .liftBind fun terms _ => later _) t).trans ?_
    refine (liftAnswered _ _ t).trans (congrArg _ (funext fun terms => ?_))
    rw [selectAnswered _ fun rows => .lift _]
    exact congrArg _ (funext fun rows => liftAnswer _ t)

/-- The same rows are fetched whatever window asks for them, if it has no cursor; only their order hangs on it. -/
theorem fetchMoved (uncut : w.cursor = none) {related : List Row}
    (brought : (c.fetchTable r target values filter w : Action Store (List Row)).answer t = some related) :
    ∃ plain, (c.fetchTable r target values filter .empty : Action Store (List Row)).answer t = some plain ∧ related.Perm plain := by
  rw [fetchUncut uncut] at brought
  rw [fetchUncut (w := .empty) rfl]
  obtain ⟨keys, distinct, brought⟩ := Option.bind_eq_some_iff.mp brought
  rw [distinct]
  dsimp only [Option.bind_eq_bind, Option.bind_some]
  split at brought
  · rename_i none
    rw [if_pos none]
    exact ⟨related, brought, .refl _⟩
  · rename_i given
    rw [if_neg given]
    obtain ⟨remote, found, brought⟩ := Option.bind_eq_some_iff.mp brought
    obtain ⟨_, -, brought⟩ := Option.bind_eq_some_iff.mp brought
    obtain ⟨order, -, brought⟩ := Option.bind_eq_some_iff.mp brought
    obtain ⟨operands, encoded, brought⟩ := Option.bind_eq_some_iff.mp brought
    obtain ⟨condition, compiled, brought⟩ := Option.bind_eq_some_iff.mp brought
    obtain ⟨terms, -, brought⟩ := Option.bind_eq_some_iff.mp brought
    obtain ⟨rows, selected, decoded⟩ := Option.bind_eq_some_iff.mp brought
    obtain ⟨plain, unordered, moved⟩ := selectMoved ⟨rfl, rfl⟩ (Results.toOptionOk selected)
    obtain ⟨views, decodes, same⟩ := Results.mapMoved moved (Results.toOptionOk decoded)
    refine ⟨views, ?_, same⟩
    refine Option.bind_eq_some_iff.mpr ⟨remote, found, Option.bind_eq_some_iff.mpr ⟨(), rfl, ?_⟩⟩
    refine Option.bind_eq_some_iff.mpr ⟨[], rfl, Option.bind_eq_some_iff.mpr ⟨operands, encoded, ?_⟩⟩
    refine Option.bind_eq_some_iff.mpr ⟨condition, compiled, Option.bind_eq_some_iff.mpr ⟨[], rfl, ?_⟩⟩
    exact Option.bind_eq_some_iff.mpr ⟨plain, congrArg Except.toOption unordered, congrArg Except.toOption decodes⟩

variable {e : Entity} {relation : String} {window : Window} {fields : List String} {counted : Bool} {nested : List Include}
  {parents attached : Counted}

theorem unwindowedAnswer {v : Value} {plain matched : List Row} {keyed : List (String × Row)}
    (brought : (c.fetchTable r target values filter .empty : Action Store (List Row)).answer s = some plain)
    (texts : Include.keyedRows r.remote.field plain = .ok keyed) (shared : Include.rowsFor keyed v = .ok matched) :
    (c.unwindowed r target filter values v).answer s = some matched := by
  unfold unwindowed
  rw [(c.fetchTableWrites r target values filter .empty).answerBind fun rows => .liftBind fun keyed _ => .lift _, brought]
  change Action.answer (liftM (Include.keyedRows r.remote.field plain) >>= _) s = _
  rw [texts]
  change Action.answer (liftM (Include.rowsFor keyed v)) s = _
  rw [shared]
  rfl

/-- What is shared out to a row before the window cuts it: as many rows as there are for it without a window. -/
theorem levelMatched (related : c.registry.related e (.text relation) = .ok (r, target))
    (tabled : c.registry.fetcher target.name = .ok .table) (uncut : window.cursor = none) (alike : t.bare = s.bare) {l : Level}
    (ran : (c.level e (.mk relation filter window fields counted nested) parents : Action Store Level).runOn t = (.ok l, u)) :
    List.Forall₂ (fun (parent : Row × Record Value) matched => ∃ rows,
      (c.unwindowed r target filter (parents.map fun p => Row.value p.1 r.own.field)
        (Row.value parent.1 r.own.field)).answer s = some rows ∧ matched.length = rows.length) parents l.matched := by
  unfold level at ran
  simp only [Step.mapLift] at ran
  obtain ⟨found, known, ran⟩ := Step.liftOk ran
  obtain rfl := Except.ok.inj (related.symm.trans known)
  obtain ⟨rows, v, fetched, ran⟩ := Step.bindOk ran
  obtain ⟨keyed, texts, ran⟩ := Step.liftOk ran
  obtain ⟨matched, shared, ran⟩ := Step.liftOk ran
  obtain ⟨windowed, -, ran⟩ := Step.liftOk ran
  cases ran
  unfold fetch at fetched
  rw [tabled] at fetched
  have brought := (ranAlike (c.fetchTableWrites r target _ filter window) alike fetched).1
  obtain ⟨plain, unordered, moved⟩ := fetchMoved uncut brought
  have paired := Results.mapAllPaired shared
  rw [List.forall₂_map_left_iff] at paired
  refine paired.imp fun parent own given => ?_
  obtain ⟨keyed', matched', texts', shared', same⟩ := Include.sharedMoved moved texts given
  exact ⟨matched', unwindowedAnswer unordered texts' shared', same.length_eq⟩

/-- An include that counts, and whose window has no cursor, counts what there is for each row without a window. -/
theorem attachCounts (related : c.registry.related e (.text relation) = .ok (r, target))
    (tabled : c.registry.fetcher target.name = .ok .table) (uncut : window.cursor = none) (alike : t.bare = s.bare)
    (ran : (c.attach e (.mk relation filter window fields true nested) parents : Action Store Counted).runOn t = (.ok attached, u)) :
    List.Forall₂ (fun (parent attached : Row × Record Value) => ∃ rows,
      (c.unwindowed r target filter (parents.map fun p => Row.value p.1 r.own.field)
        (Row.value parent.1 r.own.field)).answer s = some rows ∧
      Record.get? attached.2 relation = some (.nat rows.length)) parents attached := by
  rw [attachLevel] at ran
  obtain ⟨l, v, read, ran⟩ := Step.bindOk ran
  obtain ⟨loaded, v, -, ran⟩ := Step.bindOk ran
  cases ran
  refine (giveAttaches (levelMatched related tabled uncut alike read) (c.levelLengths read).2 loaded).imp ?_
  rintro parent attached ⟨all, ⟨rows, answered, same⟩, -, counts⟩
  refine ⟨rows, answered, ?_⟩
  rw [counts, same]
  exact (Record.getPut parent.2 relation _).1

/-- Includes that do not count a relation leave its count as it is. -/
theorem attachAllSpares {specs : List Include} (apart : ∀ spec ∈ specs, countsRows spec → spec.relation ≠ relation)
    (ran : (c.attachAll e specs parents : Action Store Counted).runOn t = (.ok attached, u)) :
    List.Forall₂ (fun parent attached => Record.get? attached.2 relation = Record.get? parent.2 relation) parents attached := by
  induction specs generalizing parents t with
  | nil =>
    cases ran
    exact List.forall₂_same.mpr fun parent _ => rfl
  | cons spec rest ih =>
    unfold attachAll at ran
    obtain ⟨first, v, begun, ended⟩ := Step.bindOk ran
    obtain ⟨here, later⟩ := List.forall_mem_cons.mp apart
    refine Results.pairedTrans (c.attachAttaches begun) (ih later ended) ?_
    rintro parent next last ⟨count, -, counts⟩ same
    rw [same, counts]
    split
    · rename_i counting
      exact (Record.getPut parent.2 spec.relation _).2 relation (here counting).symm
    · rfl

theorem attachAllAppend (c : Context) (e : Entity) (before after : List Include) (parents : Counted) :
    (c.attachAll e (before ++ after) parents : Action Store Counted) =
      c.attachAll e before parents >>= fun parents => c.attachAll e after parents := by
  induction before generalizing parents with
  | nil => exact (pure_bind _ _).symm
  | cons spec rest ih =>
    change (c.attach e spec parents >>= fun parents => c.attachAll e (rest ++ after) parents) =
      (c.attach e spec parents >>= fun parents => c.attachAll e rest parents) >>= _
    rw [bind_assoc]
    exact congrArg _ (funext fun parents => ih parents)

theorem loadCounts {before after : List Include} {rows loaded : List Row}
    (related : c.registry.related e (.text relation) = .ok (r, target)) (tabled : c.registry.fetcher target.name = .ok .table)
    (uncut : window.cursor = none) (own : r.own.field ∉ Include.names before)
    (sole : ∀ spec ∈ after, countsRows spec → spec.relation ≠ relation)
    (ran : (c.loadIncludes e (before ++ .mk relation filter window fields true nested :: after) rows :
      Action Store (List Row)).runOn s = (.ok loaded, u)) :
    List.Forall₂ (fun row out => ∃ counts found, Record.get? out "_count" = some (.object counts) ∧
      Record.get? counts relation = some (.nat found.length) ∧
      (c.unwindowed r target filter (rows.map fun row => Row.value row r.own.field) (Row.value row r.own.field)).answer s =
        some found) rows loaded := by
  unfold loadIncludes at ran
  split at ran
  · rename_i empty
    cases ran
    rw [List.isEmpty_iff.mp empty]
    exact .nil
  · obtain ⟨attached, v, ran, ended⟩ := Step.bindOk ran
    cases ended
    rw [attachAllAppend] at ran
    obtain ⟨first, v, begun, ran⟩ := Step.bindOk ran
    unfold attachAll at ran
    obtain ⟨counted, w, counts, ended⟩ := Step.bindOk ran
    have alike := (ranAlike (c.attachAllWrites e before _) rfl begun).2
    have kept := c.attachAllKeeps begun
    rw [List.forall₂_map_left_iff] at kept
    have values : (rows.map fun row => Row.value row r.own.field) = first.map fun p => Row.value p.1 r.own.field :=
      Results.pairedMap (fun row parent agree => by unfold Row.value; rw [agree _ own]) kept
    have counting : (before ++ .mk relation filter window fields true nested :: after).any countsRows = true :=
      List.any_eq_true.mpr ⟨_, List.mem_append_right _ List.mem_cons_self, rfl⟩
    unfold withCounts
    rw [List.forall₂_map_right_iff, counting, values]
    have tallied : List.Forall₂ (fun (parent last : Row × Record Value) => ∃ found,
        (c.unwindowed r target filter (first.map fun p => Row.value p.1 r.own.field)
          (Row.value parent.1 r.own.field)).answer s = some found ∧
        Record.get? last.2 relation = some (.nat found.length)) first attached :=
      Results.pairedTrans (attachCounts related tabled uncut alike counts) (attachAllSpares sole ended)
        fun parent next last ⟨found, answered, count⟩ same => ⟨found, answered, same.trans count⟩
    refine Results.pairedTrans kept tallied fun row parent last agree ⟨found, answered, count⟩ => ?_
    refine ⟨last.2, found, (Record.getPut last.1 "_count" _).1, count, ?_⟩
    rw [← answered]
    unfold Row.value
    rw [agree _ own]

section Keyed

variable {f g : Field} {stored : List Row} {v : Value}

/-- The stored rows that a fetch without a window reaches before it asks for keys: those that the filter leaves. -/
theorem reachableUnwindowed {kept : List Row} (reached : c.reachable target filter .empty s stored = some kept) :
    ∃ condition passed, c.condition target filter = .ok condition ∧
      stored.filterM (Store.passing s.backend.tables target.table [condition]) = .ok passed ∧ kept.Perm passed := by
  unfold reachable Context.reached at reached
  obtain ⟨condition, compiled, reached⟩ := Option.bind_eq_some_iff.mp reached
  obtain ⟨_, -, reached⟩ := Option.bind_eq_some_iff.mp reached
  obtain ⟨order, ordered, reached⟩ := Option.bind_eq_some_iff.mp reached
  cases ordered
  obtain ⟨after, uncut, reached⟩ := Option.bind_eq_some_iff.mp reached
  cases uncut
  obtain ⟨passed, passes, ranked⟩ := Option.bind_eq_some_iff.mp reached
  cases ranked
  exact ⟨condition, passed, Results.toOptionOk compiled, Results.toOptionOk passes, List.mergeSort_perm passed _⟩

/-- Where the keys are stored as they are written: as many rows as a select by key and filter finds. -/
theorem unwindowedPicks (joins : r.Joins e target f g .empty s.backend stored) (holds : ∀ v ∈ values, g.HoldsKey v)
    (mem : v ∈ values) {found : List Row} (answered : (c.unwindowed r target filter values v).answer s = some found) :
    if v.isNothing then found = [] else ∃ condition picked, c.condition target filter = .ok condition ∧
      s.backend.matching target.table (.conjunction [.compare (target.ref g.column) (.of .eq) v, condition]) = .ok picked ∧
      found.length = picked.length := by
  unfold unwindowed at answered
  rw [(c.fetchTableWrites r target values filter .empty).answerBind fun rows => .liftBind fun keyed _ => .lift _,
    fetchKeyed joins holds] at answered
  split
  · rename_i missing
    obtain ⟨rows, -, answered⟩ := Option.bind_eq_some_iff.mp answered
    rw [liftAnswered] at answered
    obtain ⟨keyed, -, answered⟩ := Option.bind_eq_some_iff.mp answered
    unfold Include.rowsFor at answered
    rw [if_pos missing] at answered
    cases answered
    rfl
  · rename_i there
    have given : ¬ values.all Value.isNothing := fun none => there (List.all_eq_true.mp none v mem)
    rw [if_neg given] at answered
    obtain ⟨rows, reached, answered⟩ := Option.bind_eq_some_iff.mp answered
    obtain ⟨kept, reaches, rfl⟩ := Option.map_eq_some_iff.mp reached
    obtain ⟨condition, passed, compiled, passes, moved⟩ := reachableUnwindowed reaches
    have picks : Store.Picks s.backend.tables target.table stored (.compare (target.ref g.column) (.of .eq) v) fun row =>
        Store.meets (Row.value row g.column) v := Store.picksEqual joins.keyed joins.plain joins.keys (holds v mem)
    refine ⟨condition, passed.filter fun row => Store.meets (Row.value row g.column) v, compiled, ?_, ?_⟩
    · rw [picks.matching joins.readable.stored, passes]
      rfl
    · rw [liftAnswered] at answered
      obtain ⟨keyed, texts, answered⟩ := Option.bind_eq_some_iff.mp answered
      have shared := rowsShared joins holds (reachableInside reaches)
      rw [Results.toOptionOk texts] at shared
      have own := List.forall₂_same.mp (List.forall₂_map_right_iff.mp (Results.mapAllPaired shared)) v mem
      obtain rfl := Option.some.inj (answered.symm.trans ((liftAnswer _ s).trans (congrArg Except.toOption own)))
      rw [List.length_map]
      exact (moved.filter _).length_eq

end Keyed

/-- An include that counts says of every row how many rows are related to it and match its filter, whatever its window asks for
but a cursor: the count is that of a fetch without a window, and where the keys are stored as they are written, that of a
select by key and filter. -/
theorem relatedCounts (before after : List Include) {rows loaded : List Row}
    (related : c.registry.related e (.text relation) = .ok (r, target)) (tabled : c.registry.fetcher target.name = .ok .table)
    (uncut : window.cursor = none) (own : r.own.field ∉ Include.names before)
    (sole : ∀ spec ∈ after, countsRows spec → spec.relation ≠ relation)
    (ran : (c.loadIncludes e (before ++ .mk relation filter window fields true nested :: after) rows :
      Action Store (List Row)).runOn s = (.ok loaded, u)) :
    List.Forall₂ (fun row out => ∃ counts found, Record.get? out "_count" = some (.object counts) ∧
      Record.get? counts relation = some (.nat found.length) ∧
      (c.unwindowed r target filter (rows.map fun row => Row.value row r.own.field) (Row.value row r.own.field)).answer s =
        some found ∧
      ∀ f g stored, r.Joins e target f g .empty s.backend stored → (∀ row ∈ rows, f.HoldsKey (Row.value row r.own.field)) →
        if (Row.value row r.own.field).isNothing then found = [] else ∃ condition picked,
          c.condition target filter = .ok condition ∧ s.backend.matching target.table
            (.conjunction [.compare (target.ref g.column) (.of .eq) (Row.value row r.own.field), condition]) = .ok picked ∧
          found.length = picked.length) rows loaded := by
  have counted := loadCounts related tabled uncut own sole ran
  have inside := (List.forall₂_and_left rows loaded).mpr ⟨fun row (mem : row ∈ rows) => mem, counted⟩
  refine inside.imp ?_
  rintro row out ⟨mem, counts, found, shown, count, answered⟩
  refine ⟨counts, found, shown, count, answered, fun f g stored joins keys => ?_⟩
  refine unwindowedPicks joins (fun v listed => ?_) (List.mem_map_of_mem mem) answered
  obtain ⟨row, mem, rfl⟩ := List.mem_map.mp listed
  exact (keys row mem).transfer joins.same joins.keyed

end Context

namespace Sample

/-- The first two of some stored parts with their pieces, which are counted. -/
def loadPieces (w : Window) : Action Store (List Row) :=
  (Context.mk partsRegistry .pooled).loadIncludes part [piecesIn w true []] ((unweighed.take 2).map part.view)

def pieceCount (row : Row) : Option Int := Window.integer? ((Row.value row "_count").member "pieces")

theorem relatedCountsOfParts : ∃ loaded u,
    (loadPieces { byWeight with take := .int 1 }).runOn (partsSession unweighed) = (.ok loaded, u) ∧
    loaded.map pieceCount = [some 3, some 1] ∧
    List.Forall₂ (fun row out => ∃ counts found, Record.get? out "_count" = some (.object counts) ∧
      Record.get? counts "pieces" = some (.nat found.length) ∧
      ((Context.mk partsRegistry .pooled).unwindowed pieces part [] (((unweighed.take 2).map part.view).map fun row =>
        Row.value row "code") (Row.value row "code")).answer (partsSession unweighed) = some found)
      ((unweighed.take 2).map part.view) loaded := by
  have ended : (((loadPieces { byWeight with take := .int 1 }).runOn (partsSession unweighed)).1.toOption.map fun loaded =>
      loaded.map pieceCount) = some [some 3, some 1] := by decide +kernel
  cases ran : (loadPieces { byWeight with take := .int 1 }).runOn (partsSession unweighed) with
  | mk result u =>
    rw [ran] at ended
    cases result with
    | error e => cases ended
    | ok loaded =>
      have known : partsRegistry.related part (.text "pieces") = .ok (pieces, part) := rfl
      have counted := Context.relatedCounts [] [] known rfl rfl (by decide) (by decide) ran
      exact ⟨loaded, u, rfl, Option.some.inj ended,
        counted.imp fun row out ⟨counts, found, shown, count, answered, _⟩ => ⟨counts, found, shown, count, answered⟩⟩

/-- A cursor does change the counts: only pieces behind it are counted. -/
example : (((loadPieces { Window.empty with cursor := some (.field "Part" "id" (.compare .eq (.int 5)) true) }).runOn
    (partsSession unweighed)).1.toOption.map fun loaded => loaded.map pieceCount) = some [some 1, some 0] := by decide +kernel

end Sample

end EntityQuery
