import EntityQuery.Proofs.BackwardReads
/-! Windows that are cut by a statement, by its limit and its offset, and windows that are cut from all rows afterwards.
Both keep the same rows; where duplicates are not dropped, a statement reads and decodes no others. -/

namespace EntityQuery

namespace Options

variable {α β : Type}

theorem mapReverse (l : List α) (f : α → Option β) : l.reverse.mapM f = (l.mapM f).map List.reverse := by
  induction l with
  | nil => rfl
  | cons x rest ih =>
    rw [List.reverse_cons, List.mapM_append, ih, List.mapM_cons, List.mapM_cons, List.mapM_nil]
    cases f x with
    | none => cases rest.mapM f <;> rfl
    | some y =>
      cases rest.mapM f with
      | none => rfl
      | some ys => exact congrArg some (List.reverse_cons ..).symm

theorem mapAllValues {f : α → Option α} {l out : List α} (ran : l.mapM f = some out) :
    out = l.map (fun x => (f x).getD x) ∧ ∀ x ∈ l, f x = some ((f x).getD x) := by
  induction l generalizing out with
  | nil =>
    cases ran
    exact ⟨rfl, fun x mem => absurd mem List.not_mem_nil⟩
  | cons x rest ih =>
    rw [List.mapM_cons] at ran
    obtain ⟨first, here, ran⟩ := Option.bind_eq_some_iff.mp ran
    obtain ⟨others, later, ran⟩ := Option.bind_eq_some_iff.mp ran
    cases ran
    obtain ⟨same, each⟩ := ih later
    rw [List.forall_mem_cons, List.map_cons, ← same, here]
    exact ⟨rfl, rfl, each⟩

theorem mapAllOk {f : α → Option β} {g : α → β} {l : List α} (each : ∀ x ∈ l, f x = some (g x)) :
    l.mapM f = some (l.map g) := by
  induction l with
  | nil => rfl
  | cons x rest ih =>
    rw [List.mapM_cons, each x List.mem_cons_self, ih fun y mem => each y (List.mem_cons_of_mem x mem)]
    rfl

end Options

namespace Store

variable {s : Store} {e : Entity} {table : String} {condition : Condition} {terms : List OrderTerm}

/-- The columns of a table and all its stored rows on which a condition is true, in an order. -/
def sorted (s : Store) (table : String) (condition : Condition) (terms : List OrderTerm) :
    Except Failure (List Field × List Row) := do
  let rows ← s.matching table condition
  let sorted ← sortRows terms rows
  return (← s.fieldsOf table, sorted)

/-- A stored row as a statement returns it and an entity decodes it. -/
def decoded (e : Entity) (fields : List Field) (row : Row) : Option Row :=
  (project fields e.columns row >>= e.decodeRow).toOption

/-- A statement reads the rows between its bounds and no others. -/
theorem selectSorted (limit offset : Value) :
    (do
      let rows ← s.selectRows ⟨e.table, e.columns, condition, terms, limit, offset⟩
      rows.mapM fun row => e.decodeRow row).toOption =
        (s.sorted e.table condition terms).toOption.bind fun (fields, rows) =>
          (page limit offset rows).toOption.bind fun part => part.mapM (decoded e fields) := by
  unfold selectRows sorted
  dsimp only
  cases s.matching e.table condition with
  | error f => rfl
  | ok found =>
    change (do
      let rows ← (do
        let sorted ← sortRows terms found
        let fields ← s.fieldsOf e.table
        (← page limit offset sorted).mapM (project fields e.columns))
      rows.mapM fun row => e.decodeRow row).toOption = (do
        let sorted ← sortRows terms found
        return (← s.fieldsOf e.table, sorted)).toOption.bind _
    cases sortRows terms found with
    | error f => rfl
    | ok rows =>
      cases s.fieldsOf e.table with
      | error f => rfl
      | ok fields =>
        change (do
          let rows ← (do (← page limit offset rows).mapM (project fields e.columns))
          rows.mapM fun row => e.decodeRow row).toOption =
            (page limit offset rows).toOption.bind fun part => part.mapM (decoded e fields)
        cases page limit offset rows with
        | error f => rfl
        | ok part =>
          change (do
            let rows ← part.mapM (project fields e.columns)
            rows.mapM fun row => e.decodeRow row).toOption = part.mapM (decoded e fields)
          rw [Results.toOptionBind, Options.exceptMap, funext fun rows => Options.exceptMap rows fun row => e.decodeRow row,
            Options.mapBind]
          exact congrArg (List.mapM · part) (funext fun row => (Results.toOptionBind _ _).symm)

theorem sortedFew {fields : List Field} {rows : List Row}
    (few : ∀ stored, s.rowsOf table = .ok stored → stored.length < 2 ^ 53)
    (ran : s.sorted table condition terms = .ok (fields, rows)) : rows.length < 2 ^ 53 := by
  obtain ⟨found, matched, ran⟩ := Results.bindOk ran
  obtain ⟨sorted, moved, ran⟩ := Results.bindOk ran
  obtain ⟨columns, -, ran⟩ := Results.bindOk ran
  cases ran
  obtain ⟨stored, there, filtered⟩ := Results.bindOk matched
  calc rows.length = found.length := (sortRowsMoves moved).length_eq
    _ ≤ stored.length := (Results.filterSublist filtered).length_le
    _ < 2 ^ 53 := few stored there

end Store

namespace Window

variable {w : Window} {e : Entity} {rows : List Row}

theorem applyUndistinct (whole : w.distinct.isEmpty) (rows : List Row) : w.apply rows = w.page rows := by
  unfold apply distinctRows
  rw [if_pos whole]
  rfl

/-- A window that drops no duplicates keeps rows by their places, whatever is read of them. -/
theorem pageEach (valid : w.validate e = .ok ()) (few : rows.length < 2 ^ 53) :
    ∃ l o b kept, w.limit = .ok l ∧ bound w.skip = .ok o ∧ w.isBackwards = .ok b ∧
      Store.page (.ofBound l) (.ofBound o) rows = .ok kept ∧
        ∀ f : Row → Row, w.page (rows.map f) = .ok (if b then (kept.map f).reverse else kept.map f) := by
  obtain ⟨l, o, b, kept, limited, bounded, backwards, paged, -⟩ := pageWindow valid few id
  refine ⟨l, o, b, kept, limited, bounded, backwards, paged, fun f => ?_⟩
  obtain ⟨l', o', b', kept', limited', bounded', backwards', paged', whole⟩ := pageWindow valid few f
  obtain rfl := Except.ok.inj (limited.symm.trans limited')
  obtain rfl := Except.ok.inj (bounded.symm.trans bounded')
  obtain rfl := Except.ok.inj (backwards.symm.trans backwards')
  obtain rfl := Except.ok.inj (paged.symm.trans paged')
  exact whole

/-- The same window without bounds. -/
def unpaged (w : Window) : Window := { w with take := .null, skip := .null }

/-- The same window, cut to one of its pages of a size. -/
def paged (w : Window) (size i : Nat) : Window := { w with take := .int size, skip := .int (i * size) }

theorem applyUnpaged (w : Window) (rows : List Row) : w.unpaged.apply rows = distinctRows w.distinct rows := by
  unfold apply
  change (distinctRows w.distinct rows >>= fun kept => .ok kept) = _
  cases distinctRows w.distinct rows <;> rfl

theorem applyPaged (w : Window) (size i : Nat) (rows : List Row) :
    (w.paged size i).apply rows = (distinctRows w.distinct rows).map (cut (some (i * size)) (some size)) := by
  have backwards : (w.paged size i).isBackwards = .ok false := by
    change Except.ok (some (compare (size : Int) 0) == some .lt) = _
    have least : compare (size : Int) 0 ≠ .lt := fun less => absurd (compare_lt_iff_lt.mp less) (by omega)
    rw [beq_false_of_ne fun same => least (Option.some.inj same)]
  have limited : (w.paged size i).limit = .ok (some (.integer size)) := by
    change Except.ok (some (if decide ((size : Int) < 0) then (Number.integer size).neg else .integer size)) = _
    rw [decide_eq_false (by omega), if_neg Bool.false_ne_true]
  have bounded : bound (w.paged size i).skip = .ok (some (.integer (i * size : Nat))) := by
    rw [Nat.cast_mul]
    rfl
  unfold apply
  change (distinctRows w.distinct rows >>= (w.paged size i).page) = _
  cases distinctRows w.distinct rows with
  | error f => rfl
  | ok kept =>
    change (w.paged size i).page kept = .ok ((kept.drop (i * size)).take size)
    unfold page
    rw [bounded, limited, backwards]
    change Except.ok (Slice.takeTo (.integer size) (Slice.dropTo (.integer (i * size : Nat)) kept)) = _
    rw [Slice.takeTo, Slice.dropTo, Slice.position_ofNat, Slice.position_ofNat]

theorem distinctFewer {fields : List Value} {out : List Row} (distinct : distinctRows fields rows = .ok out) :
    out.length ≤ rows.length := by
  have fewer : ∀ keyed seen, (firstOfEach seen keyed).length ≤ keyed.length := by
    intro keyed
    induction keyed with
    | nil => exact fun seen => Nat.le_refl 0
    | cons entry rest ih =>
      intro seen
      unfold firstOfEach
      split
      · exact Nat.le_succ_of_le (ih seen)
      · exact Nat.succ_le_succ (ih _)
  unfold distinctRows at distinct
  split at distinct
  · cases distinct
    exact Nat.le_refl _
  · obtain ⟨keyed, keying, distinct⟩ := Results.bindOk distinct
    cases distinct
    exact (fewer keyed []).trans_eq (Results.mapAllPaired keying).length_eq.symm

/-- All pages of a window, one after the other, are the window without bounds. -/
theorem pagesJoined (w : Window) {size pages : Nat} (covers : rows.length ≤ pages * size) :
    ((List.range pages).mapM fun i => (w.paged size i).apply rows).map List.flatten = w.unpaged.apply rows := by
  rw [applyUnpaged, funext fun i => applyPaged w size i rows]
  cases distinct : distinctRows w.distinct rows with
  | ok kept =>
    have joined : ((List.range pages).mapM fun i => (Except.ok kept).map (cut (some (i * size)) (some size))) =
        (.ok ((List.range pages).map fun i => cut (some (i * size)) (some size) kept) : Except Failure _) :=
      Results.mapAllOk fun i _ => rfl
    rw [joined]
    change Except.ok ((List.range _).map fun i => cut (some (i * size)) (some size) kept).flatten = _
    rw [← List.flatMap_def, cutPages]
    change Except.ok (kept.take (pages * size)) = _
    rw [List.take_of_length_le ((distinctFewer distinct).trans covers)]
  | error f =>
    -- where duplicates cannot be told, there are rows, so there is a first page, which fails as all rows do
    cases pages with
    | zero =>
      obtain rfl : rows = [] := List.length_eq_zero_iff.mp (by omega)
      unfold distinctRows at distinct
      split at distinct <;> cases distinct
    | succ pages =>
      rw [List.range_succ_eq_map, List.mapM_cons]
      rfl

end Window

namespace Context

variable {c : Context} {e : Entity} {s : Session Store} {condition : Condition} {w : Window} {order : List OrderSpec}

/-- All rows that a read selects, in its effective order and decoded: those of its statement without bounds. -/
def wholeRows (c : Context) (e : Entity) (condition : Condition) (w : Window) : Action Store (List Row) := do
  let order ← w.effectiveOrder e
  match ← c.withCursor e [condition] w order with
  | none => return []
  | some conditions =>
    let terms ← Window.orderTerms e order
    let rows ← c.select ⟨e.table, e.columns, .conjunction conditions, terms, .null, .null⟩
    rows.mapM fun row => (e.decodeRow row : Except Failure Row)

/-- The columns of the table and the stored rows that a read selects before its window is cut, in its effective order. -/
def selected (c : Context) (e : Entity) (condition : Condition) (w : Window) (s : Session Store) :
    Option (List Field × List Row) := do
  let order ← (w.effectiveOrder e).toOption
  let conditions ← (c.withCursor e [condition] w order : Action Store (Option (List Condition))).answer s
  conditions.elim (some ([], [])) fun conditions => do
    let terms ← (Window.orderTerms e order).toOption
    (s.backend.sorted e.table (.conjunction conditions) terms).toOption

theorem selectedAfter (ordered : w.effectiveOrder e = .ok order) :
    c.selected e condition w s =
      ((c.withCursor e [condition] w order : Action Store (Option (List Condition))).answer s).bind fun conditions =>
        conditions.elim (some ([], [])) fun conditions => (Window.orderTerms e order).toOption.bind fun terms =>
          (s.backend.sorted e.table (.conjunction conditions) terms).toOption := by
  unfold selected
  rw [ordered]
  rfl

theorem selectedUnordered {f : Failure} (unordered : w.effectiveOrder e = .error f) : c.selected e condition w s = none := by
  unfold selected
  rw [unordered]
  rfl

theorem selectedFew {fields : List Field} {rows : List Row}
    (few : ∀ stored, s.backend.rowsOf e.table = .ok stored → stored.length < 2 ^ 53)
    (ran : c.selected e condition w s = some (fields, rows)) : rows.length < 2 ^ 53 := by
  obtain ⟨order, -, ran⟩ := Option.bind_eq_some_iff.mp ran
  obtain ⟨conditions, -, ran⟩ := Option.bind_eq_some_iff.mp ran
  cases conditions with
  | none =>
    cases ran
    decide
  | some conditions =>
    obtain ⟨terms, -, ran⟩ := Option.bind_eq_some_iff.mp ran
    exact Store.sortedFew few (Results.toOptionOk ran)

/-- What a statement with bounds answers once its rows are decoded. -/
theorem boundedAnswer (conditions : List Condition) (terms : List OrderTerm) (limit offset : Value)
    {next : List Row → Action Store (List Row)} (later : ∀ rows, Writes (fun _ => False) (next rows)) :
    (do
      let rows ← c.select ⟨e.table, e.columns, .conjunction conditions, terms, limit, offset⟩
      let decoded ← rows.mapM fun row => (e.decodeRow row : Except Failure Row)
      next decoded : Action Store (List Row)).answer s =
        (s.backend.sorted e.table (.conjunction conditions) terms).toOption.bind fun (fields, rows) =>
          (Store.page limit offset rows).toOption.bind fun part =>
            (part.mapM (Store.decoded e fields)).bind fun decoded => (next decoded).answer s := by
  rw [selectDecoded _ later, Store.selectSorted, Option.bind_assoc]
  exact congrArg _ (funext fun (fields, rows) => Option.bind_assoc ..)

theorem wholeAnswer : (c.wholeRows e condition w).answer s =
    (c.selected e condition w s).bind fun (fields, rows) => rows.mapM (Store.decoded e fields) := by
  unfold wholeRows
  rw [liftAnswered]
  cases ordered : w.effectiveOrder e with
  | error f =>
    rw [selectedUnordered ordered]
    rfl
  | ok order =>
    have done : ∀ q : Select, Writes (fun _ => False) (do
        let rows ← c.select q
        rows.mapM fun row => (liftM (e.decodeRow row) : Action Store Row)) := by
      intro q
      simp only [Step.mapLift]
      exact .bind (.select c q) fun rows => .lift _
    rw [selectedAfter ordered, Option.bind_assoc]
    change Action.answer (c.withCursor e [condition] w order >>= _) s = _
    refine ((c.withCursorWrites e _ w order).answerBind (fun conditions => ?_) s).trans ?_
    · cases conditions with
      | none => exact .pure _
      | some conditions => exact .liftBind fun terms _ => done _
    · refine congrArg _ (funext fun conditions => ?_)
      cases conditions with
      | none => rfl
      | some conditions =>
        change Action.answer (liftM (Window.orderTerms e order) >>= _) s = Option.bind (Option.bind _ _) _
        rw [liftAnswered, Option.bind_assoc]
        refine congrArg _ (funext fun terms => (?_ : Action.answer _ s = _).trans (Store.selectSorted .null .null))
        simp only [Step.mapLift]
        rw [selectAnswered _ fun rows => .lift _, Results.toOptionBind]
        exact congrArg _ (funext fun rows => liftAnswer _ s)

/-- A read whose statement cuts its rows decodes those that its window keeps and no others. -/
theorem cutAnswer {conditions : List Condition} (valid : w.validate e = .ok ()) (whole : w.distinct.isEmpty)
    (few : ∀ stored, s.backend.rowsOf e.table = .ok stored → stored.length < 2 ^ 53) :
    (c.readWindow e w order conditions).answer s =
      (Window.orderTerms e order).toOption.bind fun terms =>
        (s.backend.sorted e.table (.conjunction conditions) terms).toOption.bind fun (fields, rows) =>
          (w.apply rows).toOption.bind fun kept => kept.mapM (Store.decoded e fields) := by
  have turned : ∀ rows : List Row, Writes (fun _ => False) (do
      if ← w.isBackwards then return rows.reverse else return rows : Action Store (List Row)) := by
    intro rows
    refine .liftBind fun backwards _ => ?_
    split <;> exact .pure _
  have none : ([] : List Row).length < 2 ^ 53 := by decide
  obtain ⟨l, o, b, -, limited, bounded, backwards, -⟩ := Window.pageWindow valid none id
  unfold readWindow
  rw [liftAnswered]
  refine congrArg _ (funext fun terms => ?_)
  dsimp only
  rw [whole, if_pos rfl, liftAnswered, limited]
  change Action.answer (if true = true then _ else _) s = _
  rw [if_pos rfl, liftAnswered, bounded]
  refine (boundedAnswer conditions terms _ _ turned).trans ?_
  cases sorted : s.backend.sorted e.table (.conjunction conditions) terms with
  | error f => rfl
  | ok found =>
    obtain ⟨fields, rows⟩ := found
    obtain ⟨l', o', b', kept, limited', bounded', backwards', paged, each⟩ :=
      Window.pageEach valid (Store.sortedFew few sorted)
    obtain rfl := Except.ok.inj (limited.symm.trans limited')
    obtain rfl := Except.ok.inj (bounded.symm.trans bounded')
    obtain rfl := Except.ok.inj (backwards.symm.trans backwards')
    have applied := each id
    rw [List.map_id, List.map_id, ← Window.applyUndistinct whole] at applied
    change (Store.page (.ofBound l) (.ofBound o) rows).toOption.bind _ = (w.apply rows).toOption.bind _
    rw [paged, applied]
    change ((kept.mapM (Store.decoded e fields)).bind fun decoded => Action.answer (liftM w.isBackwards >>= _) s) =
      List.mapM (Store.decoded e fields) (if b then kept.reverse else kept)
    simp only [liftAnswered, backwards]
    cases b with
    | true =>
      rw [if_pos rfl, Options.mapReverse]
      cases kept.mapM (Store.decoded e fields) <;> rfl
    | false =>
      rw [if_neg Bool.false_ne_true]
      cases kept.mapM (Store.decoded e fields) <;> rfl

/-- A read that drops duplicates decodes all its rows. -/
theorem distinctAnswer {conditions : List Condition} (dropping : w.distinct.isEmpty = false) :
    (c.readWindow e w order conditions).answer s =
      (Window.orderTerms e order).toOption.bind fun terms =>
        (s.backend.sorted e.table (.conjunction conditions) terms).toOption.bind fun (fields, rows) =>
          (rows.mapM (Store.decoded e fields)).bind fun decoded => (w.apply decoded).toOption := by
  unfold readWindow
  rw [liftAnswered]
  refine congrArg _ (funext fun terms => ?_)
  dsimp only
  simp only [dropping, Bool.false_eq_true, if_false, Bool.not_false, if_true]
  refine (boundedAnswer (c := c) conditions terms .null .null fun rows => .lift (w.apply rows)).trans ?_
  refine congrArg _ (funext fun (fields, rows) => ?_)
  change ((rows.mapM (Store.decoded e fields)).bind fun decoded => Action.answer (liftM (w.apply decoded)) s) = _
  exact congrArg _ (funext fun decoded => liftAnswer _ s)

/-- A read with a window that makes sense: without duplicates to drop it decodes the rows that the window keeps, else all. -/
theorem readAnswer (valid : w.validate e = .ok ())
    (few : ∀ stored, s.backend.rowsOf e.table = .ok stored → stored.length < 2 ^ 53) :
    (c.readRows e condition w : Action Store (List Row)).answer s =
      (c.selected e condition w s).bind fun (fields, rows) =>
        if w.distinct.isEmpty then (w.apply rows).toOption.bind fun kept => kept.mapM (Store.decoded e fields)
        else (rows.mapM (Store.decoded e fields)).bind fun decoded => (w.apply decoded).toOption := by
  rw [readRowsSteps, liftAnswered, valid]
  change Action.answer _ s = _
  rw [liftAnswered]
  cases ordered : w.effectiveOrder e with
  | error f =>
    rw [selectedUnordered ordered]
    rfl
  | ok order =>
    have later : ∀ conditions : Option (List Condition),
        Writes (fun _ => False) (conditions.elim (pure []) (c.readWindow e w order)) := by
      intro conditions
      cases conditions with
      | none => exact .pure _
      | some conditions => exact c.readWindowWrites e w order conditions
    change Action.answer _ s = _
    rw [(c.withCursorWrites e _ w order).answerBind later, selectedAfter ordered, Option.bind_assoc]
    refine congrArg _ (funext fun conditions => ?_)
    cases conditions with
    | none =>
      have nothing := Window.applyNil (Window.validCounts valid)
      change some [] = if w.distinct.isEmpty then (w.apply []).toOption.bind _ else (w.apply []).toOption
      rw [nothing]
      split <;> rfl
    | some conditions =>
      change (c.readWindow e w order conditions).answer s = Option.bind (Option.bind _ _) _
      rw [Option.bind_assoc]
      cases dropping : w.distinct.isEmpty with
      | true => exact cutAnswer valid dropping few
      | false => exact distinctAnswer dropping

/-- The rows of a page are decoded as they are among all rows. -/
theorem decodedPage {rows listed : List Row} {decode : Row → Option Row} (valid : w.validate e = .ok ())
    (whole : w.distinct.isEmpty) (few : rows.length < 2 ^ 53) (decoded : rows.mapM decode = some listed) :
    ((w.apply rows).toOption.bind fun kept => kept.mapM decode) = (w.apply listed).toOption := by
  obtain ⟨rfl, each⟩ := Options.mapAllValues decoded
  obtain ⟨l, o, b, kept, -, -, -, -, paged⟩ := Window.pageEach valid few
  have stored : w.apply rows = .ok (if b then kept.reverse else kept) := by
    rw [Window.applyUndistinct whole]
    simpa using paged id
  have inside : ∀ row ∈ (if b then kept.reverse else kept), decode row = some ((decode row).getD row) :=
    fun row mem => each row (Window.applyInside stored row mem)
  rw [stored, Window.applyUndistinct whole, paged]
  refine (Options.mapAllOk inside).trans (congrArg some ?_)
  cases b with
  | true => exact List.map_reverse
  | false => rfl

/-- Both ways of cutting a window give the same rows: a read answers what its window keeps of all rows that it selects,
in its order. Without duplicates to drop, rows outside of the window are not decoded, so a read of a window that makes
sense fails only with a row of its own. The pages of a window, one after the other, are the window without bounds. -/
theorem pagesAgree (c : Context) (e : Entity) (condition : Condition) (w : Window) (s : Session Store)
    (valid : w.validate e = .ok ())
    (few : ∀ stored, s.backend.rowsOf e.table = .ok stored → stored.length < 2 ^ 53) :
    (∀ listed, (c.wholeRows e condition w).answer s = some listed →
      (c.readRows e condition w : Action Store (List Row)).answer s = (w.apply listed).toOption) ∧
    ((c.wholeRows e condition w).answer s = none →
      (c.readRows e condition w : Action Store (List Row)).answer s =
        if w.distinct.isEmpty then
          (c.selected e condition w s).bind fun (fields, rows) =>
            (w.apply rows).toOption.bind fun kept => kept.mapM (Store.decoded e fields)
        else none) ∧
    ∀ (v : Window) (rows : List Row) (size pages : Nat), rows.length ≤ pages * size →
      ((List.range pages).mapM fun i => (v.paged size i).apply rows).map List.flatten = v.unpaged.apply rows := by
  rw [readAnswer valid few, wholeAnswer]
  refine ⟨fun listed decoded => ?_, fun undecoded => ?_, fun v rows size pages => v.pagesJoined⟩
  · obtain ⟨⟨fields, rows⟩, selected, decoded⟩ := Option.bind_eq_some_iff.mp decoded
    rw [selected]
    change (if w.distinct.isEmpty then _ else _) = _
    split
    · rename_i whole
      exact decodedPage valid whole (selectedFew few selected) decoded
    · rw [show rows.mapM (Store.decoded e fields) = some listed from decoded]
      rfl
  · cases w.distinct.isEmpty with
    | true => rfl
    | false =>
      cases selected : c.selected e condition w s with
      | none => rfl
      | some found =>
        rw [selected] at undecoded
        change (found.2.mapM (Store.decoded e found.1)).bind _ = none
        rw [show found.2.mapM (Store.decoded e found.1) = none from undecoded]
        rfl

end Context

namespace Sample

/-- The parts of no other part. -/
def outermost : Condition := .null ⟨"parts", "whole_code"⟩ false

/-- Parts with the greatest key first. -/
def latest (take skip : Value) : Window := Window.plain [⟨.text "id", .descending, none⟩] take skip

/-- Of three parts, the last but one. -/
theorem pagesOfParts : ∃ listed,
    ((⟨partsRegistry, .pooled⟩ : Context).wholeRows part outermost (latest (.int (-1)) (.int 1))).answer
      (partsSession (weighed [.null, .null, .null])) = some listed ∧
    partIds listed = [some 1, some 2, some 3] ∧
    ((⟨partsRegistry, .pooled⟩ : Context).readRows part outermost (latest (.int (-1)) (.int 1)) : Action Store (List Row)).answer
      (partsSession (weighed [.null, .null, .null])) = ((latest (.int (-1)) (.int 1)).apply listed).toOption ∧
    ((latest (.int (-1)) (.int 1)).apply listed).toOption.map partIds = some [some 2] := by
  have ranks : ∀ row ∈ weighed [.null, .null, .null], Store.Ranks [⟨"id", .ascending, none⟩] row := by
    intro row mem t inside
    obtain rfl := List.mem_singleton.mp inside
    simp only [weighed, List.mapIdx_cons, List.mapIdx_nil, List.mem_cons, List.not_mem_nil, or_false] at mem
    rcases mem with rfl | rfl | rfl <;> exact ⟨_, rfl, rfl⟩
  have selected : (⟨partsRegistry, .pooled⟩ : Context).selected part outermost (latest (.int (-1)) (.int 1))
      (partsSession (weighed [.null, .null, .null])) = some (part.fields, weighed [.null, .null, .null]) := by
    change ((Store.sortRows [⟨"id", .ascending, none⟩] (weighed [.null, .null, .null])).bind
      fun sorted => .ok (part.fields, sorted)).toOption = _
    rw [Store.sortRanked ranks, Store.rankedTold ranks (by decide +kernel) (.refl _) (by decide +kernel)]
    rfl
  have answered : ((⟨partsRegistry, .pooled⟩ : Context).wholeRows part outermost (latest (.int (-1)) (.int 1))).answer
      (partsSession (weighed [.null, .null, .null])) = some ([1, 2, 3].map fun id =>
        [("id", .int id), ("code", .text wheel), ("whole", .null), ("weight", .null), ("due", .null)]) := by
    rw [Context.wholeAnswer, selected]
    rfl
  refine ⟨_, answered, by decide +kernel, ?_, by decide +kernel⟩
  refine (Context.pagesAgree _ part outermost _ (partsSession (weighed [.null, .null, .null])) rfl ?_).1 _ answered
  rintro stored ⟨⟩
  decide

/-- A part, and one whose date is none. -/
def misdated : List Row := [partRow 1 wheel .null .null .null, partRow 2 wheel .null .null (.text "soon")]

/-- A page is read although a row behind it has no date that can be read; all rows cannot be. -/
theorem pageBeforeMisdated :
    (Window.plain [] (.int 1) .null).validate part = .ok () ∧
    (((⟨partsRegistry, .pooled⟩ : Context).wholeRows part outermost (Window.plain [] (.int 1) .null)).answer
      (partsSession misdated)).bind (fun listed => ((Window.plain [] (.int 1) .null).apply listed).toOption) = none ∧
    ((⟨partsRegistry, .pooled⟩ : Context).readRows part outermost (Window.plain [] (.int 1) .null) :
      Action Store (List Row)).answer (partsSession misdated) =
        some [[("id", .int 1), ("code", .text wheel), ("whole", .null), ("weight", .null), ("due", .null)]] := by
  have selected : (⟨partsRegistry, .pooled⟩ : Context).selected part outermost (Window.plain [] (.int 1) .null)
      (partsSession misdated) = some (part.fields, misdated) := by
    change ((Store.sortRows [] misdated).bind fun sorted => .ok (part.fields, sorted)).toOption = _
    rw [Store.sortedAsStored]
    rfl
  refine ⟨rfl, ?_, ?_⟩
  · rw [Context.wholeAnswer, selected]
    rfl
  · rw [Context.readAnswer rfl (by rintro stored ⟨⟩; decide), selected]
    rfl

end Sample

end EntityQuery
