import EntityQuery.Proofs.CompiledTruth
import EntityQuery.Proofs.Matching
import EntityQuery.Proofs.PendingLookups
import EntityQuery.Proofs.SortedRows
import EntityQuery.Proofs.UniqueReads
import EntityQuery.Proofs.Windows
/-! The rows that a read reaches before its window is cut: those on which its conditions are true, in its effective order.
A condition that is joined to the others picks some of the rows that are reached without it, and leaves their order. -/

namespace EntityQuery

namespace Truth

/-- Does a truth value leave a conjunction true? -/
def passes (t : Truth) : Bool := t != known false && t != unknown

theorem allTrue (ts : List Truth) : (all ts).isTrue = ts.all passes := by
  induction ts with
  | nil => rfl
  | cons t rest ih =>
    rw [List.all_cons, ← ih]
    unfold all
    rw [List.contains_cons, List.contains_cons]
    generalize rest.contains (known false) = refused
    generalize rest.contains unknown = undecided
    cases t with
    | known b => cases b <;> cases refused <;> cases undecided <;> rfl
    | unknown => cases refused <;> cases undecided <;> rfl
    | beside counted => cases refused <;> cases undecided <;> rfl

theorem passesTrue {t : Truth} (proper : t.isProper) : t.passes = t.isTrue := by
  cases t with
  | known b => cases b <;> rfl
  | unknown => rfl
  | beside counted => cases proper

end Truth

namespace Results

theorem filterPicks {α : Type} {l : List α} {f g : α → Except Failure Bool} {p : α → Bool}
    (picks : ∀ x ∈ l, f x = do return p x && (← g x)) : l.filterM f = (l.filterM g).map (List.filter p) := by
  have aux : ∀ acc : List α, l.filterAuxM f (acc.filter p) = (l.filterAuxM g acc).map (List.filter p) := by
    induction l with
    | nil => exact fun acc => rfl
    | cons x rest ih =>
      intro acc
      have tail := ih fun y mem => picks y (List.mem_cons_of_mem x mem)
      rw [List.filterAuxM, List.filterAuxM, picks x List.mem_cons_self]
      cases g x with
      | error e => rfl
      | ok b =>
        change rest.filterAuxM f (cond (p x && b) (x :: acc.filter p) (acc.filter p)) =
          (rest.filterAuxM g (cond b (x :: acc) acc)).map (List.filter p)
        rw [← tail]
        cases b with
        | false => rw [Bool.and_false]; rfl
        | true => cases kept : p x <;> simp [kept]
  have whole := aux []
  rw [List.filter_nil] at whole
  rw [List.filterM, List.filterM, whole]
  cases l.filterAuxM g [] with
  | error e => rfl
  | ok kept => exact congrArg Except.ok List.filter_reverse.symm

theorem filterSublist {α : Type} {l kept : List α} {f : α → Except Failure Bool} (h : l.filterM f = .ok kept) : kept.Sublist l := by
  have passed : ∀ x ∈ l, f x = .ok (valueOr false (f x)) := fun x mem => eqOkValueOr false (filterItems h x mem)
  rw [filterOk passed] at h
  cases h
  exact List.filter_sublist

end Results

namespace Store

variable {tables : Tables} {table : String} {row : Row} {c : Condition} {cs : List Condition}

/-- Do the members of a conjunction leave it true on a row? -/
def passing (tables : Tables) (table : String) (cs : List Condition) (row : Row) : Except Failure Bool :=
  if (cs.filter fun c => !c.isTrue).any Condition.isFalse then .ok false
  else do return (← evaluateAll tables [(table, row)] (cs.filter fun c => !c.isTrue)).all Truth.passes

theorem keptPlain (plain : c.constant? = none) (cs : List Condition) :
    ((c :: cs).filter fun c => !c.isTrue) = c :: cs.filter (fun c => !c.isTrue) ∧ c.isFalse = false := by
  have notTrue : (!c.isTrue) = true := by
    unfold Condition.isTrue
    rw [plain]
    rfl
  refine ⟨List.filter_cons_of_pos notTrue, ?_⟩
  unfold Condition.isFalse
  rw [plain]
  rfl

/-- A conjunction of a condition that is no constant with others. -/
theorem matchesJoined (plain : c.constant? = none) (proper : ∀ t, evaluate tables [(table, row)] c = .ok t → t.isProper) :
    matchesRow tables table (Condition.conjunction (c :: cs)) row =
      if (cs.filter fun c => !c.isTrue).any Condition.isFalse then .ok false
      else do
        let t ← evaluate tables [(table, row)] c
        let ts ← evaluateAll tables [(table, row)] (cs.filter fun c => !c.isTrue)
        return t.isTrue && ts.all Truth.passes := by
  obtain ⟨kept, notFalse⟩ := keptPlain plain cs
  unfold Condition.conjunction
  rw [kept]
  dsimp only
  rw [List.any_cons, notFalse, Bool.false_or]
  split
  · rfl
  · generalize cs.filter (fun c => !c.isTrue) = kept
    cases kept with
    | nil =>
      change (do return (← evaluate tables [(table, row)] c).isTrue) = _
      cases evaluate tables [(table, row)] c with
      | error e => rfl
      | ok t => exact congrArg Except.ok (Bool.and_true _).symm
    | cons d rest =>
      change (do return (← evaluate tables [(table, row)] (.all (c :: d :: rest))).isTrue) = _
      rw [evaluate, evaluateAll]
      cases evaluated : evaluate tables [(table, row)] c with
      | error e => rfl
      | ok t =>
        change (do return (← (do
          let ts ← (do
            let ts ← evaluateAll tables [(table, row)] (d :: rest)
            return t :: ts)
          return Truth.all ts)).isTrue) = (do
            let ts ← evaluateAll tables [(table, row)] (d :: rest)
            return t.isTrue && ts.all Truth.passes)
        cases evaluateAll tables [(table, row)] (d :: rest) with
        | error e => rfl
        | ok ts =>
          change Except.ok (Truth.all (t :: ts)).isTrue = _
          rw [Truth.allTrue, List.all_cons, Truth.passesTrue (proper t evaluated)]
          rfl

theorem matchesPassing {t : Truth} (plain : c.constant? = none) (evaluates : evaluate tables [(table, row)] c = .ok t)
    (proper : t.isProper) :
    matchesRow tables table (Condition.conjunction (c :: cs)) row = do return t.isTrue && (← passing tables table cs row) := by
  have only : ∀ u, evaluate tables [(table, row)] c = .ok u → u.isProper := by
    intro u other
    rw [evaluates] at other
    cases other
    exact proper
  rw [matchesJoined plain only, evaluates]
  unfold passing
  split
  · exact congrArg Except.ok (Bool.and_false _).symm
  · cases evaluateAll tables [(table, row)] (cs.filter fun c => !c.isTrue) <;> rfl

/-- A conjunction inside another says what its members say in the outer one. -/
theorem matchesNested {d : Condition} {t : Truth} (plain : c.constant? = none) (evaluates : evaluate tables [(table, row)] c = .ok t)
    (proper : t.isProper) :
    matchesRow tables table (Condition.conjunction (Condition.conjunction [c, d] :: cs)) row = do
      return t.isTrue && (← passing tables table (d :: cs) row) := by
  cases constant : d.constant? with
  | some b =>
    have alone : Condition.conjunction [c, d] = if b then c else .constant false := by
      unfold Condition.conjunction Condition.isTrue Condition.isFalse
      cases b <;> simp [plain, constant]
    have rest : passing tables table (d :: cs) row = if b then passing tables table cs row else .ok false := by
      unfold passing Condition.isTrue Condition.isFalse
      cases b <;> simp [constant]
    rw [alone, rest]
    cases b with
    | true => exact matchesPassing plain evaluates proper
    | false => exact congrArg Except.ok (Bool.and_false _).symm
  | none =>
    obtain ⟨kept, notFalse⟩ := keptPlain constant cs
    have joined : Condition.conjunction [c, d] = .all [c, d] := by
      unfold Condition.conjunction Condition.isTrue Condition.isFalse
      simp [plain, constant]
    have evaluated : evaluate tables [(table, row)] (.all [c, d]) = do
        let u ← evaluate tables [(table, row)] d
        return Truth.all [t, u] := by
      rw [evaluate, evaluateAll, evaluates, evaluateAll, evaluateAll]
      cases evaluate tables [(table, row)] d <;> rfl
    have every : ∀ u, evaluate tables [(table, row)] (.all [c, d]) = .ok u → u.isProper := by
      intro u found
      rw [evaluated] at found
      obtain ⟨v, -, found⟩ := Results.bindOk found
      cases found
      exact Truth.properGathered true [t, v]
    rw [joined, matchesJoined rfl every, evaluated]
    unfold passing
    rw [kept, List.any_cons, notFalse, Bool.false_or]
    split
    · exact congrArg Except.ok (Bool.and_false _).symm
    · rw [evaluateAll]
      cases evaluate tables [(table, row)] d with
      | error e => rfl
      | ok u =>
        cases evaluateAll tables [(table, row)] (cs.filter fun c => !c.isTrue) with
        | error e => rfl
        | ok us =>
          change Except.ok ((Truth.all [t, u]).isTrue && us.all Truth.passes) = .ok (t.isTrue && (u :: us).all Truth.passes)
          rw [Truth.allTrue, List.all_cons, List.all_cons, List.all_cons, List.all_nil, Truth.passesTrue proper, Bool.and_true,
            Bool.and_assoc]

/-- A condition that is true of some rows and of no others, and is no constant. -/
structure Picks (tables : Tables) (table : String) (rows : List Row) (c : Condition) (p : Row → Bool) : Prop where
  plain : c.constant? = none
  truths : ∀ row ∈ rows, ∃ t, evaluate tables [(table, row)] c = .ok t ∧ t.isProper ∧ t.isTrue = p row

variable {s : Store} {rows : List Row} {p : Row → Bool}

theorem Picks.matching (there : Record.get? s.tables table = some rows) (picks : Picks s.tables table rows c p) :
    s.matching table (Condition.conjunction (c :: cs)) = (rows.filterM (passing s.tables table cs)).map (List.filter p) := by
  unfold Store.matching rowsOf tableRows
  rw [there]
  refine Results.filterPicks fun row mem => ?_
  obtain ⟨t, evaluates, proper, same⟩ := picks.truths row mem
  rw [matchesPassing picks.plain evaluates proper, same]

theorem matchingSublist {found : List Row} (there : Record.get? s.tables table = some rows)
    (matched : s.matching table c = .ok found) : found.Sublist rows := by
  unfold Store.matching rowsOf tableRows at matched
  rw [there] at matched
  exact Results.filterSublist matched

theorem Picks.matchingNested {d : Condition} (there : Record.get? s.tables table = some rows)
    (picks : Picks s.tables table rows c p) :
    s.matching table (Condition.conjunction (Condition.conjunction [c, d] :: cs)) =
      (rows.filterM (passing s.tables table (d :: cs))).map (List.filter p) := by
  unfold Store.matching rowsOf tableRows
  rw [there]
  refine Results.filterPicks fun row mem => ?_
  obtain ⟨t, evaluates, proper, same⟩ := picks.truths row mem
  rw [matchesNested picks.plain evaluates proper, same]

end Store

namespace Entity

/-- What is asked of the stored rows of an entity: they and their columns are there, all of them can be read, and there
are fewer than a number counts. -/
structure Readable (e : Entity) (b : Store) (rows : List Row) : Prop where
  columns : Record.get? b.fields e.table = some e.fields
  stored : Record.get? b.tables e.table = some rows
  reads : ∀ row ∈ rows, ∃ decoded, e.read row = .ok decoded
  few : rows.length < 2 ^ 53

/-- What is read of a stored row. -/
def view (e : Entity) (stored : Row) : Row := Results.valueOr [] (e.read stored)

theorem readViews {e : Entity} {l : List Row} (reads : ∀ row ∈ l, ∃ decoded, e.read row = .ok decoded) :
    (do
      let outs ← l.mapM (Store.project e.fields e.columns)
      outs.mapM fun out => e.decodeRow out) = .ok (l.map e.view) := by
  induction l with
  | nil => rfl
  | cons row rest ih =>
    have tail := ih fun row mem => reads row (List.mem_cons_of_mem _ mem)
    obtain ⟨decoded, read⟩ := reads row List.mem_cons_self
    have seen : e.view row = decoded := by
      unfold view
      rw [read]
      rfl
    obtain ⟨out, projected, decodes⟩ := Results.bindOk read
    obtain ⟨outs, others, decoding⟩ := Results.bindOk tail
    rw [List.mapM_cons, projected, others]
    change (out :: outs).mapM (fun out => e.decodeRow out) = _
    rw [List.mapM_cons, decodes, decoding, List.map_cons, seen]
    rfl

end Entity

namespace Store

variable {s : Store} {e : Entity} {rows : List Row} {terms : List OrderTerm} {condition : Condition} {p : Row → Bool}

theorem pageInside {limit offset : Value} {l out : List Row} (paged : page limit offset l = .ok out) : ∀ row ∈ out, row ∈ l := by
  unfold page at paged
  dsimp only at paged
  split at paged
  · obtain ⟨n, -, paged⟩ := Results.bindOk paged
    cases paged
    exact fun row mem => List.mem_of_mem_drop mem
  · obtain ⟨stop, -, paged⟩ := Results.bindOk paged
    obtain ⟨n, -, paged⟩ := Results.bindOk paged
    obtain ⟨k, -, paged⟩ := Results.bindOk paged
    cases paged
    exact fun row mem => List.mem_of_mem_take (List.mem_of_mem_drop mem)

/-- What a statement answers whose condition picks some of the rows, once the rows are decoded. -/
theorem selectViews {limit offset : Value} {kept : Except Failure (List Row)}
    (columns : Record.get? s.fields e.table = some e.fields) (reads : ∀ row ∈ rows, ∃ decoded, e.read row = .ok decoded)
    (ranks : ∀ row ∈ rows, Ranks terms row) (inside : ∀ l, kept = .ok l → ∀ row ∈ l, row ∈ rows)
    (matched : s.matching e.table condition = kept.map (List.filter p)) :
    (do
      let found ← s.selectRows ⟨e.table, e.columns, condition, terms, limit, offset⟩
      found.mapM fun row => e.decodeRow row) =
        kept >>= fun l => (page limit offset ((ranked terms l).filter p)).map (List.map e.view) := by
  have known : s.fieldsOf e.table = .ok e.fields := by
    unfold fieldsOf
    rw [columns]
  unfold selectRows
  rw [matched]
  cases kept with
  | error f => rfl
  | ok l =>
    have within := inside l rfl
    have sorted : sortRows terms (l.filter p) = .ok ((ranked terms l).filter p) := by
      rw [rankedFilter (fun row mem => ranks row (within row mem)) p]
      exact sortRanked fun row mem => ranks row (within row (List.mem_filter.mp mem).1)
    change (do
      let found ← (do
        let sorted ← sortRows terms (l.filter p)
        let fields ← s.fieldsOf e.table
        (← page limit offset sorted).mapM (project fields e.columns))
      found.mapM fun row => e.decodeRow row) = _
    rw [sorted, known]
    change (do
      let found ← (do
        (← page limit offset ((ranked terms l).filter p)).mapM (project e.fields e.columns))
      found.mapM fun row => e.decodeRow row) = (page limit offset ((ranked terms l).filter p)).map (List.map e.view)
    cases paged : page limit offset ((ranked terms l).filter p) with
    | error f => rfl
    | ok out =>
      refine Entity.readViews fun row mem => reads row (within row ?_)
      have inRanked := (List.mem_filter.mp (pageInside paged row mem)).1
      exact (List.mergeSort_perm l _).mem_iff.mp inRanked

end Store

namespace Context

variable {c : Context} {e : Entity} {w : Window} {s : Session Store} {order : List OrderSpec} {rows : List Row}

theorem liftAnswered {α β : Type} (r : Except Failure α) (next : α → Action Store β) (s : Session Store) :
    (liftM r >>= next : Action Store β).answer s = r.toOption.bind fun a => (next a).answer s := by
  cases r <;> rfl

theorem withCursorAnswer (conditions : List Condition) :
    (c.withCursor e conditions w order : Action Store (Option (List Condition))).answer s =
      ((c.withCursor e [] w order : Action Store (Option (List Condition))).answer s).map (Option.map (conditions ++ ·)) := by
  unfold withCursor
  split
  · exact congrArg (fun cs => some (some cs)) (List.append_nil _).symm
  · rename_i cursor _
    have writes : Writes (fun _ => False) (c.cursorCondition e cursor order : Action Store (Option Condition)) :=
      c.cursorConditionWrites e cursor order
    rw [writes.answerBind fun _ => .pure _, writes.answerBind fun _ => .pure _]
    cases (c.cursorCondition e cursor order : Action Store (Option Condition)).answer s with
    | none => rfl
    | some after => cases after <;> rfl

/-- The stored rows that a read of a window reaches on which a condition leaves its conjunction true, in the effective
order of the window; none if the read fails. -/
def reached (c : Context) (e : Entity) (condition : Condition) (w : Window) (s : Session Store) (rows : List Row) :
    Option (List Row) := do
  let _ ← (w.validate e).toOption
  let order ← (w.effectiveOrder e).toOption
  let after ← (c.withCursor e [] w order : Action Store (Option (List Condition))).answer s
  after.elim (some []) fun after => do
    let terms ← (Window.orderTerms e order).toOption
    let kept ← (rows.filterM (Store.passing s.backend.tables e.table (condition :: after))).toOption
    return Store.ranked terms kept

/-- Have all values that a window orders rows by a place? -/
def Orders (e : Entity) (w : Window) (rows : List Row) : Prop :=
  ∀ order terms, w.effectiveOrder e = .ok order → Window.orderTerms e order = .ok terms → ∀ row ∈ rows, Store.Ranks terms row

theorem selectAnswered {β : Type} (q : Select) {next : List Row → Action Store β} (later : ∀ rows, Writes (fun _ => False) (next rows)) :
    (c.select q >>= next).answer s = (s.backend.selectRows q).toOption.bind fun rows => (next rows).answer s := by
  rw [(Writes.select c q).answerBind later]
  unfold Action.answer
  rw [selectOutcome]
  cases s.backend.selectRows q <;> rfl

/-- What a statement and the decoding of its rows answer. -/
theorem selectDecoded {β : Type} (q : Select) {next : List Row → Action Store β} (later : ∀ rows, Writes (fun _ => False) (next rows)) :
    (do
      let rows ← c.select q
      let decoded ← rows.mapM fun row => (e.decodeRow row : Except Failure Row)
      next decoded : Action Store β).answer s =
        (do
          let found ← s.backend.selectRows q
          found.mapM fun row => e.decodeRow row).toOption.bind fun decoded => (next decoded).answer s := by
  simp only [Step.mapLift]
  rw [selectAnswered q fun rows => .liftBind fun decoded _ => later decoded, Results.toOptionBind, Option.bind_assoc]
  exact congrArg _ (funext fun rows => liftAnswered _ _ s)

/-- What is left of a read answers what its window keeps of the rows that its conditions pick. -/
theorem readWindowAnswer {conditions : List Condition} {p : Row → Bool} {kept : Except Failure (List Row)}
    (columns : Record.get? s.backend.fields e.table = some e.fields) (reads : ∀ row ∈ rows, ∃ decoded, e.read row = .ok decoded)
    (few : rows.length < 2 ^ 53) (valid : w.validate e = .ok ())
    (ranks : ∀ terms, Window.orderTerms e order = .ok terms → ∀ row ∈ rows, Store.Ranks terms row)
    (inside : ∀ l, kept = .ok l → List.Sublist l rows)
    (matched : s.backend.matching e.table (.conjunction conditions) = kept.map (List.filter p)) :
    (c.readWindow e w order conditions).answer s = (do
      let terms ← (Window.orderTerms e order).toOption
      let l ← kept.toOption
      (w.apply (((Store.ranked terms l).filter p).map e.view)).toOption) := by
  unfold readWindow
  rw [liftAnswered]
  cases listed : Window.orderTerms e order with
  | error f => rfl
  | ok terms =>
    have views : ∀ limit offset, (do
        let found ← s.backend.selectRows ⟨e.table, e.columns, .conjunction conditions, terms, limit, offset⟩
        found.mapM fun row => e.decodeRow row).toOption =
          kept.toOption.bind fun l => ((Store.page limit offset ((Store.ranked terms l).filter p)).map (List.map e.view)).toOption := by
      intro limit offset
      rw [Store.selectViews columns reads (ranks terms listed) (fun l found => (inside l found).subset) matched, Results.toOptionBind]
    have done : ∀ paged decoded, Writes (fun _ => False) (if !paged then liftM (w.apply decoded) else do
        if ← w.isBackwards then pure decoded.reverse else pure decoded : Action Store (List Row)) := by
      intro paged decoded
      split
      · exact .lift _
      · refine .liftBind fun backwards _ => ?_
        split <;> exact .pure _
    change Action.answer _ s = kept.toOption.bind fun l => (w.apply (((Store.ranked terms l).filter p).map e.view)).toOption
    have all : w.distinct.isEmpty → ∀ rows, w.apply rows = w.page rows := by
      intro empty rows
      unfold Window.apply Window.distinctRows
      rw [if_pos empty]
      rfl
    cases distinct : w.distinct.isEmpty with
    | true =>
      obtain ⟨l, o, b, -, limited, bounded, backwards, -⟩ := Window.pageWindow valid (show ([] : List Row).length < 2 ^ 53 by decide) id
      dsimp only
      rw [if_pos rfl, liftAnswered, limited]
      change Action.answer (if true = true then _ else _) s = _
      rw [if_pos rfl, liftAnswered, bounded]
      refine (selectDecoded (c := c) _ (done true)).trans ?_
      rw [views, Option.bind_assoc]
      cases reached : kept with
      | error f => rfl
      | ok found =>
        have few : ((Store.ranked terms found).filter p).length < 2 ^ 53 := by
          have most := (inside found reached).length_le
          have sorted := (List.mergeSort_perm found fun a b =>
            Store.termsOrder terms (terms.map (Store.rank a)) (terms.map (Store.rank b)) != .gt).length_eq
          exact lt_of_le_of_lt (List.length_filter_le p _) (lt_of_le_of_lt (sorted.le.trans most) few)
        obtain ⟨l', o', b', cut, limited', bounded', backwards', paged, whole⟩ := Window.pageWindow valid few e.view
        obtain rfl := Except.ok.inj (limited.symm.trans limited')
        obtain rfl := Except.ok.inj (bounded.symm.trans bounded')
        obtain rfl := Except.ok.inj (backwards.symm.trans backwards')
        change Option.bind ((Store.page (.ofBound l) (.ofBound o) ((Store.ranked terms found).filter p)).map
          (List.map e.view)).toOption _ = _
        rw [paged]
        change Action.answer (liftM w.isBackwards >>= _) s = (w.apply (((Store.ranked terms found).filter p).map e.view)).toOption
        rw [liftAnswered, backwards, all distinct, whole]
        cases b <;> rfl
    | false =>
      dsimp only
      change Action.answer (if false = true then _ else _) s = _
      rw [if_neg Bool.false_ne_true]
      refine (selectDecoded (c := c) _ (done false)).trans ?_
      rw [views, Option.bind_assoc]
      refine congrArg _ (funext fun l => ?_)
      change Action.answer (liftM (w.apply (((Store.ranked terms l).filter p |>.drop 0).map e.view))) s = _
      rw [List.drop_zero, liftAnswer]

variable {condition filtered : Condition} {p : Row → Bool}

theorem reachedAfter (valid : w.validate e = .ok ()) (ordered : w.effectiveOrder e = .ok order) :
    c.reached e filtered w s rows =
      ((c.withCursor e [] w order : Action Store (Option (List Condition))).answer s).bind fun after =>
        after.elim (some []) fun after => (Window.orderTerms e order).toOption.bind fun terms =>
          (rows.filterM (Store.passing s.backend.tables e.table (filtered :: after))).toOption.bind fun kept =>
            some (Store.ranked terms kept) := by
  unfold reached
  rw [valid, ordered]
  rfl

/-- A read answers what its window keeps of the rows that it reaches and that a condition of its own picks. -/
theorem readReached (readable : e.Readable s.backend rows) (orders : Orders e w rows)
    (picks : Store.Picks s.backend.tables e.table rows condition p) :
    (c.readRows e (.conjunction [condition, filtered]) w : Action Store (List Row)).answer s = (do
      let kept ← c.reached e filtered w s rows
      (w.apply ((kept.filter p).map e.view)).toOption) := by
  rw [readRowsSteps, liftAnswered]
  cases valid : w.validate e with
  | error f =>
    unfold reached
    rw [valid]
    rfl
  | ok _ =>
    change Action.answer _ s = _
    rw [liftAnswered]
    cases ordered : w.effectiveOrder e with
    | error f =>
      unfold reached
      rw [valid, ordered]
      rfl
    | ok order =>
      have later : ∀ conditions : Option (List Condition),
          Writes (fun _ => False) (conditions.elim (pure []) (c.readWindow e w order)) := by
        intro conditions
        cases conditions with
        | none => exact .pure _
        | some conditions => exact c.readWindowWrites e w order conditions
      change Action.answer _ s = _
      rw [(c.withCursorWrites e _ w order).answerBind later, withCursorAnswer, reachedAfter valid ordered]
      cases (c.withCursor e [] w order : Action Store (Option (List Condition))).answer s with
      | none => rfl
      | some after =>
        cases after with
        | none =>
          change some [] = (w.apply []).toOption
          rw [Window.applyNil (Window.validCounts valid)]
          rfl
        | some after =>
          change (c.readWindow e w order (.conjunction [condition, filtered] :: after)).answer s = _
          rw [readWindowAnswer readable.columns readable.reads readable.few valid (fun terms listed => orders order terms ordered listed)
            (fun l reached => Results.filterSublist reached) (picks.matchingNested readable.stored)]
          change _ = Option.bind (Option.bind (Window.orderTerms e order).toOption _) _
          rw [Option.bind_assoc]
          refine congrArg _ (funext fun terms => ?_)
          rw [Option.bind_assoc]
          rfl

/-- A fetch of related rows answers those of the rows that it reaches whose key is among those of the parents. -/
theorem fetchReached {r : Relation} {values keys operands : List Value} {f : Field} {filter : List Predicate}
    (readable : e.Readable s.backend rows) (orders : Orders e w rows) (distinct : Include.distinctKeys values = .ok keys)
    (asked : keys ≠ []) (remote : e.field r.remote.field = .ok f) (encoded : keys.mapM f.encode = .ok operands)
    (picks : Store.Picks s.backend.tables e.table rows (.inList (e.ref f.column) operands false) p) :
    (c.fetchTable r e values filter w : Action Store (List Row)).answer s = (do
      let filtered ← (c.condition e filter).toOption
      let kept ← c.reached e filtered w s rows
      return (kept.filter p).map e.view) := by
  have given : keys.isEmpty = false := by simpa using asked
  have refused : ∀ o : Option Condition, (o.bind fun _ => none : Option (List Row)) = none := fun o => by cases o <;> rfl
  unfold fetchTable
  rw [distinct]
  change Action.answer (if keys.isEmpty then _ else _) s = _
  rw [given, if_neg Bool.false_ne_true, remote]
  change Action.answer (liftM (w.validate e) >>= _) s = _
  rw [liftAnswered]
  cases valid : w.validate e with
  | error f =>
    unfold reached
    rw [valid]
    exact (refused _).symm
  | ok _ =>
    change Action.answer _ s = _
    rw [liftAnswered]
    cases ordered : w.effectiveOrder e with
    | error f =>
      unfold reached
      rw [valid, ordered]
      exact (refused _).symm
    | ok order =>
      change Action.answer ((keys.mapM fun v => (liftM (f.encode v) : Action Store Value)) >>= _) s = _
      rw [Step.mapLift, encoded]
      change Action.answer (liftM (c.condition e filter) >>= _) s = _
      rw [liftAnswered]
      refine congrArg _ (funext fun filtered => ?_)
      have decoding : ∀ q : Select, Writes (fun _ => False) (do
          let rows ← c.select q
          rows.mapM fun row => (liftM (e.decodeRow row) : Action Store Row)) := by
        intro q
        simp only [Step.mapLift]
        exact .bind (.select c q) fun rows => .lift _
      change Action.answer (c.withCursor e _ w order >>= _) s = _
      refine ((c.withCursorWrites e _ w order).answerBind (fun conditions => ?_) s).trans ?_
      · cases conditions with
        | none => exact .pure _
        | some conditions => exact .bind (.tell _ _) fun _ => .liftBind fun terms _ => decoding _
      · rw [withCursorAnswer, reachedAfter valid ordered]
        cases (c.withCursor e [] w order : Action Store (Option (List Condition))).answer s with
        | none => rfl
        | some after =>
          cases after with
          | none => rfl
          | some after =>
            refine ((Writes.tell _ _).answerBind (fun _ => .liftBind fun terms _ => decoding _) s).trans ?_
            change Action.answer (liftM (Window.orderTerms e order) >>= _) s = _
            rw [liftAnswered]
            cases listed : Window.orderTerms e order with
            | error f => rfl
            | ok terms =>
              have views : (do
                  let found ← s.backend.selectRows
                    ⟨e.table, e.columns, .conjunction (.inList (e.ref f.column) operands false :: filtered :: after), terms, .null, .null⟩
                  found.mapM fun row => e.decodeRow row) =
                    rows.filterM (Store.passing s.backend.tables e.table (filtered :: after)) >>= fun l =>
                      (Store.page .null .null ((Store.ranked terms l).filter p)).map (List.map e.view) :=
                Store.selectViews readable.columns readable.reads (orders order terms ordered listed)
                  (fun l found => (Results.filterSublist found).subset) (picks.matching readable.stored)
              have decoded : ∀ q : Select, (do
                  let rows ← c.select q
                  rows.mapM fun row => (liftM (e.decodeRow row) : Action Store Row)).answer s =
                    (do
                      let found ← s.backend.selectRows q
                      found.mapM fun row => e.decodeRow row).toOption := by
                intro q
                simp only [Step.mapLift]
                rw [selectAnswered q fun rows => .lift _, Results.toOptionBind]
                exact congrArg _ (funext fun rows => liftAnswer _ s)
              refine (decoded _).trans ?_
              refine (congrArg Except.toOption views).trans ?_
              change _ = Option.bind (Option.bind (rows.filterM (Store.passing s.backend.tables e.table (filtered :: after))).toOption
                fun kept => some (Store.ranked terms kept)) _
              cases rows.filterM (Store.passing s.backend.tables e.table (filtered :: after)) <;> rfl

end Context

end EntityQuery
