import EntityQuery.Proofs.GatheredAssignments
/-! Writes of the one row that a selector picks, and the same writes of all rows that it picks. The first look the row up
and go on by the primary key that was read of it, the others send the selector itself; both make the same of the tables. -/

namespace EntityQuery

namespace Action

variable {α β : Type} {step : Action Store α} {s : Session Store}

/-- A step succeeds with a value and leaves the tables like this. -/
def Ends (step : Action Store α) (s : Session Store) (a : α) (tables : Store.Tables) : Prop :=
  ∃ t, step.runOn s = (.ok a, t) ∧ t.backend.tables = tables

/-- A step is rejected with a failure and leaves the tables like this. -/
def Rejects (step : Action Store α) (s : Session Store) (f : Failure) (tables : Store.Tables) : Prop :=
  ∃ t, step.runOn s = (.error f, t) ∧ t.backend.tables = tables

theorem endsOutcome {a : α} {tables : Store.Tables} :
    step.Ends s a tables ↔ ∃ t, step.outcome s = some (a, t) ∧ t.backend.tables = tables := by
  unfold Ends
  constructor
  · rintro ⟨t, ran, rfl⟩
    refine ⟨t.bare, ?_, rfl⟩
    unfold outcome
    rw [ran]
    rfl
  · rintro ⟨t, ended, left⟩
    obtain ⟨u, ran, rfl⟩ := outcomeRan ended
    exact ⟨u, ran, left⟩

end Action

namespace Store

variable {table : String} {fields : List Field} {assignments : List Assignment} {s : Store} {before after rows : List Row}
  {stored : Row} {c : Condition}

/-- Where rows can be told apart, a value that one of them meets in a unique column is met by no other. -/
theorem distinctSole {f : Field} {w : Value} {other : Row} {b : Bool} (distinct : Distinct fields (before ++ stored :: after))
    (mem : f ∈ fields) (unique : f.primaryKey || f.unique) (places : Places w) (own : meets (Row.value stored f.column) w)
    (among : other ∈ before ++ after) (decided : equals (Row.value other f.column) w = .ok b) : b = false := by
  cases b with
  | false => rfl
  | true =>
    obtain ⟨given, -, ownSame⟩ := meetsOk own
    have met : meets (Row.value other f.column) w := by
      unfold meets
      rw [decided]
      rfl
    obtain ⟨there, -, otherSame⟩ := meetsOk met
    have clash : clashes stored other f = .ok true := by
      unfold clashes
      dsimp only
      rw [given, there]
      exact sameTrans places otherSame ownSame
    exact absurd clash ((distinctMiddle.mp distinct).1 other among f mem unique)

theorem equalsDecided {v w : Value} (left : ∃ k, comparable v = .ok k) (right : ∃ k, comparable w = .ok k) :
    ∃ b, equals v w = .ok b := by
  obtain ⟨x, hv⟩ := left
  obtain ⟨y, hw⟩ := right
  unfold equals
  split
  · exact ⟨_, rfl⟩
  · exact ⟨_, sameOf hv hw⟩

/-- A condition that cannot be decided of some row stops the statements that ask for it. -/
theorem flaggedUndecided (there : Record.get? s.tables table = some rows) {row : Row} (mem : row ∈ rows)
    (undecided : ∀ b, matchesRow s.tables table c row ≠ .ok b) : ∃ f, s.flagged table c = .error f := by
  cases flagging : s.flagged table c with
  | error f => exact ⟨f, rfl⟩
  | ok found =>
    obtain ⟨fields, flags⟩ := found
    obtain ⟨-, stored, known, -, truths⟩ := flaggedOk flagging
    obtain rfl := Option.some.inj (there.symm.trans known)
    obtain ⟨b, decided⟩ := truths row mem
    exact absurd decided (undecided b)

theorem matchingDecided (there : Record.get? s.tables table = some rows) {kept : List Row}
    (matched : s.matching table c = .ok kept) : ∀ row ∈ rows, ∃ b, matchesRow s.tables table c row = .ok b := by
  unfold matching at matched
  obtain ⟨stored, known, matched⟩ := Results.bindOk matched
  obtain rfl := Option.some.inj (there.symm.trans (rowsOfOk known))
  exact Results.filterItems matched

/-- Among rows of which a condition is true of one only, that one matches. -/
theorem matchingOne (there : Record.get? s.tables table = some (before ++ stored :: after))
    (own : matchesRow s.tables table c stored = .ok true)
    (others : ∀ row ∈ before ++ after, matchesRow s.tables table c row = .ok false) : s.matching table c = .ok [stored] := by
  have decided : ∀ row ∈ before ++ stored :: after, matchesRow s.tables table c row = .ok (isMatch s.tables table c row) := by
    intro row mem
    rcases List.mem_cons.mp (List.perm_middle.mem_iff.mp mem) with rfl | among
    · rw [own, isMatchOf own]
    · rw [others row among, isMatchOf (others row among)]
  have passed : ∀ row ∈ before ++ after, ¬ isMatch s.tables table c row := by
    intro row mem
    rw [isMatchOf (others row mem)]
    exact Bool.false_ne_true
  unfold matching rowsOf tableRows
  rw [there]
  change (before ++ stored :: after).filterM (matchesRow s.tables table c) = _
  rw [Results.filterOk decided, List.filter_append, List.filter_cons_of_pos (isMatchOf own),
    List.filter_eq_nil_iff.mpr fun row mem => passed row (List.mem_append_left _ mem),
    List.filter_eq_nil_iff.mpr fun row mem => passed row (List.mem_append_right _ mem)]
  rfl

section None

variable (there : Record.get? s.tables table = some rows)
  (unmatched : ∀ row ∈ rows, matchesRow s.tables table c row = .ok false)

include there unmatched

theorem matchingNone : s.matching table c = .ok [] := by
  unfold matching rowsOf tableRows
  rw [there]
  change rows.filterM (matchesRow s.tables table c) = _
  rw [Results.filterOk unmatched, List.filter_eq_nil_iff.mpr fun _ _ => Bool.false_ne_true]

theorem updateRowsNone (columns : Record.get? s.fields table = some fields) (returning : List String) :
    s.updateRows ⟨table, assignments, c, returning⟩ = (written fields returning [], s) := by
  unfold updateRows updateFlagged
  dsimp only
  rw [flaggedDecided columns there fun row mem => ⟨false, unmatched row mem⟩, flagsNone unmatched]
  dsimp only
  rw [updateFromUnflagged, List.nil_append, setRowsSame there]

theorem deleteRowsNone (columns : Record.get? s.fields table = some fields) (returning : List String) :
    s.deleteRows ⟨table, c, returning⟩ = (written fields returning [], s) := by
  obtain ⟨gone, kept⟩ := unflagged rows
  unfold deleteRows deleteFrom
  dsimp only
  rw [flaggedDecided columns there fun row mem => ⟨false, unmatched row mem⟩, flagsNone unmatched]
  dsimp only
  rw [gone, kept, setRowsSame there]
  rfl

end None

end Store

namespace Selector

variable {e : Entity} {row : Row} {tables : Store.Tables}

/-- The condition that a selector stands for. -/
def equality (x : Selector e) : Condition := .compare ⟨e.table, x.field.column⟩ (.of .eq) x.operand

theorem conditionEquality (x : Selector e) {c : Context} : c.condition e [x.predicate] = .ok x.equality :=
  Predicate.equalityCompiles x.found x.given

theorem matchesEquality (x : Selector e) (tables : Store.Tables) (row : Row) :
    Store.matchesRow tables e.table x.equality row = Store.equals (Row.value row x.field.column) x.operand :=
  Store.matchesCompare tables e.table x.field.column x.operand row

theorem picksMatched (x : Selector e) {b : Bool} (matched : Store.matchesRow tables e.table x.equality row = .ok b) :
    x.picks row = b := by
  unfold picks Store.meets
  rw [← x.matchesEquality tables, matched]
  rfl

/-- The failure of a selector that picks no row names its field and its operand. -/
theorem unmatchedRun (x : Selector e) {text : String} (shown : x.operand.display = .ok text) (s : Session Store) :
    (do throw (.missingRow (.unmatched e.name (← x.predicate.fieldName.inserted) (← x.predicate.operandText))) :
      Action Store Row).runOn s = (.error (.missingRow (.unmatched e.name x.field.name text)), s) := by
  have name : x.predicate.fieldName.inserted = .ok x.field.name := rfl
  have operand : x.predicate.operandText = .ok text := shown
  rw [name, operand]
  rfl

end Selector

namespace Context

variable {c : Context} {e : Entity} {s : Session Store} {before after rows : List Row} {stored row : Row} {ms : List Mutation}

/-- A row is required that a lookup finds. -/
theorem requireAnswer (c : Context) (e : Entity) (p : Predicate) (s : Session Store) :
    (c.requireRow e p : Action Store Row).answer s = ((c.lookup p).answer s).join := by
  have looks : Writes (fun _ => False) (c.lookup p : Action Store (Option Row)) := c.lookupWrites p
  unfold requireRow
  rw [looks.answerBind fun found => by
    cases found with
    | some row => exact .pure _
    | none => exact .liftBind fun _ _ => .liftBind fun _ _ => .lift _]
  cases (c.lookup p).answer s with
  | none => rfl
  | some found =>
    cases found with
    | some row => rfl
    | none =>
      unfold Action.answer
      rw [Option.bind_some, Action.liftOutcome]
      cases p.fieldName.inserted with
      | error f => rfl
      | ok name => cases p.operandText <;> rfl

section Matched

variable (x : Selector e) (columns : Record.get? s.backend.fields e.table = some e.fields)
  (there : Record.get? s.backend.tables e.table = some (before ++ stored :: after))
  (own : Store.matchesRow s.backend.tables e.table x.equality stored = .ok true)
  (others : ∀ other ∈ before ++ after, Store.matchesRow s.backend.tables e.table x.equality other = .ok false)

include columns there own others

theorem requireMatched (named : c.registry.get? e.name = some e) :
    (c.requireRow e x.predicate : Action Store Row).answer s = (e.read stored).toOption := by
  have decided : ∀ row ∈ before ++ stored :: after, ∃ b, Store.equals (Row.value row x.field.column) x.operand = .ok b := by
    intro row mem
    rw [← x.matchesEquality s.backend.tables]
    rcases List.mem_cons.mp (List.perm_middle.mem_iff.mp mem) with rfl | among
    · exact ⟨_, own⟩
    · exact ⟨_, others row among⟩
  have first : (before ++ stored :: after).find? x.picks = some stored := by
    have passed : before.find? x.picks = none :=
      List.find?_eq_none.mpr fun row mem => by simp [x.picksMatched (others row (List.mem_append_left _ mem))]
    rw [List.find?_append, passed, List.find?_cons_of_pos (x.picksMatched own)]
    rfl
  have answers : ∀ found, _ := fun found => @lookupAnswers c e s x named columns _ there found
  rw [first] at answers
  rw [requireAnswer]
  cases read : e.read stored with
  | ok row =>
    rw [(answers (some row)).mpr ⟨decided, row, rfl, read⟩]
    rfl
  | error f =>
    cases answered : (c.lookup x.predicate).answer s with
    | none => rfl
    | some found =>
      obtain ⟨-, row, -, again⟩ := (answers found).mp answered
      cases read.symm.trans again

theorem updateManyMatched (assignments : List Assignment) :
    (c.updateMany e [x.predicate] assignments : Action Store Number).outcome s =
      (e.revised (before ++ after) stored assignments).map fun next => (.integer 1, e.placed s (before ++ next :: after)) := by
  unfold updateMany
  rw [x.conditionEquality]
  change Action.outcome (if assignments.isEmpty then _ else _) s = _
  unfold Entity.revised
  split
  · rw [countOutcome]
    unfold Store.countRows
    rw [Store.matchingOne there own others, Option.map_some, Entity.placedSame there]
    rfl
  · rw [Action.mapOutcome, updateOutcome]
    change (Session.ended ((s.backend.updateRows _).1, s.withBackend (s.backend.updateRows _).2)).map _ = _
    rw [Store.updateRowsOne columns there own others]
    cases Store.refusal? e.table e.fields assignments stored (before ++ after) <;> rfl

theorem deleteMatched (returning : List String) :
    (c.delete ⟨e.table, x.equality, returning⟩ : Action Store Written).outcome s =
      (Store.written e.fields returning [stored]).toOption.map fun w => (w, e.placed s (before ++ after)) := by
  rw [deleteOutcome]
  change Session.ended ((s.backend.deleteRows _).1, s.withBackend (s.backend.deleteRows _).2) = _
  rw [Store.deleteRowsOne columns there own others]
  cases Store.written e.fields returning [stored] <;> rfl

theorem deleteOneMatched (mem : e.primaryKey ∈ e.fields) : (c.deleteOne e x.predicate : Action Store Row).outcome s =
    (e.read stored).toOption.map fun row => (row, e.placed s (before ++ after)) := by
  have listed : e.columns ≠ [] := List.ne_nil_of_mem (List.mem_map_of_mem mem)
  unfold deleteOne
  rw [x.conditionEquality]
  change Action.outcome (c.delete ⟨e.table, x.equality, e.columns⟩ >>= _) s = _
  rw [Writes.outcomeBind fun w => ?_, deleteMatched x columns there own others, Store.writtenOne listed]
  · unfold Entity.read
    cases Store.project e.fields e.columns stored with
    | error f => rfl
    | ok out =>
      change Action.outcome (liftM (e.decodeRow out)) _ = (e.decodeRow out).toOption.map _
      cases e.decodeRow out <;> rfl
  · split
    · exact .lift _
    · exact .liftBind fun _ _ => .liftBind fun _ _ => .lift _

theorem deleteManyMatched : (c.deleteMany e [x.predicate] : Action Store Number).outcome s =
    some (.integer 1, e.placed s (before ++ after)) := by
  unfold deleteMany
  rw [x.conditionEquality]
  change Action.outcome (c.delete ⟨e.table, x.equality, []⟩ >>= fun w => pure w.count) s = _
  rw [Action.mapOutcome, deleteMatched x columns there own others]
  rfl

end Matched

section Undecided

variable (x : Selector e) (there : Record.get? s.backend.tables e.table = some rows) (mem : row ∈ rows)
  (undecided : ∀ b, Store.matchesRow s.backend.tables e.table x.equality row ≠ .ok b)

include there mem undecided

theorem requireUndecided (named : c.registry.get? e.name = some e)
    (columns : Record.get? s.backend.fields e.table = some e.fields) :
    (c.requireRow e x.predicate : Action Store Row).answer s = none := by
  rw [requireAnswer]
  cases answered : (c.lookup x.predicate).answer s with
  | none => rfl
  | some found =>
    obtain ⟨decided, -⟩ := (c.lookupAnswers x named columns there).mp answered
    obtain ⟨b, equal⟩ := decided row mem
    exact absurd ((x.matchesEquality _ row).trans equal) (undecided b)

theorem updateManyUndecided (assignments : List Assignment) :
    (c.updateMany e [x.predicate] assignments : Action Store Number).outcome s = none := by
  unfold updateMany
  rw [x.conditionEquality]
  change Action.outcome (if assignments.isEmpty then _ else _) s = _
  split
  · rw [countOutcome]
    unfold Store.countRows
    cases matched : s.backend.matching e.table x.equality with
    | error f => rfl
    | ok kept =>
      obtain ⟨b, decided⟩ := Store.matchingDecided there matched row mem
      exact absurd decided (undecided b)
  · obtain ⟨f, flagging⟩ := Store.flaggedUndecided there mem undecided
    rw [Action.mapOutcome, updateOutcome]
    change (Session.ended ((s.backend.updateRows _).1, s.withBackend (s.backend.updateRows _).2)).map _ = _
    unfold Store.updateRows
    dsimp only
    rw [flagging]
    rfl

theorem deleteUndecided (returning : List String) :
    (c.delete ⟨e.table, x.equality, returning⟩ : Action Store Written).outcome s = none := by
  obtain ⟨f, flagging⟩ := Store.flaggedUndecided there mem undecided
  rw [deleteOutcome]
  change Session.ended ((s.backend.deleteRows _).1, s.withBackend (s.backend.deleteRows _).2) = _
  unfold Store.deleteRows Store.deleteFrom
  dsimp only
  rw [flagging]
  rfl

end Undecided

end Context

namespace Context

variable {c : Context} {e : Entity} {s : Session Store} {before after rows : List Row} {stored row : Row} {ms : List Mutation}

/-- Update the row of a selector by mutations. -/
def updating (c : Context) (e : Entity) (p : Predicate) (ms : List Mutation) : Action Store Value := do
  c.perform e (← Request.updateOf c.registry e p ms)

/-- Update all rows of a predicate by mutations. -/
def updatingMany (c : Context) (e : Entity) (p : Predicate) (ms : List Mutation) : Action Store Value := do
  c.perform e (← Request.updateManyOf e [p] ms)

/-- Delete the row of a selector. -/
def deleting (c : Context) (e : Entity) (p : Predicate) : Action Store Value := do
  c.perform e (← Request.deleteOf c.registry e p)

/-- Delete all rows of a predicate. -/
def deletingMany (c : Context) (e : Entity) (p : Predicate) : Action Store Value := c.perform e (.deleteMany [p])

end Context

/-- The rows of the table of an entity, which can be told apart by their unique columns, and whose primary keys can be
compared. -/
structure Entity.Stocked (e : Entity) (s : Session Store) (rows : List Row) : Prop where
  columns : Record.get? s.backend.fields e.table = some e.fields
  there : Record.get? s.backend.tables e.table = some rows
  distinct : Store.Distinct e.fields rows
  keys : ∀ row ∈ rows, ∃ k, Store.comparable (Row.value row e.primaryKey.column) = .ok k

namespace Context

variable {c : Context} {e : Entity} {s : Session Store} {before after rows : List Row} {stored row : Row} {ms : List Mutation}

theorem selectorChecks (x : Selector e) (named : c.registry.get? e.name = some e) :
    e.checkSelector c.registry x.predicate = .ok () := by
  have means : c.registry.means (.text e.name) e = .ok true := by
    change Except.ok ((c.registry.get? e.name).any fun found => found.name == e.name) = _
    rw [named, Option.any_some, beq_self_eq_true]
  unfold Entity.checkSelector
  change (do if ← c.registry.means (.text e.name) e then return () else _ : Except Failure Unit) = _
  rw [means]
  rfl

/-- A selector that picks one of the rows of a table is true of no other, where that can be decided at all. -/
theorem pickedOnly (x : Selector e) (stocked : e.Stocked s (before ++ stored :: after)) (picked : x.picks stored)
    (decided : ∀ row ∈ before ++ stored :: after, ∃ b, Store.matchesRow s.backend.tables e.table x.equality row = .ok b) :
    Store.matchesRow s.backend.tables e.table x.equality stored = .ok true ∧
      ∀ other ∈ before ++ after, Store.matchesRow s.backend.tables e.table x.equality other = .ok false := by
  obtain ⟨given, -, same⟩ := Store.meetsOk picked
  obtain ⟨_, k, -, comparable, -⟩ := Store.sameOk same
  have places : Store.Places x.operand := ⟨x.given, k, comparable, x.placed k comparable⟩
  refine ⟨?_, fun other among => ?_⟩
  · obtain ⟨b, own⟩ := decided stored (by simp)
    rw [own, ← x.picksMatched own, picked]
  · have inside := List.perm_middle.mem_iff.mpr (List.mem_cons_of_mem stored among)
    obtain ⟨b, matched⟩ := decided other inside
    have unique : x.field.primaryKey || x.field.unique := by rw [x.unique, Bool.or_true]
    have differs := Store.distinctSole stocked.distinct (List.mem_of_find?_eq_some x.found) unique places picked among
      ((x.matchesEquality _ other).symm.trans matched)
    rw [matched, differs]

section Outcomes

variable (x : Selector e)

theorem updatingOutcome (named : c.registry.get? e.name = some e) (ms : List Mutation)
    (begins : s.backend.inTransaction ∨ ∃ start, Backend.opened s.backend = .ok start) :
    (c.updating e x.predicate ms).outcome s =
      ((c.updateInside e x.predicate ms : Action Store Row).outcome s).map fun r => (.object r.1, r.2) := by
  unfold updating Request.updateOf
  rw [selectorChecks x named]
  change (c.perform e (.update x.predicate ms) : Action Store Value).outcome s = _
  rw [performInside (r := .update _ _) nofun rfl begins]
  exact Action.mapOutcome Value.object s

theorem updatingManyOutcome (separate : e.Separate [] ms) : (c.updatingMany e x.predicate ms).outcome s =
    (e.gathers ms).toOption.bind fun assignments =>
      ((c.updateMany e [x.predicate] assignments : Action Store Number).outcome s).map fun r => (.number r.1, r.2) := by
  unfold updatingMany
  rw [Request.updateManyGathers _ separate]
  cases e.gathers ms with
  | error f => rfl
  | ok assignments => exact Action.mapOutcome Value.number s

theorem deletingOutcome (named : c.registry.get? e.name = some e) : (c.deleting e x.predicate).outcome s =
    ((c.deleteOne e x.predicate : Action Store Row).outcome s).map fun r => (.object r.1, r.2) := by
  unfold deleting Request.deleteOf
  rw [selectorChecks x named]
  exact Action.mapOutcome Value.object s

theorem deletingManyOutcome : (c.deletingMany e x.predicate).outcome s =
    ((c.deleteMany e [x.predicate] : Action Store Number).outcome s).map fun r => (.number r.1, r.2) :=
  Action.mapOutcome Value.number s

end Outcomes

section Picked

variable (found : e.field? e.primaryKey.name = some e.primaryKey) (primary : e.primaryKey.primaryKey)
  (names : (e.fields.map (·.name)).Nodup) (x : Selector e) (named : c.registry.get? e.name = some e)
  (stocked : e.Stocked s (before ++ stored :: after)) (picked : x.picks stored) (read : e.read stored = .ok row)

include found named stocked picked read

/-- Where a selector picks a row that can be read, deletes of one row and of many both fail or both take that row. -/
theorem deletesAlike : (c.deletingMany e x.predicate).outcome s = none ∧ (c.deleting e x.predicate).outcome s = none ∨
    (c.deletingMany e x.predicate).outcome s = some (.number (.integer 1), e.placed s (before ++ after)) ∧
      (c.deleting e x.predicate).outcome s = some (.object row, e.placed s (before ++ after)) := by
  rw [deletingOutcome x named, deletingManyOutcome x]
  by_cases decided : ∀ row ∈ before ++ stored :: after, ∃ b, Store.matchesRow s.backend.tables e.table x.equality row = .ok b
  · obtain ⟨own, others⟩ := pickedOnly x stocked picked decided
    refine .inr ⟨?_, ?_⟩
    · rw [deleteManyMatched x stocked.columns stocked.there own others]
      rfl
    · rw [deleteOneMatched x stocked.columns stocked.there own others (List.mem_of_find?_eq_some found), read]
      rfl
  · push Not at decided
    obtain ⟨other, mem, undecided⟩ := decided
    have never := fun returning => deleteUndecided (c := c) x stocked.there mem undecided returning
    refine .inl ⟨?_, ?_⟩
    · unfold deleteMany
      rw [x.conditionEquality]
      change Option.map _ (Action.outcome (c.delete ⟨e.table, x.equality, []⟩ >>= fun w => pure w.count) s) = _
      rw [Action.mapOutcome, never]
      rfl
    · unfold deleteOne
      rw [x.conditionEquality]
      change Option.map _ (Action.outcome (c.delete ⟨e.table, x.equality, e.columns⟩ >>= _) s) = _
      rw [Writes.outcomeBind fun w => ?_, never]
      · rfl
      · split
        · exact .lift _
        · exact .liftBind fun _ _ => .liftBind fun _ _ => .lift _

include primary names

theorem updateInsideMatched (separate : e.Separate [] ms)
    (recurs : e.primaryKey.Recurs e.fields (Row.value stored e.primaryKey.column))
    (decided : ∀ row ∈ before ++ stored :: after, ∃ b, Store.matchesRow s.backend.tables e.table x.equality row = .ok b) :
    (c.updateInside e x.predicate ms : Action Store Row).outcome s = (e.gathers ms).toOption.bind fun assignments =>
      (e.revised (before ++ after) stored assignments).bind fun next =>
        (e.read next).toOption.map fun out => (out, e.placed s (before ++ next :: after)) := by
  have mem : e.primaryKey ∈ e.fields := List.mem_of_find?_eq_some found
  obtain ⟨own, others⟩ := pickedOnly x stocked picked decided
  obtain ⟨w, encodes, places, meets⟩ := Entity.keyRecurs found names read recurs
  have keys : ∀ other ∈ before ++ after, Store.equals (Row.value other e.primaryKey.column) w = .ok false := by
    intro other among
    have inside := List.perm_middle.mem_iff.mpr (List.mem_cons_of_mem stored among)
    obtain ⟨k, comparable, -⟩ := places.2
    obtain ⟨b, equal⟩ := Store.equalsDecided (stocked.keys other inside) ⟨k, comparable⟩
    rw [equal, Store.distinctSole stocked.distinct mem (by rw [primary, Bool.true_or]) places meets among equal]
  have key : Store.equals (Row.value stored e.primaryKey.column) w = .ok true := by
    obtain ⟨given, there, same⟩ := Store.meetsOk meets
    unfold Store.equals
    rw [given, there]
    exact same
  unfold updateInside
  rw [Writes.outcomeBind fun row => c.changeWrites (fun _ => trivial) e ms row,
    (c.requireRowWrites e x.predicate).outcomeAnswer,
    requireMatched x stocked.columns stocked.there own others named, read]
  change (c.change e ms row : Action Store Row).outcome s.bare = _
  rw [(c.changeWrites (fun _ => trivial) e ms row).blind,
    c.changedOutcome mem separate stocked.columns stocked.there read encodes key keys]

/-- Where a selector picks a row, an update of one row and of many come to the same, except that the first one has to read
the row that it has made. -/
theorem updatesAlike (separate : e.Separate [] ms)
    (recurs : e.primaryKey.Recurs e.fields (Row.value stored e.primaryKey.column))
    (begins : s.backend.inTransaction ∨ ∃ start, Backend.opened s.backend = .ok start) :
    ∃ next? : Option Row,
      (c.updatingMany e x.predicate ms).outcome s =
        next?.map (fun next => (.number (.integer 1), e.placed s (before ++ next :: after))) ∧
      (c.updating e x.predicate ms).outcome s = next?.bind (fun next =>
        (e.read next).toOption.map fun out => (.object out, e.placed s (before ++ next :: after))) ∧
      ∀ next ∈ next?, ∃ assignments, e.gathers ms = .ok assignments ∧
        e.revised (before ++ after) stored assignments = some next := by
  rw [updatingOutcome x named ms begins, updatingManyOutcome x separate]
  by_cases decided : ∀ row ∈ before ++ stored :: after, ∃ b, Store.matchesRow s.backend.tables e.table x.equality row = .ok b
  · obtain ⟨own, others⟩ := pickedOnly x stocked picked decided
    rw [updateInsideMatched found primary names x named stocked picked read separate recurs decided]
    cases e.gathers ms with
    | error f => exact ⟨none, rfl, rfl, nofun⟩
    | ok assignments =>
      refine ⟨e.revised (before ++ after) stored assignments, ?_, ?_, fun next made => ⟨assignments, rfl, made⟩⟩
      · change Option.map _ ((c.updateMany e [x.predicate] assignments : Action Store Number).outcome s) = _
        rw [updateManyMatched x stocked.columns stocked.there own others, Option.map_map]
        rfl
      · change Option.map _ ((e.revised (before ++ after) stored assignments).bind _) = _
        rw [Option.map_bind]
        refine Option.bind_congr fun next _ => ?_
        exact Option.map_map _ _ _
  · push Not at decided
    obtain ⟨other, mem, undecided⟩ := decided
    refine ⟨none, ?_, ?_, nofun⟩
    · refine Option.bind_eq_none_iff.mpr fun assignments _ => ?_
      rw [updateManyUndecided x stocked.there mem undecided]
      rfl
    · unfold updateInside
      rw [Writes.outcomeBind fun row => c.changeWrites (fun _ => trivial) e ms row,
        (c.requireRowWrites e x.predicate).outcomeAnswer,
        requireUndecided x stocked.there mem undecided named stocked.columns]
      rfl

end Picked

section Unmatched

variable (x : Selector e) (named : c.registry.get? e.name = some e)
  (columns : Record.get? s.backend.fields e.table = some e.fields)
  (there : Record.get? s.backend.tables e.table = some rows)
  (unmatched : ∀ row ∈ rows, Store.matchesRow s.backend.tables e.table x.equality row = .ok false)

include there unmatched columns

theorem updatingManyUnmatched {assignments : List Assignment} (separate : e.Separate [] ms)
    (gathered : e.gathers ms = .ok assignments) :
    (c.updatingMany e x.predicate ms).Ends s (.number (.integer 0)) s.backend.tables := by
  have none : (c.updateMany e [x.predicate] assignments : Action Store Number).outcome s = some (.integer 0, s.bare) := by
    unfold updateMany
    rw [x.conditionEquality]
    change Action.outcome (if assignments.isEmpty then _ else _) s = _
    split
    · rw [countOutcome]
      unfold Store.countRows
      rw [Store.matchingNone there unmatched]
      rfl
    · rw [Action.mapOutcome, updateOutcome]
      change (Session.ended ((s.backend.updateRows _).1, s.withBackend (s.backend.updateRows _).2)).map _ = _
      rw [Store.updateRowsNone there unmatched columns]
      rfl
  refine Action.endsOutcome.mpr ⟨s.bare, ?_, rfl⟩
  rw [updatingManyOutcome x separate, gathered]
  change Option.map _ ((c.updateMany e [x.predicate] assignments : Action Store Number).outcome s) = _
  rw [none]
  rfl

theorem deletingManyUnmatched : (c.deletingMany e x.predicate).Ends s (.number (.integer 0)) s.backend.tables := by
  refine Action.endsOutcome.mpr ⟨s.bare, ?_, rfl⟩
  rw [deletingManyOutcome x]
  unfold deleteMany
  rw [x.conditionEquality]
  change Option.map _ (Action.outcome (c.delete ⟨e.table, x.equality, []⟩ >>= fun w => pure w.count) s) = _
  rw [Action.mapOutcome, deleteOutcome]
  change ((Session.ended ((s.backend.deleteRows _).1, s.withBackend (s.backend.deleteRows _).2)).map _).map _ = _
  rw [Store.deleteRowsNone there unmatched columns]
  rfl

variable {text : String} (shown : x.operand.display = .ok text)

include named shown

theorem deletingUnmatched :
    (c.deleting e x.predicate).Rejects s (.missingRow (.unmatched e.name x.field.name text)) s.backend.tables := by
  have same : Record.get? (s.backend.record .delete e.table).tables e.table = some rows := there
  have ran : (c.delete ⟨e.table, x.equality, e.columns⟩ : Action Store Written).runOn s =
      ((Store.written e.fields e.columns []), s.withBackend (s.backend.record .delete e.table)) := by
    rw [deleteRun, Store.deleteRowsNone same unmatched columns]
  have written : Store.written e.fields e.columns [] = .ok ⟨.integer 0, []⟩ := by
    unfold Store.written Store.returning
    cases e.columns.isEmpty <;> rfl
  rw [written] at ran
  have refused : (c.deleteOne e x.predicate : Action Store Row).runOn s =
      (.error (.missingRow (.unmatched e.name x.field.name text)), s.withBackend (s.backend.record .delete e.table)) := by
    unfold deleteOne
    rw [x.conditionEquality]
    change (c.delete ⟨e.table, x.equality, e.columns⟩ >>= _ : Action Store Row).runOn s = _
    rw [Step.thenRun ran]
    exact x.unmatchedRun shown _
  refine ⟨s.withBackend (s.backend.record .delete e.table), ?_, rfl⟩
  unfold deleting Request.deleteOf
  rw [selectorChecks x named]
  change (c.deleteOne e x.predicate >>= fun row => pure (.object row) : Action Store Value).runOn s = _
  exact Step.stopRun refused

theorem requireUnmatched : ∃ u, (c.requireRow e x.predicate : Action Store Row).runOn s =
    (.error (.missingRow (.unmatched e.name x.field.name text)), u) ∧ u.backend.content = s.backend.content := by
  have none : rows.find? x.picks = none :=
    List.find?_eq_none.mpr fun row mem => by simp [x.picksMatched (unmatched row mem)]
  have answered : (c.lookup x.predicate).answer s = some Option.none := by
    refine (c.lookupAnswers x named columns there).mpr ⟨fun row mem => ⟨false, ?_⟩, by rw [none]⟩
    rw [← x.matchesEquality s.backend.tables]
    exact unmatched row mem
  obtain ⟨u, ran⟩ := answerRan answered
  have kept := lookupKeeps c x.predicate s
  unfold Keeps at kept
  rw [ran] at kept
  refine ⟨u, ?_, kept⟩
  unfold requireRow
  rw [Step.thenRun ran]
  exact x.unmatchedRun shown u

theorem updatingUnmatched (ms : List Mutation)
    (begins : s.backend.inTransaction ∨ ∃ start, Backend.opened s.backend = .ok start) :
    (c.updating e x.predicate ms).Rejects s (.missingRow (.unmatched e.name x.field.name text))
      (if s.backend.inTransaction then s.backend.tables else Store.copiedTables s.backend.tables) := by
  have performed : (c.updating e x.predicate ms).runOn s =
      (c.transaction fun c => c.inside e (.update x.predicate ms) : Action Store Value).runOn s := by
    unfold updating Request.updateOf
    rw [selectorChecks x named]
    exact performOpening c e (r := .update x.predicate ms) rfl s
  unfold Action.Rejects
  rw [performed]
  cases joins : s.backend.inTransaction with
  | true =>
    obtain ⟨u, refused, kept⟩ := requireUnmatched x named columns there unmatched shown
    refine ⟨u, ?_, (Prod.mk.inj kept).2⟩
    rw [transactionJoined joins]
    exact Step.stopRun (Step.stopRun refused)
  | false =>
    obtain within | ⟨start, opened⟩ := begins
    · exact absurd (joins.symm.trans within) Bool.false_ne_true
    obtain rfl := openedTables opened
    obtain ⟨u, refused, kept⟩ := requireUnmatched (c := ⟨c.registry, .bound⟩)
      (s := s.withBackend { s.backend with inTransaction := true }) x named columns there unmatched shown
    have worked : (Context.inside ⟨c.registry, .bound⟩ e (.update x.predicate ms) : Action Store Value).runOn
        (s.withBackend { s.backend with inTransaction := true }) =
        (.error (.missingRow (.unmatched e.name x.field.name text)), u) :=
      Step.stopRun (Step.stopRun refused)
    refine ⟨u.withBackend (Backend.rolledBack s.backend u.backend), ?_, rfl⟩
    rw [transactionOpened joins opened, worked]
    rfl

end Unmatched

/-- The writes of the one row that a selector picks and those of all rows that it picks agree on a row in its place, which
reads like this. The many that change are this row. The one update succeeds where the other does and what that makes of the row
can be read, which it can after mutations that the entity builds, and both leave the same tables; and so do the deletes. -/
structure AgreeOn (c : Context) (x : Selector e) (ms : List Mutation) (s : Session Store) (before : List Row) (stored : Row)
    (after : List Row) (row : Row) : Prop where
  updatesOne : ∀ n tables, (c.updatingMany e x.predicate ms).Ends s n tables → n = .number (.integer 1) ∧
    ∃ next, tables = Record.replace s.backend.tables e.table (before ++ next :: after)
  updates : ∀ v tables, (c.updating e x.predicate ms).Ends s v tables ↔
    (c.updatingMany e x.predicate ms).Ends s (.number (.integer 1)) tables ∧
      ∃ next out, tables = Record.replace s.backend.tables e.table (before ++ next :: after) ∧ e.read next = .ok out ∧
        v = .object out
  builds : (∀ m ∈ ms, e.Builds m) →
    e.HoldsExact stored →
      ∀ tables, (∃ v, (c.updating e x.predicate ms).Ends s v tables) ↔
        (c.updatingMany e x.predicate ms).Ends s (.number (.integer 1)) tables
  deletesOne : ∀ n tables, (c.deletingMany e x.predicate).Ends s n tables → n = .number (.integer 1) ∧
    tables = Record.replace s.backend.tables e.table (before ++ after)
  deletes : ∀ v tables, (c.deleting e x.predicate).Ends s v tables ↔
    (c.deletingMany e x.predicate).Ends s (.number (.integer 1)) tables ∧ v = .object row

/-- The writes agree that a selector picks no row: those of one row are rejected for that, and those of many change none.
All tables are as before, up to the copies that a rollback puts in the place of rows. -/
structure AgreeNone (c : Context) (x : Selector e) (ms : List Mutation) (s : Session Store) : Prop where
  updates : ∀ text, x.operand.display = .ok text → ∃ tables,
    (c.updating e x.predicate ms).Rejects s (.missingRow (.unmatched e.name x.field.name text)) tables ∧
      tables = (if s.backend.inTransaction then s.backend.tables else Store.copiedTables s.backend.tables) ∧
      (s.backend.HoldsData → tables = s.backend.tables)
  updatesNone : ∀ assignments, e.gathers ms = .ok assignments →
    (c.updatingMany e x.predicate ms).Ends s (.number (.integer 0)) s.backend.tables
  deletes : ∀ text, x.operand.display = .ok text →
    (c.deleting e x.predicate).Rejects s (.missingRow (.unmatched e.name x.field.name text)) s.backend.tables
  deletesNone : (c.deletingMany e x.predicate).Ends s (.number (.integer 0)) s.backend.tables

section Agreement

variable (found : e.field? e.primaryKey.name = some e.primaryKey) (primary : e.primaryKey.primaryKey)
  (names : (e.fields.map (·.name)).Nodup) (apart : (e.fields.map (·.column)).Nodup) (x : Selector e)
  (named : c.registry.get? e.name = some e)
  (begins : s.backend.inTransaction ∨ ∃ start, Backend.opened s.backend = .ok start) (separate : e.Separate [] ms)

include found primary names apart named begins separate

theorem agreesOn (stocked : e.Stocked s (before ++ stored :: after)) (picked : x.picks stored) (read : e.read stored = .ok row)
    (recurs : e.primaryKey.Recurs e.fields (Row.value stored e.primaryKey.column)) :
    c.AgreeOn x ms s before stored after row := by
  obtain ⟨next?, many, one, makes⟩ := updatesAlike found primary names x named stocked picked read separate recurs begins
  have manyEnds : ∀ n tables, (c.updatingMany e x.predicate ms).Ends s n tables ↔
      ∃ next ∈ next?, n = .number (.integer 1) ∧ tables = Record.replace s.backend.tables e.table (before ++ next :: after) := by
    intro n tables
    rw [Action.endsOutcome, many]
    constructor
    · rintro ⟨t, ended, rfl⟩
      obtain ⟨next, mem, same⟩ := Option.map_eq_some_iff.mp ended
      cases same
      exact ⟨next, mem, rfl, rfl⟩
    · rintro ⟨next, mem, rfl, rfl⟩
      exact ⟨_, Option.map_eq_some_iff.mpr ⟨next, mem, rfl⟩, rfl⟩
  have oneEnds : ∀ v tables, (c.updating e x.predicate ms).Ends s v tables ↔ ∃ next ∈ next?, ∃ out, e.read next = .ok out ∧
      v = .object out ∧ tables = Record.replace s.backend.tables e.table (before ++ next :: after) := by
    intro v tables
    rw [Action.endsOutcome, one]
    constructor
    · rintro ⟨t, ended, rfl⟩
      obtain ⟨next, mem, ended⟩ := Option.bind_eq_some_iff.mp ended
      obtain ⟨out, read, same⟩ := Option.map_eq_some_iff.mp ended
      cases same
      exact ⟨next, mem, out, Results.toOptionOk read, rfl, rfl⟩
    · rintro ⟨next, mem, out, read, rfl, rfl⟩
      refine ⟨e.placed s (before ++ next :: after), Option.bind_eq_some_iff.mpr ⟨next, mem, ?_⟩, rfl⟩
      rw [read]
      rfl
  have only : ∀ next other, Record.replace s.backend.tables e.table (before ++ next :: after) =
      Record.replace s.backend.tables e.table (before ++ other :: after) → next = other := by
    intro next other same
    have there : (Record.get? s.backend.tables e.table).isSome := by rw [stocked.there]; rfl
    have rows := congrArg (fun tables => Record.get? tables e.table) same
    simp only [Record.get?_replace there, Option.some.injEq, List.append_cancel_left_eq, List.cons.injEq, and_true] at rows
    exact rows
  refine ⟨fun n tables ended => ?_, fun v tables => ?_, fun built exactly tables => ?_, fun n tables ended => ?_,
    fun v tables => ?_⟩
  · obtain ⟨next, -, rfl, rfl⟩ := (manyEnds n tables).mp ended
    exact ⟨rfl, next, rfl⟩
  · rw [oneEnds, manyEnds]
    constructor
    · rintro ⟨next, mem, out, read, rfl, rfl⟩
      exact ⟨⟨next, mem, rfl, rfl⟩, next, out, rfl, read, rfl⟩
    · rintro ⟨⟨next, mem, -, rfl⟩, other, out, same, read, rfl⟩
      obtain rfl := only next other same
      exact ⟨next, mem, out, read, rfl, rfl⟩
  · rw [manyEnds]
    constructor
    · rintro ⟨v, ended⟩
      obtain ⟨next, mem, -, -, -, rfl⟩ := (oneEnds v tables).mp ended
      exact ⟨next, mem, rfl, rfl⟩
    · rintro ⟨next, mem, -, rfl⟩
      obtain ⟨assignments, gathered, revised⟩ := makes next mem
      obtain ⟨out, read⟩ := Entity.buildsLegible apart ⟨row, read⟩ built exactly gathered revised
      exact ⟨.object out, (oneEnds _ _).mpr ⟨next, mem, out, read, rfl, rfl⟩⟩
  · obtain ⟨t, took, rfl⟩ := Action.endsOutcome.mp ended
    rcases deletesAlike found x named stocked picked read with ⟨many, -⟩ | ⟨many, -⟩
    · cases many.symm.trans took
    · cases many.symm.trans took
      exact ⟨rfl, rfl⟩
  · rw [Action.endsOutcome, Action.endsOutcome]
    rcases deletesAlike found x named stocked picked read with ⟨many, one⟩ | ⟨many, one⟩
    · rw [many, one]
      simp
    · rw [many, one]
      constructor
      · rintro ⟨t, ended, rfl⟩
        cases ended
        exact ⟨⟨_, rfl, rfl⟩, rfl⟩
      · rintro ⟨⟨t, ended, rfl⟩, rfl⟩
        cases ended
        exact ⟨_, rfl, rfl⟩

/-- An update of the row that a selector picks agrees with an update of all rows that it picks, and so do deletes, whether the
selector picks a row that can be read and whose primary key comes back when it is read and written again, or picks none. -/
theorem writesAgree (stocked : e.Stocked s rows) :
    (∀ before stored after row, rows = before ++ stored :: after → x.picks stored → e.read stored = .ok row →
      e.primaryKey.Recurs e.fields (Row.value stored e.primaryKey.column) → c.AgreeOn x ms s before stored after row) ∧
    ((∀ row ∈ rows, Store.equals (Row.value row x.field.column) x.operand = .ok false) → c.AgreeNone x ms s) := by
  refine ⟨fun before stored after row listed picked read recurs => ?_, fun missed => ?_⟩
  · subst listed
    exact agreesOn found primary names apart x named begins separate stocked picked read recurs
  · have unmatched : ∀ row ∈ rows, Store.matchesRow s.backend.tables e.table x.equality row = .ok false := by
      intro row mem
      rw [x.matchesEquality]
      exact missed row mem
    refine ⟨fun text shown =>
        ⟨_, updatingUnmatched x named stocked.columns stocked.there unmatched shown ms begins, rfl, fun data => ?_⟩,
      fun assignments gathered => updatingManyUnmatched x stocked.columns stocked.there unmatched separate gathered,
      fun text shown => deletingUnmatched x named stocked.columns stocked.there unmatched shown,
      deletingManyUnmatched x stocked.columns stocked.there unmatched⟩
    rw [Store.copiedTablesData data, ite_self]

end Agreement

end Context

namespace Sample

def users : Context := ⟨registry, .pooled⟩

/-- Users are selected by their name. -/
def userNamed (name : String) : Selector user :=
  .ofWritten nameField rfl rfl (by decide) (rfl : nameField.encode (.text name) = .ok (.text name)) rfl

/-- A user gets a new name and a new key. -/
def moving : List Mutation := [.field "User" "name" .set (.text "Zed"), .field "User" "id" (.arithmetic .increment) (.int 6)]

theorem movingSeparate : user.Separate [] moving where
  own := by simp [moving, Mutation.relation?]
  fresh := nofun
  apart := by
    refine List.pairwise_pair.mpr fun a b first second => ?_
    cases first
    cases second
    exact nofun

theorem movingBuilt : ∀ m ∈ moving, user.Builds m :=
  List.forall_mem_cons.mpr ⟨.assign (f := nameField) (v := .text "Zed") rfl (by decide) rfl,
    List.forall_mem_singleton.mpr (.change (f := idField) rfl (rfl : user.change idField .increment (.int 6) = .ok _))⟩

theorem usersStocked : user.Stocked (session false [ann, bob] [] []) [ann, bob] where
  columns := rfl
  there := rfl
  distinct := by
    have first : Store.checkUnique "users" user.fields ann [bob] = .ok () := rfl
    exact .cons (Store.checkedUnique first) (List.pairwise_singleton _ _)
  keys := List.forall_mem_cons.mpr ⟨⟨_, rfl⟩, List.forall_mem_singleton.mpr ⟨_, rfl⟩⟩

/-- Ann is changed and deleted alone as among many, and there is no Eve to be changed. -/
theorem writesAgreeOfUsers :
    ((∃ v, (users.updating user (userNamed "Ann").predicate moving).Ends (session false [ann, bob] [] []) v
        [("users", [row 7 (.text "Zed") .null, bob]), ("notes", [])]) ∧
      (users.deleting user (userNamed "Ann").predicate).Ends (session false [ann, bob] [] [])
        (.object [("id", .int 1), ("name", .text "Ann"), ("lead", .null)]) [("users", [bob]), ("notes", [])]) ∧
    (users.updating user (userNamed "Eve").predicate moving).Rejects (session false [ann, bob] [] [])
        (.missingRow (.unmatched "User" "name" "Eve")) [("users", [ann, bob]), ("notes", [])] ∧
      (users.updatingMany user (userNamed "Eve").predicate moving).Ends (session false [ann, bob] [] [])
        (.number (.integer 0)) [("users", [ann, bob]), ("notes", [])] := by
  have agree := fun name => Context.writesAgree (c := users) rfl rfl (by decide) (by decide) (userNamed name) rfl
    (.inr ⟨_, rfl⟩) movingSeparate usersStocked
  constructor
  · have recurs : idField.Recurs user.fields (.int 1) :=
      ⟨.int 1, .int 1, .int 1, rfl, rfl, rfl, ⟨rfl, _, rfl, rfl⟩, Store.meetsSelf ⟨rfl, _, rfl, rfl⟩⟩
    have on := (agree "Ann").1 [] ann [bob] [("id", .int 1), ("name", .text "Ann"), ("lead", .null)] rfl rfl rfl recurs
    have narrow : ∀ f ∈ user.fields, f.type.isWideInteger = false := by decide
    have exactly : user.HoldsExact ann := fun f mem wide => absurd ((narrow f mem).symm.trans wide) Bool.false_ne_true
    exact ⟨(on.builds movingBuilt exactly _).mpr ⟨_, rfl, rfl⟩, (on.deletes _ _).mpr ⟨⟨_, rfl, rfl⟩, rfl⟩⟩
  · have none := (agree "Eve").2 (List.forall_mem_cons.mpr ⟨rfl, List.forall_mem_singleton.mpr rfl⟩)
    have data : (session false [ann, bob] [] []).backend.HoldsData := by
      unfold Store.HoldsData
      decide
    obtain ⟨_, rejects, -, same⟩ := none.updates "Eve" rfl
    obtain rfl := same data
    exact ⟨rejects, none.updatesNone _ rfl⟩

/-- Ann with a key past the range of its column, as arithmetic leaves it there. -/
def outgrown : Session Store := session false [row 3000000000 (.text "Ann") .null] [] []

/-- A key that does not come back when it has been read and written again: an update of all rows reaches the row that it is
the key of, and an update of the one row does not. -/
theorem outgrownDisagrees :
    Store.Distinct user.fields [row 3000000000 (.text "Ann") .null] ∧
    (Row.value (row 3000000000 (.text "Ann") .null) "id").isNothing = false ∧
    (userNamed "Ann").picks (row 3000000000 (.text "Ann") .null) ∧
    (∃ tables, (users.updatingMany user (userNamed "Ann").predicate moving).Ends outgrown (.number (.integer 1)) tables) ∧
    ¬ ∃ v tables, (users.updating user (userNamed "Ann").predicate moving).Ends outgrown v tables := by
  refine ⟨List.pairwise_singleton _ _, rfl, rfl, ⟨_, _, rfl, rfl⟩, ?_⟩
  rintro ⟨v, tables, t, ran, -⟩
  have failed : ((users.updating user (userNamed "Ann").predicate moving).runOn outgrown).1.isOk = false := by decide +kernel
  rw [ran] at failed
  cases failed

end Sample

end EntityQuery
