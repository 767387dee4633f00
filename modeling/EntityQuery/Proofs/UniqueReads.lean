import EntityQuery.Operation.Execution
import EntityQuery.Operation.Start
import EntityQuery.Proofs.Lookups
import EntityQuery.Proofs.Preserved
/-! Reads by an equality of a unique field: what they answer, from the stored row that the equality singles out. -/

namespace EntityQuery

namespace Entity

variable {e : Entity}

/-- What is read of a stored row. -/
def read (e : Entity) (stored : Row) : Except Failure Row := do e.decodeRow (← Store.project e.fields e.columns stored)

theorem readsRead {stored decoded : Row} (reads : e.Reads stored decoded) : e.read stored = .ok decoded := by
  obtain ⟨out, projected, decodes⟩ := reads
  rw [read, projected]
  exact decodes

theorem readReads {stored decoded : Row} (h : e.read stored = .ok decoded) : e.Reads stored decoded := by
  obtain ⟨out, projected, decodes⟩ := Results.bindOk h
  exact ⟨out, projected, decodes⟩

end Entity

theorem Field.offersEquality (f : Field) : f.offers "equals" := by
  unfold offers operators typeClass
  rw [List.any_append, List.any_append]
  cases f.type <;> rfl

/-- Equality with a value that is there compiles to a comparison, unless the texts of the field are compared without case. -/
theorem Predicate.equalityOne {φ : Type} {registry : Registry φ} {e : Entity} {f : Field} {operand : Value} {unique : Bool}
    {insensitive : List String} (found : e.field? f.name = some f) (there : operand.isNothing = false)
    (cased : (insensitive.contains f.name && f.typeClass == .text) = false) :
    compileOne registry ⟨e, e.table, 0⟩ insensitive (.field e.name f.name (.compare .eq operand) unique) =
      .ok (some (.compare ⟨e.table, f.column⟩ (.of .eq) operand)) := by
  have named : e.fieldNamed (.text f.name) = .ok f := by
    change e.field f.name = _
    rw [Entity.field, found]
  have tested : compileField ⟨e, e.table, 0⟩ insensitive (.text f.name) (.compare .eq operand) =
      .ok (some (.compare ⟨e.table, f.column⟩ (.of .eq) operand)) := by
    unfold compileField
    rw [named]
    change (if !(f.offers "equals") then _ else _) = _
    rw [f.offersEquality]
    change compileTest _ f (insensitive.contains f.name && f.typeClass == .text) _ = _
    rw [cased]
    cases operand with
    | null | absent => cases there
    | _ => rfl
  have given : checkEntity ⟨e, e.table, 0⟩ (.text e.name) = .ok () := if_pos (beq_self_eq_true _)
  unfold compileOne
  change (checkEntity ⟨e, e.table, 0⟩ (.text e.name) >>= fun _ =>
    compileField ⟨e, e.table, 0⟩ insensitive (.text f.name) (.compare .eq operand)) = _
  rw [given]
  exact tested

theorem Predicate.equalityCompiles {registry : Registry Fetcher} {e : Entity} {f : Field} {operand : Value} {unique : Bool}
    (found : e.field? f.name = some f) (there : operand.isNothing = false) :
    Predicate.condition registry e [.field e.name f.name (.compare .eq operand) unique] =
      .ok (.compare ⟨e.table, f.column⟩ (.of .eq) operand) := by
  have one : compileOne registry ⟨e, e.table, 0⟩ [] (.field e.name f.name (.compare .eq operand) unique) = _ :=
    equalityOne found there rfl
  have plain : modes [.field e.name f.name (.compare .eq operand) unique] [] = .ok [] := rfl
  unfold Predicate.condition compile compileMembers compileMembers
  rw [plain]
  change (compileOne registry ⟨e, e.table, 0⟩ [] _ >>= _) >>= _ = _
  rw [one]
  rfl

namespace Store

theorem selectDecided {s : Store} {e : Entity} {condition : Condition} {rows : List Row} {p : Row → Bool}
    (columns : Record.get? s.fields e.table = some e.fields) (there : Record.get? s.tables e.table = some rows)
    (truths : ∀ row ∈ rows, matchesRow s.tables e.table condition row = .ok (p row)) :
    s.selectRows ⟨e.table, e.columns, condition, [], .int 1, .null⟩ =
      (rows.find? p).toList.mapM (project e.fields e.columns) := by
  have matched : s.matching e.table condition = .ok (rows.filter p) := by
    unfold matching rowsOf tableRows
    rw [there]
    exact Results.filterOk truths
  have known : s.fieldsOf e.table = .ok e.fields := by
    unfold fieldsOf
    rw [columns]
  rw [selectOne, matched, known, ← List.head?_filter]
  cases rows.filter p <;> rfl

/-- Among rows of which one is singled out, equality with its value is true of that row only. -/
theorem singledFound {column : String} {w : Value} {place : Nat} {rows : List Row} (places : Places w)
    (singled : Singled column w place rows) :
    ∃ stored, rows[place]? = some stored ∧ Row.value stored column = w ∧
      rows.find? (fun row => meets (Row.value row column) w) = some stored ∧
        ∀ row ∈ rows, equals (Row.value row column) w = .ok (meets (Row.value row column) w) := by
  obtain ⟨before, stored, after, rfl, rfl, held, apart⟩ := singled
  have self : equals w w = .ok true := by
    obtain ⟨given, x, comparable, -⟩ := places
    unfold equals
    rw [given]
    exact sameSelf comparable
  have missed : ∀ row ∈ before ++ after, meets (Row.value row column) w = false := by
    intro row mem
    unfold meets
    rw [apart row mem]
    rfl
  have hit : meets (Row.value stored column) w = true := by
    rw [held]
    exact meetsSelf places
  refine ⟨stored, by simp, held, ?_, fun row mem => ?_⟩
  · have first : before.find? (fun row => meets (Row.value row column) w) = none :=
      List.find?_eq_none.mpr fun row mem => by simp [missed row (List.mem_append_left _ mem)]
    have next : (stored :: after).find? (fun row => meets (Row.value row column) w) = some stored := List.find?_cons_of_pos hit
    rw [List.find?_append, first, next]
    rfl
  · rcases List.mem_append.mp mem with old | later
    · rw [apart row (List.mem_append_left _ old), missed row (List.mem_append_left _ old)]
    · rcases List.mem_cons.mp later with rfl | new
      · rw [hit, held, self]
      · rw [apart row (List.mem_append_right _ new), missed row (List.mem_append_right _ new)]

end Store

namespace Context

variable {c : Context} {e : Entity} {s : Session Store} {f : Field} {operand : Value} {unique : Bool} {rows : List Row}

theorem withoutIncludes (c : Context) (e : Entity) (rows : List Row) :
    (c.loadIncludes e [] rows : Action Store (List Row)) = pure rows := by
  cases rows with
  | nil => rfl
  | cons row rest =>
    change (pure (withCounts false ((row :: rest).map fun row => (row, []))) : Action Store (List Row)) = _
    unfold withCounts
    rw [List.map_map]
    exact congrArg pure (List.map_id _)

theorem findWrites {may : WriteStatement → Prop} (c : Context) (e : Entity) (r : Read) (take : Value) :
    Writes may (c.find e r take : Action Store (List Row)) :=
  .liftBind fun condition _ => .bind (c.readRowsWrites e condition _) fun rows => c.loadIncludesWrites e r.includes rows

/-- A read by an equality is one selection, of which the first row is decoded. -/
theorem findUniqueRun (found : e.field? f.name = some f) (there : operand.isNothing = false) :
    ((c.perform e (.find .unique ⟨[.field e.name f.name (.compare .eq operand) unique], .empty, []⟩)).runOn s).1 = (do
      let found ← s.backend.selectRows ⟨e.table, e.columns, .compare ⟨e.table, f.column⟩ (.of .eq) operand, [], .int 1, .null⟩
      return firstOf (← found.mapM fun row => e.decodeRow row)) := by
  have compiled : c.condition e [.field e.name f.name (.compare .eq operand) unique] =
      .ok (.compare ⟨e.table, f.column⟩ (.of .eq) operand) := Predicate.equalityCompiles found there
  have same : (s.backend.record .select e.table).selectRows = s.backend.selectRows := rfl
  have alone : Condition.conjunction [.compare ⟨e.table, f.column⟩ (.of .eq) operand] =
      .compare ⟨e.table, f.column⟩ (.of .eq) operand := rfl
  change Prod.fst (((do
    let condition ← c.condition e [.field e.name f.name (.compare .eq operand) unique]
    let rows ← c.readRows e condition { Window.empty with take := .int 1 }
    c.loadIncludes e [] rows : Action Store (List Row)) >>= fun rows => pure (firstOf rows)).runOn s) = _
  rw [compiled]
  change Prod.fst (((c.readRows e _ { Window.empty with take := .int 1 } >>= fun rows => c.loadIncludes e [] rows) >>= fun rows =>
    pure (firstOf rows)).runOn s) = _
  rw [readFirst, Step.runBind, Step.runBind, Step.runBind, selectRun, same, alone]
  cases s.backend.selectRows ⟨e.table, e.columns, .compare ⟨e.table, f.column⟩ (.of .eq) operand, [], .int 1, .null⟩ with
  | error e => rfl
  | ok found =>
    dsimp only
    rw [Step.runLift]
    change _ = (do return firstOf (← found.mapM fun row => e.decodeRow row))
    cases found.mapM fun row => e.decodeRow row with
    | error e => rfl
    | ok decoded =>
      dsimp only
      rw [withoutIncludes]
      rfl

/-- A read by the value that singles a row out answers what is read of that row. -/
theorem findSingled (unique : Bool) {w : Value} {place : Nat} (columns : Record.get? s.backend.fields e.table = some e.fields)
    (there : Record.get? s.backend.tables e.table = some rows) (found : e.field? f.name = some f) (places : Store.Places w)
    (singled : Store.Singled f.column w place rows) :
    ∃ stored, rows[place]? = some stored ∧ Row.value stored f.column = w ∧
      ((c.perform e (.find .unique ⟨[.field e.name f.name (.compare .eq w) unique], .empty, []⟩)).runOn s).1 =
        Value.object <$> e.read stored := by
  obtain ⟨stored, placed, held, first, truths⟩ := Store.singledFound places singled
  refine ⟨stored, placed, held, ?_⟩
  rw [findUniqueRun found places.1, Store.selectDecided columns there (fun row mem =>
    (Store.matchesCompare _ _ _ _ row).trans (truths row mem)), first]
  unfold Entity.read
  simp only [Option.toList_some, List.mapM_cons, List.mapM_nil]
  cases Store.project e.fields e.columns stored with
  | error f => rfl
  | ok out =>
    change (do return firstOf (← [out].mapM fun row => e.decodeRow row)) = Value.object <$> e.decodeRow out
    rw [List.mapM_cons, List.mapM_nil]
    cases e.decodeRow out <;> rfl

/-- A read by an operand finds no row that does not meet it. -/
theorem findMeets (columns : Record.get? s.backend.fields e.table = some e.fields)
    (found : e.field? f.name = some f) (given : operand.isNothing = false) {answer : Row}
    (ran : ((c.perform e (.find .unique ⟨[.field e.name f.name (.compare .eq operand) unique], .empty, []⟩)).runOn s).1 =
      .ok (.object answer)) :
    ∃ rows, Record.get? s.backend.tables e.table = some rows ∧
      ∃ stored ∈ rows, Store.meets (Row.value stored f.column) operand ∧ e.Reads stored answer := by
  rw [findUniqueRun found given] at ran
  obtain ⟨selected, selection, ran⟩ := Results.bindOk ran
  obtain ⟨decoded, decoding, ran⟩ := Results.bindOk ran
  obtain ⟨rows, there, first⟩ := Store.selectFirst columns selection
  refine ⟨rows, there, ?_⟩
  split at first
  · subst first
    cases decoding
    cases ran
  · rename_i stored picked
    obtain ⟨out, rfl, projected⟩ := first
    obtain ⟨value, decodes, decoding⟩ := Results.bindOk decoding
    cases decoding
    cases ran
    refine ⟨stored, List.mem_of_find?_eq_some picked, ?_, out, projected, decodes⟩
    have matched := List.find?_some picked
    rw [Store.isMatch, Store.matchesCompare] at matched
    exact matched

end Context

end EntityQuery
