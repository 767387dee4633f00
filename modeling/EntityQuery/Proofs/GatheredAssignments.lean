import EntityQuery.Proofs.AcceptedPredicates
import EntityQuery.Proofs.FilledColumns
import EntityQuery.Proofs.IntegerRanges
import EntityQuery.Proofs.PendingLookups
/-! Mutations of the fields of a row. Those on columns of their own are gathered as assignments, which are written at once, by a
change of one row as by an update of many, and what a client makes of a row that can be read can be read. -/

namespace EntityQuery

namespace Store

theorem setRowsSame {table : String} {rows : List Row} {s : Store} (there : Record.get? s.tables table = some rows) :
    s.setRows table rows = s := by
  unfold setRows
  rw [(Record.replaceSame there).mpr rfl]

end Store

namespace Entity

variable {e : Entity} {done : List Assignment} {ms rest : List Mutation} {m : Mutation} {a : Assignment}

/-- The assignment of a mutation of a field of the entity. -/
def ownAssignment (e : Entity) (m : Mutation) : Except Failure Assignment := do
  e.checkMutation m
  e.assignmentOf m

/-- The assignments of mutations, in their order. -/
def gathers (e : Entity) (ms : List Mutation) : Except Failure (List Assignment) := ms.mapM e.ownAssignment

/-- Mutations of fields that each assign to a column of its own, and to none that has been assigned to already. -/
structure Separate (e : Entity) (done : List Assignment) (ms : List Mutation) : Prop where
  own : ∀ m ∈ ms, m.relation? = none
  fresh : ∀ m ∈ ms, ∀ a, e.ownAssignment m = .ok a → ∀ b ∈ done, b.column ≠ a.column
  apart : ms.Pairwise fun m n => ∀ a b, e.ownAssignment m = .ok a → e.ownAssignment n = .ok b → a.column ≠ b.column

theorem Separate.next (separate : e.Separate done (m :: rest)) (made : e.ownAssignment m = .ok a) :
    e.Separate (done ++ [a]) rest := by
  obtain ⟨apart, later⟩ := List.pairwise_cons.mp separate.apart
  refine ⟨fun n mem => separate.own n (List.mem_cons_of_mem m mem), fun n mem b assigns d assigned => ?_, later⟩
  rcases List.mem_append.mp assigned with old | new
  · exact separate.fresh n (List.mem_cons_of_mem m mem) b assigns d old
  · obtain rfl := List.mem_singleton.mp new
    exact apart n mem d b made assigns

theorem Separate.unassigned (separate : e.Separate done (m :: rest)) (made : e.ownAssignment m = .ok a) :
    (done.any fun b => b.column == a.column) = false := by
  refine List.any_eq_false.mpr fun b mem => ?_
  simpa using separate.fresh m List.mem_cons_self a made b mem

/-- A mutation of a field assigns the same to many rows as to one. -/
theorem bulkOwn (own : m.relation? = none) : Request.bulkAssignment e m = e.ownAssignment m := by
  unfold Request.bulkAssignment ownAssignment
  cases m with
  | field _ _ _ _ => rfl
  | relation _ _ _ => cases own
  | foreign node =>
    refine congrArg _ (funext fun _ => ?_)
    dsimp only
    split
    · rename_i kind
      unfold Mutation.relation? at own
      dsimp only at own
      rw [kind] at own
      cases own
    · rfl

/-- The row that assignments make of a stored one among others: the same one if there are none, and no row where they are
refused. -/
def revised (e : Entity) (others : List Row) (stored : Row) (assignments : List Assignment) : Option Row :=
  if assignments.isEmpty then some stored
  else
    match Store.refusal? e.table e.fields assignments stored others with
    | some _ => none
    | none => some (Store.assignedRow e.table e.fields assignments stored)

theorem rewrittenRevised {others : List Row} {stored : Row} {assignments : List Assignment} (waits : assignments ≠ []) :
    e.rewritten others stored assignments =
      (e.revised others stored assignments).bind fun next => (e.read next).toOption.map fun row => (next, row) := by
  have waiting : assignments.isEmpty = false := by simpa using waits
  unfold rewritten revised Store.refusal? Store.assignedRow
  rw [waiting, if_neg Bool.false_ne_true]
  rcases Store.assignAll e.table e.fields stored assignments stored with ⟨_ | refused, next⟩
  · dsimp only
    cases Store.checkUnique e.table e.fields next others with
    | error f => rfl
    | ok _ =>
      dsimp only
      rw [Option.bind_some]
      cases e.read next <;> rfl
  · rfl

theorem placedSame {s : Session Store} {rows : List Row} (there : Record.get? s.backend.tables e.table = some rows) :
    e.placed s rows = s.bare := by
  unfold placed
  rw [Store.setRowsSame there]
  rfl

end Entity

/-- An update of many rows gathers the assignments of its mutations. -/
theorem Request.updateManyGathers {e : Entity} {ms : List Mutation} (filter : List Predicate) (separate : e.Separate [] ms) :
    Request.updateManyOf e filter ms = (do return .updateMany filter (← e.gathers ms)) := by
  -- by induction on the mutations, from any assignments that have been gathered already
  have gathers : ∀ (ms : List Mutation) (done : List Assignment), e.Separate done ms →
      ms.foldlM (fun (done : List Assignment) m => do
        let a ← bulkAssignment e m
        if done.any fun b => b.column == a.column then
          throw (.query (.changedTwice e.name (← (m.toValue.member "field").inserted)))
        else return done ++ [a]) done = (do return done ++ (← e.gathers ms) : Except Failure (List Assignment)) := by
    intro ms
    induction ms with
    | nil => exact fun done _ => congrArg Except.ok (List.append_nil done).symm
    | cons m rest ih =>
      intro done separate
      unfold Entity.gathers at ih ⊢
      rw [List.foldlM_cons, List.mapM_cons, Entity.bulkOwn (separate.own m List.mem_cons_self)]
      cases made : e.ownAssignment m with
      | error f => rfl
      | ok a =>
        have later := ih (done ++ [a]) (separate.next made)
        change (if done.any fun b => b.column == a.column then _ else pure (done ++ [a])) >>= _ = _
        rw [separate.unassigned made, if_neg Bool.false_ne_true, pure_bind, later]
        cases rest.mapM e.ownAssignment with
        | error f => rfl
        | ok as => exact congrArg Except.ok (List.append_assoc done [a] as)
  unfold updateManyOf
  rw [gathers ms [] separate]
  cases e.gathers ms <;> rfl

namespace Context

variable {c : Context} {e : Entity} {s : Session Store} {before after rows : List Row} {stored row : Row} {ms : List Mutation}

/-- A change of a row by mutations of its fields gathers their assignments and writes them at once. -/
theorem changeGathers (c : Context) (row : Row) (separate : e.Separate [] ms) : (c.change e ms row : Action Store Row) = (do
    let assignments ← (e.gathers ms : Except Failure (List Assignment))
    return (← c.flush e ⟨row, assignments⟩).row) := by
  -- by induction on the mutations, from any assignments that have been gathered already
  have gathers : ∀ (ms : List Mutation) (done : List Assignment), e.Separate done ms →
      (c.mutateAll e ms ⟨row, done⟩ : Action Store Pending) = (do
        let assignments ← (e.gathers ms : Except Failure (List Assignment))
        return ⟨row, done ++ assignments⟩) := by
    intro ms
    induction ms with
    | nil => exact fun done _ => congrArg (fun as => (pure ⟨row, as⟩ : Action Store Pending)) (List.append_nil done).symm
    | cons m rest ih =>
      intro done separate
      have own : (c.mutate e ⟨row, done⟩ m : Action Store Pending) =
          (do c.addAssignment e ⟨row, done⟩ (← e.ownAssignment m)) := by
        rw [mutateForm, separate.own m List.mem_cons_self]
        unfold Entity.ownAssignment
        cases e.checkMutation m <;> rfl
      unfold Entity.gathers at ih ⊢
      unfold mutateAll
      rw [own, List.mapM_cons, bind_assoc]
      cases made : e.ownAssignment m with
      | error f => rfl
      | ok a =>
        have later := ih (done ++ [a]) (separate.next made)
        change c.addAssignment e ⟨row, done⟩ a >>= c.mutateAll e rest = _
        unfold addAssignment
        dsimp only
        rw [separate.unassigned made, if_neg Bool.false_ne_true, pure_bind, pure_bind, later]
        cases rest.mapM e.ownAssignment with
        | error f => rfl
        | ok as => exact congrArg (fun as => (pure ⟨row, as⟩ : Action Store Pending)) (List.append_assoc done [a] as)
  unfold change
  rw [gathers ms [] separate, bind_assoc]
  rfl

/-- What comes of a change of a row by mutations of its fields, where the primary key that was read of it is equal to that of
one stored row only. -/
theorem changedOutcome (c : Context) {w : Value} (mem : e.primaryKey ∈ e.fields) (separate : e.Separate [] ms)
    (columns : Record.get? s.backend.fields e.table = some e.fields)
    (there : Record.get? s.backend.tables e.table = some (before ++ stored :: after)) (read : e.read stored = .ok row)
    (encodes : e.primaryKey.encode (e.keyOf row) = .ok w)
    (own : Store.equals (Row.value stored e.primaryKey.column) w = .ok true)
    (others : ∀ other ∈ before ++ after, Store.equals (Row.value other e.primaryKey.column) w = .ok false) :
    (c.change e ms row : Action Store Row).outcome s = (e.gathers ms).toOption.bind fun assignments =>
      (e.revised (before ++ after) stored assignments).bind fun next =>
        (e.read next).toOption.map fun out => (out, e.placed s (before ++ next :: after)) := by
  rw [c.changeGathers row separate, Action.liftOutcome]
  refine Option.bind_congr fun assignments _ => ?_
  rw [Action.mapOutcome]
  by_cases waits : assignments = []
  · subst waits
    change some (row, s.bare) = (e.read stored).toOption.map fun out => (out, e.placed s (before ++ stored :: after))
    rw [read, Entity.placedSame there]
    rfl
  · rw [Entity.flushFound c mem waits columns there encodes own others, Entity.rewrittenRevised waits]
    cases e.revised (before ++ after) stored assignments with
    | none => rfl
    | some next =>
      rw [Option.bind_some, Option.bind_some]
      cases e.read next <;> rfl

end Context

namespace Field

variable {fields : List Field} {f : Field} {v w : Value}

theorem offersNumbers {operation : Arithmetic} (offered : f.offers operation.tag) :
    (∃ width, f.type = .integer width) ∨ ∃ width, f.type = .float width := by
  have listed := offersListed (o := .arithmetic operation) |>.mp offered
  unfold operators typeClass at listed
  cases type : f.type with
  | integer width => exact .inl ⟨width, rfl⟩
  | float width => exact .inr ⟨width, rfl⟩
  | _ =>
    rw [type] at listed
    cases f.nullable <;> simp [ScalarType.typeClass, TypeClass.operators, Operator.equality, Operator.ordering, Operator.texts,
      Operator.jsonTests, Operator.nullChecks] at listed

/-- Can a stored value be read? -/
def Legible (fields : List Field) (f : Field) (v : Value) : Prop :=
  ∃ raw read, Store.returned fields f.column v = .ok raw ∧ f.decode raw = .ok read

theorem legibleNothing (nothing : v.isNothing) : f.Legible fields v := by
  refine ⟨.null, .null, ?_, decode_of_isNothing rfl⟩
  cases v with
  | absent | null => rfl
  | _ => cases nothing

theorem legibleFloat {width : FloatType} (typed : f.type = .float width) (n : Number) : f.Legible fields (.number n) := by
  refine ⟨.number n, .number n, rfl, ?_⟩
  unfold decode decodePresent
  rw [typed]
  rfl

theorem legibleInteger {width : IntegerType} (typed : f.type = .integer width) (held : width.HoldsNumber v) :
    f.Legible fields v := by
  obtain nothing | number := held
  · exact legibleNothing nothing
  · cases wide : width.isWide with
    | true =>
      rw [wide] at number
      obtain ⟨n, rfl⟩ := number
      refine ⟨.integer n, .integer n, rfl, ?_⟩
      unfold decode decodePresent
      rw [typed]
      dsimp only
      rw [wide]
      rfl
    | false =>
      rw [wide] at number
      obtain ⟨n, rfl⟩ := number
      refine ⟨.number n, .number n, rfl, ?_⟩
      unfold decode decodePresent
      rw [typed]
      dsimp only
      rw [wide]
      rfl

/-- What a field writes can be read, unless a converter has the word. -/
theorem legibleWritten (columns : (fields.map (·.column)).Nodup) (mem : f ∈ fields) (notOpaque : f.type ≠ .opaqueType)
    (written : f.encode v = .ok w) : f.Legible fields w := by
  cases nothing : w.isNothing with
  | true => exact legibleNothing nothing
  | false =>
    obtain ⟨there, present⟩ : v.isNothing = false ∧ f.encodePresent v = .ok w := by
      unfold encode at written
      split at written
      · split at written
        · cases written
          cases nothing
        · cases written
      · rename_i there
        exact ⟨by simpa using there, written⟩
    cases typed : f.type with
    | float width =>
      unfold encodePresent encodeFloat at present
      simp only [typed] at present
      split at present
      · cases present
      · cases present
        exact legibleFloat typed _
    | json =>
      unfold encodePresent at present
      rw [typed] at present
      obtain ⟨s, j, rfl, read⟩ | ⟨rfl, -⟩ := jsonWritten there present
      · have returned : Store.returned fields f.column (.text s) = .ok (.ofJson j) := by
          unfold Store.returned
          dsimp only
          rw [Store.fieldAtColumn columns mem, Option.any_some, typed, beq_self_eq_true, if_pos rfl, read]
        refine ⟨.ofJson j, if (Value.ofJson j).isNothing then .null else .ofJson j, returned, ?_⟩
        unfold decode decodePresent
        rw [typed]
        split <;> rfl
      · cases nothing
    | opaqueType => exact absurd typed notOpaque
    | _ =>
      obtain ⟨returned, read, decodes, -⟩ := readAgain columns mem (by rw [typed]; rfl) (by rw [typed]; exact nofun) written nothing
      exact ⟨w, read, returned, decodes⟩

/-- What arithmetic of a client makes of a value can be read, with exact integers in the columns that are for them. -/
theorem legibleComputed {operation : Arithmetic} {current operand : Value} (offered : f.offers operation.tag)
    (held : f.type.isWideInteger → current.isNothing ∨ ∃ n, current = .integer n)
    (encoded : f.encodeArithmetic operation v = .ok operand)
    (computed : Store.arithmetic operation f current operand = .ok w) : f.Legible fields w := by
  cases wide : f.type.isWideInteger with
  | true =>
    obtain ⟨width, typed⟩ | ⟨width, typed⟩ := offersNumbers offered
    · have wideWidth : width.isWide := by rwa [typed] at wide
      have number : width.HoldsNumber current := by
        unfold IntegerType.HoldsNumber
        rw [if_pos wideWidth]
        exact held wide
      exact legibleInteger typed (Store.computedNumber typed number encoded computed)
    · rw [typed] at wide
      cases wide
  | false =>
    have number : ∃ x, operand = .number x := by
      unfold encodeArithmetic at encoded
      have divides := Results.pastThrow (Results.pastThrow encoded)
      rw [wide, if_neg Bool.false_ne_true] at divides
      obtain ⟨x, -, divides⟩ := Results.bindOk divides
      cases divides
      exact ⟨x, rfl⟩
    obtain ⟨x, rfl⟩ := number
    have result : w = .null ∨ ∃ n, w = .number n := by
      unfold Store.arithmetic at computed
      split at computed
      · cases computed
        exact .inl rfl
      · split at computed
        · rename_i exactly _
          cases exactly
        · obtain ⟨a, -, computed⟩ := Results.bindOk computed
          obtain ⟨b, -, computed⟩ := Results.bindOk computed
          cases computed
          exact .inr ⟨_, rfl⟩
    obtain rfl | ⟨n, rfl⟩ := result
    · exact legibleNothing rfl
    · obtain ⟨width, typed⟩ | ⟨width, typed⟩ := offersNumbers offered
      · have narrow : ¬ width.isWide := by
          rw [typed] at wide
          exact Bool.eq_false_iff.mp wide
        refine legibleInteger typed (.inr ?_)
        rw [if_neg narrow]
        exact ⟨n, rfl⟩
      · exact legibleFloat typed n

end Field

namespace Store

/-- By induction on the assignments: every column of the row that they make holds what it held, or what one of them gives. -/
theorem assignAllGives {table : String} {fields : List Field} {assignments : List Assignment} {before row next : Row}
    (made : assignAll table fields before assignments row = (none, next)) (column : String) :
    Row.value next column = Row.value row column ∨
      ∃ a ∈ assignments, a.column = column ∧ assigned table fields before a = .ok (Row.value next column) := by
  induction assignments generalizing row with
  | nil =>
    cases made
    exact .inl rfl
  | cons a rest ih =>
    rw [assignAll] at made
    cases given : assigned table fields before a with
    | error f =>
      rw [given] at made
      cases made
    | ok v =>
      rw [given] at made
      obtain kept | ⟨b, mem, same, gives⟩ := ih made
      · by_cases own : column = a.column
        · subst own
          rw [Row.valuePut] at kept
          exact .inr ⟨a, List.mem_cons_self, rfl, by rw [kept, given]⟩
        · rw [Row.valuePutOther row v own] at kept
          exact .inl kept
      · exact .inr ⟨b, List.mem_cons_of_mem a mem, same, gives⟩

end Store

namespace Entity

variable {e : Entity} {ms : List Mutation} {stored next : Row}

/-- Mutations of fields as the entity makes them. What is set needs no converter. -/
inductive Builds (e : Entity) : Mutation → Prop
  | assign {f : Field} {v : Value} {m : Mutation} (own : e.field? f.name = some f) (notOpaque : f.type ≠ .opaqueType)
    (made : e.assign f v = .ok m) : Builds e m
  | change {f : Field} {operation : Arithmetic} {v : Value} {m : Mutation} (own : e.field? f.name = some f)
    (made : e.change f operation v = .ok m) : Builds e m

/-- A row with nothing else than exact integers in the columns that are for them. -/
def HoldsExact (e : Entity) (row : Row) : Prop :=
  ∀ f ∈ e.fields, f.type.isWideInteger → (Row.value row f.column).isNothing ∨ ∃ n, Row.value row f.column = .integer n

theorem revisedMade {others : List Row} {assignments : List Assignment}
    (revised : e.revised others stored assignments = some next) :
    Store.assignAll e.table e.fields stored assignments stored = (none, next) := by
  unfold Entity.revised at revised
  split at revised
  · rename_i nothing
    obtain rfl := List.isEmpty_iff.mp nothing
    cases revised
    rfl
  · split at revised
    · cases revised
    · rename_i accepted
      obtain ⟨⟨after, made⟩, -⟩ := Store.notRefused accepted
      unfold Store.assignedRow at revised
      rw [made] at revised ⊢
      cases revised
      rfl

/-- What is made of a row that can be read by mutations that the entity builds can be read. -/
theorem buildsLegible {others : List Row} {assignments : List Assignment} (columns : (e.fields.map (·.column)).Nodup)
    (readable : ∃ row, e.read stored = .ok row) (builds : ∀ m ∈ ms, e.Builds m)
    (exactly : e.HoldsExact stored) (gathered : e.gathers ms = .ok assignments)
    (revised : e.revised others stored assignments = some next) :
    ∃ row, e.read next = .ok row := by
  refine readableIff.mpr fun f inside => ?_
  obtain kept | ⟨a, mem, same, gives⟩ := Store.assignAllGives (revisedMade revised) f.column
  · rw [kept]
    exact readableIff.mp readable f inside
  · obtain ⟨m, among, assigns⟩ := Results.mapAllItems gathered a mem
    obtain ⟨_, -, assigns⟩ := Results.bindOk assigns
    have only : ∀ g, e.field? g.name = some g → g.column = f.column → g = f := fun g own same =>
      List.inj_on_of_nodup_map columns (List.mem_of_find?_eq_some own) inside same
    have field : ∀ g, e.field? g.name = some g → e.field g.name = .ok g := by
      intro g own
      unfold Entity.field
      rw [own]
    unfold Store.assigned at gives
    rw [same, Store.fieldAtColumn columns inside] at gives
    cases builds m among with
    | @assign g v _ own notOpaque made =>
      obtain ⟨w, written, made⟩ := Results.bindOk made
      cases made
      obtain ⟨g', named, assigns⟩ := Results.bindOk assigns
      obtain rfl := Except.ok.inj ((field g own).symm.trans named)
      cases assigns
      obtain rfl := only g own same
      obtain ⟨x, encoded⟩ := Field.encodeNewEncodes written
      rw [← Except.ok.inj gives]
      exact Field.legibleWritten columns inside notOpaque encoded
    | @change g operation v _ own made =>
      obtain ⟨w, encoded, made⟩ := Results.bindOk made
      cases made
      obtain ⟨g', named, assigns⟩ := Results.bindOk assigns
      obtain rfl := Except.ok.inj ((field g own).symm.trans named)
      change (if g.offers operation.tag then pure ⟨g.column, .arithmetic operation, w⟩ else _) = Except.ok a at assigns
      split at assigns
      · rename_i offered
        cases assigns
        obtain rfl := only g own same
        exact Field.legibleComputed offered (exactly g inside) encoded gives
      · obtain ⟨_, -, refused⟩ := Results.bindOk assigns
        cases refused

end Entity

end EntityQuery
