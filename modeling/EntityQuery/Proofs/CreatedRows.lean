import EntityQuery.Proofs.Operands
import EntityQuery.Proofs.RelatedUpdates
import EntityQuery.Proofs.Sample
import EntityQuery.Proofs.UniqueReads
/-! Rows that are created with a value of a unique field, and reads by that value right after. Both sides encode the
value on their own; the row is found where both come to the same column value. -/

namespace EntityQuery

namespace Record

variable {α : Type} {r : Record α} {name other : String} {v w : α}

/-- A record holds one value under a name, and no other one. -/
def Gives (r : Record α) (name : String) (v : α) : Prop := (name, v) ∈ r ∧ ∀ w, (name, w) ∈ r → w = v

theorem absentOfGet (h : r.get? name = none) : (name, w) ∉ r := by
  induction r with
  | nil => exact List.not_mem_nil
  | cons pair rest ih =>
    obtain ⟨key, old⟩ := pair
    unfold get? at h
    split at h
    · cases h
    · rename_i apart
      rw [List.mem_cons, Prod.mk.injEq, not_or]
      exact ⟨fun same => apart same.1.symm, ih h⟩

theorem memReplace (apart : other ≠ name) : (other, w) ∈ r.replace name v ↔ (other, w) ∈ r := by
  induction r with
  | nil => rfl
  | cons pair rest ih =>
    obtain ⟨key, old⟩ := pair
    unfold replace
    split
    · rename_i same
      subst same
      simp only [List.mem_cons, Prod.mk.injEq, apart, false_and, false_or]
    · rw [List.mem_cons, List.mem_cons, ih]

theorem memPut (pair : String × α) (fresh : r.get? name = none) : pair ∈ r.put name v ↔ pair = (name, v) ∨ pair ∈ r :=
  (permPut v fresh).mem_iff.trans List.mem_cons

theorem memPutOther (apart : other ≠ name) : (other, w) ∈ r.put name v ↔ (other, w) ∈ r := by
  cases there : r.get? name with
  | none =>
    rw [memPut _ there, Prod.mk.injEq]
    exact ⟨fun either => either.resolve_left fun same => apart same.1, .inr⟩
  | some old =>
    unfold put has
    rw [there]
    exact memReplace apart

theorem givesPut (fresh : r.get? name = none) : (r.put name v).Gives name v := by
  refine ⟨(memPut _ fresh).mpr (.inl rfl), fun w mem => ?_⟩
  rcases (memPut _ fresh).mp mem with same | old
  · exact (Prod.mk.inj same).2
  · exact (absentOfGet fresh old).elim

theorem givesReplace (distinct : r.names.Nodup) (there : (r.get? name).isSome) : (r.replace name v).Gives name v := by
  induction r with
  | nil => cases there
  | cons pair rest ih =>
    obtain ⟨key, old⟩ := pair
    obtain ⟨once, others⟩ := List.nodup_cons.mp distinct
    unfold get? at there
    unfold replace
    split
    · rename_i same
      subst same
      refine ⟨List.mem_cons_self, fun w mem => ?_⟩
      rcases List.mem_cons.mp mem with same | tail
      · exact (Prod.mk.inj same).2
      · exact absurd (List.mem_map_of_mem tail) once
    · rename_i apart
      rw [if_neg apart] at there
      obtain ⟨inside, only⟩ := ih others there
      refine ⟨List.mem_cons_of_mem _ inside, fun w mem => ?_⟩
      rcases List.mem_cons.mp mem with same | tail
      · exact absurd (Prod.mk.inj same).1.symm apart
      · exact only w tail

/-- What is put into a record is what it holds under that name, whether it held something there before or not. -/
theorem putGives (name : String) (v : α) (distinct : r.names.Nodup) : (r.put name v).Gives name v := by
  cases there : r.get? name with
  | none => exact givesPut there
  | some old =>
    unfold put has
    rw [there]
    exact givesReplace distinct (by rw [there]; rfl)

theorem givesOther (gives : r.Gives name v) (apart : name ≠ other) : (r.put other w).Gives name v :=
  ⟨(memPutOther apart).mpr gives.1, fun w mem => gives.2 w ((memPutOther apart).mp mem)⟩

end Record

namespace Entity

variable {e : Entity} {f : Field} {data values : Row} {v : Value}

theorem fieldFound {name : String} {g : Field} (h : e.field? name = some g) : g ∈ e.fields ∧ g.name = name :=
  ⟨List.mem_of_find?_eq_some h, by simpa using List.find?_some h⟩

theorem fieldOk {name : String} {f : Field} (named : e.field name = .ok f) : e.field? name = some f := by
  unfold field at named
  split at named
  · rename_i found
    exact found.trans (congrArg some (Except.ok.inj named))
  · cases named

/-- By induction on the data: the one value that is given for a field is encoded into its column. -/
theorem encodeGives (columns : (e.fields.map (·.column)).Nodup) (found : e.field? f.name = some f) (there : v ≠ .absent)
    (gives : Record.Gives data f.name v) (encoded : e.encodeRow data = .ok values) :
    ∃ w, f.encode v = .ok w ∧ Record.get? values f.column = some w := by
  obtain ⟨inside, only⟩ := gives
  unfold encodeRow at encoded
  have either : (f.name, v) ∈ data ∨ ∃ w, f.encode v = .ok w ∧ Record.get? ([] : Row) f.column = some w := .inl inside
  clear inside
  generalize ([] : Row) = acc at encoded either
  induction data generalizing acc with
  | nil =>
    cases encoded
    exact either.resolve_left List.not_mem_nil
  | cons pair rest ih =>
    obtain ⟨name, x⟩ := pair
    have later : ∀ w, (f.name, w) ∈ rest → w = v := fun w mem => only w (List.mem_cons_of_mem _ mem)
    rw [List.foldlM_cons] at encoded
    obtain ⟨next, step, encoded⟩ := Results.bindOk encoded
    refine ih later next encoded ?_
    dsimp only at step
    split at step
    · cases step
      refine either.imp_left fun mem => ?_
      rcases List.mem_cons.mp mem with same | tail
      · exact (there (Prod.mk.inj same).2).elim
      · exact tail
    · obtain ⟨g, named, step⟩ := Results.bindOk step
      obtain ⟨y, written, step⟩ := Results.bindOk step
      cases step
      have known := fieldOk named
      by_cases own : name = f.name
      · subst own
        obtain rfl : f = g := Option.some.inj (found.symm.trans known)
        obtain rfl : x = v := only x List.mem_cons_self
        exact .inr ⟨y, written, (Record.getPut acc f.column y).1⟩
      · have apart : f.column ≠ g.column := by
          intro same
          obtain ⟨mem, called⟩ := fieldFound known
          obtain rfl := List.inj_on_of_nodup_map columns (fieldFound found).1 mem same
          exact own called.symm
        rcases either with mem | ⟨w, encodes, put⟩
        · rcases List.mem_cons.mp mem with same | tail
          · exact (own (Prod.mk.inj same).1.symm).elim
          · exact .inl tail
        · exact .inr ⟨w, encodes, by rw [(Record.getPut acc g.column y).2 f.column apart, put]⟩

end Entity

namespace Creation

variable {registry : Registry Fetcher} {e : Entity} {f : Field} {data : Row} {creation next : Creation} {v : Value}

theorem addMemberValues {name : String} (added : addMember registry e creation name v = .ok next) :
    next.values = creation.values ∨ next.values = creation.values.put name v := by
  unfold addMember at added
  split at added
  · cases added
    exact .inl rfl
  · split at added
    · cases added
      exact .inr rfl
    · cases added
    · split at added
      · split at added
        · obtain ⟨_, -, added⟩ := Results.bindOk added
          cases added
          exact .inl rfl
        · cases added
      · obtain ⟨_, -, added⟩ := Results.bindOk added
        cases added
        exact .inl rfl

theorem addMemberField (found : e.field? f.name = some f) (there : v ≠ .absent) :
    addMember registry e creation f.name v = .ok { creation with values := creation.values.put f.name v } := by
  unfold addMember
  rw [found]
  cases v with
  | absent => exact (there rfl).elim
  | _ => rfl

/-- By induction on the data: the value that they hold for a field is the value of the creation. -/
theorem ofDataGives (found : e.field? f.name = some f) (there : v ≠ .absent) (names : data.names.Nodup)
    (given : (f.name, v) ∈ data) (asked : ofData registry e data = .ok creation) : creation.values.Gives f.name v := by
  have kept : ∀ (data : Row) (start : Creation), f.name ∉ data.names → start.values.Gives f.name v →
      data.foldlM (fun c member => addMember registry e c member.1 member.2) start = .ok creation →
        creation.values.Gives f.name v := by
    intro data
    induction data with
    | nil =>
      intro start _ gives ran
      cases ran
      exact gives
    | cons pair rest ih =>
      obtain ⟨name, x⟩ := pair
      intro start apart gives ran
      obtain ⟨here, later⟩ := not_or.mp (mt List.mem_cons.mpr apart)
      obtain ⟨next, added, ran⟩ := Results.bindOk ran
      refine ih next later ?_ ran
      rcases addMemberValues added with same | put
      · rwa [same]
      · rw [put]
        exact Record.givesOther gives here
  have run : ∀ (data : Row) (start : Creation), data.names.Nodup → (f.name, v) ∈ data →
      start.values.get? f.name = none →
        data.foldlM (fun c member => addMember registry e c member.1 member.2) start = .ok creation →
          creation.values.Gives f.name v := by
    intro data
    induction data with
    | nil => intro _ _ mem; cases mem
    | cons pair rest ih =>
      obtain ⟨name, x⟩ := pair
      intro start names mem fresh ran
      obtain ⟨once, others⟩ := List.nodup_cons.mp names
      obtain ⟨next, added, later⟩ := Results.bindOk ran
      rcases List.mem_cons.mp mem with same | tail
      · obtain ⟨rfl, rfl⟩ := Prod.mk.inj same
        refine kept rest next once ?_ later
        dsimp only at added
        rw [addMemberField found there] at added
        cases added
        exact Record.givesPut fresh
      · refine ih next others tail ?_ later
        have apart : f.name ≠ name := by
          rintro rfl
          exact once (List.mem_map.mpr ⟨_, tail, rfl⟩)
        rcases addMemberValues added with same | put
        · rwa [same]
        · rw [put, (Record.getPut _ _ _).2 _ apart, fresh]
  exact run data _ names given rfl asked

end Creation

namespace Context

variable {c : Context} {e : Entity} {f : Field} {v : Value} {s t : Session Store} {creation : Creation}

theorem resolveGives {lookups : List Lookup} {values out : Row} (gives : Record.Gives values f.name v)
    (apart : ∀ l ∈ lookups, l.relation.own.field ≠ f.name)
    (ran : (c.resolveLookups e lookups values).runOn s = (.ok out, t)) : Record.Gives out f.name v := by
  induction lookups generalizing values s with
  | nil =>
    cases ran
    exact gives
  | cons l rest ih =>
    obtain ⟨here, later⟩ := List.forall_mem_cons.mp apart
    obtain ⟨found, u, -, ran⟩ := Step.bindOk ran
    obtain ⟨field, -, ran⟩ := Step.liftOk ran
    split at ran
    · cases ran
    · obtain ⟨_, w, -, ran⟩ := Step.bindOk ran
      exact ih (Record.givesOther gives here.symm) later ran

/-- Does nothing that a creation does besides writing its own value write the column of a field, or delete rows of
the entity's table? -/
def Spares (c : Context) (e : Entity) (creation : Creation) (f : Field) : Prop :=
  (∀ l ∈ creation.lookups, l.relation.own.field ≠ f.name) ∧
    ∀ change ∈ creation.related, ∀ q, c.RelatedSends e change.1 change.2 q → q.table = e.table → q.Spares f.column

/-- Does a creation add rows at most to the table of its entity? -/
def AddsOnly (c : Context) (e : Entity) (creation : Creation) : Prop :=
  ∀ change ∈ creation.related, ∀ q, c.RelatedSends e change.1 change.2 q → q.table = e.table → ∃ i, q = .insert i

/-- The row that a creation adds stands behind the rows that were there, with the value that was given, and no other
row has that value. It is as it was returned unless the creation goes on to change rows of its table. -/
theorem createdSingled {row : Row} (columns : Record.get? s.backend.fields e.table = some e.fields)
    (names : (e.fields.map (·.column)).Nodup) (found : e.field? f.name = some f) (unique : f.unique) (there : v ≠ .absent)
    (gives : creation.values.Gives f.name v) (spares : c.Spares e creation f)
    (ran : (c.create e creation).runOn s = (.ok row, t)) :
    ∃ w old rows, f.encode v = .ok w ∧ Record.get? s.backend.tables e.table = some old ∧
      t.backend.fields = s.backend.fields ∧ Record.get? t.backend.tables e.table = some rows ∧
      Store.Singled f.column w old.length rows ∧
      (c.AddsOnly e creation → ∃ stored, rows[old.length]? = some stored ∧ e.Reads stored row) := by
  obtain ⟨values, u, resolved, ran⟩ := Step.bindOk ran
  obtain ⟨returned, x, inserted, ran⟩ := Step.bindOk ran
  obtain ⟨_, y, changed, ran⟩ := Step.bindOk ran
  cases ran
  obtain ⟨sameFields, sameTables⟩ := Prod.mk.inj ((c.resolveLookupsWrites e _ _).keeps resolved)
  rw [← sameFields] at columns
  obtain ⟨encoded, old, stored, encoding, known, content, checked, holds, reads⟩ := insertRowOk columns inserted
  obtain ⟨w, written, placed⟩ := Entity.encodeGives names found there (resolveGives gives spares.1 resolved) encoding
  obtain ⟨mem, -⟩ := Entity.fieldFound found
  obtain rfl := holds f mem w placed
  obtain ⟨nextFields, nextTables⟩ := Prod.mk.inj content
  have fresh : Record.get? x.backend.tables e.table = some (old ++ [stored]) := by
    rw [nextTables]
    exact Record.get?_replace (by rw [known]; rfl)
  have columnsThen : Record.get? x.backend.fields e.table = some e.fields := by rw [nextFields, columns]
  have sends := c.changeAllWrites ⟨e, row⟩ creation.related
  obtain ⟨lastFields, still⟩ := sends.kept (R := Store.Stays e.table e.fields
    (Store.Singled f.column (Row.value stored f.column) old.length)) (fun q ⟨change, inside, sent⟩ =>
      Store.staysSingled mem unique fun own => spares.2 change inside q sent own) changed
  obtain ⟨rows, last, singled⟩ := still columnsThen _ fresh (Store.singledChecked mem unique checked)
  refine ⟨_, old, rows, written, sameTables ▸ known, ?_, last, singled, fun adds => ?_⟩
  · exact lastFields.trans (nextFields.trans sameFields)
  · obtain ⟨-, still⟩ := sends.kept (R := Store.Stays e.table e.fields fun rows => rows[old.length]? = some stored)
      (fun q ⟨change, inside, sent⟩ => Store.staysPlaced fun own => adds change inside q sent own) changed
    obtain ⟨rows', last', placed⟩ := still columnsThen _ fresh (by simp)
    obtain rfl : rows = rows' := Option.some.inj (last.symm.trans last')
    exact ⟨stored, placed, reads⟩

theorem compareGiven {operand : Value} (unique : f.unique) (there : operand.isNothing = false)
    (asked : f.encodeOperand v = .ok operand) :
    e.compare f .eq v = .ok (.field e.name f.name (.compare .eq operand) true) := by
  unfold Entity.compare
  rw [asked, unique]
  cases operand with
  | null => cases there
  | _ => rfl

theorem findUniqueAsked {registry : Registry Fetcher} {operand : Value} (named : registry.get? e.name = some e) :
    Request.findUnique registry e (.field e.name f.name (.compare .eq operand) true) =
      .ok (.find .unique ⟨[.field e.name f.name (.compare .eq operand) true], .empty, []⟩) := by
  have means : registry.means (.text e.name) e = .ok true := by
    change Except.ok ((registry.get? e.name).any fun found => found.name == e.name) = _
    rw [named]
    exact congrArg Except.ok (beq_self_eq_true e.name)
  unfold Request.findUnique
  change (registry.means (.text e.name) e >>= fun same => if !same then _ else _) = _
  rw [means]
  rfl

end Context

end EntityQuery
