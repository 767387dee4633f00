import EntityQuery.Proofs.ClientRuns
import EntityQuery.Proofs.JsonTexts
import EntityQuery.Proofs.Operands
/-! Columns that have to be filled. In every state that a client reaches, the column of a field that is neither nullable nor
generated holds something in every row, unless its name is one that every object has. -/

namespace EntityQuery

namespace Value

def isCallable : Value → Bool
  | .callable _ => true
  | _ => false

end Value

namespace Value

theorem mapPresent {ε α β : Type} {r : Except ε α} {g : α → β} : (r.map fun a => some (g a)) ≠ .ok none := by
  cases r <;> simp [Except.map]

theorem undocumented {rule : IntegerRule} {v : Value} (none : v.toJson? rule = .ok none) :
    v = .absent ∨ v = .jsonNull ∨ v.isCallable := by
  cases v with
  | absent => exact .inl rfl
  | jsonNull => exact .inr (.inl rfl)
  | callable _ => exact .inr (.inr rfl)
  | null | bool _ | number _ | text _ | date _ =>
    unfold toJson? at none
    cases none
  | integer n | array _ | object _ =>
    unfold toJson? at none
    exact absurd none mapPresent
  | key k =>
    cases k with
    | integer width n =>
      unfold toJson? at none
      split at none
      · exact absurd none mapPresent
      · cases none
    | json payload =>
      unfold toJson? at none
      exact absurd none mapPresent
    | _ =>
      unfold toJson? at none
      cases none

end Value

namespace ScalarType

theorem formPlain {type : ScalarType} {v : Value} (form : type.isForm v) : v.isCallable = false ∧ v.isNothing = false := by
  cases v with
  | absent | null | callable _ => cases type <;> cases form
  | _ => exact ⟨rfl, rfl⟩

end ScalarType

namespace Field

variable {f : Field} {v w : Value}

/-- A document is stored as text that is read as one, if it is no function. -/
theorem jsonWritten (there : v.isNothing = false) (written : encodeJson v = .ok w) :
    (∃ s j, w = .text s ∧ Json.read? s = some j) ∨ w = .absent ∧ v.isCallable := by
  unfold encodeJson at written
  split at written
  · cases written
    exact .inl ⟨"null", .null, rfl, rfl⟩
  · rename_i unmarked
    obtain ⟨text, shown, written⟩ := Results.bindOk written
    obtain ⟨j, document, shown⟩ := Results.bindOk shown
    cases shown
    cases j with
    | some j =>
      cases written
      obtain ⟨k, read, -⟩ := Json.printReads j
      exact .inl ⟨j.print, k, rfl, read⟩
    | none =>
      cases written
      rcases Value.undocumented (Schema.mapErrorOk document) with rfl | rfl | called
      · cases there
      · exact (unmarked rfl).elim
      · exact .inr ⟨rfl, called⟩

theorem encodeWritten (closed : f.type ≠ .opaqueType) (written : f.encode v = .ok w) :
    w.isCallable = false ∧ (w.isNothing → f.nullable ∨ w = .absent ∧ f.type = .json ∧ v.isCallable) := by
  unfold encode at written
  split at written
  · split at written
    · rename_i nullable
      cases written
      exact ⟨rfl, fun _ => .inl nullable⟩
    · cases written
  · rename_i there
    by_cases json : f.type = .json
    · unfold encodePresent at written
      simp only [json] at written
      obtain ⟨s, j, rfl, -⟩ | ⟨rfl, called⟩ := jsonWritten (by simpa using there) written
      · exact ⟨rfl, fun never => absurd never Bool.false_ne_true⟩
      · exact ⟨rfl, fun _ => .inr ⟨rfl, json, called⟩⟩
    · obtain ⟨plain, present⟩ := ScalarType.formPlain (presentForm written json closed)
      exact ⟨plain, fun nothing => absurd (present.symm.trans nothing) (by decide)⟩

theorem decodePlain (closed : f.type ≠ .opaqueType) (plain : v.isCallable = false) (read : f.decode v = .ok w) :
    w.isCallable = false := by
  unfold decode at read
  split at read
  · cases read
    rfl
  · unfold decodePresent at read
    cases type : f.type with
    | integer width =>
      simp only [type] at read
      split at read
      · split at read
        · cases read
          rfl
        · cases read
      · obtain ⟨n, -, read⟩ := Results.bindOk read
        cases read
        rfl
    | float width =>
      simp only [type] at read
      obtain ⟨n, -, read⟩ := Results.bindOk read
      cases read
      rfl
    | datetime =>
      simp only [type, toDate] at read
      split at read
      · cases read
        rfl
      · cases read
    | date =>
      simp only [type] at read
      unfold decodeDay at read
      split at read
      · cases read
        rfl
      · cases read
        rfl
      · obtain ⟨s, -, read⟩ := Results.bindOk read
        cases read
        rfl
    | text | bool | time | uuid | json =>
      simp only [type] at read
      cases read
      exact plain
    | opaqueType => exact absurd type closed

theorem columnPlain {k : Key} (written : k.toColumn = .ok w) : w.isCallable = false := by
  cases k with
  | json payload =>
    obtain ⟨s, -, written⟩ := Results.bindOk written
    cases written
    rfl
  | integer width n =>
    cases written
    unfold KeyForm.value
    dsimp only
    split <;> rfl
  | _ =>
    cases written
    rfl

theorem convertDocument {k : Key} (converted : k.convert .json = .ok w) : w.isCallable = false := by
  unfold KeyForm.convert at converted
  split at converted
  · exact columnPlain converted
  · dsimp only at converted
    unfold KeyForm.toJsonColumn at converted
    split at converted
    · cases converted
      rfl
    · obtain ⟨s, -, converted⟩ := Results.bindOk converted
      cases converted
      rfl
    · obtain ⟨s, -, converted⟩ := Results.bindOk converted
      cases converted
      rfl

theorem encodeNewWritten (closed : f.type ≠ .opaqueType) (plain : v.isCallable = false) (written : f.encodeNew v = .ok w) :
    w.isCallable = false ∧ (w.isNothing → f.nullable) := by
  have direct : ∀ {x}, x.isCallable = false ∨ f.type ≠ .json → f.encode x = .ok w →
      w.isCallable = false ∧ (w.isNothing → f.nullable) := by
    intro x proper written
    obtain ⟨plain, filled⟩ := encodeWritten closed written
    refine ⟨plain, fun nothing => ?_⟩
    obtain nullable | ⟨-, json, called⟩ := filled nothing
    · exact nullable
    · rcases proper with plain | other
      · exact absurd (plain.symm.trans called) Bool.false_ne_true
      · exact absurd json other
  unfold encodeNew at written
  split at written
  · split at written
    · obtain ⟨x, converted, written⟩ := Results.bindOk written
      refine direct ?_ written
      by_cases json : f.type = .json
      · rw [json] at converted
        exact .inl (convertDocument converted)
      · exact .inr json
    · exact direct (.inl rfl) written
  · exact direct (.inl plain) written

end Field

namespace Store

variable {v w : Value}

theorem copiedPlain (v : Value) : (copied v).isCallable = v.isCallable := by
  cases v with
  | key k => cases k <;> rfl
  | _ => rfl

theorem returnedPlain {fields : List Field} {column : String} (plain : v.isCallable = false)
    (read : returned fields column v = .ok w) : w.isCallable = false := by
  unfold returned at read
  split at read
  · split at read
    · split at read
      · rename_i j parsed
        cases read
        cases j <;> rfl
      · cases read
    · cases read
      rfl
  · cases read
    cases v with
    | callable _ => cases plain
    | _ => rfl

theorem arithmeticPlain {operation : Arithmetic} {f : Field} {current operand : Value}
    (computed : arithmetic operation f current operand = .ok w) : w.isCallable = false ∧ (w.isNothing → current.isNothing) := by
  unfold arithmetic at computed
  split at computed
  · rename_i nothing
    cases computed
    exact ⟨rfl, fun _ => nothing⟩
  · split at computed
    · obtain ⟨n, -, computed⟩ := Results.bindOk computed
      cases computed
      exact ⟨rfl, fun never => absurd never Bool.false_ne_true⟩
    · obtain ⟨a, -, computed⟩ := Results.bindOk computed
      obtain ⟨b, -, computed⟩ := Results.bindOk computed
      cases computed
      exact ⟨rfl, fun never => absurd never Bool.false_ne_true⟩

theorem generatePlain {s t : Store} {table : String} {f : Field} (generated : s.generate table f = .ok (v, t)) :
    v.isCallable = false := by
  unfold generate at generated
  split at generated
  · obtain ⟨rows, -, generated⟩ := Results.bindOk generated
    obtain ⟨next, -, generated⟩ := Results.bindOk generated
    cases generated
    split <;> rfl
  · cases generated
    rfl

end Store

/-- Columns that have to be filled, and fields that a relation reads from rows of an entity without them, have no name
that every object has. -/
structure Client.PlainlyNamed (client : Client Fetcher) : Prop where
  columns : ∀ e ∈ client.schema.entities, ∀ f ∈ e.fields, f.nullable = false → f.generated = false →
    Value.inherited f.column = .absent
  remote : ∀ e ∈ client.schema.entities, ∀ r ∈ e.relations, ∀ target, client.registry.get? r.target = some target →
    target.field? r.remote.field = none → Value.inherited r.remote.field = .absent

/-- No function is stored, and nothing only where a field is nullable or generated. -/
def CellRule.filled {client : Client Fetcher} (closed : ∀ e ∈ client.schema.entities, ∀ f ∈ e.fields, f.type ≠ .opaqueType)
    (named : client.PlainlyNamed) : CellRule client.schema where
  cell _ f v := v.isCallable = false ∧ (v.isNothing → f.nullable ∨ f.generated)
  plain v := v.isCallable = false
  computes _ _ := True
  plainNull := rfl
  copied {e f v} held := by
    rw [Store.copiedPlain, Store.copiedNothing]
    exact held
  read mem inside held returned decoded := Field.decodePlain (closed _ mem _ inside) (Store.returnedPlain held.1 returned) decoded
  written mem inside plain encoded := by
    obtain ⟨proper, filled⟩ := Field.encodeWritten (closed _ mem _ inside) encoded
    refine ⟨proper, fun nothing => ?_⟩
    obtain nullable | ⟨-, -, called⟩ := filled nothing
    · exact .inl nullable
    · exact absurd (plain.symm.trans called) Bool.false_ne_true
  entered mem inside encoded allowed := by
    obtain ⟨proper, filled⟩ := Field.encodeWritten (closed _ mem _ inside) encoded
    refine ⟨proper, fun nothing => ?_⟩
    obtain nullable | ⟨absent, -, -⟩ := filled nothing
    · exact .inl nullable
    · rcases allowed with generated | nullable | there
      · exact .inr generated
      · exact .inl nullable
      · exact absurd absent there
  omitted {e f} mem inside plain allowed := by
    refine ⟨rfl, fun _ => ?_⟩
    cases nullable : f.nullable with
    | true => exact .inl rfl
    | false =>
      rcases allowed with yes | shared
      · exact absurd (nullable.symm.trans yes) Bool.false_ne_true
      · exact absurd (named.columns e mem f inside nullable plain) shared
  generated mem inside isGenerated _ made := ⟨Store.generatePlain made, fun _ => .inr isGenerated⟩
  changed mem inside _ _ held computed := by
    obtain ⟨plain, nothing⟩ := Store.arithmeticPlain computed
    exact ⟨plain, fun null => held.2 (nothing null)⟩

namespace Client

variable {client : Client Fetcher} {fetcher : Entity → Fetcher} {declared : Record EntityDeclaration}

open Sample

/-- No column of a field that is neither nullable nor generated is empty in any row. -/
def Filled (client : Client Fetcher) (b : Store) : Prop :=
  ∀ e ∈ client.schema.entities, ∀ f ∈ e.fields, f.nullable = false → f.generated = false →
    e.Column f (fun v => v.isNothing = false) b

/-- The client with any values but functions, whatever its operations leave. -/
def plainUsage (client : Client Fetcher) : Usage := ⟨client, fun v => v.isCallable = false, fun _ _ => True⟩

theorem filledKept (made : ofDeclarations fetcher declared = .ok client) (apart : client.schema.NamesApart)
    (closed : ∀ e ∈ client.schema.entities, ∀ f ∈ e.fields, f.type ≠ .opaqueType) (named : client.PlainlyNamed) :
    client.plainUsage.Keeps (CellRule.filled closed named).Holds := by
  obtain ⟨compiled, same⟩ := ofDeclarationsOk made
  have sound := Schema.compiledSound compiled
  have serves : (CellRule.filled closed named).Serves client.registry := by
    refine ⟨apart, sound, fun e mem => same ▸ mem, fun e mem r inside target there missing => ?_⟩
    change (Value.inherited r.remote.field).isCallable = false
    rw [named.remote e mem r inside target there missing]
    rfl
  refine ⟨CellRule.Holds.same, CellRule.restoredHolds, fun {o h s} composes holds _ => ?_⟩
  refine Usage.executedHolds serves composes (fun mem {f v w} inside plain written => ?_) (fun _ => trivial) h holds
  obtain ⟨proper, filled⟩ := Field.encodeNewWritten (closed _ mem _ inside) plain written
  exact ⟨proper, fun nothing => .inl (filled nothing)⟩

/-- In every state that a client reaches from a fresh store, inside transactions and outside, with or without failures,
the columns that have to be filled are filled. The check of new rows takes what every object has under a name for a value
of the row, so that the names of such columns must be others. -/
theorem staysFilled (made : ofDeclarations fetcher declared = .ok client) (apart : client.schema.NamesApart)
    (closed : ∀ e ∈ client.schema.entities, ∀ f ∈ e.fields, f.type ≠ .opaqueType) (named : client.PlainlyNamed)
    {s : Session Store} (reaches : client.plainUsage.Reaches s) : client.Filled s.backend := by
  intro e mem f inside required written rows there row among
  have holds := Usage.reachesKept (filledKept made apart closed named) CellRule.freshHolds reaches
  obtain ⟨-, nothing⟩ := holds.column mem inside rows there row among
  cases found : (Row.value row f.column).isNothing with
  | false => rfl
  | true =>
    rcases nothing found with nullable | generated
    · exact absurd (required.symm.trans nullable) Bool.false_ne_true
    · exact absurd (written.symm.trans generated) Bool.false_ne_true

/-- A counter is created and raised, and its columns are filled. -/
theorem staysFilledOfCounters : ∃ s, counterClient.plainUsage.Reaches s ∧
    s.backend.tables = [("counters", [[("id", .int 1), ("count", .int 127)]])] ∧ counterClient.Filled s.backend := by
  have fields : ∀ e ∈ counterClient.schema.entities, ∀ f ∈ e.fields, f = idField ∨ f = countField := by
    intro e mem f inside
    obtain rfl := List.mem_singleton.mp mem
    simpa [counter] using inside
  have named : counterClient.PlainlyNamed := by
    refine ⟨fun e mem f inside _ written => ?_, fun e mem r inside => ?_⟩
    · rcases fields e mem f inside with rfl | rfl
      · cases written
      · rfl
    · obtain rfl := List.mem_singleton.mp mem
      cases inside
  have reaches : counterClient.plainUsage.Reaches _ :=
    Usage.reachesAll (countersRaised rfl 126 1 rfl rfl rfl) ⟨trivial, trivial, trivial⟩
  refine ⟨_, reaches, rfl, staysFilled counterMade countersApart (fun e mem f inside => ?_) named reaches⟩
  rcases fields e mem f inside with rfl | rfl <;> simp [idField, countField]

end Client

end EntityQuery
