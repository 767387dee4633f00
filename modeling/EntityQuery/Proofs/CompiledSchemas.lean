import EntityQuery.Client
import EntityQuery.Proofs.Results
import Mathlib.Data.List.Nodup
/-! What holds of every compiled schema: its entities differ in their names, and the key that a relation takes from its own
rows is a field of them, which is nullable where the relation says so. The registry of its client has the same entities. -/

namespace EntityQuery

namespace RelationDeclaration

theorem draftOwn {entity name : String} {d : RelationDeclaration} {fields : List Field} {out : RelationDraft}
    (drafted : d.draft entity name fields = .ok out) : fields.find? (fun f => f.name == out.own.name) = some out.own := by
  unfold draft at drafted
  split at drafted
  · obtain ⟨_, -, refused⟩ := Results.bindOk drafted
    cases refused
  · dsimp only at drafted
    split at drafted
    · cases drafted
    · obtain ⟨own, -, drafted⟩ := Results.bindOk drafted
      obtain ⟨remote, -, drafted⟩ := Results.bindOk drafted
      split at drafted
      · cases drafted
      · rename_i f found
        obtain ⟨reference, -, drafted⟩ := Results.bindOk drafted
        cases drafted
        have named : f.name = own := by simpa using List.find?_some found
        rw [named]
        exact found

end RelationDeclaration

namespace EntityDeclaration

theorem draftRelations {d : EntityDeclaration} {out : EntityDraft} (drafted : d.draft = .ok out) :
    ∀ r ∈ out.relations, out.fields.find? (fun f => f.name == r.own.name) = some r.own := by
  unfold draft at drafted
  obtain ⟨entity, -, drafted⟩ := Results.bindOk drafted
  dsimp only at drafted
  split at drafted
  · cases drafted
  · obtain ⟨table, -, drafted⟩ := Results.bindOk drafted
    obtain ⟨fields, -, drafted⟩ := Results.bindOk drafted
    obtain ⟨key, -, drafted⟩ := Results.bindOk drafted
    obtain ⟨relations, listed, drafted⟩ := Results.bindOk drafted
    cases drafted
    intro r mem
    obtain ⟨_, -, one⟩ := Results.mapAllItems listed r mem
    exact RelationDeclaration.draftOwn one

end EntityDeclaration

namespace Schema

variable {declarations : List EntityDeclaration} {schema : Schema}

theorem mapErrorOk {ε δ α : Type} {g : ε → δ} {r : Except ε α} {a : α} (h : r.mapError g = .ok a) : r = .ok a := by
  cases r with
  | error e => cases h
  | ok b =>
    cases h
    rfl

theorem checkNamesApart {names seen : List String} (checked : checkNames seen names = .ok ()) :
    names.Nodup ∧ ∀ name ∈ names, Name.normalize name ∉ seen := by
  induction names generalizing seen with
  | nil => simp
  | cons name rest ih =>
    unfold checkNames at checked
    split at checked
    · cases checked
    · rename_i fresh
      obtain ⟨apart, others⟩ := ih checked
      refine ⟨List.nodup_cons.mpr ⟨fun again => others name again List.mem_cons_self, apart⟩, ?_⟩
      exact List.forall_mem_cons.mpr ⟨fresh, fun other mem inside => others other mem (List.mem_cons_of_mem _ inside)⟩

theorem resolvedRelation {drafts : List EntityDraft} {owner : String} {d : RelationDraft} {r : Relation}
    (resolved : resolveRelation drafts owner d = .ok r) :
    r.own.field = d.own.name ∧ (r.kind = .belongsTo → r.foreignKeyNullable → d.own.nullable) := by
  unfold resolveRelation at resolved
  split at resolved
  · cases resolved
    refine ⟨rfl, fun _ nullable => ?_⟩
    obtain ⟨-, nullable⟩ := Bool.and_eq_true_iff.mp nullable
    exact nullable
  · split at resolved
    · cases resolved
    · cases resolved
      refine ⟨rfl, fun (one : d.kind = .belongsTo) nullable => ?_⟩
      have owns : d.ownsKey = true := by simp [RelationDraft.ownsKey, one, RelationKind.keyOwner]
      unfold insideRelation at nullable
      rwa [if_pos owns] at nullable

theorem resolvedEntity {drafts : List EntityDraft} {d : EntityDraft} {e : Entity}
    (resolved : resolveEntity drafts d = .ok e) :
    e.name = d.name ∧ e.fields = d.fields ∧
      ∀ r ∈ e.relations, ∃ draft ∈ d.relations, resolveRelation drafts d.name draft = .ok r := by
  obtain ⟨relations, listed, resolved⟩ := Results.bindOk resolved
  cases resolved
  exact ⟨rfl, rfl, Results.mapAllItems listed⟩

/-- What compiling makes sure of. -/
structure Sound (schema : Schema) : Prop where
  names : (schema.entities.map (·.name)).Nodup
  own : ∀ e ∈ schema.entities, ∀ r ∈ e.relations, ∃ f, e.field? r.own.field = some f ∧
    (r.kind = .belongsTo → r.foreignKeyNullable → f.nullable)

theorem compiledSound (compiled : compile declarations = .ok schema) : schema.Sound := by
  obtain ⟨drafts, drafted, compiled⟩ := Results.bindOk compiled
  obtain ⟨_, checked, compiled⟩ := Results.bindOk (mapErrorOk compiled)
  obtain ⟨entities, resolved, compiled⟩ := Results.bindOk compiled
  cases compiled
  refine ⟨?_, fun e mem r inside => ?_⟩
  · rw [Results.mapAllMap (fun d e one => (resolvedEntity one).1) resolved]
    exact (checkNamesApart checked).1
  · obtain ⟨d, among, one⟩ := Results.mapAllItems resolved e mem
    obtain ⟨-, fields, relations⟩ := resolvedEntity one
    obtain ⟨draft, listed, related⟩ := relations r inside
    obtain ⟨declaration, -, made⟩ := Results.mapAllItems drafted d among
    obtain ⟨own, nullable⟩ := resolvedRelation related
    refine ⟨draft.own, ?_, nullable⟩
    unfold Entity.field?
    rw [fields, own]
    exact EntityDeclaration.draftRelations made draft listed

end Schema

namespace Registry

variable {φ : Type}

theorem registeredAll {entities : List Entity} {r out : Registry φ} (registered : entities.foldlM register r = .ok out) :
    out.entities = r.entities ++ entities := by
  induction entities generalizing r with
  | nil =>
    cases registered
    exact (List.append_nil _).symm
  | cons e rest ih =>
    rw [List.foldlM_cons] at registered
    obtain ⟨next, one, registered⟩ := Results.bindOk registered
    have added : next.entities = r.entities ++ [e] := by
      unfold register at one
      split at one
      · cases one
      · cases one
        rfl
    rw [ih registered, added, List.append_assoc, List.singleton_append]

theorem fetchersKeep (fetcher : Entity → φ) (entities : List Entity) (r : Registry φ) :
    (entities.foldl (fun r e => r.registerFetcher e.name (fetcher e)) r).entities = r.entities := by
  induction entities generalizing r with
  | nil => rfl
  | cons e rest ih => exact ih (r.registerFetcher e.name (fetcher e))

end Registry

namespace Client

variable {φ : Type} {fetcher : Entity → φ} {declared : Record EntityDeclaration} {client : Client φ}

theorem ofDeclarationsOk (made : ofDeclarations fetcher declared = .ok client) :
    Schema.compile declared.values = .ok client.schema ∧ client.registry.entities = client.schema.entities := by
  unfold ofDeclarations at made
  split at made
  · cases made
  · obtain ⟨schema, compiled, made⟩ := Results.bindOk made
    obtain ⟨registry, registered, made⟩ := Results.bindOk made
    obtain ⟨entities, -, made⟩ := Results.bindOk made
    cases made
    refine ⟨compiled, ?_⟩
    rw [Registry.fetchersKeep, Registry.registeredAll (Schema.mapErrorOk registered)]
    rfl

end Client

end EntityQuery
