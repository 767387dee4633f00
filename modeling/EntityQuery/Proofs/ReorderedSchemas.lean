import EntityQuery.Proofs.WellDeclared
/-! Declarations in another order. Which drafts there are decides how a relation is resolved, and not their places, as long
as no two of them share a name; a list in which two do is refused in every order. -/

namespace EntityQuery

namespace Results

variable {ε α β : Type} {l m : List α} {f : α → Except ε β} {out : List β}

/-- A step that succeeds on every item of a list makes the same of each of them in any other order. -/
theorem mapReordered [Nonempty β] (perm : l.Perm m) (ran : l.mapM f = .ok out) :
    ∃ g : α → β, out = l.map g ∧ m.mapM f = .ok (m.map g) := by
  have each : ∀ x ∈ l, ∃ y, f x = .ok y := existsMapAll.mp ⟨out, ran⟩
  choose! g made using each
  have whole : ∀ k : List α, (∀ x ∈ k, x ∈ l) → k.mapM f = .ok (k.map g) := fun k among =>
    (mapSame fun x mem => made x (among x mem)).trans List.mapM_pure
  refine ⟨g, ?_, whole m fun x mem => perm.mem_iff.mpr mem⟩
  exact Except.ok.inj (ran.symm.trans (whole l fun x mem => mem))

end Results

namespace Schema

variable {drafts others : List EntityDraft} {ds es : List EntityDeclaration} {s : Schema}

theorem targetReordered (perm : drafts.Perm others) (apart : (drafts.map fun x => Name.normalize x.name).Nodup) (name : String) :
    target? drafts name = target? others name := by
  have apartToo : (others.map fun x => Name.normalize x.name).Nodup := (perm.map _).nodup_iff.mp apart
  apply Option.ext
  intro t
  rw [targetIff apart, targetIff apartToo, perm.mem_iff]

/-- A relation looks at the other drafts only to find its target. -/
theorem resolveReordered (perm : drafts.Perm others) (apart : (drafts.map fun x => Name.normalize x.name).Nodup) :
    resolveEntity drafts = resolveEntity others := by
  have relations : resolveRelation drafts = resolveRelation others := by
    funext owner r
    unfold resolveRelation
    rw [targetReordered perm apart]
  funext x
  unfold resolveEntity
  rw [relations]

theorem compileIff : compile ds = .ok s ↔ ∃ drafts, ds.mapM EntityDeclaration.draft = .ok drafts ∧ ofDrafts drafts = .ok s := by
  unfold compile
  constructor
  · intro compiled
    obtain ⟨drafts, drafted, compiled⟩ := Results.bindOk compiled
    exact ⟨drafts, drafted, mapErrorOk compiled⟩
  · rintro ⟨drafts, drafted, made⟩
    rw [drafted]
    change (ofDrafts drafts).mapError Failure.schema = .ok s
    rw [made]
    rfl

/-- What one order of the declarations compiles to, every other order does: each declaration becomes the same entity. -/
theorem compileReordered (perm : ds.Perm es) (compiled : compile ds = .ok s) :
    ∃ made : EntityDeclaration → Entity, s = ⟨ds.map made⟩ ∧ compile es = .ok ⟨es.map made⟩ := by
  have field : Field := ⟨"", "", "", .text, false, false, false, false, none⟩
  have : Nonempty EntityDraft := ⟨⟨"", "", field, [], [], [], []⟩⟩
  have : Nonempty Entity := ⟨⟨"", "", field, [], [], [], []⟩⟩
  obtain ⟨drafts, drafted, made⟩ := compileIff.mp compiled
  obtain ⟨apart, resolved⟩ := ofDraftsIff.mp made
  obtain ⟨draw, rfl, drawn⟩ := Results.mapReordered perm drafted
  have moved : (ds.map draw).Perm (es.map draw) := perm.map draw
  obtain ⟨join, same, joined⟩ := Results.mapReordered moved resolved
  refine ⟨join ∘ draw, ?_, ?_⟩
  · obtain ⟨entities⟩ := s
    exact congrArg Schema.mk (same.trans List.map_map)
  · refine compileIff.mpr ⟨es.map draw, drawn, ofDraftsIff.mpr ⟨(moved.map _).nodup_iff.mp apart, ?_⟩⟩
    rw [← resolveReordered moved apart, joined, List.map_map]

/-- The order of declarations decides nothing but the order of the entities: in any two orders a list of declarations is
refused in both or in neither, and each declaration becomes one and the same entity wherever it stands. -/
theorem orderIndifferent (perm : ds.Perm es) :
    ((∃ f, compile ds = .error f) ↔ ∃ f, compile es = .error f) ∧
      ∀ s, compile ds = .ok s → ∃ made : EntityDeclaration → Entity, s = ⟨ds.map made⟩ ∧ compile es = .ok ⟨es.map made⟩ := by
  refine ⟨?_, fun s compiled => compileReordered perm compiled⟩
  have fails : ∀ {ds es : List EntityDeclaration}, ds.Perm es → (∃ f, compile ds = .error f) → ∃ f, compile es = .error f := by
    rintro ds es perm ⟨f, refused⟩
    cases compiled : compile es with
    | error g => exact ⟨g, rfl⟩
    | ok t =>
      obtain ⟨made, -, again⟩ := compileReordered perm.symm compiled
      cases refused.symm.trans again
  exact ⟨fails perm, fails perm.symm⟩

/-- Posts refer to people and people to posts, whichever are declared first. -/
theorem orderIndifferentOfPosts : written.Perm written.reverse ∧
    ∃ made : EntityDeclaration → Entity, compile written = .ok ⟨written.map made⟩ ∧
      compile written.reverse = .ok ⟨written.reverse.map made⟩ ∧
      (written.reverse.map made).map (·.foreignKeyFields) = [[], ["author_id"]] := by
  have perm : written.Perm written.reverse := (List.reverse_perm written).symm
  obtain ⟨s, compiled, keys⟩ : ∃ s, compile written = .ok s ∧ s.entities.map (·.foreignKeyFields) = [["author_id"], []] := ⟨_, rfl, rfl⟩
  obtain ⟨-, each⟩ := orderIndifferent perm
  obtain ⟨made, rfl, again⟩ := each s compiled
  refine ⟨perm, made, compiled, again, ?_⟩
  rw [List.map_reverse, List.map_reverse, keys]
  rfl

end Schema

end EntityQuery
