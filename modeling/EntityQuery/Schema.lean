import EntityQuery.Schema.Draft
/-! Schemas: the entities of a set of declarations, each relation joined to its target. Targets may come
later in the list or be the entity itself, because all drafts are made before any relation is resolved.
A target outside the schema is known by its naming convention only. -/

namespace EntityQuery

structure Schema where
  entities : List Entity

namespace Schema

def target? (drafts : List EntityDraft) (name : String) : Option EntityDraft :=
  drafts.find? fun d => Name.normalize d.name == Name.normalize name

/-- A relation to a table outside the schema, whose column is named like its field. -/
def outsideRelation (d : RelationDraft) : Relation :=
  { name := d.name
    kind := d.kind
    target := d.target
    targetTable := Name.defaultTable d.target
    own := ⟨d.own.name, d.own.column⟩
    remote := ⟨d.remoteField, d.remoteField⟩
    foreignKeyType := if d.ownsKey then some d.own.type else none
    foreignKeyNullable := d.ownsKey && d.own.nullable }

def insideRelation (d : RelationDraft) (target : EntityDraft) (remote : Field) : Relation :=
  let key := if d.ownsKey then d.own else remote
  { name := d.name
    kind := d.kind
    target := target.name
    targetTable := target.table
    own := ⟨d.own.name, d.own.column⟩
    remote := ⟨remote.name, remote.column⟩
    foreignKeyType := some key.type
    foreignKeyNullable := key.nullable }

def resolveRelation (drafts : List EntityDraft) (owner : String) (d : RelationDraft) : Except SchemaFault Relation :=
  match target? drafts d.target with
  | none => .ok (outsideRelation d)
  | some target =>
    match target.fields.find? fun f => f.name == d.remoteField with
    | none => .error (.missingTargetColumn d.name owner d.remoteField target.name)
    | some remote => .ok (insideRelation d target remote)

def resolveEntity (drafts : List EntityDraft) (d : EntityDraft) : Except SchemaFault Entity := do
  let relations ← d.relations.mapM (resolveRelation drafts d.name)
  return {
    name := d.name
    table := d.table
    primaryKey := d.primaryKey
    fields := d.fields
    relations
    foreignKeyFields := d.foreignKeyFields
    foreignKeyTypes := d.foreignKeyTypes }

/-- Refuse names that differ from an earlier one only in underscores and case. -/
def checkNames (seen : List String) : List String → Except SchemaFault Unit
  | [] => .ok ()
  | name :: rest =>
    if (Name.normalize name) ∈ seen then .error (.declaredTwice name)
    else checkNames (Name.normalize name :: seen) rest

def ofDrafts (drafts : List EntityDraft) : Except SchemaFault Schema := do
  checkNames [] (drafts.map (·.name))
  let entities ← drafts.mapM (resolveEntity drafts)
  return ⟨entities⟩

def compile (declarations : List EntityDeclaration) : Except Failure Schema := do
  (ofDrafts (← declarations.mapM EntityDeclaration.draft)).mapError Failure.schema

def hasTarget (s : Schema) (r : Relation) : Bool :=
  s.entities.any fun e => Name.normalize e.name == Name.normalize r.target

/-- What is worth telling about a compiled schema: relations that leave it, and its size. -/
def notes (s : Schema) : List String :=
  (s.entities.flatMap fun e =>
    (e.relations.filter fun r => !s.hasTarget r).map fun r =>
      s!"Relation {e.name}.{r.name} targets {r.target}, which is not in this schema") ++
    [s!"Compiled schema with {s.entities.length} entities"]

end Schema

end EntityQuery
