import EntityQuery.Schema.Declaration
import EntityQuery.Schema.Entity
/-! Drafts: what one entity declaration says by itself, before relations meet their targets. -/

namespace EntityQuery

/-- A relation whose target is known by name only. -/
structure RelationDraft where
  name : String
  kind : RelationKind
  reference : String
  target : String
  own : Field
  remoteField : String

structure EntityDraft where
  name : String
  table : String
  primaryKey : Field
  fields : List Field
  relations : List RelationDraft
  foreignKeyFields : List String
  foreignKeyTypes : Record ScalarType

namespace RelationDraft

def ownsKey (d : RelationDraft) : Bool := d.kind.keyOwner == .current

end RelationDraft

/-- A text where nothing else will do. -/
def needText (v : Value) : Except Failure String :=
  match v with
  | .text s => .ok s
  | _ => .error (.wrongKind "A declaration names its parts by text")

/-- A name, empty where the value counts as false. -/
def nameText (v : Value) : Except Failure String := if v.isTruthy then needText v else .ok ""

/-- The field that a declaration describes. Primary keys are unique, and a type that is an option makes
the field nullable. -/
def FieldDeclaration.toField (name : String) (d : FieldDeclaration) : Except Failure Field := do
  let type ← needText d.type
  let declared := ScalarType.ofDeclared type
  return {
    name
    column := d.columnName.getD name
    declared := type
    type := declared.type
    nullable := declared.nullable || d.nullable
    unique := d.primaryKey || d.unique
    primaryKey := d.primaryKey
    generated := d.generated
    converter := d.converter }

/-- The field that a column path names: its last segment in snake case. -/
def columnField (path : Value) (relation entity side : String) : Except Failure String := do
  let name := Name.toSnake (Name.lastSegment (← needText path))
  if name.isEmpty then throw (.schema (.columnless relation entity side))
  return name

/-- The draft of a relation: its kind, its target and both columns have to be given, and its own column
has to be a field of the entity. -/
def RelationDeclaration.draft (entity name : String) (d : RelationDeclaration) (fields : List Field) :
    Except Failure RelationDraft := do
  match d.kind.text?.bind RelationKind.ofTag? with
  | none => throw (.schema (.unknownKind name entity (← d.kind.display)))
  | some kind =>
    if !d.target.isTruthy then throw (.schema (.targetless name entity))
    let own ← columnField d.ownColumn name entity "from"
    let remoteField ← columnField d.targetColumn name entity "to"
    match fields.find? fun f => f.name == own with
    | none => throw (.schema (.missingColumn name entity own))
    | some own =>
      let reference ← needText d.target
      return { name, kind, reference, target := Name.toPascal (Name.targetSegment reference), own, remoteField }

/-- The primary key among fields: there is exactly one, and it is not nullable. -/
def primaryKeyOf (entity : String) (fields : List Field) : Except SchemaFault Field :=
  match fields.filter (·.primaryKey) with
  | [] => .error (.keyless entity)
  | [key] => if key.nullable then .error (.nullableKey entity key.name) else .ok key
  | keys => .error (.severalKeys entity (keys.map (·.name)))

/-- The trimmed name of a table; there has to be one. -/
def tableOf (entity : String) (given : Value) : Except Failure String := do
  let table := Text.trim (← if given.isNothing then .ok "" else needText given)
  if table.isEmpty then throw (.schema (.tableless entity))
  return table

def keyRelations (relations : List RelationDraft) : List RelationDraft := relations.filter (·.ownsKey)

def EntityDeclaration.draft (d : EntityDeclaration) : Except Failure EntityDraft := do
  let entity ← nameText d.name
  if entity.isEmpty then throw (.schema .nameless)
  let table ← tableOf entity d.tableName
  let fields ← d.fields.mapM fun (name, f) => f.toField name
  let primaryKey ← (primaryKeyOf entity fields).mapError Failure.schema
  let relations ← d.relations.mapM fun (name, r) => r.draft entity name fields
  let keys := (keyRelations relations).map (·.own)
  return {
    name := entity
    table
    primaryKey
    fields
    relations
    foreignKeyFields := (keys.map (·.name)).eraseDups
    foreignKeyTypes := Record.ofPairs (keys.map fun f => (f.name, f.type)) }

end EntityQuery
