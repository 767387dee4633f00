import EntityQuery.Converter
import EntityQuery.Schema.Draft
import EntityQuery.Value.Reading
/-! Schemas as documents: declarations are read from documents, and what became of them is written as
documents. A converter is written by its label. -/

namespace EntityQuery

/-- A field given by its type alone, or by an object. -/
def FieldDeclaration.ofValue : Value → FieldDeclaration
  | .text type => .ofType type
  | v =>
    { type := v.member "type"
      primaryKey := v.flagAt "primaryKey"
      unique := v.flagAt "unique"
      nullable := v.flagAt "nullable"
      generated := v.flagAt "generated"
      columnName := v.textAt? "columnName"
      converter := (v.textAt? "converter").bind Converter.ofLabel? }

def RelationDeclaration.ofValue (v : Value) : RelationDeclaration :=
  ⟨v.member "kind", v.member "target", v.member "from", v.member "to"⟩

/-- Named declarations given as a list of pairs. The name `__proto__` declares nothing. -/
def Value.declarations (v : Value) : Record Value := v.pairs.filter fun (name, _) => name != "__proto__"

def EntityDeclaration.ofValue (v : Value) : EntityDeclaration :=
  { name := v.member "name"
    tableName := v.member "tableName"
    fields := (v.member "fields").declarations.mapValues FieldDeclaration.ofValue
    relations := (v.member "relations").declarations.mapValues RelationDeclaration.ofValue }

namespace Value

def ofTexts (texts : List String) : Value := .array (texts.map .text)

def ofScalar (t : ScalarType) : Value := .text t.tag

def ofOption {α : Type} (f : α → Value) : Option α → Value
  | some a => f a
  | none => .null

end Value

def Converter.toValue (c : Converter) : Value := .object [("$converter", .text c.label)]

def Field.toValue (f : Field) : Value :=
  .object [("name", .text f.name), ("column", .text f.column), ("declaredType", .text f.declared),
    ("type", .ofScalar f.type), ("typeClass", .text f.typeClass.tag), ("nullable", .bool f.nullable),
    ("unique", .bool f.unique), ("primaryKey", .bool f.primaryKey), ("generated", .bool f.generated),
    ("converter", .ofOption Converter.toValue f.converter)]

def KeyOwner.toValue : KeyOwner → Value
  | current => .text "current"
  | target => .text "target"

/-- The type and nullability of a foreign key are known only of the keys that the entity itself stores. -/
def RelationDraft.toValue (d : RelationDraft) : Value :=
  let key := if d.ownsKey then some d.own else none
  .object [("name", .text d.name), ("kind", .text d.kind.tag), ("targetReference", .text d.reference),
    ("targetEntity", .text d.target), ("keyOwner", d.kind.keyOwner.toValue), ("localField", .text d.own.name),
    ("localColumn", .text d.own.column), ("remoteField", .text d.remoteField),
    ("foreignKeyField", .text (if d.ownsKey then d.own.name else d.remoteField)),
    ("foreignKeyType", .ofOption (fun f => .ofScalar f.type) key),
    ("foreignKeyNullable", .ofOption (fun f => .bool f.nullable) key)]

def Relation.toValue (r : Relation) : Value :=
  .object [("name", .text r.name), ("kind", .text r.kind.tag), ("targetEntity", .text r.target),
    ("targetTable", .text r.targetTable), ("keyOwner", r.keyOwner.toValue), ("localField", .text r.own.field),
    ("localColumn", .text r.own.column), ("remoteField", .text r.remote.field),
    ("remoteColumn", .text r.remote.column), ("foreignKeyField", .text r.foreignKey.field),
    ("foreignKeyColumn", .text r.foreignKey.column), ("foreignKeyType", .ofOption .ofScalar r.foreignKeyType),
    ("foreignKeyNullable", .bool r.foreignKeyNullable)]

def Field.keyValue (f : Field) : Value :=
  .object [("field", .text f.name), ("column", .text f.column), ("type", .ofScalar f.type)]

def EntityDraft.toValue (d : EntityDraft) : Value :=
  .object [("name", .text d.name), ("tableName", .text d.table), ("primaryKey", d.primaryKey.keyValue),
    ("fields", .array (d.fields.map Field.toValue)), ("relations", .array (d.relations.map RelationDraft.toValue)),
    ("foreignKeyFields", .ofTexts d.foreignKeyFields),
    ("foreignKeyTypes", .object (d.foreignKeyTypes.mapValues .ofScalar))]

def Entity.toValue (e : Entity) : Value :=
  .object [("name", .text e.name), ("tableName", .text e.table), ("primaryKey", e.primaryKey.keyValue),
    ("fields", .array (e.fields.map Field.toValue)), ("relations", .array (e.relations.map Relation.toValue)),
    ("foreignKeyFields", .ofTexts e.foreignKeyFields),
    ("foreignKeyTypes", .object (e.foreignKeyTypes.mapValues .ofScalar))]

end EntityQuery
