import EntityQuery.Field
import EntityQuery.Record
import EntityQuery.Value.Display
/-! Entities: a table, its fields, the one that is the primary key, and the relations to other tables. -/

namespace EntityQuery

inductive RelationKind where
  | hasMany | belongsTo | hasOne
  deriving DecidableEq, Repr

inductive KeyOwner where
  | current | target
  deriving DecidableEq, Repr

namespace RelationKind

def tag : RelationKind → String
  | hasMany => "has_many" | belongsTo => "belongs_to" | hasOne => "has_one"

def ofTag? (tag : String) : Option RelationKind := [hasMany, belongsTo, hasOne].find? fun k => k.tag == tag

/-- Only a row that belongs to another stores the key itself. -/
def keyOwner : RelationKind → KeyOwner
  | belongsTo => .current
  | hasMany | hasOne => .target

end RelationKind

structure FieldColumn where
  field : String
  column : String
  deriving DecidableEq, Repr

/-- A relation: target rows match a row when their `remote` column equals its `own` column. The type of
the foreign key is unknown when it is stored in a table outside the schema. -/
structure Relation where
  name : String
  kind : RelationKind
  target : String
  targetTable : String
  own : FieldColumn
  remote : FieldColumn
  foreignKeyType : Option ScalarType
  foreignKeyNullable : Bool
  deriving DecidableEq, Repr

namespace Relation

def keyOwner (r : Relation) : KeyOwner := r.kind.keyOwner

def ownsKey (r : Relation) : Bool := r.keyOwner == .current

def isMany (r : Relation) : Bool := r.kind == .hasMany

def foreignKey (r : Relation) : FieldColumn := if r.ownsKey then r.own else r.remote

end Relation

/-- An entity. Foreign keys are the ones that its own rows store. -/
structure Entity where
  name : String
  table : String
  primaryKey : Field
  fields : List Field
  relations : List Relation
  foreignKeyFields : List String
  foreignKeyTypes : Record ScalarType

namespace Entity

def field? (e : Entity) (name : String) : Option Field := e.fields.find? fun f => f.name == name

def field (e : Entity) (name : String) : Except Failure Field :=
  match e.field? name with
  | some f => .ok f
  | none => .error (.query (.unknownField name e.name))

/-- The field that a value names; only texts are names. -/
def fieldNamed (e : Entity) (name : Value) : Except Failure Field :=
  match name with
  | .text s => e.field s
  | v => do throw (.query (.unknownField (← v.inserted) e.name))

def relation? (e : Entity) (name : String) : Option Relation := e.relations.find? fun r => r.name == name

def relation (e : Entity) (name : String) : Except Failure Relation :=
  match e.relation? name with
  | some r => .ok r
  | none => .error (.missingRelation e.name name (.text name))

/-- The relation that a value names; only texts are names. -/
def relationNamed (e : Entity) (name : Value) : Except Failure Relation :=
  match name with
  | .text s => e.relation s
  | v => do throw (.missingRelation e.name (← v.inserted) v)

def columns (e : Entity) : List String := e.fields.map (·.column)

end Entity

end EntityQuery
