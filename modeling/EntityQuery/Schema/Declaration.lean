import EntityQuery.Field
import EntityQuery.Record
/-! Declarations of entities: fields by their declared type, and relations by paths to the columns they
join. Names, types and paths are held as they were given, and an entity is refused when one that it needs is
no text. -/

namespace EntityQuery

structure FieldDeclaration where
  type : Value
  primaryKey : Bool
  unique : Bool
  nullable : Bool
  generated : Bool
  columnName : Option String
  converter : Option Converter

def FieldDeclaration.ofType (type : String) : FieldDeclaration := ⟨.text type, false, false, false, false, none, none⟩

/-- A relation as declared. `ownColumn` names the column on the declaring side and `targetColumn` the one
on the other side; both are paths such as `post.Column.AuthorId`. -/
structure RelationDeclaration where
  kind : Value
  target : Value
  ownColumn : Value
  targetColumn : Value
  deriving Repr

structure EntityDeclaration where
  name : Value
  tableName : Value
  fields : Record FieldDeclaration
  relations : Record RelationDeclaration

end EntityQuery
