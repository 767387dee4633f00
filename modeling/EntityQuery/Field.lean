import EntityQuery.Failure
/-! Fields of entities and the converters of opaque field types. -/

namespace EntityQuery

/-- Moves the values of an opaque field type into columns and back. -/
structure Converter where
  label : String
  toColumn : Value → Except Failure Value
  fromColumn : Value → Except Failure Value

structure Field where
  name : String
  column : String
  declared : String
  type : ScalarType
  nullable : Bool
  unique : Bool
  primaryKey : Bool
  generated : Bool
  converter : Option Converter

namespace Field

def typeClass (f : Field) : TypeClass := f.type.typeClass

end Field

end EntityQuery
