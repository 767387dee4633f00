import EntityQuery.Field
import EntityQuery.Statement
/-! The operators of fields. Which ones a field offers follows from the class of its type; nullable
fields can be tested for null, and every field can be set. -/

namespace EntityQuery

inductive JsonOperator where
  | path
  | text (kind : Occurrence)
  | array (item : ArrayItem)
  | objectKey
  | null
  deriving DecidableEq, Repr

inductive Operator where
  | compare (comparison : Comparison)
  | member (negated : Bool)
  | arithmetic (operation : Arithmetic)
  | text (kind : Occurrence)
  | mode
  | json (test : JsonOperator)
  | null (negated : Bool)
  | set
  deriving DecidableEq, Repr

namespace JsonOperator

def tag : JsonOperator → String
  | path => "jsonPath"
  | text .contains => "jsonStringContains" | text .startsWith => "jsonStringStartsWith"
  | text .endsWith => "jsonStringEndsWith"
  | array .any => "jsonArrayContains" | array .first => "jsonArrayStartsWith" | array .last => "jsonArrayEndsWith"
  | objectKey => "jsonObjectContains"
  | null => "jsonNull"

def all : List JsonOperator :=
  [path, text .contains, text .startsWith, text .endsWith, array .any, array .first, array .last, objectKey, null]

end JsonOperator

namespace Operator

def comparisonTag : Comparison → String
  | .eq => "equals" | .ne => "notEquals" | .gt => "gt" | .ge => "gte" | .lt => "lt" | .le => "lte"

def tag : Operator → String
  | compare c => comparisonTag c
  | member negated => if negated then "notIn" else "in"
  | arithmetic a => a.tag
  | text o => o.tag
  | mode => "mode"
  | json test => test.tag
  | null negated => if negated then "isNotNull" else "isNull"
  | set => "set"

def equality : List Operator := [compare .eq, compare .ne, member false, member true]

def ordering : List Operator := [compare .gt, compare .ge, compare .lt, compare .le]

def arithmetics : List Operator := Arithmetic.all.map arithmetic

def texts : List Operator := Occurrence.all.map text ++ [mode]

def jsonTests : List Operator := JsonOperator.all.map json

def nullChecks : List Operator := [null false, null true]

/-- Every operator, each once. -/
def all : List Operator := equality ++ ordering ++ arithmetics ++ texts ++ jsonTests ++ nullChecks ++ [set]

def ofTag? (tag : String) : Option Operator := all.find? fun o => o.tag == tag

end Operator

def TypeClass.operators : TypeClass → List Operator
  | .integer | .float => Operator.equality ++ Operator.ordering ++ Operator.arithmetics
  | .datetime => Operator.equality ++ Operator.ordering
  | .text => Operator.equality ++ Operator.ordering ++ Operator.texts
  | .boolean | .uuid | .opaqueClass => Operator.equality
  | .json => Operator.equality ++ Operator.jsonTests

namespace Field

def operators (f : Field) : List Operator :=
  f.typeClass.operators ++ (if f.nullable then Operator.nullChecks else []) ++ [.set]

def offers (f : Field) (tag : String) : Bool := f.operators.any fun o => o.tag == tag

end Field

end EntityQuery
