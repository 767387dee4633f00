import EntityQuery.Operator
/-! Predicates on the rows of an entity: tests of a field, lists of predicates, and tests of related
rows. Operands are column values already. -/

namespace EntityQuery

/-- A test of a field. `mode` is no test of its own: it says how the texts of its field compare
throughout the list it stands in. A JSON test has a path and what is looked for there. `foreign` is a test
of no known form. -/
inductive FieldTest where
  | compare (comparison : Comparison) (operand : Value)
  | member (values : List Value) (negated : Bool)
  | text (kind : Occurrence) (part : Value)
  | mode (name : Value)
  | json (test : JsonOperator) (path operand : Value)
  | null (negated : Bool)
  | foreign (operation : Value)
  deriving Repr

inductive Connective where
  | all | any | not
  deriving DecidableEq, Repr

inductive Quantifier where
  | some | every | none
  | foreign (value : Value)
  deriving Repr

/-- A predicate. Field tests marked `unique` are equalities that select at most one row; `foreign` is a
node of no known form. -/
inductive Predicate where
  | field (entity name : String) (test : FieldTest) (unique : Bool)
  | group (connective : Connective) (entity : String) (members : List Predicate)
  | related (entity relation : String) (quantifier : Quantifier) (members : List Predicate)
  | foreign (node : Value)
  deriving Repr, Inhabited

namespace JsonOperator

/-- The test of a document that looks for an operand at the end of a path. -/
def test (o : JsonOperator) (steps : List Value) (operand : Value) : JsonTest :=
  match o with
  | .path => .path steps
  | .text kind => .text (.part kind) steps operand
  | .array item => .array item steps operand
  | .objectKey => .objectKey steps operand
  | .null => .null steps (.ofValue operand)

end JsonOperator

namespace FieldTest

def tag : FieldTest → Value
  | .compare c _ => .text (Operator.comparisonTag c)
  | .member _ negated => .text (Operator.member negated).tag
  | .text kind _ => .text kind.tag
  | .mode _ => .text Operator.mode.tag
  | .json o _ _ => .text o.tag
  | .null negated => .text (Operator.null negated).tag
  | .foreign operation => operation.member "op"

def isEquality (t : FieldTest) : Bool := t.tag.text? == some (Operator.comparisonTag .eq)

end FieldTest

namespace Predicate

def entity : Predicate → Value
  | .field e _ _ _ | .group _ e _ | .related e _ _ _ => .text e
  | .foreign node => node.member "entity"

end Predicate

end EntityQuery
