import EntityQuery.Client
import EntityQuery.Field.Operand
/-! Calls by name: what the operators of a field, the members of a relation and the connectives of an
entity make of their arguments. Predicates and mutations are written as documents, and an argument stands in
its document as it was given. -/

namespace EntityQuery

namespace Value

def listed (v : Value) : Except Failure (List Value) := do
  match v with
  | .array items => return items
  | v =>
    let _ ← v.get "map"
    throw (.wrongKind "values.map is not a function")

end Value

namespace Entity

/-- The path of a JSON test. Only the operator that has nothing else to ask about needs one. -/
def pathArgument (o : JsonOperator) (arguments : List Value) : Except Failure Value := do
  match o, Value.nth arguments 1 with
  | .path, _ => return .array (← Value.spread "path" (Value.nth arguments 0))
  | _, .absent => return .array []
  | _, path => return .array (← path.spread "path")

def callField (e : Entity) (f : Field) (o : Operator) (arguments : List Value) : Except Failure Value :=
  let first := Value.nth arguments 0
  match o with
  | .compare c => do return (← e.compare f c first).toValue
  | .member negated => do return (← e.among f (← first.listed) negated).toValue
  | .arithmetic a => do return (← e.change f a first).toValue
  | .set => do return (← e.assign f first).toValue
  | .text kind => .ok (e.test f (.text kind first)).toValue
  | .mode => .ok (e.test f (.mode first)).toValue
  | .null negated => .ok (e.test f (.null negated)).toValue
  | .json o => do return (e.test f (.json o (← pathArgument o arguments) first)).toValue

def callRelation (e : Entity) (r : Relation) (name : String) (arguments : List Value) : Except Failure Value := do
  let first := Value.nth arguments 0
  let change (member : String) (given : Value) : Value :=
    Mutation.relationNode e.name r.name (FieldTest.operation name [(member, given)])
  match name with
  | "connect" => return change "selector" first
  | "disconnect" => return change "selector" first.orNull
  | "set" => return change "selectors" (.array (← first.spread "selectors"))
  | "create" => return change "data" (.object first.entries)
  | _ => return Predicate.relationNode e.name r.name (.text name) arguments

def callConnective (e : Entity) (c : Connective) (arguments : List Value) : Value :=
  Predicate.groupNode c e.name arguments

end Entity

end EntityQuery
