import EntityQuery.Condition.Document
import EntityQuery.Predicate
/-! Predicates as documents. Written predicates are read back; a document of no known form is kept as it
is. -/

namespace EntityQuery

namespace FieldTest

def operation (tag : String) (members : List (String × Value)) : Value := .object (("op", .text tag) :: members)

/-- The members of a JSON test: its path, and the operand under the name that the operator has for it. -/
def jsonMembers (o : JsonOperator) (path operand : Value) : List (String × Value) :=
  match o with
  | .path => [("path", path)]
  | .text _ | .array _ => [("path", path), ("value", operand)]
  | .objectKey => [("path", path), ("key", operand)]
  | .null => [("path", path), ("kind", operand)]

def toValue (test : FieldTest) : Value :=
  match test with
  | .compare c operand => operation (Operator.comparisonTag c) [("value", operand)]
  | .member values negated => operation (Operator.member negated).tag [("values", .array values)]
  | .text kind part => operation kind.tag [("value", part)]
  | .mode name => operation Operator.mode.tag [("mode", name)]
  | .json o path operand => operation o.tag (jsonMembers o path operand)
  | .null negated => operation (Operator.null negated).tag []
  | .foreign v => v

def jsonOperand (o : JsonOperator) (v : Value) : Value :=
  match o with
  | .path => .absent
  | .text _ | .array _ => v.member "value"
  | .objectKey => v.member "key"
  | .null => v.member "kind"

def ofValue (v : Value) : FieldTest :=
  match (v.member "op").text?.bind Operator.ofTag? with
  | some (.compare c) => .compare c (v.member "value")
  | some (.member negated) =>
    match v.member "values" with
    | .array values => .member values negated
    | _ => .foreign v
  | some (.text kind) => .text kind (v.member "value")
  | some .mode => .mode (v.member "mode")
  | some (.json o) => .json o (v.member "path") (jsonOperand o v)
  | some (.null negated) => .null negated
  | some (.arithmetic _) | some .set | none => .foreign v

end FieldTest

namespace Connective

def tag : Connective → String
  | all => "and" | any => "or" | not => "not"

def ofTag? (tag : String) : Option Connective := [Connective.all, .any, .not].find? fun c => c.tag == tag

end Connective

namespace Quantifier

def toValue : Quantifier → Value
  | .some => .text "some"
  | .every => .text "every"
  | .none => .text "none"
  | .foreign v => v

def ofValue : Value → Quantifier
  | .text "some" => .some
  | .text "every" => .every
  | .text "none" => .none
  | v => .foreign v

end Quantifier

namespace Predicate

def groupNode (c : Connective) (entity : String) (members : List Value) : Value :=
  .object [("kind", .text c.tag), ("entity", .text entity), ("predicates", .array members)]

def relationNode (entity relation : String) (quantifier : Value) (members : List Value) : Value :=
  .object [("kind", .text "relation"), ("entity", .text entity), ("relation", .text relation),
    ("quantifier", quantifier), ("predicates", .array members)]

mutual

def toValue : Predicate → Value
  | .field entity name test unique =>
    .object ([("kind", .text "field"), ("entity", .text entity), ("field", .text name)] ++
      (if unique then [("unique", .bool true)] else []) ++ [("operation", test.toValue)])
  | .group connective entity members => groupNode connective entity (toValues members)
  | .related entity relation quantifier members =>
    relationNode entity relation quantifier.toValue (toValues members)
  | .foreign node => node
termination_by structural p => p

def toValues : List Predicate → List Value
  | [] => []
  | p :: rest => toValue p :: toValues rest
termination_by structural ps => ps

end

/-- The members of a predicate over a list: the items of a list, or of anything of no length unless it is
gone through without asking for the length. -/
def membersOf? (needsItems : Bool) (given : Value) (nested : List Predicate) : Option (List Predicate) :=
  if given.sequence?.isSome then some nested
  else if given.hasNoLength && !needsItems then some []
  else none

/-- A predicate as a document describes it, the predicates under it being read already. -/
def assemble? (node : Value) (nested : List Predicate) : Option Predicate := do
  let entity ← (node.member "entity").text?
  let members := node.member "predicates"
  match ← (node.member "kind").text? with
  | "field" =>
    let name ← (node.member "field").text?
    let operation := node.member "operation"
    if operation.isNothing then none
    else return .field entity name (.ofValue operation) (node.flagAt "unique")
  | "relation" =>
    return .related entity (← (node.member "relation").text?) (.ofValue (node.member "quantifier"))
      (← membersOf? false members nested)
  | kind =>
    let connective ← Connective.ofTag? kind
    return .group connective entity (← membersOf? (connective == .any) members nested)

mutual

def ofValue : Value → Predicate
  | .object members => (assemble? (.object members) (ofMembers members)).getD (.foreign (.object members))
  | v => .foreign v
termination_by structural v => v

def ofMembers : List (String × Value) → List Predicate
  | [] => []
  | (name, v) :: rest => if name = "predicates" then ofList v else ofMembers rest
termination_by structural ms => ms

def ofList : Value → List Predicate
  | .array items => ofItems items
  | .text s => s.toList.map fun c => .foreign (.text (String.singleton c))
  | _ => []
termination_by structural v => v

def ofItems : List Value → List Predicate
  | [] => []
  | v :: rest => ofValue v :: ofItems rest
termination_by structural vs => vs

end

/-- The entity of a predicate, which a node is asked for. -/
def askEntity : Predicate → Except Failure Value
  | .foreign node => node.get "entity"
  | p => .ok p.entity

def isGiven : Predicate → Bool
  | .foreign node => node.isTruthy
  | _ => true

/-- Is the predicate an equality on a unique field? Nodes are asked for what they are. -/
def isUnique (p : Predicate) : Except Failure Bool :=
  match p with
  | .field _ _ test unique => .ok (unique && test.isEquality)
  | .group .. | .related .. => .ok false
  | .foreign node => do
    if (← node.get "kind").text? == some "field" && node.flagAt "unique" then
      return (← (node.member "operation").get "op").text? == some (Operator.comparisonTag .eq)
    else return false

/-- Is the value an equality on a unique field, written as a document? -/
def isSelector (v : Value) : Bool :=
  match v.member "kind", v.member "unique", (v.member "operation").member "op" with
  | .text "field", .bool true, .text "equals" => true
  | _, _, _ => false

end Predicate

end EntityQuery
