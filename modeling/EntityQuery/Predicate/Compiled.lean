import EntityQuery.Predicate.Document
import EntityQuery.Registry
import EntityQuery.Value.Display
/-! Compiling predicates into conditions. Lists are conjunctions. Related rows are read through aliases
numbered by their depth, so a subquery never captures the row around it. -/

namespace EntityQuery

/-- Where a list of predicates is read: the entity of its fields, the alias of that entity's rows, and
how many subqueries enclose it. -/
structure Scope where
  entity : Entity
  label : String
  depth : Nat

namespace Scope

def column (s : Scope) (f : Field) : ColumnRef := ⟨s.label, f.column⟩

def inside (s : Scope) (target : Entity) : Scope := ⟨target, s!"r{s.depth + 1}", s.depth + 1⟩

end Scope

namespace Predicate

/-- What a node is asked for before the list that it stands in is compiled: its kind, and the operator of
a field test. -/
def checkNode (node : Value) : Except Failure Unit := do
  match ← node.get "kind" with
  | .text "field" => let _ ← (node.member "operation").get "op"
  | _ => return ()

/-- The fields whose texts are compared without case throughout a list, given those of the list around
it; a later mode wins over an earlier one. -/
def modes (members : List Predicate) (inherited : List String) : Except Failure (List String) :=
  members.foldlM (fun fields p =>
    match p with
    | .field _ name (.mode mode) _ =>
      .ok (if mode.text? == some "insensitive" then name :: fields else fields.filter (· != name))
    | .foreign node => do
      checkNode node
      return fields
    | _ => .ok fields) inherited

def requireNullable (s : Scope) (f : Field) (c : Comparison) : Except Failure Unit :=
  if f.nullable then .ok ()
  else .error (.query (.nullComparison s.entity.name f.name (Operator.comparisonTag c)))

/-- A comparison with null: equality and the lower side ask for null, the others for a value. -/
def nullTest (r : ColumnRef) (c : Comparison) : Condition :=
  match c with
  | .eq | .lt | .le => .null r false
  | .ne | .gt | .ge => .null r true

/-- A comparison with a value; texts may be compared without case. -/
def valueTest (r : ColumnRef) (c : Comparison) (operand : Value) (ignoreCase : Bool) : Condition :=
  match c, operand, ignoreCase with
  | .eq, .text s, true => .text r .equals (.text s) true
  | .ne, .text s, true => Condition.negation (.text r .equals (.text s) true)
  | _, _, _ => .compare r (.of c) operand

/-- The condition of a JSON test. Only a list of steps is a path; any other condition is read from its
document. -/
def jsonTest (r : ColumnRef) (o : JsonOperator) (path operand : Value) : Condition :=
  match path with
  | .array steps => .json r (o.test steps operand)
  | path => .ofDocument (Condition.node "json" [("column", r.toValue), ("test", (o.test [] operand).withPath path)])

/-- Membership in something that is no list. -/
def looseMembership (r : ColumnRef) (values : Value) (negated : Bool) : Except Failure Condition := do
  let _ ← values.get "length"
  if values.hasNoLength then return .constant negated
  else return .ofDocument (Condition.node "in" [("column", r.toValue), ("values", values), ("negated", .bool negated)])

/-- The condition of an operation of no known form: membership in no list, or none at all. -/
def foreignTest (r : ColumnRef) (operation : Value) : Except Failure Condition := do
  match (operation.member "op").text?.bind Operator.ofTag? with
  | some (.member negated) => looseMembership r (operation.member "values") negated
  | _ => throw (.contract (.unrecognized "field operation" (← operation.insertedJson)))

/-- The condition of a test, none for a mode. -/
def compileTest (s : Scope) (f : Field) (ignoreCase : Bool) (t : FieldTest) :
    Except Failure (Option Condition) :=
  let r := s.column f
  match t with
  | .compare c .null => do
    requireNullable s f c
    return some (nullTest r c)
  | .compare c operand => .ok (some (valueTest r c operand ignoreCase))
  | .member values negated => .ok (some (.inList r values negated))
  | .text kind part => .ok (some (.text r (.part kind) part ignoreCase))
  | .mode _ => .ok none
  | .json o path operand => .ok (some (jsonTest r o path operand))
  | .null negated => .ok (some (.null r negated))
  | .foreign operation => do return some (← foreignTest r operation)

/-- The condition of a test of a field, which has to offer the operator. -/
def compileField (s : Scope) (insensitive : List String) (name : Value) (t : FieldTest) :
    Except Failure (Option Condition) := do
  let f ← s.entity.fieldNamed name
  if !t.tag.text?.any f.offers then
    throw (.query (.operatorUnavailable (← t.tag.inserted) s.entity.name f.name f.type.tag))
  compileTest s f (insensitive.contains f.name && f.typeClass == .text) t

/-- The condition on related rows: `every` asks that no row fails, `none` that no row passes. -/
def quantify (q : Quantifier) (table label : String) (join : Join) (inner : Condition) : Except Failure Condition :=
  match q with
  | .some => .ok (.related table label join inner false)
  | .every => .ok (.related table label join inner.negation true)
  | .none => .ok (.related table label join inner true)
  | .foreign v => do throw (.contract (.unrecognized "relation quantifier" (← v.insertedJson)))

def relationTarget {φ : Type} (registry : Registry φ) (s : Scope) (relation : Value) :
    Except Failure (Relation × Entity) := do
  let r ← s.entity.relationNamed relation
  match registry.get? r.target with
  | some target => return (r, target)
  | none => throw (.query (.unregisteredTarget s.entity.name r.name r.target))

/-- The members of a node have to form a list; those of a disjunction are gone through at once. -/
def refuseMembers (connective : Option Connective) (members : Value) : Except Failure Unit := do
  if connective != some .any then
    let _ ← members.get "length"
  throw (.wrongKind "predicates is not iterable")

/-- The condition of a node of no known form, which is a field test with a name that is no text or no
condition at all. -/
def foreignNode {φ : Type} (registry : Registry φ) (s : Scope) (insensitive : List String) (node : Value) :
    Except Failure (Option Condition) := do
  match node.member "kind" with
  | .text "field" => compileField s insensitive (node.member "field") (.ofValue (node.member "operation"))
  | .text "relation" =>
    let _ ← relationTarget registry s (node.member "relation")
    refuseMembers none (node.member "predicates")
    return none
  | kind =>
    let connective := kind.text?.bind Connective.ofTag?
    if connective.isSome then refuseMembers connective (node.member "predicates")
    throw (.contract (.unrecognized "predicate" (← node.insertedJson)))

def checkEntity (s : Scope) (given : Value) : Except Failure Unit := do
  if given.text? == some s.entity.name then return ()
  else throw (.query (.foreignPredicate (← given.inserted) s.entity.name))

mutual

def compileOne {φ : Type} (registry : Registry φ) (s : Scope) (insensitive : List String) (p : Predicate) :
    Except Failure (Option Condition) := do
  checkEntity s p.entity
  match p with
  | .field _ name t _ => compileField s insensitive (.text name) t
  | .group .all _ members => return some (.conjunction (← compileMembers registry s (← modes members insensitive) members))
  | .group .any _ members => return some (.disjunction (← compileMembers registry s (← modes members insensitive) members))
  | .group .not _ members =>
    return some (Condition.conjunction (← compileMembers registry s (← modes members insensitive) members)).negation
  | .related _ relation q members =>
    let (r, target) ← relationTarget registry s (.text relation)
    let inner := s.inside target
    let condition := Condition.conjunction (← compileMembers registry inner (← modes members []) members)
    return some (← quantify q target.table inner.label ⟨⟨s.label, r.own.column⟩, ⟨inner.label, r.remote.column⟩⟩ condition)
  | .foreign node => foreignNode registry s insensitive node
termination_by structural p

def compileMembers {φ : Type} (registry : Registry φ) (s : Scope) (insensitive : List String)
    (members : List Predicate) : Except Failure (List Condition) :=
  match members with
  | [] => .ok []
  | p :: rest => do
    let c ← compileOne registry s insensitive p
    let cs ← compileMembers registry s insensitive rest
    return match c with
      | some c => c :: cs
      | none => cs
termination_by structural members

end

/-- The condition of a list of predicates on an entity whose rows are read through an alias. -/
def compile {φ : Type} (registry : Registry φ) (entity : Entity) (label : String) (predicates : List Predicate) :
    Except Failure Condition := do
  return .conjunction (← compileMembers registry ⟨entity, label, 0⟩ (← modes predicates []) predicates)

/-- The condition of a list of predicates on an entity whose rows are read through its table. -/
def condition {φ : Type} (registry : Registry φ) (entity : Entity) (predicates : List Predicate) :
    Except Failure Condition := compile registry entity entity.table predicates

end Predicate

end EntityQuery
