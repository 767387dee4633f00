import EntityQuery.Predicate.Compiled
import EntityQuery.Store.Evaluation
/-! The direct reading of predicates on stored rows, with three truth values and without conditions. Lists
are read member by member and joined by the tables of strong Kleene logic; a mode is no member of its list and
changes how the texts of its field compare there. Compiling and evaluating are not used here. -/

namespace EntityQuery.Meaning

open Store (Tables)

abbrev CaseRule := String → Bool

def modeOf? (name : String) : Predicate → Option Bool
  | .field _ field (.mode mode) _ => if field = name then some (mode.text? == some "insensitive") else none
  | _ => none

def lastMode? (name : String) : List Predicate → Option Bool
  | [] => none
  | p :: rest => (lastMode? name rest).or (modeOf? name p)

def CaseRule.sensitive : CaseRule := fun _ => false

/-- The rule inside a list: its own modes first, then the rule around it. -/
def CaseRule.within (rule : CaseRule) (members : List Predicate) : CaseRule :=
  fun name => (lastMode? name members).getD (rule name)

def both : Truth → Truth → Truth
  | .known false, _ | _, .known false => .known false
  | .known true, .known true => .known true
  | _, _ => .unknown

def either : Truth → Truth → Truth
  | .known true, _ | _, .known true => .known true
  | .known false, .known false => .known false
  | _, _ => .unknown

def conjunction (ts : List Truth) : Truth := ts.foldr both (.known true)

def disjunction (ts : List Truth) : Truth := ts.foldr either (.known false)

def asksMissing : Comparison → Bool
  | .eq | .lt | .le => true
  | .ne | .gt | .ge => false

/-- A comparison of a stored value; what is missing is neither equal nor different, less nor greater. -/
def comparisonTruth (c : Comparison) (operand v : Value) : Except Failure Truth :=
  match operand with
  | .null => .ok (.known (v.isNothing == asksMissing c))
  | operand => do
    if v.isNothing || operand.isNothing then return .unknown
    return .known (Store.holds c (← Store.order v operand))

/-- Equality of texts without case, or its negation. -/
def caselessTruth (equal : Bool) (s : String) (v : Value) : Truth :=
  match v with
  | .text t => .known ((Text.toLower t == Text.toLower s) == equal)
  | _ => .unknown

def folded (ignoreCase : Bool) (s : String) : List Char := (if ignoreCase then Text.toLower s else s).toList

def occurrenceTruth (kind : Occurrence) (ignoreCase : Bool) (part : String) (v : Value) : Truth :=
  match v with
  | .text s => .known (Store.occurs kind (folded ignoreCase part) (folded ignoreCase s))
  | _ => .unknown

def isAmong (v : Value) : List Value → Except Failure Bool
  | [] => .ok false
  | candidate :: rest => do
    if candidate.isNothing then isAmong v rest
    else return (← Store.same v candidate) || (← isAmong v rest)

/-- Membership in a list. Nothing is in the empty one, not even a missing value. -/
def memberTruth (values : List Value) (negated : Bool) (v : Value) : Except Failure Truth := do
  if values.isEmpty then return .known negated
  if v.isNothing then return .unknown
  return .known ((← isAmong v values) != negated)

def jsonTruth (o : JsonOperator) (path operand v : Value) : Except Failure Truth := do
  Store.documentTruth (← Store.documentOf v) (o.test path.items operand)

/-- Does a comparison of texts ignore case? Only equality and its negation do. -/
def caseless? (ignoreCase : Bool) (c : Comparison) (operand : Value) : Option (Bool × String) :=
  match c, operand, ignoreCase with
  | .eq, .text s, true => some (true, s)
  | .ne, .text s, true => some (false, s)
  | _, _, _ => none

/-- A test of the value of a field in a stored row; a mode is none. -/
def testTruth (ignoreCase : Bool) (test : FieldTest) (v : Value) : Except Failure (Option Truth) :=
  match test with
  | .compare c operand =>
    match caseless? ignoreCase c operand with
    | some (equal, s) => .ok (some (caselessTruth equal s v))
    | none => some <$> comparisonTruth c operand v
  | .member values negated => some <$> memberTruth values negated v
  | .text kind part => .ok (some (occurrenceTruth kind ignoreCase part.textOr v))
  | .mode _ => .ok none
  | .json o path operand => some <$> jsonTruth o path operand v
  | .null negated => .ok (some (.known (v.isNothing != negated)))
  | .foreign _ => .error (.contract (.unrecognized "field operation" "undefined"))

/-- The rows of a table whose column holds the value of a column of the row around them. -/
def relatedRows (tables : Tables) (table column : String) (outer : Value) : Except Failure (List Row) := do
  (← Store.tableRows tables table).filterM fun row =>
    let v := Row.value row column
    if outer.isNothing || v.isNothing then .ok false else Store.same v outer

/-- What is asked of related rows, from the truth of a list of predicates of each. -/
def quantified (q : Quantifier) (truths : List Truth) : Truth :=
  match q with
  | .some => .known (truths.any (· == .known true))
  | .every => .known (truths.all (· != .known false))
  | .none => .known (truths.all (· != .known true))
  | .foreign _ => .unknown

mutual

def ofPredicate {φ : Type} (registry : Registry φ) (tables : Tables) (e : Entity) (rule : CaseRule) (row : Row)
    (p : Predicate) : Except Failure (Option Truth) :=
  match p with
  | .field _ name test _ => do
    let f ← e.field name
    testTruth (rule name && f.typeClass == .text) test (Row.value row f.column)
  | .group .all _ members => do
    return some (conjunction (← ofMembers registry tables e (rule.within members) row members))
  | .group .any _ members => do
    return some (disjunction (← ofMembers registry tables e (rule.within members) row members))
  | .group .not _ members => do
    return some (conjunction (← ofMembers registry tables e (rule.within members) row members)).negate
  | .related _ relation q members => do
    let (r, target) ← registry.related e (.text relation)
    let rows ← relatedRows tables target.table r.remote.column (Row.value row r.own.column)
    let truths ← rows.mapM fun other => do
      return conjunction (← ofMembers registry tables target (CaseRule.sensitive.within members) other members)
    return some (quantified q truths)
  | .foreign node => do throw (.contract (.unrecognized "predicate" (← node.insertedJson)))
termination_by structural p

/-- The truths of the members of a list, those of modes left out. -/
def ofMembers {φ : Type} (registry : Registry φ) (tables : Tables) (e : Entity) (rule : CaseRule) (row : Row)
    (members : List Predicate) : Except Failure (List Truth) :=
  match members with
  | [] => .ok []
  | p :: rest => do
    let t ← ofPredicate registry tables e rule row p
    let ts ← ofMembers registry tables e rule row rest
    return t.toList ++ ts
termination_by structural members

end

def ofList {φ : Type} (registry : Registry φ) (tables : Tables) (e : Entity) (row : Row) (ps : List Predicate) :
    Except Failure Truth := do
  return conjunction (← ofMembers registry tables e (CaseRule.sensitive.within ps) row ps)

end EntityQuery.Meaning
