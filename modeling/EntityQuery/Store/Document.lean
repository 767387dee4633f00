import EntityQuery.Condition
import EntityQuery.Json.Reader
import EntityQuery.Truth
import EntityQuery.Value.Display
import EntityQuery.Value.Reading
/-! Tests of stored JSON documents. A path that leads nowhere is missing, which differs from a JSON
null. -/

namespace EntityQuery.Store

/-- Does a text occur in another? Both are gone through unit by unit, so that half of a pair is found too. -/
def occurs (o : Occurrence) (part subject : List Char) : Bool :=
  let part := part.flatMap Text.unitsOf
  let subject := subject.flatMap Text.unitsOf
  match o with
  | .contains => Text.contains part subject
  | .startsWith => part.isPrefixOf subject
  | .endsWith => part.isSuffixOf subject

/-- What is looked for, in lower case where case is ignored; only texts have a lower case. -/
def needle (ignoreCase : Bool) (part : Value) : Except Failure Value := do
  if !ignoreCase then return part
  match part with
  | .text s => return .text (Text.toLower s)
  | v =>
    let _ ← v.get "toLowerCase"
    throw (.wrongKind "value.toLowerCase is not a function")

/-- Does a text match? What is looked for inside it is read as text. -/
def textMatches (kind : TextMatch) (ignoreCase : Bool) (part : Value) (subject : String) : Except Failure Truth := do
  let part ← needle ignoreCase part
  let subject := if ignoreCase then Text.toLower subject else subject
  match kind with
  | .equals => return .known (part.text? == some subject)
  | .part o => return .known (occurs o (← part.inserted).toList subject.toList)
  | .foreign _ => return .beside false

/-- The item of an array at a position, counted from the end where it is negative. -/
def itemAt (items : List Json) (i : Int) : Option Json :=
  let position := if i < 0 then (items.length : Int) + i else i
  if position < 0 then none else items[position.toNat]?

/-- One step into a document: the integer that starts the step's text selects an item of an array. -/
def stepInto (step : Value) (document : Json) : Except Failure (Option Json) := do
  match document, step with
  | .array items, step => return (Number.leadingInt? (← step.inserted)).bind (itemAt items)
  | .object _, .jsonNull => return none
  | .object members, step => return Record.get? members (← step.display)
  | _, _ => return none

def navigate (document : Json) : List Value → Except Failure (Option Json)
  | [] => .ok (some document)
  | step :: rest => do
    match ← stepInto step document with
    | some inner => navigate inner rest
    | none => return none

def sameText (document : Json) (v : Value) : Except Failure Bool := do
  return (← v.jsonText? .refused) == some document.print

def isObject : Json → Bool
  | .object _ => true
  | _ => false

def isInstant : Value → Bool
  | .date _ => true
  | _ => false

/-- Does the object that all objects share hold a value under a name? It has the functions of all objects, and nothing
stands above it. -/
def sharedHolds (name : String) (v : Value) : Except Failure Bool :=
  match Value.inherited name with
  | .callable _ => do return (← v.jsonText? .refused).isNone
  | .object _ => sameText .null v
  | _ => .ok false

/-- Does the object that all objects share contain a value? -/
def sharedContains (v : Value) : Except Failure Bool :=
  match v with
  | .object members => members.allM fun (name, v) => sharedHolds name v
  | .date _ => .ok true
  | .key _ => .ok false
  | v => sameText (.object []) v

mutual

/-- Does a document contain a value? Arrays contain an array whose every item is contained in one of
their items, objects an object whose every member is contained in theirs of that name, and anything
else contains what has its JSON text. -/
def contains (v : Value) (document : Json) : Except Failure Bool :=
  match v, document with
  | .array items, .array candidates => containsItems items candidates
  | .object members, .object candidates => containsMembers members candidates
  | .date _, .object _ => .ok true
  | .key k, .object candidates =>
    match Record.get? candidates "variant" with
    | some (.object parts) => containsKey k parts
    | _ => .ok false
  | v, document => sameText document v
termination_by structural v

/-- Does an object contain the parts of a key, its kind and its value? -/
def containsKey (k : KeyForm Value) (parts : List (String × Json)) : Except Failure Bool :=
  match Record.get? parts "kind", Record.get? parts "value" with
  | some kind, some value => do
    if !(← sameText kind (.text k.kind.tag)) then return false
    match k with
    | .json payload => contains payload value
    | k => if isInstant k.value && isObject value then return true else sameText value k.value
  | _, _ => .ok false
termination_by structural k

def containsItems (items : List Value) (candidates : List Json) : Except Failure Bool :=
  match items with
  | [] => .ok true
  | item :: rest => do
    if ← candidates.anyM (contains item) then containsItems rest candidates else return false
termination_by structural items

/-- A name that an object has no member of its own for may be one that every object has. -/
def containsMembers (members : List (String × Value)) (candidates : List (String × Json)) : Except Failure Bool :=
  match members with
  | [] => .ok true
  | (name, v) :: rest => do
    let found ← match Record.get? candidates name, Value.inherited name with
      | some candidate, _ => contains v candidate
      | none, .callable _ => do pure (← v.jsonText? .refused).isNone
      | none, .object _ => sharedContains v
      | none, _ => pure false
    if found then containsMembers rest candidates else return false
termination_by structural members

end

/-- The text of a scalar, or the JSON text of anything else. -/
def scalarText : Json → Option String
  | .null => none
  | .text s => some s
  | j => some j.print

def isItem (key : Value) (item : Json) : Bool :=
  match key, item with
  | .text s, .text t => s == t
  | .number a, .number b => a.equal b
  | .bool a, .bool b => a == b
  | .null, .null => true
  | _, _ => false

/-- Has a document a key of this name, or an array an item like this? -/
def hasKey (key : Value) (document : Json) : Except Failure Bool := do
  match document, key with
  | .object _, .jsonNull => return false
  | .object members, key => return Record.has members (← key.display)
  | .array items, key => return items.any (isItem key)
  | _, _ => return false

def isNullDocument : Json → Bool
  | .null => true
  | _ => false

def itemTest (item : Option Json) (v : Value) : Except Failure Truth := do
  match item with
  | none => return .unknown
  | some j => return .known (← sameText j v)

/-- The steps of the path of a test; a test of no known form may lack one. -/
def stepsOf : JsonTest → Except Failure (List Value)
  | .path steps | .text _ steps _ | .array _ steps _ | .objectKey steps _ | .null steps _ => .ok steps
  | .foreign test => do
    match (← test.get "path").sequence? with
    | some steps => return steps
    | none => throw (.wrongKind "path is not iterable")

/-- The truth of a test of the part of a document that its path leads to, if it leads anywhere. -/
def partTruth (test : JsonTest) (target : Option Json) : Except Failure Truth := do
  match test, target with
  | .path _, _ => return .known target.isSome
  | .text kind _ part, _ =>
    match target.bind scalarText with
    | none => return .unknown
    | some s => textMatches kind false part s
  | .array .any _ _, none => return .unknown
  | .array .any _ operand, some (.array items) => return .known (← contains (.array [operand]) (.array items))
  | .array .any _ _, some _ => return .known false
  | .array .first _ operand, some (.array items) => itemTest items.head? operand
  | .array .last _ operand, some (.array items) => itemTest items.getLast? operand
  | .array .first _ _, _ | .array .last _ _, _ => return .unknown
  | .objectKey _ _, none => return .unknown
  | .objectKey _ key, some j => return .known (← hasKey key j)
  | .null _ .db, _ => return .known target.isNone
  | .null _ .json, none => return .unknown
  | .null _ .any, none => return .known true
  | .null _ .json, some j | .null _ .any, some j => return .known (isNullDocument j)
  | .null _ (.foreign _), _ | .foreign _, _ => return .beside false

/-- The truth of a test of a document, `none` standing for an empty column. -/
def documentTruth (document : Option Json) (test : JsonTest) : Except Failure Truth := do
  let steps ← stepsOf test
  match document with
  | none => partTruth test none
  | some j => partTruth test (← navigate j steps)

/-- The document that a column keeps as text. -/
def documentOf (v : Value) : Except Failure (Option Json) :=
  match v with
  | .text s =>
    match Json.read? s with
    | some j => .ok (some j)
    | none => .error (.wrongSyntax "Unexpected JSON text")
  | _ => .ok none

end EntityQuery.Store
