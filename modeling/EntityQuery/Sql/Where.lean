import EntityQuery.Condition.Document
import EntityQuery.Sql.Fragment
import EntityQuery.Sql.Like
/-! Conditions as SQL text. A test whose kind is not known has no text: it is passed over among others, and
shows where a text is needed. -/

namespace EntityQuery.Sql

open Fragment (words column)

def columnText (r : ColumnRef) : Fragment := column r.table r.column

/-- The part of a JSON column at a path, as JSON. -/
def documentAt (r : ColumnRef) (path : List Value) : Fragment :=
  if path.isEmpty then columnText r
  else words "(" ++ columnText r ++ words " #> " ++ .bind (.array path) ++ words "::text[])"

/-- The part of a JSON column at a path, as text. -/
def textAt (r : ColumnRef) (path : List Value) : Fragment :=
  if path.isEmpty then words "(" ++ columnText r ++ words " #>> '\x7b\x7d')"
  else words "(" ++ columnText r ++ words " #>> " ++ .bind (.array path) ++ words "::text[])"

/-- A parameter as JSON text; a value without JSON text stays absent. -/
def bindDocument (v : Value) : Except Failure Fragment := do
  let s ← v.jsonText? .refused
  return .bind (match s with
    | some s => .text s
    | none => .absent) ++ words "::jsonb"

/-- A test of a known kind; any other has no text. -/
def knownTest (r : ColumnRef) (test : JsonTest) : Except Failure Fragment := do
  match test with
  | .path path => return documentAt r path ++ words " IS NOT NULL"
  | .text kind path part => return textAt r path ++ words " LIKE " ++ .bind (← likePattern kind part)
  | .array .any path operand => return documentAt r path ++ words " @> " ++ (← bindDocument (.array [operand]))
  | .array .first path operand => return documentAt r path ++ words " -> 0 = " ++ (← bindDocument operand)
  | .array .last path operand => return documentAt r path ++ words " -> -1 = " ++ (← bindDocument operand)
  | .objectKey path key => return documentAt r path ++ words " ? " ++ .bind key
  | .null path .db => return documentAt r path ++ words " IS NULL"
  | .null path .json => return documentAt r path ++ words " = 'null'::jsonb"
  | .null path .any => return (documentAt r path).twice "(" " IS NULL OR " " = 'null'::jsonb)"
  | .null path (.foreign _) => return (documentAt r path).silent
  | .foreign _ => return .empty

/-- A JSON test whose path is no list of steps. One that says it has no length leads to the whole document. -/
def pathlessTest (r : ColumnRef) (test : Value) : Except Failure Fragment := do
  let path := test.member "path"
  match JsonTest.ofKind? [] test with
  | some known =>
    let _ ← path.get "length"
    if path.hasNoLength then knownTest r known else throw (.wrongKind "path is not iterable")
  | none => return .empty

def jsonTest (r : ColumnRef) (test : JsonTest) : Except Failure Fragment := do
  match test with
  | .foreign test =>
    let _ ← test.get "kind"
    pathlessTest r test
  | test => knownTest r test

def textTest (r : ColumnRef) (kind : TextMatch) (part : Value) (ignoreCase : Bool) : Except Failure Fragment := do
  match kind, ignoreCase with
  | .equals, false => return columnText r ++ words " = " ++ .bind part
  | _, _ =>
    return columnText r ++ words (if ignoreCase then " ILIKE " else " LIKE ") ++ .bind (← likePattern kind part)

def sign (operator : Comparator) : Except Failure String := do return " " ++ (← operator.toValue.inserted) ++ " "

/-- The rows of another table that join a row; a true inner condition is left out. -/
def subquery (table label : String) (join : Join) (inner : Option Fragment) (negated : Bool) : Fragment :=
  let joined := columnText join.inner ++ words " = " ++ columnText join.outer
  words (if negated then "NOT EXISTS (SELECT 1 FROM " else "EXISTS (SELECT 1 FROM ") ++ .name table ++
    words " AS " ++ .name label ++ words " WHERE " ++ joined ++
    (match inner with
    | some inner => words " AND " ++ inner
    | none => .empty) ++
    words ")"

/-- The types of conditions over a list of conditions, with the text of an empty list. -/
def listTypes : List (String × String) := [("all", "TRUE"), ("any", "FALSE")]

def checkColumn (reference : Value) : Except Failure Unit := do
  let _ ← (← reference.get "table").asName
  let _ ← (reference.member "column").asName

/-- The parts of a condition that need to be there, in the order in which they are written. -/
def checkParts (type : String) (node : Value) : Except Failure Unit := do
  match type with
  | "in" =>
    let values := node.member "values"
    if !values.isList then
      let _ ← values.get "map"
      throw (.wrongKind "condition.values.map is not a function")
    checkColumn (node.member "column")
  | "exists" =>
    let join := node.member "join"
    checkColumn (← join.get "inner")
    checkColumn (← join.get "outer")
    let _ ← (node.member "condition").get "type"
    let _ ← (node.member "table").asName
    let _ ← (node.member "alias").asName
  | _ => checkColumn (node.member "column")

def leafTypes : List String := ["compare", "text", "in", "null", "json", "not", "exists", "constant"]

/-- A node that reads as no condition: of a known type it lacks a part, unless it is a list of nothing. -/
def foreignNode (node : Value) : Except Failure Fragment := do
  let type := (← node.get "type").textOr
  match listTypes.lookup type with
  | some empty =>
    let _ ← (node.member "conditions").get "length"
    if (node.member "conditions").hasNoLength then return words empty
    else throw (.wrongKind "condition.conditions.map is not a function")
  | none =>
    if leafTypes.contains type then checkParts type node
    throw (.contract (.unrecognized "condition" (← node.insertedJson)))

mutual

def condition : Condition → Except Failure Fragment
  | .constant b => .ok (words (if b then "TRUE" else "FALSE"))
  | .truthy v => .ok (words (if v.isTruthy then "TRUE" else "FALSE"))
  | .compare r operator operand => do return columnText r ++ words (← sign operator) ++ .bind operand
  | .text r kind part ignoreCase => textTest r kind part ignoreCase
  | .member r values negated =>
    .ok (columnText r ++ words (if negated then " NOT IN (" else " IN (") ++
      Fragment.join ", " (values.map .bind) ++ words ")")
  | .null r negated => .ok (columnText r ++ words (if negated then " IS NOT NULL" else " IS NULL"))
  | .json r test => jsonTest r test
  | .all [] => .ok (words "TRUE")
  | .any [] => .ok (words "FALSE")
  | .all members => do return words "(" ++ Fragment.join " AND " (← conditions members) ++ words ")"
  | .any members => do return words "(" ++ Fragment.join " OR " (← conditions members) ++ words ")"
  | .not inner => do return words "NOT (" ++ (← condition inner).spelled ++ words ")"
  | .related table label join inner negated => do
    if inner.isTrue then return subquery table label join none negated
    else return subquery table label join (some (← condition inner).spelled) negated
  | .annotated _ reading => condition reading
  | .foreign node => foreignNode node
termination_by structural c => c

def conditions : List Condition → Except Failure (List Fragment)
  | [] => .ok []
  | c :: rest => do
    let f ← condition c
    let fs ← conditions rest
    return f :: fs
termination_by structural cs => cs

end

/-- The WHERE clause of a statement, none for a condition that is always true. -/
def whereClause (c : Condition) : Except Failure Fragment :=
  if c.isTrue then .ok .empty else do return words " WHERE " ++ (← condition c).spelled

end EntityQuery.Sql
