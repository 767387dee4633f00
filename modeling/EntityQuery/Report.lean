import EntityQuery.Value.Display
/-! Reports made by hand, a failure of a named class with the members given for it, and reports as
documents. -/

namespace EntityQuery.Report

/-- The value at a position, or `fallback` where it is absent. -/
def argument (arguments : List Value) (position : Nat) (fallback : Value) : Value :=
  match arguments[position]?.getD .absent with
  | .absent => fallback
  | v => v

/-- A message as text; an absent one is empty. -/
def messageOf (v : Value) : Except Failure Value :=
  match v with
  | .absent => .ok (.text "")
  | v => do return .text (← v.inserted)

/-- A report of a class from its arguments: the message, then the members of the class in order, each
with its default. Missing relations and fetchers word their own message. -/
def ofArguments (c : ReportClass) (arguments : List Value) : Except Failure Report := do
  let given := argument arguments
  let worded (code : String) (fallback : Value) : Except Failure Report := do
    return { name := c.name, message := ← messageOf (given 0 fallback), code := .text code }
  let base (code : String) : Except Failure Report := worded code .absent
  let member (position : Nat) : Option Value := some (given position .null)
  let needed (position : Nat) : Value := given position .absent
  match c with
  | .base => return { name := c.name, message := ← messageOf (needed 0), code := given 1 .null }
  | .schema => return { ← base "SCHEMA_ERROR" with entity := member 1 }
  | .missingRow =>
    return { ← worded "RECORD_NOT_FOUND" (.text "Record not found") with
      entity := member 1, code := given 2 (.text "RECORD_NOT_FOUND") }
  | .lookup =>
    return { ← worded "DEFERRED_LOOKUP_FAILED" (.text "Record not found") with
      entity := member 1, relation := some (needed 2) }
  | .missingRelation =>
    let relation ← (needed 1).inserted
    let entity ← (needed 0).inserted
    return {
      name := c.name
      message := .text ("Relation '" ++ relation ++ "' is not defined on " ++ entity)
      code := .text "RELATION_NOT_FOUND", entity := some (needed 0), relation := some (needed 1) }
  | .missingFetcher =>
    let entity ← (needed 0).inserted
    return {
      name := c.name
      message := .text ("No relation fetcher registered for entity '" ++ entity ++ "'")
      code := .text "FETCHER_MISSING", entity := some (needed 0) }
  | .query => base "QUERY_VALIDATION"
  | .fieldType => return { ← base "INVALID_FIELD_TYPE" with field := some (needed 1) }
  | .conversion => base "TYPE_CONVERSION"
  | .contract => base "INTERNAL_CONTRACT"
  | .uuid => worded "INVALID_UUID" (.text "Invalid UUID format")
  | .value => return { ← base "VALIDATION_ERROR" with field := member 1 }
  | .connection => worded "CONNECTION_ERROR" (.text "Database connection error")
  | .statement => return { ← base "QUERY_ERROR" with cause := member 1 }
  | .constraint => return { ← base "CONSTRAINT_ERROR" with constraint := member 1, cause := member 2 }

/-- What a report shows of the error that caused it: its message, if it is an object at all. -/
def causeOf (v : Value) : Value := if Failure.isObject v then (v.member "message").orNull else v

def written (name : String) (v : Option Value) : Record Value :=
  match v with
  | some v => [(name, v)]
  | none => []

def toValue (r : Report) : Value :=
  .object ([("error", .text r.name), ("message", r.message), ("code", r.code)] ++ written "entity" r.entity ++
    written "relation" r.relation ++ written "field" r.field ++ written "constraint" r.constraint ++
    written "original" (r.cause.map causeOf))

end EntityQuery.Report
