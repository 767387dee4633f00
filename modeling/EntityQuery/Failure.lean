import EntityQuery.Value
/-! Failures: why a declaration, a query, a value or a statement was refused. Each cause is a
constructor, its wording is in `message`, and `report` gives what a caller sees of it. -/

namespace EntityQuery

inductive SchemaFault where
  | nameless
  | tableless (entity : String)
  | keyless (entity : String)
  | severalKeys (entity : String) (fields : List String)
  | nullableKey (entity field : String)
  | unknownKind (relation entity kind : String)
  | targetless (relation entity : String)
  | columnless (relation entity side : String)
  | missingColumn (relation entity column : String)
  | missingTargetColumn (relation entity column target : String)
  | declaredTwice (entity : String)
  | registeredTwice (entity : String)
  | unknownEntity (name : String)
  | reservedKey (key : String)
  deriving DecidableEq, Repr

namespace SchemaFault

def message : SchemaFault → String
  | nameless => "Entity declarations require a name"
  | tableless e => s!"Entity {e} must declare a table name"
  | keyless e => s!"Entity {e} must declare a primary key"
  | severalKeys e fs => s!"Entity {e} declares more than one primary key (" ++ String.intercalate ", " fs ++ ")"
  | nullableKey e f => s!"Primary key {e}.{f} cannot be nullable"
  | unknownKind r e k => s!"Relation '{r}' on {e} has unknown kind '{k}'"
  | targetless r e => s!"Relation '{r}' on {e} is missing its target"
  | columnless r e side => s!"Relation '{r}' on {e} is missing its '{side}' column"
  | missingColumn r e c => s!"Relation '{r}' on {e} references missing column '{c}'"
  | missingTargetColumn r e c t => s!"Relation '{r}' on {e} references missing column '{c}' on {t}"
  | declaredTwice e => s!"Entity {e} is declared more than once"
  | registeredTwice e => s!"Entity '{e}' already registered."
  | unknownEntity n => s!"Unknown entity '{n}'"
  | reservedKey k => s!"Schema key '{k}' is reserved; entity keys cannot start with '$'"

def entity? : SchemaFault → Option String
  | nameless => none
  | tableless e | keyless e | severalKeys e _ | nullableKey e _ | unknownKind _ e _ | targetless _ e
  | columnless _ e _ | missingColumn _ e _ | missingTargetColumn _ e _ _ | declaredTwice e | registeredTwice e
  | unknownEntity e | reservedKey e => some e

end SchemaFault

inductive QueryFault where
  | unknownField (field entity : String)
  | operatorUnavailable (operator entity field type : String)
  | nullComparison (entity field operator : String)
  | unregisteredTarget (entity relation target : String)
  | foreignPredicate (given entity : String)
  | cannotApply (operation entity field type : String)
  | ungrouped (entity : String)
  | groupOrder (entity : String)
  | groupTake (given : String)
  | groupSkip (given : String)
  | batchRead (position : Nat)
  | batchRepeat (position : Nat) (entity : String)
  | connectsOther (entity relation target given : String)
  | keyless (entity relation : String)
  | notUnique (entity : String)
  | uniqueOfOther (entity given : String)
  | missingField (entity field : String)
  | infiniteOperand (operator field : String)
  | zeroDivisor (field : String)
  | fractionalOperand (operator field : String)
  | targetOutside (entity relation target : String)
  | includeBuilt (relation entity : String)
  | alreadyExecuted (builder entity : String)
  | ownKey (entity relation : String)
  | nullLocalKey (entity field relation : String)
  | cannotReplace (entity relation target field : String)
  | cannotDetach (entity relation target field : String)
  | cannotDisconnect (entity relation field : String)
  | setOnlyMany (entity relation kind : String)
  | skipRange (given : String)
  | takeRange (given : String)
  | foreignCursor (given entity : String)
  | cursorOrder (entity field : String)
  | nestedShape (place : String)
  | nestedRows (place : String)
  | nestedFilters (place : String)
  | unknownMember (name entity : String)
  | filterExpected (entity relation target : String)
  | foreignFilter (given entity : String)
  | foreignMutation (given entity : String)
  | notForOwnKey (operation entity relation : String)
  | changedTwice (entity field : String)
  | relationInBulk (entity operation relation : String)
  deriving DecidableEq, Repr

def QueryFault.message : QueryFault → String
  | unknownField f e => s!"Unknown field '{f}' on {e}"
  | operatorUnavailable o e f t => s!"Operator '{o}' is not available on {e}.{f} ({t})"
  | nullComparison e f o => s!"Cannot compare non-nullable {e}.{f} with null using {o}"
  | unregisteredTarget e r t => s!"Relation {e}.{r} targets {t}, which is not registered"
  | foreignPredicate g e => s!"Predicate for {g} cannot be used in a query on {e}"
  | cannotApply o e f t => s!"Cannot {o} {e}.{f} ({t})"
  | ungrouped e => s!"groupBy on {e} needs at least one field"
  | groupOrder e => s!"groupBy on {e} can only order by grouped fields or _count"
  | groupTake g => s!"groupBy take must be a non-negative integer, got {g}"
  | groupSkip g => s!"groupBy skip must be a non-negative integer, got {g}"
  | batchRead i => s!"Batch entry {i} is a read; batches take writes only"
  | batchRepeat i e => s!"Batch entry {i} ({e}) has already been executed"
  | connectsOther e r t g => s!"{e}.{r} connects {t} rows, not {g}"
  | keyless e r => s!"{e}.{r} does not hold a foreign key to connect"
  | notUnique e => s!"findUnique on {e} needs equality on a unique field"
  | uniqueOfOther e g => s!"findUnique on {e} was given a {g} filter"
  | missingField e f => s!"Missing required field {e}.{f}"
  | infiniteOperand o f => s!"{o} on {f} requires a finite number"
  | zeroDivisor f => s!"Cannot divide {f} by zero"
  | fractionalOperand o f => s!"{o} on {f} requires an integer"
  | targetOutside e r t => s!"{e}.{r} targets {t}, which is not part of this schema"
  | includeBuilt r e => s!"Include '{r}' on {e} has already been built"
  | alreadyExecuted b e => s!"{b} for {e} has already been executed"
  | ownKey e r => s!"{e}.{r} is a belongs_to relation; its key is written with the row itself"
  | nullLocalKey e f r => s!"{e}.{f} is null; cannot relate rows through '{r}'"
  | cannotReplace e r t f => s!"Cannot replace {e}.{r}: {t}.{f} is not nullable"
  | cannotDetach e r t f => s!"Cannot disconnect {e}.{r}: {t}.{f} is not nullable"
  | cannotDisconnect e r f => s!"Cannot disconnect {e}.{r}: {f} is not nullable"
  | setOnlyMany e r k => s!"set is only available on has_many relations; {e}.{r} is {k}"
  | skipRange g => s!"skip must be a non-negative integer, got {g}"
  | takeRange g => s!"take must be an integer, got {g}"
  | foreignCursor g e => s!"Cursor for {g} cannot page a query on {e}"
  | cursorOrder e f => s!"Cursor pagination on {e} orders by the primary key only; cannot order by '{f}'"
  | nestedShape p => s!"{p} expects \x7b create?, connect? \x7d"
  | nestedRows p => s!"{p}.create must be a list of rows"
  | nestedFilters p => s!"{p}.connect must be a list of unique filters"
  | unknownMember n e => s!"Unknown field or relation '{n}' on {e}"
  | filterExpected e r t => s!"{e}.{r} expects a unique filter of {t}"
  | foreignFilter g e => s!"A {g} filter cannot select {e} rows"
  | foreignMutation g e => s!"A {g} mutation cannot apply to {e}"
  | notForOwnKey o e r => s!"{o} is not available on belongs_to relation {e}.{r}"
  | changedTwice e f => s!"updateMany on {e} changes {f} more than once"
  | relationInBulk e o r => s!"updateMany on {e} cannot {o} relation '{r}'"

/-- Rows that an operation needs and that are not there. -/
inductive MissingRow where
  | unmatched (entity field value : String)
  | unrelated (target field entity relation : String)
  | removed (entity : String)
  deriving DecidableEq, Repr

namespace MissingRow

def message : MissingRow → String
  | unmatched e f v => s!"No {e} matches {f} = {v}"
  | unrelated t f e r => s!"No {t} matches {f} for {e}.{r}"
  | removed e => s!"{e} row was removed during the update"

def entity : MissingRow → String
  | unmatched e _ _ | removed e => e
  | unrelated t _ _ _ => t

end MissingRow

/-- Values that a field does not take. -/
inductive ValueFault where
  | required (field : String)
  | notInteger (field : String)
  | outOfRange (field type : String)
  | notDate (field : String)
  | notNumber (field : String)
  | notText (field : String)
  | notBool (field : String)
  deriving DecidableEq, Repr

namespace ValueFault

def message : ValueFault → String
  | required f => s!"{f} is required"
  | notInteger f => s!"{f} must be an integer"
  | outOfRange f t => s!"{f} is out of range for {t}"
  | notDate f => s!"{f} must be a valid date"
  | notNumber f => s!"{f} must be a number"
  | notText f => s!"{f} must be a string"
  | notBool f => s!"{f} must be a boolean"

def field : ValueFault → String
  | required f | notInteger f | outOfRange f _ | notDate f | notNumber f | notText f | notBool f => f

end ValueFault

/-- Requests of a form that no part of the library makes. -/
inductive ContractFault where
  | unrecognized (what json : String)
  | columnless
  | unassigned
  | nothingReturned (table : String)
  deriving DecidableEq, Repr

def ContractFault.message : ContractFault → String
  | unrecognized what json => s!"Unrecognized {what}: {json}"
  | columnless => "A multi-row insert needs at least one column"
  | unassigned => "An update needs at least one assignment"
  | nothingReturned t => s!"Insert into {t} returned no row"

inductive StoreFault where
  | unknownTable (table : String)
  | unknownColumn (column table : String)
  | unknownAlias (table : String)
  | noRawSql (sql : String)
  deriving DecidableEq, Repr

def StoreFault.message : StoreFault → String
  | unknownTable t => s!"relation \"{t}\" does not exist"
  | unknownColumn c t => s!"column \"{c}\" of relation \"{t}\" does not exist"
  | unknownAlias t => s!"missing FROM-clause entry for table \"{t}\""
  | noRawSql sql => s!"Raw SQL is not available in memory: {sql}"

/-- Column values that a constraint of the database refused. -/
inductive RefusedValue where
  | notNull (message : String) (column : Option String)
  | check (message : String) (constraint : Option String)
  deriving DecidableEq, Repr

inductive BrokenConstraint where
  | unique
  | foreignKey
  deriving DecidableEq, Repr

inductive Failure where
  | schema (fault : SchemaFault)
  | query (fault : QueryFault)
  | missingRow (fault : MissingRow)
  | noEntity (shown : String) (given : Value)
  | lookup (target field entity relation : String)
  | missingRelation (entity shown : String) (relation : Value)
  | missingFetcher (entity : String)
  | converterless (field : String)
  | conversion (source target : String) (detail : Option String)
  | contract (fault : ContractFault)
  | malformedUuid (field : String)
  | value (fault : ValueFault)
  | refusedValue (refusal : RefusedValue)
  | disconnected
  | connecting (cause : String)
  | connectionLost (cause : String)
  | store (fault : StoreFault)
  | duplicate (constraint : String)
  | broken (kind : BrokenConstraint) (detail : String) (constraint : Option String) (cause : Value)
  | unknownTable (detail : String) (cause : Value)
  | unknownColumn (detail : String) (cause : Value)
  | statement (detail : String) (cause : Value)
  | unknown
  | plain (error : Value)
  | wrongKind (detail : String)
  | wrongRange (detail : String)
  | wrongSyntax (detail : String)
  deriving Repr

namespace Failure

def exactIntegerInJson : Failure := .wrongKind "Do not know how to serialize a BigInt"

/-- The wording of an instant that does not exist. -/
def invalidInstant : Failure := .wrongRange "Invalid time value"

def message : Failure → String
  | schema fault => fault.message
  | query fault => fault.message
  | missingRow fault => fault.message
  | noEntity shown _ => s!"Unknown entity '{shown}'"
  | lookup t f e r => s!"No {t} matches {f} for {e}.{r}"
  | missingRelation e shown _ => s!"Relation '{shown}' is not defined on {e}"
  | missingFetcher e => s!"No relation fetcher registered for entity '{e}'"
  | converterless f => s!"{f} has a custom type and needs a converter to be written or filtered"
  | conversion s t detail =>
    s!"Cannot convert {s} key to {t}" ++ (match detail with
      | some d => if d.isEmpty then "" else ": " ++ d
      | none => "")
  | contract fault => fault.message
  | malformedUuid f => s!"{f} must be a UUID"
  | value fault => fault.message
  | refusedValue (.notNull m column) => "Not null constraint violation: " ++ column.getD m
  | refusedValue (.check m _) => "Check constraint violation: " ++ m
  | disconnected => "DAL not connected. Call connect() first."
  | connecting cause => "Failed to connect to PostgreSQL: " ++ cause
  | connectionLost cause => cause
  | store fault => fault.message
  | duplicate constraint => s!"duplicate key value violates unique constraint \"{constraint}\""
  | broken .unique detail _ _ => "Unique constraint violation: " ++ detail
  | broken .foreignKey detail _ _ => "Foreign key constraint violation: " ++ detail
  | unknownTable detail _ => "Table does not exist: " ++ detail
  | unknownColumn detail _ => "Column does not exist: " ++ detail
  | statement detail _ => detail
  | unknown => "Unknown error"
  | plain error => ((error.member "message").text?).getD ""
  | wrongKind detail | wrongRange detail | wrongSyntax detail => detail

end Failure

/-- What a caller sees of a failure: its class, and the members that the class has. -/
structure Report where
  name : String
  message : Value
  code : Value := .null
  entity : Option Value := none
  relation : Option Value := none
  field : Option Value := none
  constraint : Option Value := none
  cause : Option Value := none
  deriving Repr

namespace Report

def optional : Option String → Value
  | some s => .text s
  | none => .null

end Report

namespace Failure

open Report (optional)

/-- The class of a failure and its members; failures of values themselves have no report. -/
def report? (f : Failure) : Option Report :=
  let made (name code : String) : Report := { name, message := .text f.message, code := .text code }
  match f with
  | schema fault => some { made "SchemaError" "SCHEMA_ERROR" with entity := some (optional fault.entity?) }
  | noEntity _ given => some { made "SchemaError" "SCHEMA_ERROR" with entity := some given.orNull }
  | query _ => some (made "QueryValidationError" "QUERY_VALIDATION")
  | missingRow fault =>
    some { made "RecordNotFoundError" "RECORD_NOT_FOUND" with entity := some (.text fault.entity) }
  | lookup _ _ e r =>
    some { made "DeferredLookupError" "DEFERRED_LOOKUP_FAILED" with
      entity := some (.text e), relation := some (.text r) }
  | missingRelation e _ r =>
    some { made "RelationNotFoundError" "RELATION_NOT_FOUND" with
      entity := some (.text e), relation := some r }
  | missingFetcher e => some { made "FetcherMissingError" "FETCHER_MISSING" with entity := some (.text e) }
  | converterless field => some { made "InvalidFieldTypeError" "INVALID_FIELD_TYPE" with field := some (.text field) }
  | conversion .. => some (made "TypeConversionError" "TYPE_CONVERSION")
  | contract _ => some (made "InternalContractError" "INTERNAL_CONTRACT")
  | malformedUuid _ => some (made "InvalidUUIDError" "INVALID_UUID")
  | value fault => some { made "ValidationError" "VALIDATION_ERROR" with field := some (.text fault.field) }
  | refusedValue (.notNull _ column) =>
    some { made "ValidationError" "VALIDATION_ERROR" with field := some (optional column) }
  | refusedValue (.check _ constraint) =>
    some { made "ValidationError" "VALIDATION_ERROR" with field := some (optional constraint) }
  | disconnected | connecting _ | connectionLost _ => some (made "ConnectionError" "CONNECTION_ERROR")
  | store _ => some { made "QueryError" "QUERY_ERROR" with cause := some .null }
  | duplicate constraint =>
    some { made "ConstraintError" "CONSTRAINT_ERROR" with
      constraint := some (.text constraint), cause := some .null }
  | broken _ _ constraint cause =>
    some { made "ConstraintError" "CONSTRAINT_ERROR" with
      constraint := some (optional constraint), cause := some cause }
  | unknownTable _ cause | unknownColumn _ cause | statement _ cause =>
    some { made "QueryError" "QUERY_ERROR" with cause := some cause }
  | unknown => some { name := "DALError", message := .text f.message }
  | plain _ | wrongKind _ | wrongRange _ | wrongSyntax _ => none

/-- Is the failure one of the library's own, which pass from layer to layer unchanged? -/
def isOwn (f : Failure) : Bool := f.report?.isSome

def cause : Failure → Value
  | plain error => error
  | f => .object [("message", .text f.message)]

def textMember (error : Value) (name : String) : Option String := (error.member name).text?

def isObject : Value → Bool
  | .date _ | .key _ | .array _ | .object _ => true
  | _ => false

/-- The failure that an error of the database server means, by its five-character state. -/
def ofServer (error : Value) : Failure :=
  if !isObject error then .unknown
  else
    let detail := (textMember error "message").getD "Unknown error"
    let constraint := textMember error "constraint"
    let precise := (textMember error "detail").getD detail
    match textMember error "code" with
    | some "23505" => .broken .unique precise constraint error
    | some "23503" => .broken .foreignKey precise constraint error
    | some "23502" => .refusedValue (.notNull detail (textMember error "column"))
    | some "23514" => .refusedValue (.check precise constraint)
    | some "08000" | some "08003" | some "08006" => .connectionLost detail
    | some "42P01" => .unknownTable detail error
    | some "42703" => .unknownColumn detail error
    | _ => .statement detail error

def adopt (f : Failure) : Failure := if f.isOwn then f else ofServer f.cause

end Failure

inductive ReportClass where
  | base | schema | missingRow | lookup | missingRelation | missingFetcher | query | fieldType | conversion
  | contract | uuid | value | connection | statement | constraint
  deriving DecidableEq, Repr

namespace ReportClass

def name : ReportClass → String
  | base => "DALError" | schema => "SchemaError" | missingRow => "RecordNotFoundError"
  | lookup => "DeferredLookupError" | missingRelation => "RelationNotFoundError"
  | missingFetcher => "FetcherMissingError" | query => "QueryValidationError"
  | fieldType => "InvalidFieldTypeError" | conversion => "TypeConversionError"
  | contract => "InternalContractError" | uuid => "InvalidUUIDError" | value => "ValidationError"
  | connection => "ConnectionError" | statement => "QueryError" | constraint => "ConstraintError"

def all : List ReportClass :=
  [base, schema, missingRow, lookup, missingRelation, missingFetcher, query, fieldType, conversion, contract,
    uuid, value, connection, statement, constraint]

def ofName? (name : String) : Option ReportClass := all.find? fun c => c.name == name

/-- The classes that a class belongs to, among the base class and that of missing rows. -/
def kinds : ReportClass → List String
  | missingRow | lookup => ["DALError", "RecordNotFoundError"]
  | _ => ["DALError"]

end ReportClass

end EntityQuery
