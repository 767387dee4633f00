import EntityQuery.Key
import EntityQuery.Schema
import EntityQuery.Value.Display
/-! The registry of a client: its entities and the fetchers that load their rows for includes. Names are
matched tolerantly, so that `blog::Post`, `post` and `Post` mean the same entity. -/

namespace EntityQuery

/-- Entities in the order of their registration, and fetchers by entity name in lower case. -/
structure Registry (φ : Type) where
  entities : List Entity
  fetchers : List (String × φ)

namespace Registry

variable {φ : Type}

def empty : Registry φ := ⟨[], []⟩

def named? (r : Registry φ) (name : String) : Option Entity := r.entities.find? fun e => e.name == name

def lowerNamed? (r : Registry φ) (name : String) : Option Entity :=
  r.entities.find? fun e => Text.toLower e.name == Text.toLower name

/-- The entity that a name means: the exact name first, then the name behind the last separator, its
Pascal case, and a match without case. -/
def get? (r : Registry φ) (name : String) : Option Entity :=
  if name.isEmpty then none
  else
    let segment := Name.lastSegment name
    r.named? name <|> r.named? segment <|> r.named? (Name.toPascal segment) <|> r.lowerNamed? segment

/-- The entity that a name means, which has to exist. -/
def require (r : Registry φ) (name : String) : Except SchemaFault Entity :=
  match r.get? name with
  | some e => .ok e
  | none => .error (.unknownEntity name)

/-- Register an entity. Its name must be new, also when case is ignored. -/
def register (r : Registry φ) (e : Entity) : Except SchemaFault (Registry φ) :=
  match r.lowerNamed? e.name with
  | some _ => .error (.registeredTwice e.name)
  | none => .ok { r with entities := r.entities ++ [e] }

def ofSchema (s : Schema) : Except SchemaFault (Registry φ) := s.entities.foldlM register empty

def names (r : Registry φ) : List String := r.entities.map (·.name)

/-- The name under which the fetcher of an entity is kept; `fallback` is used for unknown entities. -/
def fetcherName (r : Registry φ) (name fallback : String) : String :=
  match r.get? name with
  | some e => e.name
  | none => fallback

def registerFetcher (r : Registry φ) (name : String) (fetcher : φ) : Registry φ :=
  { r with fetchers := (Text.toLower (r.fetcherName name name), fetcher) :: r.fetchers }

def lookupFetcher? (r : Registry φ) (key : String) : Option φ :=
  (r.fetchers.find? fun entry => entry.1 == key).map (·.2)

def fetcher? (r : Registry φ) (name : String) : Option φ :=
  r.lookupFetcher? (Text.toLower (r.fetcherName name (Name.lastSegment name)))

def fetcher (r : Registry φ) (name : String) : Except Failure φ :=
  match r.fetcher? name with
  | some f => .ok f
  | none => .error (.missingFetcher (r.fetcherName name (Name.lastSegment name)))

def hasFetcher (r : Registry φ) (name : String) : Bool := (r.fetcher? name).isSome

/-- The entity that a value names: none for a value that counts as false, and only texts are names. -/
def find (r : Registry φ) (v : Value) : Except Failure (Option Entity) :=
  match v with
  | .text name => .ok (r.get? name)
  | v => if v.isTruthy then .error (.wrongKind "reference.split is not a function") else .ok none

/-- The entity that a value names, which has to exist. -/
def needed (r : Registry φ) (v : Value) : Except Failure Entity := do
  match v with
  | .text name => (r.require name).mapError Failure.schema
  | v =>
    match ← r.find v with
    | some e => return e
    | none => throw (.noEntity (← v.inserted) v)

/-- The type of the primary key of an entity, if the entity is there. -/
def primaryKeyType (r : Registry φ) (name : Value) : Except Failure (Option ScalarType) := do
  return (← r.find name).map fun e => e.primaryKey.type

/-- The type of a field of an entity, if both are there. -/
def fieldType (r : Registry φ) (name field : Value) : Except Failure (Option ScalarType) := do
  return ((← r.find name).bind fun e => field.text?.bind e.field?).map fun f => f.type

def means (r : Registry φ) (v : Value) (e : Entity) : Except Failure Bool := do
  return (← r.find v).any fun found => found.name == e.name

/-- A relation and the entity of its related rows, which has to be part of the schema. -/
def related (r : Registry φ) (e : Entity) (relation : Value) : Except Failure (Relation × Entity) := do
  let found ← e.relationNamed relation
  match r.get? found.target with
  | some target => return (found, target)
  | none => throw (.query (.targetOutside e.name found.name found.target))

/-- A relation and the entity of its related rows, which a selector has to be about; what the selector is
about is asked for last. -/
def relatedTo (r : Registry φ) (e : Entity) (relation : Value) (selected : Except Failure Value) :
    Except Failure (Relation × Entity) := do
  let (found, target) ← r.related e relation
  let name ← selected
  if ← r.means name target then return (found, target)
  else throw (.query (.connectsOther e.name found.name target.name (← name.inserted)))

end Registry

namespace KeyForm

variable {φ : Type}

/-- A key as a value of a type, or as it is where the type is unknown. -/
def convertOr (k : Key) : Option ScalarType → Except Failure Value
  | some type => k.convert type
  | none => k.toColumn

def forEntity (k : Key) (r : Registry φ) (entity : Value) : Except Failure Value := do
  k.convertOr (← r.primaryKeyType entity)

def forField (k : Key) (r : Registry φ) (entity field : Value) : Except Failure Value := do
  k.convertOr (← r.fieldType entity field)

end KeyForm

end EntityQuery
