import EntityQuery.Registry
/-! Clients: a compiled schema, its registry, and the entities under the keys that the schema gives
them. -/

namespace EntityQuery

structure Client (φ : Type) where
  schema : Schema
  registry : Registry φ
  entities : Record Entity

namespace Client

variable {φ : Type}

/-- Keys that start with a dollar sign are the client's own. -/
def isReserved (key : String) : Bool := key.startsWith "$"

def ofDeclarations (fetcher : Entity → φ) (declared : Record EntityDeclaration) : Except Failure (Client φ) := do
  match declared.names.find? isReserved with
  | some key => throw (.schema (.reservedKey key))
  | none =>
    let schema ← Schema.compile declared.values
    let registry ← (Registry.ofSchema schema).mapError Failure.schema
    let registry := schema.entities.foldl (fun r e => r.registerFetcher e.name (fetcher e)) registry
    let entities ← declared.mapM fun (key, d) => do return (key, ← registry.needed d.name)
    return ⟨schema, registry, entities⟩

def entity? (c : Client φ) (key : String) : Option Entity := Record.get? c.entities key

def notes (c : Client φ) : List String :=
  c.schema.notes ++ [s!"Data client ready for {c.schema.entities.length} entities"]

end Client

namespace RelationKind

def quantifiers : List String := ["some", "every", "none"]

/-- The changes that a kind of relation allows: a key that the row stores itself points at one row that
exists, and only many rows can be given as a list. -/
def changes : RelationKind → List String
  | belongsTo => ["connect", "disconnect"]
  | hasMany => ["connect", "disconnect", "set", "create"]
  | hasOne => ["connect", "disconnect", "create"]

/-- Everything that a kind of relation offers, by name. -/
def offered (k : RelationKind) : List String := quantifiers ++ k.changes

end RelationKind

end EntityQuery
