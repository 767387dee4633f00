import EntityQuery.Schema.Entity
import EntityQuery.Row
/-! Fetchers: where the related rows of an include come from. -/

namespace EntityQuery

/-- Rows are read from the table of the entity, or are given; what is given in the place of a fetcher may also
be unable to fetch. -/
inductive Fetcher where
  | table
  | fixed (rows : List Row)
  | unusable
  deriving Repr

/-- The fetcher of an entity among those given by entity name. A name that names what every object has finds
something that is no fetcher. -/
def Fetcher.among (given : Option (Record (List Row))) (e : Entity) : Fetcher :=
  match given with
  | none => .table
  | some given =>
    match Record.get? given e.name with
    | some rows => .fixed rows
    | none => if (Value.inherited e.name).isNothing then .table else .unusable

end EntityQuery
