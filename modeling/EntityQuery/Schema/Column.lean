import EntityQuery.Condition
import EntityQuery.Field.Coding
import EntityQuery.Schema.Entity
/-! Columns of entities in conditions. -/

namespace EntityQuery.Entity

def ref (e : Entity) (column : String) : ColumnRef := ⟨e.table, column⟩

def fieldColumn (e : Entity) (name : Value) : Except Failure ColumnRef := do return e.ref (← e.fieldNamed name).column

/-- The condition that selects one row by the value of its primary key. -/
def keyCondition (e : Entity) (v : Value) : Except Failure Condition := do
  return .compare (e.ref e.primaryKey.column) (.of .eq) (← e.primaryKey.encode v)

end EntityQuery.Entity
