import EntityQuery.Field.Coding
import EntityQuery.Schema.Entity
/-! Rows: column values by column as the backend keeps them, and field values by field as applications
see them. -/

namespace EntityQuery

/-- Values by column, or by field. -/
abbrev Row := Record Value

namespace Row

/-- The value of a name, or what every row has under it. -/
def value (r : Row) (name : String) : Value := (Record.get? r name).getD (.inherited name)

end Row

namespace Entity

/-- The application row of a column row: every field, decoded from its column. -/
def decodeRow (e : Entity) (row : Row) : Except Failure Row :=
  e.fields.mapM fun f => do return (f.name, ← f.decode (Row.value row f.column))

/-- The column row of application data. Absent values are left out, so that their columns keep their
defaults. -/
def encodeRow (e : Entity) (data : Row) : Except Failure Row :=
  data.foldlM (fun encoded (name, v) =>
    match v with
    | .absent => .ok encoded
    | v => do
      let f ← e.field name
      return encoded.put f.column (← f.encode v)) []

/-- Every column whose field is neither generated nor nullable has to be given. -/
def checkRequired (e : Entity) (row : Row) : Except Failure Unit :=
  e.fields.forM fun f =>
    if f.generated || f.nullable then .ok ()
    else
      match Row.value row f.column with
      | .absent => .error (.query (.missingField e.name f.name))
      | _ => .ok ()

def keyOf (e : Entity) (row : Row) : Value := Row.value row e.primaryKey.name

end Entity

namespace Value

/-- Text that is equal for values that group together: numbers and exact integers of one value do. -/
def groupText (v : Value) : Except Failure String :=
  match v with
  | .number n => .ok ("n:" ++ n.toText)
  | .integer n => .ok ("n:" ++ Number.intText n)
  | .date (some t) => .ok ("d:" ++ Number.intText t)
  | .date none => .ok "d:NaN"
  | .text s => .ok ("s:" ++ s)
  | .bool b => .ok (if b then "b:true" else "b:false")
  | v => do return "j:" ++ ((← v.jsonText? .refused).getD "undefined")

end Value

end EntityQuery
