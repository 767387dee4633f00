import EntityQuery.Field.Coding
import EntityQuery.Key
import EntityQuery.Mutation
/-! Operands of a field's operators, encoded as column values, and the predicates and mutations made from
them. Operands of a primary key may be any key: they are converted to the type of the field first. -/

namespace EntityQuery.Field

def isKeyValue : Value → Bool
  | .key _ | .date _ | .number _ | .integer _ | .text _ | .bool _ => true
  | _ => false

/-- An operand as a column value. Null stays null; whether the field can be compared with null is asked
when the predicate is compiled. -/
def encodeOperand (f : Field) (v : Value) : Except Failure Value :=
  if v.isNothing then .ok .null
  else if f.primaryKey && isKeyValue v then do f.encode (← (← Key.ofValue v).convert f.type)
  else f.encode v

def encodeNew (f : Field) (v : Value) : Except Failure Value :=
  match v with
  | .key k => if f.primaryKey then do f.encode (← k.convert f.type) else f.encode v
  | _ => f.encode v

/-- An operand of arithmetic: finite, no zero divisor, and an exact integer for wide integer fields. -/
def encodeArithmetic (f : Field) (operation : Arithmetic) (v : Value) : Except Failure Value := do
  let finite := match v with
    | .number n => n.isFinite
    | _ => true
  if !finite then throw (.query (.infiniteOperand operation.tag f.name))
  let zero := match v with
    | .number n => n.isZero
    | .integer n => n == 0
    | _ => false
  if operation == .divide && zero then throw (.query (.zeroDivisor f.name))
  if f.type.isWideInteger then
    match v with
    | .number n => if n.int?.isNone then throw (.query (.fractionalOperand operation.tag f.name))
    | _ => pure ()
    return .integer (← v.readExact)
  else return .number (← v.toNumber)

end EntityQuery.Field

namespace EntityQuery.Entity

def test (e : Entity) (f : Field) (t : FieldTest) : Predicate := .field e.name f.name t false

/-- Compare a field with an operand. Equality of a unique field with a value selects at most one row. -/
def compare (e : Entity) (f : Field) (c : Comparison) (v : Value) : Except Failure Predicate := do
  let operand ← f.encodeOperand v
  let present := match operand with
    | .null => false
    | _ => true
  return .field e.name f.name (.compare c operand) (c == .eq && present && f.unique)

def among (e : Entity) (f : Field) (vs : List Value) (negated : Bool) : Except Failure Predicate := do
  return e.test f (.member (← vs.mapM f.encodeOperand) negated)

def assign (e : Entity) (f : Field) (v : Value) : Except Failure Mutation := do
  return .field e.name f.name .set (← f.encodeNew v)

def change (e : Entity) (f : Field) (operation : Arithmetic) (v : Value) : Except Failure Mutation := do
  return .field e.name f.name (.arithmetic operation) (← f.encodeArithmetic operation v)

end EntityQuery.Entity
