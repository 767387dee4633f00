import EntityQuery.Proofs.SqlExpressions
import EntityQuery.Sql.Where
/-! The expression that a condition stands for. Tests keep their order, lists and negations their structure, names are
those of the condition, and each placeholder is the operand that it binds. -/

namespace EntityQuery

/-- Is it a text that is looked for, in a way that is known? -/
def TextMatch.looksFor : TextMatch → Value → Bool
  | .equals, .text _ | .part _, .text _ => true
  | _, _ => false

namespace JsonTest

/-- A test of a known kind with the parts that it needs: a text that is looked for, an operand that has a JSON text. -/
def isFormed : JsonTest → Bool
  | .path _ | .objectKey _ _ => true
  | .text kind _ part => kind.looksFor part
  | .array _ _ operand => (operand.jsonText? .refused).isOk
  | .null _ kind => match kind with
    | .foreign _ => false
    | _ => true
  | .foreign _ => false

end JsonTest

namespace Condition

mutual

/-- A condition of known tests throughout. Only texts are looked for, and JSON operands have a JSON text. -/
def isFormed : Condition → Bool
  | .constant _ | .truthy _ | .member _ _ _ | .null _ _ => true
  | .compare _ operator _ => match operator with
    | .of _ => true
    | .foreign _ => false
  | .text _ kind part _ => kind.looksFor part
  | .json _ test => test.isFormed
  | .all members | .any members => areFormed members
  | .not inner | .related _ _ _ inner _ | .annotated _ inner => isFormed inner
  | .foreign _ => false
termination_by structural c => c

def areFormed : List Condition → Bool
  | [] => true
  | c :: rest => isFormed c && areFormed rest
termination_by structural cs => cs

end

end Condition

namespace Sql

section Documents

variable (r : ColumnRef) (path : List Value)

/-- The part of a JSON column at a path. -/
def documentExpr : Expr :=
  if path.isEmpty then .column r.table r.column
  else .binary "#>" (.column r.table r.column) (.cast (.operand (.array path)) "text" true)

/-- The text of a part of a JSON column. -/
def textExpr : Expr :=
  .binary "#>>" (.column r.table r.column)
    (if path.isEmpty then .literal "\x7b\x7d" else .cast (.operand (.array path)) "text" true)

/-- The operand that a JSON value is bound as. -/
def documentOperand (v : Value) : Value :=
  match v.jsonText? .refused with
  | .ok (some s) => .text s
  | _ => .absent

/-- The pattern that a text is looked for with. -/
def patternOperand (kind : TextMatch) (part : Value) : Value := (likePattern kind part).toOption.getD .absent

def jsonCast (e : Expr) : Expr := .cast e "jsonb" false

end Documents

/-- The expression of a JSON test. -/
def jsonExpr (r : ColumnRef) : JsonTest → Expr
  | .path path => .null (documentExpr r path) true
  | .text kind path part =>
    .binary "like" (textExpr r path) (.operand (patternOperand kind part))
  | .array .any path operand => .binary "@>" (documentExpr r path) (jsonCast (.operand (documentOperand (.array [operand]))))
  | .array .first path operand =>
    .binary "=" (.binary "->" (documentExpr r path) (.number 0)) (jsonCast (.operand (documentOperand operand)))
  | .array .last path operand =>
    .binary "=" (.binary "->" (documentExpr r path) (.negative (.number 1))) (jsonCast (.operand (documentOperand operand)))
  | .objectKey path key => .binary "?" (documentExpr r path) (.operand key)
  | .null path .db => .null (documentExpr r path) false
  | .null path .json => .binary "=" (documentExpr r path) (jsonCast (.literal "null"))
  | .null path .any => .any [.null (documentExpr r path) false, .binary "=" (documentExpr r path) (jsonCast (.literal "null"))]
  | .null _ (.foreign _) | .foreign _ => .truth false

/-- What stands between the members of a list. -/
def separator : Connective → String
  | .and => " AND "
  | .or => " OR "

/-- The expression of the members of a list: an empty one is the neutral truth, and one member stands for itself. -/
def chained (c : Connective) : List Expr → Expr
  | [] => .truth (c == .and)
  | [e] => e
  | es => c.node es

/-- The expression of a text test: exact equality, or a pattern. -/
def textTestExpr (r : ColumnRef) (kind : TextMatch) (part : Value) (ignoreCase : Bool) : Expr :=
  match kind, ignoreCase with
  | .equals, false => .binary "=" (.column r.table r.column) (.operand part)
  | _, _ => .binary (if ignoreCase then "ilike" else "like") (.column r.table r.column) (.operand (patternOperand kind part))

/-- The expression of a subquery: the join, and the condition on the rows that it finds. -/
def relatedExpr (table label : String) (join : Join) (inner : Option Expr) (negated : Bool) : Expr :=
  let test := .binary "=" (.column join.inner.table join.inner.column) (.column join.outer.table join.outer.column)
  let body := .present table label (match inner with
    | some e => .all [test, e]
    | none => test)
  if negated then .not body else body

mutual

/-- The expression of a condition: its tests in their order, joined as the condition joins them. A subquery asks for
the join and the condition inside, or for the join alone where that condition is true. -/
def outline : Condition → Expr
  | .constant b => .truth b
  | .truthy v => .truth v.isTruthy
  | .compare r operator operand => match operator with
    | .of c => .binary c.symbol (.column r.table r.column) (.operand operand)
    | .foreign _ => .truth false
  | .text r kind part ignoreCase => textTestExpr r kind part ignoreCase
  | .member r values negated => .among (.column r.table r.column) (values.map .operand) negated
  | .null r negated => .null (.column r.table r.column) negated
  | .json r test => jsonExpr r test
  | .all members => chained .and (outlines members)
  | .any members => chained .or (outlines members)
  | .not inner => .not (outline inner)
  | .related table label join inner negated =>
    relatedExpr table label join (if inner.isTrue then none else some (outline inner)) negated
  | .annotated _ reading => outline reading
  | .foreign _ => .truth false
termination_by structural c => c

def outlines : List Condition → List Expr
  | [] => []
  | c :: rest => outline c :: outlines rest
termination_by structural cs => cs

end

/-- The expression that the text of a fragment reads as, with its parameters for the placeholders. -/
def Fragment.reading (f : Fragment) : Option Expr := (tokens f.text).bind fun ts => parse (ts.map (Token.bound f.params))

end Sql

end EntityQuery
