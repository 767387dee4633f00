import EntityQuery.Backend
import EntityQuery.Reply
import EntityQuery.Sql.Document
/-! A database server seen through its answers. Statements are sent as SQL text; every query takes the
next of the answers that lie ready, and once none are left it has no rows. Errors of the server become the
library's own. -/

namespace EntityQuery

/-- What was sent to the server: a query, on the connection of a transaction or not, or a mark of a
transaction. -/
inductive Sent where
  | query (sql : String) (params : List Value) (bound : Bool)
  | begin | commit | rollback
  deriving Repr

structure Executor where
  replies : List Reply
  sent : List Sent

namespace Executor

def query (h : Handle) (p : Sql.Prepared) : Step Executor Written :=
  Step.ofFunction fun e =>
    let sent := e.sent ++ [.query p.sql p.params (h == .bound)]
    match e.replies with
    | [] => (.ok ⟨.integer 0, []⟩, ⟨[], sent⟩)
    | .rows rows count :: rest => (.ok ⟨count.getD (.integer 0), rows⟩, ⟨rest, sent⟩)
    | .refused error :: rest => (.error (Failure.adopt (.plain error)), ⟨rest, sent⟩)
    | .unsent failure :: rest => (.error failure.adopt, ⟨rest, sent⟩)

def statement (h : Handle) (p : Except Failure Sql.Prepared) : Step Executor Written := do
  query h (← p)

/-- The count that a row reports: the integer that its text begins with. -/
def countOf (rows : List Row) : Except Failure Number := do
  let v := match rows.head? with
    | some row => Row.value row "count"
    | none => .absent
  let s ← if v.isNothing then .ok "0" else v.display
  return (Number.leadingNumber? s).getD .nan

/-- Rows without any column are inserted one by one. -/
def insertEach (h : Handle) (q : Insert) : List Row → Step Executor (List Row)
  | [] => return []
  | row :: rest => do
    let w ← statement h (Sql.insert { q with rows := [row] })
    return w.rows ++ (← insertEach h q rest)

def insert (h : Handle) (q : Insert) : Step Executor Written :=
  if q.rows.isEmpty then return ⟨.integer 0, []⟩
  else if 1 < q.rows.length && q.rows.all List.isEmpty then do
    return ⟨.integer q.rows.length, ← insertEach h q q.rows⟩
  else statement h (Sql.insert q)

/-- Carry out a statement given as a document. An insert of no rows needs no other part. -/
def direct (h : Handle) (kind : StatementKind) (v : Value) : Step Executor Value := do
  match kind with
  | .insert =>
    if (← Sql.rowsAt v).isEmpty then return (Written.mk (.integer 0) []).toValue
    return (← insert h (← Sql.insertAt v)).toValue
  | .count =>
    let w ← statement h (Sql.ofDocument kind v)
    return .number (← countOf w.rows)
  | .select | .aggregate =>
    let w ← statement h (Sql.ofDocument kind v)
    return .array (w.rows.map .object)
  | .update | .delete => return (← statement h (Sql.ofDocument kind v)).toValue

def note (e : Executor) (mark : Sent) : Executor := { e with sent := e.sent ++ [mark] }

instance : Backend Executor where
  select h q := do return (← statement h (Sql.select q)).rows
  insert := insert
  update h q := statement h (Sql.update q)
  delete h q := statement h (Sql.delete q)
  count h q := do
    let w ← statement h (Sql.count q)
    countOf w.rows
  group h q := do return (← statement h (Sql.grouping q)).rows
  direct := direct
  raw h sql params := do return (← query h ⟨sql, params⟩).rows
  joins h _ := h == .bound
  opened e := .ok (e.note .begin)
  committed _ stop := stop.note .commit
  rolledBack _ stop := stop.note .rollback
  adopt := Failure.adopt

end Executor

end EntityQuery
