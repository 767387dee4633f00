import EntityQuery.Backend
import EntityQuery.Store.Direct
/-! The in-memory store as a backend. A transaction remembers the tables and sequences and restores them
when it is rolled back; transactions asked for inside one join it. -/

namespace EntityQuery.Store

/-- A statement that only reads. -/
def reading {α : Type} (kind : StatementKind) (table : String) (f : Store → Except Failure α) : Step Store α :=
  Step.ofFunction fun s =>
    let s := s.record kind table
    (f s, s)

def writing (kind : StatementKind) (table : String) (f : Store → Except Failure Written × Store) :
    Step Store Written :=
  Step.ofFunction fun s => f (s.record kind table)

/-- A statement given as a document. One whose condition cannot be read is not recorded. -/
def direct (kind : StatementKind) (v : Value) : Step Store Value := do
  let condition ← Condition.ofStatement v
  let table ← shownTable v
  Step.ofFunction fun s => (s.record kind table).answerDocument kind condition v

mutual

/-- A copy of a stored value, in which keys are objects that hold their kind and their value. -/
def copied : Value → Value
  | .key k => copiedKey k
  | .array items => .array (copiedItems items)
  | .object members => .object (copiedMembers members)
  | v => v
termination_by structural v => v

def copiedKey : KeyForm Value → Value
  | .json payload => .object [("variant", .object [("kind", .text "json"), ("value", copied payload)])]
  | k => .object [("variant", .object [("kind", .text k.kind.tag), ("value", k.value)])]
termination_by structural k => k

def copiedItems : List Value → List Value
  | [] => []
  | v :: rest => copied v :: copiedItems rest
termination_by structural items => items

def copiedMembers : List (String × Value) → List (String × Value)
  | [] => []
  | (name, v) :: rest => (name, copied v) :: copiedMembers rest
termination_by structural members => members

end

mutual

/-- The first part of a value that cannot be copied: a JSON null marker or a function. -/
def uncopied? : Value → Option Value
  | .jsonNull => some .jsonNull
  | .callable name => some (.callable name)
  | .key k => uncopiedKey? k
  | .array items => uncopiedItem? items
  | .object members => uncopiedMember? members
  | _ => none
termination_by structural v => v

def uncopiedKey? : KeyForm Value → Option Value
  | .json payload => uncopied? payload
  | _ => none
termination_by structural k => k

def uncopiedItem? : List Value → Option Value
  | [] => none
  | v :: rest => (uncopied? v).or (uncopiedItem? rest)
termination_by structural items => items

def uncopiedMember? : List (String × Value) → Option Value
  | [] => none
  | (_, v) :: rest => (uncopied? v).or (uncopiedMember? rest)
termination_by structural members => members

end

def uncopyable (v : Value) : Except Failure Failure := do
  let message := (← v.display) ++ " could not be cloned."
  return .plain (.object [("name", .text "DataCloneError"), ("message", .text message)])

/-- The state in which a transaction begins, which needs a copy of every table. -/
def opened (s : Store) : Except Failure Store := do
  match s.tables.findSome? fun (_, rows) => rows.findSome? uncopiedMember? with
  | some v => throw (← uncopyable v)
  | none => return { s with inTransaction := true }

def copiedTables (tables : Tables) : Tables :=
  tables.map fun (table, rows) => (table, rows.map fun row => Record.mapValues copied row)

/-- The state after a rollback: the tables are copies of what they were, the sequences are as they were, and
the journal and the counters go on. -/
def restored (start stop : Store) : Store :=
  { stop with
    tables := copiedTables start.tables, sequences := start.sequences, inTransaction := false
    rollbacks := stop.rollbacks + 1 }

instance : Backend Store where
  select _ q := reading .select q.table fun s => s.selectRows q
  insert _ q := writing .insert q.table fun s => s.insertRows q
  update _ q := writing .update q.table fun s => s.updateRows q
  delete _ q := writing .delete q.table fun s => s.deleteRows q
  count _ q := reading .count q.table fun s => do return .integer (← s.countRows q)
  group _ q := reading .aggregate q.table fun s => s.group q
  raw _ sql _ := Step.inspect fun _ => .error (.store (.noRawSql sql))
  direct _ := direct
  joins _ s := s.inTransaction
  opened := opened
  committed _ stop := { stop with inTransaction := false, commits := stop.commits + 1 }
  rolledBack := restored
  adopt e := e

end EntityQuery.Store
