import EntityQuery.Record
import EntityQuery.Value.Display
/-! Connection settings: defaults, settings given by hand, and settings taken from the environment. -/

namespace EntityQuery.Connection

/-- Settings by name; names that are not among the defaults are passed on as they are. -/
abbrev Settings := Record Value

def defaults : Settings :=
  [("host", .text "localhost"), ("port", .int 5432), ("database", .text "postgres"), ("user", .text "postgres"),
    ("password", .text ""), ("max", .int 20), ("idleTimeoutMillis", .int 30000),
    ("connectionTimeoutMillis", .int 2000)]

def withDefaults (given : Settings) : Settings := Record.merge defaults given

/-- A variable of the environment that is set and not empty. -/
def nonEmpty (environment : Record Value) (name : String) : Option Value :=
  (Record.get? environment name).filter Value.isTruthy

def present (environment : Record Value) (name : String) : Option Value :=
  (Record.get? environment name).filter fun v => !v.isAbsent

def setting (name : String) (v : Option Value) : Settings :=
  match v with
  | some v => [(name, v)]
  | none => []

/-- The port number is the integer that the text of its variable begins with. -/
def portNumber? (environment : Record Value) : Except Failure (Option Number) := do
  match nonEmpty environment "PGPORT" with
  | some v => return (Number.leadingNumber? (← v.inserted)).filter Number.isFinite
  | none => return none

/-- The settings of an environment. `DATABASE_URL` wins over the variables for single settings; a
password may be empty. -/
def ofEnvironment (environment : Record Value) : Except Failure Settings := do
  match nonEmpty environment "DATABASE_URL" with
  | some url => return [("connectionString", url)]
  | none =>
    let port ← portNumber? environment
    return setting "host" (nonEmpty environment "PGHOST") ++ setting "database" (nonEmpty environment "PGDATABASE") ++
      setting "user" (nonEmpty environment "PGUSER") ++ setting "password" (present environment "PGPASSWORD") ++
      setting "port" (port.map .number)

/-- Settings whose `ssl` setting shows no key. -/
def Settings.withoutKey (settings : Settings) : Settings :=
  match Record.get? settings "ssl" with
  | some (.object members) =>
    if ((Record.get? members "key").getD .absent).isTruthy then
      Record.replace settings "ssl" (.object (members.filter fun member => member.1 != "key"))
    else settings
  | _ => settings

end EntityQuery.Connection
