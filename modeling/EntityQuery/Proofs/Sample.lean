import EntityQuery.Client
import EntityQuery.Converter
import EntityQuery.Proofs.Content
import EntityQuery.Session
import EntityQuery.Store.Tables
/-! A schema of users who lead each other, of notes of any value, of tasks that follow each other, of days, of parts that
are made of parts and of counters, with a few stored rows, for closed cases of general theorems. -/

namespace EntityQuery.Sample

def idField : Field :=
  { name := "id", column := "id", declared := "i32", type := .integer .i32, nullable := false, unique := true,
    primaryKey := true, generated := true, converter := none }

def nameField : Field :=
  { name := "name", column := "name", declared := "Option<String>", type := .text, nullable := true, unique := true,
    primaryKey := false, generated := false, converter := none }

def leadField : Field :=
  { name := "lead", column := "lead_id", declared := "Option<i32>", type := .integer .i32, nullable := true,
    unique := false, primaryKey := false, generated := false, converter := none }

def reports : Relation :=
  { name := "reports", kind := .hasMany, target := "User", targetTable := "users", own := ⟨"id", "id"⟩,
    remote := ⟨"lead", "lead_id"⟩, foreignKeyType := some (.integer .i32), foreignKeyNullable := true }

def user : Entity :=
  { name := "User", table := "users", primaryKey := idField, fields := [idField, nameField, leadField],
    relations := [reports], foreignKeyFields := ["lead"], foreignKeyTypes := [("lead", .integer .i32)] }

def dataField : Field :=
  { name := "data", column := "data", declared := "Option<Box>", type := .opaqueType, nullable := true,
    unique := false, primaryKey := false, generated := false, converter := some Converter.boxed }

def note : Entity :=
  { name := "Note", table := "notes", primaryKey := idField, fields := [idField, dataField], relations := [],
    foreignKeyFields := [], foreignKeyTypes := [] }

def registry {φ : Type} : Registry φ := ⟨[user], []⟩

def row (id : Int) (name lead : Value) : Row := [("id", .int id), ("name", name), ("lead_id", lead)]

def ann : Row := row 1 (.text "Ann") .null

def bob : Row := row 2 (.text "bob") (.int 1)

def unnamed : Row := row 3 .null (.int 1)

def tables : Store.Tables := [("users", [ann, bob, unnamed])]

def session (inTransaction : Bool) (users notes : List Row) (operations : List Operation) : Session Store :=
  { backend :=
      { fields := [("users", user.fields), ("notes", note.fields)], tables := [("users", users), ("notes", notes)],
        sequences := [], journal := [], inTransaction, commits := 0, rollbacks := 0 }
    operations, fetched := [], log := [] }

def creation (values : Row) : Operation := ⟨user, .pooled, false, .create ⟨values, [], []⟩⟩

/-- A user is deleted who is not there. -/
def removal : Operation := ⟨user, .pooled, false, .delete (.field "User" "id" (.compare .eq (.int 99)) true)⟩

def naming (name : String) : Operation := ⟨user, .pooled, false, .updateMany [] [⟨"name", .set, .text name⟩]⟩

def noting (value : Value) : Operation := ⟨note, .pooled, false, .createMany [[("data", value)]]⟩

def beforeField : Field :=
  { name := "before", column := "before_id", declared := "Option<i32>", type := .integer .i32, nullable := true,
    unique := true, primaryKey := false, generated := false, converter := none }

def markField : Field :=
  { name := "mark", column := "mark", declared := "Option<Mark>", type := .opaqueType, nullable := true, unique := true,
    primaryKey := false, generated := false, converter := some ⟨"mark", .ok, .ok⟩ }

def next : Relation :=
  { name := "next", kind := .hasMany, target := "Task", targetTable := "tasks", own := ⟨"id", "id"⟩,
    remote := ⟨"before", "before_id"⟩, foreignKeyType := some (.integer .i32), foreignKeyNullable := true }

/-- Tasks that follow each other, with marks of any value. -/
def task : Entity :=
  { name := "Task", table := "tasks", primaryKey := idField,
    fields := [idField, beforeField, markField], relations := [next],
    foreignKeyFields := ["before"], foreignKeyTypes := [("before", .integer .i32)] }

def taskRow (id before mark : Value) : Row := [("id", id), ("before_id", before), ("mark", mark)]

def tasks (rows : List Row) : Session Store :=
  .start
    { fields := [("tasks", task.fields)], tables := [("tasks", rows)], sequences := [], journal := [],
      inTransaction := false, commits := 0, rollbacks := 0 }

def dayField : Field :=
  { name := "day", column := "day", declared := "date", type := .date, nullable := false, unique := true,
    primaryKey := true, generated := false, converter := none }

def day : Entity :=
  { name := "Day", table := "days", primaryKey := dayField, fields := [dayField], relations := [], foreignKeyFields := [],
    foreignKeyTypes := [] }

def days (rows : List Row) : Session Store :=
  .start
    { fields := [("days", day.fields)], tables := [("days", rows)], sequences := [], journal := [],
      inTransaction := false, commits := 0, rollbacks := 0 }

def codeField : Field :=
  { name := "code", column := "code", declared := "Uuid", type := .uuid, nullable := false, unique := true,
    primaryKey := false, generated := false, converter := none }

def wholeField : Field :=
  { name := "whole", column := "whole_code", declared := "Option<Uuid>", type := .uuid, nullable := true, unique := false,
    primaryKey := false, generated := false, converter := none }

def weightField : Field :=
  { name := "weight", column := "weight", declared := "Option<f64>", type := .float .f64, nullable := true, unique := false,
    primaryKey := false, generated := false, converter := none }

def dueField : Field :=
  { name := "due", column := "due", declared := "Option<DateTime>", type := .datetime, nullable := true, unique := false,
    primaryKey := false, generated := false, converter := none }

def pieces : Relation :=
  { name := "pieces", kind := .hasMany, target := "Part", targetTable := "parts", own := ⟨"code", "code"⟩,
    remote := ⟨"whole", "whole_code"⟩, foreignKeyType := some .uuid, foreignKeyNullable := true }

/-- Parts that are made of parts. -/
def part : Entity :=
  { name := "Part", table := "parts", primaryKey := idField,
    fields := [idField, codeField, wholeField, weightField, dueField], relations := [pieces],
    foreignKeyFields := ["whole"], foreignKeyTypes := [("whole", .uuid)] }

def partRow (id : Int) (code : String) (whole weight due : Value) : Row :=
  [("id", .int id), ("code", .text code), ("whole_code", whole), ("weight", weight), ("due", due)]

def wheel : String := "3b241101-e2bb-4255-8caf-4136c566a962"

def frame : String := "9f8b6c52-0d1a-4d0e-a3e7-5d0f4a1b2c3d"

def partsRegistry : Registry Fetcher := ⟨[part], [("part", .table)]⟩

def partsSession (rows : List Row) : Session Store :=
  .start
    { fields := [("parts", part.fields)], tables := [("parts", rows)], sequences := [], journal := [],
      inTransaction := false, commits := 0, rollbacks := 0 }

def countField : Field :=
  { name := "count", column := "count", declared := "i8", type := .integer .i8, nullable := false, unique := false,
    primaryKey := false, generated := false, converter := none }

/-- Counters of one byte. -/
def counter : Entity :=
  { name := "Counter", table := "counters", primaryKey := idField, fields := [idField, countField], relations := [],
    foreignKeyFields := [], foreignKeyTypes := [] }

def counterDeclared : Record EntityDeclaration :=
  [("counter", ⟨.text "Counter", .text "counters",
    [("id", { FieldDeclaration.ofType "i32" with primaryKey := true, generated := true }), ("count", .ofType "i8")], []⟩)]

def counterClient : Client Fetcher := ⟨⟨[counter]⟩, ⟨[counter], [("counter", .table)]⟩, [("counter", counter)]⟩

theorem declaredCompiled {φ : Type} {fetcher : Entity → φ} {declared : Record EntityDeclaration} {schema : Schema}
    (free : declared.names.find? Client.isReserved = none) (compiled : Schema.compile declared.values = .ok schema) :
    Client.ofDeclarations fetcher declared = (do
      let registry ← (Registry.ofSchema schema).mapError Failure.schema
      let registry := schema.entities.foldl (fun r e => r.registerFetcher e.name (fetcher e)) registry
      let entities ← declared.mapM fun (key, d) => do return (key, ← registry.needed d.name)
      return ⟨schema, registry, entities⟩) := by
  unfold Client.ofDeclarations
  rw [free]
  dsimp only
  rw [compiled]
  rfl

theorem counterMade : Client.ofDeclarations (fun _ => Fetcher.table) counterDeclared = .ok counterClient := by
  rw [declaredCompiled (by simp [counterDeclared, Record.names, Client.isReserved])
    (show Schema.compile (Record.values counterDeclared) = .ok counterClient.schema from rfl)]
  rfl

def counting (data : Row) : Operation := ⟨counter, .pooled, false, .create ⟨data, [], []⟩⟩

/-- All counters are raised. -/
def raising (n : Int) : Operation :=
  ⟨counter, .pooled, false, .updateMany [] [⟨"count", .arithmetic .increment, .int n⟩]⟩

def totalField : Field :=
  { name := "total", column := "count", declared := "i16", type := .integer .i16, nullable := false, unique := false,
    primaryKey := false, generated := false, converter := none }

/-- Counters whose totals are stored with their counts. -/
def meter : Entity :=
  { name := "Meter", table := "meters", primaryKey := idField, fields := [idField, countField, totalField], relations := [],
    foreignKeyFields := [], foreignKeyTypes := [] }

def meterDeclared : Record EntityDeclaration :=
  [("meter", ⟨.text "Meter", .text "meters",
    [("id", { FieldDeclaration.ofType "i32" with primaryKey := true, generated := true }), ("count", .ofType "i8"),
      ("total", { FieldDeclaration.ofType "i16" with columnName := some "count" })], []⟩)]

def meterClient : Client Fetcher := ⟨⟨[meter]⟩, ⟨[meter], [("meter", .table)]⟩, [("meter", meter)]⟩

theorem meterMade : Client.ofDeclarations (fun _ => Fetcher.table) meterDeclared = .ok meterClient := by
  rw [declaredCompiled (by simp [meterDeclared, Record.names, Client.isReserved])
    (show Schema.compile (Record.values meterDeclared) = .ok meterClient.schema from rfl)]
  rfl

theorem isRow (id : Int) {name lead : Value} (named : nameField.Holds name) (led : leadField.Holds lead) :
    user.IsRow (row id name lead) := by
  refine Entity.isRowOfPairs ?_
  have numbered : idField.Holds (.int id) := .inr rfl
  intro column v mem
  simp only [row, List.mem_cons, List.not_mem_nil, or_false, Prod.mk.injEq] at mem
  rcases mem with ⟨rfl, rfl⟩ | ⟨rfl, rfl⟩ | ⟨rfl, rfl⟩
  · exact ⟨⟨idField, by simp [user], rfl⟩, by simp [user, numbered, nameField, leadField]⟩
  · exact ⟨⟨nameField, by simp [user], rfl⟩, by simp [user, named, idField, leadField]⟩
  · exact ⟨⟨leadField, by simp [user], rfl⟩, by simp [user, led, idField, nameField]⟩

theorem described {φ : Type} : (registry : Registry φ).Describes tables := by
  intro e mem
  obtain rfl := List.mem_singleton.mp mem
  refine ⟨[ann, bob, unnamed], rfl, ?_⟩
  intro row mem
  simp only [List.mem_cons, List.not_mem_nil, or_false] at mem
  rcases mem with rfl | rfl | rfl
  · exact isRow 1 (.inr rfl) (.inl rfl)
  · exact isRow 2 (.inr rfl) (.inr rfl)
  · exact isRow 3 (.inl rfl) (.inr rfl)

end EntityQuery.Sample
