import EntityQuery.Proofs.FragmentTokens
import EntityQuery.Proofs.Placeholders
import EntityQuery.Proofs.Rows
import EntityQuery.Sql.Text
import Mathlib.Data.List.Nodup
/-! The text of an insert gives every row its own values. Its columns are those of all rows, and each row has a tuple with
a cell for each column, so the rows can be read back from the text and its parameters. -/

namespace EntityQuery

namespace Sql

/-- The columns of rows: each one once, in the order in which they first appear. -/
structure Union (rows : List Row) (columns : List String) : Prop where
  covers : ∀ c, c ∈ columns ↔ ∃ row ∈ rows, c ∈ Record.names row
  once : columns.Nodup
  ordered : columns.Pairwise fun a b => (rows.flatMap Record.names).idxOf a < (rows.flatMap Record.names).idxOf b

section Columns

variable {rows : List Row} {columns : List String} {row : Row}

theorem idxOfFilter {p : String → Bool} {names : List String} {a b : String} (ha : p a) (hb : p b)
    (before : (names.filter p).idxOf a < (names.filter p).idxOf b) : names.idxOf a < names.idxOf b := by
  induction names with
  | nil => exact before
  | cons name rest ih =>
    by_cases kept : p name
    · rw [List.filter_cons_of_pos kept] at before
      simp only [List.idxOf_cons] at before ⊢
      grind
    · rw [List.filter_cons_of_neg kept] at before
      have apart {c : String} (there : p c) : (name == c) = false := beq_eq_false_iff_ne.mpr fun same => kept (same ▸ there)
      simp only [List.idxOf_cons, apart ha, apart hb, cond_false]
      exact Nat.add_lt_add_right (ih before) 1

/-- By induction on the length: the first name stands before all that differ from it. -/
theorem firstsOrdered (names : List String) : names.eraseDups.Pairwise fun a b => names.idxOf a < names.idxOf b := by
  induction measured : names.length using Nat.strongRecOn generalizing names with
  | _ len ih =>
    cases names with
    | nil => exact .nil
    | cons name rest =>
      have shorter : (rest.filter fun other => !other == name).length < len := by
        have := List.length_filter_le (fun other => !other == name) rest
        rw [List.length_cons] at measured
        omega
      have apart {c : String} (mem : c ∈ (rest.filter fun other => !other == name).eraseDups) : (!c == name) = true :=
        (List.mem_filter.mp (List.mem_eraseDups.mp mem)).2
      rw [List.eraseDups_cons, List.pairwise_cons]
      refine ⟨fun c mem => ?_, (ih _ shorter _ rfl).imp_of_mem fun ha hb before => ?_⟩
      · have other := apart mem
        grind
      · have later := idxOfFilter (apart ha) (apart hb) before
        have := apart ha
        have := apart hb
        grind

theorem columnsUnion (rows : List Row) : Union rows (columnsOf rows) where
  covers c := by simp [columnsOf]
  once := (firstsOrdered _).imp fun before same => by simp [same] at before
  ordered := firstsOrdered _

/-- The members that the cells of a tuple give under its columns. -/
def rowOf (columns : List String) (cells : List (Option Value)) : Row :=
  (columns.zip cells).filterMap fun (c, cell) => cell.map (c, ·)

theorem rowOfCells (columns : List String) (row : Row) :
    rowOf columns (columns.map (Record.get? row)) = columns.filterMap fun c => (Record.get? row c).map (c, ·) := by
  unfold rowOf
  rw [← List.map_prod_left_eq_zip, List.filterMap_map]
  rfl

theorem getCells (columns : List String) (row : Row) (c : String) :
    Record.get? (rowOf columns (columns.map (Record.get? row))) c = if c ∈ columns then Record.get? row c else none := by
  rw [rowOfCells]
  induction columns with
  | nil => rfl
  | cons column rest ih =>
    by_cases own : column = c
    · subst own
      cases held : Record.get? row column with
      | none => simp [held, ih]
      | some v => simp [held, Record.get?]
    · cases held : Record.get? row column with
      | none => simp [held, ih, Ne.symm own]
      | some v => simp [held, Record.get?, own, Ne.symm own, ih]

/-- A row with its members in another order. -/
structure Reordered (row back : Row) : Prop where
  values : ∀ c, Record.get? back c = Record.get? row c
  members : (Record.names row).Nodup → back.Perm row

theorem cellsReordered (union : Union rows columns) (mem : row ∈ rows) :
    Reordered row (rowOf columns (columns.map (Record.get? row))) where
  values c := by
    rw [getCells]
    split
    · rfl
    · next outside =>
      have absent : c ∉ Record.names row := fun inside => outside ((union.covers c).mpr ⟨row, mem, inside⟩)
      rw [Record.memNames] at absent
      exact (Option.not_isSome_iff_eq_none.mp absent).symm
  members distinct := by
    rw [rowOfCells]
    have once : (columns.filterMap fun c => (Record.get? row c).map (c, ·)).Nodup := by
      refine List.Nodup.filterMap (fun a b pair left right => ?_) union.once
      simp only [Option.mem_def, Option.map_eq_some_iff] at left right
      obtain ⟨v, -, rfl⟩ := left
      obtain ⟨w, -, same⟩ := right
      exact (congrArg Prod.fst same).symm
    refine (List.perm_ext_iff_of_nodup once (List.Nodup.of_map Prod.fst distinct)).mpr fun ⟨c, v⟩ => ?_
    rw [Record.memPairs distinct]
    simp only [List.mem_filterMap, Option.map_eq_some_iff, Prod.mk.injEq]
    constructor
    · rintro ⟨_, -, _, held, rfl, rfl⟩
      exact held
    · intro held
      have inside : c ∈ Record.names row := Record.memNames.mpr (by rw [held]; rfl)
      exact ⟨c, (union.covers c).mpr ⟨row, mem, inside⟩, v, held, rfl, rfl⟩

end Columns

/-- What the text of an insert gives: the tuples have a cell for each column, and a cell without an operand is left to the
default of its column. -/
structure Inserted where
  table : String
  columns : List String
  tuples : List (List (Option Value))
  returning : List String

namespace Inserted

def rows (i : Inserted) : List Row := i.tuples.map (rowOf i.columns)

end Inserted

namespace Token

def name? : Token → Option String
  | .name s => some s
  | _ => none

def ofCell : Option Value → Token
  | some v => .operand v
  | none => .word "default"

def cell? : Token → Option (Option Value)
  | .operand v => some (some v)
  | .word "default" => some none
  | _ => none

theorem cellOf (cell : Option Value) : (ofCell cell).cell? = some cell := by
  cases cell <;> rfl

end Token

section Reading

variable {α : Type} (item : Token → Option α)

/-- The tuples of items that stand one after another, the first one being open, and the tokens after them. -/
def readTuples : List Token → Option (List (List α) × List Token)
  | t :: .mark ')' :: .mark ',' :: .mark '(' :: rest => do
    let last ← item t
    let (tuples, after) ← readTuples rest
    return ([last] :: tuples, after)
  | t :: .mark ')' :: rest => do return ([[← item t]], rest)
  | t :: .mark ',' :: rest => do
    let first ← item t
    match ← readTuples rest with
    | (tuple :: tuples, after) => return ((first :: tuple) :: tuples, after)
    | ([], _) => none
  | _ => none

/-- The names of a list, the last one ending the text. -/
def readNames : List Token → Option (List String)
  | [.name s] => some [s]
  | .name s :: .mark ',' :: rest => (readNames rest).map (s :: ·)
  | _ => none

def readReturning : List Token → Option (List String)
  | [] => some []
  | .word "returning" :: rest => readNames rest
  | _ => none

def readInsert : List Token → Option Inserted
  | .word "insert" :: .word "into" :: .name table :: .mark '(' :: rest =>
    match readTuples Token.name? rest with
    | some ([columns], .word "values" :: .mark '(' :: rest) => do
      let (tuples, rest) ← readTuples Token.cell? rest
      return ⟨table, columns, tuples, ← readReturning rest⟩
    | _ => none
  | _ => none

/-- The insert that a text with its parameters reads as. -/
def Prepared.inserted (p : Prepared) : Option Inserted :=
  (tokens p.sql).bind fun ts => readInsert (ts.map (Token.bound p.params))

end Reading

section Listed

variable {α : Type}

/-- Items with commas between them. -/
def listed (item : α → List Token) (xs : List α) : List Token := [Token.mark ','].intercalate (xs.map item)

theorem listedMore (item : α → List Token) (x y : α) (xs : List α) :
    listed item (x :: y :: xs) = item x ++ .mark ',' :: listed item (y :: xs) := by
  simp [listed, List.intercalate_cons_cons]

def tupleTokens (item : α → Token) (tuple : List α) : List Token :=
  .mark '(' :: listed (fun a => [item a]) tuple ++ [.mark ')']

variable {token : α → Token} {item : Token → Option α} {rest after : List Token} {tuples : List (List α)}

/-- By induction on the items of the open tuple, from how its last one is read. -/
theorem readTuple (reads : ∀ a, item (token a) = some a)
    (last : ∀ a, readTuples item (token a :: .mark ')' :: rest) = some ([a] :: tuples, after)) (a : α) (as : List α) :
    readTuples item (listed (fun a => [token a]) (a :: as) ++ .mark ')' :: rest) = some ((a :: as) :: tuples, after) := by
  induction as generalizing a with
  | nil => exact last a
  | cons b bs ih =>
    rw [listedMore, List.append_assoc, List.singleton_append, List.cons_append]
    simp [readTuples, reads, ih]

/-- By induction on the tuples, from how the last one ends. -/
theorem readListed (reads : ∀ a, item (token a) = some a)
    (ends : ∀ a, readTuples item (token a :: .mark ')' :: rest) = some ([[a]], rest)) (tuple : List α) (tuples : List (List α))
    (filled : ∀ t ∈ tuple :: tuples, t ≠ []) :
    ∃ more, listed (tupleTokens token) (tuple :: tuples) ++ rest = .mark '(' :: more ∧
      readTuples item more = some (tuple :: tuples, rest) := by
  induction tuples generalizing tuple with
  | nil =>
    obtain ⟨a, as, rfl⟩ := List.exists_cons_of_ne_nil (filled tuple List.mem_cons_self)
    refine ⟨_, ?_, readTuple reads ends a as⟩
    simp [listed, tupleTokens]
  | cons next tuples ih =>
    obtain ⟨here, later⟩ := List.forall_mem_cons.mp filled
    obtain ⟨a, as, rfl⟩ := List.exists_cons_of_ne_nil here
    obtain ⟨more, whole, read⟩ := ih next later
    have last : ∀ a, readTuples item (token a :: .mark ')' :: .mark ',' :: .mark '(' :: more) =
        some ([a] :: next :: tuples, rest) := fun a => by simp [readTuples, reads, read]
    refine ⟨_, ?_, readTuple reads last a as⟩
    rw [listedMore, ← whole]
    simp [tupleTokens]

theorem readNamesListed (name : String) (names : List String) :
    readNames (listed (fun s => [Token.name s]) (name :: names)) = some (name :: names) := by
  induction names generalizing name with
  | nil => rfl
  | cons next names ih =>
    rw [listedMore]
    simp [readNames, ih]

end Listed

namespace Inserted

def returningTokens (names : List String) : List Token :=
  if names.isEmpty then [] else .word "returning" :: listed (fun s => [Token.name s]) names

/-- The tokens of the text of an insert. -/
def tokens (i : Inserted) : List Token :=
  [.word "insert", .word "into", .name i.table, .mark '('] ++ listed (fun c => [Token.name c]) i.columns ++
    [.mark ')', .word "values"] ++ listed (tupleTokens Token.ofCell) i.tuples ++ returningTokens i.returning

theorem readReturningTokens (names : List String) : readReturning (returningTokens names) = some names := by
  cases names with
  | nil => rfl
  | cons name names => exact readNamesListed name names

theorem endsReturning (names : List String) (cell : Option Value) :
    readTuples Token.cell? (Token.ofCell cell :: .mark ')' :: returningTokens names) = some ([[cell]], returningTokens names) := by
  cases names with
  | nil => simp [returningTokens, readTuples, Token.cellOf]
  | cons name names => simp [returningTokens, readTuples, Token.cellOf]

/-- The tokens of an insert with a column, some rows and a cell in each tuple give it back. -/
theorem readTokens (i : Inserted) (columns : i.columns ≠ []) (tuples : i.tuples ≠ []) (filled : ∀ t ∈ i.tuples, t ≠ []) :
    readInsert i.tokens = some i := by
  obtain ⟨table, columns', tuples', returning⟩ := i
  obtain ⟨c, cs, rfl⟩ := List.exists_cons_of_ne_nil columns
  obtain ⟨t, ts, rfl⟩ := List.exists_cons_of_ne_nil tuples
  obtain ⟨more, whole, read⟩ := readListed Token.cellOf (endsReturning returning) t ts filled
  have named : readTuples Token.name? (listed (fun c => [Token.name c]) (c :: cs) ++ .mark ')' :: .word "values" ::
      .mark '(' :: more) = some ([c :: cs], .word "values" :: .mark '(' :: more) :=
    readTuple (fun a => (rfl : Token.name? (Token.name a) = some a)) (fun _ => by simp [readTuples, Token.name?]) c cs
  have text : tokens ⟨table, c :: cs, t :: ts, returning⟩ =
      .word "insert" :: .word "into" :: .name table :: .mark '(' ::
        (listed (fun c => [Token.name c]) (c :: cs) ++ .mark ')' :: .word "values" :: .mark '(' :: more) := by
    simp [tokens, whole]
  rw [text]
  simp [readInsert, named, read, readReturningTokens]

end Inserted

namespace Fragment

variable {a b f : Fragment} {s : String}

theorem spellsListed {α : Type} {x : α → Fragment} {item : α → List Token} (each : ∀ a, (x a).Spells (item a)) (xs : List α) :
    (join ", " (xs.map x)).Spells (listed item xs) :=
  spellsJoin (List.forall₂_map_left_iff.mpr (List.forall₂_map_right_iff.mpr (List.forall₂_same.mpr fun a _ => each a)))
    (by decide) (by decide)

theorem spellsNames (columns : List String) : (names columns).Spells (listed (fun c => [Token.name c]) columns) :=
  spellsListed spellsName columns

theorem spellsReturning (columns : List String) : (returning columns).Spells (Inserted.returningTokens columns) := by
  unfold returning Inserted.returningTokens
  split
  · exact spellsEmpty
  · exact spellsOpened (by decide) (spellsNames columns)

theorem breaksReturning (columns : List String) : (returning columns).Breaks := by
  unfold returning
  split
  · exact nofun
  · intro p head
    cases head
    rfl

/-- Each parameter has one placeholder, and they stand in the order of the parameters. -/
structure Serial (f : Fragment) : Prop where
  inert : ∀ p ∈ f.pieces, p.inert
  ordered : f.indices = List.range f.params.length

theorem placeholdersSerial (serial : f.Serial) : placeholders f.prepare.sql = List.range' 1 f.prepare.params.length := by
  unfold prepare
  dsimp only
  rw [placeholdersIndices serial.inert, serial.ordered, List.range'_eq_map_range]

theorem serialAppend (first : a.Serial) (second : b.Serial) : (a ++ b).Serial where
  inert := inertAppend first.inert second.inert
  ordered := by rw [indicesAppend, first.ordered, second.ordered, append_params, List.length_append, List.range_add]

theorem serialEmpty : empty.Serial := ⟨nofun, rfl⟩

theorem serialWords (inert : (Piece.words s).inert) : (words s).Serial := ⟨by simpa [words] using inert, rfl⟩

theorem serialName (s : String) : (name s).Serial := ⟨by simp [name, Piece.inert], rfl⟩

theorem serialBind (v : Value) : (bind v).Serial := ⟨by simp [bind, Piece.inert], rfl⟩

theorem serialJoin {fs : List Fragment} (each : ∀ f ∈ fs, f.Serial) (inert : (Piece.words s).inert) : (join s fs).Serial := by
  induction fs with
  | nil => exact serialEmpty
  | cons f rest ih =>
    obtain ⟨here, later⟩ := List.forall_mem_cons.mp each
    cases rest with
    | nil => exact here
    | cons g rest => exact serialAppend (serialAppend here (serialWords inert)) (ih later)

theorem serialNames (columns : List String) : (names columns).Serial :=
  serialJoin (List.forall_mem_map.mpr fun c _ => serialName c) (by decide)

theorem serialReturning (columns : List String) : (returning columns).Serial := by
  unfold returning
  split
  · exact serialEmpty
  · exact serialAppend (serialWords (by decide)) (serialNames columns)

theorem paramsJoin (fs : List Fragment) : (join s fs).params = fs.flatMap (·.params) := by
  induction fs with
  | nil => rfl
  | cons f rest ih =>
    cases rest with
    | nil => simp [join]
    | cons g rest =>
      have unfolded : join s (f :: g :: rest) = f ++ words s ++ join s (g :: rest) := rfl
      rw [unfolded, append_params, append_params, ih]
      simp [words]

theorem paramsNames (columns : List String) : (names columns).params = [] := by
  simp [names, paramsJoin, name]

theorem paramsReturning (columns : List String) : (returning columns).params = [] := by
  unfold returning
  split
  · rfl
  · exact paramsNames columns

end Fragment

namespace Inserted

open Fragment

def cellText : Option Value → Fragment
  | some v => .bind v
  | none => words "DEFAULT"

def tupleText (cells : List (Option Value)) : Fragment := words "(" ++ .join ", " (cells.map cellText) ++ words ")"

def text (i : Inserted) : Fragment :=
  words "INSERT INTO " ++ name i.table ++ words " (" ++ names i.columns ++ words ") VALUES " ++
    .join ", " (i.tuples.map tupleText) ++ Sql.returning i.returning

theorem spellsTuple (cells : List (Option Value)) : (tupleText cells).Spells (tupleTokens Token.ofCell cells) := by
  have each : ∀ cell, (cellText cell).Spells [Token.ofCell cell]
    | some v => spellsBind v
    | none => spellsWords (by decide)
  exact spellsEnded (spellsOpened (by decide) (spellsListed each cells)) (by decide)

theorem spellsText (i : Inserted) : i.text.Spells i.tokens := by
  have head := spellsOpened (s := "INSERT INTO ") (by decide) (spellsName i.table)
  have columns := spellsParted (s := " (") head (by decide) (by decide) (spellsNames i.columns)
  have tuples := spellsParted (s := ") VALUES ") columns (by decide) (by decide) (spellsListed spellsTuple i.tuples)
  exact spellsAppend tuples (spellsReturning i.returning) (.inr (breaksReturning i.returning))

theorem serialTuple (cells : List (Option Value)) : (tupleText cells).Serial := by
  have each : ∀ cell, (cellText cell).Serial
    | some v => serialBind v
    | none => serialWords (by decide)
  have joined := serialJoin (s := ", ") (List.forall_mem_map.mpr fun cell (_ : cell ∈ cells) => each cell) (by decide)
  exact serialAppend (serialAppend (serialWords (by decide)) joined) (serialWords (by decide))

theorem serialText (i : Inserted) : i.text.Serial := by
  have head := serialAppend (serialAppend (serialWords (s := "INSERT INTO ") (by decide)) (serialName i.table))
    (serialWords (s := " (") (by decide))
  have columns := serialAppend (serialAppend head (serialNames i.columns)) (serialWords (s := ") VALUES ") (by decide))
  have tuples := serialJoin (s := ", ") (List.forall_mem_map.mpr fun cells (_ : cells ∈ i.tuples) => serialTuple cells) (by decide)
  exact serialAppend (serialAppend columns tuples) (serialReturning i.returning)

theorem paramsTuple (cells : List (Option Value)) : (tupleText cells).params = cells.filterMap id := by
  have each : ∀ cell, (cellText cell).params = cell.toList
    | some _ => rfl
    | none => rfl
  simp [tupleText, words, paramsJoin, List.flatMap_map, each, List.filterMap_eq_flatMap_toList]

theorem paramsText (i : Inserted) : i.text.params = i.tuples.flatten.filterMap id := by
  have tuples : (Fragment.join ", " (i.tuples.map tupleText)).params = i.tuples.flatten.filterMap id := by
    rw [paramsJoin, List.flatMap_map, funext paramsTuple, List.filterMap_flatten]
    rfl
  simp [text, words, name, paramsNames, paramsReturning, tuples]

/-- What the rows of an insert are written as. -/
def ofInsert (s : Insert) : Inserted :=
  let columns := columnsOf s.rows
  ⟨s.table, columns, s.rows.map fun row => columns.map (Record.get? row), s.returning⟩

theorem tupleCells (columns : List String) (row : Row) : tuple columns row = tupleText (columns.map (Record.get? row)) := by
  unfold tuple tupleText
  rw [List.map_map]
  refine congrArg (fun cells => words "(" ++ .join ", " cells ++ words ")") (List.map_congr_left fun c _ => ?_)
  unfold Function.comp cellText
  cases Record.get? row c <;> rfl

theorem insertText {s : Insert} (some : columnsOf s.rows ≠ []) : Sql.insert s = .ok (ofInsert s).text.prepare := by
  unfold Sql.insert
  dsimp only
  rw [if_neg (by simpa using some), text, ofInsert, List.map_map, funext (tupleCells (columnsOf s.rows))]
  rfl

theorem readText (i : Inserted) (columns : i.columns ≠ []) (tuples : i.tuples ≠ []) (filled : ∀ t ∈ i.tuples, t ≠ []) :
    i.text.prepare.inserted = some i := by
  obtain ⟨sound, spelled⟩ := spellsText i
  have bound := Fragment.readText sound
  rw [spelled] at bound
  obtain ⟨ts, read, bound⟩ := Option.map_eq_some_iff.mp bound
  simp only [Prepared.inserted, Fragment.prepare, read, Option.bind_some, bound]
  exact readTokens i columns tuples filled

end Inserted

open Inserted (ofInsert insertText readText serialText paramsText)

/-- An insert with a column among its rows is written as the columns of all rows and one tuple for each row, where each
value of a row is the parameter of the cell under its own column. The rows are read back from the text with its
parameters. -/
theorem insertAligned (s : Insert) (filled : ∃ row ∈ s.rows, row ≠ []) :
    ∃ p i, insert s = .ok p ∧ p.inserted = some i ∧ i.table = s.table ∧ i.returning = s.returning ∧
      Union s.rows i.columns ∧ i.tuples = s.rows.map (fun row => i.columns.map (Record.get? row)) ∧
      placeholders p.sql = List.range' 1 p.params.length ∧ p.params = i.tuples.flatten.filterMap id ∧
      List.Forall₂ Reordered s.rows i.rows := by
  obtain ⟨row, mem, some⟩ := filled
  have union := columnsUnion s.rows
  obtain ⟨pair, rest, rfl⟩ := List.exists_cons_of_ne_nil some
  have named : pair.1 ∈ columnsOf s.rows := (union.covers _).mpr ⟨_, mem, List.mem_cons_self⟩
  have columns : columnsOf s.rows ≠ [] := List.ne_nil_of_mem named
  have tuples : (ofInsert s).tuples ≠ [] := by simpa [ofInsert] using List.ne_nil_of_mem mem
  have cells : ∀ t ∈ (ofInsert s).tuples, t ≠ [] := by simp [ofInsert, columns]
  have numbered := Fragment.placeholdersSerial (serialText (ofInsert s))
  have rows : (ofInsert s).rows = s.rows.map fun row => rowOf (columnsOf s.rows) ((columnsOf s.rows).map (Record.get? row)) := by
    simp [Inserted.rows, ofInsert, Function.comp_def]
  refine ⟨(ofInsert s).text.prepare, ofInsert s, insertText columns, readText _ columns tuples cells, rfl, rfl, union, rfl,
    numbered, paramsText (ofInsert s), ?_⟩
  rw [rows, List.forall₂_map_right_iff, List.forall₂_same]
  exact fun row mem => cellsReordered union mem

/-- Rows whose columns differ and stand in different orders, one of them without any. -/
def mixedRows : Insert :=
  ⟨"users", [[("name", .text "Ann"), ("$1", .int 2)], [], [("role", .null), ("name", .text "Bob")]], ["id"]⟩

theorem mixedRowsAligned : (∃ row ∈ mixedRows.rows, row ≠ []) ∧ ∃ p i, insert mixedRows = .ok p ∧ p.inserted = some i ∧
    p.sql = "INSERT INTO \"users\" (\"name\", \"$1\", \"role\") VALUES ($1, $2, DEFAULT), (DEFAULT, DEFAULT, DEFAULT), " ++
      "($3, DEFAULT, $4) RETURNING \"id\"" ∧
    placeholders p.sql = [1, 2, 3, 4] ∧ List.Forall₂ Reordered mixedRows.rows i.rows := by
  have filled : ∃ row ∈ mixedRows.rows, row ≠ [] := ⟨_, List.mem_cons_self, by simp⟩
  obtain ⟨p, i, made, read, -, -, -, -, numbered, -, rows⟩ := insertAligned mixedRows filled
  cases made
  exact ⟨filled, _, i, rfl, read, rfl, numbered, rows⟩

end Sql

end EntityQuery
