import EntityQuery.Proofs.Insertions
/-! What statements that succeed leave true of a table. One that is about another table leaves its rows as they are,
every one leaves the values of a primary key or a unique column distinct, and one that neither deletes rows nor assigns
to a unique column leaves a row in its place that can be told from the others by that column. -/

namespace EntityQuery.Store

variable {table other : String} {kept fields : List Field}

/-- The columns of all tables stay, and what holds of the rows of one table with certain fields still does. -/
def Stays (table : String) (fields : List Field) (Q : List Row → Prop) (c d : List (String × List Field) × Tables) : Prop :=
  d.1 = c.1 ∧ (Record.get? c.1 table = some fields → ∀ rows, Record.get? c.2 table = some rows → Q rows →
    ∃ next, Record.get? d.2 table = some next ∧ Q next)

variable {Q : List Row → Prop}

instance : IsPreorder _ (Stays table fields Q) where
  refl _ := ⟨rfl, fun _ rows there holds => ⟨rows, there, holds⟩⟩
  trans c d _ := fun ⟨columns, first⟩ ⟨columns', second⟩ => by
    refine ⟨columns'.trans columns, fun known rows there holds => ?_⟩
    obtain ⟨next, found, still⟩ := first known rows there holds
    exact second (columns ▸ known) next found still

theorem staysReplaced {s t : Store} {columns : List Field} {stored next : List Row} (known : s.fieldsOf other = .ok columns)
    (there : Record.get? s.tables other = some stored)
    (content : t.content = (s.fields, Record.replace s.tables other next))
    (stays : other = table → columns = fields → Q stored → Q next) : Stays table fields Q s.content t.content := by
  rw [content]
  refine ⟨rfl, fun named rows found holds => ?_⟩
  by_cases same : other = table
  · subst same
    obtain rfl : stored = rows := Option.some.inj (there.symm.trans found)
    refine ⟨next, Record.get?_replace ?_, stays rfl (Option.some.inj ((fieldsOfOk known).symm.trans named)) holds⟩
    rw [there]
    rfl
  · exact ⟨rows, (Record.get?_replace_of_ne (Ne.symm same)).trans found, holds⟩

theorem staysDistinct (sub : kept ⊆ fields) (q : WriteStatement) : Admits (Stays table fields (Distinct kept)) q := by
  intro s t w ran
  cases q with
  | insert q =>
    obtain ⟨columns, stored, made, known, there, content, stays⟩ := insertDone ran
    refine staysReplaced known there content ?_
    rintro - rfl
    exact stays (Distinct kept) fun _ _ apart checked => distinctAdded sub apart checked
  | update q =>
    obtain ⟨columns, stored, known, there, -, content, stays, -⟩ := updateDone ran
    refine staysReplaced known there content ?_
    rintro - rfl
    exact stays kept sub
  | delete q =>
    obtain ⟨columns, stored, known, there, -, content⟩ := deleteDone ran
    exact staysReplaced known there content fun _ _ distinct => List.Pairwise.sublist List.filter_sublist distinct

section Singled

variable {column : String} {w : Value} {place : Nat}

/-- The row at a place holds a value in a column, and each of the other rows holds one that can be told from it. -/
def Singled (column : String) (w : Value) (place : Nat) (rows : List Row) : Prop :=
  ∃ before row after, rows = before ++ row :: after ∧ before.length = place ∧ Row.value row column = w ∧
    ∀ other ∈ before ++ after, equals (Row.value other column) w = .ok false

theorem clashesEquals {row other : Row} {f : Field} (apart : clashes row other f = .ok false) :
    equals (Row.value other f.column) (Row.value row f.column) = .ok false ∧
      equals (Row.value row f.column) (Row.value other f.column) = .ok false := by
  unfold clashes at apart
  unfold equals
  dsimp only at apart
  rw [Bool.or_comm (Row.value other f.column).isNothing]
  split at apart
  · rename_i missing
    rw [if_pos missing, if_pos missing]
    exact ⟨rfl, rfl⟩
  · rename_i there
    rw [if_neg there, if_neg there]
    exact ⟨apart, sameSymm apart⟩

theorem singledChecked {fields : List Field} {f : Field} {rows : List Row} {row : Row} (mem : f ∈ fields) (unique : f.unique)
    (checked : checkUnique table fields row rows = .ok ()) : Singled f.column (Row.value row f.column) rows.length (rows ++ [row]) := by
  refine ⟨rows, row, [], rfl, rfl, rfl, fun other inside => ?_⟩
  rw [List.append_nil] at inside
  refine (clashesEquals (checkedApart checked other inside f mem ?_)).1
  rw [unique, Bool.or_true]

theorem singledAdded {fields : List Field} {f : Field} {rows : List Row} {row : Row} (mem : f ∈ fields) (unique : f.unique)
    (singled : Singled f.column w place rows) (checked : checkUnique table fields row rows = .ok ()) :
    Singled f.column w place (rows ++ [row]) := by
  obtain ⟨before, held, after, rfl, placed, rfl, apart⟩ := singled
  refine ⟨before, held, after ++ [row], by simp, placed, rfl, fun other inside => ?_⟩
  rw [← List.append_assoc, List.mem_append, List.mem_singleton] at inside
  rcases inside with old | rfl
  · exact apart other old
  · refine (clashesEquals (checkedApart checked held (by simp) f mem ?_)).2
    rw [unique, Bool.or_true]

theorem singledMapped {rows : List Row} {next : Row → Row} (singled : Singled column w place rows)
    (same : ∀ row, Row.value (next row) column = Row.value row column) : Singled column w place (rows.map next) := by
  obtain ⟨before, held, after, rfl, placed, rfl, apart⟩ := singled
  refine ⟨before.map next, next held, after.map next, by simp, by simpa, same held, fun other inside => ?_⟩
  rw [← List.map_append] at inside
  obtain ⟨row, old, rfl⟩ := List.mem_map.mp inside
  rw [same]
  exact apart row old

theorem assignedOther {fields : List Field} {assignments : List Assignment} (before row : Row)
    (other : ∀ a ∈ assignments, a.column ≠ column) :
    Row.value (assignAll table fields before assignments row).2 column = Row.value row column := by
  induction assignments generalizing row with
  | nil => rfl
  | cons a rest ih =>
    obtain ⟨here, later⟩ := List.forall_mem_cons.mp other
    unfold assignAll
    split
    · rfl
    · exact (ih _ later).trans (Row.valuePutOther row _ here.symm)

end Singled

end EntityQuery.Store

namespace EntityQuery.WriteStatement

/-- Does a statement leave the values that rows hold in a column, and the rows themselves? -/
def Spares (column : String) : WriteStatement → Prop
  | insert _ => True
  | update q => ∀ a ∈ q.assignments, a.column ≠ column
  | delete _ => False

end EntityQuery.WriteStatement

namespace EntityQuery.Store

variable {table : String} {fields : List Field} {f : Field} {w : Value} {place : Nat}

theorem staysSingled (mem : f ∈ fields) (unique : f.unique) {q : WriteStatement} (spares : q.table = table → q.Spares f.column) :
    Admits (Stays table fields (Singled f.column w place)) q := by
  intro s t answer ran
  cases q with
  | insert q =>
    obtain ⟨columns, stored, made, known, there, content, stays⟩ := insertDone ran
    refine staysReplaced known there content ?_
    rintro - rfl
    exact stays _ fun _ _ singled checked => singledAdded mem unique singled checked
  | update q =>
    obtain ⟨columns, stored, known, there, -, content, -, -⟩ := updateDone ran
    refine staysReplaced known there content fun same _ singled => singledMapped singled fun row => ?_
    unfold updatedRow
    split
    · exact assignedOther row row (spares same)
    · rfl
  | delete q =>
    obtain ⟨columns, stored, known, there, -, content⟩ := deleteDone ran
    exact staysReplaced known there content fun same => (spares same).elim

theorem staysPlaced {row : Row} {q : WriteStatement} (inserts : q.table = table → ∃ i, q = .insert i) :
    Admits (Stays table fields fun rows => rows[place]? = some row) q := by
  intro s t answer ran
  cases q with
  | insert q =>
    obtain ⟨columns, stored, made, known, there, content, -⟩ := insertDone ran
    refine staysReplaced known there content fun _ _ placed => ?_
    rw [List.getElem?_append_left (List.getElem?_eq_some_iff.mp placed).1, placed]
  | update q =>
    obtain ⟨columns, stored, known, there, -, content, -, -⟩ := updateDone ran
    refine staysReplaced known there content fun same => ?_
    obtain ⟨_, other⟩ := inserts same
    cases other
  | delete q =>
    obtain ⟨columns, stored, known, there, -, content⟩ := deleteDone ran
    refine staysReplaced known there content fun same => ?_
    obtain ⟨_, other⟩ := inserts same
    cases other

/-- A row keeps its place among the rows before it and can be told from all others when rows are added. -/
theorem staysApart {before : List Row} {row : Row} {q : WriteStatement} (inserts : q.table = table → ∃ i, q = .insert i) :
    Admits (Stays table fields fun rows => ∃ after, rows = before ++ row :: after ∧
      checkUnique table fields row (before ++ after) = .ok ()) q := by
  intro s t answer ran
  cases q with
  | insert q =>
    obtain ⟨columns, stored, made, known, there, content, stays⟩ := insertDone ran
    refine staysReplaced known there content ?_
    rintro rfl rfl
    refine stays (fun rows => ∃ after, rows = before ++ row :: after ∧
      checkUnique q.table columns row (before ++ after) = .ok ()) fun rows added held checked => ?_
    obtain ⟨after, listed, apart⟩ := held
    refine ⟨after ++ [added], by simp [listed], ?_⟩
    refine checkedOf fun other mem f inside unique => ?_
    rw [← List.append_assoc, List.mem_append, List.mem_singleton] at mem
    rcases mem with old | rfl
    · exact checkedApart apart other old f inside unique
    · exact clashesSymm (checkedApart checked row (by simp [listed]) f inside unique)
  | update q =>
    obtain ⟨columns, stored, known, there, -, content, -, -⟩ := updateDone ran
    refine staysReplaced known there content fun same => ?_
    obtain ⟨_, other⟩ := inserts same
    cases other
  | delete q =>
    obtain ⟨columns, stored, known, there, -, content⟩ := deleteDone ran
    refine staysReplaced known there content fun same => ?_
    obtain ⟨_, other⟩ := inserts same
    cases other

end EntityQuery.Store
