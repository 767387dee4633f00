import EntityQuery.Proofs.JoinedParts
import EntityQuery.Proofs.Results
import EntityQuery.Proofs.ValueTexts
import EntityQuery.Window
/-! The rows that a window keeps for the fields it names: each row that no earlier one equals. Rows are told apart by the
texts of their fields joined by bars, so no two fields may have texts that go on as another field would. -/

namespace EntityQuery.Window

/-- Rows of equal values in all the fields. -/
def Agree (names : List String) (r s : Row) : Prop := ∀ name ∈ names, (Row.value r name).exact = (Row.value s name).exact

/-- The rows that are kept after earlier ones: those that no earlier row equals, kept or not. -/
inductive Firsts (same : Row → Row → Prop) : List Row → List Row → List Row → Prop where
  | nil {earlier : List Row} : Firsts same earlier [] []
  | kept {earlier rows kept : List Row} {row : Row} (fresh : ∀ r ∈ earlier, ¬ same r row)
      (rest : Firsts same (earlier ++ [row]) rows kept) : Firsts same earlier (row :: rows) (row :: kept)
  | dropped {earlier rows kept : List Row} {row : Row} (seen : ∃ r ∈ earlier, same r row)
      (rest : Firsts same (earlier ++ [row]) rows kept) : Firsts same earlier (row :: rows) kept

/-- Does a text start as the text of a value does? -/
def isTagged : List Char → Bool
  | c :: d :: _ => d == ':' && ['n', 'd', 's', 'b', 'j'].contains c
  | _ => false

/-- Rows of plain values in fields of which at most one has texts with a bar before the start of another text. -/
structure ToldApart (names : List String) (rows : List Row) : Prop where
  plain : ∀ row ∈ rows, ∀ name ∈ names, (Row.value row name).IsPlain
  near : ∀ r ∈ rows, ∀ s ∈ rows, ∀ name ∈ names, ¬ Value.Strays (Row.value r name) (Row.value s name)
  undivided : ∃ before free after, names = before ++ free :: after ∧
    ∀ row ∈ rows, ∀ name ∈ before ++ after, ¬ Text.Divides isTagged (Row.value row name).groupChars

section Texts

variable {names : List String} {rows : List Row} {r s row : Row}

theorem groupTagged (v : Value) : isTagged (Text.headOf v.groupChars) := by
  unfold Value.groupChars
  cases v <;> rfl

/-- The text by which a row is known. -/
def rowText (names : List String) (row : Row) : String :=
  String.ofList (Text.barred (names.map fun name => (Row.value row name).groupChars))

theorem distinctWritten (plain : ∀ name ∈ names, (Row.value row name).IsPlain) :
    distinctText (names.map .text) row = .ok (rowText names row) := by
  have written : (names.map Value.text).mapM (fun name => do (Row.value row (← name.display)).groupText) =
      .ok (names.map fun name => String.ofList (Row.value row name).groupChars) := by
    rw [List.mapM_map]
    exact Results.mapAllOk fun name mem => Value.groupWritten (plain name mem)
  unfold distinctText rowText
  rw [written]
  show Except.ok _ = Except.ok _
  rw [Except.ok.injEq, ← String.toList_inj, String.toList_intercalate, String.toList_ofList, List.map_map]
  simp only [Function.comp_def, String.toList_ofList]
  rfl

/-- Rows of one text are those of equal values. -/
theorem textsAgree (told : ToldApart names rows) (hr : r ∈ rows) (hs : s ∈ rows) :
    rowText names r = rowText names s ↔ Agree names r s := by
  have values {name : String} (mem : name ∈ names) : (Row.value r name).groupChars = (Row.value s name).groupChars ↔
      (Row.value r name).exact = (Row.value s name).exact :=
    Value.groupOnce (told.plain r hr name mem) (told.plain s hs name mem) (told.near r hr s hs name mem)
  unfold rowText Agree
  rw [String.ofList_inj]
  constructor
  · intro same
    obtain ⟨before, free, after, rfl, undivided⟩ := told.undivided
    have each := Text.barredOnce (fun name _ => groupTagged _) (fun name _ => groupTagged _) (undivided r hr)
      (undivided s hs) same
    exact fun name mem => (values mem).mp (each name mem)
  · intro same
    exact congrArg Text.barred (List.map_congr_left fun name mem => (values mem).mpr (same name mem))

end Texts

section Kept

variable {names : List String} {rows earlier : List Row}

/-- By induction on the rows: those of texts not seen before are those that no earlier row equals. -/
theorem firstsOf {same : Row → Row → Prop} {text : Row → String} {seen : List String}
    (told : ∀ r ∈ earlier ++ rows, ∀ s ∈ earlier ++ rows, text r = text s ↔ same r s)
    (known : ∀ t, t ∈ seen ↔ ∃ r ∈ earlier, text r = t) :
    Firsts same earlier rows (firstOfEach seen (rows.map fun row => (text row, row))) := by
  induction rows generalizing earlier seen with
  | nil => exact .nil
  | cons row rows ih =>
    have here : row ∈ earlier ++ row :: rows := List.mem_append_right _ List.mem_cons_self
    have before {r : Row} (mem : r ∈ earlier) : text r = text row ↔ same r row := told r (List.mem_append_left _ mem) row here
    have shifted : earlier ++ row :: rows = (earlier ++ [row]) ++ rows := by simp
    rw [shifted] at told
    rw [List.map_cons, firstOfEach]
    split
    · next old =>
      obtain ⟨r, mem, equal⟩ := (known _).mp old
      refine .dropped ⟨r, mem, (before mem).mp equal⟩ (ih told fun t => ?_)
      rw [known]
      simp only [List.mem_append, List.mem_singleton, or_and_right, exists_or, exists_eq_left]
      exact ⟨.inl, fun either => either.elim id fun same => ⟨r, mem, equal.trans same⟩⟩
    · next fresh =>
      refine .kept (fun r mem equal => fresh ((known _).mpr ⟨r, mem, (before mem).mpr equal⟩)) (ih told fun t => ?_)
      rw [List.mem_cons, known]
      simp only [List.mem_append, List.mem_singleton, or_and_right, exists_or, exists_eq_left]
      rw [or_comm, eq_comm]

/-- A window cuts its page from the rows that no earlier row equals in the fields it keeps distinct. -/
theorem firstRowsKept {w : Window} (distinct : w.distinct = names.map .text) (told : ToldApart names rows) :
    ∃ kept, Firsts (Agree names) [] rows kept ∧ w.apply rows = w.page kept := by
  have some : w.distinct.isEmpty = false := by
    obtain ⟨before, free, after, rfl, -⟩ := told.undivided
    rw [distinct]
    simp
  have keyed : (rows.mapM fun row => do return (← distinctText w.distinct row, row)) =
      .ok (rows.map fun row => (rowText names row, row)) := by
    refine Results.mapAllOk fun row mem => ?_
    rw [distinct, distinctWritten (told.plain row mem)]
    rfl
  refine ⟨firstOfEach [] (rows.map fun row => (rowText names row, row)),
    firstsOf (fun r hr s hs => textsAgree told hr hs) (by simp), ?_⟩
  unfold apply distinctRows
  rw [some, if_neg Bool.false_ne_true, keyed]
  rfl

/-- Rows with bars in one field, and one value as a number and as an exact integer in the other. -/
def barRows : List Row :=
  [[("a", .text "x|n:1"), ("b", .int 1)], [("a", .text "x"), ("b", .integer 1)], [("a", .text "x"), ("b", .int 1)]]

theorem barRowsTold : ToldApart ["a", "b"] barRows where
  plain := by
    have one : Number.IsDouble (.integer 1) := ⟨1, 0, rfl, by decide⟩
    simp [barRows, Row.value, Record.get?, Value.IsPlain, Value.int, one]
  near := by
    simp [barRows, Row.value, Record.get?, Value.Strays, Value.int, Number.integerBound]
  undivided := by
    refine ⟨[], "a", ["b"], rfl, fun row mem name known => Text.barless ?_⟩
    obtain rfl := List.mem_singleton.mp known
    revert row
    decide

theorem barRowsKept : (⟨[], .null, .null, none, [.text "a", .text "b"]⟩ : Window).distinct = ["a", "b"].map .text ∧
    ToldApart ["a", "b"] barRows ∧ ∃ kept, Firsts (Agree ["a", "b"]) [] barRows kept ∧
      (⟨[], .null, .null, none, [.text "a", .text "b"]⟩ : Window).apply barRows =
        (⟨[], .null, .null, none, [.text "a", .text "b"]⟩ : Window).page kept :=
  ⟨rfl, barRowsTold, firstRowsKept rfl barRowsTold⟩

end Kept

end EntityQuery.Window
