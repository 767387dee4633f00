import EntityQuery.Proofs.CellRules
import EntityQuery.Proofs.Insertions
import EntityQuery.Proofs.IntegerRanges
/-! Keys that are generated. They are counted past the last one and past all stored ones, so that they differ from these and from
each other; nothing keeps them from the keys that other rows of the same statement are given. -/

namespace EntityQuery.Store

variable {s t u : Store} {table : String} {fields : List Field} {f : Field} {stored : List Row} {values row : Row}

/-- The last key that was generated for a table. -/
def lastKey (s : Store) (table : String) : Int := (Record.get? s.sequences table).getD 0

/-- Nothing or an integer. -/
def IsWhole (v : Value) : Prop := v.isNothing ∨ ∃ m, storedInt? v = .ok (some m)

/-- The columns of integers hold integers. -/
def HoldIntegers (fields : List Field) (rows : List Row) : Prop :=
  ∀ f ∈ fields, ∀ width, f.type = .integer width → ∀ row ∈ rows, IsWhole (Row.value row f.column)

section Counting

theorem wholeRead {v : Value} (whole : IsWhole v) : ∃ o, storedInt? v = .ok o := by
  rcases whole with nothing | ⟨m, read⟩
  · cases v with
    | absent | null => exact ⟨none, rfl⟩
    | _ => cases nothing
  · exact ⟨_, read⟩

theorem nextKeyPast {column : String} {rows : List Row} (whole : ∀ row ∈ rows, IsWhole (Row.value row column)) (last : Int) :
    ∃ n, nextKey last column rows = .ok n ∧ last < n ∧
      ∀ row ∈ rows, ∀ m, storedInt? (Row.value row column) = .ok (some m) → m < n := by
  induction rows generalizing last with
  | nil => exact ⟨last + 1, rfl, Int.lt_succ last, nofun⟩
  | cons row rest ih =>
    obtain ⟨here, later⟩ := List.forall_mem_cons.mp whole
    obtain ⟨o, read⟩ := wholeRead here
    unfold nextKey at ih ⊢
    cases o with
    | none =>
      obtain ⟨n, ran, above, past⟩ := ih later last
      refine ⟨n, ?_, above, List.forall_mem_cons.mpr ⟨fun m same => ?_, past⟩⟩
      · rw [List.foldlM_cons, read]
        exact ran
      · cases read.symm.trans same
    | some k =>
      obtain ⟨n, ran, above, past⟩ := ih later (max last k)
      have next : (if last + 1 ≤ k then k + 1 else last + 1) = max last k + 1 := by split <;> omega
      refine ⟨n, ?_, by omega, List.forall_mem_cons.mpr ⟨fun m same => ?_, past⟩⟩
      · rw [List.foldlM_cons, read]
        rw [← next] at ran
        exact ran
      · cases read.symm.trans same
        omega

theorem lastPut (s : Store) (table : String) (n : Int) : lastKey { s with sequences := putEntry s.sequences table n } table = n := by
  unfold lastKey putEntry
  split
  · next there => rw [Record.get?_replace there, Option.getD_some]
  · next absent =>
    have none : Record.get? s.sequences table = none := by simpa using absent
    rw [(Record.getAppend table n s.sequences none).1, Option.getD_some]

theorem generatePast {width : IntegerType} (there : s.rowsOf table = .ok stored) (typed : f.type = .integer width)
    (whole : ∀ row ∈ stored, IsWhole (Row.value row f.column)) :
    ∃ n t, s.generate table f = .ok (width.key n, t) ∧ t.content = s.content ∧ lastKey s table < n ∧ lastKey t table = n ∧
      ∀ row ∈ stored, ∀ m, storedInt? (Row.value row f.column) = .ok (some m) → m < n := by
  obtain ⟨n, counted, above, past⟩ := nextKeyPast whole (lastKey s table)
  refine ⟨n, { s with sequences := putEntry s.sequences table n }, ?_, rfl, above, lastPut s table n, past⟩
  change nextKey ((Record.get? s.sequences table).getD 0) f.column stored = .ok n at counted
  unfold generate
  rw [typed, there]
  change (nextKey ((Record.get? s.sequences table).getD 0) f.column stored >>= _) = _
  rw [counted]
  rfl

end Counting

section Filling

/-- The values of a new row leave an integer column for the store to fill. -/
structure Leaves (fields : List Field) (values : Row) (f : Field) (width : IntegerType) : Prop where
  last : fieldAt? fields f.column = some f
  generated : f.generated
  typed : f.type = .integer width
  omitted : Record.get? values f.column = none

/-- A row has a key that was counted between two others, and past the stored ones. -/
def Takes (stored : List Row) (f : Field) (width : IntegerType) (low high : Int) (row : Row) : Prop :=
  ∃ n, Row.value row f.column = width.key n ∧ low < n ∧ n ≤ high ∧
    ∀ old ∈ stored, ∀ m, storedInt? (Row.value old f.column) = .ok (some m) → m < n

variable {width : IntegerType}

theorem Takes.widen {low high lower higher : Int} (takes : Takes stored f width low high row) (down : lower ≤ low)
    (up : high ≤ higher) : Takes stored f width lower higher row := by
  obtain ⟨n, value, above, below, past⟩ := takes
  exact ⟨n, value, by omega, by omega, past⟩

/-- A column is that of the first field or that of a later one, which then fills it. -/
theorem leavesCons {g : Field} (leaves : Leaves (f :: fields) values g width) :
    (g = f ∧ f.column ∉ fields.map (·.column)) ∨ Leaves fields values g width := by
  have found := leaves.last
  unfold fieldAt? at found
  rw [List.reverse_cons, List.find?_append] at found
  cases later : fields.reverse.find? (fun h => h.column == g.column) with
  | some h =>
    rw [later, Option.some_or] at found
    cases found
    exact .inr ⟨later, leaves.generated, leaves.typed, leaves.omitted⟩
  | none =>
    rw [later, Option.none_or, List.find?_singleton] at found
    split at found
    · cases found
      refine .inl ⟨rfl, fun mem => ?_⟩
      obtain ⟨h, inside, same⟩ := List.mem_map.mp mem
      exact List.find?_eq_none.mp later h (List.mem_reverse.mpr inside) (beq_iff_eq.mpr same)
    · cases found

theorem rowsSame (content : t.content = s.content) : t.rowsOf table = s.rowsOf table := by
  unfold rowsOf
  rw [(Prod.mk.inj content).2]

theorem fillTakes (there : s.rowsOf table = .ok stored) (holds : HoldIntegers fields stored) (values start : Row) :
    ∃ row t, fill table values fields start s = (.ok row, t) ∧ t.content = s.content ∧ lastKey s table ≤ lastKey t table ∧
      ∀ f width, Leaves fields values f width → Takes stored f width (lastKey s table) (lastKey t table) row := by
  induction fields generalizing start s with
  | nil => exact ⟨start, s, rfl, rfl, le_refl _, fun f width leaves => by cases leaves.last⟩
  | cons f rest ih =>
    obtain ⟨here, later⟩ := List.forall_mem_cons.mp holds
    have step : ∀ {v : Value} {u : Store}, u.content = s.content → lastKey s table ≤ lastKey u table →
        (∀ width, Leaves (f :: rest) values f width → ∃ n, v = width.key n ∧ lastKey s table < n ∧ n ≤ lastKey u table ∧
          ∀ old ∈ stored, ∀ m, storedInt? (Row.value old f.column) = .ok (some m) → m < n) →
        ∃ row t, fill table values rest (Record.put start f.column v) u = (.ok row, t) ∧ t.content = s.content ∧
          lastKey s table ≤ lastKey t table ∧
          ∀ g width, Leaves (f :: rest) values g width → Takes stored g width (lastKey s table) (lastKey t table) row := by
      intro v u same on counted
      obtain ⟨row, t, ran, content, up, takes⟩ := ih ((rowsSame same).trans there) later (Record.put start f.column v)
      refine ⟨row, t, ran, content.trans same, on.trans up, fun g width leaves => ?_⟩
      rcases leavesCons leaves with ⟨rfl, last⟩ | among
      · obtain ⟨n, rfl, above, below, past⟩ := counted width leaves
        refine ⟨n, ?_, above, below.trans up, past⟩
        rw [(fillOk ran).2.1 _ last, Row.valuePut]
      · exact (takes g width among).widen on (le_refl _)
    unfold fill
    cases given : Record.get? values f.column with
    | some v => exact step rfl (le_refl _) fun width leaves => by cases given.symm.trans leaves.omitted
    | none =>
      dsimp only
      cases generated : f.generated with
      | false => exact step rfl (le_refl _) fun width leaves => by cases generated.symm.trans leaves.generated
      | true =>
        rw [if_pos rfl]
        cases typed : f.type with
        | integer width =>
          obtain ⟨n, u, made, content, above, last, past⟩ := generatePast there typed (here width typed)
          rw [made]
          refine step content (by omega) fun other leaves => ?_
          cases typed.symm.trans leaves.typed
          exact ⟨n, rfl, above, last.ge, past⟩
        | _ =>
          unfold generate
          rw [typed]
          exact step rfl (le_refl _) fun width leaves => by cases typed.symm.trans leaves.typed

/-- The rows that an insert fills one after another, each with the values that it was given. -/
inductive Fills (table : String) (fields : List Field) : List (Row × Row) → Store → Store → Prop where
  | nil {s : Store} : Fills table fields [] s s
  | cons {s t u : Store} {values row : Row} {rest : List (Row × Row)} : fill table values fields [] s = (.ok row, u) →
      Fills table fields rest u t → Fills table fields ((values, row) :: rest) s t

variable {pairs before after : List (Row × Row)}

theorem fillsSome (there : s.rowsOf table = .ok stored) (holds : HoldIntegers fields stored) (given : List Row) :
    ∃ pairs t, pairs.map (·.1) = given ∧ Fills table fields pairs s t := by
  induction given generalizing s with
  | nil => exact ⟨[], s, rfl, .nil⟩
  | cons values rest ih =>
    obtain ⟨row, u, filled, content, -⟩ := fillTakes there holds values []
    obtain ⟨pairs, t, same, fills⟩ := ih ((rowsSame content).trans there)
    exact ⟨(values, row) :: pairs, t, congrArg (values :: ·) same, .cons filled fills⟩

theorem fillsSplit (fills : Fills table fields (before ++ (values, row) :: after) s t) :
    ∃ u v, Fills table fields before s u ∧ fill table values fields [] u = (.ok row, v) ∧ Fills table fields after v t := by
  induction before generalizing s with
  | nil =>
    obtain - | ⟨filled, later⟩ := fills
    exact ⟨s, _, .nil, filled, later⟩
  | cons p before ih =>
    obtain - | ⟨filled, later⟩ := fills
    obtain ⟨u, v, early, here, late⟩ := ih later
    exact ⟨u, v, .cons filled early, here, late⟩

/-- A column that is given to a row is in it as it was given. -/
theorem fillsGiven (fills : Fills table fields pairs s t) : ∀ p ∈ pairs, ∀ f ∈ fields, ∀ v,
    Record.get? p.1 f.column = some v → Row.value p.2 f.column = v := by
  induction fills with
  | nil => nofun
  | cons filled _ ih =>
    exact List.forall_mem_cons.mpr ⟨fun f mem v found => (fillOk filled).2.2 _ v (List.mem_map_of_mem mem) found, ih⟩

/-- By induction on the rows: the last key grows with each of them that has a column left to be filled. -/
theorem fillsTake (fills : Fills table fields pairs s t) (there : s.rowsOf table = .ok stored)
    (holds : HoldIntegers fields stored) : t.content = s.content ∧ lastKey s table ≤ lastKey t table ∧
      ∀ p ∈ pairs, ∀ f width, Leaves fields p.1 f width → Takes stored f width (lastKey s table) (lastKey t table) p.2 := by
  induction fills with
  | nil => exact ⟨rfl, le_refl _, nofun⟩
  | @cons s t u values row rest filled fills ih =>
    obtain ⟨made, v, ran, content, up, first⟩ := fillTakes there holds values []
    obtain ⟨⟨⟩, rfl⟩ := Prod.mk.inj (ran.symm.trans filled)
    obtain ⟨same, on, each⟩ := ih ((rowsSame content).trans there)
    refine ⟨same.trans content, up.trans on, ?_⟩
    refine List.forall_mem_cons.mpr ⟨fun f width leaves => ?_, fun p mem f width leaves => ?_⟩
    · exact (first f width leaves).widen (le_refl _) on
    · exact (each p mem f width leaves).widen up (le_refl _)

end Filling

section Checking

/-- What an insert checks of the rows that it fills: each against the stored rows and the new ones before it. -/
def checkEach (table : String) (fields : List Field) : List Row → List Row → Except Failure Unit
  | _, [] => .ok ()
  | others, row :: rest => do
    checkUnique table fields row others
    checkEach table fields (others ++ [row]) rest

theorem newRowsFills {pairs : List (Row × Row)} (fills : Fills table fields pairs s t) (old made : List Row) :
    (newRows table fields old (pairs.map (·.1)) made s).1 =
      (checkEach table fields (old ++ made) (pairs.map (·.2))).map fun _ => made ++ pairs.map (·.2) := by
  induction fills generalizing made with
  | nil =>
    rw [List.map_nil, List.map_nil, newRows, checkEach, List.append_nil]
    rfl
  | @cons s t u values row rest filled fills ih =>
    rw [List.map_cons, List.map_cons, newRows, filled, checkEach]
    dsimp only
    cases checkUnique table fields row (old ++ made) with
    | error e => rfl
    | ok _ =>
      dsimp only
      rw [ih, List.append_assoc, List.append_assoc]
      rfl

theorem insertFills {q : Insert} {pairs : List (Row × Row)} (known : s.fieldsOf q.table = .ok fields)
    (there : s.rowsOf q.table = .ok stored) (given : pairs.map (·.1) = q.rows) (fills : Fills q.table fields pairs s t) :
    (s.insertRows q).1 = checkEach q.table fields stored (pairs.map (·.2)) >>= fun _ =>
      written fields q.returning (pairs.map (·.2)) := by
  have made := newRowsFills fills stored []
  rw [List.append_nil, List.nil_append, given] at made
  unfold insertRows insertInto
  rw [known, there]
  dsimp only
  generalize newRows q.table fields stored q.rows [] s = answer at made ⊢
  obtain ⟨made, u⟩ := answer
  subst made
  cases checkEach q.table fields stored (pairs.map (·.2)) <;> rfl

theorem checkEachIff {others rows : List Row} : checkEach table fields others rows = .ok () ↔
    ∀ before row after, rows = before ++ row :: after → ∀ other ∈ others ++ before, ∀ f ∈ fields, (f.primaryKey || f.unique) →
      clashes row other f = .ok false := by
  induction rows generalizing others with
  | nil => exact ⟨fun _ before row after split => by simp at split, fun _ => rfl⟩
  | cons first rest ih =>
    constructor
    · intro checked before row after split
      obtain ⟨_, here, later⟩ := Results.bindOk checked
      cases before with
      | nil =>
        obtain ⟨rfl, rfl⟩ := List.cons.inj split
        rw [List.append_nil]
        exact checkedApart here
      | cons g before =>
        obtain ⟨rfl, rest⟩ := List.cons.inj split
        intro other mem
        exact ih.mp later before row after rest other (by simpa using mem)
    · intro apart
      have here : checkUnique table fields first others = .ok () := by
        have own := apart [] first rest rfl
        rw [List.append_nil] at own
        exact checkedOf own
      have later : checkEach table fields (others ++ [first]) rest = .ok () := by
        refine ih.mpr fun before row after split other mem => ?_
        exact apart (first :: before) row after (by rw [split]; rfl) other (by simpa using mem)
      rw [checkEach, here]
      exact later

end Checking

section Clashing

variable {width : IntegerType} {v w : Value} {m n : Int}

theorem integerCompared (read : storedInt? v = .ok (some m)) :
    v.isNothing = false ∧ ∃ x : Number, comparable v = .ok (.number x) ∧ x.int? = some m := by
  cases v with
  | integer k =>
    cases read
    exact ⟨rfl, _, rfl, rfl⟩
  | number x =>
    refine ⟨rfl, x, rfl, ?_⟩
    unfold storedInt? at read
    cases whole : x.int? with
    | none => simp [whole] at read
    | some k => simpa [whole] using read
  | _ => cases read

theorem integerOrder (left : storedInt? v = .ok (some m)) (right : storedInt? w = .ok (some n)) :
    same v w = .ok (decide (m = n)) ∧ v.isNothing = false := by
  obtain ⟨there, x, hx, left⟩ := integerCompared left
  obtain ⟨-, y, hy, right⟩ := integerCompared right
  refine ⟨?_, there⟩
  rw [sameOf hx hy]
  change Except.ok ((x.compare? y).getD .eq == .eq) = _
  rw [Number.wholeCompare left right, Option.getD_some, Bool.beq_eq_decide_eq]
  simp only [compare_eq_iff_eq]

theorem integersClash {row other : Row} (left : storedInt? (Row.value row f.column) = .ok (some m))
    (right : storedInt? (Row.value other f.column) = .ok (some n)) : clashes row other f = .ok (decide (n = m)) := by
  unfold clashes
  dsimp only
  rw [(integerOrder left right).2, (integerOrder right left).2]
  exact (integerOrder right left).1

/-- A column can hold a key as it was counted: narrow columns round what is too large for a number. -/
def Fits (width : IntegerType) (n : Int) : Prop := width.isWide ∨ n.natAbs ≤ Number.integerBound

theorem keyRead (fits : Fits width n) : storedInt? (width.key n) = .ok (some n) := by
  unfold IntegerType.key
  cases wide : width.isWide with
  | true => rfl
  | false =>
    have small : n.natAbs ≤ Number.integerBound := fits.resolve_left (by simp [wide])
    rw [if_neg Bool.false_ne_true, Number.ofInt_of_le small]
    rfl

end Clashing

/-- Whatever rows an insert is given, all of them are filled where the columns of integers hold integers, and it is refused only
if two rows clash. The key that is generated for one of its rows then clashes with no stored row, nor with another row that
leaves the column to be filled, and with a row that is given the column only if it is given this very integer. -/
theorem generatedApart {q : Insert} (known : s.fieldsOf q.table = .ok fields) (there : s.rowsOf q.table = .ok stored)
    (holds : HoldIntegers fields stored) :
    ∃ pairs : List (Row × Row), pairs.map (·.1) = q.rows ∧
      (s.insertRows q).1 = (checkEach q.table fields stored (pairs.map (·.2)) >>= fun _ =>
        written fields q.returning (pairs.map (·.2))) ∧
      (checkEach q.table fields stored (pairs.map (·.2)) = .ok () ↔
        ∀ before row after, pairs.map (·.2) = before ++ row :: after → ∀ other ∈ stored ++ before,
          ∀ f ∈ fields, (f.primaryKey || f.unique) → clashes row other f = .ok false) ∧
      ∀ before values row after, pairs = before ++ (values, row) :: after → ∀ f width, Leaves fields values f width →
        ∃ n, lastKey s q.table < n ∧ Row.value row f.column = width.key n ∧
          (Fits width n → (∀ other ∈ stored, clashes row other f = .ok false) ∧ ∀ p ∈ before ++ after,
            (Record.get? p.1 f.column = none → ∃ m, Row.value p.2 f.column = width.key m ∧ m ≠ n ∧
              (Fits width m → clashes row p.2 f = .ok false)) ∧
            ∀ v, Record.get? p.1 f.column = some v → (v.isNothing → clashes row p.2 f = .ok false) ∧
              ∀ m, storedInt? v = .ok (some m) → clashes row p.2 f = .ok (decide (m = n))) := by
  obtain ⟨pairs, t, given, fills⟩ := fillsSome there holds q.rows
  refine ⟨pairs, given, insertFills known there given fills, checkEachIff, ?_⟩
  rintro before values row after rfl f width leaves
  have mem : f ∈ fields := List.mem_reverse.mp (List.mem_of_find?_eq_some leaves.last)
  obtain ⟨u, v, early, filled, late⟩ := fillsSplit fills
  obtain ⟨same, up, lower⟩ := fillsTake early there holds
  have here := (rowsSame same).trans there
  obtain ⟨made, w, ran, content, -, takes⟩ := fillTakes here holds values []
  obtain ⟨⟨⟩, rfl⟩ := Prod.mk.inj (ran.symm.trans filled)
  obtain ⟨-, -, higher⟩ := fillsTake late ((rowsSame content).trans here) holds
  obtain ⟨n, value, above, below, past⟩ := takes f width leaves
  refine ⟨n, by omega, value, fun fits => ?_⟩
  have own : storedInt? (Row.value row f.column) = .ok (some n) := by rw [value, keyRead fits]
  refine ⟨fun other old => ?_, fun p inside => ⟨fun omitted => ?_, fun v found => ?_⟩⟩
  · rcases holds f mem width leaves.typed other old with nothing | ⟨m, read⟩
    · simp [clashes, nothing]
    · have less := past other old m read
      rw [integersClash own read, decide_eq_false (by omega)]
  · have others : Leaves fields p.1 f width := ⟨leaves.last, leaves.generated, leaves.typed, omitted⟩
    have key : ∃ m, Row.value p.2 f.column = width.key m ∧ m ≠ n := by
      rcases List.mem_append.mp inside with before | after
      · obtain ⟨m, value, -, most, -⟩ := lower p before f width others
        exact ⟨m, value, by omega⟩
      · obtain ⟨m, value, least, -⟩ := higher p after f width others
        exact ⟨m, value, by omega⟩
    obtain ⟨m, held, differ⟩ := key
    refine ⟨m, held, differ, fun also => ?_⟩
    rw [integersClash own (by rw [held, keyRead also]), decide_eq_false differ]
  · have listed : p ∈ before ++ (values, row) :: after := by
      rcases List.mem_append.mp inside with early | late
      · exact List.mem_append_left _ early
      · exact List.mem_append_right _ (List.mem_cons_of_mem _ late)
    have kept := fillsGiven fills p listed f mem v found
    refine ⟨fun nothing => ?_, fun m read => integersClash own (by rw [kept, read])⟩
    simp [clashes, kept, nothing]

/-- Users with a key that is counted. -/
def userKey : Field := ⟨"id", "id", "i32", .integer .i32, false, true, true, true, none⟩

def users : Store := ⟨[("users", [userKey])], [("users", [[("id", .int 3)]])], [], [], false, 0, 0⟩

/-- Between two rows without a key one is given the key that comes next but one: what is generated for the last row then differs
from the stored key, but may be the given one, and the insert is refused. -/
theorem generatedApartOfUsers : HoldIntegers [userKey] [[("id", .int 3)]] ∧
    (∃ (first given last : Row) (n : Int), Row.value last "id" = IntegerType.i32.key n ∧ (Fits .i32 n →
      clashes last [("id", .int 3)] userKey = .ok false ∧ clashes last given userKey = .ok (decide (5 = n)) ∧
      ∃ m, Row.value first "id" = IntegerType.i32.key m ∧ m ≠ n)) ∧
    (users.insertRows ⟨"users", [[], [("id", .int 5)], []], []⟩).1 = .error (.duplicate "users_id_key") := by
  have holds : HoldIntegers [userKey] [[("id", .int 3)]] := by
    intro f mem width typed row inside
    rw [List.mem_singleton.mp mem, List.mem_singleton.mp inside]
    exact .inr ⟨3, rfl⟩
  obtain ⟨pairs, given, -, -, apart⟩ := generatedApart (s := users) (q := ⟨"users", [[], [("id", .int 5)], []], []⟩) rfl rfl holds
  refine ⟨holds, ?_, rfl⟩
  match pairs, given with
  | [(_, first), (_, second), (_, last)], rfl =>
    obtain ⟨n, -, value, checked⟩ := apart [([], first), ([("id", .int 5)], second)] [] last [] rfl userKey .i32 ⟨rfl, rfl, rfl, rfl⟩
    refine ⟨first, second, last, n, value, fun fits => ?_⟩
    obtain ⟨old, others⟩ := checked fits
    obtain ⟨m, key, differ, -⟩ := (others ([], first) (by simp)).1 rfl
    exact ⟨old _ (by simp), ((others ([("id", .int 5)], second) (by simp)).2 (.int 5) rfl).2 5 rfl, m, key, differ⟩

end EntityQuery.Store
