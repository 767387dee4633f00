import EntityQuery.Proofs.JoinedParts
import EntityQuery.Proofs.MergeSorts
import EntityQuery.Proofs.ValueTexts
import EntityQuery.Store.Groups
/-! The texts that stored rows are grouped by: for each grouped column what its value compares as, joined by bars. Values of
one kind have one text exactly if they are equal, so columns of one kind tell rows apart as long as no two of them have texts
that go on as another column would. -/

namespace EntityQuery

namespace Store

/-- What the value of a column compares as, before its text. -/
def columnMark : Value → List Char
  | .number _ | .integer _ | .bool _ | .date _ => "number:".toList
  | _ => "text:".toList

def columnBody : Value → List Char
  | .bool b => [if b then '1' else '0']
  | v => v.groupBody

/-- The text that a column is grouped by. -/
def columnChars (v : Value) : List Char := if v.isNothing then "null".toList else columnMark v ++ columnBody v

/-- Plain values, of which the instants are numbers of milliseconds that all doubles tell apart. -/
structure Groupable (v : Value) : Prop where
  plain : v.IsPlain
  dated : ∀ t : Time.Instant, v = .date (some t) → t.natAbs ≤ Number.integerBound

/-- Are two values of one kind, or one of them nothing? -/
def OneKind (v w : Value) : Prop := v.isNothing ∨ w.isNothing ∨ v.groupTag = w.groupTag

/-- Equal values of a column. Whatever is nothing is one value, and numbers are equal to the exact integers that they are. -/
def Equals (v w : Value) : Prop := v.orNull.exact = w.orNull.exact

section Texts

variable {v w : Value}

theorem textGroup {s : Option String} (there : v.isNothing = false) (compared : comparable v = .ok (.text s)) :
    groupText v = .ok ("text:" ++ s.getD "undefined") := by
  unfold groupText
  cases v with
  | absent | null => cases there
  | integer _ => cases compared
  | _ =>
    dsimp only
    rw [compared]
    rfl

theorem columnWritten (groupable : Groupable v) : groupText v = .ok (String.ofList (columnChars v)) := by
  have written {s : String} (mark body : String) (same : s = mark ++ body) : s = String.ofList (mark.toList ++ body.toList) := by
    rw [same, ← String.toList_inj]
    simp
  have document (j : Json) (there : (Value.ofJson j).isNothing = false)
      (compared : comparable (.ofJson j) = do return .text (← (Value.ofJson j).jsonText? .refused))
      (mark : columnMark (.ofJson j) = "text:".toList) (body : columnBody (.ofJson j) = (Value.ofJson j).bareJson.chars) :
      groupText (.ofJson j) = .ok (String.ofList (columnChars (.ofJson j))) := by
    have shown := written "text:" j.print rfl
    rw [show j.print.toList = j.chars from String.toList_ofList] at shown
    rw [Value.jsonTextOfJson] at compared
    unfold columnChars
    rw [textGroup there compared, there, if_neg Bool.false_ne_true, mark, body, Value.bareOfJson]
    exact congrArg Except.ok shown
  cases v with
  | absent | null => rfl
  | number n => exact congrArg Except.ok (written "number:" n.toText rfl)
  | integer n => exact congrArg Except.ok (written "number:" (Number.intText n) rfl)
  | bool b => cases b <;> rfl
  | text s => exact congrArg Except.ok (written "text:" s rfl)
  | date t =>
    cases t with
    | none => rfl
    | some t =>
      have shown : Number.toText (.integer t) = Number.intText t := if_pos (groupable.dated t rfl)
      refine congrArg Except.ok (written "number:" (Number.intText t) ?_)
      rw [← shown]
  | array items =>
    obtain ⟨j, same, -⟩ := groupable.plain
    cases j with
    | array _ =>
      rw [same]
      exact document _ rfl rfl rfl rfl
    | _ => cases same
  | object members =>
    obtain ⟨j, same, -⟩ := groupable.plain
    cases j with
    | object _ =>
      rw [same]
      exact document _ rfl rfl rfl rfl
    | _ => cases same
  | jsonNull | callable _ | key _ =>
    obtain ⟨j, same, -⟩ := groupable.plain
    cases j <;> cases same

theorem markOfTag (tags : v.groupTag = w.groupTag) : columnMark v = columnMark w := by
  have byTag (v : Value) : columnMark v = if v.groupTag = 's' ∨ v.groupTag = 'j' then "text:".toList else "number:".toList := by
    cases v <;> rfl
  rw [byTag, byTag, tags]

theorem columnBodyOnce (hv : v.IsPlain) (hw : w.IsPlain) (near : ¬ Value.Strays v w) (tags : v.groupTag = w.groupTag) :
    columnBody v = columnBody w ↔ v.exact = w.exact := by
  cases v with
  | bool a =>
    cases w with
    | bool b =>
      show [if a then '1' else '0'] = [if b then '1' else '0'] ↔ Value.bool a = .bool b
      cases a <;> cases b <;> simp
    | _ => cases tags
  | _ =>
    cases w with
    | bool b => cases tags
    | _ => exact Value.bodyOnce hv hw near tags

theorem exactNull : v.exact = .null ↔ v = .null := by
  constructor
  · intro same
    cases v with
    | null => rfl
    | number n => rcases Value.numberExact n with ⟨i, exact⟩ | exact <;> simp [exact] at same
    | _ => cases same
  · rintro rfl
    rfl

theorem nothingNull (v : Value) : v.isNothing ↔ v.orNull = .null := by
  cases v <;> simp [Value.isNothing, Value.orNull]

theorem equalsNothing (missing : v.isNothing) : Equals v w ↔ w.isNothing := by
  unfold Equals
  rw [(nothingNull v).mp missing, nothingNull, ← exactNull]
  exact eq_comm

theorem presentNull (there : v.isNothing = false) : v.orNull = v := by
  cases v <;> first | rfl | cases there

theorem columnNull : columnChars v = "null".toList ↔ v.isNothing := by
  unfold columnChars
  cases there : v.isNothing with
  | true => exact ⟨fun _ => rfl, fun _ => rfl⟩
  | false =>
    have apart : columnMark v ++ columnBody v ≠ "null".toList := by
      unfold columnMark
      split <;> exact nofun
    exact ⟨fun same => absurd same apart, nofun⟩

/-- Values of one kind have one text exactly if they are equal. -/
theorem columnOnce (hv : Groupable v) (hw : Groupable w) (kinds : OneKind v w) (near : ¬ Value.Strays v w) :
    columnChars v = columnChars w ↔ Equals v w := by
  cases missing : v.isNothing with
  | true => rw [equalsNothing missing, columnNull.mpr missing, eq_comm, columnNull]
  | false =>
    cases other : w.isNothing with
    | true =>
      have symmetric : Equals v w ↔ Equals w v := eq_comm
      rw [symmetric, equalsNothing other, columnNull.mpr other, columnNull]
    | false =>
      have tags : v.groupTag = w.groupTag := by simpa [OneKind, missing, other] using kinds
      unfold columnChars Equals
      rw [missing, other, if_neg Bool.false_ne_true, if_neg Bool.false_ne_true, markOfTag tags, List.append_cancel_left_eq,
        presentNull missing, presentNull other]
      exact columnBodyOnce hv.plain hw.plain near tags

/-- Does a text start as the text of a column does? -/
def startsColumn (cs : List Char) : Bool :=
  "number:".toList.isPrefixOf cs || "text:".toList.isPrefixOf cs || cs == "null".toList

theorem columnStarts (v : Value) : startsColumn (Text.headOf (columnChars v)) := by
  have kept (mark rest : List Char) (plain : ∀ c ∈ mark, (c != '|') = true) :
      Text.headOf (mark ++ rest) = mark ++ Text.headOf rest := List.takeWhile_append_of_pos plain
  unfold columnChars
  split
  · decide
  · unfold columnMark
    split <;> (rw [kept _ _ (by exact List.all_eq_true.mp rfl)]; unfold startsColumn; simp [List.isPrefixOf])

/-- Neither the text of a number nor that of nothing holds a bar, so only texts and documents divide. -/
theorem numbersWhole (number : v.isNothing ∨ columnMark v = "number:".toList) : ¬ Text.Divides startsColumn (columnChars v) := by
  have textChars {cs : List Char} (chars : ∀ c ∈ cs, Number.isTextChar c) : '|' ∉ cs := fun bar =>
    absurd (chars '|' bar) (by decide)
  have digits (n : Int) : '|' ∉ (Number.intText n).toList := textChars (Number.intTextChars n).1
  refine Text.barless ?_
  unfold columnChars
  split
  · decide
  · next there =>
    have marked := number.resolve_left there
    have body : '|' ∉ columnBody v := by
      cases v with
      | number n =>
        show '|' ∉ n.toText.toList
        cases finite : n.isFinite with
        | true => exact textChars (Number.finiteChars finite).1
        | false =>
          cases n with
          | infinity negative => cases negative <;> decide
          | nan => decide
          | _ => cases finite
      | integer n => exact digits n
      | bool b => cases b <;> decide
      | date t =>
        cases t with
        | none => decide
        | some t => exact digits t
      | _ => cases marked
    rw [marked, List.mem_append, not_or]
    exact ⟨by decide, body⟩

theorem settlesGroupable (groupable : Groupable v) : Settles v := by
  cases missing : v.isNothing with
  | true => exact .inl missing
  | false =>
    have written := columnWritten groupable
    cases v with
    | absent | null => cases missing
    | integer n => exact .inr ⟨_, rfl, trivial⟩
    | _ =>
      obtain ⟨x, compared, -⟩ := Results.bindOk written
      exact .inr ⟨x, compared, trivial⟩

end Texts

end Store

namespace Field

open Store (Groupable OneKind Equals)

/-- The forms in which columns of a type store what is written to them. -/
inductive TypedForm : ScalarType → Value → Prop where
  | wide {width : IntegerType} {n : Int} (wide : width.isWide = true) : TypedForm (.integer width) (.integer n)
  | narrow {width : IntegerType} {x : Number} (narrow : width.isWide = false) (double : x.IsDouble) :
      TypedForm (.integer width) (.number x)
  | float {width : FloatType} {x : Number} : TypedForm (.float width) (.number x)
  | bool {b : Bool} : TypedForm .bool (.bool b)
  | datetime {t : Time.Instant} (few : t.natAbs ≤ Number.integerBound) : TypedForm .datetime (.date (some t))
  | text {s : String} : TypedForm .text (.text s)
  | date {s : String} : TypedForm .date (.text s)
  | time {s : String} : TypedForm .time (.text s)
  | uuid {s : String} : TypedForm .uuid (.text s)
  | json {s : String} : TypedForm .json (.text s)

/-- A column of a type holds nothing or a value in the form of the type. -/
def HoldsTyped (f : Field) (v : Value) : Prop := v.isNothing ∨ TypedForm f.type v

/-- A column tells rows apart: its values are of one kind, exact integers in it do not meet numbers past those that all
doubles tell apart, and they are read back as values that are equal only if they are. -/
structure TellsApart (f : Field) (rows : List Row) : Prop where
  groupable : ∀ row ∈ rows, Groupable (Row.value row f.column)
  kinds : ∀ r ∈ rows, ∀ s ∈ rows, OneKind (Row.value r f.column) (Row.value s f.column)
  near : ∀ r ∈ rows, ∀ s ∈ rows, ¬ Value.Strays (Row.value r f.column) (Row.value s f.column)
  reads : ∀ row ∈ rows, ∃ w, f.decode (Row.value row f.column) = .ok w
  faithful : ∀ r ∈ rows, ∀ s ∈ rows, ∀ v w,
    f.decode (Row.value r f.column) = .ok v → f.decode (Row.value s f.column) = .ok w → v.exact = w.exact →
      Equals (Row.value r f.column) (Row.value s f.column)

section Typed

variable {f : Field} {v w : Value}

theorem typedReads (typed : f.HoldsTyped v) : f.decode v = .ok v.orNull := by
  rcases typed with missing | form
  · rw [decode_of_isNothing missing, (Store.nothingNull v).mp missing]
  · unfold decode decodePresent
    generalize f.type = type at form ⊢
    cases form with
    | wide wide =>
      dsimp only
      rw [if_pos wide]
      rfl
    | narrow narrow _ =>
      dsimp only
      rw [narrow, if_neg Bool.false_ne_true]
      rfl
    | _ => rfl

theorem typedGroupable (exact : f.typeClass ≠ .float) (typed : f.HoldsTyped v) : Groupable v := by
  have plain (undated : ∀ t, v ≠ .date (some t)) (form : v.IsPlain) : Groupable v :=
    ⟨form, fun t same => absurd same (undated t)⟩
  rcases typed with missing | form
  · cases v with
    | absent | null => exact plain nofun trivial
    | _ => cases missing
  · unfold typeClass at exact
    generalize f.type = type at exact form
    cases form with
    | narrow _ double => exact plain nofun double
    | float => exact absurd rfl exact
    | datetime few =>
      refine ⟨trivial, fun u same => ?_⟩
      cases same
      exact few
    | _ => exact plain nofun trivial

/-- A column of a type stores values of one kind, and exact integers or numbers but not both. -/
theorem typedKind (hv : f.HoldsTyped v) (hw : f.HoldsTyped w) : OneKind v w ∧ ¬ Value.Strays v w := by
  rcases hv with missing | formV
  · refine ⟨.inl missing, ?_⟩
    cases v with
    | absent | null => exact id
    | _ => cases missing
  rcases hw with missing | formW
  · refine ⟨.inr (.inl missing), ?_⟩
    cases w with
    | absent | null => cases v <;> exact id
    | _ => cases missing
  generalize f.type = type at formV formW
  cases formV with
  | wide wide =>
    cases formW with
    | wide _ => exact ⟨.inr (.inr rfl), id⟩
    | narrow narrow _ => cases wide.symm.trans narrow
  | narrow narrow _ =>
    cases formW with
    | wide wide => cases wide.symm.trans narrow
    | narrow _ _ => exact ⟨.inr (.inr rfl), id⟩
  | _ =>
    cases formW
    exact ⟨.inr (.inr rfl), id⟩

theorem typedTells {rows : List Row} (exact : f.typeClass ≠ .float)
    (typed : ∀ row ∈ rows, f.HoldsTyped (Row.value row f.column)) :
    f.TellsApart rows where
  groupable row mem := typedGroupable exact (typed row mem)
  kinds r hr s hs := (typedKind (typed r hr) (typed s hs)).1
  near r hr s hs := (typedKind (typed r hr) (typed s hs)).2
  reads row mem := ⟨_, typedReads (typed row mem)⟩
  faithful r hr s hs v w readV readW same := by
    rw [typedReads (typed r hr)] at readV
    rw [typedReads (typed s hs)] at readW
    cases readV
    cases readW
    exact same

end Typed

end Field

end EntityQuery
