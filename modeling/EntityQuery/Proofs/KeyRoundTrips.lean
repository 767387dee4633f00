import EntityQuery.Key
import EntityQuery.Proofs.CanonicalTexts
import EntityQuery.Proofs.IsoTexts
import EntityQuery.Proofs.Results
import EntityQuery.Proofs.TypedPredicates
/-! Keys that come back, from the column value of a key with its kind and from its wrapped text. Each kind has a text of its
own that it is read from; the label before it tells the kind, and the last bracket ends it. -/

namespace EntityQuery

namespace KeyForm

/-- A key of no floating-point kind, whose instant is valid and whose document is of safe integers. -/
def IsExact : Key → Prop
  | .float _ _ => False
  | .datetime t => ∃ n : Int, t = some n ∧ Time.inRange n
  | .json payload => ∃ j : Json, payload = .ofJson j ∧ j.isSafe
  | _ => True

/-- The integer of a key fits its width, and a UUID is one in small letters. -/
def IsSound : Key → Prop
  | .integer width n => width.holds n
  | .uuid s => Uuid.isUuid s ∧ Uuid.normalize s = s
  | _ => True

/-- A key of the kind of another one, and equal to it. -/
def Restores (k key : Key) : Prop := k.kind = key.kind ∧ k.equals key

end KeyForm

namespace Key

open KeyForm (IsSound IsExact Restores toColumn toText toWrapped equals)

/-- The keys that are made from values, columns and texts. -/
inductive Built : Key → Prop where
  | ofKind {tag : String} {v : Value} {k : Key} (made : withTag make tag v = .ok k) : Built k
  | ofValue {v : Value} {k : Key} (inner : ∀ key, v = .key key → Built key) (made : ofValue v = .ok k) : Built k
  | ofText {v : Value} {k : Key} (made : parseValue v = .ok k) : Built k
  | ofColumn {tag : String} {v : Value} {k : Key} (made : withTag ofColumn tag v = .ok k) : Built k
  | ofDatabase {v : Value} {k : Key} (made : ofDatabase v = .ok k) : Built k

section Making

variable {kind : ScalarType} {v : Value} {k : Key}

theorem uuidSound {s : String} (uuid : Uuid.isUuid s) : IsSound (.uuid (Uuid.normalize s)) := Uuid.normalAgain uuid

theorem documentKey (made : ofDocument v = .ok k) : ∃ parsed, k = .json parsed := by
  have judged {parsed : Value} {e : Failure} (made : (if parsed.isJson then Except.ok (KeyForm.json parsed) else Except.error e) = .ok k) :
      ∃ parsed, k = .json parsed := by
    split at made
    · cases made
      exact ⟨_, rfl⟩
    · cases made
  unfold ofDocument at made
  split at made
  · split at made
    · exact judged made
    · cases made
  · exact judged made

theorem columnSound (made : ofColumn kind v = .ok k) : k.IsSound := by
  unfold ofColumn at made
  cases kind with
  | integer width =>
    dsimp only at made
    unfold ofInteger at made
    split at made
    · next n read =>
      split at made
      · next holds =>
        cases made
        exact holds
      · obtain ⟨_, _, made⟩ := Results.bindOk made
        cases made
    · obtain ⟨_, _, made⟩ := Results.bindOk made
      cases made
  | float width =>
    dsimp only at made
    unfold ofFloat at made
    extract_lets numeric at made
    clear_value numeric
    cases numeric with
    | none => cases made
    | some n =>
      cases made
      trivial
  | uuid =>
    dsimp only at made
    split at made
    · split at made
      · next uuid =>
        cases made
        exact uuidSound uuid
      · cases made
    · cases made
  | text | date | time =>
    dsimp only at made
    split at made
    · cases made
      trivial
    · cases made
  | bool =>
    dsimp only at made
    split at made
    · cases made
      trivial
    · cases made
      trivial
    · cases made
      trivial
    · cases made
  | datetime =>
    dsimp only at made
    split at made
    · cases made
      trivial
    · cases made
  | json =>
    obtain ⟨parsed, rfl⟩ := documentKey made
    trivial
  | opaqueType => cases made

theorem makeSound (made : make kind v = .ok k) : k.IsSound := by
  unfold make at made
  split at made
  · split at made
    · cases made
      trivial
    · cases made
  · exact columnSound made

theorem taggedKind {maker : ScalarType → Value → Except Failure Key} {tag : String} (made : withTag maker tag v = .ok k) :
    ∃ kind, maker kind v = .ok k := by
  unfold withTag at made
  split at made
  · exact ⟨_, made⟩
  · dsimp only at made
    split at made <;>
      · obtain ⟨_, _, made⟩ := Results.bindOk made
        cases made

theorem numberSound (n : Number) : (ofNumber n).IsSound := by
  unfold ofNumber
  split
  · trivial
  · next i =>
    split
    · next holds => exact holds
    · split
      · next safe =>
        have small : i.natAbs < 2 ^ 53 := of_decide_eq_true safe
        show decide (IntegerType.i64.least ≤ i ∧ i ≤ IntegerType.i64.greatest) = true
        have bounds : IntegerType.i64.least = -(2 ^ 63) ∧ IntegerType.i64.greatest = 2 ^ 63 - 1 := ⟨rfl, rfl⟩
        rw [bounds.1, bounds.2]
        exact decide_eq_true (by omega)
      · trivial
  · trivial

theorem wrappedSound {s : String} (read : ofWrapped? s = some k) : k.IsSound := by
  unfold ofWrapped? at read
  obtain ⟨⟨name, body⟩, -, read⟩ := Option.bind_eq_some_iff.mp read
  obtain ⟨kind, -, read⟩ := Option.bind_eq_some_iff.mp read
  cases made : ofColumn kind (.text body) with
  | error e =>
    rw [made] at read
    cases read
  | ok key =>
    rw [made] at read
    cases read
    exact columnSound made

theorem plainSound (s : String) : (ofPlain s).IsSound := by
  unfold ofPlain
  split
  · next n read =>
    split
    · next width found => exact List.find?_some (p := fun width : IntegerType => width.holds n) found
    · trivial
  · split_ifs with decimal yes no uuid
    · unfold ofDecimal
      dsimp only
      split_ifs <;> trivial
    · trivial
    · trivial
    · exact uuidSound uuid
    · trivial

theorem textSound (made : parseValue v = .ok k) : k.IsSound := by
  unfold parseValue at made
  split at made
  · next s =>
    cases made
    unfold parse
    cases wrapped : ofWrapped? s with
    | none => exact plainSound s
    | some key => exact wrappedSound wrapped
  · obtain ⟨shown, -, made⟩ := Results.bindOk made
    split at made
    · next wrapped =>
      cases made
      exact wrappedSound wrapped
    · obtain ⟨_, _, made⟩ := Results.bindOk made
      cases made

theorem valueSound (inner : ∀ key, v = .key key → key.IsSound) (made : ofValue v = .ok k) : k.IsSound := by
  cases v with
  | key key =>
    cases made
    exact inner _ rfl
  | number n =>
    cases made
    exact numberSound n
  | integer n =>
    unfold ofValue at made
    dsimp only at made
    split_ifs at made with signed unsigned
    · cases made
      exact signed
    · cases made
      exact unsigned
  | date _ | bool _ | text _ =>
    cases made
    trivial
  | _ => cases made

theorem databaseSound (made : ofDatabase v = .ok k) : k.IsSound := by
  unfold ofDatabase at made
  split at made
  · next s =>
    cases made
    split
    · next uuid => exact uuidSound uuid
    · trivial
  · exact valueSound (by rintro key ⟨⟩) made
  · exact valueSound (by rintro key ⟨⟩) made
  · exact valueSound (by rintro key ⟨⟩) made
  · exact valueSound (by rintro key ⟨⟩) made
  · split at made
    · cases made
      trivial
    · cases made

/-- By induction on how the key was made; a key that is made from a key is that key. -/
theorem builtSound (built : Built k) : k.IsSound := by
  induction built with
  | ofKind made =>
    obtain ⟨kind, made⟩ := taggedKind made
    exact makeSound made
  | ofValue inner made ih => exact valueSound ih made
  | ofText made => exact textSound made
  | ofColumn made =>
    obtain ⟨kind, made⟩ := taggedKind made
    exact columnSound made
  | ofDatabase made => exact databaseSound made

end Making

section Wrapping

/-- The labels of kinds are letters and digits, and each stands for its kind. -/
theorem labelBack {kind : ScalarType} (known : kind ≠ .opaqueType) :
    ofLabel? (label kind) = some kind ∧ label kind ≠ "" ∧
      (label kind).toList.all (fun c => c.isDigit || ('a' ≤ c && c ≤ 'z') || ('A' ≤ c && c ≤ 'Z')) = true := by
  cases kind with
  | integer width => cases width <;> decide
  | float width => cases width <;> decide
  | opaqueType => exact absurd rfl known
  | _ => decide

theorem tagBack (kind : ScalarType) : ScalarType.ofTag? kind.tag = some kind := by
  cases kind with
  | integer width => cases width <;> decide
  | float width => cases width <;> decide
  | _ => decide

/-- A label and the text in brackets after it are taken apart at the first bracket and the last one. -/
theorem unwrapBack {kind : ScalarType} (known : kind ≠ .opaqueType) (s : String) :
    unwrap? (label kind ++ "(" ++ s ++ ")").toList = some (label kind, s) := by
  obtain ⟨-, written, letters⟩ := labelBack known
  have whole : (label kind ++ "(" ++ s ++ ")").toList = (label kind).toList ++ '(' :: (s.toList ++ [')']) := by
    simp only [String.toList_append, List.append_assoc]
    rfl
  have taken : (label kind ++ "(" ++ s ++ ")").toList.takeWhile
      (fun c => c.isDigit || ('a' ≤ c && c ≤ 'z') || ('A' ≤ c && c ≤ 'Z')) = (label kind).toList := by
    rw [whole, List.takeWhile_append_of_pos (List.all_eq_true.mp letters)]
    exact List.append_nil _
  have opened : (label kind ++ "(" ++ s ++ ")").toList.drop (label kind).toList.length = '(' :: (s.toList ++ [')']) := by
    rw [whole, List.drop_left]
  have closed : ((label kind ++ "(" ++ s ++ ")").toList.drop ((label kind).toList.length + 1)).reverse = ')' :: s.toList.reverse := by
    rw [← List.drop_drop, opened, List.drop_succ_cons, List.drop_zero, List.reverse_append]
    rfl
  unfold unwrap?
  dsimp only
  rw [taken, opened, closed]
  cases first : (label kind).toList with
  | nil => exact absurd (String.toList_eq_nil_iff.mp first) written
  | cons c cs =>
    simp only [List.reverse_reverse, String.ofList_toList]
    rw [← first, String.ofList_toList]

theorem parseBack {kind : ScalarType} {s : String} {k : Key} (known : kind ≠ .opaqueType) (read : ofColumn kind (.text s) = .ok k) :
    parse (label kind ++ "(" ++ s ++ ")") = k := by
  unfold parse ofWrapped?
  rw [unwrapBack known]
  simp only [Option.bind_eq_bind, Option.bind_some, (labelBack known).1, read]
  rfl

end Wrapping

section RoundTrips

theorem restoresSelf (k : Key) : Restores k k := ⟨rfl, beq_self_eq_true k.hash⟩

variable {k : Key}

theorem integerColumn {width : IntegerType} {raw : Value} {n : Int} (read : columnInt? raw = some n) (holds : width.holds n) :
    ofColumn (.integer width) raw = .ok (.integer width n) := by
  show ofInteger width raw = _
  unfold ofInteger
  rw [read]
  exact if_pos holds

theorem uuidColumn {s : String} (sound : IsSound (KeyForm.uuid s)) : ofColumn .uuid (.text s) = .ok (.uuid s) := by
  obtain ⟨uuid, small⟩ := sound
  show (if Uuid.isUuid s then Except.ok (KeyForm.uuid (Uuid.normalize s)) else _) = _
  rw [if_pos uuid, small]

/-- The zero of a number with a sign is stored as the integer. -/
theorem zeroRestored : Restores (.integer .i32 0) .negativeZero := ⟨rfl, by decide⟩

theorem documentText (j : Json) : Value.jsonText .refused (.ofJson j) = .ok j.print := by
  unfold Value.jsonText Value.document
  rw [Value.toJsonOfJson]
  rfl

theorem documentBack {j : Json} (safe : j.isSafe) :
    ∃ key, ofColumn .json (.text j.print) = .ok key ∧ Restores key (.json (.ofJson j)) := by
  refine ⟨.json (.ofJson j.stored), ?_, rfl, ?_⟩
  · show ofDocument (.text j.print) = _
    unfold ofDocument
    dsimp only
    rw [Json.readBack safe]
    exact if_pos (Value.storedJson j safe)
  · unfold equals KeyForm.hash
    dsimp only
    rw [Value.bareOfJson, Value.bareOfJson, Json.canonicalBack safe]
    exact beq_self_eq_true _

/-- The text of a key is read as the key, by its kind. -/
theorem textBack (sound : k.IsSound) (exact : k.IsExact) :
    ∃ s key, k.toText = .ok s ∧ ofColumn k.kind (.text s) = .ok key ∧ Restores key k := by
  cases k with
  | integer width n => exact ⟨_, _, rfl, integerColumn (Number.intBack n) sound, restoresSelf _⟩
  | negativeZero => exact ⟨_, _, rfl, integerColumn (n := 0) (by decide) (by decide), zeroRestored⟩
  | float _ _ => exact exact.elim
  | text s | date s | time s => exact ⟨_, _, rfl, rfl, restoresSelf _⟩
  | uuid s => exact ⟨_, _, rfl, uuidColumn sound, restoresSelf _⟩
  | bool b => cases b <;> exact ⟨_, _, rfl, rfl, restoresSelf _⟩
  | datetime t =>
    obtain ⟨n, rfl, valid⟩ := exact
    refine ⟨_, .datetime (some n), rfl, ?_, restoresSelf _⟩
    show ofColumn .datetime (.text (Time.toIso n)) = _
    unfold ofColumn
    dsimp only
    rw [Time.isoBack valid]
  | json payload =>
    obtain ⟨j, rfl, safe⟩ := exact
    obtain ⟨key, read, same⟩ := documentBack safe
    exact ⟨_, key, documentText j, read, same⟩

theorem columnBack (sound : k.IsSound) (exact : k.IsExact) :
    ∃ v key, k.toColumn = .ok v ∧ ofColumn k.kind v = .ok key ∧ Restores key k := by
  cases k with
  | integer width n =>
    refine ⟨_, _, rfl, integerColumn ?_ sound, restoresSelf _⟩
    show columnInt? (if width.isWide then .integer n else .number (.integer n)) = some n
    split <;> rfl
  | negativeZero => exact ⟨_, _, rfl, integerColumn (n := 0) rfl (by decide), zeroRestored⟩
  | float _ _ => exact exact.elim
  | text s | date s | time s | bool b => exact ⟨_, _, rfl, rfl, restoresSelf _⟩
  | uuid s => exact ⟨_, _, rfl, uuidColumn sound, restoresSelf _⟩
  | datetime t =>
    obtain ⟨n, rfl, -⟩ := exact
    exact ⟨_, _, rfl, rfl, restoresSelf _⟩
  | json payload =>
    obtain ⟨j, rfl, safe⟩ := exact
    obtain ⟨key, read, same⟩ := documentBack safe
    refine ⟨_, key, ?_, read, same⟩
    show (Value.jsonText .refused (.ofJson j)).map Value.text = _
    rw [documentText]
    rfl

/-- A key that was made comes back from its column value and its kind, and from its wrapped text. -/
theorem keyBack (built : Built k) (exact : k.IsExact) :
    (∃ v key, k.toColumn = .ok v ∧ withTag ofColumn k.kind.tag v = .ok key ∧ Restores key k) ∧
      ∃ s, k.toWrapped = .ok s ∧ Restores (parse s) k := by
  have known : k.kind ≠ .opaqueType := by cases k <;> exact nofun
  have sound := builtSound built
  obtain ⟨v, key, stored, read, same⟩ := columnBack sound exact
  obtain ⟨s, other, shown, readText, sameText⟩ := textBack sound exact
  refine ⟨⟨v, key, stored, ?_, same⟩, label k.kind ++ "(" ++ s ++ ")", ?_, ?_⟩
  · unfold withTag
    rw [tagBack]
    exact read
  · unfold toWrapped
    rw [shown]
    rfl
  · rw [parseBack known readText]
    exact sameText

/-- A document with escapes, a bracket and a label in its texts, a member that moves to the front, and a zero that loses its sign. -/
def nested : Json :=
  .object [("b\n)", .text "I32(1)\""), ("2", .array [.number .negativeZero, .null, .number (.integer (-12))])]

theorem nestedBack : Built (.json (.ofJson nested)) ∧ KeyForm.IsExact (.json (.ofJson nested)) ∧
    (∃ v key, toColumn (.json (.ofJson nested)) = .ok v ∧ withTag ofColumn "json" v = .ok key ∧
      Restores key (.json (.ofJson nested))) ∧
    ∃ s, toWrapped (.json (.ofJson nested)) = .ok s ∧ Restores (parse s) (.json (.ofJson nested)) :=
  have built : Built (.json (.ofJson nested)) := .ofKind (show withTag make "json" (.ofJson nested) = .ok _ from rfl)
  have exact : KeyForm.IsExact (.json (.ofJson nested)) := ⟨nested, rfl, by decide⟩
  ⟨built, exact, keyBack built exact⟩

end RoundTrips

end Key

end EntityQuery
