import EntityQuery.Proofs.KeyEquality
import EntityQuery.Proofs.Operands
import EntityQuery.Proofs.Sample
/-! Values that are written, returned and read. What is read is the value in the form of its field, and is written as it
was; integers stay what they are or are refused. -/

namespace EntityQuery

namespace Record

variable {α β : Type} (f : α → β)

theorem hasMapped (r : Record α) (name : String) : (mapValues f r).has name = r.has name := by
  unfold has
  rw [getMapped, Option.isSome_map]

theorem replaceMapped (r : Record α) (name : String) (v : α) :
    (mapValues f r).replace name (f v) = mapValues f (r.replace name v) := by
  induction r with
  | nil => rfl
  | cons pair rest ih =>
    change (if pair.1 = name then (pair.1, f v) :: mapValues f rest
      else (pair.1, f pair.2) :: replace (mapValues f rest) name (f v)) = mapValues f (if pair.1 = name then (pair.1, v) :: rest else (pair.1, pair.2) :: replace rest name v)
    rw [ih]
    split <;> rfl

theorem insertMapped (i : Nat) (name : String) (v : α) (r : Record α) :
    insertIndex i name (f v) (mapValues f r) = mapValues f (insertIndex i name v r) := by
  induction r with
  | nil => rfl
  | cons pair rest ih =>
    change insertIndex i name (f v) ((pair.1, f pair.2) :: mapValues f rest) = _
    unfold insertIndex
    rw [ih]
    split
    · split <;> rfl
    · rfl

theorem putMapped (r : Record α) (name : String) (v : α) : (mapValues f r).put name (f v) = mapValues f (r.put name v) := by
  unfold put
  rw [hasMapped]
  split
  · exact replaceMapped f r name v
  · split
    · exact insertMapped f _ name v r
    · unfold mapValues
      rw [List.map_append]
      rfl

theorem ofPairsMapped (pairs : List (String × α)) : ofPairs (mapValues f pairs) = mapValues f (ofPairs pairs) := by
  have added : ∀ acc : Record α, (mapValues f pairs).foldl (fun r pair => r.put pair.1 pair.2) (mapValues f acc) =
      mapValues f (pairs.foldl (fun r pair => r.put pair.1 pair.2) acc) := by
    induction pairs with
    | nil => exact fun acc => rfl
    | cons pair rest ih =>
      intro acc
      change (mapValues f rest).foldl _ ((mapValues f acc).put pair.1 (f pair.2)) = _
      rw [putMapped]
      exact ih _
  exact added []

end Record

namespace Json

mutual

/-- Does every object of a document hold its members in the order of a record? The objects of all values do. -/
def Kept : Json → Prop
  | .array items => AllKept items
  | .object members => Record.ofPairs members = members ∧ MembersKept members
  | _ => True
termination_by structural j => j

def AllKept : List Json → Prop
  | [] => True
  | item :: rest => Kept item ∧ AllKept rest
termination_by structural items => items

def MembersKept : List (String × Json) → Prop
  | [] => True
  | (_, value) :: rest => Kept value ∧ MembersKept rest
termination_by structural members => members

end

theorem storedMembersMap (members : List (String × Json)) : storedMembers members = Record.mapValues stored members := by
  induction members with
  | nil => rfl
  | cons m rest ih => exact congrArg ((m.1, m.2.stored) :: ·) ih

/-- Members in the order of a record stay in it. -/
theorem storedOrder {members : List (String × Json)} (order : Record.ofPairs members = members) :
    Record.ofPairs (storedMembers members) = storedMembers members := by
  rw [storedMembersMap, Record.ofPairsMapped, order]

mutual

/-- By induction on the document: what is read from the text of a document has that text. -/
theorem storedChars (j : Json) (safe : j.isSafe) (kept : j.Kept) : j.stored.chars = j.chars := by
  cases j with
  | null | bool _ | text _ => rfl
  | number n => exact settledChars safe
  | array items =>
    rw [stored, chars, chars, itemsAlike (storedItemsChars items safe kept)]
  | object members =>
    obtain ⟨-, safe⟩ := (Bool.and_eq_true ..).mp safe
    rw [stored, chars, chars, storedOrder kept.1, charsAlike (storedMembersAlike members safe kept.2)]
termination_by structural j

theorem storedItemsChars (items : List Json) (safe : areSafe items) (kept : AllKept items) :
    (storedItems items).map chars = items.map chars := by
  cases items with
  | nil => rfl
  | cons item rest =>
    obtain ⟨here, others⟩ := (Bool.and_eq_true ..).mp safe
    exact congrArg₂ List.cons (storedChars item here kept.1) (storedItemsChars rest others kept.2)
termination_by structural items

theorem storedMembersAlike (members : List (String × Json)) (safe : membersSafe members) (kept : MembersKept members) :
    List.Forall₂ Alike (storedMembers members) members := by
  cases members with
  | nil => exact .nil
  | cons m rest =>
    obtain ⟨name, value⟩ := m
    obtain ⟨here, others⟩ := (Bool.and_eq_true ..).mp safe
    exact .cons ⟨rfl, storedChars value ((Bool.and_eq_true ..).mp here).2 kept.1⟩ (storedMembersAlike rest others kept.2)
termination_by structural members

end

theorem settledSafe {n : Number} (safe : n.isSafeInteger) : (settled n).isSafeInteger := by
  obtain ⟨i, value, small, -⟩ := safeChars safe
  rw [value]
  exact decide_eq_true small

mutual

theorem storedSafe (j : Json) (safe : j.isSafe) (kept : j.Kept) : j.stored.isSafe := by
  cases j with
  | null | bool _ => rfl
  | text _ => exact safe
  | number n => exact settledSafe safe
  | array items => exact storedItemsSafe items safe kept
  | object members =>
    obtain ⟨distinct, safe⟩ := (Bool.and_eq_true ..).mp safe
    have names := storedNames members ▸ of_decide_eq_true distinct
    rw [stored, storedOrder kept.1]
    exact (Bool.and_eq_true ..).mpr ⟨decide_eq_true names, storedMembersSafe members safe kept.2⟩
termination_by structural j

theorem storedItemsSafe (items : List Json) (safe : areSafe items) (kept : AllKept items) : areSafe (storedItems items) := by
  cases items with
  | nil => rfl
  | cons item rest =>
    obtain ⟨here, others⟩ := (Bool.and_eq_true ..).mp safe
    exact (Bool.and_eq_true ..).mpr ⟨storedSafe item here kept.1, storedItemsSafe rest others kept.2⟩
termination_by structural items

theorem storedMembersSafe (members : List (String × Json)) (safe : membersSafe members) (kept : MembersKept members) :
    membersSafe (storedMembers members) := by
  cases members with
  | nil => rfl
  | cons m rest =>
    obtain ⟨name, value⟩ := m
    obtain ⟨here, others⟩ := (Bool.and_eq_true ..).mp safe
    obtain ⟨joined, safeValue⟩ := (Bool.and_eq_true ..).mp here
    exact (Bool.and_eq_true ..).mpr ⟨(Bool.and_eq_true ..).mpr ⟨joined, storedSafe value safeValue kept.1⟩,
      storedMembersSafe rest others kept.2⟩
termination_by structural members

end

/-- What is read from the text of a document is of its value. -/
theorem storedSame {j : Json} (safe : j.isSafe) (kept : j.Kept) : Same j j.stored :=
  (canonicalSame safe (storedSafe j safe kept)).mp (canonicalBack safe).symm

end Json

namespace ScalarType

/-- The values that are given for a type: days and instants as dates or text, and JSON data whose numbers are safe integers. -/
def Gives : ScalarType → Value → Prop
  | .float _, _ | .opaqueType, _ => False
  | .json, v => ∃ j : Json, v = .ofJson j ∧ j.isSafe ∧ j.Kept
  | type, v => type.takes v

/-- The form in which a value comes back: exact integers for wide integers and numbers for narrow ones, small letters,
dates for instants, days as text, and documents of one value and one text. All else comes back as it is. -/
inductive Form : ScalarType → Value → Value → Prop where
  | wide {width : IntegerType} {v : Value} {n : Int} (wide : width.isWide = true) (exact : Field.exactInt? v = some n) :
      Form (.integer width) v (.integer n)
  | narrow {width : IntegerType} {v : Value} {n : Int} (narrow : width.isWide = false) (exact : Field.exactInt? v = some n) :
      Form (.integer width) v (.int n)
  | text (s : String) : Form .text (.text s) (.text s)
  | bool (b : Bool) : Form .bool (.bool b) (.bool b)
  | datetime {v : Value} {t : Time.Instant} (read : Field.instant? v = some t) : Form .datetime v (.date (some t))
  | day (s : String) : Form .date (.text s) (.text s)
  | instantDay (t : Time.Instant) : Form .date (.date (some t)) (.text (String.ofList ((Time.toIso t).toList.take 10)))
  | time (s : String) : Form .time (.text s) (.text s)
  | uuid (s : String) : Form .uuid (.text s) (.text (Uuid.normalize s))
  | document {j k : Json} (same : Json.Same j k) (text : k.print = j.print) : Form .json (.ofJson j) (.ofJson k)

end ScalarType

namespace Field

variable {f : Field} {fields : List Field} {v e d : Value}

/-- What is read of a written value is the value in the form of its type. -/
theorem readForm (takes : f.type.takes v) (keyed : f.type.isKeyType) (notJson : f.type ≠ .json)
    (written : f.encode v = .ok e) (read : f.decode e = .ok d) : f.type.Form v d := by
  have given : f.encode v = f.encodePresent v := encodeGiven rfl (ScalarType.takesThere takes)
  rw [given] at written
  unfold encodePresent at written
  unfold decode decodePresent at read
  cases type : f.type with
  | float _ | opaqueType =>
    rw [type] at keyed
    cases keyed
  | json => exact absurd type notJson
  | integer width =>
    simp only [type, encodeInteger] at written read
    split at written
    · cases written
    · rename_i n exact
      split at written
      · cases written
        unfold ofWidth at read
        cases wide : width.isWide with
        | true =>
          rw [wide] at read
          cases read
          exact .wide wide exact
        | false =>
          rw [wide] at read
          cases read
          exact .narrow wide exact
      · cases written
  | text =>
    simp only [type] at written read
    split at written
    · cases written
      cases read
      exact .text _
    · cases written
  | bool =>
    simp only [type] at written read
    split at written
    · cases written
      cases read
      exact .bool _
    · cases written
  | uuid =>
    simp only [type] at written read
    split at written
    · split at written
      · cases written
        cases read
        exact .uuid _
      · cases written
    · cases written
  | datetime =>
    simp only [type, toDate] at written read
    split at written
    · rename_i t instant
      cases written
      cases read
      exact .datetime instant
    · cases written
  | date =>
    simp only [type] at written read
    rw [type] at takes
    cases v with
    | text s =>
      cases written
      cases read
      exact .day s
    | date t =>
      cases t with
      | none => cases written
      | some t =>
        cases written
        cases read
        exact .instantDay t
    | _ => cases takes
  | time =>
    simp only [type] at written read
    rw [type] at takes
    cases v with
    | text s =>
      cases written
      cases read
      exact .time s
    | _ => cases takes

theorem encodeDocument (j : Json) : encodeJson (.ofJson j) = .ok (.text j.print) := by
  unfold encodeJson
  split
  · rename_i null
    cases j <;> cases null
  · rw [Value.jsonTextOfJson]
    rfl

theorem storedThere {j : Json} (there : (Value.ofJson j).isNothing = false) : (Value.ofJson j.stored).isNothing = false := by
  cases j <;> first | rfl | cases there

/-- A document that is written comes back with its text. -/
theorem documentAgain {j : Json} (type : f.type = .json)
    (returns : ∃ g, Store.fieldAt? fields f.column = some g ∧ g.type = .json) (safe : j.isSafe) (kept : j.Kept) (there : (Value.ofJson j).isNothing = false) (written : f.encode (.ofJson j) = .ok e) :
    Store.returned fields f.column e = .ok (.ofJson j.stored) ∧ f.decode (.ofJson j.stored) = .ok (.ofJson j.stored) ∧
      f.encode (.ofJson j.stored) = .ok e := by
  obtain ⟨g, found, document⟩ := returns
  have encoded : ∀ k : Json, (Value.ofJson k).isNothing = false → f.encode (.ofJson k) = .ok (.text k.print) :=
    fun k given => (encodeGiven type given).trans (encodeDocument k)
  obtain rfl := Except.ok.inj ((encoded j there).symm.trans written)
  have text : j.stored.print = j.print := congrArg String.ofList (Json.storedChars j safe kept)
  refine ⟨?_, ?_, (encoded _ (storedThere there)).trans (by rw [text])⟩
  · unfold Store.returned
    rw [found]
    dsimp only
    rw [Option.any_some, document, beq_self_eq_true, if_pos rfl, Json.readBack safe]
  · unfold decode decodePresent
    rw [storedThere there, type]
    rfl

theorem textReturned (returns : ∃ g, Store.fieldAt? fields f.column = some g ∧ (g.type = .json ↔ f.type = .json))
    (notJson : f.type ≠ .json) (s : String) : Store.returned fields f.column (.text s) = .ok (.text s) := by
  obtain ⟨g, found, documents⟩ := returns
  unfold Store.returned
  rw [found]
  dsimp only
  rw [Option.any_some, beq_false_of_ne (mt documents.mp notJson)]
  rfl

theorem encodeWhole {width : IntegerType} {n : Int} (type : f.type = .integer width) (there : v.isNothing = false)
    (exact : exactInt? v = some n) :
    f.encode v = if width.holds n then .ok (ofWidth width n) else .error (.value (.outOfRange f.name width.tag)) := by
  have given : f.encode v = encodeInteger width f.name v := encodeGiven type there
  rw [given, encodeInteger, exact]

/-- What is written for a value settles: it is returned and read in the form of its field, and is written again as it
was. Integers stay what they are, and one that the width of its field does not hold is refused. -/
theorem writtenSettles (f : Field) (fields : List Field) (v : Value)
    (returns : ∃ g, Store.fieldAt? fields f.column = some g ∧ (g.type = .json ↔ f.type = .json))
    (gives : f.type.Gives v) (there : v.isNothing = false) :
    (∀ e, f.encode v = .ok e → ∃ raw d, Store.returned fields f.column e = .ok raw ∧ f.decode raw = .ok d ∧
      f.encode d = .ok e ∧ f.type.Form v d ∧
      ∀ width, f.type = .integer width →
        ∃ n, width.holds n ∧ exactInt? v = some n ∧ exactInt? e = some n ∧ exactInt? d = some n) ∧
    ∀ width n, f.type = .integer width → exactInt? v = some n → ¬ width.holds n →
      ∃ failure report, f.encode v = .error failure ∧ failure.report? = some report ∧ report.name = "ValidationError" := by
  refine ⟨fun e written => ?_, fun width n type exact outside => ?_⟩
  · by_cases type : f.type = .json
    · have document : ∃ j : Json, v = .ofJson j ∧ j.isSafe ∧ j.Kept := by
        rw [type] at gives
        exact gives
      obtain ⟨j, rfl, safe, kept⟩ := document
      obtain ⟨g, found, documents⟩ := returns
      obtain ⟨returned, read, again⟩ := documentAgain type ⟨g, found, documents.mpr type⟩ safe kept there written
      refine ⟨_, _, returned, read, again, ?_, fun width integer => ?_⟩
      · rw [type]
        exact .document (Json.storedSame safe kept) (congrArg String.ofList (Json.storedChars j safe kept))
      · cases type.symm.trans integer
    · have taken : f.type.isKeyType ∧ f.type.takes v := by
        cases kind : f.type <;> rw [kind] at gives <;>
          first | exact ⟨rfl, gives⟩ | exact gives.elim | exact absurd kind type
      obtain ⟨keyed, takes⟩ := taken
      have stays := writtenThere takes keyed written
      obtain ⟨returned, d, read, again⟩ := keyAgain (textReturned returns type) keyed type written stays
      refine ⟨e, d, returned, read, again, readForm takes keyed type written read, fun width integer => ?_⟩
      obtain ⟨n, exact, holds, -⟩ := integerWritten integer written there
      have whole := (encodeWhole integer there exact).symm.trans written
      rw [if_pos holds] at whole
      obtain rfl := Except.ok.inj whole
      have form := readForm takes keyed type written read
      rw [integer] at form
      refine ⟨n, holds, exact, ?_, ?_⟩
      · unfold ofWidth
        split <;> rfl
      · cases form with
        | wide _ same => exact same.symm.trans exact
        | narrow _ same => exact same.symm.trans exact
  · refine ⟨.value (.outOfRange f.name width.tag), _, ?_, rfl, rfl⟩
    rw [encodeWhole type there exact, if_neg outside]

end Field

namespace Sample

/-- The key of a part in capital letters is written, returned and read in small ones, and written again as those. -/
theorem keySettles : ∃ e, codeField.encode (.text "3B241101-E2BB-4255-8CAF-4136C566A962") = .ok e ∧
    ∃ raw d, Store.returned part.fields codeField.column e = .ok raw ∧ codeField.decode raw = .ok d ∧
      codeField.encode d = .ok e ∧ d = .text wheel := by
  have written : codeField.encode (.text "3B241101-E2BB-4255-8CAF-4136C566A962") = .ok (.text wheel) := rfl
  obtain ⟨raw, d, returned, read, again, form, -⟩ := (Field.writtenSettles codeField part.fields
    (.text "3B241101-E2BB-4255-8CAF-4136C566A962") ⟨codeField, rfl, Iff.rfl⟩ rfl rfl).1 _ written
  refine ⟨_, written, raw, d, returned, read, again, ?_⟩
  cases form
  rfl

end Sample

end EntityQuery
