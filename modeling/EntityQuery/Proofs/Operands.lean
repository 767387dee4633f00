import EntityQuery.Field.Operand
import EntityQuery.Proofs.Keys
import EntityQuery.Proofs.Matching
/-! Operands of equality and what is written for the same value. Both are one column value, but for days and plain
JSON values that are asked for as primary keys: those are converted as keys first, and come out in another form. -/

namespace EntityQuery

namespace Text

theorem unitsOfSome (c : Char) : 1 ≤ (unitsOf c).length ∧ (unitsOf c).length ≤ 2 := by
  unfold unitsOf
  split
  · simp
  · split <;> simp

theorem lengthUnits (cs : List Char) : cs.length ≤ (cs.flatMap unitsOf).length := by
  induction cs with
  | nil => exact le_rfl
  | cons c rest ih =>
    have here := (unitsOfSome c).1
    rw [List.flatMap_cons, List.length_append, List.length_cons]
    omega

end Text

namespace Json

theorem escapedUnits (c : Char) : (Text.unitsOf c).length ≤ ((escaped c).flatMap Text.unitsOf).length := by
  have most := (Text.unitsOfSome c).2
  have several : ∀ cs : List Char, 2 ≤ cs.length → (Text.unitsOf c).length ≤ (cs.flatMap Text.unitsOf).length := by
    intro cs long
    have each := Text.lengthUnits cs
    omega
  unfold escaped
  split_ifs
  · exact several _ (by decide)
  · exact several _ (by decide)
  · exact several _ (by decide)
  · exact several _ (by decide)
  · exact several _ (by decide)
  · exact several _ (by decide)
  · exact several _ (by decide)
  · exact several _ (by simp)
  · split
    · exact several _ (by simp)
    · rw [List.flatMap_singleton]

/-- A text as JSON is longer than the text. -/
theorem quotedUnits (s : String) : (Text.units s).length + 2 ≤ (Text.units (print (.text s))).length := by
  have escapes : ∀ cs : List Char, (cs.flatMap Text.unitsOf).length ≤ ((cs.flatMap escaped).flatMap Text.unitsOf).length := by
    intro cs
    induction cs with
    | nil => exact le_rfl
    | cons c rest ih =>
      have here := escapedUnits c
      rw [List.flatMap_cons, List.flatMap_cons, List.flatMap_append, List.length_append, List.length_append]
      omega
  have body := escapes s.toList
  have quote : (Text.unitsOf '"').length = 1 := rfl
  unfold Text.units print chars quoted
  rw [String.toList_ofList, List.flatMap_append, List.flatMap_cons, List.flatMap_singleton, List.length_append,
    List.length_append, quote]
  omega

end Json

namespace Time

/-- The text of an instant goes on after the day. -/
theorem isoLonger (t : Instant) : 10 < (isoChars t).length := by
  simp only [isoChars, padded, List.length_append, List.length_cons, Text.length_padLeft]
  omega

end Time

namespace Store

theorem meetsUnits {a b : String} (equal : meets (.text a) (.text b)) : Text.units a = Text.units b := by
  obtain ⟨-, -, same⟩ := meetsOk equal
  obtain ⟨x, y, hx, hy, ordered⟩ := sameOk same
  cases hx
  cases hy
  exact Comparable.textOrder.mp (eq_of_beq ordered.symm)

end Store

namespace ScalarType

/-- The values that applications may give for a type. -/
def takes : ScalarType → Value → Bool
  | .integer width, .integer _ => width.isWide
  | .integer _, .number _ | .float _, .number _ => true
  | .text, .text _ | .uuid, .text _ | .time, .text _ | .bool, .bool _ => true
  | .datetime, .date _ | .datetime, .text _ | .date, .date _ | .date, .text _ => true
  | .json, .bool _ | .json, .number _ | .json, .text _ | .json, .array _ | .json, .object _ | .json, .jsonNull => true
  | .opaqueType, v => !v.isNothing
  | _, _ => false

theorem takesThere {type : ScalarType} {v : Value} (takes : type.takes v) : v.isNothing = false := by
  cases v with
  | absent | null => cases type <;> cases takes
  | _ => rfl

end ScalarType

namespace Field

/-- Is a value of a primary key asked for in another form than the one that is written? The key of an instant is its
text at full length, and the key of a plain JSON value is already JSON text. -/
def misses (f : Field) (v : Value) : Bool :=
  f.primaryKey &&
    match f.type, v with
    | .date, .date _ | .json, .bool _ | .json, .number _ | .json, .text _ => true
    | _, _ => false

variable {f : Field} {v w : Value}

theorem operandEncoded (there : v.isNothing = false) (bare : (f.primaryKey && isKeyValue v) = false) :
    f.encodeOperand v = f.encode v := by
  unfold encodeOperand
  rw [there, bare]
  rfl

theorem operandConverted (there : v.isNothing = false) (primary : f.primaryKey) (keyed : isKeyValue v) :
    f.encodeOperand v = Key.ofValue v >>= fun k => k.convert f.type >>= f.encode := by
  unfold encodeOperand
  rw [there, primary, keyed]
  rfl

/-- Encoding a value that is there, for a type that is known. -/
theorem encodeGiven {type : ScalarType} (typed : f.type = type) (there : v.isNothing = false) :
    f.encode v = { f with type }.encodePresent v := by
  subst typed
  unfold encode
  rw [there]
  rfl

theorem integerWritten {width : IntegerType} (type : f.type = .integer width) (written : f.encode v = .ok w)
    (there : v.isNothing = false) :
    ∃ n, exactInt? v = some n ∧ width.holds n ∧ ∀ u, u.isNothing = false → exactInt? u = some n → f.encode u = .ok w := by
  have encoded : ∀ u : Value, u.isNothing = false → f.encode u = encodeInteger width f.name u :=
    fun u given => encodeGiven type given
  rw [encoded v there] at written
  unfold encodeInteger at written
  split at written
  · cases written
  · rename_i n exact
    split at written
    · rename_i holds
      refine ⟨n, exact, holds, fun u given same => ?_⟩
      rw [encoded u given, encodeInteger, same]
      exact (if_pos holds).trans written
    · cases written

/-- A key that is an exact integer is converted to an integer type as that integer. -/
theorem convertInteger {k : Key} {width : IntegerType} {n : Int} (exact : exactInt? k.value = some n)
    (column : k.toColumn = .ok k.value) (holds : width.holds n) :
    ∃ u, k.convert (.integer width) = .ok u ∧ u.isNothing = false ∧ exactInt? u = some n := by
  unfold KeyForm.convert
  split
  · refine ⟨k.value, column, ?_, exact⟩
    cases value : k.value with
    | absent | null =>
      rw [value] at exact
      cases exact
    | _ => rfl
  · have same : k.exactInt? = some n := exact
    dsimp only
    rw [same]
    dsimp only
    rw [if_pos holds]
    refine ⟨_, rfl, ?_⟩
    split
    · exact ⟨rfl, rfl⟩
    · exact ⟨rfl, rfl⟩

theorem numberKey (n : Number) : exactInt? (Key.ofNumber n).value = n.int? ∧ (Key.ofNumber n).toColumn = .ok (Key.ofNumber n).value := by
  unfold Key.ofNumber
  split
  · exact ⟨rfl, rfl⟩
  · split
    · exact ⟨rfl, rfl⟩
    · split
      · exact ⟨rfl, rfl⟩
      · exact ⟨rfl, rfl⟩
  · exact ⟨rfl, rfl⟩

theorem integerKey {width : IntegerType} {n : Int} (wide : width.isWide) (holds : width.holds n) :
    ∃ k, Key.ofValue (.integer n) = .ok k ∧ exactInt? k.value = some n ∧ k.toColumn = .ok k.value := by
  unfold Key.ofValue
  by_cases signed : IntegerType.i64.holds n
  · exact ⟨_, if_pos signed, rfl, rfl⟩
  · have unsigned : IntegerType.u64.holds n := by
      cases width with
      | i64 => exact absurd holds signed
      | u64 => exact holds
      | _ => cases wide
    exact ⟨_, (if_neg signed).trans (if_pos unsigned), rfl, rfl⟩

theorem instantWritten {s : String} (type : f.type = .datetime) (written : f.encode (.text s) = .ok w) :
    ∃ t, Time.ofIso? s = some t ∧ f.encode (.date (some t)) = .ok w := by
  rw [encodeGiven type rfl] at written
  have given : toDate f.name (.text s) = .ok w := written
  unfold toDate at given
  cases read : instant? (.text s) with
  | some t =>
    rw [read] at given
    exact ⟨t, read, (encodeGiven type rfl).trans given⟩
  | none =>
    rw [read] at given
    cases given

theorem uuidWritten {s : String} (type : f.type = .uuid) (written : f.encode (.text s) = .ok w) :
    Uuid.isUuid s ∧ f.encode (.text (Uuid.normalize s)) = .ok w := by
  rw [encodeGiven type rfl] at written
  change (if Uuid.isUuid s then Except.ok (Value.text (Uuid.normalize s)) else Except.error (Failure.malformedUuid f.name)) = _ at written
  split at written
  · rename_i isUuid
    obtain ⟨again, same⟩ := Uuid.normalAgain isUuid
    refine ⟨isUuid, ?_⟩
    rw [encodeGiven type rfl]
    change (if Uuid.isUuid (Uuid.normalize s) then Except.ok (Value.text (Uuid.normalize (Uuid.normalize s)))
      else Except.error (Failure.malformedUuid f.name)) = _
    rw [if_pos again, same]
    exact written
  · cases written

theorem documentThere (takes : ScalarType.json.takes v) (written : encodeJson v = .ok w) : w.isNothing = false := by
  have printed : ∀ {read : Except Value.JsonFault (Option Json)} {finish : Option String → Except Failure Value},
      (∀ s, finish (some s) = .ok (.text s)) → (∀ j, read = .ok j → j ≠ none) →
        (do finish (← (do return (← read.mapError fun _ => Failure.exactIntegerInJson).map Json.print))) = .ok w →
          w.isNothing = false := by
    intro read finish finished some ran
    obtain ⟨text, shown, ran⟩ := Results.bindOk ran
    obtain ⟨j, parsed, shown⟩ := Results.bindOk shown
    cases read with
    | error fault => cases parsed
    | ok k =>
      cases k with
      | none => exact (some none rfl rfl).elim
      | some k =>
        cases parsed
        cases shown
        rw [Option.map_some, finished] at ran
        cases ran
        rfl
  cases v with
  | jsonNull =>
    cases written
    rfl
  | bool _ | number _ | text _ =>
    refine printed (fun _ => rfl) (fun j read => ?_) written
    cases read
    exact Option.some_ne_none _
  | array items =>
    refine printed (fun _ => rfl) (fun j read => ?_) written
    unfold Value.toJson? at read
    cases listed : Value.toJsonItems .asText items with
    | error fault => rw [listed] at read; cases read
    | ok others => rw [listed] at read; cases read; exact Option.some_ne_none _
  | object members =>
    refine printed (fun _ => rfl) (fun j read => ?_) written
    unfold Value.toJson? at read
    cases listed : Value.toJsonMembers .asText members with
    | error fault => rw [listed] at read; cases read
    | ok others => rw [listed] at read; cases read; exact Option.some_ne_none _
  | _ => cases takes

/-- What is written for a value that may be given for a key is there. -/
theorem writtenThere (takes : f.type.takes v) (keyed : f.type.isKeyType) (written : f.encode v = .ok w) :
    w.isNothing = false := by
  have present := (encodeGiven rfl (ScalarType.takesThere takes)).symm.trans written
  unfold encodePresent at present
  cases type : f.type with
  | float _ | opaqueType =>
    rw [type] at keyed
    cases keyed
  | integer width =>
    simp only [type, encodeInteger] at present
    split at present
    · cases present
    · split at present
      · cases present
        unfold ofWidth
        split <;> rfl
      · cases present
  | text | bool =>
    simp only [type] at present
    split at present
    · cases present
      rfl
    · cases present
  | uuid =>
    simp only [type] at present
    split at present
    · split at present
      · cases present
        rfl
      · cases present
    · cases present
  | datetime =>
    simp only [type, toDate] at present
    split at present
    · cases present
      rfl
    · cases present
  | date =>
    simp only [type] at present
    obtain ⟨s, rfl⟩ := encodeDayText present
    rfl
  | time =>
    simp only [type] at present
    obtain ⟨_, _, present⟩ := Results.bindOk present
    cases present
    rfl
  | json =>
    rw [type] at takes
    simp only [type] at present
    exact documentThere takes present

/-- A value that can be written is asked for as it is written, unless it is one of those that are missed. -/
theorem operandWritten (takes : f.type.takes v) (keyed : f.type.isKeyType) (kept : f.misses v = false)
    (written : f.encode v = .ok w) : f.encodeOperand v = .ok w := by
  have there := ScalarType.takesThere takes
  cases bare : f.primaryKey && isKeyValue v with
  | false => rw [operandEncoded there bare, written]
  | true =>
    obtain ⟨primary, key⟩ := Bool.and_eq_true_iff.mp bare
    suffices converts : ∃ k u, Key.ofValue v = .ok k ∧ k.convert f.type = .ok u ∧ f.encode u = .ok w by
      obtain ⟨k, u, keyOf, converted, encoded⟩ := converts
      rw [operandConverted there primary key, keyOf]
      change (k.convert f.type >>= f.encode) = _
      rw [converted]
      exact encoded
    unfold misses at kept
    rw [primary, Bool.true_and] at kept
    -- by the type of the field and the form of the value
    cases type : f.type with
    | float _ | opaqueType =>
      rw [type] at keyed
      cases keyed
    | integer width =>
      obtain ⟨n, exact, holds, same⟩ := integerWritten type written there
      rw [type] at takes
      cases v with
      | number x =>
        obtain ⟨value, column⟩ := numberKey x
        obtain ⟨u, converted, given, again⟩ := convertInteger (value.trans exact) column holds
        exact ⟨_, u, rfl, converted, same u given again⟩
      | integer m =>
        obtain rfl : m = n := Option.some.inj exact
        obtain ⟨k, keyOf, value, column⟩ := integerKey takes holds
        obtain ⟨u, converted, given, again⟩ := convertInteger value column holds
        exact ⟨k, u, keyOf, converted, same u given again⟩
      | _ => cases takes
    | text =>
      rw [type] at takes
      cases v with
      | text s => exact ⟨.text s, .text s, rfl, rfl, written⟩
      | _ => cases takes
    | bool =>
      rw [type] at takes
      cases v with
      | bool b => exact ⟨.bool b, .bool b, rfl, rfl, written⟩
      | _ => cases takes
    | time =>
      rw [type] at takes
      cases v with
      | text s => exact ⟨.text s, .text s, rfl, rfl, written⟩
      | _ => cases takes
    | date =>
      rw [type] at takes kept
      cases v with
      | text s => exact ⟨.text s, .text s, rfl, rfl, written⟩
      | date _ => cases kept
      | _ => cases takes
    | datetime =>
      rw [type] at takes
      cases v with
      | date t => exact ⟨.datetime t, .date t, rfl, rfl, written⟩
      | text s =>
        obtain ⟨t, read, again⟩ := instantWritten type written
        refine ⟨.text s, .date (some t), rfl, ?_, again⟩
        unfold KeyForm.convert
        rw [if_neg (by rintro (same | same) <;> cases same)]
        dsimp only [KeyForm.value]
        rw [read]
      | _ => cases takes
    | uuid =>
      rw [type] at takes
      cases v with
      | text s =>
        obtain ⟨isUuid, again⟩ := uuidWritten type written
        exact ⟨.text s, .text (Uuid.normalize s), rfl, if_pos isUuid, again⟩
      | _ => cases takes
    | json =>
      rw [type] at takes kept
      cases v with
      | array _ | object _ | jsonNull => cases key
      | bool _ | number _ | text _ => cases kept
      | _ => cases takes

theorem dayMissed {t : Option Int} (type : f.type = .date) (primary : f.primaryKey) (written : f.encode (.date t) = .ok w) :
    ∃ operand, f.encodeOperand (.date t) = .ok operand ∧ operand.isNothing = false ∧ Store.meets w operand = false := by
  rw [encodeGiven type rfl] at written
  obtain ⟨iso, full, written⟩ := Results.bindOk written
  cases written
  cases t with
  | none => cases full
  | some t =>
    cases full
    refine ⟨.text (Time.toIso t), ?_, rfl, ?_⟩
    · rw [operandConverted rfl primary rfl, type]
      exact encodeGiven (v := .text (Time.toIso t)) type rfl
    · by_contra equal
      rw [Bool.not_eq_false] at equal
      have units := congrArg List.length (Store.meetsUnits equal)
      have longer := Time.isoLonger t
      have rest := Text.lengthUnits ((Time.isoChars t).drop 10)
      unfold Text.units Time.toIso at units
      rw [String.toList_ofList, String.toList_ofList] at units
      conv at units => rhs; rw [← List.take_append_drop 10 (Time.isoChars t)]
      rw [List.flatMap_append, List.length_append] at units
      rw [List.length_drop] at rest
      omega

/-- JSON text is asked for as the text of that text, which is longer than what was written. -/
theorem documentMissed {j : Json} {k : Key} {s : String} (type : f.type = .json) (primary : f.primaryKey)
    (keyed : isKeyValue v) (there : v.isNothing = false) (encoded : encodeJson v = .ok (.text j.print))
    (keyOf : Key.ofValue v = .ok k) (converted : k.convert .json = .ok (.text s))
    (longer : (Text.units j.print).length ≤ (Text.units s).length) (written : f.encode v = .ok w) :
    ∃ operand, f.encodeOperand v = .ok operand ∧ operand.isNothing = false ∧ Store.meets w operand = false := by
  refine ⟨.text (Json.print (.text s)), ?_, rfl, ?_⟩
  · rw [operandConverted there primary keyed, keyOf, type]
    change (k.convert .json >>= f.encode) = _
    rw [converted]
    exact encodeGiven (v := .text s) type rfl
  · by_contra equal
    rw [encodeGiven type there] at written
    obtain rfl := Except.ok.inj (encoded.symm.trans written)
    rw [Bool.not_eq_false] at equal
    have units := congrArg List.length (Store.meetsUnits equal)
    have quoted := Json.quotedUnits s
    omega

/-- The key of a number is as JSON the text of the number, or the text of that where it is a wide integer. -/
theorem numberDocument (n : Number) : ∃ s, (Key.ofNumber n).convert .json = .ok (.text s) ∧
    (Text.units (Json.print (.number n))).length ≤ (Text.units s).length := by
  unfold Key.ofNumber
  split
  · exact ⟨_, rfl, le_rfl⟩
  · rename_i i
    split
    · exact ⟨_, rfl, le_rfl⟩
    · split
      · rename_i safe
        have bounded : i.natAbs ≤ Number.integerBound := by
          have small : decide (i.natAbs < Number.integerBound) = true := safe
          exact le_of_lt (of_decide_eq_true small)
        have shown : Json.print (.number (.integer i)) = Number.intText i := by
          change String.ofList (Number.toText (.integer i)).toList = _
          rw [String.ofList_toList, Number.toText, if_pos bounded]
        refine ⟨Json.print (.text (Number.intText i)), rfl, ?_⟩
        have quoted := Json.quotedUnits (Number.intText i)
        rw [shown]
        omega
      · exact ⟨_, rfl, le_rfl⟩
  · exact ⟨_, rfl, le_rfl⟩

/-- What is written for a missed value is not equal to what is asked for. -/
theorem operandMissed (missed : f.misses v) (written : f.encode v = .ok w) :
    ∃ operand, f.encodeOperand v = .ok operand ∧ operand.isNothing = false ∧ Store.meets w operand = false := by
  obtain ⟨primary, plain⟩ := Bool.and_eq_true_iff.mp missed
  clear missed
  split at plain
  · rename_i type
    exact dayMissed type primary written
  · rename_i type
    exact documentMissed type primary rfl rfl rfl rfl rfl le_rfl written
  · rename_i n type
    obtain ⟨s, converted, longer⟩ := numberDocument n
    exact documentMissed type primary rfl rfl rfl rfl converted longer written
  · rename_i type
    exact documentMissed type primary rfl rfl rfl rfl rfl le_rfl written
  · cases plain

end Field

end EntityQuery
