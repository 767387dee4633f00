import EntityQuery.Proofs.NumberTexts
import EntityQuery.Proofs.TypedPredicates
/-! The texts that values are told apart by. Values of one text are one value, where an integral number is the exact integer
that it is, as long as exact integers do not meet numbers past those that all doubles tell apart. -/

namespace EntityQuery

namespace Number

variable {x y : Number}

/-- The text of a number does not depend on the sign of a zero. -/
theorem settledText (x : Number) : (Json.settled x).toText = x.toText := by
  cases x <;> rfl

theorem settledOnce (hx : x.IsDouble) (hy : y.IsDouble) : Json.settled x = Json.settled y ↔ x.toText = y.toText := by
  constructor
  · intro same
    rw [← settledText x, same, settledText y]
  · intro same
    rcases textOnce hx hy same with rfl | ⟨zeroX, zeroY⟩
    · rfl
    · have zero {z : Number} (isZero : z.isZero) : Json.settled z = .integer 0 := by
        cases z with
        | integer n =>
          obtain rfl : n = 0 := by simpa [Number.isZero] using isZero
          rfl
        | negativeZero => rfl
        | _ => cases isZero
      rw [zero zeroX, zero zeroY]

end Number

namespace Json

mutual

/-- A document whose numbers are finite doubles. -/
def IsPlain : Json → Prop
  | .number n => n.isFinite ∧ n.IsDouble
  | .array items => ArePlain items
  | .object members => MembersPlain members
  | .null | .bool _ | .text _ => True
termination_by structural j => j

def ArePlain : List Json → Prop
  | [] => True
  | item :: rest => IsPlain item ∧ ArePlain rest
termination_by structural items => items

def MembersPlain : List (String × Json) → Prop
  | [] => True
  | (_, value) :: rest => IsPlain value ∧ MembersPlain rest
termination_by structural members => members

end

inductive Shape where
  | null | bool | number | text | array | object

def shape : Json → Shape
  | .null => .null
  | .bool _ => .bool
  | .number _ => .number
  | .text _ => .text
  | .array _ => .array
  | .object _ => .object

/-- A plain document is of the shape that its text is of. -/
theorem charsShape {j k : Json} (hj : j.IsPlain) (hk : k.IsPlain) (same : j.chars = k.chars) : j.shape = k.shape := by
  have opener := openerOnce same
  cases j with
  | null =>
    cases k with
    | null => rfl
    | bool b => cases b <;> cases same
    | number n => exact absurd same.symm (numberNoWord hk.1 rfl)
    | _ => cases opener
  | bool a =>
    cases k with
    | null => cases a <;> cases same
    | bool b => rfl
    | number n => cases a <;> exact absurd same.symm (numberNoWord hk.1 rfl)
    | _ => cases opener
  | number m =>
    cases k with
    | null => exact absurd same (numberNoWord hj.1 rfl)
    | bool b => cases b <;> exact absurd same (numberNoWord hj.1 rfl)
    | number n => rfl
    | _ => cases opener
  | text _ | array _ | object _ => cases k <;> first | rfl | cases opener

end Json

namespace Value

mutual

/-- A value with every integral number as the exact integer that it is. -/
def exact : Value → Value
  | .number n =>
    match n.int? with
    | some i => .integer i
    | none => .number n
  | .array items => .array (exactItems items)
  | .object members => .object (exactMembers members)
  | .absent => .absent
  | .null => .null
  | .bool b => .bool b
  | .integer n => .integer n
  | .text s => .text s
  | .date t => .date t
  | .jsonNull => .jsonNull
  | .callable name => .callable name
  | .key k => .key k
termination_by structural v => v

def exactItems : List Value → List Value
  | [] => []
  | item :: rest => exact item :: exactItems rest
termination_by structural items => items

def exactMembers : List (String × Value) → List (String × Value)
  | [] => []
  | (name, value) :: rest => (name, exact value) :: exactMembers rest
termination_by structural members => members

end

section Documents

variable {m n : Number}

theorem exactNumbers : (number m).exact = (number n).exact ↔ Json.settled m = Json.settled n := by
  unfold exact Json.settled
  cases left : m.int? <;> cases right : n.int? <;> simp
  · rintro rfl
    simp at left
  · rintro rfl
    simp at right

theorem numberExact (n : Number) : (∃ i, (number n).exact = .integer i) ∨ (number n).exact = .number n := by
  unfold exact
  cases n.int? with
  | some i => exact .inl ⟨i, rfl⟩
  | none => exact .inr rfl

theorem numberChars {m : Number} (plain : Json.IsPlain (.number m)) : Json.chars (.number m) = m.toText.toList := by
  show Json.numberChars m = _
  unfold Json.numberChars
  rw [if_pos plain.1]

theorem exactShape {j k : Json} (same : (ofJson j).exact = (ofJson k).exact) : j.shape = k.shape := by
  have numbers (n : Number) : (ofJson (.number n)).exact = (number n).exact := rfl
  cases j with
  | number m =>
    cases k with
    | number n => rfl
    | _ =>
      rw [numbers] at same
      rcases numberExact m with ⟨i, whole⟩ | plain <;> simp_all [ofJson, exact]
  | _ =>
    cases k with
    | number n =>
      rw [numbers] at same
      rcases numberExact n with ⟨i, whole⟩ | plain <;> simp_all [ofJson, exact]
    | _ => first | rfl | cases same

mutual

/-- By induction on the document: plain documents have one text exactly if they are one value. -/
theorem documentsOnce (j k : Json) (hj : j.IsPlain) (hk : k.IsPlain) : (ofJson j).exact = (ofJson k).exact ↔ j.chars = k.chars := by
  -- neither texts nor values of two shapes are ever the same
  have shapes (apart : j.shape ≠ k.shape) : (ofJson j).exact = (ofJson k).exact ↔ j.chars = k.chars :=
    ⟨fun same => absurd (exactShape same) apart, fun same => absurd (Json.charsShape hj hk same) apart⟩
  cases j with
  | null =>
    cases k with
    | null => exact ⟨fun _ => rfl, fun _ => rfl⟩
    | _ => exact shapes nofun
  | bool a =>
    cases k with
    | bool b =>
      show Value.bool a = .bool b ↔ _
      cases a <;> cases b <;> simp [Json.chars]
    | _ => exact shapes nofun
  | number m =>
    cases k with
    | number n =>
      show (number m).exact = (number n).exact ↔ _
      rw [exactNumbers, numberChars hj, numberChars hk, Number.settledOnce hj.2 hk.2, String.toList_inj]
    | _ => exact shapes nofun
  | text s =>
    cases k with
    | text t =>
      show Value.text s = .text t ↔ _
      rw [Value.text.injEq]
      exact ⟨fun same => congrArg Json.quoted same, fun same => (Json.bodyOnce (r := []) (s := []) (List.cons.inj same).2).1⟩
    | _ => exact shapes nofun
  | array items =>
    cases k with
    | array others =>
      show Value.array (exactItems (ofJsonItems items)) = .array (exactItems (ofJsonItems others)) ↔ _
      rw [Value.array.injEq, itemsOnce items others hj hk]
      constructor
      · intro same
        rw [Json.chars, Json.chars, Json.itemsAlike same]
      · exact Json.arrayOnce
    | _ => exact shapes nofun
  | object members =>
    cases k with
    | object others =>
      show Value.object (exactMembers (ofJsonMembers members)) = .object (exactMembers (ofJsonMembers others)) ↔ _
      rw [Value.object.injEq, membersOnce members others hj hk]
      constructor
      · intro same
        rw [Json.chars, Json.chars, Json.charsAlike same]
      · exact Json.objectOnce
    | _ => exact shapes nofun
termination_by structural j

theorem itemsOnce (items others : List Json) (hi : Json.ArePlain items) (ho : Json.ArePlain others) :
    exactItems (ofJsonItems items) = exactItems (ofJsonItems others) ↔ items.map Json.chars = others.map Json.chars := by
  cases items with
  | nil =>
    cases others with
    | nil => exact ⟨fun _ => rfl, fun _ => rfl⟩
    | cons other more => exact ⟨nofun, nofun⟩
  | cons item rest =>
    cases others with
    | nil => exact ⟨nofun, nofun⟩
    | cons other more =>
      show exact (ofJson item) :: exactItems (ofJsonItems rest) = exact (ofJson other) :: exactItems (ofJsonItems more) ↔ _
      rw [List.cons_eq_cons, documentsOnce item other hi.1 ho.1, itemsOnce rest more hi.2 ho.2, List.map_cons, List.map_cons,
        List.cons_eq_cons]
termination_by structural items

theorem membersOnce (members others : List (String × Json)) (hm : Json.MembersPlain members) (ho : Json.MembersPlain others) :
    exactMembers (ofJsonMembers members) = exactMembers (ofJsonMembers others) ↔ List.Forall₂ Json.Alike members others := by
  cases members with
  | nil =>
    cases others with
    | nil => exact ⟨fun _ => .nil, fun _ => rfl⟩
    | cons other more => exact ⟨nofun, nofun⟩
  | cons member rest =>
    obtain ⟨name, v⟩ := member
    cases others with
    | nil => exact ⟨nofun, nofun⟩
    | cons other more =>
      obtain ⟨title, w⟩ := other
      show (name, exact (ofJson v)) :: exactMembers (ofJsonMembers rest) =
        (title, exact (ofJson w)) :: exactMembers (ofJsonMembers more) ↔ _
      rw [List.cons_eq_cons, Prod.mk.injEq, documentsOnce v w hm.1 ho.1, membersOnce rest more hm.2 ho.2, List.forall₂_cons]
      rfl
termination_by structural members

end

end Documents

/-- What columns are read as: doubles, exact integers, texts, truth values, instants, nothing, and plain documents. -/
def IsPlain : Value → Prop
  | .number n => n.IsDouble
  | .absent | .null | .bool _ | .integer _ | .text _ | .date _ => True
  | v => ∃ j, v = .ofJson j ∧ j.IsPlain

/-- A number past those that are all told apart, beside an exact integer. -/
def Strays : Value → Value → Prop
  | .integer _, .number n | .number n, .integer _ => ∃ i, n.int? = some i ∧ Number.integerBound < i.natAbs
  | _, _ => False

/-- The kind of a value, as its text starts with it. -/
def groupTag : Value → Char
  | .number _ | .integer _ => 'n'
  | .date _ => 'd'
  | .text _ => 's'
  | .bool _ => 'b'
  | _ => 'j'

def groupBody : Value → List Char
  | .number n => n.toText.toList
  | .integer n => (Number.intText n).toList
  | .date (some t) => (Number.intText t).toList
  | .date none => "NaN".toList
  | .text s => s.toList
  | .bool b => (if b then "true" else "false").toList
  | .absent => "undefined".toList
  | v => v.bareJson.chars

section Grouping

variable {v w : Value}

/-- The text of a value: its kind, a colon, and what tells it from the others of its kind. -/
def groupChars (v : Value) : List Char := v.groupTag :: ':' :: v.groupBody

theorem groupWritten (plain : v.IsPlain) : v.groupText = .ok (String.ofList v.groupChars) := by
  have written {s : String} (tag : Char) (body : String) (same : s = String.ofList [tag, ':'] ++ body) :
      s = String.ofList (tag :: ':' :: body.toList) := by
    rw [same, ← String.toList_inj]
    simp
  have document (j : Json) (unmarked : (ofJson j).groupText = do return "j:" ++ (← (ofJson j).jsonText? .refused).getD "undefined")
      (bare : (ofJson j).groupBody = (ofJson j).bareJson.chars) (tag : (ofJson j).groupTag = 'j') :
      (ofJson j).groupText = .ok (String.ofList (ofJson j).groupChars) := by
    unfold groupChars
    rw [unmarked, jsonTextOfJson, bare, bareOfJson, tag]
    exact congrArg Except.ok (written 'j' j.print rfl |>.trans (by rw [Json.print, String.toList_ofList]))
  cases v with
  | number n => exact congrArg Except.ok (written 'n' _ rfl)
  | integer n => exact congrArg Except.ok (written 'n' _ rfl)
  | date t => cases t <;> exact congrArg Except.ok (written 'd' _ rfl)
  | text s => exact congrArg Except.ok (written 's' s rfl)
  | bool b => cases b <;> exact congrArg Except.ok (written 'b' _ rfl)
  | absent => exact congrArg Except.ok (written 'j' "undefined" rfl)
  | null => exact document .null rfl rfl rfl
  | array items =>
    obtain ⟨j, same, -⟩ := plain
    cases j with
    | array _ =>
      rw [same]
      exact document _ rfl rfl rfl
    | _ => cases same
  | object members =>
    obtain ⟨j, same, -⟩ := plain
    cases j with
    | object _ =>
      rw [same]
      exact document _ rfl rfl rfl
    | _ => cases same
  | jsonNull | callable _ | key _ =>
    obtain ⟨j, same, -⟩ := plain
    cases j <;> cases same

theorem tagExact (v : Value) : v.exact.groupTag = v.groupTag := by
  cases v with
  | number n =>
    rcases numberExact n with ⟨i, same⟩ | same
    · rw [same]
      rfl
    · rw [same]
  | _ => rfl

theorem mixedExact {n : Number} {i : Int} (double : n.IsDouble) (near : ¬ Strays (.integer i) (.number n)) :
    (number n).exact = .integer i ↔ n.toText = Number.intText i := by
  have apart (none : n.int? = none) (other : n.toText ≠ Number.intText i) :
      (number n).exact = .integer i ↔ n.toText = Number.intText i := by
    unfold exact
    rw [none]
    exact ⟨nofun, fun same => absurd same other⟩
  have unread (endless : n.isFinite = false) : n.toText ≠ Number.intText i := by
    intro same
    obtain ⟨read, found, -⟩ := Number.intRead i
    rw [← same, Number.endlessRead endless] at found
    cases found
  have whole {a : Int} (shown : n.toText = Number.intText a) (held : n.int? = some a) :
      (number n).exact = .integer i ↔ n.toText = Number.intText i := by
    unfold exact
    rw [held, shown]
    exact ⟨fun same => by cases same; rfl, fun same => congrArg Value.integer (Number.intTextInjective same)⟩
  cases n with
  | integer a =>
    have small : a.natAbs ≤ Number.integerBound := not_lt.mp fun large => near ⟨a, rfl, large⟩
    exact whole (if_pos small) rfl
  | negativeZero => exact whole (a := 0) (by decide) rfl
  | fraction _ _ => exact apart rfl (Number.fractionText double i)
  | infinity _ | nan => exact apart rfl (unread rfl)

/-- The values whose text starts as those of documents do: nothing at all, and the documents of no other kind. -/
theorem documentKind (plain : v.IsPlain) (tag : v.groupTag = 'j') :
    v = .absent ∨ ∃ j, v = .ofJson j ∧ j.IsPlain ∧ v.groupBody = j.chars ∧ j.chars ≠ "undefined".toList := by
  have word {items : List Char} {c : Char} (other : c ≠ 'u') : c :: items ≠ "undefined".toList := by
    rintro ⟨⟩
    exact other rfl
  cases v with
  | absent => exact .inl rfl
  | null => exact .inr ⟨.null, rfl, trivial, rfl, by decide⟩
  | array items =>
    obtain ⟨j, same, plain⟩ := plain
    cases j with
    | array others =>
      refine .inr ⟨_, same, plain, ?_, word (by decide)⟩
      rw [same]
      exact congrArg Json.chars (bareOfJson (.array others))
    | _ => cases same
  | object members =>
    obtain ⟨j, same, plain⟩ := plain
    cases j with
    | object others =>
      refine .inr ⟨_, same, plain, ?_, word (by decide)⟩
      rw [same]
      exact congrArg Json.chars (bareOfJson (.object others))
    | _ => cases same
  | jsonNull | callable _ | key _ =>
    obtain ⟨j, same, -⟩ := plain
    cases j <;> cases same
  | _ => cases tag

theorem documentBodyOnce (hv : v.IsPlain) (hw : w.IsPlain) (tagV : v.groupTag = 'j') (tagW : w.groupTag = 'j') :
    v.groupBody = w.groupBody ↔ v.exact = w.exact := by
  have nothing (j : Json) : absent.exact ≠ (ofJson j).exact := by
    cases j with
    | number n =>
      show absent ≠ (number n).exact
      rcases numberExact n with ⟨i, same⟩ | same <;> (rw [same]; exact nofun)
    | _ => exact nofun
  rcases documentKind hv tagV with rfl | ⟨j, rfl, hj, bodyV, wordV⟩ <;>
    rcases documentKind hw tagW with rfl | ⟨k, rfl, hk, bodyW, wordW⟩
  · exact ⟨fun _ => rfl, fun _ => rfl⟩
  · rw [bodyW]
    exact ⟨fun same => absurd same.symm wordW, fun same => absurd same (nothing k)⟩
  · rw [bodyV]
    exact ⟨fun same => absurd same wordV, fun same => absurd same.symm (nothing j)⟩
  · rw [bodyV, bodyW, documentsOnce j k hj hk]

theorem dateBodyOnce (s t : Option Time.Instant) : (date s).groupBody = (date t).groupBody ↔ (date s).exact = (date t).exact := by
  have number (i : Int) : (Number.intText i).toList ≠ "NaN".toList := by
    intro same
    have none : Number.intOfText? "NaN" = none := by decide
    rw [← String.toList_inj.mp same, Number.intBack] at none
    cases none
  show _ ↔ Value.date s = .date t
  rw [Value.date.injEq]
  cases s with
  | none =>
    cases t with
    | none => exact ⟨fun _ => rfl, fun _ => rfl⟩
    | some k => exact ⟨fun same => absurd same.symm (number k), nofun⟩
  | some i =>
    cases t with
    | none => exact ⟨fun same => absurd same (number i), nofun⟩
    | some k =>
      show (Number.intText i).toList = (Number.intText k).toList ↔ some i = some k
      rw [String.toList_inj, Option.some.injEq]
      exact ⟨Number.intTextInjective, congrArg _⟩

/-- Values of one kind have one text after it exactly if they are one value. -/
theorem bodyOnce (hv : v.IsPlain) (hw : w.IsPlain) (near : ¬ Strays v w) (tags : v.groupTag = w.groupTag) :
    v.groupBody = w.groupBody ↔ v.exact = w.exact := by
  cases v with
  | number m =>
    cases w with
    | number n =>
      show m.toText.toList = n.toText.toList ↔ _
      rw [String.toList_inj, exactNumbers, Number.settledOnce hv hw]
    | integer i =>
      show m.toText.toList = (Number.intText i).toList ↔ _
      rw [String.toList_inj]
      exact (mixedExact hv near).symm
    | _ => cases tags
  | integer i =>
    cases w with
    | number n =>
      show (Number.intText i).toList = n.toText.toList ↔ _
      rw [String.toList_inj, eq_comm]
      exact (mixedExact hw near).symm.trans eq_comm
    | integer k =>
      show (Number.intText i).toList = (Number.intText k).toList ↔ Value.integer i = .integer k
      rw [String.toList_inj, Value.integer.injEq]
      exact ⟨Number.intTextInjective, congrArg _⟩
    | _ => cases tags
  | text s =>
    cases w with
    | text t =>
      show s.toList = t.toList ↔ Value.text s = .text t
      rw [String.toList_inj, Value.text.injEq]
    | _ => cases tags
  | bool a =>
    cases w with
    | bool b =>
      show (if a then "true" else "false").toList = (if b then "true" else "false").toList ↔ Value.bool a = .bool b
      cases a <;> cases b <;> simp
    | _ => cases tags
  | date s =>
    cases w with
    | date t => exact dateBodyOnce s t
    | _ => cases tags
  | _ => exact documentBodyOnce hv hw rfl tags.symm

/-- Plain values have one text exactly if they are one value. -/
theorem groupOnce (hv : v.IsPlain) (hw : w.IsPlain) (near : ¬ Strays v w) : v.groupChars = w.groupChars ↔ v.exact = w.exact := by
  unfold groupChars
  rw [List.cons_eq_cons, List.cons_eq_cons]
  constructor
  · rintro ⟨tags, -, bodies⟩
    exact (bodyOnce hv hw near tags).mp bodies
  · intro same
    have tags : v.groupTag = w.groupTag := by rw [← tagExact v, same, tagExact w]
    exact ⟨tags, rfl, (bodyOnce hv hw near tags).mpr same⟩

end Grouping

end Value

end EntityQuery
