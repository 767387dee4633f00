import EntityQuery.Proofs.DocumentTexts
import EntityQuery.Proofs.KeyRoundTrips
/-! Keys that are equal. The hash of a key is its kind, which holds no colon, and a text that no other value of the kind
has; documents with sorted members have one text exactly if they differ in nothing but the order of members. -/

namespace EntityQuery

namespace Number

theorem equalWhole {x y : Number} {a b : Int} (left : x.int? = some a) (right : y.int? = some b) : x.equal y ↔ a = b := by
  simp [equal, wholeCompare left right]

end Number

namespace Json

mutual

/-- Documents of one value: items agree in their order, members in any. -/
inductive Same : Json → Json → Prop where
  | null : Same .null .null
  | bool (b : Bool) : Same (.bool b) (.bool b)
  | number {m n : Number} (equal : m.equal n) : Same (.number m) (.number n)
  | text (s : String) : Same (.text s) (.text s)
  | array {items others : List Json} (each : SameItems items others) : Same (.array items) (.array others)
  | object {members others : List (String × Json)} (each : SameMembers members others) :
      Same (.object members) (.object others)

inductive SameItems : List Json → List Json → Prop where
  | nil : SameItems [] []
  | cons {item other : Json} {items others : List Json} (first : Same item other) (rest : SameItems items others) :
      SameItems (item :: items) (other :: others)

inductive SameMembers : List (String × Json) → List (String × Json) → Prop where
  | nil : SameMembers [] []
  | cons {name : String} {v w : Json} {members before after : List (String × Json)} (value : Same v w)
      (rest : SameMembers members (before ++ after)) : SameMembers ((name, v) :: members) (before ++ (name, w) :: after)

end

section Numbers

variable {m n : Number}

theorem safeEqual (hm : m.isSafeInteger) (hn : n.isSafeInteger) : m.equal n ↔ numberChars m = numberChars n := by
  have whole {x : Number} (safe : x.isSafeInteger) : ∃ i, x.int? = some i ∧ numberChars x = (Number.intText i).toList := by
    obtain ⟨i, value, -, written⟩ := safeChars safe
    unfold settled at value
    split at value
    · next j held =>
      cases value
      exact ⟨i, held, written⟩
    · next held =>
      subst value
      cases held
  obtain ⟨i, left, writtenLeft⟩ := whole hm
  obtain ⟨j, right, writtenRight⟩ := whole hn
  rw [Number.equalWhole left right, writtenLeft, writtenRight]
  exact ⟨fun same => same ▸ rfl, fun same => Number.intTextInjective (String.toList_injective same)⟩

theorem safeFinite (safe : n.isSafeInteger) : n.isFinite := by
  cases n <;> first | rfl | cases safe

end Numbers

section Members

variable {members others : List (String × Json)}

theorem insertPerm (name : String) (v : Json) (members : List (String × Json)) :
    (insertSorted name v members).Perm ((name, v) :: members) := by
  induction members with
  | nil => exact .refl _
  | cons m rest ih =>
    rw [insertCons]
    split
    · exact .refl _
    · exact (ih.cons m).trans (.swap _ _ _)

theorem sortedMembersPerm (members : List (String × Json)) :
    (sortedMembers members).Perm (members.map fun m => (m.1, m.2.sorted)) := by
  induction members with
  | nil => exact .nil
  | cons m rest ih => exact (insertPerm _ _ _).trans (ih.cons _)

theorem safeMember (safe : membersSafe members) {m : String × Json} (mem : m ∈ members) : m.2.isSafe := by
  induction members with
  | nil => cases mem
  | cons n rest ih =>
    simp only [membersSafe, Bool.and_eq_true] at safe
    rcases List.mem_cons.mp mem with rfl | mem
    · exact safe.1.2
    · exact ih safe.2 mem

theorem sortedMiddle {name : String} {w : Json} {before after : List (String × Json)}
    (distinct : ((before ++ (name, w) :: after).map (·.1)).Nodup) (safe : membersSafe (before ++ (name, w) :: after)) :
    sortedMembers (before ++ (name, w) :: after) = insertSorted name w.sorted (sortedMembers (before ++ after)) :=
  sortedMoved List.perm_middle (unitsDistinct distinct (safeJoined safe))

theorem safeRest {name : String} {w : Json} {before after : List (String × Json)}
    (safe : membersSafe (before ++ (name, w) :: after)) : membersSafe (before ++ after) := by
  induction before with
  | nil => exact ((Bool.and_eq_true ..).mp safe).2
  | cons m before ih =>
    obtain ⟨here, rest⟩ := (Bool.and_eq_true ..).mp safe
    exact (Bool.and_eq_true ..).mpr ⟨here, ih rest⟩

/-- The members of two documents whose sorted members are written alike. -/
theorem pairedMembers (alike : List.Forall₂ Alike (sortedMembers members) (sortedMembers others)) :
    members.length = others.length ∧
      ∀ m ∈ members, ∃ n ∈ others, m.1 = n.1 ∧ m.2.sorted.chars = n.2.sorted.chars := by
  have left := sortedMembersPerm members
  have right := sortedMembersPerm others
  refine ⟨by simpa [left.length_eq, right.length_eq] using alike.length_eq, ?_⟩
  intro m mem
  have placed : (m.1, m.2.sorted) ∈ sortedMembers members := left.mem_iff.mpr (List.mem_map_of_mem mem)
  obtain ⟨i, bound, found⟩ := List.getElem_of_mem placed
  have bound' : i < (sortedMembers others).length := alike.length_eq ▸ bound
  have here := alike.get bound bound'
  rw [List.get_eq_getElem, List.get_eq_getElem, found] at here
  have there : (sortedMembers others)[i] ∈ others.map fun n => (n.1, n.2.sorted) := right.mem_iff.mp (List.getElem_mem bound')
  obtain ⟨n, mem, same⟩ := List.mem_map.mp there
  rw [← same] at here
  exact ⟨n, mem, here⟩

end Members

section Canonical

mutual

/-- By induction on the document: documents of one value have one text once their members are sorted. -/
theorem sameSorted (j k : Json) (hj : j.isSafe) (hk : k.isSafe) (same : Same j k) : j.sorted.chars = k.sorted.chars := by
  cases same with
  | null | bool _ | text _ => rfl
  | number equal => exact (safeEqual hj hk).mp equal
  | @array items others each =>
    have alike := sameSortedItems items others hj hk each
    rw [sorted, sorted, chars, chars, itemsAlike alike]
  | @object members others each =>
    obtain ⟨-, safe⟩ := (Bool.and_eq_true ..).mp hj
    obtain ⟨distinct, safeOthers⟩ := (Bool.and_eq_true ..).mp hk
    have alike := sameSortedMembers members others safe (of_decide_eq_true distinct) safeOthers each
    rw [sorted, sorted, chars, chars, charsAlike alike]
termination_by structural j

theorem sameSortedItems (items others : List Json) (hi : areSafe items) (ho : areSafe others) (same : SameItems items others) :
    (sortedItems items).map chars = (sortedItems others).map chars := by
  cases items with
  | nil =>
    cases same
    rfl
  | cons item rest =>
    cases same with
    | @cons _ other _ more first others =>
      obtain ⟨safe, safeRest⟩ := (Bool.and_eq_true ..).mp hi
      obtain ⟨safeOther, safeMore⟩ := (Bool.and_eq_true ..).mp ho
      exact congrArg₂ List.cons (sameSorted item other safe safeOther first) (sameSortedItems rest more safeRest safeMore others)
termination_by structural items

theorem sameSortedMembers (members others : List (String × Json)) (hm : membersSafe members)
    (distinct : (others.map (·.1)).Nodup) (ho : membersSafe others) (same : SameMembers members others) :
    List.Forall₂ Alike (sortedMembers members) (sortedMembers others) := by
  cases members with
  | nil =>
    cases same
    exact .nil
  | cons m rest =>
    obtain ⟨name, v⟩ := m
    cases same with
    | @cons _ _ w _ before after value more =>
      obtain ⟨here, safeRest'⟩ := (Bool.and_eq_true ..).mp hm
      have fewer : ((before ++ after).map (·.1)).Nodup :=
        distinct.sublist ((List.sublist_cons_self _ _).append_left before |>.map _)
      have values := sameSorted v w ((Bool.and_eq_true ..).mp here).2 (safeMember ho (m := (name, w)) (by simp)) value
      rw [sortedMiddle distinct ho]
      exact insertAlike name values (sameSortedMembers rest (before ++ after) safeRest' fewer (safeRest ho) more)
termination_by structural members

end

mutual

/-- By induction on the document: documents whose texts agree once their members are sorted are of one value. -/
theorem sortedSame (j k : Json) (hj : j.isSafe) (hk : k.isSafe) (same : j.sorted.chars = k.sorted.chars) : Same j k := by
  -- texts, lists and objects each open with a character of their own, with which nothing else begins
  have opener := openerOnce same
  cases j with
  | null =>
    cases k with
    | null => exact .null
    | bool b => cases b <;> cases same
    | number n => exact absurd same.symm (numberNoWord (safeFinite hk) rfl)
    | _ => cases opener
  | bool a =>
    cases k with
    | null => cases a <;> cases same
    | bool b =>
      obtain rfl : a = b := by cases a <;> cases b <;> first | rfl | cases same
      exact .bool a
    | number n => cases a <;> exact absurd same.symm (numberNoWord (safeFinite hk) rfl)
    | _ => cases opener
  | number m =>
    cases k with
    | null => exact absurd same (numberNoWord (safeFinite hj) rfl)
    | bool b => cases b <;> exact absurd same (numberNoWord (safeFinite hj) rfl)
    | number n => exact .number ((safeEqual hj hk).mpr same)
    | _ => cases opener
  | text s =>
    cases k with
    | text t =>
      have quote : s.toList.flatMap escaped ++ '"' :: [] = t.toList.flatMap escaped ++ '"' :: [] := (List.cons.inj same).2
      obtain ⟨rfl, -⟩ := bodyOnce quote
      exact .text s
    | _ => cases opener
  | array items =>
    cases k with
    | array others => exact .array (sortedSameItems items others hj hk (arrayOnce same))
    | _ => cases opener
  | object members =>
    cases k with
    | object others =>
      obtain ⟨distinct, safe⟩ := (Bool.and_eq_true ..).mp hj
      obtain ⟨-, safeOthers⟩ := (Bool.and_eq_true ..).mp hk
      obtain ⟨count, each⟩ := pairedMembers (objectOnce same)
      exact .object (sortedSameMembers members others (of_decide_eq_true distinct) safe safeOthers count each)
    | _ => cases opener
termination_by structural j

theorem sortedSameItems (items others : List Json) (hi : areSafe items) (ho : areSafe others)
    (same : (sortedItems items).map chars = (sortedItems others).map chars) : SameItems items others := by
  cases items with
  | nil =>
    cases others with
    | nil => exact .nil
    | cons _ _ => cases same
  | cons item rest =>
    cases others with
    | nil => cases same
    | cons other more =>
      obtain ⟨safe, safeRest⟩ := (Bool.and_eq_true ..).mp hi
      obtain ⟨safeOther, safeMore⟩ := (Bool.and_eq_true ..).mp ho
      obtain ⟨first, others⟩ := List.cons.inj same
      exact .cons (sortedSame item other safe safeOther first) (sortedSameItems rest more safeRest safeMore others)
termination_by structural items

theorem sortedSameMembers (members others : List (String × Json)) (distinct : (members.map (·.1)).Nodup)
    (hm : membersSafe members) (ho : membersSafe others) (count : members.length = others.length)
    (each : ∀ m ∈ members, ∃ n ∈ others, m.1 = n.1 ∧ m.2.sorted.chars = n.2.sorted.chars) : SameMembers members others := by
  cases members with
  | nil =>
    obtain rfl := List.length_eq_zero_iff.mp count.symm
    exact .nil
  | cons m rest =>
    obtain ⟨name, v⟩ := m
    obtain ⟨here, safeRest'⟩ := (Bool.and_eq_true ..).mp hm
    obtain ⟨fresh, distinct⟩ := List.nodup_cons.mp distinct
    obtain ⟨⟨title, w⟩, mem, rfl, values⟩ := each (name, v) List.mem_cons_self
    have safe := safeMember ho mem
    obtain ⟨before, after, rfl⟩ := List.append_of_mem mem
    refine .cons (sortedSame v w ((Bool.and_eq_true ..).mp here).2 safe values)
      (sortedSameMembers rest (before ++ after) distinct safeRest' (safeRest ho) ?_ ?_)
    · simp at count ⊢
      omega
    · intro m mem
      obtain ⟨n, found, named, alike⟩ := each m (List.mem_cons_of_mem _ mem)
      -- the member that was taken has a name that no other member has
      have other : n ≠ (name, w) := by
        rintro rfl
        exact fresh (List.mem_map.mpr ⟨m, mem, named⟩)
      refine ⟨n, ?_, named, alike⟩
      rcases List.mem_append.mp found with early | late
      · exact List.mem_append_left _ early
      · exact List.mem_append_right _ ((List.mem_cons.mp late).resolve_left other)
termination_by structural members

end

/-- Safe documents have one canonical text exactly if they are of one value. -/
theorem canonicalSame {j k : Json} (hj : j.isSafe) (hk : k.isSafe) : j.canonical = k.canonical ↔ Same j k := by
  unfold canonical print
  rw [String.ofList_inj]
  exact ⟨sortedSame j k hj hk, sameSorted j k hj hk⟩

end Canonical

end Json

namespace KeyForm

/-- Equal contents of keys: numbers by value, so that both zeros are one, and documents but for the order of members. -/
def SameContent : Value → Value → Prop
  | .number m, .number n => m.equal n
  | .integer m, .integer n => m = n
  | .text s, .text t => s = t
  | .bool a, .bool b => a = b
  | .date s, .date t => s = t
  | .null, .null => True
  | .array items, .array others => Json.Same (.array (Value.bareItems items)) (.array (Value.bareItems others))
  | .object members, .object others => Json.Same (.object (Value.bareMembers members)) (.object (Value.bareMembers others))
  | _, _ => False

/-- The text after the kind. -/
def body : Key → String
  | .integer _ n => Number.intText n
  | .negativeZero => "0"
  | .float _ n => if n = .negativeZero then "-0" else n.toText
  | .text s | .uuid s | .date s | .time s => s
  | .bool b => if b then "true" else "false"
  | .datetime (some t) => Number.intText t
  | .datetime none => "NaN"
  | .json payload => payload.bareJson.canonical

theorem hashParts (k : Key) : hash k = k.kind.tag ++ ":" ++ k.body := by
  unfold hash body
  rfl

theorem tagPlain (type : ScalarType) : ∀ c ∈ type.tag.toList, (c != ':') = true := by
  rcases type with width | width | _ <;> first | (cases width <;> exact List.all_eq_true.mp rfl) | exact List.all_eq_true.mp rfl

/-- No tag holds the colon that ends it. -/
theorem hashOnce (a b : Key) : a.equals b ↔ a.kind = b.kind ∧ a.body = b.body := by
  unfold equals
  rw [beq_iff_eq, hashParts, hashParts]
  constructor
  · intro same
    have chars : a.kind.tag.toList ++ (':' :: a.body.toList) = b.kind.tag.toList ++ (':' :: b.body.toList) := by
      simpa using congrArg String.toList same
    have colon (cs : List Char) : ∀ c ∈ (':' :: cs).head?, (c != ':') = false := by
      rintro c ⟨⟩
      rfl
    obtain ⟨tags, rest⟩ := Text.cutOnce (tagPlain _) (tagPlain _) (colon _) (colon _) chars
    have kinds := congrArg ScalarType.ofTag? (String.toList_injective tags)
    rw [Key.tagBack, Key.tagBack] at kinds
    exact ⟨Option.some.inj kinds, String.toList_injective (List.cons.inj rest).2⟩
  · rintro ⟨kinds, bodies⟩
    rw [kinds, bodies]

theorem contentDocuments {j k : Json} : SameContent (.ofJson j) (.ofJson k) ↔ Json.Same j k := by
  constructor
  · intro same
    cases j with
    | null =>
      cases k with
      | null => exact .null
      | _ => exact same.elim
    | bool a =>
      cases k with
      | bool b =>
        obtain rfl : a = b := same
        exact .bool a
      | _ => exact same.elim
    | number m =>
      cases k with
      | number n => exact .number same
      | _ => exact same.elim
    | text s =>
      cases k with
      | text t =>
        obtain rfl : s = t := same
        exact .text s
      | _ => exact same.elim
    | array items =>
      cases k with
      | array others =>
        have same : Json.Same (.array (Value.bareItems (Value.ofJsonItems items)))
          (.array (Value.bareItems (Value.ofJsonItems others))) := same
        rwa [Value.bareOfItems, Value.bareOfItems] at same
      | _ => exact same.elim
    | object members =>
      cases k with
      | object others =>
        have same : Json.Same (.object (Value.bareMembers (Value.ofJsonMembers members)))
          (.object (Value.bareMembers (Value.ofJsonMembers others))) := same
        rwa [Value.bareOfMembers, Value.bareOfMembers] at same
      | _ => exact same.elim
  · intro same
    cases same with
    | null => trivial
    | bool _ | text _ => rfl
    | number equal => exact equal
    | array each =>
      show Json.Same (.array (Value.bareItems (Value.ofJsonItems _))) (.array (Value.bareItems (Value.ofJsonItems _)))
      rw [Value.bareOfItems, Value.bareOfItems]
      exact .array each
    | object each =>
      show Json.Same (.object (Value.bareMembers (Value.ofJsonMembers _))) (.object (Value.bareMembers (Value.ofJsonMembers _)))
      rw [Value.bareOfMembers, Value.bareOfMembers]
      exact .object each

theorem integerContent {width : IntegerType} {m n : Int} :
    SameContent (value (.integer width m)) (value (.integer width n)) ↔ m = n := by
  unfold value
  dsimp only
  split
  · rfl
  · exact Number.equalWhole rfl rfl

variable {a b : Key}

/-- Keys of one kind have one text after it exactly if their contents are equal. -/
theorem bodySame (ha : a.IsExact) (hb : b.IsExact) (kinds : a.kind = b.kind) : a.body = b.body ↔ SameContent a.value b.value := by
  have zero (n : Int) : "0" = Number.intText n ↔ 0 = n :=
    ⟨fun same => Number.intTextInjective (m := 0) same, fun same => same ▸ rfl⟩
  cases a with
  | integer width m =>
    cases b with
    | integer other n =>
      obtain rfl : width = other := ScalarType.integer.inj kinds
      rw [integerContent]
      exact ⟨Number.intTextInjective, congrArg Number.intText⟩
    | negativeZero =>
      obtain rfl : width = .i32 := ScalarType.integer.inj kinds
      show Number.intText m = "0" ↔ Number.equal (.integer m) .negativeZero
      rw [eq_comm, zero, Number.equalWhole rfl rfl, eq_comm]
    | _ => cases kinds
  | negativeZero =>
    cases b with
    | integer other n =>
      obtain rfl : .i32 = other := ScalarType.integer.inj kinds
      show "0" = Number.intText n ↔ Number.equal .negativeZero (.integer n)
      rw [zero, Number.equalWhole rfl rfl]
    | negativeZero => exact ⟨fun _ => rfl, fun _ => rfl⟩
    | _ => cases kinds
  | float _ _ => exact ha.elim
  | text s | uuid s | date s | time s =>
    cases b <;> first | exact Iff.rfl | cases kinds
  | bool x =>
    cases b with
    | bool y =>
      show (if x then "true" else "false") = (if y then "true" else "false") ↔ x = y
      cases x <;> cases y <;> decide
    | _ => cases kinds
  | datetime s =>
    obtain ⟨m, rfl, -⟩ := ha
    cases b with
    | datetime t =>
      obtain ⟨n, rfl, -⟩ := hb
      show Number.intText m = Number.intText n ↔ some m = some n
      exact ⟨fun same => congrArg some (Number.intTextInjective same), fun same => congrArg Number.intText (Option.some.inj same)⟩
    | _ => cases kinds
  | json payload =>
    obtain ⟨j, rfl, hj⟩ := ha
    cases b with
    | json other =>
      obtain ⟨k, rfl, hk⟩ := hb
      show (Value.ofJson j).bareJson.canonical = (Value.ofJson k).bareJson.canonical ↔ SameContent (.ofJson j) (.ofJson k)
      rw [Value.bareOfJson, Value.bareOfJson, contentDocuments, Json.canonicalSame hj hk]
    | _ => cases kinds

/-- Keys are equal exactly if they are of one kind and of equal content. -/
theorem equalsExactly (ha : a.IsExact) (hb : b.IsExact) : a.equals b ↔ a.kind = b.kind ∧ SameContent a.value b.value := by
  rw [hashOnce]
  exact and_congr_right (bodySame ha hb)

/-- A document with a zero and the half of a pair. -/
def ordered : Json :=
  .object [("a", .array [.number (.integer 0), .text (String.singleton (Text.halfChar 0xD800))]), ("b", .object [])]

/-- The same members in the other order, with the zero that has a sign. -/
def turned : Json :=
  .object [("b", .object []), ("a", .array [.number .negativeZero, .text (String.singleton (Text.halfChar 0xD800))])]

theorem turnedEqual : IsExact (.json (.ofJson ordered)) ∧ IsExact (.json (.ofJson turned)) ∧
    (equals (.json (.ofJson ordered)) (.json (.ofJson turned)) ↔
      kind (.json (.ofJson ordered)) = kind (.json (.ofJson turned)) ∧ SameContent (.ofJson ordered) (.ofJson turned)) :=
  have first : IsExact (.json (.ofJson ordered)) := ⟨ordered, rfl, by decide⟩
  have second : IsExact (.json (.ofJson turned)) := ⟨turned, rfl, by decide⟩
  ⟨first, second, equalsExactly first second⟩

end KeyForm

end EntityQuery
