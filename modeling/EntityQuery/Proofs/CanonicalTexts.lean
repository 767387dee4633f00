import EntityQuery.Proofs.JsonTexts
import EntityQuery.Proofs.Rows
import EntityQuery.Proofs.SortedRows
import Mathlib.Data.List.Nodup
/-! Canonical text that is the same for a document and for what is read from its text. Members that are inserted by name
come out in one order, in whatever order they were. -/

namespace EntityQuery

namespace Json

section Order

variable {s t u : String} {v w : Json}

/-- Names are in the order of their units. -/
theorem namesCompared (s t : String) : Text.compareUnits s t = compare (Text.units s) (Text.units t) := Store.unitsCompared _ _

theorem namesLater (less : Text.compareUnits s t = .lt) : Text.compareUnits t s = .gt := by
  rw [namesCompared] at less ⊢
  exact Std.OrientedCmp.gt_of_lt less

theorem namesTrans (st : Text.compareUnits s t = .lt) (tu : Text.compareUnits t u = .lt) : Text.compareUnits s u = .lt := by
  rw [namesCompared] at st tu ⊢
  exact Std.TransCmp.lt_trans st tu

theorem insertCons (name : String) (value : Json) (m : String × Json) (rest : List (String × Json)) :
    insertSorted name value (m :: rest) =
      if Text.compareUnits name m.1 = .lt then (name, value) :: m :: rest else m :: insertSorted name value rest :=
  if_congr beq_iff_eq rfl rfl

/-- By induction on the members: it does not matter which of two names is inserted first. -/
theorem insertSwap (less : Text.compareUnits s t = .lt) (members : List (String × Json)) :
    insertSorted s v (insertSorted t w members) = insertSorted t w (insertSorted s v members) := by
  have notMore : Text.compareUnits t s ≠ .lt := by
    rw [namesLater less]
    exact nofun
  induction members with
  | nil =>
    show insertSorted s v [(t, w)] = insertSorted t w [(s, v)]
    rw [insertCons, insertCons, if_pos less, if_neg notMore]
    rfl
  | cons m rest ih =>
    by_cases second : Text.compareUnits t m.1 = .lt
    · have first := namesTrans less second
      rw [insertCons t, if_pos second, insertCons s, if_pos less, insertCons s, if_pos first, insertCons t, if_neg notMore,
        insertCons t, if_pos second]
    · by_cases first : Text.compareUnits s m.1 = .lt
      · rw [insertCons t, if_neg second, insertCons s, if_pos first, insertCons s, if_pos first, insertCons t, if_neg notMore,
          insertCons t, if_neg second]
      · rw [insertCons t, if_neg second, insertCons s, if_neg first, insertCons s, if_neg first, insertCons t, if_neg second, ih]

theorem sortedFold (members : List (String × Json)) :
    sortedMembers members = members.foldr (fun m sorted => insertSorted m.1 m.2.sorted sorted) [] := by
  induction members with
  | nil => rfl
  | cons m rest ih => exact congrArg (insertSorted m.1 m.2.sorted) ih

/-- Members whose names differ unit by unit are sorted into one order, in whatever order they come. -/
theorem sortedMoved {members others : List (String × Json)} (same : members.Perm others)
    (distinct : (members.map fun m => Text.units m.1).Nodup) : sortedMembers members = sortedMembers others := by
  rw [sortedFold, sortedFold]
  refine same.foldr_eq' (fun x xIn y yIn sorted => ?_) []
  by_cases named : Text.units x.1 = Text.units y.1
  · rw [List.inj_on_of_nodup_map distinct xIn yIn named]
  · cases compared : Text.compareUnits x.1 y.1 with
    | lt => exact (insertSwap compared sorted).symm
    | eq => exact absurd (Store.Comparable.unitsEq compared) named
    | gt =>
      rw [namesCompared] at compared
      have less := Std.OrientedCmp.lt_of_gt compared
      rw [← namesCompared] at less
      exact insertSwap less sorted

/-- Different names without lone halves differ unit by unit. -/
theorem unitsDistinct {members : List (String × Json)} (distinct : (members.map (·.1)).Nodup)
    (joined : ∀ m ∈ members, Text.isJoined m.1.toList) : (members.map fun m => Text.units m.1).Nodup := by
  refine (List.Nodup.of_map _ distinct).map_on fun x xIn y yIn units => ?_
  have named := String.toList_injective (Text.joinedInjective (joined x xIn) (joined y yIn) units)
  exact List.inj_on_of_nodup_map distinct xIn yIn named

end Order

section Alike

/-- Members of one name whose values have one text. -/
def Alike (m n : String × Json) : Prop := m.1 = n.1 ∧ m.2.chars = n.2.chars

variable {members others : List (String × Json)}

theorem insertAlike (name : String) {v w : Json} (same : v.chars = w.chars) (alike : List.Forall₂ Alike members others) :
    List.Forall₂ Alike (insertSorted name v members) (insertSorted name w others) := by
  induction alike with
  | nil => exact .cons ⟨rfl, same⟩ .nil
  | @cons m n members others here rest ih =>
    rw [insertCons, insertCons, here.1]
    split
    · exact .cons ⟨rfl, same⟩ (.cons here rest)
    · exact .cons here ih

theorem charsAlike (alike : List.Forall₂ Alike members others) : memberChars members = memberChars others := by
  induction alike with
  | nil => rfl
  | @cons m n members others here rest ih =>
    obtain ⟨name, v⟩ := m
    obtain ⟨other, w⟩ := n
    obtain ⟨rfl, same⟩ := here
    have same : v.chars = w.chars := same
    cases rest with
    | nil =>
      show quoted name ++ ':' :: v.chars = quoted name ++ ':' :: w.chars
      rw [same]
    | @cons m n members others _ _ =>
      show quoted name ++ ':' :: v.chars ++ ',' :: memberChars (m :: members) =
        quoted name ++ ':' :: w.chars ++ ',' :: memberChars (n :: others)
      rw [same, ih]

theorem itemsAlike {items others : List Json} (same : items.map chars = others.map chars) : itemChars items = itemChars others := by
  induction items generalizing others with
  | nil =>
    cases others with
    | nil => rfl
    | cons _ _ => cases same
  | cons item rest ih =>
    cases others with
    | nil => cases same
    | cons other more =>
      obtain ⟨here, there⟩ := List.cons.inj same
      cases rest with
      | nil =>
        cases more with
        | nil => exact here
        | cons _ _ => cases there
      | cons next rest =>
        cases more with
        | nil => cases there
        | cons following more =>
          show item.chars ++ ',' :: itemChars (next :: rest) = other.chars ++ ',' :: itemChars (following :: more)
          rw [here, ih there]

end Alike

section Stored

theorem storedNames (members : List (String × Json)) : (storedMembers members).map (·.1) = members.map (·.1) := by
  induction members with
  | nil => rfl
  | cons m rest ih => exact congrArg (m.1 :: ·) ih

theorem safeJoined {members : List (String × Json)} (safe : membersSafe members) :
    ∀ m ∈ members, Text.isJoined m.1.toList := by
  induction members with
  | nil => exact fun _ mem => absurd mem List.not_mem_nil
  | cons m rest ih =>
    obtain ⟨here, others⟩ := (Bool.and_eq_true ..).mp safe
    exact List.forall_mem_cons.mpr ⟨((Bool.and_eq_true ..).mp here).1, ih others⟩

theorem settledChars {n : Number} (safe : n.isSafeInteger) : numberChars (settled n) = numberChars n := by
  obtain ⟨i, value, small, written⟩ := safeChars safe
  obtain ⟨k, again, -, writtenAgain⟩ := safeChars (n := .integer i) (decide_eq_true small)
  cases again
  rw [value, written, writtenAgain]

mutual

/-- By induction on the document: what is read from the text of a document has its text once members are sorted. -/
theorem storedSorted (j : Json) (safe : j.isSafe) : j.stored.sorted.chars = j.sorted.chars := by
  cases j with
  | null | bool _ | text _ => rfl
  | number n =>
    show numberChars (settled n) = numberChars n
    exact settledChars safe
  | array items =>
    show '[' :: itemChars (sortedItems (storedItems items)) ++ [']'] = '[' :: itemChars (sortedItems items) ++ [']']
    rw [itemsAlike (storedSortedItems items safe)]
  | object members =>
    obtain ⟨distinct, safeMembers⟩ := (Bool.and_eq_true ..).mp safe
    have distinct := storedNames members ▸ of_decide_eq_true distinct
    have joined : ∀ m ∈ storedMembers members, Text.isJoined m.1.toList := by
      intro m mem
      have named : m.1 ∈ (storedMembers members).map (·.1) := List.mem_map_of_mem mem
      rw [storedNames] at named
      obtain ⟨n, mem, same⟩ := List.mem_map.mp named
      exact same ▸ safeJoined safeMembers n mem
    show '\x7b' :: memberChars (sortedMembers (Record.ofPairs (storedMembers members))) ++ ['\x7d'] =
      '\x7b' :: memberChars (sortedMembers members) ++ ['\x7d']
    rw [← sortedMoved (Record.permOfPairs distinct).symm (unitsDistinct distinct joined),
      charsAlike (storedSortedMembers members safeMembers)]
termination_by structural j

theorem storedSortedItems (items : List Json) (safe : areSafe items) :
    (sortedItems (storedItems items)).map chars = (sortedItems items).map chars := by
  cases items with
  | nil => rfl
  | cons item rest =>
    obtain ⟨here, others⟩ := (Bool.and_eq_true ..).mp safe
    exact congrArg₂ List.cons (storedSorted item here) (storedSortedItems rest others)
termination_by structural items

theorem storedSortedMembers (members : List (String × Json)) (safe : membersSafe members) :
    List.Forall₂ Alike (sortedMembers (storedMembers members)) (sortedMembers members) := by
  cases members with
  | nil => exact .nil
  | cons m rest =>
    obtain ⟨name, value⟩ := m
    obtain ⟨here, others⟩ := (Bool.and_eq_true ..).mp safe
    have valueSafe := ((Bool.and_eq_true ..).mp here).2
    exact insertAlike name (storedSorted value valueSafe) (storedSortedMembers rest others)
termination_by structural members

end

theorem canonicalBack {j : Json} (safe : j.isSafe) : j.stored.canonical = j.canonical :=
  congrArg String.ofList (storedSorted j safe)

end Stored

end Json

namespace Value

mutual

theorem bareOfJson (j : Json) : (ofJson j).bareJson = j := by
  cases j with
  | null | bool _ | number _ | text _ => rfl
  | array items => exact congrArg Json.array (bareOfItems items)
  | object members => exact congrArg Json.object (bareOfMembers members)
termination_by structural j

theorem bareOfItems (items : List Json) : bareItems (ofJsonItems items) = items := by
  cases items with
  | nil => rfl
  | cons item rest => exact congrArg₂ List.cons (bareOfJson item) (bareOfItems rest)
termination_by structural items

theorem bareOfMembers (members : List (String × Json)) : bareMembers (ofJsonMembers members) = members := by
  cases members with
  | nil => rfl
  | cons m rest =>
    obtain ⟨name, value⟩ := m
    exact congrArg₂ (fun v others => (name, v) :: others) (bareOfJson value) (bareOfMembers rest)
termination_by structural members

end

theorem membersJson (members : List (String × Json)) :
    isJsonMembers (ofJsonMembers members) = members.all fun m => (ofJson m.2).isJson := by
  induction members with
  | nil => rfl
  | cons m rest ih => exact congrArg ((ofJson m.2).isJson && ·) ih

mutual

/-- By induction on the document: what is read from the text of a safe document has no number that is not finite. -/
theorem storedJson (j : Json) (safe : j.isSafe) : (ofJson j.stored).isJson := by
  cases j with
  | null | bool _ | text _ => rfl
  | number n =>
    obtain ⟨i, value, -, -⟩ := Json.safeChars safe
    show (Json.settled n).isFinite
    rw [value]
    rfl
  | array items => exact storedItemsJson items safe
  | object members =>
    obtain ⟨distinct, safeMembers⟩ := (Bool.and_eq_true ..).mp safe
    have distinct := Json.storedNames members ▸ of_decide_eq_true distinct
    have each := storedMembersJson members safeMembers
    rw [membersJson] at each
    show isJsonMembers (ofJsonMembers (Record.ofPairs (Json.storedMembers members)))
    rw [membersJson, (Record.permOfPairs distinct).all_eq]
    exact each
termination_by structural j

theorem storedItemsJson (items : List Json) (safe : Json.areSafe items) : isJsonItems (ofJsonItems (Json.storedItems items)) := by
  cases items with
  | nil => rfl
  | cons item rest =>
    obtain ⟨here, others⟩ := (Bool.and_eq_true ..).mp safe
    exact (Bool.and_eq_true ..).mpr ⟨storedJson item here, storedItemsJson rest others⟩
termination_by structural items

theorem storedMembersJson (members : List (String × Json)) (safe : Json.membersSafe members) :
    isJsonMembers (ofJsonMembers (Json.storedMembers members)) := by
  cases members with
  | nil => rfl
  | cons m rest =>
    obtain ⟨here, others⟩ := (Bool.and_eq_true ..).mp safe
    exact (Bool.and_eq_true ..).mpr ⟨storedJson m.2 ((Bool.and_eq_true ..).mp here).2, storedMembersJson rest others⟩
termination_by structural members

end

end Value

end EntityQuery
