import EntityQuery.Proofs.DocumentTexts
import EntityQuery.Proofs.TypedPredicates
/-! Documents whose members stand in another order. No test of a document tells them apart, but for those of the first
and the last item of an array, which compare texts. -/

namespace EntityQuery

theorem Record.getMoved {α : Type} {r s : Record α} (same : r.Perm s) (distinct : (r.map (·.1)).Nodup) (name : String) :
    r.get? name = s.get? name := by
  induction same with
  | nil => rfl
  | cons pair _ ih =>
    obtain ⟨-, others⟩ := List.nodup_cons.mp distinct
    unfold get?
    rw [ih others]
  | swap p q rest =>
    obtain ⟨apart, -⟩ := List.nodup_cons.mp distinct
    have other : q.1 ≠ p.1 := fun named => apart (by simp [named])
    obtain ⟨key, v⟩ := p
    obtain ⟨title, w⟩ := q
    by_cases own : key = name
    · simp [get?, own, show ¬ title = name from fun named => other (named.trans own.symm)]
    · simp [get?, own]
  | trans first _ ih ih' => exact (ih distinct).trans (ih' ((first.map _).nodup_iff.mp distinct))

namespace Json

/-- The same document but for the order of members: those of any object in it are moved, any number of times. Names of
members differ as texts do, unit by unit. -/
inductive Reordered : Json → Json → Prop where
  | refl (j : Json) : Reordered j j
  | trans {i j k : Json} (first : Reordered i j) (second : Reordered j k) : Reordered i k
  | members {members others : List (String × Json)} (same : members.Perm others)
      (distinct : (members.map fun m => Text.units m.1).Nodup) : Reordered (.object members) (.object others)
  | item {before after : List Json} {j k : Json} (inner : Reordered j k) :
      Reordered (.array (before ++ j :: after)) (.array (before ++ k :: after))
  | member {before after : List (String × Json)} {name : String} {v w : Json} (inner : Reordered v w) :
      Reordered (.object (before ++ (name, v) :: after)) (.object (before ++ (name, w) :: after))

variable {i j k : Json}

def isScalar : Json → Bool
  | .array _ | .object _ => false
  | _ => true

section Canonical

variable {members others : List (String × Json)}

/-- Members of one name whose values have one canonical text. -/
def CanonicallyAlike (m n : String × Json) : Prop := m.1 = n.1 ∧ m.2.sorted.chars = n.2.sorted.chars

theorem sortedAlike (alike : List.Forall₂ CanonicallyAlike members others) :
    List.Forall₂ Alike (sortedMembers members) (sortedMembers others) := by
  induction alike with
  | nil => exact .nil
  | @cons m n members others here _ ih =>
    obtain ⟨name, v⟩ := m
    obtain ⟨other, w⟩ := n
    obtain ⟨rfl, values⟩ := here
    exact insertAlike name values ih

theorem sortedItemsMap (items : List Json) : sortedItems items = items.map sorted := by
  induction items with
  | nil => rfl
  | cons item rest ih => exact congrArg (item.sorted :: ·) ih

/-- Reordered documents have one canonical text. -/
theorem reorderedSorted (same : Reordered j k) : j.sorted.chars = k.sorted.chars := by
  induction same with
  | refl _ => rfl
  | trans _ _ first second => exact first.trans second
  | members same distinct =>
    rw [sorted, sorted, sortedMoved same distinct]
  | item _ inner =>
    rw [sorted, sorted, chars, chars, sortedItemsMap, sortedItemsMap]
    refine congrArg (fun cs => '[' :: cs ++ [']']) (itemsAlike ?_)
    simp [inner]
  | @member before after name v w _ inner =>
    have each : List.Forall₂ CanonicallyAlike (before ++ (name, v) :: after) (before ++ (name, w) :: after) :=
      List.rel_append (List.forall₂_same.mpr fun m _ => ⟨rfl, rfl⟩)
        (.cons ⟨rfl, inner⟩ (List.forall₂_same.mpr fun m _ => ⟨rfl, rfl⟩))
    rw [sorted, sorted, chars, chars, charsAlike (sortedAlike each)]

mutual

/-- By induction on the first document: documents of one text have one canonical text. -/
theorem charsSorted (j k : Json) (same : j.chars = k.chars) : j.sorted.chars = k.sorted.chars := by
  have opener := openerOnce same
  cases j with
  | array items =>
    cases k with
    | array others =>
      rw [sorted, sorted, chars, chars, itemsAlike (charsSortedItems items others (arrayOnce same))]
    | _ => cases opener
  | object members =>
    cases k with
    | object others =>
      rw [sorted, sorted, chars, chars, charsAlike (sortedAlike (charsSortedMembers members others (objectOnce same)))]
    | _ => cases opener
  | _ => cases k <;> first | exact same | cases opener
termination_by structural j

theorem charsSortedItems (items others : List Json) (same : items.map chars = others.map chars) :
    (sortedItems items).map chars = (sortedItems others).map chars := by
  cases items with
  | nil =>
    cases others with
    | nil => rfl
    | cons _ _ => cases same
  | cons item rest =>
    cases others with
    | nil => cases same
    | cons other more =>
      obtain ⟨here, there⟩ := List.cons.inj same
      exact congrArg₂ List.cons (charsSorted item other here) (charsSortedItems rest more there)
termination_by structural items

theorem charsSortedMembers (members others : List (String × Json)) (same : List.Forall₂ Alike members others) :
    List.Forall₂ CanonicallyAlike members others := by
  cases members with
  | nil =>
    cases same
    exact .nil
  | cons m rest =>
    obtain ⟨name, v⟩ := m
    cases same with
    | @cons _ n _ more here there =>
      exact .cons ⟨here.1, charsSorted v n.2 here.2⟩ (charsSortedMembers rest more there)
termination_by structural members

end

theorem printCanonical (same : j.print = k.print) : j.canonical = k.canonical :=
  congrArg String.ofList (charsSorted j k (String.ofList_inj.mp same))

theorem reorderedCanonical (same : Reordered j k) : j.canonical = k.canonical :=
  congrArg String.ofList (reorderedSorted same)

end Canonical

section Levels

variable {items others : List Json} {members more : List (String × Json)}

/-- One level of a document and of a reordered one: the same scalar, items that are reordered in their places, or
members that are under their names. -/
inductive Levels : Json → Json → Prop where
  | scalar {j : Json} (scalar : j.isScalar) : Levels j j
  | array {items others : List Json} (each : List.Forall₂ Reordered items others) : Levels (.array items) (.array others)
  | object {members more : List (String × Json)}
      (each : ∀ name, Option.Rel Reordered (Record.get? members name) (Record.get? more name)) :
      Levels (.object members) (.object more)

theorem relSelf (o : Option Json) : Option.Rel Reordered o o := by
  cases o with
  | none => exact .none
  | some j => exact .some (.refl j)

theorem relTrans {o p q : Option Json} (first : Option.Rel Reordered o p) (second : Option.Rel Reordered p q) :
    Option.Rel Reordered o q := by
  cases first with
  | none => exact second
  | some here =>
    cases second with
    | some there => exact .some (here.trans there)

theorem itemsTrans {between : List Json} (first : List.Forall₂ Reordered items between)
    (second : List.Forall₂ Reordered between others) : List.Forall₂ Reordered items others := by
  induction first generalizing others with
  | nil => exact second
  | cons here _ ih =>
    cases second with
    | cons there later => exact .cons (here.trans there) (ih later)

theorem itemsSelf (items : List Json) : List.Forall₂ Reordered items items := List.forall₂_same.mpr fun j _ => .refl j

/-- One member is replaced, and the others are found as they were. -/
theorem memberFound {R : Json → Json → Prop} (same : ∀ j, R j j) {before after : List (String × Json)} {title : String}
    {v w : Json} (inner : R v w) (name : String) :
    Option.Rel R (Record.get? (before ++ (title, v) :: after) name) (Record.get? (before ++ (title, w) :: after) name) := by
  have self : ∀ o : Option Json, Option.Rel R o o := by
    intro o
    cases o with
    | none => exact .none
    | some j => exact .some (same j)
  induction before with
  | nil =>
    change Option.Rel R (if title = name then some v else Record.get? after name)
      (if title = name then some w else Record.get? after name)
    split
    · exact .some inner
    · exact self _
  | cons m before ih =>
    change Option.Rel R (if m.1 = name then some m.2 else Record.get? (before ++ (title, v) :: after) name)
      (if m.1 = name then some m.2 else Record.get? (before ++ (title, w) :: after) name)
    split
    · exact self _
    · exact ih

theorem itemFound (each : List.Forall₂ Reordered items others) (n : Nat) : Option.Rel Reordered items[n]? others[n]? := by
  induction each generalizing n with
  | nil => exact .none
  | cons here _ ih =>
    cases n with
    | zero => exact .some here
    | succ n =>
      rw [List.getElem?_cons_succ, List.getElem?_cons_succ]
      exact ih n

theorem namesDistinct (distinct : (members.map fun m => Text.units m.1).Nodup) : (members.map (·.1)).Nodup := by
  refine List.Nodup.of_map Text.units ?_
  rw [List.map_map]
  exact distinct

theorem reorderedLevels (same : Reordered j k) : Levels j k := by
  induction same with
  | refl j =>
    cases j with
    | array items => exact .array (itemsSelf items)
    | object members => exact .object fun name => relSelf _
    | _ => exact .scalar rfl
  | trans _ _ first second =>
    cases first with
    | scalar => exact second
    | array each =>
      cases second with
      | scalar scalar => cases scalar
      | array later => exact .array (itemsTrans each later)
    | object each =>
      cases second with
      | scalar scalar => cases scalar
      | object later =>
        exact .object fun name => relTrans (each name) (later name)
  | members same distinct =>
    refine .object fun name => ?_
    rw [Record.getMoved same (namesDistinct distinct) name]
    exact relSelf _
  | item inner _ => exact .array (List.rel_append (itemsSelf _) (.cons inner (itemsSelf _)))
  | member inner _ => exact .object (memberFound .refl inner)

end Levels

end Json

namespace Store

open Json (Reordered)

variable {i j k a b : Json}

/-- Does a document contain another? -/
def within (a document : Json) : Bool := Results.valueOr false (contains (.ofJson a) document)

/-- Does the object that all objects share contain a document? -/
def sharedWithin (a : Json) : Bool := Results.valueOr false (sharedContains (.ofJson a))

/-- Does the object that all objects share hold what a named member is? Above it there is a null alone. -/
def sharedHeld (m : String × Json) : Bool :=
  match Value.inherited m.1 with
  | .object _ => m.2.print == Json.null.print
  | _ => false

/-- Has an object a member that contains a named one? Names that every object has may stand for a member. -/
def memberWithin (candidates : List (String × Json)) (m : String × Json) : Bool :=
  match Record.get? candidates m.1, Value.inherited m.1 with
  | some candidate, _ => within m.2 candidate
  | none, .object _ => sharedWithin m.2
  | none, _ => false

theorem containsWithin (a document : Json) : contains (.ofJson a) document = .ok (within a document) :=
  Results.eqOkValueOr false (containsOk a document)

theorem textSame (a document : Json) : sameText document (.ofJson a) = .ok (a.print == document.print) := by
  unfold sameText
  rw [Value.jsonTextOfJson]
  rfl

theorem sharedContainsWithin (a : Json) : sharedContains (.ofJson a) = .ok (sharedWithin a) :=
  Results.eqOkValueOr false (sharedContainsOk a)

theorem sharedObject (members : List (String × Json)) : sharedWithin (.object members) = members.all sharedHeld := by
  have each : (Value.ofJsonMembers members).allM (fun m => sharedHolds m.1 m.2) = .ok (members.all sharedHeld) := by
    induction members with
    | nil => rfl
    | cons m rest ih =>
      have here : sharedHolds m.1 (.ofJson m.2) = .ok (sharedHeld m) := by
        unfold sharedHolds sharedHeld
        cases Value.inherited m.1 with
        | callable f =>
          rw [Value.jsonTextOfJson]
          rfl
        | object members => exact textSame m.2 .null
        | _ => rfl
      rw [Value.ofJsonMembers, List.allM, here, ih, List.all_cons]
      cases sharedHeld m <;> rfl
  exact congrArg (Results.valueOr false) each

theorem withinArray (items candidates : List Json) :
    within (.array items) (.array candidates) = items.all fun item => candidates.any (within item) := by
  have each : containsItems (Value.ofJsonItems items) candidates = .ok (items.all fun item => candidates.any (within item)) := by
    induction items with
    | nil => rfl
    | cons item rest ih =>
      rw [Value.ofJsonItems, containsItems, Results.anyOk fun c _ => containsWithin item c, ih, List.all_cons]
      cases candidates.any (within item) <;> rfl
  unfold within
  rw [Value.ofJson, contains, each]
  rfl

theorem withinObject (members candidates : List (String × Json)) :
    within (.object members) (.object candidates) = members.all (memberWithin candidates) := by
  have each : containsMembers (Value.ofJsonMembers members) candidates = .ok (members.all (memberWithin candidates)) := by
    induction members with
    | nil => rfl
    | cons m rest ih =>
      obtain ⟨name, v⟩ := m
      rw [Value.ofJsonMembers, containsMembers, ih, List.all_cons]
      cases here : Record.get? candidates name with
      | some candidate =>
        have found : memberWithin candidates (name, v) = within v candidate := by simp only [memberWithin, here]
        rw [found]
        change (contains (.ofJson v) candidate >>= _) = _
        rw [containsWithin]
        cases within v candidate <;> rfl
      | none =>
        cases shared : Value.inherited name with
        | object inside =>
          have found : memberWithin candidates (name, v) = sharedWithin v := by simp only [memberWithin, here, shared]
          rw [found, sharedContainsWithin]
          cases sharedWithin v <;> rfl
        | callable f =>
          have found : memberWithin candidates (name, v) = false := by simp only [memberWithin, here, shared]
          rw [found, Value.jsonTextOfJson]
          rfl
        | _ =>
          have found : memberWithin candidates (name, v) = false := by simp only [memberWithin, here, shared]
          rw [found]
          rfl
  unfold within
  rw [Value.ofJson, contains, each]
  rfl

theorem printApart (apart : a.opener ≠ j.opener) : (a.print == j.print) = false := by
  rw [beq_eq_false_iff_ne]
  exact fun same => apart (Json.openerOnce (String.ofList_inj.mp same))

/-- A scalar, a list and an object contain nothing that begins with another character than they do. -/
theorem withinApart (apart : a.opener ≠ j.opener) : within a j = false := by
  have plain : contains (.ofJson a) j = sameText j (.ofJson a) := by
    cases a <;> cases j <;> first | exact absurd rfl apart | (rw [Value.ofJson, contains] <;> simp)
  unfold within
  rw [plain, textSame, printApart apart]
  rfl

/-- By induction on the reordering: a reordered document contains what the document contains. -/
theorem withinReordered (same : Reordered j k) (a : Json) : within a j = within a k := by
  induction same generalizing a with
  | refl _ => rfl
  | trans _ _ first second => exact (first a).trans (second a)
  | @members members others same distinct =>
    cases a with
    | object asked =>
      have found : memberWithin members = memberWithin others := by
        funext m
        unfold memberWithin
        rw [Record.getMoved same (Json.namesDistinct distinct)]
      rw [withinObject, withinObject, found]
    | _ => rw [withinApart (by simp [Json.opener]), withinApart (by simp [Json.opener])]
  | @item before after j k _ inner =>
    cases a with
    | array asked =>
      rw [withinArray, withinArray]
      simp only [List.any_append, List.any_cons, inner]
    | _ => rw [withinApart (by simp [Json.opener]), withinApart (by simp [Json.opener])]
  | @member before after name v w _ inner =>
    cases a with
    | object asked =>
      have found : memberWithin (before ++ (name, v) :: after) = memberWithin (before ++ (name, w) :: after) := by
        funext m
        have rel : Option.Rel (fun x y => ∀ a, within a x = within a y) (Record.get? (before ++ (name, v) :: after) m.1)
            (Record.get? (before ++ (name, w) :: after) m.1) := Json.memberFound (fun _ _ => rfl) inner m.1
        unfold memberWithin
        revert rel
        cases Record.get? (before ++ (name, v) :: after) m.1 <;> cases Record.get? (before ++ (name, w) :: after) m.1 <;>
          intro rel <;> cases rel
        · rfl
        · next here => exact here m.2
      rw [withinObject, withinObject, found]
    | _ => rw [withinApart (by simp [Json.opener]), withinApart (by simp [Json.opener])]

/-- The shared object contains no scalar and no list. -/
theorem sharedApart (apart : a.opener ≠ some '\x7b') : sharedWithin a = false := by
  have plain : sharedContains (.ofJson a) = sameText (.object []) (.ofJson a) := by
    cases a <;> first | rfl | exact absurd rfl apart
  unfold sharedWithin
  rw [plain, textSame, printApart apart]
  rfl

theorem sharedReordered (same : Reordered a b) : sharedWithin a = sharedWithin b := by
  induction same with
  | refl _ => rfl
  | trans _ _ first second => exact first.trans second
  | members same distinct =>
    rw [sharedObject, sharedObject]
    exact same.all_eq
  | item _ _ => rw [sharedApart (by simp [Json.opener]), sharedApart (by simp [Json.opener])]
  | @member before after name v w inner _ =>
    have texts : (v.print == Json.null.print) = (w.print == Json.null.print) := by
      cases Json.reorderedLevels inner with
      | scalar => rfl
      | _ => rw [printApart (by simp [Json.opener]), printApart (by simp [Json.opener])]
    rw [sharedObject, sharedObject]
    simp only [List.all_append, List.all_cons, sharedHeld, texts]

/-- By induction on the reordering: a document contains a reordered one if it contains the one. -/
theorem reorderedWithin (same : Reordered a b) (j : Json) : within a j = within b j := by
  induction same generalizing j with
  | refl _ => rfl
  | trans _ _ first second => exact (first j).trans (second j)
  | members same distinct =>
    cases j with
    | object candidates =>
      rw [withinObject, withinObject]
      exact same.all_eq
    | _ => rw [withinApart (by simp [Json.opener]), withinApart (by simp [Json.opener])]
  | item _ inner =>
    cases j with
    | array candidates =>
      rw [withinArray, withinArray]
      simp only [List.all_append, List.all_cons, funext inner]
    | _ => rw [withinApart (by simp [Json.opener]), withinApart (by simp [Json.opener])]
  | @member before after name v w same inner =>
    cases j with
    | object candidates =>
      have found : memberWithin candidates (name, v) = memberWithin candidates (name, w) := by
        unfold memberWithin
        dsimp only
        rw [funext inner, sharedReordered same]
      rw [withinObject, withinObject]
      simp only [List.all_append, List.all_cons, found]
    | _ => rw [withinApart (by simp [Json.opener]), withinApart (by simp [Json.opener])]

section Parts

variable {item : ArrayItem} {test other : JsonTest}

theorem steppedReordered (same : Reordered j k) (step : String) :
    ∃ o p, stepInto (.text step) j = .ok o ∧ stepInto (.text step) k = .ok p ∧ Option.Rel Reordered o p := by
  cases Json.reorderedLevels same with
  | scalar scalar => cases j <;> first | exact ⟨none, none, rfl, rfl, .none⟩ | cases scalar
  | @array items others each =>
    refine ⟨_, _, rfl, rfl, ?_⟩
    cases Number.leadingInt? step with
    | none => exact .none
    | some i =>
      change Option.Rel Reordered (itemAt items i) (itemAt others i)
      unfold itemAt
      rw [each.length_eq]
      dsimp only
      generalize (if i < 0 then (others.length : Int) + i else i) = position
      split
      · exact .none
      · exact Json.itemFound each _
  | object each => exact ⟨_, _, rfl, rfl, each step⟩

/-- A path leads to reordered parts of reordered documents. -/
theorem navigateReordered (same : Reordered j k) (steps : List String) :
    ∃ o p, navigate j (steps.map .text) = .ok o ∧ navigate k (steps.map .text) = .ok p ∧ Option.Rel Reordered o p := by
  induction steps generalizing j k with
  | nil => exact ⟨_, _, rfl, rfl, .some same⟩
  | cons step rest ih =>
    obtain ⟨o, p, first, second, inner⟩ := steppedReordered same step
    rw [List.map_cons, navigate, navigate, first, second]
    cases inner with
    | none => exact ⟨none, none, rfl, rfl, .none⟩
    | some inside => exact ih inside

theorem keyReordered (same : Reordered j k) (key : String) : hasKey (.text key) j = hasKey (.text key) k := by
  cases Json.reorderedLevels same with
  | scalar => rfl
  | @array items others each =>
    have alike : ∀ x y : Json, Reordered x y → isItem (.text key) x = isItem (.text key) y := by
      intro x y same
      cases Json.reorderedLevels same <;> rfl
    change Except.ok (items.any (isItem (.text key))) = Except.ok (others.any (isItem (.text key)))
    refine congrArg Except.ok ?_
    clear same
    induction each with
    | nil => rfl
    | cons here _ ih => rw [List.any_cons, List.any_cons, alike _ _ here, ih]
  | @object members more each =>
    have found := each key
    change Except.ok (Record.get? members key).isSome = Except.ok (Record.get? more key).isSome
    revert found
    cases Record.get? members key <;> cases Record.get? more key <;> intro found <;> cases found <;> rfl

theorem nullReordered (same : Reordered j k) : isNullDocument j = isNullDocument k := by
  cases Json.reorderedLevels same <;> rfl

theorem scalarReordered (same : Reordered j k) (scalar : j.isScalar) : j = k := by
  cases Json.reorderedLevels same with
  | scalar => rfl
  | _ => cases scalar

/-- The first or the last item of an array. -/
def endOf : ArrayItem → Json → Option Json
  | .first, .array items => items.head?
  | .last, .array items => items.getLast?
  | _, _ => none

theorem endReordered (item : ArrayItem) (same : Reordered j k) : Option.Rel Reordered (endOf item j) (endOf item k) := by
  cases Json.reorderedLevels same with
  | scalar scalar => cases item <;> cases j <;> first | exact .none | cases scalar
  | @array items others each =>
    cases item with
    | any => exact .none
    | first =>
      change Option.Rel Reordered items.head? others.head?
      rw [List.head?_eq_getElem?, List.head?_eq_getElem?]
      exact Json.itemFound each 0
    | last =>
      change Option.Rel Reordered items.getLast? others.getLast?
      rw [List.getLast?_eq_getElem?, List.getLast?_eq_getElem?, each.length_eq]
      exact Json.itemFound each _
  | object => cases item <;> exact .none

/-- The item at an end of the array that a path leads to. -/
def endAt (item : ArrayItem) (steps : List Value) (document : Json) : Option Json :=
  (navigate document steps).toOption.bind fun part => part.bind (endOf item)

/-- Does a test mistake an item that differs from its operand in the order of members alone for another document? -/
def Mistakes (document : Json) : JsonTest → Prop
  | .array item steps operand => ∃ found v, endAt item steps document = some found ∧ operand = .ofJson v ∧
      found.canonical = v.canonical ∧ found.print ≠ v.print
  | _ => False

/-- Does a test of a text, if it is one, find a scalar where its path leads anywhere? -/
def OnScalar (document : Json) : JsonTest → Prop
  | .text _ steps _ => ∀ part, navigate document steps = .ok (some part) → part.isScalar
  | _ => True

end Parts

end Store

/-- Tests of one kind on one path, whose operands are reordered documents. -/
inductive JsonTest.Reordered : JsonTest → JsonTest → Prop where
  | path (steps : List String) : Reordered (.path (steps.map .text)) (.path (steps.map .text))
  | text (kind : TextMatch) (steps : List String) (part : String) :
      Reordered (.text kind (steps.map .text) (.text part)) (.text kind (steps.map .text) (.text part))
  | array (item : ArrayItem) (steps : List String) {a b : Json} (operands : Json.Reordered a b) :
      Reordered (.array item (steps.map .text) (.ofJson a)) (.array item (steps.map .text) (.ofJson b))
  | objectKey (steps : List String) (key : String) :
      Reordered (.objectKey (steps.map .text) (.text key)) (.objectKey (steps.map .text) (.text key))
  | null (steps : List String) (kind : NullKind) : Reordered (.null (steps.map .text) kind) (.null (steps.map .text) kind)

namespace Store

variable {j k a b : Json} {item : ArrayItem} {test other : JsonTest} {steps : List String}

theorem anyTruth (steps : List Value) (a : Json) (items : List Json) :
    partTruth (.array .any steps (.ofJson a)) (some (.array items)) = .ok (.known (within (.array [a]) (.array items))) := by
  change (contains (.ofJson (.array [a])) (.array items) >>= fun b => Except.ok (Truth.known b)) = _
  rw [containsWithin]
  rfl

theorem itemCompared (found : Option Json) (a : Json) :
    itemTest found (.ofJson a) = .ok (found.elim .unknown fun found => .known (a.print == found.print)) := by
  cases found with
  | none => rfl
  | some found =>
    unfold itemTest
    dsimp only
    rw [textSame]
    rfl

/-- A test of an end of an array compares the text of the item there with that of its operand. -/
theorem endTruth (ends : item ≠ .any) (document a : Json) (steps : List String) :
    documentTruth (some document) (.array item (steps.map .text) (.ofJson a)) =
      .ok ((endAt item (steps.map .text) document).elim .unknown fun found => .known (a.print == found.print)) := by
  obtain ⟨part, navigated⟩ := navigateOk steps document
  unfold documentTruth endAt
  change (navigate document (steps.map .text) >>= partTruth _) = _
  rw [navigated]
  change partTruth _ part = _
  cases item with
  | any => exact absurd rfl ends
  | _ =>
    rcases part with _ | part
    · rfl
    · cases part <;> first | rfl | exact itemCompared _ a

theorem endAtReordered (item : ArrayItem) (same : Json.Reordered j k) (steps : List String) :
    Option.Rel Json.Reordered (endAt item (steps.map .text) j) (endAt item (steps.map .text) k) := by
  obtain ⟨o, p, first, second, parts⟩ := navigateReordered same steps
  unfold endAt
  rw [first, second]
  cases parts with
  | none => exact .none
  | some inside => exact endReordered item inside

theorem pathReordered (tests : test.Reordered other) :
    ∃ steps : List String, stepsOf test = .ok (steps.map .text) ∧ stepsOf other = .ok (steps.map .text) := by
  cases tests <;> exact ⟨_, rfl, rfl⟩

theorem truthAt {document : Json} {part : Option Json} (path : stepsOf test = .ok (steps.map .text))
    (navigated : navigate document (steps.map .text) = .ok part) : documentTruth (some document) test = partTruth test part := by
  unfold documentTruth
  rw [path]
  change (navigate document (steps.map .text) >>= partTruth test) = _
  rw [navigated]
  rfl

/-- Tests other than those of the ends of an array have one truth on parts that are reordered. -/
theorem partReordered {o p : Option Json} (parts : Option.Rel Json.Reordered o p) (tests : test.Reordered other)
    (scalar : ∀ kind path part, test = .text kind path part → ∀ x, o = some x → x.isScalar)
    (inner : ∀ item path operand, test = .array item path operand → item = .any) :
    ∃ t, partTruth test o = .ok t ∧ partTruth other p = .ok t := by
  cases tests with
  | path steps => cases parts <;> exact ⟨_, rfl, rfl⟩
  | text kind steps part =>
    cases parts with
    | none => exact ⟨_, rfl, rfl⟩
    | @some x y inside =>
      obtain rfl := scalarReordered inside (scalar _ _ _ rfl _ rfl)
      unfold partTruth
      rw [Option.bind_some]
      cases scalarText x with
      | none => exact ⟨_, rfl, rfl⟩
      | some s => cases kind <;> exact ⟨_, rfl, rfl⟩
  | @array item steps a b operands =>
    obtain rfl := inner item _ _ rfl
    cases parts with
    | none => exact ⟨_, rfl, rfl⟩
    | @some x y inside =>
      cases Json.reorderedLevels inside with
      | scalar scalar => cases x <;> first | exact ⟨_, rfl, rfl⟩ | cases scalar
      | @array items others each =>
        refine ⟨_, anyTruth _ a items, (anyTruth _ b others).trans ?_⟩
        have whole : Json.Reordered (.array ([] ++ a :: [])) (.array ([] ++ b :: [])) := .item operands
        rw [withinReordered inside, reorderedWithin (a := .array [a]) (b := .array [b]) whole]
      | object => exact ⟨_, rfl, rfl⟩
  | objectKey steps key =>
    cases parts with
    | none => exact ⟨_, rfl, rfl⟩
    | @some x y inside =>
      obtain ⟨b, had⟩ := hasKeyOk key x
      refine ⟨.known b, ?_, ?_⟩
      · change (hasKey (.text key) x >>= fun b => Except.ok (Truth.known b)) = _
        rw [had]
        rfl
      · change (hasKey (.text key) y >>= fun b => Except.ok (Truth.known b)) = _
        rw [← keyReordered inside key, had]
        rfl
  | null steps kind =>
    cases parts with
    | none => cases kind <;> exact ⟨_, rfl, rfl⟩
    | some inside =>
      have null := nullReordered inside
      cases kind with
      | json | any => exact ⟨_, rfl, congrArg (fun b => Except.ok (Truth.known b)) null.symm⟩
      | _ => exact ⟨_, rfl, rfl⟩

theorem mistakesArray (document a : Json) (item : ArrayItem) (steps : List Value) :
    Mistakes document (.array item steps (.ofJson a)) ↔
      ∃ found, endAt item steps document = some found ∧ found.canonical = a.canonical ∧ found.print ≠ a.print := by
  constructor
  · rintro ⟨found, v, there, same, rest⟩
    obtain rfl : a = v := by rw [← Value.bareOfJson a, same, Value.bareOfJson]
    exact ⟨found, there, rest⟩
  · rintro ⟨found, there, rest⟩
    exact ⟨found, a, there, rfl, rest⟩

theorem endAtAny (steps : List Value) (document : Json) : endAt .any steps document = none := by
  unfold endAt
  cases (navigate document steps).toOption with
  | none => rfl
  | some part => cases part <;> rfl

theorem neverMistakes (inner : ∀ item path operand, test = .array item path operand → item = .any) (document : Json) :
    ¬ Mistakes document test := by
  cases test with
  | array item steps operand =>
    obtain rfl := inner item steps operand rfl
    rintro ⟨found, v, there, -⟩
    cases (endAtAny steps document).symm.trans there
  | _ => exact id

/-- The truths of a test of an end, on items and operands that are reordered. -/
theorem endsReordered {x y : Json} (items : Json.Reordered x y) (operands : Json.Reordered a b) :
    (a.print == x.print) = (b.print == y.print) ↔
      (x.canonical = a.canonical ∧ x.print ≠ a.print ↔ y.canonical = b.canonical ∧ y.print ≠ b.print) := by
  rw [← Json.reorderedCanonical items, ← Json.reorderedCanonical operands]
  by_cases canonical : x.canonical = a.canonical
  · by_cases first : x.print = a.print <;> by_cases second : y.print = b.print <;>
      simp [canonical, first, second, eq_comm (a := a.print), eq_comm (a := b.print)]
  · have first : x.print ≠ a.print := mt Json.printCanonical canonical
    have second : y.print ≠ b.print := by
      refine mt Json.printCanonical ?_
      rwa [← Json.reorderedCanonical items, ← Json.reorderedCanonical operands]
    simp [canonical, beq_eq_false_iff_ne.mpr first.symm, beq_eq_false_iff_ne.mpr second.symm]

/-- The truths of a test on a document and of a reordered one on a reordered document are equal if both or neither of
them mistakes the operand in another order for another document; one that does is false. -/
theorem truthsReordered (same : Json.Reordered j k) (tests : test.Reordered other) (scalar : OnScalar j test) :
    ∃ t u, documentTruth (some j) test = .ok t ∧ documentTruth (some k) other = .ok u ∧
      (t = u ↔ (Mistakes j test ↔ Mistakes k other)) ∧
      (Mistakes j test → t = .known false) ∧ (Mistakes k other → u = .known false) := by
  obtain ⟨steps, path, again⟩ := pathReordered tests
  obtain ⟨o, p, first, second, parts⟩ := navigateReordered same steps
  by_cases ends : ∃ item path operand, test = .array item path operand ∧ item ≠ .any
  · obtain ⟨item, _, _, rfl, ends⟩ := ends
    cases tests with
    | @array _ steps a b operands =>
      refine ⟨_, _, endTruth ends j a steps, endTruth ends k b steps, ?_⟩
      rw [mistakesArray, mistakesArray]
      have found := endAtReordered item same steps
      revert found
      cases endAt item (steps.map .text) j <;> cases endAt item (steps.map .text) k <;> intro found <;> cases found
      · simp
      · next x y items =>
        have truths := endsReordered items operands
        refine ⟨by simpa using truths, ?_, ?_⟩
        · rintro ⟨_, ⟨⟩, -, differ⟩
          exact congrArg Truth.known (beq_eq_false_iff_ne.mpr differ.symm)
        · rintro ⟨_, ⟨⟩, -, differ⟩
          exact congrArg Truth.known (beq_eq_false_iff_ne.mpr differ.symm)
  · have inner : ∀ item path operand, test = .array item path operand → item = .any := by
      intro item path operand array
      by_contra other
      exact ends ⟨item, path, operand, array, other⟩
    have scalars : ∀ kind path part, test = .text kind path part → ∀ x, o = some x → x.isScalar := by
      rintro kind _ part rfl x rfl
      obtain rfl := Except.ok.inj path
      exact scalar x first
    have innerOther : ∀ item path operand, other = .array item path operand → item = .any := by
      rintro item path operand rfl
      cases tests with
      | array => exact inner item _ _ rfl
    obtain ⟨t, here, there⟩ := partReordered parts tests scalars inner
    refine ⟨t, t, (truthAt path first).trans here, (truthAt again second).trans there, ?_⟩
    have one := neverMistakes inner j
    have two := neverMistakes innerOther k
    exact ⟨iff_of_true rfl (iff_of_false one two), fun own => absurd own one, fun own => absurd own two⟩

/-- A test of a column has one truth on stored documents that are reordered and on reordered operands. The ends of arrays
are compared as texts, so one that is the operand in another order is mistaken for another, and the test is false. -/
theorem columnReordered (tables : Tables) (scope scope' : Scope) (r r' : ColumnRef) {s s' : String}
    (read : columnValue scope r = .ok (.text s)) (stored : Json.read? s = some j)
    (read' : columnValue scope' r' = .ok (.text s')) (stored' : Json.read? s' = some k) (same : Json.Reordered j k)
    (tests : test.Reordered other) (scalar : OnScalar j test) :
    ∃ t u, evaluate tables scope (.json r test) = .ok t ∧ evaluate tables scope' (.json r' other) = .ok u ∧
      (t = u ↔ (Mistakes j test ↔ Mistakes k other)) ∧
      (Mistakes j test → t = .known false) ∧ (Mistakes k other → u = .known false) := by
  have evaluated : ∀ {scope : Scope} {r : ColumnRef} {s : String} {document : Json} (test : JsonTest),
      columnValue scope r = .ok (.text s) → Json.read? s = some document →
        evaluate tables scope (.json r test) = documentTruth (some document) test := by
    intro scope r s document test read stored
    have kept : documentOf (.text s) = .ok (some document) := by simp [documentOf, stored]
    rw [evaluate, read]
    change (documentOf (.text s) >>= fun document => documentTruth document test) = _
    rw [kept]
    rfl
  rw [evaluated test read stored, evaluated other read' stored']
  exact truthsReordered same tests scalar

end Store

namespace Sample

def pairOf (a b : String) : Json := .object [(a, .number (.integer 1)), (b, .number (.integer 1))]

/-- A row with an array of one object. -/
def arrayRow : Row := [("id", .int 1), ("data", .text (Json.array [pairOf "a" "b"]).print)]

/-- An array begins with an object, and not with the same one in another order. -/
theorem firstMistaken : ∃ t, t ≠ .known false ∧
    Store.evaluate [] [("documents", arrayRow)]
      (.json ⟨"documents", "data"⟩ (.array .first [] (.ofJson (pairOf "a" "b")))) = .ok t ∧
    Store.evaluate [] [("documents", arrayRow)]
      (.json ⟨"documents", "data"⟩ (.array .first [] (.ofJson (pairOf "b" "a")))) = .ok (.known false) := by
  have stored : Json.read? (Json.array [pairOf "a" "b"]).print = some (.array [pairOf "a" "b"]) := Json.readBack (by decide)
  have operands : (pairOf "a" "b").Reordered (pairOf "b" "a") := .members (.swap ..) (by decide)
  obtain ⟨t, u, first, second, told, -, mistaken⟩ := Store.columnReordered [] [("documents", arrayRow)]
    [("documents", arrayRow)] ⟨"documents", "data"⟩ ⟨"documents", "data"⟩ rfl stored rfl stored (.refl _)
    (.array .first [] operands) trivial
  have turned : Store.Mistakes (.array [pairOf "a" "b"]) (.array .first [] (.ofJson (pairOf "b" "a"))) :=
    ⟨_, _, rfl, rfl, Json.reorderedCanonical operands, by decide +kernel⟩
  have plain : ¬ Store.Mistakes (.array [pairOf "a" "b"]) (.array .first [] (.ofJson (pairOf "a" "b"))) := by
    rw [Store.mistakesArray]
    rintro ⟨found, ⟨⟩, -, differ⟩
    exact differ rfl
  obtain rfl := mistaken turned
  exact ⟨t, fun same => plain ((told.mp same).mpr turned), first, second⟩

end Sample

end EntityQuery
