import EntityQuery.Proofs.Checks
import EntityQuery.Proofs.ReorderedDocuments
import EntityQuery.Proofs.Rows
/-! Containment of documents. It is reflexive, and transitive as far as objects contain by the members that they have: under the
name of the object that all objects share, an object may contain what the objects that contain it do not. -/

namespace EntityQuery

namespace Record

variable {α : Type} {r : Record α} {name title : String} {v w : α}

/-- The record with a value under a name, unless it has one there. -/
def withDefault (r : Record α) (name : String) (v : α) : Record α := if r.has name then r else (name, v) :: r

theorem getKept (found : r.get? title = some w) : (r.withDefault name v).get? title = some w := by
  unfold withDefault
  split
  · exact found
  · next absent =>
    have apart : name ≠ title := by
      rintro rfl
      exact absent (by simp [has, found])
    rw [get?, if_neg apart, found]

theorem getDefault (absent : r.get? title = none) :
    (r.withDefault name v).get? title = if name = title then some v else none := by
  unfold withDefault
  split
  · next there =>
    have apart : name ≠ title := by
      rintro rfl
      simp [has, absent] at there
    rw [if_neg apart, absent]
  · rw [get?, absent]

theorem memDefault {m : String × α} (mem : m ∈ r.withDefault name v) : m = (name, v) ∨ m ∈ r := by
  unfold withDefault at mem
  split at mem
  · exact .inr mem
  · exact List.mem_cons.mp mem

theorem defaultDistinct (distinct : r.names.Nodup) : (r.withDefault name v).names.Nodup := by
  unfold withDefault
  split
  · exact distinct
  · next absent => exact List.nodup_cons.mpr ⟨fun listed => absent (memNames.mp listed), distinct⟩

end Record

namespace Json

/-- A document includes another by what its objects have themselves: a scalar is included in what has its text, a list in one
where every item is included in some item, and an object in one where every member is included in that of its name. -/
inductive Includes : Json → Json → Prop where
  | scalar {document a : Json} (scalar : a.isScalar) (same : a.print = document.print) : Includes document a
  | array {candidates items : List Json} (choice : Json → Json) (inside : ∀ item ∈ items, choice item ∈ candidates)
      (each : ∀ item ∈ items, Includes (choice item) item) : Includes (.array candidates) (.array items)
  | object {candidates members : List (String × Json)} (found : String × Json → Json)
      (named : ∀ m ∈ members, Record.get? candidates m.1 = some (found m))
      (each : ∀ m ∈ members, Includes (found m) m.2) : Includes (.object candidates) (.object members)

mutual

/-- Do the members of every object in a document pass a test? -/
def everyObject (p : List (String × Json) → Bool) : Json → Bool
  | .array items => everyItem p items
  | .object members => p members && everyMember p members
  | .null | .bool _ | .number _ | .text _ => true
termination_by structural j => j

def everyItem (p : List (String × Json) → Bool) : List Json → Bool
  | [] => true
  | item :: rest => everyObject p item && everyItem p rest
termination_by structural items => items

def everyMember (p : List (String × Json) → Bool) : List (String × Json) → Bool
  | [] => true
  | (_, value) :: rest => everyObject p value && everyMember p rest
termination_by structural members => members

end

/-- No object in the document names a member twice, as none of any value does. -/
def isDistinct : Json → Bool := everyObject fun members => decide (members.map (·.1)).Nodup

/-- No object in the document has a member of this name. -/
def lacks (name : String) : Json → Bool := everyObject fun members => !Record.has members name

section Levels

variable {a b j k : Json} {p : List (String × Json) → Bool} {items : List Json} {members : List (String × Json)}

mutual

/-- Induction on a document: what holds of scalars, and of a list or an object as soon as it holds of its items or of the values
of its members, holds of all. -/
@[elab_as_elim]
theorem levels {P : Json → Prop} (scalar : ∀ j : Json, j.isScalar → P j)
    (array : ∀ items : List Json, (∀ item ∈ items, P item) → P (.array items))
    (object : ∀ members : List (String × Json), (∀ m ∈ members, P m.2) → P (.object members)) (j : Json) : P j := by
  cases j with
  | array items => exact array items (itemLevels scalar array object items)
  | object members => exact object members (memberLevels scalar array object members)
  | _ => exact scalar _ rfl
termination_by structural j

theorem itemLevels {P : Json → Prop} (scalar : ∀ j : Json, j.isScalar → P j)
    (array : ∀ items : List Json, (∀ item ∈ items, P item) → P (.array items))
    (object : ∀ members : List (String × Json), (∀ m ∈ members, P m.2) → P (.object members)) (items : List Json) :
    ∀ item ∈ items, P item := by
  cases items with
  | nil => exact nofun
  | cons item rest =>
    exact List.forall_mem_cons.mpr ⟨levels scalar array object item, itemLevels scalar array object rest⟩
termination_by structural items

theorem memberLevels {P : Json → Prop} (scalar : ∀ j : Json, j.isScalar → P j)
    (array : ∀ items : List Json, (∀ item ∈ items, P item) → P (.array items))
    (object : ∀ members : List (String × Json), (∀ m ∈ members, P m.2) → P (.object members))
    (members : List (String × Json)) : ∀ m ∈ members, P m.2 := by
  cases members with
  | nil => exact nofun
  | cons m rest =>
    obtain ⟨name, v⟩ := m
    exact List.forall_mem_cons.mpr ⟨levels scalar array object v, memberLevels scalar array object rest⟩
termination_by structural members

end

theorem everyItemAll : everyItem p items = items.all (everyObject p) := by
  induction items with
  | nil => rfl
  | cons item rest ih => exact congrArg (everyObject p item && ·) ih

theorem everyMemberAll : everyMember p members = members.all fun m => everyObject p m.2 := by
  induction members with
  | nil => rfl
  | cons m rest ih => exact congrArg (everyObject p m.2 && ·) ih

theorem everyArray : everyObject p (.array items) ↔ ∀ item ∈ items, everyObject p item := by
  rw [everyObject, everyItemAll, List.all_eq_true]

theorem everyObjectMembers : everyObject p (.object members) ↔ p members ∧ ∀ m ∈ members, everyObject p m.2 := by
  rw [everyObject, everyMemberAll, Bool.and_eq_true, List.all_eq_true]

theorem everyScalar (scalar : j.isScalar) : everyObject p j := by
  cases j <;> first | rfl | cases scalar

theorem openerScalar : j.isScalar ↔ j.opener ≠ some '[' ∧ j.opener ≠ some '\x7b' := by
  cases j <;> simp [isScalar, opener]

theorem scalarPrinted (scalar : j.isScalar) (same : j.print = k.print) : k.isScalar := by
  have opener := openerOnce (String.ofList_inj.mp same)
  rw [openerScalar] at scalar ⊢
  rwa [← opener]

/-- By induction on the document: one that is written alike includes it. -/
theorem includesPrinted (distinct : a.isDistinct) (same : a.print = b.print) : b.Includes a := by
  induction a using levels generalizing b with
  | scalar a scalar => exact .scalar scalar same
  | array items ih =>
    have chars := String.ofList_inj.mp same
    have opener := openerOnce chars
    cases b with
    | array candidates =>
      have written := arrayOnce chars
      have found : ∀ item ∈ items, ∃ c ∈ candidates, c.Includes item := by
        intro item mem
        have listed : item.chars ∈ candidates.map Json.chars := written ▸ List.mem_map_of_mem mem
        obtain ⟨c, inside, alike⟩ := List.mem_map.mp listed
        exact ⟨c, inside, ih item mem (everyArray.mp distinct item mem) (congrArg String.ofList alike.symm)⟩
      choose! choice inside each using found
      exact .array choice inside each
    | _ => cases opener
  | object members ih =>
    have chars := String.ofList_inj.mp same
    have opener := openerOnce chars
    cases b with
    | object candidates =>
      have alike := objectOnce chars
      obtain ⟨once, inner⟩ := everyObjectMembers.mp distinct
      have names : Record.names members = Record.names candidates := Results.pairedMap (fun _ _ same => same.1) alike
      have once : (Record.names candidates).Nodup := names ▸ of_decide_eq_true once
      have found : ∀ m ∈ members, ∃ c, Record.get? candidates m.1 = some c ∧ c.Includes m.2 := by
        intro m mem
        obtain ⟨n, inside, named, chars⟩ := Results.pairedLeft alike m mem
        rw [named]
        exact ⟨n.2, (Record.memPairs once).mp inside, ih m mem (inner m mem) (congrArg String.ofList chars)⟩
      choose! found named each using found
      exact .object found named each
    | _ => cases opener

/-- What has the text of no list and no object is included by its text. -/
theorem includesBare (included : b.Includes a) (bare : b.isScalar) : a.print = b.print := by
  cases included with
  | scalar _ same => exact same
  | array | object => cases bare

section Lengths

theorem itemShorter {item : Json} (mem : item ∈ items) : item.chars.length ≤ (chars (.array items)).length := by
  have among : item.chars.length ≤ (itemChars items).length := by
    induction items with
    | nil => cases mem
    | cons first rest ih =>
      obtain ⟨here, later⟩ := itemsLong first rest
      rcases List.mem_cons.mp mem with rfl | inside
      · exact here
      · exact (ih inside).trans (later (List.ne_nil_of_mem inside)).le
  rw [chars, List.cons_append, List.length_cons, List.length_append]
  omega

theorem memberShorter {m : String × Json} (mem : m ∈ members) : m.2.chars.length ≤ (chars (.object members)).length := by
  have among : m.2.chars.length ≤ (memberChars members).length := by
    induction members with
    | nil => cases mem
    | cons first rest ih =>
      obtain ⟨name, v⟩ := first
      obtain ⟨here, later⟩ := membersLong name v rest
      rcases List.mem_cons.mp mem with rfl | inside
      · exact here
      · exact (ih inside).trans (later (List.ne_nil_of_mem inside)).le
  rw [chars, List.cons_append, List.length_cons, List.length_append]
  omega

/-- A text that is written with more than a number of characters. -/
def longText (n : Nat) : Json := .text (String.ofList (List.replicate n 'a'))

theorem longTextLonger (n : Nat) : n < (longText n).chars.length := by
  have long := escapedLong (List.replicate n 'a')
  rw [List.length_replicate] at long
  rw [longText, chars, quoted, String.toList_ofList, List.cons_append, List.length_cons, List.length_append]
  omega

end Lengths

end Levels

end Json

namespace Store

open Json (Includes)

variable {a b c j : Json} {items : List Json} {members : List (String × Json)}

theorem withinScalar (scalar : a.isScalar) (document : Json) : within a document ↔ a.print = document.print := by
  have plain : contains (.ofJson a) document = sameText document (.ofJson a) := by
    cases a with
    | array _ | object _ => cases scalar
    | _ => rw [Value.ofJson, contains] <;> simp
  unfold within
  rw [plain, textSame]
  exact beq_iff_eq

theorem withinList : within (.array items) j ↔
    ∃ candidates, j = .array candidates ∧ ∀ item ∈ items, ∃ c ∈ candidates, within item c := by
  cases j with
  | array candidates => simp [withinArray]
  | _ =>
    rw [withinApart (by simp [Json.opener])]
    simp

theorem withinMembers : within (.object members) j ↔
    ∃ candidates, j = .object candidates ∧ ∀ m ∈ members, memberWithin candidates m := by
  cases j with
  | object candidates => simp [withinObject]
  | _ =>
    rw [withinApart (by simp [Json.opener])]
    simp

theorem memberFoundWithin {candidates : List (String × Json)} {m : String × Json} {v : Json}
    (found : Record.get? candidates m.1 = some v) : memberWithin candidates m = within m.2 v := by
  simp only [memberWithin, found]

theorem inheritedObject {name : String} : (∃ inside, Value.inherited name = .object inside) ↔ name = "__proto__" := by
  unfold Value.inherited
  constructor
  · rintro ⟨inside, found⟩
    split at found
    · cases found
    · split at found
      · assumption
      · cases found
  · rintro rfl
    exact ⟨[], rfl⟩

/-- What an object lacks, it can only have from the object that all objects share. -/
theorem memberLacked {candidates : List (String × Json)} {m : String × Json} (lacked : Record.get? candidates m.1 = none) :
    memberWithin candidates m ↔ m.1 = "__proto__" ∧ sharedWithin m.2 := by
  have shared := @inheritedObject m.1
  unfold memberWithin
  rw [lacked]
  cases found : Value.inherited m.1 with
  | object inside => simp [shared.mp ⟨inside, found⟩]
  | _ =>
    have other : m.1 ≠ "__proto__" := by
      intro named
      obtain ⟨inside, object⟩ := shared.mpr named
      cases found.symm.trans object
    simp [other]

/-- By induction on the inclusion: what a document includes, it contains. -/
theorem includesWithin (included : b.Includes a) : within a b := by
  induction included with
  | scalar scalar same => exact (withinScalar scalar _).mpr same
  | array choice inside _ ih =>
    exact withinList.mpr ⟨_, rfl, fun item mem => ⟨choice item, inside item mem, ih item mem⟩⟩
  | object found named _ ih =>
    refine withinMembers.mpr ⟨_, rfl, fun m mem => ?_⟩
    rw [memberFoundWithin (named m mem)]
    exact ih m mem

/-- By induction on what is contained: a document contains by its own members what asks for none of the object that all
objects share. -/
theorem withinIncludes (lacks : a.lacks "__proto__") (contained : within a b) : b.Includes a := by
  induction a using Json.levels generalizing b with
  | scalar a scalar => exact .scalar scalar ((withinScalar scalar b).mp contained)
  | array items ih =>
    obtain ⟨candidates, rfl, found⟩ := withinList.mp contained
    choose! choice inside each using found
    exact .array choice inside fun item mem => ih item mem (Json.everyArray.mp lacks item mem) (each item mem)
  | object members ih =>
    obtain ⟨candidates, rfl, found⟩ := withinMembers.mp contained
    obtain ⟨absent, inner⟩ := Json.everyObjectMembers.mp lacks
    have own : ∀ m ∈ members, ∃ v, Record.get? candidates m.1 = some v ∧ v.Includes m.2 := by
      intro m mem
      cases here : Record.get? candidates m.1 with
      | some v => exact ⟨v, rfl, ih m mem (inner m mem) (memberFoundWithin here ▸ found m mem)⟩
      | none =>
        obtain ⟨named, -⟩ := (memberLacked here).mp (found m mem)
        have listed : "__proto__" ∈ Record.names members := named ▸ List.mem_map_of_mem mem
        simp [Record.has, Record.memNames.mp listed] at absent
    choose! found named each using own
    exact .object found named each

/-- The shared object contains what is included in something that it contains. -/
theorem sharedIncludes (included : b.Includes a) (contained : sharedWithin b) : sharedWithin a := by
  cases included with
  | scalar scalar same =>
    have bare := Json.scalarPrinted scalar same
    rw [sharedApart (Json.openerScalar.mp bare).2] at contained
    cases contained
  | array =>
    rw [sharedApart (by simp [Json.opener])] at contained
    cases contained
  | @object candidates members found named each =>
    rw [sharedObject, List.all_eq_true] at contained ⊢
    intro m mem
    have held := contained _ (Record.memOfGet? (named m mem))
    unfold sharedHeld at held ⊢
    cases shared : Value.inherited m.1 with
    | object inside =>
      simp only [shared] at held ⊢
      have null : (found m).print = Json.null.print := eq_of_beq held
      have bare : (found m).isScalar := Json.scalarPrinted rfl null.symm
      exact beq_iff_eq.mpr ((Json.includesBare (each m mem) bare).trans null)
    | _ =>
      simp only [shared] at held
      cases held

/-- By induction on the inclusion: a document contains what is included in something that it contains. -/
theorem withinTrans (included : b.Includes a) (contained : within b c) : within a c := by
  induction included generalizing c with
  | @scalar b a scalar same =>
    have bare := Json.scalarPrinted scalar same
    exact (withinScalar scalar c).mpr (same.trans ((withinScalar bare c).mp contained))
  | array choice inside _ ih =>
    obtain ⟨candidates, rfl, found⟩ := withinList.mp contained
    refine withinList.mpr ⟨candidates, rfl, fun item mem => ?_⟩
    obtain ⟨x, listed, holds⟩ := found (choice item) (inside item mem)
    exact ⟨x, listed, ih item mem holds⟩
  | @object others members found named each ih =>
    obtain ⟨candidates, rfl, held⟩ := withinMembers.mp contained
    refine withinMembers.mpr ⟨candidates, rfl, fun m mem => ?_⟩
    have between := held _ (Record.memOfGet? (named m mem))
    cases here : Record.get? candidates m.1 with
    | some v =>
      rw [memberFoundWithin (m := (m.1, found m)) here] at between
      rw [memberFoundWithin here]
      exact ih m mem between
    | none =>
      obtain ⟨shared, holds⟩ := (memberLacked (m := (m.1, found m)) here).mp between
      exact (memberLacked here).mpr ⟨shared, sharedIncludes (each m mem) holds⟩

theorem scalarIncludes (bare : b.isScalar) (contained : within a b) : b.Includes a := by
  by_cases opener : a.opener = b.opener
  · have scalar : a.isScalar := by rwa [Json.openerScalar, opener, ← Json.openerScalar]
    exact .scalar scalar ((withinScalar scalar b).mp contained)
  · rw [withinApart opener] at contained
    cases contained

/-- A document that includes another, but of all that is not too long contains only what the other includes. -/
structure Guards (n : Nat) (b d : Json) : Prop where
  distinct : d.isDistinct
  includes : d.Includes b
  only : ∀ a : Json, a.chars.length ≤ n → within a d → b.Includes a

section Guards

variable {n : Nat} {f : Json → Json}

theorem guardsScalar (bare : b.isScalar) : Guards n b b where
  distinct := Json.everyScalar bare
  includes := .scalar bare rfl
  only _ _ contained := scalarIncludes bare contained

theorem guardsList (each : ∀ item ∈ items, Guards n item (f item)) : Guards n (.array items) (.array (items.map f)) where
  distinct := Json.everyArray.mpr (List.forall_mem_map.mpr fun item mem => (each item mem).distinct)
  includes := .array f (fun _ mem => List.mem_map_of_mem mem) fun item mem => (each item mem).includes
  only a short contained := by
    cases a with
    | array others =>
      obtain ⟨candidates, same, found⟩ := withinList.mp contained
      obtain rfl := Json.array.inj same
      have own : ∀ other ∈ others, ∃ item ∈ items, item.Includes other := by
        intro other mem
        obtain ⟨_, listed, holds⟩ := found other mem
        obtain ⟨item, inside, rfl⟩ := List.mem_map.mp listed
        exact ⟨item, inside, (each item inside).only other ((Json.itemShorter mem).trans short) holds⟩
      choose! choice inside included using own
      exact .array choice inside included
    | _ =>
      rw [withinApart (by simp [Json.opener])] at contained
      cases contained

/-- Where an object has no member of its own, the guard has a text that is too long. -/
def guarded (n : Nat) (f : Json → Json) (members : List (String × Json)) : List (String × Json) :=
  (Record.mapValues f members).withDefault "__proto__" (Json.longText n)

theorem guardedGet {name : String} {v : Json} (own : Record.get? members name = some v) :
    Record.get? (guarded n f members) name = some (f v) := by
  refine Record.getKept ?_
  rw [Record.getMapped, own]
  rfl

theorem guardedNone {name : String} (none : Record.get? members name = none) :
    Record.get? (guarded n f members) name = if "__proto__" = name then some (Json.longText n) else .none := by
  refine Record.getDefault ?_
  rw [Record.getMapped, none]
  rfl

theorem longTextApart (short : a.chars.length ≤ n) : within a (Json.longText n) = false := by
  by_contra contained
  have same := Json.includesBare (scalarIncludes rfl (Bool.eq_true_of_not_eq_false contained)) rfl
  have long := Json.longTextLonger n
  rw [← String.ofList_inj.mp same] at long
  omega

theorem guardsObject (once : (Record.names members).Nodup) (each : ∀ m ∈ members, Guards n m.2 (f m.2)) :
    Guards n (.object members) (.object (guarded n f members)) where
  distinct := by
    refine Json.everyObjectMembers.mpr ⟨decide_eq_true (Record.defaultDistinct ?_), fun m mem => ?_⟩
    · rwa [Record.namesMapped]
    · rcases Record.memDefault mem with rfl | mapped
      · rfl
      · obtain ⟨m, inside, rfl⟩ := List.mem_map.mp mapped
        exact (each m inside).distinct
  includes := .object (fun m => f m.2) (fun _ mem => guardedGet ((Record.memPairs once).mp mem))
    fun m mem => (each m mem).includes
  only a short contained := by
    cases a with
    | object others =>
      obtain ⟨candidates, same, found⟩ := withinMembers.mp contained
      obtain rfl := Json.object.inj same
      have own : ∀ m ∈ others, ∃ v, Record.get? members m.1 = some v ∧ v.Includes m.2 := by
        intro m mem
        have holds := found m mem
        have shorter := (Json.memberShorter mem).trans short
        cases here : Record.get? members m.1 with
        | some v =>
          rw [memberFoundWithin (guardedGet here)] at holds
          exact ⟨v, rfl, (each _ (Record.memOfGet? here)).only m.2 shorter holds⟩
        | none =>
          have got := guardedNone (n := n) (f := f) here
          split at got
          · rw [memberFoundWithin got, longTextApart shorter] at holds
            cases holds
          · next other => exact absurd ((memberLacked got).mp holds).1.symm other
      choose! v named included using own
      exact .object v named included
    | _ =>
      rw [withinApart (by simp [Json.opener])] at contained
      cases contained

/-- By induction on the document. -/
theorem guardsSome (n : Nat) (distinct : b.isDistinct) : ∃ d, Guards n b d := by
  induction b using Json.levels with
  | scalar b bare => exact ⟨b, guardsScalar bare⟩
  | array items ih =>
    have each : ∀ item ∈ items, ∃ d, Guards n item d := fun item mem => ih item mem (Json.everyArray.mp distinct item mem)
    choose! f guards using each
    exact ⟨_, guardsList guards⟩
  | object members ih =>
    obtain ⟨once, inner⟩ := Json.everyObjectMembers.mp distinct
    have each : ∀ v ∈ members.map (·.2), ∃ d, Guards n v d := List.forall_mem_map.mpr fun m mem => ih m mem (inner m mem)
    choose! f guards using each
    exact ⟨_, guardsObject (of_decide_eq_true once) fun m mem => guards m.2 (List.mem_map_of_mem mem)⟩

end Guards

section Ends

variable {item : ArrayItem} {steps : List Value} {part : Option Json}

/-- An array that begins or ends with a document contains it. -/
theorem endContained (distinct : a.isDistinct) (told : partTruth (.array item steps (.ofJson a)) part = .ok (.known true)) :
    partTruth (.array .any steps (.ofJson a)) part = .ok (.known true) := by
  have held : ∀ {items : List Json} {found : Option Json}, (∀ x, found = some x → x ∈ items) →
      itemTest found (.ofJson a) = .ok (.known true) →
        partTruth (.array .any steps (.ofJson a)) (some (.array items)) = .ok (.known true) := by
    intro items found inside compared
    rw [itemCompared] at compared
    cases found with
    | none => cases compared
    | some x =>
      have same : a.print = x.print := by simpa using compared
      have one : within (.array [a]) (.array items) := by
        refine withinList.mpr ⟨items, rfl, List.forall_mem_singleton.mpr ⟨x, inside x rfl, ?_⟩⟩
        exact includesWithin (Json.includesPrinted distinct same)
      rw [anyTruth, one]
  cases item with
  | any => exact told
  | first =>
    cases part with
    | none => cases told
    | some j =>
      cases j with
      | array items => exact held (fun _ => List.mem_of_mem_head?) told
      | _ => cases told
  | last =>
    cases part with
    | none => cases told
    | some j =>
      cases j with
      | array items => exact held (fun _ => List.mem_of_getLast?) told
      | _ => cases told

theorem documentEndContained {document : Option Json} (distinct : a.isDistinct)
    (told : documentTruth document (.array item steps (.ofJson a)) = .ok (.known true)) :
    documentTruth document (.array .any steps (.ofJson a)) = .ok (.known true) := by
  cases document with
  | none => exact endContained distinct told
  | some j =>
    have told : (navigate j steps >>= partTruth (.array item steps (.ofJson a))) = .ok (.known true) := told
    obtain ⟨part, found, told⟩ := Results.bindOk told
    change (navigate j steps >>= partTruth (.array .any steps (.ofJson a))) = _
    rw [found]
    exact endContained distinct told

theorem columnEndContained {tables : Tables} {scope : Scope} {r : ColumnRef} (distinct : a.isDistinct)
    (told : evaluate tables scope (.json r (.array item steps (.ofJson a))) = .ok (.known true)) :
    evaluate tables scope (.json r (.array .any steps (.ofJson a))) = .ok (.known true) := by
  rw [evaluate] at told ⊢
  obtain ⟨v, stored, told⟩ := Results.bindOk told
  have told : (documentOf v >>= fun document => documentTruth document (.array item steps (.ofJson a))) = .ok (.known true) := told
  obtain ⟨document, kept, told⟩ := Results.bindOk told
  rw [stored]
  change (documentOf v >>= fun document => documentTruth document (.array .any steps (.ofJson a))) = _
  rw [kept]
  exact documentEndContained distinct told

end Ends

theorem containsIff (a document : Json) : contains (.ofJson a) document = .ok true ↔ within a document := by
  rw [containsWithin, Except.ok.injEq]

/-- Containment is reflexive, and what a document contains is contained in all that contains the document unless it names the
object that all objects share. With that name or without, it is so exactly if the document includes it by what its objects have
themselves. An array that begins or ends with a document contains it. -/
theorem containmentOrders (a b c : Json) :
    (a.isDistinct → contains (.ofJson a) a = .ok true) ∧
      (c.lacks "__proto__" → contains (.ofJson b) a = .ok true → contains (.ofJson c) b = .ok true →
        contains (.ofJson c) a = .ok true) ∧
      (b.isDistinct → (b.Includes c ↔ ∀ d : Json, d.isDistinct → contains (.ofJson b) d = .ok true →
        contains (.ofJson c) d = .ok true)) ∧
      (a.isDistinct → ∀ (tables : Tables) (scope : Scope) (r : ColumnRef) (item : ArrayItem) (steps : List Value),
        evaluate tables scope (.json r (.array item steps (.ofJson a))) = .ok (.known true) →
          evaluate tables scope (.json r (.array .any steps (.ofJson a))) = .ok (.known true)) := by
  simp only [containsIff]
  refine ⟨fun distinct => ?_, fun lacks first second => ?_, fun distinct => ⟨fun included d _ => ?_, fun always => ?_⟩,
    fun distinct tables scope r item steps => columnEndContained distinct⟩
  · exact includesWithin (Json.includesPrinted distinct rfl)
  · exact withinTrans (withinIncludes lacks second) first
  · exact withinTrans included
  · obtain ⟨d, guards⟩ := guardsSome c.chars.length distinct
    exact guards.only c le_rfl (always d guards.distinct (includesWithin guards.includes))

end Store

namespace Sample

/-- An object whose one member has the name of the object that all objects share. -/
def underShared (v : Json) : Json := .object [("__proto__", v)]

/-- A row with an array that begins with a document. -/
def listRow (j : Json) : Row := [("id", .int 1), ("data", .text (Json.array [j, .null]).print)]

/-- The empty object contains what has an object under the shared name, as an object lies there for all of them, but what contains
the empty object may have a null there. Documents without the name are contained in turn. -/
theorem sharedNotPassedOn :
    Store.contains (.ofJson (.object [])) (underShared .null) = .ok true ∧
      Store.contains (.ofJson (underShared (.object []))) (.object []) = .ok true ∧
      Store.contains (.ofJson (underShared (.object []))) (underShared .null) = .ok false ∧
      ¬ (Json.object []).Includes (underShared (.object [])) ∧
      Store.contains (.ofJson (underShared .null)) (underShared .null) = .ok true ∧
      Store.contains (.ofJson (.array [.object []])) (.array [.null, pairOf "a" "b"]) = .ok true ∧
      Store.evaluate [] [("documents", listRow (underShared .null))]
        (.json ⟨"documents", "data"⟩ (.array .any [] (.ofJson (underShared .null)))) = .ok (.known true) := by
  have empty : Store.contains (.ofJson (.object [])) (underShared .null) = .ok true := by rfl
  have shared : Store.contains (.ofJson (underShared (.object []))) (.object []) = .ok true := by rfl
  have apart : Store.contains (.ofJson (underShared (.object []))) (underShared .null) = .ok false := by rfl
  have first : Store.evaluate [] [("documents", listRow (underShared .null))]
      (.json ⟨"documents", "data"⟩ (.array .first [] (.ofJson (underShared .null)))) = .ok (.known true) :=
    Results.toOptionOk (by decide +kernel)
  have outer : Store.contains (.ofJson (.array [.object [("b", .number (.integer 1))]])) (.array [.null, pairOf "a" "b"]) = .ok true :=
    Results.toOptionOk (by decide +kernel)
  have inner : Store.contains (.ofJson (.array [.object []])) (.array [.object [("b", .number (.integer 1))]]) = .ok true := by rfl
  obtain ⟨reflexive, -, -, ends⟩ := Store.containmentOrders (underShared .null) .null .null
  obtain ⟨-, -, general, -⟩ := Store.containmentOrders .null (.object []) (underShared (.object []))
  refine ⟨empty, shared, apart, fun includes => ?_, reflexive (by decide), ?_, ends (by decide) _ _ _ .first _ first⟩
  · have passed := (general (by decide)).mp includes (underShared .null) (by decide) empty
    rw [apart] at passed
    cases passed
  · obtain ⟨-, transitive, -⟩ := Store.containmentOrders (.array [.null, pairOf "a" "b"])
      (.array [.object [("b", .number (.integer 1))]]) (.array [.object []])
    exact transitive (by decide) outer inner

end Sample

end EntityQuery
