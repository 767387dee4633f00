import EntityQuery.Proofs.CreatedRows
import EntityQuery.Proofs.KeyTexts
import EntityQuery.Proofs.ReachedRows
/-! Related rows that are fetched for many values at once and shared out by key. Each value gets the rows that a fetch
for it alone brings, in their order, and its window keeps of them what a read for it alone answers. -/

namespace EntityQuery

namespace Record

variable {α : Type} {r : Record α} {name : String} {v : α}

theorem replaceInside {pair : String × α} (mem : pair ∈ r.replace name v) : pair = (name, v) ∨ pair ∈ r := by
  induction r with
  | nil => cases mem
  | cons head rest ih =>
    obtain ⟨key, old⟩ := head
    unfold replace at mem
    split at mem
    · rename_i same
      rcases List.mem_cons.mp mem with here | later
      · exact .inl (same ▸ here)
      · exact .inr (List.mem_cons_of_mem _ later)
    · rcases List.mem_cons.mp mem with here | later
      · exact .inr (here ▸ List.mem_cons_self)
      · exact (ih later).imp_right (List.mem_cons_of_mem _)

theorem putInside {pair : String × α} (mem : pair ∈ r.put name v) : pair = (name, v) ∨ pair ∈ r := by
  cases there : r.get? name with
  | none => exact (memPut pair there).mp mem
  | some old =>
    unfold put has at mem
    rw [there] at mem
    exact replaceInside mem

/-- What has been put into a record was in it or is among what was put, and everything that was put has its name there. -/
theorem foldPut (pairs : List (String × α)) (r : Record α) :
    (∀ pair ∈ pairs.foldl (fun r pair => r.put pair.1 pair.2) r, pair ∈ r ∨ pair ∈ pairs) ∧
      ∀ name, (∃ v, r.get? name = some v) ∨ name ∈ pairs.map (·.1) →
        ∃ v, (pairs.foldl (fun r pair => r.put pair.1 pair.2) r).get? name = some v := by
  induction pairs generalizing r with
  | nil => exact ⟨fun pair mem => .inl mem, fun name either => either.elim id fun none => by cases none⟩
  | cons first rest ih =>
    obtain ⟨inside, gives⟩ := ih (r.put first.1 first.2)
    refine ⟨fun pair mem => ?_, fun name either => gives name ?_⟩
    · rcases inside pair mem with old | later
      · rcases putInside old with rfl | old
        · exact .inr List.mem_cons_self
        · exact .inl old
      · exact .inr (List.mem_cons_of_mem _ later)
    · obtain ⟨own, others⟩ := getPut r first.1 first.2
      by_cases same : name = first.1
      · rw [same]
        exact .inl ⟨_, own⟩
      · rcases either with old | listed
        · exact .inl (others name same ▸ old)
        · exact .inr ((List.mem_cons.mp listed).resolve_left same)

end Record

namespace Include

/-- The text that a value is grouped by. -/
def textOf (v : Value) : String := Results.valueOr "" v.groupText

theorem textOfOk {v : Value} {t : String} (h : v.groupText = .ok t) : textOf v = t := by
  unfold textOf
  rw [h]
  rfl

/-- The keys of values: of those with one text one, and nothing else. -/
theorem distinctKnown {values : List Value} (texts : ∀ v ∈ values, v.isNothing = false → ∃ t, v.groupText = .ok t) :
    ∃ keys, distinctKeys values = .ok keys ∧ (∀ k ∈ keys, k ∈ values ∧ k.isNothing = false) ∧
      ∀ v ∈ values, v.isNothing = false → ∃ k ∈ keys, textOf k = textOf v := by
  have there : ∀ v ∈ values.filter fun v => !v.isNothing, v ∈ values ∧ v.isNothing = false := by
    intro v mem
    obtain ⟨inside, present⟩ := List.mem_filter.mp mem
    exact ⟨inside, by simpa using present⟩
  have keyed : ((values.filter fun v => !v.isNothing).mapM fun v => do return (← v.groupText, v)) =
      Except.ok (ε := Failure) ((values.filter fun v => !v.isNothing).map fun v => (textOf v, v)) := by
    refine Results.mapAllOk fun v mem => ?_
    obtain ⟨inside, present⟩ := there v mem
    obtain ⟨t, text⟩ := texts v inside present
    rw [textOfOk text, text]
    rfl
  have folded := Record.foldPut ((values.filter fun v => !v.isNothing).map fun v => (textOf v, v)) []
  refine ⟨_, by unfold distinctKeys; rw [keyed]; rfl, fun k mem => ?_, fun v mem present => ?_⟩
  · obtain ⟨pair, listed, rfl⟩ := List.mem_map.mp mem
    obtain ⟨v, kept, rfl⟩ := List.mem_map.mp ((folded.1 pair listed).resolve_left List.not_mem_nil)
    exact there v kept
  · have kept : v ∈ values.filter fun v => !v.isNothing := List.mem_filter.mpr ⟨mem, by simp [present]⟩
    obtain ⟨k, found⟩ := folded.2 (textOf v)
      (.inr (List.mem_map.mpr ⟨_, List.mem_map_of_mem (f := fun v => (textOf v, v)) kept, rfl⟩))
    have listed := Record.memOfGet? found
    refine ⟨k, List.mem_map.mpr ⟨_, listed, rfl⟩, ?_⟩
    obtain ⟨u, -, same⟩ := List.mem_map.mp ((folded.1 _ listed).resolve_left List.not_mem_nil)
    obtain ⟨text, rfl⟩ := Prod.mk.inj same
    exact text

end Include

theorem Value.orNullThere {v : Value} (there : v.isNothing = false) : v.orNull = v := by
  cases v <;> first | rfl | cases there

theorem Value.orNullMissing {v : Value} (missing : v.isNothing) : v.orNull = .null := by
  cases v <;> first | rfl | cases missing

namespace Field

variable {g : Field} {v x : Value} {values keys : List Value}

theorem HoldsKey.form (keyed : g.type.isKeyType) (plain : g.type ≠ .json) (holds : g.HoldsKey v) (there : v.isNothing = false) :
    g.type.isKeyForm v ∧ g.encode v = .ok v ∧ g.decode v = .ok v := by
  rcases holds with nothing | ⟨written, joined⟩
  · rw [there] at nothing
    cases nothing
  · obtain ⟨form, read⟩ := keyRead keyed plain there written joined
    exact ⟨form, written, read⟩

theorem HoldsKey.text (keyed : g.type.isKeyType) (plain : g.type ≠ .json) (holds : g.HoldsKey v) : ∃ t, v.orNull.groupText = .ok t := by
  cases there : v.isNothing with
  | true =>
    rw [Value.orNullMissing there]
    exact ⟨_, rfl⟩
  | false =>
    obtain ⟨form, -, -⟩ := holds.form keyed plain there
    obtain ⟨t, -, text, -, -⟩ := ScalarType.groupedSame form form
    rw [Value.orNullThere there]
    exact ⟨t, text⟩

/-- Keys are equal exactly if both are there and have one text. -/
theorem keysMeet (keyed : g.type.isKeyType) (plain : g.type ≠ .json) (hx : g.HoldsKey x) (hv : g.HoldsKey v) :
    Store.equals x v = .ok (Store.meets x v) ∧
      Store.meets x v = (!x.isNothing && !v.isNothing && (Include.textOf x == Include.textOf v)) := by
  have met : ∀ b, Store.equals x v = .ok b → Store.meets x v = b := by
    intro b equal
    unfold Store.meets
    rw [equal]
    rfl
  cases missing : x.isNothing || v.isNothing with
  | true =>
    have equal : Store.equals x v = .ok false := if_pos missing
    rw [met false equal]
    refine ⟨equal, ?_⟩
    rw [← Bool.not_or, missing]
    rfl
  | false =>
    have equal : Store.equals x v = Store.same x v := if_neg (by rw [missing]; exact Bool.false_ne_true)
    obtain ⟨hereX, hereV⟩ := Bool.or_eq_false_iff.mp missing
    obtain ⟨s, t, xText, vText, same⟩ := ScalarType.groupedSame (hx.form keyed plain hereX).1 (hv.form keyed plain hereV).1
    rw [equal, met _ (equal.trans same), hereX, hereV, Include.textOfOk xText, Include.textOfOk vText]
    exact ⟨same, rfl⟩

/-- A value meets one of the keys of some values exactly if it meets one of the values. -/
theorem meetsKeys (keyed : g.type.isKeyType) (plain : g.type ≠ .json) (hx : g.HoldsKey x) (holds : ∀ v ∈ values, g.HoldsKey v)
    (inside : ∀ k ∈ keys, k ∈ values ∧ k.isNothing = false)
    (each : ∀ v ∈ values, v.isNothing = false → ∃ k ∈ keys, Include.textOf k = Include.textOf v) :
    keys.any (Store.meets x) = values.any (Store.meets x) := by
  rw [Bool.eq_iff_iff, List.any_eq_true, List.any_eq_true]
  constructor
  · rintro ⟨k, mem, met⟩
    exact ⟨k, (inside k mem).1, met⟩
  · rintro ⟨v, mem, met⟩
    rw [(keysMeet keyed plain hx (holds v mem)).2] at met
    obtain ⟨there, same⟩ := Bool.and_eq_true_iff.mp met
    obtain ⟨here, present⟩ := Bool.and_eq_true_iff.mp there
    obtain ⟨k, listed, text⟩ := each v mem (by simpa using present)
    refine ⟨k, listed, ?_⟩
    obtain ⟨within, given⟩ := inside k listed
    rw [(keysMeet keyed plain hx (holds k within)).2, here, given, text, same]
    rfl

end Field

namespace Store

variable {tables : Tables} {e : Entity} {g : Field} {v : Value} {keys : List Value} {rows : List Row}

theorem missingPicks {column : String} (missing : v.isNothing) : (rows.filter fun row => meets (Row.value row column) v) = [] := by
  refine List.filter_eq_nil_iff.mpr fun row mem => ?_
  unfold meets equals
  rw [missing, Bool.or_true]
  exact Bool.false_ne_true

/-- Equality with an operand picks the rows that meet it. -/
theorem picksCompare {column : String} (each : ∀ row ∈ rows, ∃ b, equals (Row.value row column) v = .ok b) :
    Picks tables e.table rows (.compare (e.ref column) (.of .eq) v) fun row => meets (Row.value row column) v := by
  refine ⟨rfl, fun row mem => ?_⟩
  obtain ⟨b, equal⟩ := each row mem
  have met : meets (Row.value row column) v = b := by
    unfold meets
    rw [equal]
    rfl
  have evaluated : evaluate tables [(e.table, row)] (.compare (e.ref column) (.of .eq) v) =
      compareTruth (.of .eq) (Row.value row column) v := by
    unfold Entity.ref
    rw [evaluate, readColumn]
    rfl
  rw [evaluated, met]
  unfold compareTruth
  unfold equals at equal
  split at equal
  · rename_i missing
    rw [if_pos missing]
    exact ⟨.unknown, rfl, rfl, Except.ok.inj equal⟩
  · rename_i there
    rw [if_neg there]
    obtain ⟨o, ordered, met⟩ := Results.bindOk equal
    rw [ordered]
    rw [← Except.ok.inj met]
    exact ⟨.known (holds .eq o), rfl, rfl, by cases o <;> rfl⟩

theorem picksNull (column : String) :
    Picks tables e.table rows (.null (e.ref column) false) fun row => (Row.value row column).isNothing := by
  refine ⟨rfl, fun row _ => ⟨.known (Row.value row column).isNothing, ?_, rfl, ?_⟩⟩
  · unfold Entity.ref
    rw [evaluate, readColumn]
    change Except.ok (Truth.known ((Row.value row column).isNothing != false)) = _
    rw [Bool.bne_false]
  · cases (Row.value row column).isNothing <;> rfl

/-- Equality with a key picks the rows whose key it is. -/
theorem picksEqual (keyed : g.type.isKeyType) (plain : g.type ≠ .json) (stored : ∀ row ∈ rows, g.HoldsKey (Row.value row g.column))
    (hv : g.HoldsKey v) :
    Picks tables e.table rows (.compare (e.ref g.column) (.of .eq) v) fun row => meets (Row.value row g.column) v :=
  picksCompare fun row mem => ⟨_, (Field.keysMeet keyed plain (stored row mem) hv).1⟩

/-- Membership among keys picks the rows whose key is one of them. -/
theorem picksMember (keyed : g.type.isKeyType) (plain : g.type ≠ .json) (stored : ∀ row ∈ rows, g.HoldsKey (Row.value row g.column))
    (asked : keys ≠ []) (given : ∀ k ∈ keys, g.HoldsKey k ∧ k.isNothing = false) :
    Picks tables e.table rows (.inList (e.ref g.column) keys false) fun row => keys.any (meets (Row.value row g.column)) := by
  have listed : Condition.inList (e.ref g.column) keys false = .member (e.ref g.column) keys false := by
    unfold Condition.inList
    rw [if_neg (by simpa using asked)]
  rw [listed]
  refine ⟨rfl, fun row mem => ?_⟩
  have evaluated : evaluate tables [(e.table, row)] (.member (e.ref g.column) keys false) =
      memberTruth (Row.value row g.column) keys false := by
    unfold Entity.ref
    rw [evaluate, readColumn]
    rfl
  rw [evaluated]
  cases there : (Row.value row g.column).isNothing with
  | true =>
    have none : keys.any (meets (Row.value row g.column)) = false := by
      refine List.any_eq_false.mpr fun k listed => ?_
      rw [(Field.keysMeet keyed plain (stored row mem) (given k listed).1).2, there]
      exact Bool.false_ne_true
    unfold memberTruth
    rw [there, none]
    exact ⟨.unknown, rfl, rfl, rfl⟩
  | false =>
    have among : isAmong (Row.value row g.column) keys = .ok (keys.any (meets (Row.value row g.column))) := by
      refine Results.anyOk fun k listed => ?_
      obtain ⟨holds, present⟩ := given k listed
      obtain ⟨equal, -⟩ := Field.keysMeet keyed plain (stored row mem) holds
      unfold equals at equal
      rw [there, present] at equal
      rw [present]
      exact equal
    rw [memberKnown there, among]
    exact ⟨_, rfl, rfl, by cases keys.any (meets (Row.value row g.column)) <;> rfl⟩

end Store

namespace Field

variable {f g : Field} {v w : Value}

theorem encodeSame (same : f.type = g.type) (keyed : g.type.isKeyType) (written : f.encode v = .ok w) (there : v.isNothing = false) :
    g.encode v = .ok w := by
  unfold encode at written ⊢
  rw [there, if_neg Bool.false_ne_true] at written ⊢
  unfold encodePresent at written ⊢
  rw [same] at written
  cases type : g.type with
  | float _ | opaqueType =>
    rw [type] at keyed
    cases keyed
  | date | time | json =>
    rw [type] at written
    exact written
  | integer width =>
    rw [type] at written
    dsimp only at written ⊢
    unfold encodeInteger at written ⊢
    split at written
    · cases written
    · split at written
      · rename_i holds
        rw [if_pos holds]
        exact written
      · cases written
  | datetime =>
    rw [type] at written
    dsimp only at written ⊢
    unfold toDate at written ⊢
    split at written
    · exact written
    · cases written
  | text | bool =>
    rw [type] at written
    dsimp only at written ⊢
    split at written
    · exact written
    · cases written
  | uuid =>
    rw [type] at written
    dsimp only at written ⊢
    split at written
    · split at written
      · rename_i isUuid
        rw [if_pos isUuid]
        exact written
      · cases written
    · cases written

theorem HoldsKey.transfer (same : f.type = g.type) (keyed : g.type.isKeyType) (holds : f.HoldsKey v) : g.HoldsKey v := by
  cases there : v.isNothing with
  | true => exact .inl there
  | false =>
    rcases holds with nothing | ⟨written, joined⟩
    · exact .inl nothing
    · exact .inr ⟨encodeSame same keyed written there, joined⟩

end Field

/-- A key is read as it is stored. -/
theorem Entity.readKey {e : Entity} {f : Field} {stored decoded : Row} (names : (e.fields.map (·.name)).Nodup)
    (columns : (e.fields.map (·.column)).Nodup) (mem : f ∈ e.fields) (keyed : f.type.isKeyType) (plain : f.type ≠ .json)
    (holds : f.HoldsKey (Row.value stored f.column)) (read : e.read stored = .ok decoded) :
    Row.value decoded f.name = (Row.value stored f.column).orNull := by
  obtain ⟨raw, returned, decodes⟩ := readsValue names (readReads read) mem
  generalize Row.value stored f.column = w at holds returned ⊢
  have given : Store.returned e.fields f.column w = .ok w.orNull := by
    cases w with
    | text s => exact Store.returnedText columns mem plain s
    | _ => rfl
  obtain rfl := Except.ok.inj (given.symm.trans returned)
  cases there : w.isNothing with
  | true =>
    rw [Value.orNullMissing there] at decodes ⊢
    exact (Except.ok.inj decodes).symm
  | false =>
    rw [Value.orNullThere there] at decodes ⊢
    rw [(holds.form keyed plain there).2.2] at decodes
    exact (Except.ok.inj decodes).symm

/-- What is asked of a relation and of the stored rows of its target: its fields are keys of one type, the rows hold such
keys as they are written, and all of them can be read and have a place in the order. -/
structure Relation.Joins (r : Relation) (e target : Entity) (f g : Field) (w : Window) (b : Store) (found : List Row) : Prop where
  own : e.field? r.own.field = some f
  remote : target.field? r.remote.field = some g
  same : f.type = g.type
  keyed : g.type.isKeyType
  plain : g.type ≠ .json
  names : (target.fields.map (·.name)).Nodup
  columns : (target.fields.map (·.column)).Nodup
  readable : target.Readable b found
  keys : ∀ row ∈ found, g.HoldsKey (Row.value row g.column)
  orders : Context.Orders target w found

namespace Context

variable {c : Context} {r : Relation} {e target : Entity} {f g : Field} {w : Window} {s : Session Store} {found : List Row}
  {filter : List Predicate} {values : List Value} {v : Value}

/-- The rows that are related to one value, read for it alone: by one more condition, that their key is the value. -/
def relatedAlone {σ : Type} [Backend σ] (c : Context) (r : Relation) (target : Entity) (filter : List Predicate) (w : Window)
    (v : Value) : Action σ (List Row) := do
  if v.isNothing then return []
  let remote ← target.field r.remote.field
  let key ← remote.encode v
  let condition ← c.condition target filter
  c.readRows target (.conjunction [.compare (target.ref remote.column) (.of .eq) key, condition]) w

/-- The stored rows that a fetch reaches before it asks for keys, none if it fails. -/
def reachable (c : Context) (target : Entity) (filter : List Predicate) (w : Window) (s : Session Store) (found : List Row) :
    Option (List Row) := do
  let filtered ← (c.condition target filter).toOption
  c.reached target filtered w s found

theorem fetchKeyed (joins : r.Joins e target f g w s.backend found) (holds : ∀ v ∈ values, g.HoldsKey v) :
    (c.fetchTable r target values filter w : Action Store (List Row)).answer s =
      if values.all Value.isNothing then some []
      else (c.reachable target filter w s found).map fun kept =>
        (kept.filter fun row => values.any (Store.meets (Row.value row g.column))).map target.view := by
  have texts : ∀ v ∈ values, v.isNothing = false → ∃ t, v.groupText = .ok t := by
    intro v mem there
    have text := (holds v mem).text joins.keyed joins.plain
    rwa [Value.orNullThere there] at text
  obtain ⟨keys, distinct, inside, each⟩ := Include.distinctKnown texts
  split
  · rename_i missing
    have none : keys = [] := by
      refine List.eq_nil_iff_forall_not_mem.mpr fun k mem => ?_
      obtain ⟨listed, there⟩ := inside k mem
      rw [List.all_eq_true.mp missing k listed] at there
      cases there
    unfold fetchTable
    rw [distinct, none]
    rfl
  · rename_i present
    have asked : keys ≠ [] := by
      rintro rfl
      refine present (List.all_eq_true.mpr fun v mem => ?_)
      cases there : v.isNothing with
      | true => rfl
      | false =>
        obtain ⟨k, mem, -⟩ := each v mem there
        cases mem
    have given : ∀ k ∈ keys, g.HoldsKey k ∧ k.isNothing = false := fun k mem => ⟨holds k (inside k mem).1, (inside k mem).2⟩
    have encoded : keys.mapM g.encode = .ok keys := by
      have each := Results.mapAllOk (l := keys) (f := g.encode) (g := id) fun k mem =>
        ((given k mem).1.form joins.keyed joins.plain (given k mem).2).2.1
      rwa [List.map_id] at each
    have remote : target.field r.remote.field = .ok g := by
      unfold Entity.field
      rw [joins.remote]
    have member : Store.Picks s.backend.tables target.table found (.inList (target.ref g.column) keys false) fun row =>
        keys.any (Store.meets (Row.value row g.column)) :=
      Store.picksMember joins.keyed joins.plain joins.keys asked given
    obtain ⟨plain, truths⟩ := member
    have picks : Store.Picks s.backend.tables target.table found (.inList (target.ref g.column) keys false) fun row =>
        values.any (Store.meets (Row.value row g.column)) := by
      refine ⟨plain, fun row mem => ?_⟩
      rw [← Field.meetsKeys joins.keyed joins.plain (joins.keys row mem) holds inside each]
      exact truths row mem
    rw [fetchReached joins.readable joins.orders distinct asked remote encoded picks]
    unfold reachable
    cases (c.condition target filter).toOption with
    | none => rfl
    | some filtered =>
      change Option.bind (c.reached target filtered w s found) _ = Option.map _ (c.reached target filtered w s found)
      cases c.reached target filtered w s found <;> rfl

/-- What is left of a fetch for one value: what it reaches whose key is the value. -/
theorem fetchOne (joins : r.Joins e target f g w s.backend found) (holds : g.HoldsKey v) :
    (c.fetchTable r target [v] filter w : Action Store (List Row)).answer s =
      if v.isNothing then some []
      else (c.reachable target filter w s found).map fun kept =>
        (kept.filter fun row => Store.meets (Row.value row g.column) v).map target.view := by
  rw [fetchKeyed joins fun u mem => List.mem_singleton.mp mem ▸ holds]
  simp only [List.all_cons, List.all_nil, Bool.and_true, List.any_cons, List.any_nil, Bool.or_false]

/-- The window of a value keeps, of what a fetch for it brings, what a read for it alone answers. -/
theorem windowedAlone (joins : r.Joins e target f g w s.backend found) (holds : g.HoldsKey v) (counts : w.Counts) :
    (c.relatedAlone r target filter w v : Action Store (List Row)).answer s = (do
      let rows ← (c.fetchTable r target [v] filter w : Action Store (List Row)).answer s
      (w.apply rows).toOption) := by
  rw [fetchOne joins holds]
  unfold relatedAlone
  cases there : v.isNothing with
  | true =>
    change some [] = (w.apply []).toOption
    rw [Window.applyNil counts]
    rfl
  | false =>
    have remote : target.field r.remote.field = .ok g := by
      unfold Entity.field
      rw [joins.remote]
    obtain ⟨-, written, -⟩ := holds.form joins.keyed joins.plain there
    rw [remote]
    change Action.answer (liftM (g.encode v) >>= _) s = _
    rw [written]
    change Action.answer (liftM (c.condition target filter) >>= _) s = _
    rw [liftAnswered]
    change _ = Option.bind (Option.map _ (Option.bind (c.condition target filter).toOption fun filtered =>
      c.reached target filtered w s found)) _
    cases (c.condition target filter).toOption with
    | none => rfl
    | some filtered =>
      change (c.readRows target _ w).answer s = _
      rw [readReached joins.readable joins.orders (Store.picksEqual joins.keyed joins.plain joins.keys holds)]
      change _ = Option.bind (Option.map _ (c.reached target filtered w s found)) _
      cases c.reached target filtered w s found <;> rfl

theorem reachableInside {kept : List Row} (reached : c.reachable target filter w s found = some kept) : ∀ row ∈ kept, row ∈ found := by
  unfold reachable Context.reached at reached
  obtain ⟨filtered, -, reached⟩ := Option.bind_eq_some_iff.mp reached
  obtain ⟨_, -, reached⟩ := Option.bind_eq_some_iff.mp reached
  obtain ⟨order, -, reached⟩ := Option.bind_eq_some_iff.mp reached
  obtain ⟨after, -, reached⟩ := Option.bind_eq_some_iff.mp reached
  cases after with
  | none =>
    cases reached
    exact fun row mem => absurd mem List.not_mem_nil
  | some after =>
    obtain ⟨terms, -, reached⟩ := Option.bind_eq_some_iff.mp reached
    obtain ⟨passed, filtering, ranked⟩ := Option.bind_eq_some_iff.mp reached
    cases ranked
    cases filters : found.filterM (Store.passing s.backend.tables target.table (filtered :: after)) with
    | error e =>
      rw [filters] at filtering
      cases filtering
    | ok rows =>
      rw [filters] at filtering
      cases filtering
      exact fun row mem => (Results.filterSublist filters).subset ((List.mergeSort_perm passed _).mem_iff.mp mem)

/-- Rows whose key is one of some values, shared out by key: each value gets those whose key it is. -/
theorem rowsShared (joins : r.Joins e target f g w s.backend found) (holds : ∀ v ∈ values, g.HoldsKey v) {kept : List Row}
    (inside : ∀ row ∈ kept, row ∈ found) :
    (do
      let keyed ← Include.keyedRows r.remote.field
        ((kept.filter fun row => values.any (Store.meets (Row.value row g.column))).map target.view)
      values.mapM (Include.rowsFor keyed)) =
        .ok (values.map fun v => (kept.filter fun row => Store.meets (Row.value row g.column) v).map target.view) := by
  obtain ⟨mem, named⟩ := Entity.fieldFound joins.remote
  have shown : ∀ row ∈ kept, Row.value (target.view row) r.remote.field = (Row.value row g.column).orNull := by
    intro row listed
    obtain ⟨decoded, read⟩ := joins.readable.reads row (inside row listed)
    have seen : target.view row = decoded := by
      unfold Entity.view
      rw [read]
      rfl
    rw [seen, ← named]
    exact Entity.readKey joins.names joins.columns mem joins.keyed joins.plain (joins.keys row (inside row listed)) read
  have keyed : Include.keyedRows r.remote.field
      ((kept.filter fun row => values.any (Store.meets (Row.value row g.column))).map target.view) =
        .ok (((kept.filter fun row => values.any (Store.meets (Row.value row g.column))).map target.view).map fun row =>
          (Include.textOf (Row.value row r.remote.field), row)) := by
    refine Results.mapAllOk fun row listed => ?_
    obtain ⟨stored, kept, rfl⟩ := List.mem_map.mp listed
    have within := (List.mem_filter.mp kept).1
    obtain ⟨t, text⟩ := (joins.keys stored (inside stored within)).text joins.keyed joins.plain
    rw [shown stored within, text, Include.textOfOk text]
    rfl
  rw [keyed]
  refine Results.mapAllOk fun v listed => ?_
  unfold Include.rowsFor
  split
  · rename_i missing
    rw [Store.missingPicks missing]
    rfl
  · rename_i present
    have there : v.isNothing = false := by simpa using present
    obtain ⟨t, text⟩ := (holds v listed).text joins.keyed joins.plain
    rw [Value.orNullThere there] at text
    rw [text, ← Include.textOfOk text]
    change Except.ok _ = _
    rw [List.filter_map, List.map_map, List.filter_map, List.filter_filter]
    refine congrArg Except.ok ?_
    rw [List.map_map]
    have agree : ∀ row ∈ kept, (Include.textOf (Row.value (target.view row) r.remote.field) == Include.textOf v &&
        values.any (Store.meets (Row.value row g.column))) = Store.meets (Row.value row g.column) v := by
      intro row within
      have met := (Field.keysMeet joins.keyed joins.plain (joins.keys row (inside row within)) (holds v listed)).2
      rw [shown row within, Bool.eq_iff_iff, Bool.and_eq_true]
      constructor
      · rintro ⟨text, some⟩
        obtain ⟨u, among, other⟩ := List.any_eq_true.mp some
        obtain ⟨here, -, -⟩ := Store.meetsOk other
        rw [Value.orNullThere here] at text
        rw [met, here, there, text]
        rfl
      · intro meets
        obtain ⟨here, -, -⟩ := Store.meetsOk meets
        refine ⟨?_, List.any_eq_true.mpr ⟨v, listed, meets⟩⟩
        rw [met] at meets
        rw [Value.orNullThere here]
        exact (Bool.and_eq_true_iff.mp meets).2
    exact congrArg (List.map target.view) (List.filter_congr agree)

/-- A fetch for many values, shared out by key, brings each of them what a fetch for it alone brings. -/
theorem sharedAlone (joins : r.Joins e target f g w s.backend found) (holds : ∀ v ∈ values, g.HoldsKey v) :
    (do
      let related ← c.fetchTable r target values filter w
      let keyed ← Include.keyedRows r.remote.field related
      values.mapM fun v => (Include.rowsFor keyed v : Except Failure (List Row)) : Action Store (List (List Row))).answer s =
        values.mapM fun v => (c.fetchTable r target [v] filter w : Action Store (List Row)).answer s := by
  simp only [Step.mapLift]
  rw [(c.fetchTableWrites r target values filter w).answerBind fun rows => .liftBind fun keyed _ => .lift _, fetchKeyed joins holds]
  have sharing : ∀ rows, (do
      let keyed ← Include.keyedRows r.remote.field rows
      liftM (values.mapM (Include.rowsFor keyed)) : Action Store (List (List Row))).answer s =
        (do
          let keyed ← Include.keyedRows r.remote.field rows
          values.mapM (Include.rowsFor keyed)).toOption := by
    intro rows
    rw [liftAnswered, Results.toOptionBind]
    exact congrArg _ (funext fun keyed => liftAnswer _ s)
  split
  · rename_i missing
    refine (sharing []).trans ?_
    have none : ∀ row ∈ ([] : List Row), row ∈ found := fun row mem => absurd mem List.not_mem_nil
    refine (congrArg Except.toOption (rowsShared joins holds none)).trans ?_
    refine (Options.mapSome fun v mem => ?_).symm
    rw [fetchOne joins (holds v mem), if_pos (List.all_eq_true.mp missing v mem)]
    rfl
  · rename_i present
    have some : ∃ v ∈ values, v.isNothing = false := by simpa using present
    obtain ⟨v, mem, there⟩ := some
    cases reached : c.reachable target filter w s found with
    | none =>
      refine (Options.mapNone mem ?_).symm
      rw [fetchOne joins (holds v mem), there, reached]
      rfl
    | some kept =>
      refine (sharing _).trans ?_
      have inside := reachableInside reached
      rw [rowsShared joins holds inside]
      refine (Options.mapSome fun u listed => ?_).symm
      rw [fetchOne joins (holds u listed), reached]
      split
      · rename_i missing
        rw [Store.missingPicks missing]
        rfl
      · rfl

end Context

end EntityQuery
