import EntityQuery.Proofs.OwnedRelations
import Mathlib.Data.List.Forall2
/-! Setting the related rows of a parent: the rows that selectors find come to refer to it, and the others that
did are detached or deleted. -/

namespace EntityQuery

/-- A has-many relation with the entities of both sides, the field that is referred to, and the foreign key. -/
structure ManyRelation (registry : Registry Fetcher) where
  owner : Entity
  relation : Relation
  target : Entity
  own : Field
  foreign : Field
  ownerNamed : registry.get? owner.name = some owner
  targetNamed : registry.get? target.name = some target
  found : owner.relation? relation.name = some relation
  many : relation.kind = .hasMany
  targeted : registry.get? relation.target = some target
  ownFound : owner.field? relation.own.field = some own
  foreignFound : target.field? relation.remote.field = some foreign
  primaryHeld : target.primaryKey ∈ target.fields
  primary : target.primaryKey.primaryKey
  apart : target.primaryKey.column ≠ foreign.column
  keyed : foreign.type.isKeyType ∧ target.primaryKey.type.isKeyType
  ownerNames : (owner.fields.map (·.name)).Nodup
  targetNames : (target.fields.map (·.name)).Nodup
  targetColumns : (target.fields.map (·.column)).Nodup
  tables : owner.table = target.table → owner = target

theorem Selector.picksOne {e : Entity} (x : Selector e) {rows : List Row} {a b : Row}
    (distinct : Store.Distinct e.fields rows) (ha : a ∈ rows) (hb : b ∈ rows) (pa : x.picks a) (pb : x.picks b) :
    a = b := by
  have mem : x.field ∈ e.fields := List.mem_of_find?_eq_some x.found
  have unique : (x.field.primaryKey || x.field.unique) = true := by rw [x.unique, Bool.or_true]
  exact Store.distinctSame distinct ha hb mem unique (Store.meetsOk pa).1 (x.picksSame pa pb) (Store.meetsOk pb).1

namespace ManyRelation

variable {registry : Registry Fetcher} (m : ManyRelation registry)

def refers (key : Value) (row : Row) : Bool := Store.meets (Row.value row m.foreign.column) key

def selects (selectors : List (Selector m.target)) (row : Row) : Bool := selectors.any fun x => x.picks row

/-- What becomes of a row of the target when the related rows of a parent are set; none if it goes. -/
def placed (key : Value) (selectors : List (Selector m.target)) (row : Row) : Option Row :=
  if m.selects selectors row then some (Record.put row m.foreign.column key)
  else if m.refers key row then
    if m.relation.foreignKeyNullable then some (Record.put row m.foreign.column .null) else none
  else some row

/-- The request that sets the related rows of the parent that a selector finds. -/
def setting (selector : Selector m.owner) (selectors : List (Selector m.target)) : Request :=
  .update selector.predicate
    [.relation m.owner.name m.relation.name (.set (selectors.map Selector.predicate))]

/-- What is asked of a store: the columns of both tables are those of the entities, primary keys of the target are
there and equal to what is written for them, and its unique columns hold distinct values. -/
structure Stored (b : Store) (rows : List Row) : Prop where
  ownerColumns : Record.get? b.fields m.owner.table = some m.owner.fields
  targetColumns : Record.get? b.fields m.target.table = some m.target.fields
  stored : Record.get? b.tables m.target.table = some rows
  present : ∀ row ∈ rows, (Row.value row m.target.primaryKey.column).isNothing = false
  distinct : Store.Distinct m.target.fields rows
  primaries : ∀ row ∈ rows, m.target.primaryKey.Carries m.target.fields (Row.value row m.target.primaryKey.column)

def owned : OwnedRelation := ⟨m.relation, m.target⟩

/-- The fields that both sides of the relation rest on. -/
def keys : m.owned.Keys where
  foreign := m.foreign
  foreignFound := m.foreignFound
  primaryHeld := m.primaryHeld
  primary := m.primary
  keyed := m.keyed
  names := m.targetNames
  columns := m.targetColumns

section Placed

variable {m} {key : Value} {selectors : List (Selector m.target)} {row next : Row} {rows : List Row}

theorem placedCases (placing : m.placed key selectors row = some next) :
    (m.selects selectors row ∧ next = Record.put row m.foreign.column key) ∨
      (m.selects selectors row = false ∧ next = Record.put row m.foreign.column .null) ∨
      (m.selects selectors row = false ∧ m.refers key row = false ∧ next = row) := by
  unfold placed at placing
  split at placing
  · rename_i selected
    cases placing
    exact .inl ⟨selected, rfl⟩
  · rename_i unselected
    rw [Bool.not_eq_true] at unselected
    split at placing
    · split at placing
      · cases placing
        exact .inr (.inl ⟨unselected, rfl⟩)
      · cases placing
    · rename_i unrelated
      cases placing
      exact .inr (.inr ⟨unselected, Bool.eq_false_iff.mpr unrelated, rfl⟩)

/-- The rows that refer to the parent afterwards are the selected ones. -/
theorem placedRefers (places : Store.Places key) (placing : m.placed key selectors row = some next) :
    m.refers key next = m.selects selectors row := by
  rcases placedCases placing with ⟨selected, rfl⟩ | ⟨unselected, rfl⟩ | ⟨unselected, unrelated, rfl⟩
  · rw [selected]
    exact m.keys.refersPut places row
  · rw [unselected]
    exact m.keys.refersNull key row
  · rw [unselected, unrelated]

theorem placedOther {column : String} (apart : column ≠ m.foreign.column)
    (placing : m.placed key selectors row = some next) : Row.value next column = Row.value row column := by
  rcases placedCases placing with ⟨-, rfl⟩ | ⟨-, rfl⟩ | ⟨-, -, rfl⟩
  · exact Row.valuePutOther row key apart
  · exact Row.valuePutOther row .null apart
  · rfl

theorem placedSelected (selected : m.selects selectors row) :
    m.placed key selectors row = some (Record.put row m.foreign.column key) := by
  rw [placed, if_pos selected]

theorem placedFilter (places : Store.Places key) (rows : List Row) :
    (rows.filterMap (m.placed key selectors)).filter (m.refers key) =
      (rows.filter (m.selects selectors)).map fun row => Record.put row m.foreign.column key := by
  induction rows with
  | nil => rfl
  | cons row rest ih =>
    cases placing : m.placed key selectors row with
    | none =>
      have unselected : m.selects selectors row = false := by
        by_contra selected
        rw [placedSelected (by simpa using selected)] at placing
        cases placing
      rw [List.filterMap_cons_none placing, List.filter_cons_of_neg (by simp [unselected]), ih]
    | some next =>
      have refers := placedRefers places placing
      rw [List.filterMap_cons_some placing]
      cases selected : m.selects selectors row with
      | true =>
        rw [placedSelected selected] at placing
        cases placing
        rw [List.filter_cons_of_pos (refers.trans selected), List.filter_cons_of_pos selected, List.map_cons, ih]
      | false =>
        rw [List.filter_cons_of_neg (by simp [refers, selected]), List.filter_cons_of_neg (by simp [selected]), ih]

end Placed

variable (h : Handle)

def parent (row : Row) : Parent := ⟨m.owner, row⟩

theorem ownedOk (row : Row) : (m.parent row).owned registry m.relation.name none = .ok m.owned := by
  refine Parent.ownedNamed m.found m.targeted ?_
  unfold Relation.ownsKey Relation.keyOwner
  rw [m.many]
  rfl

theorem setSteps (row : Row) (ps : List Predicate) :
    (Context.mk registry h).setRelated (m.parent row) m.relation.name (.ok ps) = (do
      let found ← (Context.mk registry h).requireAll (m.parent row) m.owned ps
      let key ← (m.parent row).key m.relation
      let related ← m.owned.related (m.parent row)
      let among ← m.owned.among found
      let leaving := if found.isEmpty then related else .conjunction [related, among.negation]
      (Context.mk registry h).releaseRelated (m.parent row) m.owned leaving
      (Context.mk registry h).attachRelated m.owned found among key : Action Store Unit) :=
  Context.setSteps (m.ownedOk row) m.many ps

variable {m h} {s t : Session Store} {rows : List Row}

theorem requireAllOk {p : Parent} {o : OwnedRelation} {selectors : List (Selector m.target)} {found : List Row}
    (columns : Record.get? s.backend.fields m.target.table = some m.target.fields)
    (stored : Record.get? s.backend.tables m.target.table = some rows)
    (ran : ((Context.mk registry h).requireAll p o (selectors.map Selector.predicate)).runOn s = (.ok found, t)) :
    List.Forall₂ (fun x decoded => ∃ row, rows.find? (Selector.picks x) = some row ∧ m.target.Reads row decoded)
      selectors found := by
  refine (List.forall₂_map_left_iff.mp (Context.requireAllOk ran)).imp fun x decoded ⟨_, u, v, same, one⟩ => ?_
  obtain ⟨sameColumns, sameTables⟩ := Prod.mk.inj same
  obtain ⟨others, there, first⟩ := Context.lookupOk x m.targetNamed (sameColumns ▸ columns) (Context.requireRelatedOk one)
  obtain rfl : others = rows := Option.some.inj (there.symm.trans (sameTables ▸ stored))
  cases picked : others.find? x.picks with
  | none =>
    rw [picked] at first
    cases first
  | some row =>
    rw [picked] at first
    obtain ⟨read, same, reads⟩ := first
    obtain rfl := Option.some.inj same
    exact ⟨row, rfl, reads⟩

section Conditions

variable (m)

def primaryOf (row : Row) : Value := Row.value row m.target.primaryKey.column

def related (key : Value) : Condition := .compare (m.target.ref m.foreign.column) (.of .eq) key

def among (keys : List Value) : Condition := .inList (m.target.ref m.target.primaryKey.column) keys false

def leaving (key : Value) (keys : List Value) : Condition :=
  if keys.isEmpty then m.related key else .conjunction [m.related key, (m.among keys).negation]

def Names (row : Row) (key : Value) : Prop := Store.Places key ∧ Store.meets (m.primaryOf row) key

/-- The keys of the rows that selectors find, one for each. -/
def Picks (selectors : List (Selector m.target)) (rows : List Row) (keys : List Value) : Prop :=
  List.Forall₂ (fun x key => ∃ row, rows.find? (Selector.picks x) = some row ∧ m.Names row key) selectors keys

variable {m} {selectors : List (Selector m.target)} {keys : List Value} {row : Row} {key : Value}

theorem picksSelector (picks : m.Picks selectors rows keys) :
    ∀ x ∈ selectors, ∃ key ∈ keys, ∃ row, rows.find? x.picks = some row ∧ m.Names row key :=
  (OwnedRelation.Keys.namedKey (o := m.owned) picks).1

theorem samePrimary (distinct : Store.Distinct m.target.fields rows) {a b : Row} (ha : a ∈ rows) (hb : b ∈ rows)
    (equal : Store.meets (m.primaryOf a) (m.primaryOf b)) : a = b :=
  m.keys.samePrimary distinct ha hb equal

/-- A row is selected if a selector finds it, and then no other row. -/
theorem selectsFound (picks : m.Picks selectors rows keys) (distinct : Store.Distinct m.target.fields rows) (mem : row ∈ rows) :
    m.selects selectors row ↔ ∃ x ∈ selectors, rows.find? (Selector.picks x) = some row := by
  unfold selects
  rw [List.any_eq_true]
  constructor
  · rintro ⟨x, among, selecting⟩
    obtain ⟨_, _, other, found, _⟩ := picksSelector picks x among
    obtain rfl := x.picksOne distinct mem (List.mem_of_find?_eq_some found) selecting (List.find?_some found)
    exact ⟨x, among, found⟩
  · rintro ⟨x, among, found⟩
    exact ⟨x, among, List.find?_some found⟩

/-- The rows that leave are those that refer to the parent and are not selected. -/
theorem leavingMatches (picks : m.Picks selectors rows keys) (distinct : Store.Distinct m.target.fields rows)
    (present : ∀ row ∈ rows, (m.primaryOf row).isNothing = false) (mem : row ∈ rows) (tables : Store.Tables)
    (decided : ∃ truth, Store.matchesRow tables m.target.table (m.leaving key keys) row = .ok truth) :
    Store.isMatch tables m.target.table (m.leaving key keys) row = (m.refers key row && !m.selects selectors row) := by
  have matching := m.keys.leavingMatch picks (fun _ _ => List.mem_of_find?_eq_some) distinct present mem decided
  rw [← selectsFound picks distinct mem] at matching
  rw [Bool.eq_iff_iff, Bool.and_eq_true, Bool.not_eq_true', ← Bool.not_eq_true]
  exact matching

/-- Only the primary key of a row matters to the condition that lists those of the rows found. -/
theorem amongMatches (picks : m.Picks selectors rows keys) (distinct : Store.Distinct m.target.fields rows)
    (present : ∀ row ∈ rows, (m.primaryOf row).isNothing = false) (mem : row ∈ rows) (tables : Store.Tables)
    {other : Row} (same : m.primaryOf other = m.primaryOf row)
    (decided : ∃ truth, Store.matchesRow tables m.target.table (m.among keys) other = .ok truth) :
    Store.isMatch tables m.target.table (m.among keys) other = m.selects selectors row := by
  have matching := m.keys.amongMatch picks (fun _ _ => List.mem_of_find?_eq_some) distinct present mem same decided
  rw [← selectsFound picks distinct mem] at matching
  rw [Bool.eq_iff_iff]
  exact matching

end Conditions

section Statements

theorem writeKeyOk {condition : Condition} {v : Value} {n : Number}
    (columns : Record.get? s.backend.fields m.target.table = some m.target.fields)
    (stored : Record.get? s.backend.tables m.target.table = some rows)
    (ran : ((Context.mk registry h).writeKey m.owned condition v).runOn s = (.ok n, t)) :
    ∃ operand, m.foreign.encode v = .ok operand ∧
      (∀ row ∈ rows, ∃ truth, Store.matchesRow s.backend.tables m.target.table condition row = .ok truth) ∧
      t.backend.content = (s.backend.fields, Record.replace s.backend.tables m.target.table
        (rows.map fun row =>
          if Store.isMatch s.backend.tables m.target.table condition row then Record.put row m.foreign.column operand
          else row)) ∧
      (Store.Distinct m.target.fields rows → Store.Distinct m.target.fields
        (rows.map fun row =>
          if Store.isMatch s.backend.tables m.target.table condition row then Record.put row m.foreign.column operand
          else row)) :=
  OwnedRelation.Keys.writeKeyOk (k := m.keys) columns stored ran

variable {selectors : List (Selector m.target)} {keys : List Value} {key : Value}

/-- What becomes of a row when those go that are related no longer. -/
def released (m : ManyRelation registry) (key : Value) (selectors : List (Selector m.target)) (row : Row) : Option Row :=
  if m.refers key row && !m.selects selectors row then
    if m.relation.foreignKeyNullable then some (Record.put row m.foreign.column .null) else none
  else some row

theorem releaseOk {parent : Row} (picks : m.Picks selectors rows keys) (distinct : Store.Distinct m.target.fields rows)
    (present : ∀ row ∈ rows, (m.primaryOf row).isNothing = false)
    (columns : Record.get? s.backend.fields m.target.table = some m.target.fields)
    (stored : Record.get? s.backend.tables m.target.table = some rows)
    (ran : ((Context.mk registry h).releaseRelated (m.parent parent) m.owned (m.leaving key keys)).runOn s = (.ok (), t)) :
    t.backend.content = (s.backend.fields, Record.replace s.backend.tables m.target.table
        (rows.filterMap (m.released key selectors))) ∧
      Store.Distinct m.target.fields (rows.filterMap (m.released key selectors)) := by
  obtain ⟨truths, content, apart⟩ := Context.releaseRelatedOk (k := m.keys) columns stored ran
  have listed : rows.filterMap (m.released key selectors) =
      rows.filterMap (m.keys.left s.backend.tables (m.leaving key keys)) := by
    refine List.filterMap_congr fun row mem => ?_
    have matched := leavingMatches picks distinct present mem s.backend.tables (truths row mem)
    unfold released
    rw [← matched]
    rfl
  rw [listed]
  exact ⟨content, apart distinct⟩

theorem releasedPrimary {row next : Row} (going : m.released key selectors row = some next) :
    m.primaryOf next = m.primaryOf row := by
  unfold released at going
  split at going
  · split at going
    · cases going
      exact Row.valuePutOther row .null m.apart
    · cases going
  · cases going
    rfl

/-- Letting rows go and pointing the selected ones at the parent together are what becomes of a row. -/
theorem releasedPlaced (row : Row) (key : Value) (selectors : List (Selector m.target)) :
    (m.released key selectors row).map (fun next =>
        if m.selects selectors row then Record.put next m.foreign.column key else next) = m.placed key selectors row := by
  unfold released placed
  cases m.selects selectors row with
  | true => simp
  | false =>
    cases m.refers key row with
    | true => cases m.relation.foreignKeyNullable <;> rfl
    | false => rfl

theorem attachOk {found : List Row} {v : Value} (picks : m.Picks selectors rows keys)
    (counted : found.isEmpty = keys.isEmpty) (distinct : Store.Distinct m.target.fields rows)
    (present : ∀ row ∈ rows, (m.primaryOf row).isNothing = false) (encodes : m.foreign.encode v = .ok key)
    (columns : Record.get? s.backend.fields m.target.table = some m.target.fields)
    (stored : Record.get? s.backend.tables m.target.table = some (rows.filterMap (m.released key selectors)))
    (apart : Store.Distinct m.target.fields (rows.filterMap (m.released key selectors)))
    (ran : ((Context.mk registry h).attachRelated m.owned found (m.among keys) v).runOn s = (.ok (), t)) :
    t.backend.content = (s.backend.fields, Record.replace s.backend.tables m.target.table
        (rows.filterMap (m.placed key selectors))) ∧
      Store.Distinct m.target.fields (rows.filterMap (m.placed key selectors)) := by
  unfold Context.attachRelated at ran
  split at ran
  · obtain ⟨n, u, written, done⟩ := Step.bindOk ran
    obtain ⟨-, rfl⟩ := Prod.mk.inj done
    obtain ⟨operand, encoded, truths, content, kept⟩ := writeKeyOk columns stored written
    obtain rfl : operand = key := Except.ok.inj (encoded.symm.trans encodes)
    have listed : rows.filterMap (m.placed operand selectors) =
        (rows.filterMap (m.released operand selectors)).map fun row =>
          if Store.isMatch s.backend.tables m.target.table (m.among keys) row then
            Record.put row m.foreign.column operand else row := by
      rw [List.map_filterMap]
      refine List.filterMap_congr fun row mem => ?_
      rw [← releasedPlaced]
      cases going : m.released operand selectors row with
      | none => rfl
      | some next =>
        have survives : next ∈ rows.filterMap (m.released operand selectors) := List.mem_filterMap.mpr ⟨row, mem, going⟩
        have matched := amongMatches picks distinct present mem s.backend.tables (releasedPrimary going)
          (truths next survives)
        rw [Option.map_some, Option.map_some, matched]
    rw [listed]
    exact ⟨content, kept apart⟩
  · rename_i none
    obtain ⟨-, rfl⟩ := Prod.mk.inj ran
    have empty : selectors = [] := by
      have nobody : keys.isEmpty = true := by
        rw [← counted]
        simpa using none
      obtain rfl := List.isEmpty_iff.mp nobody
      cases picks
      rfl
    have listed : rows.filterMap (m.placed key selectors) = rows.filterMap (m.released key selectors) := by
      refine List.filterMap_congr fun row _ => ?_
      rw [← releasedPlaced, empty]
      exact Option.map_id'
    rw [listed, (Record.replaceSame stored).mpr rfl]
    exact ⟨rfl, apart⟩

theorem setPrepared {parent : Row} {found : List Row} {v : Value} {asking among : Condition}
    (held : m.Stored s.backend rows)
    (required : ((Context.mk registry h).requireAll (m.parent parent) m.owned
      (selectors.map Selector.predicate)).runOn s = (.ok found, t))
    (keyed : (m.parent parent).key m.relation = .ok v) (asked : m.owned.related (m.parent parent) = .ok asking)
    (listed : m.owned.among found = .ok among) :
    t.backend.content = s.backend.content ∧ ∃ key keys, m.foreign.encode v = .ok key ∧ m.Picks selectors rows keys ∧
      found.isEmpty = keys.isEmpty ∧ among = m.among keys ∧
        (if found.isEmpty then asking else .conjunction [asking, among.negation]) = m.leaving key keys := by
  have reads := requireAllOk held.targetColumns held.stored required
  have kept := Context.requireAllKeeps (Context.mk registry h) (m.parent parent) m.owned (selectors.map Selector.predicate) s
  unfold Keeps at kept
  rw [required] at kept
  obtain ⟨keys, rfl, picks⟩ := m.keys.amongOk reads (fun _ _ => List.mem_of_find?_eq_some) held.primaries listed
  obtain ⟨-, key, encoded, rfl⟩ := OwnedRelation.Keys.relatedOk (k := m.keys) asked
  obtain ⟨-, rfl⟩ := Parent.keyOk keyed
  have counted : found.isEmpty = keys.isEmpty := by
    cases reads <;> cases picks <;> rfl
  refine ⟨kept, key, keys, encoded, picks, counted, rfl, ?_⟩
  rw [counted]
  rfl

/-- Setting related rows that succeeds does to each row what it is to become. -/
theorem setRelatedOk {parent : Row} (held : m.Stored s.backend rows)
    (ran : ((Context.mk registry h).setRelated (m.parent parent) m.relation.name
      (.ok (selectors.map Selector.predicate))).runOn s = (.ok (), t)) :
    (Row.value parent m.relation.own.field).isNothing = false ∧
      ∃ key, m.foreign.encode (Row.value parent m.relation.own.field) = .ok key ∧
        t.backend.content = (s.backend.fields, Record.replace s.backend.tables m.target.table
          (rows.filterMap (m.placed key selectors))) ∧
        Store.Distinct m.target.fields (rows.filterMap (m.placed key selectors)) ∧
        ∃ keys, m.Picks selectors rows keys := by
  rw [setSteps] at ran
  obtain ⟨found, u, required, ran⟩ := Step.bindOk ran
  obtain ⟨v, keyed, ran⟩ := Step.liftOk ran
  obtain ⟨condition, asked, ran⟩ := Step.liftOk ran
  obtain ⟨among, listed, ran⟩ := Step.liftOk ran
  obtain ⟨_, w, released, attached⟩ := Step.bindOk ran
  obtain ⟨kept, key, keys, encoded, picks, counted, rfl, leaves⟩ := setPrepared held required keyed asked listed
  obtain ⟨there, rfl⟩ := Parent.keyOk keyed
  obtain ⟨sameColumns, sameTables⟩ := Prod.mk.inj kept
  rw [leaves] at released
  obtain ⟨content, apart⟩ := releaseOk picks held.distinct held.present (sameColumns ▸ held.targetColumns)
    (sameTables ▸ held.stored) released
  obtain ⟨releasedColumns, releasedTables⟩ := Prod.mk.inj content
  -- the rows that are attached are looked for among those that did not go
  have columns : Record.get? w.backend.fields m.target.table = some m.target.fields := by
    rw [releasedColumns, sameColumns]
    exact held.targetColumns
  have stored : Record.get? w.backend.tables m.target.table = some (rows.filterMap (m.released key selectors)) := by
    rw [releasedTables]
    refine Record.get?_replace ?_
    rw [sameTables, held.stored]
    rfl
  obtain ⟨final, distinct⟩ := attachOk picks counted held.distinct held.present encoded columns stored apart attached
  refine ⟨there, key, encoded, ?_, distinct, keys, picks⟩
  rw [final, releasedColumns, releasedTables, sameColumns, sameTables, Record.replaceTwice]

end Statements

end ManyRelation

end EntityQuery
