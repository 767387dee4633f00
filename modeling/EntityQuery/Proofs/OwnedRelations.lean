import EntityQuery.Proofs.Distinct
import EntityQuery.Proofs.Lookups
/-! Relations whose key the related rows store: the rows that their conditions find, by the key of a parent or by the
primary keys of rows that were read, and what writing the key makes of the rows. -/

namespace EntityQuery

/-- A stored value is equal to what is written for what is read of it. -/
def Field.Carries (fields : List Field) (f : Field) (v : Value) : Prop :=
  ∀ raw read w, Store.returned fields f.column v = .ok raw → f.decode raw = .ok read → f.encode read = .ok w →
    Store.meets v w

namespace Field

variable {fields : List Field} {f : Field} {v w : Value}

theorem carriesWritten (columns : (fields.map (·.column)).Nodup) (mem : f ∈ fields) (keyed : f.type.isKeyType)
    (notJson : f.type ≠ .json) (written : f.encode v = .ok w) (there : w.isNothing = false) : f.Carries fields w := by
  intro raw read x returned decodes encodes
  obtain ⟨unchanged, other, decoded, again⟩ := Field.readAgain columns mem keyed notJson written there
  rw [unchanged] at returned
  cases returned
  rw [decoded] at decodes
  cases decodes
  rw [again] at encodes
  cases encodes
  exact Store.meetsSelf (Field.encodePlaces written (ScalarType.keyNotOpaque keyed) there)

theorem emptied (written : f.encode .null = .ok w) : w = .null := by
  rw [encode_of_isNothing rfl] at written
  split at written
  · exact (Except.ok.inj written).symm
  · cases written

end Field

/-- A conjunction that is true has a true first member, where that has a truth value at all. -/
theorem Truth.allFirst {first second : Truth} (proper : first.isProper) (both : (Truth.all [first, second]).isTrue) :
    first.isTrue := by
  cases first with
  | known b =>
    cases b with
    | true => rfl
    | false => cases second <;> cases both
  | unknown =>
    cases second with
    | known b => cases b <;> cases both
    | unknown | beside _ => cases both
  | beside counted => cases proper

namespace Store

variable {tables : Tables} {table column : String} {operand : Value} {c : Condition} {row : Row}

theorem matchedOk (matched : isMatch tables table c row) : matchesRow tables table c row = .ok true := by
  unfold isMatch at matched
  cases ran : matchesRow tables table c row with
  | error e =>
    rw [ran] at matched
    cases matched
  | ok truth =>
    rw [ran] at matched
    exact congrArg Except.ok matched

theorem equalityMatch : isMatch tables table (.compare ⟨table, column⟩ (.of .eq) operand) row =
    meets (Row.value row column) operand :=
  congrArg (Results.valueOr false) (matchesCompare tables table column operand row)

theorem evaluatePair (tables : Tables) (scope : Scope) (a b : Condition) : evaluate tables scope (.all [a, b]) = (do
    let first ← evaluate tables scope a
    let second ← evaluate tables scope b
    return Truth.all [first, second]) := by
  simp only [evaluate, evaluateAll, bind, Except.bind, pure, Except.pure]
  cases evaluate tables scope a with
  | error e => rfl
  | ok first => cases evaluate tables scope b <;> rfl

/-- A row that is found by an equality and another condition satisfies the equality, whatever the other one is. -/
theorem matchedEquality (matched : isMatch tables table (.all [.compare ⟨table, column⟩ (.of .eq) operand, c]) row) :
    meets (Row.value row column) operand := by
  have decided := matchedOk matched
  unfold matchesRow at decided
  rw [evaluatePair] at decided
  obtain ⟨both, evaluated, isTrue⟩ := Results.bindOk decided
  obtain ⟨first, compared, evaluated⟩ := Results.bindOk evaluated
  obtain ⟨second, -, evaluated⟩ := Results.bindOk evaluated
  cases evaluated
  have alone : matchesRow tables table (.compare ⟨table, column⟩ (.of .eq) operand) row = .ok first.isTrue := by
    unfold matchesRow
    rw [compared]
    rfl
  have proper : first.isProper := by
    rw [evaluate, readColumn] at compared
    exact compareProper compared
  have same : isMatch tables table (.compare ⟨table, column⟩ (.of .eq) operand) row = meets (Row.value row column) operand :=
    equalityMatch
  rw [← same, isMatch, alone]
  exact Truth.allFirst proper (Except.ok.inj isTrue)

theorem assignedSet {fields : List Field} {f : Field} (mem : f ∈ fields) (table : String) (v : Value) (row : Row) :
    assignedRow table fields [⟨f.column, .set, v⟩] row = Record.put row f.column v := by
  have known : ∃ g, fieldAt? fields f.column = some g := by
    refine Option.isSome_iff_exists.mp ?_
    rw [fieldAt?, List.find?_isSome]
    exact ⟨f, List.mem_reverse.mpr mem, beq_self_eq_true _⟩
  obtain ⟨g, known⟩ := known
  have assigned : assigned table fields row ⟨f.column, .set, v⟩ = .ok v := by
    unfold assigned
    rw [known]
  unfold assignedRow assignAll
  rw [assigned]
  rfl

end Store

namespace Parent

variable {registry : Registry Fetcher} {p : Parent} {r : Relation} {target : Entity}

theorem keyOk {v : Value} (keyed : p.key r = .ok v) : v.isNothing = false ∧ v = Row.value p.row r.own.field := by
  unfold key at keyed
  dsimp only at keyed
  split at keyed
  · cases keyed
  · rename_i present
    cases keyed
    exact ⟨by simpa using present, rfl⟩

theorem relatedNamed (found : p.entity.relation? r.name = some r) (targeted : registry.get? r.target = some target) :
    registry.related p.entity (.text r.name) = .ok (r, target) := by
  have named : p.entity.relationNamed (.text r.name) = .ok r := by
    change p.entity.relation r.name = _
    rw [Entity.relation, found]
  unfold Registry.related
  simp only [named, targeted, bind, Except.bind]
  rfl

theorem ownedNamed (found : p.entity.relation? r.name = some r) (targeted : registry.get? r.target = some target)
    (remote : r.ownsKey = false) : p.owned registry r.name none = .ok ⟨r, target⟩ := by
  unfold owned
  simp only [Option.filter_none, relatedNamed found targeted, bind, Except.bind, remote]
  rfl

end Parent

namespace OwnedRelation

variable (o : OwnedRelation)

/-- The field of the foreign key, which no other field shares its column with, as the primary key does not either. Both
are of types that can be compared as they are written. -/
structure Keys where
  foreign : Field
  foreignFound : o.target.field? o.relation.remote.field = some foreign
  primaryHeld : o.target.primaryKey ∈ o.target.fields
  primary : o.target.primaryKey.primaryKey
  keyed : foreign.type.isKeyType ∧ o.target.primaryKey.type.isKeyType
  names : (o.target.fields.map (·.name)).Nodup
  columns : (o.target.fields.map (·.column)).Nodup

def primaryOf (row : Row) : Value := Row.value row o.target.primaryKey.column

def amongKeys (keys : List Value) : Condition := .inList (o.target.ref o.target.primaryKey.column) keys false

def Names (row : Row) (key : Value) : Prop := Store.Places key ∧ Store.meets (o.primaryOf row) key

/-- A store that differs from another one in the rows of the target at most, which are given. -/
def WithRows (b : Store) (after : List Row) (t : Store) : Prop :=
  t.content = (b.fields, Record.replace b.tables o.target.table after)

end OwnedRelation

namespace OwnedRelation.Keys

variable {o : OwnedRelation} (k : o.Keys)

def refers (key : Value) (row : Row) : Bool := Store.meets (Row.value row k.foreign.column) key

def related (key : Value) : Condition := .compare (o.target.ref k.foreign.column) (.of .eq) key

def leaving (key : Value) (keys : List Value) : Condition :=
  if keys.isEmpty then k.related key else .conjunction [k.related key, (o.amongKeys keys).negation]

/-- What is asked of a store: the columns of the table are those of the target, primary keys are there and equal to what
is written for them, and unique columns hold distinct values. -/
structure Stored (k : o.Keys) (b : Store) (rows : List Row) : Prop where
  columns : Record.get? b.fields o.target.table = some o.target.fields
  stored : Record.get? b.tables o.target.table = some rows
  present : ∀ row ∈ rows, (o.primaryOf row).isNothing = false
  distinct : Store.Distinct o.target.fields rows
  primaries : ∀ row ∈ rows, o.target.primaryKey.Carries o.target.fields (o.primaryOf row)

theorem held : k.foreign ∈ o.target.fields := List.mem_of_find?_eq_some k.foreignFound

theorem foreignKeyOk : o.foreignKey = .ok k.foreign := by
  unfold OwnedRelation.foreignKey Entity.field
  rw [k.foreignFound]

section Conditions

variable {k} {key : Value} {keys : List Value} {rows : List Row} {row : Row} {tables : Store.Tables}

theorem relatedOk {p : Parent} {condition : Condition} (asked : o.related p = .ok condition) :
    (Row.value p.row o.relation.own.field).isNothing = false ∧
      ∃ key, k.foreign.encode (Row.value p.row o.relation.own.field) = .ok key ∧ condition = k.related key := by
  unfold OwnedRelation.related at asked
  obtain ⟨f, known, asked⟩ := Results.bindOk asked
  obtain ⟨v, keyed, asked⟩ := Results.bindOk asked
  obtain ⟨key, encoded, asked⟩ := Results.bindOk asked
  cases asked
  obtain rfl : k.foreign = f := Except.ok.inj (k.foreignKeyOk.symm.trans known)
  obtain ⟨there, rfl⟩ := Parent.keyOk keyed
  exact ⟨there, key, encoded, rfl⟩

theorem refersPut (k : o.Keys) (places : Store.Places key) (row : Row) : k.refers key (Record.put row k.foreign.column key) := by
  unfold refers
  rw [Row.valuePut]
  exact Store.meetsSelf places

theorem refersNull (k : o.Keys) (key : Value) (row : Row) : k.refers key (Record.put row k.foreign.column .null) = false := by
  unfold refers
  rw [Row.valuePut]
  rfl

theorem relatedMatch : Store.isMatch tables o.target.table (k.related key) row = k.refers key row := Store.equalityMatch

theorem samePrimary (k : o.Keys) (distinct : Store.Distinct o.target.fields rows) {a b : Row} (ha : a ∈ rows) (hb : b ∈ rows)
    (equal : Store.meets (o.primaryOf a) (o.primaryOf b)) : a = b := by
  obtain ⟨there, other, same⟩ := Store.meetsOk equal
  have primary : (o.target.primaryKey.primaryKey || o.target.primaryKey.unique) = true := by rw [k.primary, Bool.true_or]
  exact Store.distinctSame distinct ha hb k.primaryHeld primary there same other

section Found

variable {α : Type} {find : α → Option Row} {xs : List α}

/-- The keys that are written for the rows found name these rows. -/
theorem amongOk (k : o.Keys) {found : List Row} {condition : Condition}
    (reads : List.Forall₂ (fun x decoded => ∃ row, find x = some row ∧ o.target.Reads row decoded) xs found)
    (inside : ∀ x row, find x = some row → row ∈ rows)
    (carried : ∀ row ∈ rows, o.target.primaryKey.Carries o.target.fields (o.primaryOf row))
    (listed : o.among found = .ok condition) :
    ∃ keys, condition = o.amongKeys keys ∧ List.Forall₂ (fun x key => ∃ row, find x = some row ∧ o.Names row key) xs keys := by
  unfold OwnedRelation.among at listed
  obtain ⟨keys, encoded, done⟩ := Results.bindOk listed
  cases done
  clear listed
  refine ⟨keys, rfl, ?_⟩
  change (found.mapM fun row => o.target.primaryKey.encode (o.target.keyOf row)) = .ok keys at encoded
  induction reads generalizing keys with
  | nil =>
    cases encoded
    exact .nil
  | @cons x decoded rest found here later ih =>
    rw [List.mapM_cons] at encoded
    obtain ⟨key, first, encoded⟩ := Results.bindOk encoded
    obtain ⟨others, second, encoded⟩ := Results.bindOk encoded
    cases encoded
    obtain ⟨row, picked, reading⟩ := here
    obtain ⟨raw, returned, decodes⟩ := Entity.readsValue k.names reading k.primaryHeld
    have equal := carried row (inside x row picked) raw _ key returned decodes first
    have there : key.isNothing = false := (Store.meetsOk equal).2.1
    exact .cons ⟨row, picked, Field.encodePlaces first (ScalarType.keyNotOpaque k.keyed.2) there, equal⟩ (ih others second)

theorem namedKey (named : List.Forall₂ (fun x key => ∃ row, find x = some row ∧ o.Names row key) xs keys) :
    (∀ x ∈ xs, ∃ key ∈ keys, ∃ row, find x = some row ∧ o.Names row key) ∧
      ∀ key ∈ keys, ∃ x ∈ xs, ∃ row, find x = some row ∧ o.Names row key := by
  induction named with
  | nil => exact ⟨nofun, nofun⟩
  | @cons x key rest keys here _ ih =>
    rw [List.forall_mem_cons, List.forall_mem_cons]
    refine ⟨⟨⟨key, List.mem_cons_self, here⟩, fun other mem => ?_⟩, ⟨x, List.mem_cons_self, here⟩, fun other mem => ?_⟩
    · obtain ⟨named, among, found⟩ := ih.1 other mem
      exact ⟨named, List.mem_cons_of_mem _ among, found⟩
    · obtain ⟨finding, among, found⟩ := ih.2 other mem
      exact ⟨finding, List.mem_cons_of_mem _ among, found⟩

/-- A row has one of the keys that name the rows found if and only if it is one of them. -/
theorem amongListed (k : o.Keys) (named : List.Forall₂ (fun x key => ∃ row, find x = some row ∧ o.Names row key) xs keys)
    (inside : ∀ x row, find x = some row → row ∈ rows) (distinct : Store.Distinct o.target.fields rows)
    (present : ∀ row ∈ rows, (o.primaryOf row).isNothing = false) (mem : row ∈ rows) {listed : Bool}
    (searched : Store.isAmong (o.primaryOf row) keys = .ok listed) : listed = true ↔ ∃ x ∈ xs, find x = some row := by
  have items := Results.anyItems searched
  obtain ⟨ofFound, ofKeys⟩ := namedKey named
  cases listed with
  | true =>
    obtain ⟨key, among, same⟩ := items
    obtain ⟨x, finding, other, found, places, equal⟩ := ofKeys key among
    rw [places.1, if_neg Bool.false_ne_true] at same
    have otherMem := inside x other found
    have both := Store.sameTrans places same (Store.meetsOk equal).2.2
    obtain rfl := samePrimary k distinct mem otherMem (Store.meetsOf (present row mem) (present other otherMem) both)
    exact iff_of_true rfl ⟨x, finding, found⟩
  | false =>
    refine iff_of_false Bool.false_ne_true fun ⟨x, finding, found⟩ => ?_
    obtain ⟨key, among, other, foundOther, places, equal⟩ := ofFound x finding
    obtain rfl := Option.some.inj (found.symm.trans foundOther)
    have unequal := items key among
    rw [places.1, if_neg Bool.false_ne_true] at unequal
    cases unequal.symm.trans (Store.meetsOk equal).2.2

end Found

theorem leavingRefers (matched : Store.isMatch tables o.target.table (k.leaving key keys) row) : k.refers key row := by
  cases keys with
  | nil => exact relatedMatch.symm.trans matched
  | cons first rest => exact Store.matchedEquality matched

/-- The rows that leave are those that refer to the parent and are not among those found. -/
theorem leavingMatch {α : Type} {find : α → Option Row} {xs : List α}
    (named : List.Forall₂ (fun x key => ∃ row, find x = some row ∧ o.Names row key) xs keys)
    (inside : ∀ x row, find x = some row → row ∈ rows) (distinct : Store.Distinct o.target.fields rows)
    (present : ∀ row ∈ rows, (o.primaryOf row).isNothing = false) (mem : row ∈ rows)
    (decided : ∃ truth, Store.matchesRow tables o.target.table (k.leaving key keys) row = .ok truth) :
    Store.isMatch tables o.target.table (k.leaving key keys) row ↔ k.refers key row ∧ ¬ ∃ x ∈ xs, find x = some row := by
  cases keys with
  | nil =>
    cases named
    simp only [List.not_mem_nil, false_and, exists_false, not_false_eq_true, and_true]
    exact iff_of_eq (congrArg (· = true) relatedMatch)
  | cons first rest =>
    have matching : Store.matchesRow tables o.target.table (k.leaving key (first :: rest)) row = (do
        let equal ← Store.equals (Row.value row k.foreign.column) key
        let listed ← Store.isAmong (o.primaryOf row) (first :: rest)
        return equal && !listed) := Store.matchesBut tables (present row mem)
    obtain ⟨truth, decides⟩ := decided
    rw [Store.isMatch, decides]
    rw [matching] at decides
    obtain ⟨equal, compared, decides⟩ := Results.bindOk decides
    obtain ⟨listed, searched, decides⟩ := Results.bindOk decides
    cases decides
    rw [← amongListed k named inside distinct present mem searched, refers, Store.meets, compared]
    change (equal && !listed) = true ↔ equal = true ∧ ¬ listed = true
    simp

/-- Only the primary key of a row matters to the condition that lists those of the rows found. -/
theorem amongMatch (k : o.Keys) {α : Type} {find : α → Option Row} {xs : List α}
    (named : List.Forall₂ (fun x key => ∃ row, find x = some row ∧ o.Names row key) xs keys)
    (inside : ∀ x row, find x = some row → row ∈ rows) (distinct : Store.Distinct o.target.fields rows)
    (present : ∀ row ∈ rows, (o.primaryOf row).isNothing = false) (mem : row ∈ rows) {other : Row}
    (same : o.primaryOf other = o.primaryOf row)
    (decided : ∃ truth, Store.matchesRow tables o.target.table (o.amongKeys keys) other = .ok truth) :
    Store.isMatch tables o.target.table (o.amongKeys keys) other ↔ ∃ x ∈ xs, find x = some row := by
  cases keys with
  | nil =>
    cases named
    exact iff_of_false Bool.false_ne_true (by simp)
  | cons first rest =>
    have there : (o.primaryOf other).isNothing = false := same ▸ present row mem
    have matching : Store.matchesRow tables o.target.table (o.amongKeys (first :: rest)) other =
        Store.isAmong (o.primaryOf other) (first :: rest) := Store.matchesMember tables there
    obtain ⟨truth, decides⟩ := decided
    rw [Store.isMatch, decides]
    rw [matching, same] at decides
    exact amongListed k named inside distinct present mem decides

end Conditions

section Statements

variable {c : Context} {s t : Session Store} {rows : List Row} {condition : Condition} {v : Value}

theorem storedSame {a b : Store} (same : b.content = a.content) (held : k.Stored a rows) : k.Stored b rows := by
  obtain ⟨columns, tables⟩ := Prod.mk.inj same
  exact ⟨columns ▸ held.columns, tables ▸ held.stored, held.present, held.distinct, held.primaries⟩

/-- What becomes of a row when the foreign key of the rows that match is written. -/
def rewritten (tables : Store.Tables) (condition : Condition) (operand : Value) (row : Row) : Row :=
  if Store.isMatch tables o.target.table condition row then Record.put row k.foreign.column operand else row

variable {k}

theorem writeKeyOk {n : Number} (columns : Record.get? s.backend.fields o.target.table = some o.target.fields)
    (stored : Record.get? s.backend.tables o.target.table = some rows)
    (ran : (c.writeKey o condition v).runOn s = (.ok n, t)) :
    ∃ operand, k.foreign.encode v = .ok operand ∧
      (∀ row ∈ rows, ∃ truth, Store.matchesRow s.backend.tables o.target.table condition row = .ok truth) ∧
      t.backend.content = (s.backend.fields, Record.replace s.backend.tables o.target.table
        (rows.map (k.rewritten s.backend.tables condition operand))) ∧
      (Store.Distinct o.target.fields rows →
        Store.Distinct o.target.fields (rows.map (k.rewritten s.backend.tables condition operand))) := by
  unfold Context.writeKey at ran
  rw [k.foreignKeyOk] at ran
  obtain ⟨f, known, ran⟩ := Step.liftOk ran
  cases known
  obtain ⟨operand, encoded, written⟩ := Step.liftOk ran
  obtain ⟨w, u, updated, counted⟩ := Step.bindOk written
  obtain ⟨-, rfl⟩ := Prod.mk.inj counted
  rw [Context.updateRun, Prod.mk.injEq] at updated
  obtain ⟨answer, rfl⟩ := updated
  obtain ⟨fields, others, sameColumns, sameRows, truths, content, distinct, -⟩ := Store.updateDone (Prod.ext answer rfl)
  obtain rfl : others = rows := Option.some.inj (sameRows.symm.trans stored)
  obtain rfl : fields = o.target.fields := Option.some.inj ((Store.fieldsOfOk sameColumns).symm.trans columns)
  have changed : (fun row => Store.updatedRow o.target.table o.target.fields [⟨k.foreign.column, .set, operand⟩]
      (Store.isMatch s.backend.tables o.target.table condition row, row)) =
        k.rewritten s.backend.tables condition operand := by
    funext row
    rw [Store.updatedRow, Store.assignedSet k.held]
    rfl
  refine ⟨operand, encoded, truths, ?_, ?_⟩
  · rw [← changed]
    exact content
  · rw [← changed]
    exact distinct _ (List.Subset.refl _)

end Statements

section WithRows

variable {k : o.Keys} {b : Store} {s t : Session Store} {rows after : List Row}

theorem withRowsSelf (held : k.Stored b rows) : o.WithRows b rows b := by
  unfold WithRows
  rw [(Record.replaceSame held.stored).mpr rfl]
  rfl

theorem withRowsColumns (held : k.Stored b rows) (now : o.WithRows b after s.backend) :
    Record.get? s.backend.fields o.target.table = some o.target.fields := by
  obtain ⟨columns, -⟩ := Prod.mk.inj now
  exact columns ▸ held.columns

theorem withRowsStored (held : k.Stored b rows) (now : o.WithRows b after s.backend) :
    Record.get? s.backend.tables o.target.table = some after := by
  obtain ⟨-, tables⟩ := Prod.mk.inj now
  rw [tables]
  refine Record.get?_replace ?_
  rw [held.stored]
  rfl

theorem withRowsAgain {next : List Row} (now : o.WithRows b after s.backend) (then_ : o.WithRows s.backend next t.backend) :
    o.WithRows b next t.backend := by
  obtain ⟨columns, tables⟩ := Prod.mk.inj now
  unfold WithRows at then_ ⊢
  rw [then_, columns, tables, Record.replaceTwice]

theorem writeKeyRows {c : Context} {condition : Condition} {v : Value} {n : Number} (held : k.Stored b rows)
    (now : o.WithRows b after s.backend) (ran : (c.writeKey o condition v).runOn s = (.ok n, t)) :
    ∃ operand, k.foreign.encode v = .ok operand ∧
      (∀ row ∈ after, ∃ truth, Store.matchesRow s.backend.tables o.target.table condition row = .ok truth) ∧
      o.WithRows b (after.map (k.rewritten s.backend.tables condition operand)) t.backend := by
  obtain ⟨operand, encoded, truths, content, -⟩ := writeKeyOk (withRowsColumns held now) (withRowsStored held now) ran
  exact ⟨operand, encoded, truths, withRowsAgain now content⟩

end WithRows

/-- What becomes of a row that is to go: it loses the foreign key where that may be, or is gone. -/
def left (tables : Store.Tables) (leaving : Condition) (row : Row) : Option Row :=
  if Store.isMatch tables o.target.table leaving row then
    if o.relation.foreignKeyNullable then some (Record.put row k.foreign.column .null) else none
  else some row

end OwnedRelation.Keys

namespace Context

variable {c : Context} {p : Parent} {o : OwnedRelation} {s t : Session Store}

theorem requireRelatedKeeps (c : Context) (p : Parent) (o : OwnedRelation) (selector : Predicate) (s : Session Store) :
    Keeps (c.requireRelated p o selector) s := by
  unfold requireRelated
  refine Keeps.bind (lookupKeeps c selector s) fun found t _ => ?_
  cases found with
  | some row => exact rfl
  | none => exact Keeps.liftBind fun _ _ => rfl

theorem requireAllKeeps (c : Context) (p : Parent) (o : OwnedRelation) (ps : List Predicate) (s : Session Store) :
    Keeps (c.requireAll p o ps) s := by
  induction ps generalizing s with
  | nil => rfl
  | cons selector rest ih =>
    unfold requireAll
    refine Keeps.liftBind fun _ _ => Keeps.bind (requireRelatedKeeps c p o selector s) fun row t _ => ?_
    exact Keeps.bind (ih t) fun rows u _ => rfl

theorem requireRelatedOk {selector : Predicate} {found : Row} (ran : (c.requireRelated p o selector).runOn s = (.ok found, t)) :
    (c.lookup selector).runOn s = (.ok (some found), t) := by
  unfold requireRelated at ran
  obtain ⟨looked, u, lookup, ran⟩ := Step.bindOk ran
  cases looked with
  | none =>
    obtain ⟨_, _, ran⟩ := Step.liftOk ran
    cases ran
  | some row =>
    cases ran
    exact lookup

/-- By induction on the selectors: each of them was found in a store with the same rows, and is about the target. -/
theorem requireAllOk {ps : List Predicate} {found : List Row} (ran : (c.requireAll p o ps).runOn s = (.ok found, t)) :
    List.Forall₂ (fun selector decoded =>
      (∃ chosen, c.registry.relatedTo p.entity (.text o.relation.name) selector.askEntity = .ok chosen) ∧
        ∃ u v : Session Store, u.backend.content = s.backend.content ∧
          (c.requireRelated p o selector).runOn u = (.ok decoded, v)) ps found := by
  have run : ∀ (b : Session Store) (found : List Row), b.backend.content = s.backend.content →
      (c.requireAll p o ps).runOn b = (.ok found, t) → List.Forall₂ (fun selector decoded =>
        (∃ chosen, c.registry.relatedTo p.entity (.text o.relation.name) selector.askEntity = .ok chosen) ∧
          ∃ u v : Session Store, u.backend.content = s.backend.content ∧
            (c.requireRelated p o selector).runOn u = (.ok decoded, v)) ps found := by
    clear ran
    induction ps with
    | nil =>
      intro b found _ ran
      cases ran
      exact .nil
    | cons selector rest ih =>
      intro b found same ran
      unfold requireAll at ran
      obtain ⟨chosen, about, ran⟩ := Step.liftOk ran
      obtain ⟨first, u, one, ran⟩ := Step.bindOk ran
      obtain ⟨others, v, later, ran⟩ := Step.bindOk ran
      cases ran
      have kept := requireRelatedKeeps c p o selector b
      unfold Keeps at kept
      rw [one] at kept
      exact .cons ⟨⟨chosen, about⟩, b, u, same, one⟩ (ih u others (kept.trans same) later)
  exact run s found rfl ran

def releaseRelated (c : Context) (p : Parent) (o : OwnedRelation) (leaving : Condition) : Action Store Unit := do
  if o.relation.foreignKeyNullable then
    let detached ← c.writeKey o leaving .null
    Action.tell .db s!"Detached {detached.toText} {o.target.name} row(s) from {p.entity.name}.{o.relation.name}"
  else
    let deleted ← c.delete ⟨o.target.table, leaving, []⟩
    Action.tell .db s!"Deleted {deleted.count.toText} {o.target.name} row(s) leaving {p.entity.name}.{o.relation.name}"

theorem releaseRelatedOk {k : o.Keys} {rows : List Row} {leaving : Condition}
    (columns : Record.get? s.backend.fields o.target.table = some o.target.fields)
    (stored : Record.get? s.backend.tables o.target.table = some rows)
    (ran : (c.releaseRelated p o leaving).runOn s = (.ok (), t)) :
    (∀ row ∈ rows, ∃ truth, Store.matchesRow s.backend.tables o.target.table leaving row = .ok truth) ∧
      o.WithRows s.backend (rows.filterMap (k.left s.backend.tables leaving)) t.backend ∧
      (Store.Distinct o.target.fields rows →
        Store.Distinct o.target.fields (rows.filterMap (k.left s.backend.tables leaving))) := by
  unfold releaseRelated at ran
  split at ran
  · rename_i nullable
    obtain ⟨n, u, written, told⟩ := Step.bindOk ran
    obtain ⟨operand, encoded, truths, content, kept⟩ := OwnedRelation.Keys.writeKeyOk (k := k) columns stored written
    obtain rfl := Field.emptied encoded
    obtain ⟨-, rfl⟩ := Prod.mk.inj told
    have listed : rows.filterMap (k.left s.backend.tables leaving) = rows.map (k.rewritten s.backend.tables leaving .null) := by
      rw [← List.filterMap_eq_map]
      refine List.filterMap_congr fun row _ => ?_
      rw [OwnedRelation.Keys.left, Function.comp_apply, OwnedRelation.Keys.rewritten, if_pos nullable]
      split <;> rfl
    rw [listed]
    exact ⟨truths, content, kept⟩
  · rename_i required
    obtain ⟨w, u, deleted, told⟩ := Step.bindOk ran
    rw [deleteRun, Prod.mk.injEq] at deleted
    obtain ⟨answer, rfl⟩ := deleted
    obtain ⟨_, others, -, sameRows, truths, content⟩ := Store.deleteDone (Prod.ext answer rfl)
    obtain rfl : others = rows := Option.some.inj (sameRows.symm.trans stored)
    obtain ⟨-, rfl⟩ := Prod.mk.inj told
    have listed : others.filterMap (k.left s.backend.tables leaving) =
        others.filter fun row => !Store.isMatch s.backend.tables o.target.table leaving row := by
      rw [← List.filterMap_eq_filter]
      refine List.filterMap_congr fun row _ => ?_
      rw [OwnedRelation.Keys.left, Option.guard]
      cases Store.isMatch s.backend.tables o.target.table leaving row with
      | true => exact if_neg required
      | false => rfl
    rw [listed]
    exact ⟨truths, content, List.Pairwise.sublist List.filter_sublist⟩

def attachRelated (c : Context) (o : OwnedRelation) (found : List Row) (among : Condition) (key : Value) :
    Action Store Unit := do
  if !found.isEmpty then
    let _ ← c.writeKey o among key

theorem setSteps {relation : String} (asked : p.owned c.registry relation none = .ok o) (many : o.relation.kind = .hasMany)
    (ps : List Predicate) : (c.setRelated p relation (.ok ps) : Action Store Unit) = (do
      let found ← c.requireAll p o ps
      let key ← p.key o.relation
      let related ← o.related p
      let among ← o.among found
      let leaving := if found.isEmpty then related else .conjunction [related, among.negation]
      c.releaseRelated p o leaving
      c.attachRelated o found among key : Action Store Unit) := by
  have several : (o.relation.kind != .hasMany) = false := by
    rw [many]
    rfl
  unfold setRelated
  rw [asked]
  change (if (o.relation.kind != .hasMany) = true then _ else _) = _
  rw [several, if_neg Bool.false_ne_true]
  refine congrArg (fun next => c.requireAll p o ps >>= next) (funext fun found => ?_)
  refine congrArg (fun next => (liftM (p.key o.relation) : Action Store Value) >>= next) (funext fun key => ?_)
  refine congrArg (fun next => (liftM (o.related p) : Action Store Condition) >>= next) (funext fun related => ?_)
  refine congrArg (fun next => (liftM (o.among found) : Action Store Condition) >>= next) (funext fun among => ?_)
  unfold releaseRelated attachRelated
  by_cases nullable : o.relation.foreignKeyNullable = true
  · simp only [if_pos nullable, bind_assoc]
  · simp only [if_neg nullable, bind_assoc]

end Context

end EntityQuery
