import EntityQuery.Operation.Edit
import EntityQuery.Proofs.CreatedRows
import EntityQuery.Proofs.Insertions
import EntityQuery.Proofs.PendingLookups
/-! Rows that are created with lookups of their keys. The lookups of the data are queued first and those of connecting calls
after them; before the row is inserted they run in that order, each puts what it found into the values of the row, and the
first one that finds nothing ends the creation. -/

namespace EntityQuery

namespace Record

variable {α : Type} {r : Record α} {name : String} {v : α}

theorem namesReplace (r : Record α) (name : String) (v : α) : (r.replace name v).names = r.names := by
  induction r with
  | nil => rfl
  | cons pair rest ih =>
    obtain ⟨key, old⟩ := pair
    unfold replace
    split
    · rfl
    · exact congrArg (key :: ·) ih

theorem nodupPut (name : String) (v : α) (distinct : r.names.Nodup) : (r.put name v).names.Nodup := by
  cases there : r.get? name with
  | none =>
    have fresh : name ∉ r.names := by
      intro mem
      obtain ⟨⟨_, w⟩, inside, rfl⟩ := List.mem_map.mp mem
      exact absentOfGet there inside
    have order : (r.put name v).names.Perm (name :: r.names) := (permPut v there).map Prod.fst
    exact order.nodup_iff.mpr (List.nodup_cons.mpr ⟨fresh, distinct⟩)
  | some old =>
    unfold put has
    rw [there]
    exact (namesReplace r name v).symm ▸ distinct

end Record

namespace Store

/-- A store of which rows of some entities have been asked for, one after another. -/
def asked (targets : List Entity) (s : Store) : Store :=
  { s with journal := s.journal ++ targets.map fun e => (.select, e.table) }

theorem insertJournal (s : Store) (q : Insert) : (s.insertRows q).2.journal = s.journal := by
  have relabels : Relabels fun b : Store => { b with journal := s.journal } :=
    ⟨fun _ => rfl, fun _ => rfl, fun _ _ => rfl, fun _ _ => rfl⟩
  have same : s.insertRows q = ((s.insertRows q).1, { (s.insertRows q).2 with journal := s.journal }) :=
    insertRelabeled relabels q s
  rw [same]

end Store

namespace Creation

variable {c : Context} {e : Entity} {creation next : Creation} {data : Row} {l : Lookup}

/-- The lookup that a member of the data asks for: it holds the selector of the row that the new one belongs to. -/
def lookup? (e : Entity) (member : String × Value) : Option Lookup :=
  match member.2 with
  | .absent => none
  | v =>
    match e.field? member.1, e.relation? member.1 with
    | none, some r => if r.kind = .belongsTo then some ⟨r, Predicate.ofValue v⟩ else none
    | _, _ => none

/-- A lookup is queued for the relation that is named and its selector, which is about an entity that is known. -/
theorem lookupForOk {relation : Value} {selector : Predicate} (queued : lookupFor c.registry e relation selector = .ok l) :
    e.relationNamed relation = .ok l.relation ∧ l.selector = selector ∧ ∃ target, c.entityOf selector = .ok target := by
  obtain ⟨⟨r, target⟩, chosen, queued⟩ := Results.bindOk queued
  obtain ⟨related, v, asked, means⟩ := Context.relatedToOk chosen
  obtain ⟨r', named, related⟩ := Results.bindOk related
  obtain rfl : r' = r := by
    split at related <;> cases related
    rfl
  dsimp only at queued
  split at queued
  · cases queued
  · cases queued
    refine ⟨named, rfl, ?_⟩
    obtain ⟨found, looked, same⟩ := Results.bindOk means
    cases found with
    | none => cases same
    | some meant =>
      refine ⟨meant, ?_⟩
      unfold Context.entityOf
      rw [asked]
      change c.registry.needed v = _
      unfold Registry.find at looked
      unfold Registry.needed
      split at looked
      · unfold Registry.require
        rw [Except.ok.inj looked]
        rfl
      · split at looked <;> cases looked

theorem addMemberLookups {member : String × Value} (added : addMember c.registry e creation member.1 member.2 = .ok next) :
    next.lookups = creation.lookups ++ (lookup? e member).toList ∧
      ∀ l ∈ lookup? e member, ∃ target, c.entityOf l.selector = .ok target := by
  obtain ⟨name, v⟩ := member
  have nothing : ∀ o : Option Lookup, o = none → creation.lookups = creation.lookups ++ o.toList ∧
      ∀ l ∈ o, ∃ target, c.entityOf l.selector = .ok target := by
    rintro o rfl
    exact ⟨(List.append_nil _).symm, nofun⟩
  unfold addMember at added
  dsimp only at added
  split at added
  · cases added
    exact nothing _ rfl
  · rename_i there
    have form : lookup? e (name, v) = match e.field? name, e.relation? name with
        | none, some r => if r.kind = .belongsTo then some ⟨r, Predicate.ofValue v⟩ else none
        | _, _ => none := by
      cases v <;> first | rfl | exact (there rfl).elim
    split at added
    · rename_i field
      cases added
      exact nothing _ (by rw [form, field])
    · cases added
    · rename_i r field relation
      rw [field, relation] at form
      dsimp only at form
      split at added
      · rename_i belongs
        split at added
        · obtain ⟨l, queued, added⟩ := Results.bindOk added
          cases added
          obtain ⟨named, selector, meant⟩ := lookupForOk queued
          obtain ⟨chosen, _⟩ := l
          have same : chosen = r := by
            change e.relation name = _ at named
            rw [Entity.relation, relation] at named
            exact (Except.ok.inj named).symm
          subst same selector
          rw [form, if_pos belongs]
          exact ⟨rfl, by rintro l ⟨⟩; exact meant⟩
        · cases added
      · rename_i apart
        obtain ⟨changes, -, added⟩ := Results.bindOk added
        cases added
        exact nothing _ (by rw [form]; exact if_neg apart)

/-- The lookups of the data are queued in the order of the members that ask for them. -/
theorem ofDataLookups (asked : ofData c.registry e data = .ok creation) :
    creation.lookups = data.filterMap (lookup? e) ∧ ∀ l ∈ creation.lookups, ∃ target, c.entityOf l.selector = .ok target := by
  have run : ∀ (data : Row) (start : Creation),
      data.foldlM (fun c' member => addMember c.registry e c' member.1 member.2) start = .ok creation →
        creation.lookups = start.lookups ++ data.filterMap (lookup? e) ∧
          ∀ l ∈ data.filterMap (lookup? e), ∃ target, c.entityOf l.selector = .ok target := by
    intro data
    induction data with
    | nil =>
      intro start ran
      cases ran
      exact ⟨(List.append_nil _).symm, nofun⟩
    | cons member rest ih =>
      intro start ran
      rw [List.foldlM_cons] at ran
      obtain ⟨next, added, ran⟩ := Results.bindOk ran
      obtain ⟨queued, here⟩ := addMemberLookups added
      obtain ⟨listed, later⟩ := ih next ran
      have parts : (member :: rest).filterMap (lookup? e) = (lookup? e member).toList ++ rest.filterMap (lookup? e) := by
        rw [List.filterMap_cons]
        cases lookup? e member <;> rfl
      rw [parts]
      refine ⟨by rw [listed, queued, List.append_assoc], fun l mem => ?_⟩
      rcases List.mem_append.mp mem with first | second
      · exact here l (Option.mem_toList.mp first)
      · exact later l second
  obtain ⟨listed, meant⟩ := run data _ asked
  rw [List.nil_append] at listed
  exact ⟨listed, listed ▸ meant⟩

theorem ofDataNames (asked : ofData c.registry e data = .ok creation) : creation.values.names.Nodup := by
  have run : ∀ (data : Row) (start : Creation), start.values.names.Nodup →
      data.foldlM (fun c' member => addMember c.registry e c' member.1 member.2) start = .ok creation →
        creation.values.names.Nodup := by
    intro data
    induction data with
    | nil =>
      intro start names ran
      cases ran
      exact names
    | cons member rest ih =>
      intro start names ran
      rw [List.foldlM_cons] at ran
      obtain ⟨next, added, ran⟩ := Results.bindOk ran
      refine ih next ?_ ran
      rcases addMemberValues added with same | put
      · rwa [same]
      · rw [put]
        exact Record.nodupPut _ _ names
  exact run data ⟨[], [], []⟩ List.nodup_nil asked

/-- The values of a row when lookups have found rows: each puts what it is after into them, one after another. -/
def completed (values : Row) (found : List (Lookup × Row)) : Row :=
  found.foldl (fun values (l, row) => values.put l.relation.own.field (Row.value row l.relation.remote.field)) values

section Completed

variable {values : Row} {found after : List (Lookup × Row)} {name : String} {v : Value}

theorem completedSpares (gives : Record.Gives values name v) (apart : ∀ p ∈ found, p.1.relation.own.field ≠ name) :
    Record.Gives (completed values found) name v := by
  induction found generalizing values with
  | nil => exact gives
  | cons p rest ih =>
    obtain ⟨here, later⟩ := List.forall_mem_cons.mp apart
    exact ih (Record.givesOther gives here.symm) later

theorem completedNames (names : values.names.Nodup) : (completed values found).names.Nodup := by
  induction found generalizing values with
  | nil => exact names
  | cons p rest ih => exact ih (Record.nodupPut _ _ names)

/-- The last lookup of a key decides which value it gets. -/
theorem completedLast (before : List (Lookup × Row)) (row : Row) (names : values.names.Nodup)
    (last : ∀ p ∈ after, p.1.relation.own.field ≠ l.relation.own.field) :
    Record.Gives (completed values (before ++ (l, row) :: after)) l.relation.own.field
      (Row.value row l.relation.remote.field) := by
  have parts : completed values (before ++ (l, row) :: after) =
      completed ((completed values before).put l.relation.own.field (Row.value row l.relation.remote.field)) after := by
    unfold completed
    rw [List.foldl_append, List.foldl_cons]
  rw [parts]
  exact completedSpares (Record.putGives _ _ (completedNames names)) last

end Completed

end Creation

namespace Operation

/-- An operation after calls that each connect a relation with the row of a selector. A call that fails adds nothing. -/
def connected (registry : Registry Fetcher) (calls : List (Value × Predicate)) (o : Operation) : Operation :=
  calls.foldl (fun o call => ((Edit.connect registry call.1 call.2).runOn o).2) o

theorem connectedLookups (registry : Registry Fetcher) (e : Entity) (h : Handle) (calls : List (Value × Predicate))
    (creation : Creation) : connected registry calls ⟨e, h, false, .create creation⟩ =
      ⟨e, h, false, .create { creation with
        lookups := creation.lookups ++
          calls.filterMap fun call => (Creation.lookupFor registry e call.1 call.2).toOption }⟩ := by
  induction calls generalizing creation with
  | nil =>
    rw [List.filterMap_nil, List.append_nil]
    rfl
  | cons call rest ih =>
    unfold connected at ih ⊢
    rw [List.foldl_cons, List.filterMap_cons]
    have step : ((Edit.connect registry call.1 call.2).runOn ⟨e, h, false, .create creation⟩).2 =
        ⟨e, h, false, .create { creation with
          lookups := creation.lookups ++ (Creation.lookupFor registry e call.1 call.2).toOption.toList }⟩ := by
      have found : (Step.inspect fun (o : Operation) => Creation.lookupFor registry o.entity call.1 call.2).runOn
          ⟨e, h, false, .create creation⟩ =
            (Creation.lookupFor registry e call.1 call.2, ⟨e, h, false, .create creation⟩) := rfl
      unfold Edit.connect
      rw [Step.runBind, found]
      cases Creation.lookupFor registry e call.1 call.2 with
      | error f => exact congrArg (fun ls => Operation.mk e h false (.create { creation with lookups := ls })) (List.append_nil _).symm
      | ok l => rfl
    rw [step, ih]
    cases Creation.lookupFor registry e call.1 call.2 with
    | error f => simp [Except.toOption]
    | ok l => simp [Except.toOption]

end Operation

namespace Context

/-- The entities whose rows lookups ask for, one after another. -/
def AsksFor (c : Context) (lookups : List Lookup) (targets : List Entity) : Prop :=
  List.Forall₂ (fun l target => c.entityOf l.selector = .ok target) lookups targets

/-- The rows that lookups find in a session, one each. -/
def Resolves (c : Context) (s : Session Store) (lookups : List Lookup) (found : List Row) : Prop :=
  List.Forall₂ (fun l row => (c.lookup l.selector).answer s = some (some row)) lookups found

variable {c : Context} {e : Entity} {s t : Session Store}

/-- A selector that has been looked up names its field. -/
theorem lookupNamed {p : Predicate} {found : Option Row} (answered : (c.lookup p).answer s = some found) :
    ∃ name, p.fieldName.inserted = .ok name := by
  cases p with
  | field _ name _ _ => exact ⟨name, rfl⟩
  | group _ _ _ | related _ _ _ _ => exact ⟨"undefined", rfl⟩
  | foreign node =>
    obtain ⟨u, ran⟩ := answerRan answered
    obtain ⟨target, -, ran⟩ := Step.liftOk ran
    obtain ⟨condition, compiled, -⟩ := Step.liftOk ran
    obtain ⟨insensitive, -, compiled⟩ := Results.bindOk compiled
    obtain ⟨cs, listed, -⟩ := Results.bindOk compiled
    obtain ⟨tested, one, -⟩ := Results.bindOk listed
    unfold Predicate.compileOne at one
    obtain ⟨_, -, one⟩ := Results.bindOk one
    dsimp only at one
    unfold Predicate.foreignNode at one
    split at one
    · obtain ⟨f, named, -⟩ := Results.bindOk one
      change ∃ name, (node.member "field").inserted = .ok name
      cases field : node.member "field" with
      | text name => exact ⟨name, rfl⟩
      | _ =>
        rw [field] at named
        obtain ⟨_, -, named⟩ := Results.bindOk named
        cases named
    · obtain ⟨_, -, one⟩ := Results.bindOk one
      obtain ⟨_, refused, -⟩ := Results.bindOk one
      obtain ⟨_, -, refused⟩ := Results.bindOk refused
      cases refused
    · dsimp only at one
      split at one
      · obtain ⟨_, -, one⟩ := Results.bindOk one
        obtain ⟨_, -, one⟩ := Results.bindOk one
        cases one
      · obtain ⟨_, -, one⟩ := Results.bindOk one
        cases one

/-- A lookup that gives an answer asks for rows of the entity that its selector is about, and does nothing else. -/
theorem lookupRan {p : Predicate} {target : Entity} {found : Option Row} (alike : t.bare = s.bare)
    (meant : c.entityOf p = .ok target) (answered : (c.lookup p).answer s = some found) :
    (c.lookup p).runOn t = (.ok found, t.withBackend (t.backend.asked [target])) := by
  have writes : Writes (fun _ => False) (c.lookup p : Action Store (Option Row)) := c.lookupWrites p
  have again : (c.lookup p).answer t = some found := by
    unfold Action.answer at answered ⊢
    rwa [← writes.blind t, alike, writes.blind]
  obtain ⟨u, ran⟩ := answerRan again
  have compiles : ∃ condition, c.condition target [p] = .ok condition := by
    have asked := ran
    unfold lookup at asked
    rw [meant] at asked
    obtain ⟨_, same, asked⟩ := Step.liftOk asked
    cases same
    obtain ⟨condition, compiled, -⟩ := Step.liftOk asked
    exact ⟨condition, compiled⟩
  obtain ⟨condition, compiled⟩ := compiles
  have run := lookupRun (s := t) meant compiled
  rw [ran] at run
  rw [ran, (Prod.mk.inj run).2]
  rfl

theorem resolveAppend (c : Context) (e : Entity) (before rest : List Lookup) (values : Row) :
    (c.resolveLookups e (before ++ rest) values : Action Store Row) =
      c.resolveLookups e before values >>= c.resolveLookups e rest := by
  induction before generalizing values with
  | nil => rfl
  | cons l later ih =>
    rw [List.cons_append]
    unfold resolveLookups
    simp only [bind_assoc]
    refine congrArg _ (funext fun found => congrArg _ (funext fun field => ?_))
    cases found with
    | none => rfl
    | some row =>
      simp only [bind_assoc]
      exact congrArg _ (funext fun _ => ih _)

/-- Lookups that all find a row ask for one after the other and complete the values. -/
theorem resolveFound {lookups : List Lookup} {targets : List Entity} {found : List Row} (alike : t.bare = s.bare)
    (asks : c.AsksFor lookups targets)
    (finds : c.Resolves s lookups found) (values : Row) :
    ∃ u, (c.resolveLookups e lookups values).runOn t = (.ok (Creation.completed values (lookups.zip found)), u) ∧
      u.backend = t.backend.asked targets := by
  induction finds generalizing targets values t with
  | nil =>
    cases asks
    exact ⟨t, rfl, by simp [Store.asked]⟩
  | @cons l row rest found one finds ih =>
    obtain _ | @⟨_, target, _, targets, here, asks⟩ := asks
    obtain ⟨name, named⟩ := lookupNamed one
    have told : ({ t.withBackend (t.backend.asked [target]) with
        log := t.log ++ [(.db, s!"Resolved {e.name}.{l.relation.name} through {name}")] } : Session Store).bare = s.bare := alike
    obtain ⟨u, later, asked⟩ := ih told asks (values.put l.relation.own.field (Row.value row l.relation.remote.field))
    refine ⟨u, ?_, ?_⟩
    · unfold resolveLookups
      rw [Step.thenRun (lookupRan alike here one), named]
      exact later
    · rw [asked]
      simp [Store.asked, Session.withBackend]

/-- The first lookup that finds nothing ends the resolution, with an error that names its relation. -/
theorem resolveMissing {before : List Lookup} {l : Lookup} {targets : List Entity} {target : Entity} {found : List Row}
    (alike : t.bare = s.bare)
    (asks : c.AsksFor before targets)
    (last : c.entityOf l.selector = .ok target)
    (finds : c.Resolves s before found)
    (missing : (c.lookup l.selector).answer s = some none) (after : List Lookup) (values : Row) :
    ∃ name u, (c.resolveLookups e (before ++ l :: after) values).runOn t =
        (.error (.lookup l.relation.target name e.name l.relation.name), u) ∧
      l.selector.fieldName.inserted = .ok name ∧ u.backend = t.backend.asked (targets ++ [target]) := by
  obtain ⟨u, begun, asked⟩ := resolveFound (e := e) alike asks finds values
  obtain ⟨name, named⟩ := lookupNamed missing
  have still : u.bare = s.bare := by
    rw [← alike]
    unfold Session.bare
    rw [asked]
    rfl
  refine ⟨name, u.withBackend (u.backend.asked [target]), ?_, named, ?_⟩
  · rw [resolveAppend, Step.thenRun begun]
    unfold resolveLookups
    rw [Step.thenRun (lookupRan still last missing), named]
    rfl
  · change u.backend.asked [target] = _
    rw [asked]
    simp [Store.asked]

theorem insertRowJournal {data row : Row} (ran : (c.insertRow e data).runOn s = (.ok row, t)) :
    t.backend.journal = s.backend.journal ++ [(.insert, e.table)] := by
  unfold insertRow at ran
  obtain ⟨values, -, ran⟩ := Step.liftOk ran
  obtain ⟨_, -, ran⟩ := Step.liftOk ran
  obtain ⟨w, u, inserted, ran⟩ := Step.bindOk ran
  have recorded : u.backend.journal = s.backend.journal ++ [(.insert, e.table)] := by
    rw [Context.insertRun] at inserted
    obtain ⟨-, rfl⟩ := Prod.mk.inj inserted
    exact Store.insertJournal _ _
  split at ran
  · rw [Step.runLift] at ran
    rw [← (Prod.mk.inj ran).2, recorded]
  · cases ran

end Context

/-- A stored row holds, for every key that lookups name, what the last of them found, and the data as they were given for
all other fields. -/
structure Creation.Fills (e : Entity) (data : Row) (found : List (Lookup × Row)) (stored : Row) : Prop where
  looked : ∀ before l row after f, found = before ++ (l, row) :: after →
    (∀ p ∈ after, p.1.relation.own.field ≠ l.relation.own.field) → e.field? l.relation.own.field = some f →
      Row.value row l.relation.remote.field ≠ .absent →
        f.encode (Row.value row l.relation.remote.field) = .ok (Row.value stored f.column)
  given : ∀ f v, e.field? f.name = some f → (f.name, v) ∈ data → v ≠ .absent →
    (∀ p ∈ found, p.1.relation.own.field ≠ f.name) → f.encode v = .ok (Row.value stored f.column)

namespace Context

variable {c : Context} {e : Entity} {s t : Session Store} {data : Row} {creation : Creation}

/-- A creation of which all lookups find a row inserts the completed values and then changes related rows. -/
theorem createdFilled {given : Creation} {found : List Row} {targets : List Entity} {row : Row}
    (columns : Record.get? s.backend.fields e.table = some e.fields) (names : (e.fields.map (·.column)).Nodup)
    (members : data.names.Nodup) (asked : Creation.ofData c.registry e data = .ok given)
    (values : creation.values = given.values)
    (asks : c.AsksFor creation.lookups targets)
    (finds : c.Resolves s creation.lookups found)
    (ran : (c.create e creation).runOn s = (.ok row, t)) :
    ∃ old stored inserted, Record.get? s.backend.tables e.table = some old ∧
      inserted.backend.content = (s.backend.fields, Record.replace s.backend.tables e.table (old ++ [stored])) ∧
      inserted.backend.journal = (s.backend.asked targets).journal ++ [(.insert, e.table)] ∧
      (c.changeAll ⟨e, row⟩ creation.related).runOn inserted = (.ok (), t) ∧
      e.Reads stored row ∧ Creation.Fills e data (creation.lookups.zip found) stored := by
  obtain ⟨u, resolved, consulted⟩ := resolveFound (e := e) (t := s) rfl asks finds creation.values
  unfold create at ran
  rw [Step.thenRun resolved] at ran
  obtain ⟨returned, inserted, one, ran⟩ := Step.bindOk ran
  obtain ⟨_, final, changed, ran⟩ := Step.bindOk ran
  cases ran
  have sameFields : u.backend.fields = s.backend.fields := by rw [consulted]; rfl
  have sameTables : u.backend.tables = s.backend.tables := by rw [consulted]; rfl
  obtain ⟨encoded, old, stored, encoding, known, content, -, holds, reads⟩ := insertRowOk (sameFields ▸ columns) one
  rw [sameTables] at known
  rw [sameFields, sameTables] at content
  have written : ∀ {f : Field} {v : Value}, e.field? f.name = some f → v ≠ .absent →
      Record.Gives (Creation.completed creation.values (creation.lookups.zip found)) f.name v →
        f.encode v = .ok (Row.value stored f.column) := by
    intro f v field there gives
    obtain ⟨w, encodes, placed⟩ := Entity.encodeGives names field there gives encoding
    rw [encodes, holds f (Entity.fieldFound field).1 w placed]
  have ordered : creation.values.names.Nodup := values ▸ Creation.ofDataNames asked
  refine ⟨old, stored, inserted, known, content, ?_, changed, reads, ?_, ?_⟩
  · rw [insertRowJournal one, consulted]
  · intro before l row after f parts last field there
    obtain ⟨-, named⟩ := Entity.fieldFound field
    rw [parts] at written
    have gives := Creation.completedLast before row ordered last
    rw [← named] at field gives
    exact written field there gives
  · intro f v field mem there apart
    refine written field there (Creation.completedSpares ?_ apart)
    rw [values]
    exact Creation.ofDataGives field there members mem asked

theorem asksForKnown {lookups : List Lookup} (meant : ∀ l ∈ lookups, ∃ target, c.entityOf l.selector = .ok target) :
    ∃ targets, c.AsksFor lookups targets := by
  induction lookups with
  | nil => exact ⟨[], .nil⟩
  | cons l rest ih =>
    obtain ⟨⟨target, here⟩, later⟩ := List.forall_mem_cons.mp meant
    obtain ⟨targets, each⟩ := ih later
    exact ⟨target :: targets, .cons here each⟩

/-- A creation of which all lookups find a row comes to what a creation of the completed values comes to. -/
theorem createdAlike {found : List Row} {targets : List Entity} (asks : c.AsksFor creation.lookups targets)
    (finds : c.Resolves s creation.lookups found) :
    (c.create e creation : Action Store Row).outcome s =
      (c.create e ⟨Creation.completed creation.values (creation.lookups.zip found), [], creation.related⟩).outcome s := by
  obtain ⟨u, resolved, consulted⟩ := resolveFound (e := e) (t := s) rfl asks finds creation.values
  have same : u.bare = s.bare := by
    unfold Session.bare
    rw [consulted]
    rfl
  generalize completed : Creation.completed creation.values (creation.lookups.zip found) = values at resolved
  have writes : Writes (fun _ => True) (c.create e ⟨values, [], creation.related⟩ : Action Store Row) :=
    c.createWrites (fun _ => trivial) e _
  have later : (c.create e creation : Action Store Row).outcome s = (c.create e ⟨values, [], creation.related⟩).outcome u := by
    unfold Action.outcome create
    rw [Step.thenRun resolved]
    rfl
  rw [later, ← writes.blind u, same, writes.blind]

/-- A creation asks for the rows of its lookups, inserts a row behind those that were there, and then changes the rows
related to it. -/
def Adds (c : Context) (e : Entity) (creation : Creation) (s t : Session Store) (row stored : Row) : Prop :=
  ∃ targets old, ∃ inserted final : Session Store, c.AsksFor creation.lookups targets ∧
    Record.get? s.backend.tables e.table = some old ∧
    inserted.backend.content = (s.backend.fields, Record.replace s.backend.tables e.table (old ++ [stored])) ∧
    inserted.backend.journal = (s.backend.asked targets).journal ++ [(.insert, e.table)] ∧
    (c.changeAll ⟨e, row⟩ creation.related).runOn inserted = (.ok (), final) ∧
    t.backend.content = final.backend.content

/-- What a creation does in a transaction of its own, from what it does inside one. -/
theorem createRun (e : Entity) (creation : Creation) (quiet : s.IsQuiet) {start : Store} (opened : Backend.opened s.backend = .ok start) :
    (c.perform e (.create creation)).runOn s = settled s (((c.create e creation >>= fun row =>
        pure (Value.object row) : Action Store Value).runOn s).1, ((c.create e creation >>= fun row =>
      pure (Value.object row) : Action Store Value).runOn s).2.marked
        ⟨true, s.backend.commits, s.backend.rollbacks, s.operations⟩) :=
  performOpened (h := c.handle) (k := c.handle) nofun rfl quiet opened

/-- The first lookup that finds nothing ends a creation before anything is inserted, and the tables are restored. -/
theorem createdMissing {before after : List Lookup} {l : Lookup} {found : List Row} (quiet : s.IsQuiet) {start : Store}
    (opened : Backend.opened s.backend = .ok start)
    (meant : ∀ l ∈ creation.lookups, ∃ target, c.entityOf l.selector = .ok target)
    (parts : creation.lookups = before ++ l :: after) (finds : c.Resolves s before found)
    (missing : (c.lookup l.selector).answer s = some none) :
    ∃ name t targets, (c.perform e (.create creation)).runOn s =
        (.error (.lookup l.relation.target name e.name l.relation.name), t) ∧
      l.selector.fieldName.inserted = .ok name ∧ c.AsksFor (before ++ [l]) targets ∧
      t.backend.journal = (s.backend.asked targets).journal ∧
      t.backend.tables = Store.copiedTables s.backend.tables := by
  rw [parts] at meant
  obtain ⟨targets, asks⟩ := asksForKnown fun x mem => meant x (List.mem_append_left _ mem)
  obtain ⟨target, last⟩ := meant l (List.mem_append_right before List.mem_cons_self)
  obtain ⟨name, u, stopped, named, consulted⟩ :=
    resolveMissing (e := e) (t := s) rfl asks last finds missing after creation.values
  have ended : (c.create e creation).runOn s = (.error (.lookup l.relation.target name e.name l.relation.name), u) := by
    unfold create
    rw [parts, Step.stopRun stopped]
  have run := createRun (c := c) e creation quiet opened
  rw [Step.stopRun ended] at run
  refine ⟨name, _, targets ++ [target], run, named, List.rel_append asks (.cons last .nil), ?_, rfl⟩
  change u.backend.journal = _
  rw [consulted]

end Context

namespace Sample

def leader : Relation :=
  { name := "leader", kind := .belongsTo, target := "User", targetTable := "users", own := ⟨"lead", "lead_id"⟩,
    remote := ⟨"id", "id"⟩, foreignKeyType := some (.integer .i32), foreignKeyNullable := true }

/-- Users who store whom they are led by. -/
def member : Entity := { user with relations := [leader] }

def members : Context := ⟨⟨[member], []⟩, .pooled⟩

def named (name : String) : Predicate := .field "User" "name" (.compare .eq (.text name)) true

/-- Cy is to be led by the user of a name. -/
def ledBy (name : String) : Row := [("name", .text "Cy"), ("lead", .int 7), ("leader", (named name).toValue)]

def cy (lookups : List Lookup) : Creation := ⟨[("name", .text "Cy"), ("lead", .int 7)], lookups, []⟩

/-- Ann is stored, and a note that holds a key. -/
def noted : Session Store := session false [ann] [[("id", .int 1), ("data", .array [.key (.text "k")])]] []

def holdsKey (row : Row) : Bool :=
  match Row.value row "data" with
  | .array [.key _] => true
  | _ => false

end Sample

end EntityQuery
