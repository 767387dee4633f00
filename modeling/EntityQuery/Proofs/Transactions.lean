import EntityQuery.Operation.Batch
import EntityQuery.Proofs.Alike
import EntityQuery.Proofs.Results
import EntityQuery.Proofs.SentStatements
/-! Writes inside and outside transactions. A write that opens a transaction of its own does there what it does
when it joins one; what is committed is that, and what is rolled back is a copy of what was there before. -/

namespace EntityQuery

namespace Value

mutual

/-- Has a value no key, no JSON null marker and no function in it? -/
def isData : Value → Bool
  | .jsonNull | .callable _ | .key _ => false
  | .array items => areData items
  | .object members => haveData members
  | .absent | .null | .bool _ | .number _ | .integer _ | .text _ | .date _ => true
termination_by structural v => v

def areData : List Value → Bool
  | [] => true
  | v :: rest => isData v && areData rest
termination_by structural items => items

def haveData : List (String × Value) → Bool
  | [] => true
  | (_, v) :: rest => isData v && haveData rest
termination_by structural members => members

end

end Value

namespace Store

mutual

theorem copiedData {v : Value} (data : v.isData) : copied v = v := by
  cases v with
  | array items => rw [copied, copiedDataItems (by simpa [Value.isData] using data)]
  | object members => rw [copied, copiedDataMembers (by simpa [Value.isData] using data)]
  | jsonNull | callable _ | key _ => cases data
  | _ => rfl

theorem copiedDataItems {items : List Value} (data : Value.areData items) : copiedItems items = items := by
  cases items with
  | nil => rfl
  | cons v rest =>
    obtain ⟨here, tail⟩ := Bool.and_eq_true_iff.mp data
    rw [copiedItems, copiedData here, copiedDataItems tail]

theorem copiedDataMembers {members : List (String × Value)} (data : Value.haveData members) :
    copiedMembers members = members := by
  cases members with
  | nil => rfl
  | cons pair rest =>
    obtain ⟨here, tail⟩ := Bool.and_eq_true_iff.mp data
    rw [copiedMembers, copiedData here, copiedDataMembers tail]

end

/-- Every stored value is data that a copy keeps. -/
def HoldsData (s : Store) : Prop := ∀ entry ∈ s.tables, ∀ row ∈ entry.2, ∀ pair ∈ row, pair.2.isData

theorem copiedTablesData {s : Store} (data : s.HoldsData) : copiedTables s.tables = s.tables := by
  have rowsKept : ∀ entry ∈ s.tables, (entry.1, entry.2.map (Record.mapValues copied)) = entry := by
    intro entry mem
    have kept : ∀ row ∈ entry.2, Record.mapValues copied row = row := by
      intro row inside
      have same : ∀ pair ∈ row, (pair.1, copied pair.2) = pair := by
        intro pair here
        rw [copiedData (data entry mem row inside pair here)]
      exact (List.map_congr_left same).trans (List.map_id row)
    rw [(List.map_congr_left kept).trans (List.map_id entry.2)]
  exact (List.map_congr_left rowsKept).trans (List.map_id s.tables)

end Store

namespace Request

def opens : Request → Bool
  | .create _ | .update .. | .upsert .. => true
  | _ => false

end Request

namespace Context

variable {σ : Type} [Backend σ]

def updateInside (c : Context) (e : Entity) (selector : Predicate) (mutations : List Mutation) : Action σ Row := do
  c.change e mutations (← c.requireRow e selector)

def upsertInside (c : Context) (e : Entity) (selector : Predicate) (creation : Creation)
    (mutations : List Mutation) : Action σ Row := do
  match ← c.lookup selector with
  | some row => c.change e mutations row
  | none =>
    Action.tell .db s!"Upsert on {e.name} found no row; creating"
    c.create e creation

def inside (c : Context) (e : Entity) (r : Request) : Action σ Value :=
  match r with
  | .create creation => do return .object (← c.create e creation)
  | .update selector mutations => do return .object (← c.updateInside e selector mutations)
  | .upsert selector creation mutations => do return .object (← c.upsertInside e selector creation mutations)
  | r => c.perform e r

theorem performBare (c : Context) (e : Entity) {r : Request} (bare : r.opens = false) :
    (c.perform e r : Action σ Value) = c.inside e r := by
  cases r with
  | create _ | update _ _ | upsert _ _ _ => cases bare
  | _ => rfl

/-- How a transaction that began in a state ends, by how its work ends. -/
def settled {α : Type} (s : Session σ) : Except Failure α × Session σ → Except Failure α × Session σ
  | (.ok a, after) => (.ok a, after.withBackend (Backend.committed s.backend after.backend))
  | (.error e, after) => (.error (Backend.adopt σ e), after.withBackend (Backend.rolledBack s.backend after.backend))

section Transaction

variable {α β : Type} {c : Context} {s : Session σ}

theorem transactionJoined (joins : Backend.joins c.handle s.backend) (work : Context → Action σ α) :
    (c.transaction work).runOn s = (work c).runOn s := by
  change (if Backend.joins c.handle s.backend then (work c).runOn s else _) = _
  rw [if_pos joins]

theorem transactionRefused (alone : Backend.joins c.handle s.backend = false) {e : Failure}
    (refused : Backend.opened s.backend = .error e) (work : Context → Action σ α) :
    (c.transaction work).runOn s = (.error e, s) := by
  unfold transaction Backend.transaction
  simp [Step.ofFunction, Step.runOn, alone, refused]

theorem transactionOpened (alone : Backend.joins c.handle s.backend = false) {start : σ}
    (opened : Backend.opened s.backend = .ok start) (work : Context → Action σ α) :
    (c.transaction work).runOn s = settled s ((work { c with handle := .bound }).runOn (s.withBackend start)) := by
  unfold transaction Backend.transaction
  simp only [Step.ofFunction, Step.runOn, alone, opened]
  rcases work { c with handle := .bound } (s.withBackend start) with ⟨r, t⟩
  cases r <;> rfl

/-- A transaction joins the one that it is in, cannot begin, or begins one of its own. -/
theorem transactionCases (c : Context) (work : Context → Action σ α) (s : Session σ) :
    (Backend.joins c.handle s.backend ∧ (c.transaction work).runOn s = (work c).runOn s) ∨
    (∃ e, (c.transaction work).runOn s = (.error e, s)) ∨
    ∃ start, Backend.opened s.backend = .ok start ∧
      (c.transaction work).runOn s = settled s ((work { c with handle := .bound }).runOn (s.withBackend start)) := by
  cases joins : Backend.joins c.handle s.backend with
  | true => exact .inl ⟨rfl, transactionJoined joins work⟩
  | false =>
    cases opened : Backend.opened s.backend with
    | error e => exact .inr (.inl ⟨e, transactionRefused joins opened work⟩)
    | ok start => exact .inr (.inr ⟨start, rfl, transactionOpened joins opened work⟩)

theorem transactionMap (c : Context) (work : Context → Action σ α) (f : α → β) (s : Session σ) :
    (do return f (← c.transaction work) : Action σ β).runOn s =
      (c.transaction fun c => do return f (← work c) : Action σ β).runOn s := by
  rw [Step.runBind]
  cases joins : Backend.joins c.handle s.backend with
  | true => rw [transactionJoined joins, transactionJoined joins, Step.runBind]
  | false =>
    cases opened : Backend.opened s.backend with
    | error e => rw [transactionRefused joins opened, transactionRefused joins opened]
    | ok start =>
      rw [transactionOpened joins opened, transactionOpened joins opened, Step.runBind]
      rcases (work { c with handle := .bound }).runOn (s.withBackend start) with ⟨r, t⟩
      cases r <;> rfl

end Transaction

theorem performOpening (c : Context) (e : Entity) {r : Request} (opening : r.opens) (s : Session σ) :
    (c.perform e r : Action σ Value).runOn s = (c.transaction fun c => c.inside e r : Action σ Value).runOn s := by
  cases r with
  | create creation => exact transactionMap c _ _ s
  | update selector mutations => exact transactionMap c _ _ s
  | upsert selector creation mutations => exact transactionMap c _ _ s
  | _ => cases opening

theorem insideSent (c : Context) (e : Entity) {r : Request} (writes : r.kind ≠ .read) :
    SentIn c (fun _ => True) (c.inside e r : Action σ Value) := by
  cases r with
  | find _ _ | count _ | aggregate _ | group _ => exact absurd rfl writes
  | create creation => exact .bind (c.createSent (fun _ => trivial) e creation) fun row => .pure _
  | createMany rows =>
    refine .bind ?_ fun n => .pure _
    unfold insertMany
    split
    · exact .pure _
    · exact .bind (.insert _ trivial) fun w => .pure _
  | update selector mutations =>
    refine .bind (.bind (c.requireRowSent e selector) fun row => ?_) fun row => .pure _
    exact c.changeSent (fun _ => trivial) e mutations row
  | updateMany filter assignments =>
    refine .bind (.liftBind fun condition _ => ?_) fun n => .pure _
    split
    · exact .count _
    · exact .bind (.update _ trivial) fun w => .pure _
  | upsert selector creation mutations =>
    refine .bind (.bind (c.lookupSent selector) fun found => ?_) fun row => .pure _
    cases found with
    | some row => exact c.changeSent (fun _ => trivial) e mutations row
    | none => exact .bind (.tell _ _) fun _ => c.createSent (fun _ => trivial) e creation
  | delete selector =>
    refine .bind (.liftBind fun condition _ => .bind (.delete _ trivial) fun w => ?_) fun row => .pure _
    split
    · exact .lift _
    · exact .liftBind fun _ _ => .liftBind fun _ _ => .lift (.error _)
  | deleteMany filter =>
    refine .bind (.liftBind fun condition _ => .bind (.delete _ trivial) fun w => .pure _) fun n => .pure _

theorem insideAlike (registry : Registry Fetcher) (h k : Handle) (e : Entity) {r : Request} (writes : r.kind ≠ .read) :
    Alike ((⟨registry, h⟩ : Context).inside e r) ((⟨registry, k⟩ : Context).inside e r) := by
  cases r with
  | find _ _ | count _ | aggregate _ | group _ => exact absurd rfl writes
  | create creation => exact .bind (createAlike registry h k e creation) fun row => .pure _
  | createMany rows => exact .bind (insertManyAlike registry h k e rows) fun n => .pure _
  | update selector mutations =>
    refine .bind (.bind (requireRowAlike registry h k e selector) fun row => ?_) fun row => .pure _
    exact changeAlike registry h k e mutations row
  | updateMany filter assignments => exact .bind (updateManyAlike registry h k e filter assignments) fun n => .pure _
  | upsert selector creation mutations =>
    refine .bind (.bind (lookupAlike registry h k selector) fun found => ?_) fun row => .pure _
    cases found with
    | none => exact .bind (.tell _ _) fun _ => createAlike registry h k e creation
    | some row => exact changeAlike registry h k e mutations row
  | delete selector => exact .bind (deleteOneAlike registry h k e selector) fun row => .pure _
  | deleteMany filter => exact .bind (deleteManyAlike registry h k e filter) fun n => .pure _

end Context

namespace Session

def IsQuiet (s : Session Store) : Prop := s.backend.inTransaction = false

/-- A session as it is inside a transaction that was opened after some others. -/
def during (commits rollbacks : Nat) (s : Session Store) : Session Store :=
  s.marked ⟨true, commits, rollbacks, s.operations⟩

theorem markedMarks (s : Session Store) : s.marked s.marks = s := rfl

end Session

namespace Context

variable {registry : Registry Fetcher} {h k : Handle} {e : Entity} {r : Request} {s t : Session Store}

theorem openedTables {b start : Store} (opened : Backend.opened b = .ok start) :
    start = { b with inTransaction := true } := by
  change Store.opened b = .ok start at opened
  unfold Store.opened at opened
  split at opened
  · obtain ⟨_, _, opened⟩ := Results.bindOk opened
    cases opened
  · cases opened
    rfl

/-- What a write that opens a transaction of its own does alone, from what it does in one that is open. -/
theorem performOpened (writes : r.kind ≠ .read) (opening : r.opens) (quiet : s.IsQuiet) {start : Store}
    (opened : Backend.opened s.backend = .ok start) :
    ((⟨registry, h⟩ : Context).perform e r).runOn s =
      settled s ((((⟨registry, k⟩ : Context).inside e r).runOn s).1,
        (((⟨registry, k⟩ : Context).inside e r).runOn s).2.marked
          ⟨true, s.backend.commits, s.backend.rollbacks, s.operations⟩) := by
  have alone : Backend.joins (⟨registry, h⟩ : Context).handle s.backend = false := quiet
  rw [performOpening _ e opening, transactionOpened alone opened, openedTables opened]
  have within := insideAlike registry .bound k e writes ⟨true, s.backend.commits, s.backend.rollbacks, s.operations⟩ s
  exact congrArg (settled s) within

theorem performDuring (writes : r.kind ≠ .read) (commits rollbacks : Nat) :
    ((⟨registry, k⟩ : Context).perform e r).runOn (s.during commits rollbacks) =
      ((((⟨registry, k⟩ : Context).inside e r).runOn s).1,
        (((⟨registry, k⟩ : Context).inside e r).runOn s).2.marked ⟨true, commits, rollbacks, s.operations⟩) := by
  have same := insideAlike registry k k e writes ⟨true, commits, rollbacks, s.operations⟩ s
  cases opening : r.opens with
  | true =>
    rw [performOpening _ e opening, transactionJoined rfl]
    exact same
  | false =>
    rw [performBare _ e opening]
    exact same

theorem insideMarks (registry : Registry Fetcher) (k : Handle) (e : Entity) (s : Session Store)
    (writes : r.kind ≠ .read) :
    (((⟨registry, k⟩ : Context).inside e r).runOn s).2.marks = s.marks := by
  have same := insideAlike registry k k e writes s.marks s
  rw [Session.markedMarks] at same
  have state := congrArg (fun result => result.2.marks) same
  exact state

theorem performBareAlone (writes : r.kind ≠ .read) (bare : r.opens = false) :
    ((⟨registry, h⟩ : Context).perform e r).runOn s = ((⟨registry, k⟩ : Context).inside e r).runOn s := by
  have same := insideAlike registry h k e writes s.marks s
  have marks := insideMarks registry k e s writes
  rw [Session.markedMarks, ← marks, Session.markedMarks] at same
  rw [performBare _ e bare, same]

/-- A write that succeeds alone succeeds in the same way inside a transaction. -/
theorem performOkDuring (k : Handle) (writes : r.kind ≠ .read) (quiet : s.IsQuiet) {v : Value}
    (alone : ((⟨registry, h⟩ : Context).perform e r).runOn s = (.ok v, t)) (commits rollbacks : Nat) :
    ((⟨registry, k⟩ : Context).perform e r).runOn (s.during commits rollbacks) = (.ok v, t.during commits rollbacks) ∧
      t.IsQuiet ∧ t.operations = s.operations := by
  have marks := insideMarks registry k e s writes
  rw [performDuring writes]
  cases opening : r.opens with
  | true =>
    have joins : Backend.joins (⟨registry, h⟩ : Context).handle s.backend = false := quiet
    cases opened : Backend.opened s.backend with
    | error f =>
      rw [performOpening _ e opening, transactionRefused joins opened] at alone
      cases alone
    | ok start =>
      rw [performOpened (k := k) writes opening quiet opened] at alone
      generalize ((⟨registry, k⟩ : Context).inside e r).runOn s = ended at alone ⊢
      obtain ⟨result, u⟩ := ended
      cases result with
      | error f => cases alone
      | ok w =>
        cases alone
        exact ⟨rfl, rfl, rfl⟩
  | false =>
    rw [performBareAlone (k := k) writes opening] at alone
    rw [alone] at marks ⊢
    have operations : t.operations = s.operations := congrArg Marks.operations marks
    have closed : t.backend.inTransaction = s.backend.inTransaction := congrArg Marks.inTransaction marks
    rw [Session.during, operations]
    exact ⟨rfl, closed.trans quiet, rfl⟩

/-- A write that fails alone, though its own transaction can begin, fails in the same way inside one. -/
theorem performErrorDuring (k : Handle) (writes : r.kind ≠ .read) (quiet : s.IsQuiet) {f : Failure}
    (alone : ((⟨registry, h⟩ : Context).perform e r).runOn s = (.error f, t))
    (begins : r.opens → ∃ start, Backend.opened s.backend = .ok start) (commits rollbacks : Nat) :
    ∃ u, ((⟨registry, k⟩ : Context).perform e r).runOn (s.during commits rollbacks) = (.error f, u) ∧
      u.operations = s.operations := by
  rw [performDuring writes]
  cases opening : r.opens with
  | true =>
    obtain ⟨start, opened⟩ := begins opening
    rw [performOpened (k := k) writes opening quiet opened] at alone
    generalize ((⟨registry, k⟩ : Context).inside e r).runOn s = ended at alone ⊢
    obtain ⟨result, u⟩ := ended
    cases result with
    | error g =>
      cases alone
      exact ⟨_, rfl, rfl⟩
    | ok w => cases alone
  | false =>
    rw [performBareAlone (k := k) writes opening] at alone
    rw [alone]
    exact ⟨_, rfl, rfl⟩

end Context

end EntityQuery
