import EntityQuery.Proofs.Footprints
import EntityQuery.Proofs.Transactions
/-! What comes of an operation: whether it succeeds, with which value, and what it leaves. None of it depends on the
journal of the store, on its counters, or on what has been told before, so that operations can be compared whose
statements differ. -/

namespace EntityQuery

/-- A store without its journal and its counters. -/
def Store.bare (s : Store) : Store := { s with journal := [], commits := 0, rollbacks := 0 }

/-- A session of which only what statements read and write is left. -/
def Session.bare (s : Session Store) : Session Store := ⟨s.backend.bare, [], [], []⟩

/-- What a run gives and leaves where it succeeds, none where it fails. -/
def Session.ended {α : Type} : Except Failure α × Session Store → Option (α × Session Store)
  | (.ok a, t) => some (a, t.bare)
  | (.error _, _) => none

def Action.outcome {α : Type} (step : Action Store α) (s : Session Store) : Option (α × Session Store) := Session.ended (step.runOn s)

/-- The value that a step gives where it succeeds. -/
def Action.answer {α : Type} (step : Action Store α) (s : Session Store) : Option α := (step.outcome s).map (·.1)

/-- A run that succeeds, from its outcome. -/
theorem Action.outcomeRan {α : Type} {step : Action Store α} {s t : Session Store} {a : α} (ended : step.outcome s = some (a, t)) :
    ∃ u, step.runOn s = (.ok a, u) ∧ u.bare = t := by
  unfold outcome Session.ended at ended
  split at ended
  · rename_i b u ran
    cases ended
    exact ⟨u, ran, rfl⟩
  · cases ended

/-- Where one of two steps that leave the same succeeds, the other one does. -/
theorem Action.leftRan {α β : Type} {step : Action Store α} {other : Action Store β} {s t : Session Store} {a : α}
    (same : (step.outcome s).map (·.2) = (other.outcome s).map (·.2)) (ran : step.runOn s = (.ok a, t)) :
    ∃ b u, other.runOn s = (.ok b, u) ∧ u.bare = t.bare := by
  have ended : step.outcome s = some (a, t.bare) := by
    unfold outcome
    rw [ran]
    rfl
  rw [ended] at same
  obtain ⟨⟨b, v⟩, done, left⟩ := Option.map_eq_some_iff.mp same.symm
  obtain ⟨u, ran', rfl⟩ := outcomeRan done
  exact ⟨b, u, ran', left⟩

namespace Store

theorem bareRelabels : Relabels bare := ⟨fun _ => rfl, fun _ => rfl, fun _ _ => rfl, fun _ _ => rfl⟩

theorem recordRelabels (kind : StatementKind) (table : String) : Relabels fun s => s.record kind table :=
  ⟨fun _ => rfl, fun _ => rfl, fun _ _ => rfl, fun _ _ => rfl⟩

theorem openRelabels (inTransaction : Bool) : Relabels fun s => { s with inTransaction } :=
  ⟨fun _ => rfl, fun _ => rfl, fun _ _ => rfl, fun _ _ => rfl⟩

/-- A statement that writes answers from what a bare store holds, and leaves a transaction open or not. -/
theorem runRelabeled {g : Store → Store} (relabels : Relabels g) (q : WriteStatement) (s : Store) :
    q.run (g s) = ((q.run s).1, g (q.run s).2) := by
  cases q with
  | insert q => exact insertRelabeled relabels q s
  | update q => exact updateRelabeled relabels q s
  | delete q => exact deleteRelabeled relabels q s

end Store

namespace Action

variable {α β : Type}

/-- The outcome of a statement that writes. -/
def written (q : WriteStatement) (s : Session Store) : Option (Written × Session Store) :=
  Session.ended ((q.run s.backend).1, s.withBackend (q.run s.backend).2)

theorem writtenRelabeled {g : Store → Store} (relabels : Store.Relabels g) (hidden : ∀ b, (g b).bare = b.bare)
    (q : WriteStatement) {s t : Session Store} (shown : t.backend = g s.backend) : written q t = written q s := by
  unfold written
  rw [shown, Store.runRelabeled relabels]
  rcases q.run s.backend with ⟨_ | w, t⟩
  · rfl
  · exact congrArg (fun b => some (w, Session.mk b [] [] [])) (hidden t)

theorem liftOutcome (r : Except Failure α) (next : α → Action Store β) (s : Session Store) :
    (liftM r >>= next).outcome s = r.toOption.bind fun a => (next a).outcome s := by
  cases r <;> rfl

theorem mapOutcome {step : Action Store α} (f : α → β) (s : Session Store) :
    (step >>= fun a => pure (f a)).outcome s = (step.outcome s).map fun r => (f r.1, r.2) := by
  unfold outcome
  rw [Step.runBind]
  rcases step.runOn s with ⟨_ | a, t⟩ <;> rfl

end Action

namespace Context

variable (c : Context) (s : Session Store)

theorem selectOutcome (q : Select) :
    (c.select q : Action Store (List Row)).outcome s = (s.backend.selectRows q).toOption.map fun rows => (rows, s.bare) := by
  have seen : (s.backend.record .select q.table).selectRows q = s.backend.selectRows q := rfl
  unfold Action.outcome
  rw [selectRun, seen]
  cases s.backend.selectRows q <;> rfl

theorem countOutcome (q : Count) :
    (c.count q : Action Store Number).outcome s = (s.backend.countRows q).toOption.map fun n => (.integer n, s.bare) := by
  have seen : (s.backend.record .count q.table).countRows q = s.backend.countRows q := rfl
  unfold Action.outcome
  rw [countRun, seen]
  cases s.backend.countRows q <;> rfl

theorem insertOutcome (q : Insert) : (c.insert q : Action Store Written).outcome s = Action.written (.insert q) s :=
  Action.writtenRelabeled (Store.recordRelabels .insert q.table) (fun _ => rfl) (.insert q)
    (s := s) (t := s.withBackend (s.backend.record .insert q.table)) rfl

theorem updateOutcome (q : Update) : (c.update q : Action Store Written).outcome s = Action.written (.update q) s :=
  Action.writtenRelabeled (Store.recordRelabels .update q.table) (fun _ => rfl) (.update q)
    (s := s) (t := s.withBackend (s.backend.record .update q.table)) rfl

theorem deleteOutcome (q : Delete) : (c.delete q : Action Store Written).outcome s = Action.written (.delete q) s :=
  Action.writtenRelabeled (Store.recordRelabels .delete q.table) (fun _ => rfl) (.delete q)
    (s := s) (t := s.withBackend (s.backend.record .delete q.table)) rfl

end Context

namespace Writes

variable {may : WriteStatement → Prop} {α β : Type} {s : Session Store}

theorem blind {step : Action Store α} (writes : Writes may step) (s : Session Store) : step.outcome s.bare = step.outcome s := by
  induction writes generalizing s with
  | pure a | tell channel text | noteFetch f => rfl
  | lift r => cases r <;> rfl
  | select c q =>
    rw [Context.selectOutcome, Context.selectOutcome]
    rfl
  | count c q =>
    rw [Context.countOutcome, Context.countOutcome]
    rfl
  | insert c q held =>
    rw [Context.insertOutcome, Context.insertOutcome]
    exact Action.writtenRelabeled Store.bareRelabels (fun _ => rfl) (.insert q) rfl
  | update c q held =>
    rw [Context.updateOutcome, Context.updateOutcome]
    exact Action.writtenRelabeled Store.bareRelabels (fun _ => rfl) (.update q) rfl
  | delete c q held =>
    rw [Context.deleteOutcome, Context.deleteOutcome]
    exact Action.writtenRelabeled Store.bareRelabels (fun _ => rfl) (.delete q) rfl
  | @bind _ _ step next first later before after =>
    have begun := before s
    unfold Action.outcome at begun ⊢
    rw [Step.runBind, Step.runBind]
    generalize step.runOn s = ran at begun ⊢
    generalize step.runOn s.bare = ran' at begun ⊢
    obtain ⟨_ | a, t⟩ := ran
    · obtain ⟨_ | b, u⟩ := ran'
      · rfl
      · cases begun
    · obtain ⟨_ | b, u⟩ := ran'
      · cases begun
      · obtain ⟨rfl, same⟩ := Prod.mk.inj (Option.some.inj begun)
        have first := after b u
        rw [same, after b t] at first
        exact first.symm

/-- What comes of two steps, one after the other, comes of the second from what the first one leaves. -/
theorem outcomeBind {step : Action Store α} {next : α → Action Store β} (later : ∀ a, Writes (fun _ => True) (next a)) :
    (step >>= next).outcome s = (step.outcome s).bind fun r => (next r.1).outcome r.2 := by
  unfold Action.outcome
  rw [Step.runBind]
  rcases step.runOn s with ⟨_ | a, t⟩
  · rfl
  · exact ((later a).blind t).symm

/-- What a step that succeeds leaves of the state of the transaction: all of it. -/
theorem joined {step : Action Store α} {a : α} {t : Session Store} (writes : Writes may step)
    (ran : step.outcome s = some (a, t)) : t.backend.inTransaction = s.backend.inTransaction := by
  have wrote : ∀ {q : WriteStatement} {s t : Session Store} {w : Written},
      Action.written q s = some (w, t) → t.backend.inTransaction = s.backend.inTransaction := by
    intro q s t w ran
    have run := Store.runRelabeled (Store.openRelabels s.backend.inTransaction) q s.backend
    unfold Action.written at ran
    change q.run s.backend = _ at run
    rw [run] at ran
    dsimp only at ran
    generalize q.run s.backend = done at ran
    obtain ⟨_ | w', after⟩ := done
    · cases ran
    · cases ran
      rfl
  induction writes generalizing s t with
  | pure a | tell channel text | noteFetch f =>
    cases ran
    rfl
  | lift r =>
    cases r with
    | error e => cases ran
    | ok a =>
      cases ran
      rfl
  | select c q =>
    obtain ⟨found, -, answer⟩ := Option.map_eq_some_iff.mp (c.selectOutcome s q ▸ ran)
    cases answer
    rfl
  | count c q =>
    obtain ⟨found, -, answer⟩ := Option.map_eq_some_iff.mp (c.countOutcome s q ▸ ran)
    cases answer
    rfl
  | insert c q held => exact wrote (c.insertOutcome s q ▸ ran)
  | update c q held => exact wrote (c.updateOutcome s q ▸ ran)
  | delete c q held => exact wrote (c.deleteOutcome s q ▸ ran)
  | bind first later before after =>
    rw [outcomeBind fun a => (later a).widen fun _ _ => trivial] at ran
    obtain ⟨⟨b, u⟩, begun, ended⟩ := Option.bind_eq_some_iff.mp ran
    exact (after b ended).trans (before begun)

theorem runJoined {step : Action Store α} {a : α} {t : Session Store} (writes : Writes may step)
    (ran : step.runOn s = (.ok a, t)) : t.backend.inTransaction = s.backend.inTransaction := by
  have ended : step.outcome s = some (a, t.bare) := by
    unfold Action.outcome
    rw [ran]
    rfl
  have same := writes.joined ended
  exact same

/-- A step that writes nothing leaves what it found. -/
theorem outcomeKeeps {step : Action Store α} {a : α} {t : Session Store} (writes : Writes (fun _ => False) step)
    (ran : step.outcome s = some (a, t)) : t = s.bare := by
  induction writes generalizing s t with
  | pure a | tell channel text | noteFetch f =>
    cases ran
    rfl
  | lift r =>
    cases r with
    | error e => cases ran
    | ok a =>
      cases ran
      rfl
  | select c q =>
    obtain ⟨found, -, answer⟩ := Option.map_eq_some_iff.mp (c.selectOutcome s q ▸ ran)
    cases answer
    rfl
  | count c q =>
    obtain ⟨found, -, answer⟩ := Option.map_eq_some_iff.mp (c.countOutcome s q ▸ ran)
    cases answer
    rfl
  | insert c q held | update c q held | delete c q held => exact held.elim
  | bind first later before after =>
    rw [outcomeBind fun a => (later a).widen fun _ _ => trivial] at ran
    obtain ⟨⟨b, u⟩, begun, ended⟩ := Option.bind_eq_some_iff.mp ran
    obtain rfl := before begun
    exact after b (((later b).blind s).symm.trans ended)

/-- What a step that writes nothing answers where it succeeds; it leaves what it found. -/
theorem outcomeAnswer {step : Action Store α} (writes : Writes (fun _ => False) step) (s : Session Store) :
    step.outcome s = (step.answer s).map fun a => (a, s.bare) := by
  unfold Action.answer
  cases ran : step.outcome s with
  | none => rfl
  | some r =>
    obtain ⟨a, t⟩ := r
    obtain rfl := writes.outcomeKeeps ran
    rfl

theorem answerBind {step : Action Store α} {next : α → Action Store β} (writes : Writes (fun _ => False) step)
    (later : ∀ a, Writes (fun _ => False) (next a)) (s : Session Store) :
    (step >>= next).answer s = (step.answer s).bind fun a => (next a).answer s := by
  unfold Action.answer
  rw [outcomeBind fun a => (later a).widen fun _ _ => trivial, writes.outcomeAnswer]
  unfold Action.answer
  cases step.outcome s with
  | none => rfl
  | some r => exact congrArg (Option.map _) ((later r.1).blind s)

theorem mapAnswer {f : α → Action Store β} (l : List α) (each : ∀ x, Writes (fun _ => False) (f x))
    (s : Session Store) : (l.mapM f).answer s = l.mapM fun x => (f x).answer s := by
  induction l with
  | nil => rfl
  | cons x rest ih =>
    rw [List.mapM_cons, List.mapM_cons, (each x).answerBind fun y => (mapAll rest each).bind fun ys => .pure _]
    refine Option.bind_congr fun y _ => ?_
    rw [(mapAll rest each).answerBind fun ys => .pure _, ih]
    rfl

end Writes

namespace Context

variable {α β : Type} {c : Context} {s : Session Store}

/-- Transactions leave the same when what is done in them does. -/
theorem transactionOutcome {work : Context → Action Store α} {other : Context → Action Store β}
    (same : ∀ k u, u.backend.content = s.backend.content → u.backend.inTransaction →
      ((work ⟨c.registry, k⟩).outcome u).map (·.2) = ((other ⟨c.registry, k⟩).outcome u).map (·.2)) :
    ((c.transaction work).outcome s).map (·.2) = ((c.transaction other).outcome s).map (·.2) := by
  cases joins : Backend.joins c.handle s.backend with
  | true =>
    unfold Action.outcome
    rw [transactionJoined joins, transactionJoined joins]
    exact same c.handle s rfl joins
  | false =>
    cases opened : Backend.opened s.backend with
    | error e =>
      unfold Action.outcome
      rw [transactionRefused joins opened, transactionRefused joins opened]
      rfl
    | ok start =>
      obtain rfl := openedTables opened
      have inside := same .bound (s.withBackend { s.backend with inTransaction := true }) rfl rfl
      unfold Action.outcome at inside ⊢
      rw [transactionOpened joins opened, transactionOpened joins opened]
      generalize (work ⟨c.registry, .bound⟩).runOn (s.withBackend { s.backend with inTransaction := true }) = done at inside ⊢
      generalize (other ⟨c.registry, .bound⟩).runOn (s.withBackend { s.backend with inTransaction := true }) = done' at inside ⊢
      obtain ⟨_ | a, t⟩ := done
      · obtain ⟨_ | b, u⟩ := done'
        · rfl
        · cases inside
      · obtain ⟨_ | b, u⟩ := done'
        · cases inside
        · have left : t.backend.bare = u.backend.bare := congrArg Session.backend (Option.some.inj inside)
          exact congrArg (fun b : Store => some (Session.mk { b with inTransaction := false } [] [] [])) left

/-- A write that opens a transaction of its own comes to what it comes to inside one, if the transaction can begin. -/
theorem performInside {e : Entity} {r : Request} (writes : r.kind ≠ .read) (opening : r.opens)
    (begins : s.backend.inTransaction ∨ ∃ start, Backend.opened s.backend = .ok start) :
    (c.perform e r : Action Store Value).outcome s = (c.inside e r).outcome s := by
  unfold Action.outcome
  cases joins : Backend.joins c.handle s.backend with
  | true => rw [performOpening c e opening, transactionJoined joins]
  | false =>
    have quiet : s.backend.inTransaction = false := joins
    obtain within | ⟨start, opened⟩ := begins
    · exact absurd (quiet.symm.trans within) Bool.false_ne_true
    have marks := insideMarks c.registry c.handle e s writes
    rw [performOpened (k := c.handle) writes opening quiet opened]
    change ((c.inside e r).runOn s).2.marks = _ at marks
    change Session.ended (settled s (((c.inside e r).runOn s).1, ((c.inside e r).runOn s).2.marked _)) = _
    generalize (c.inside e r).runOn s = ran at marks ⊢
    obtain ⟨_ | v, u⟩ := ran
    · rfl
    · have closed : u.backend.inTransaction = false := (congrArg Marks.inTransaction marks).trans quiet
      change some (v, (⟨{ u.backend.bare with inTransaction := false }, [], [], []⟩ : Session Store)) = some (v, u.bare)
      rw [← closed]
      rfl

end Context

end EntityQuery
