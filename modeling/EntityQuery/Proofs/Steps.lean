import EntityQuery.Session
/-! Steps on a state, one after another: what a step that is made of others does is read off from what they
do. -/

namespace EntityQuery.Step

variable {σ τ α β : Type} {s u : σ}

theorem runBind (step : Step σ α) (next : α → Step σ β) (s : σ) :
    (step >>= next).runOn s =
      match step.runOn s with
      | (.ok a, t) => (next a).runOn t
      | (.error e, t) => (.error e, t) := by
  unfold runOn
  simp only [bind, ExceptT.bind, ExceptT.mk, StateT.bind]
  rcases step s with ⟨r, t⟩
  cases r <;> rfl

theorem runLift (r : Except Failure α) (s : σ) : (liftM r : Step σ α).runOn s = (r, s) := rfl

theorem mapLift (f : α → Except Failure β) (l : List α) :
    (l.mapM fun x => (liftM (f x) : Step σ β)) = liftM (l.mapM f) := by
  induction l with
  | nil => rfl
  | cons x rest ih =>
    rw [List.mapM_cons, List.mapM_cons, ih]
    cases f x with
    | error e => rfl
    | ok y => cases rest.mapM f <;> rfl

theorem runCatch (step : Step σ α) (handler : Failure → Step σ α) (s : σ) :
    (tryCatch step handler).runOn s =
      match step.runOn s with
      | (.ok a, t) => (.ok a, t)
      | (.error e, t) => (handler e).runOn t := by
  unfold runOn
  simp only [tryCatch, tryCatchThe, MonadExceptOf.tryCatch, ExceptT.tryCatch, ExceptT.mk, bind, StateT.bind]
  rcases step s with ⟨r, t⟩
  cases r <;> rfl

/-- What is done in the end is done however the step before it ends, and fails instead of it. -/
theorem runFinally (step : Step σ α) (done : Step σ Unit) (s : σ) :
    (tryFinally step done).runOn s =
      match done.runOn (step.runOn s).2 with
      | (.ok _, u) => ((step.runOn s).1, u)
      | (.error e, u) => (.error e, u) := by
  unfold runOn
  simp only [tryFinally, tryFinally', ExceptT.mk, bind, Functor.map, ExceptT.map, StateT.bind]
  generalize step s = ran
  obtain ⟨r, t⟩ := ran
  cases r <;>
  · dsimp only [pure]
    generalize done t = ended
    obtain ⟨q, u⟩ := ended
    cases q <;> rfl

/-- Work that is told about by how it ends, and whose failure is passed on. -/
theorem tryRun (work : Step σ α) (told : Step σ Unit) (failing : Failure → Step σ Unit) (s : σ) :
    (do
      try
        let results ← work
        told
        return results
      catch e =>
        failing e
        throw e : Step σ α).runOn s =
      match (work >>= fun r => told >>= fun _ => pure r).runOn s with
      | (.error e, t) => (failing e >>= fun _ => throw e).runOn t
      | (.ok a, t) => (.ok a, t) := by
  rw [runBind work]
  unfold runOn
  simp only [tryCatch, tryCatchThe, MonadExceptOf.tryCatch, ExceptT.tryCatch, ExceptT.mk, bind, StateT.bind, ExceptT.bind]
  rcases work s with ⟨r, t⟩
  cases r with
  | error e =>
    dsimp [ExceptT.bindCont, pure, StateT.pure, bind, StateT.bind, EarlyReturn.runK]
    rcases failing e t with ⟨r, u⟩
    cases r <;> rfl
  | ok a =>
    dsimp [ExceptT.bindCont, pure, StateT.pure, bind, StateT.bind, EarlyReturn.runK]
    rcases told t with ⟨r, u⟩
    cases r with
    | error e =>
      dsimp [ExceptT.bindCont, pure, StateT.pure, bind, StateT.bind, EarlyReturn.runK]
      rcases failing e u with ⟨r, v⟩
      cases r <;> rfl
    | ok _ => rfl

theorem bindOk {step : Step σ α} {next : α → Step σ β} {b : β} (h : (step >>= next).runOn s = (.ok b, u)) :
    ∃ a t, step.runOn s = (.ok a, t) ∧ (next a).runOn t = (.ok b, u) := by
  rw [runBind] at h
  split at h
  · rename_i a t first
    exact ⟨a, t, first, h⟩
  · cases h

theorem bindError {step : Step σ α} {next : α → Step σ β} {e : Failure} (h : (step >>= next).runOn s = (.error e, u)) :
    step.runOn s = (.error e, u) ∨ ∃ a t, step.runOn s = (.ok a, t) ∧ (next a).runOn t = (.error e, u) := by
  rw [runBind] at h
  split at h
  · rename_i a t first
    exact .inr ⟨a, t, first, h⟩
  · rename_i first
    cases h
    exact .inl first

/-- What holds after a step that stops, and after what follows one that does not, holds in the end. -/
theorem bindLeaves {P : σ → Prop} {step : Step σ α} {next : α → Step σ β} (first : P (step.runOn s).2)
    (later : ∀ a t, step.runOn s = (.ok a, t) → P t → P ((next a).runOn t).2) : P ((step >>= next).runOn s).2 := by
  rw [runBind]
  cases ran : step.runOn s with
  | mk r t =>
    rw [ran] at first
    cases r with
    | error e => exact first
    | ok a => exact later a t ran first

theorem liftOk {r : Except Failure α} {next : α → Step σ β} {b : β} (h : (liftM r >>= next).runOn s = (.ok b, u)) :
    ∃ a, r = .ok a ∧ (next a).runOn s = (.ok b, u) := by
  obtain ⟨a, t, first, later⟩ := bindOk h
  rw [runLift] at first
  cases first
  exact ⟨a, rfl, later⟩

theorem liftError {r : Except Failure α} {next : α → Step σ β} {e : Failure}
    (h : (liftM r >>= next).runOn s = (.error e, u)) :
    (r = .error e ∧ u = s) ∨ ∃ a, r = .ok a ∧ (next a).runOn s = (.error e, u) := by
  cases r with
  | error f =>
    cases h
    exact .inl ⟨rfl, rfl⟩
  | ok a => exact .inr ⟨a, rfl, h⟩

theorem thenRun {step : Step σ α} {next : α → Step σ β} {a : α} {t : σ} (h : step.runOn s = (.ok a, t)) :
    (step >>= next).runOn s = (next a).runOn t := by
  rw [runBind, h]

theorem thenInspect (f : σ → α) (next : α → Step σ β) :
    (inspect (fun s => .ok (f s)) >>= next).runOn s = (next (f s)).runOn s := rfl

theorem stopRun {step : Step σ α} {next : α → Step σ β} {e : Failure} {t : σ} (h : step.runOn s = (.error e, t)) :
    (step >>= next).runOn s = (.error e, t) := by
  rw [runBind, h]

end EntityQuery.Step
