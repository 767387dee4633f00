import EntityQuery.Proofs.Results
import Mathlib.Data.List.Forall2
/-! Lists that go through a computation item by item, and checks: computations that succeed exactly under a condition and
else fail with a fault of the schema. -/

namespace EntityQuery

namespace Results

variable {ε α β γ : Type}

theorem mapAllPaired {l : List α} {f : α → Except ε β} {out : List β} (ran : l.mapM f = .ok out) :
    List.Forall₂ (fun x y => f x = .ok y) l out := by
  induction l generalizing out with
  | nil =>
    cases ran
    exact .nil
  | cons x rest ih =>
    rw [List.mapM_cons] at ran
    obtain ⟨y, here, ran⟩ := bindOk ran
    obtain ⟨ys, later, ran⟩ := bindOk ran
    obtain rfl := Except.ok.inj ran
    exact .cons here (ih later)

variable {l : List α} {m : List β} {R : α → β → Prop}

theorem pairedLeft (paired : List.Forall₂ R l m) : ∀ x ∈ l, ∃ y ∈ m, R x y := by
  induction paired with
  | nil => exact nofun
  | cons first _ ih =>
    refine List.forall_mem_cons.mpr ⟨⟨_, List.mem_cons_self, first⟩, fun x mem => ?_⟩
    obtain ⟨y, there, related⟩ := ih x mem
    exact ⟨y, List.mem_cons_of_mem _ there, related⟩

theorem pairedRight (paired : List.Forall₂ R l m) : ∀ y ∈ m, ∃ x ∈ l, R x y := pairedLeft paired.flip

theorem pairedTrans {n : List γ} {S : β → γ → Prop} {T : α → γ → Prop} (first : List.Forall₂ R l m) (second : List.Forall₂ S m n)
    (both : ∀ x y z, R x y → S y z → T x z) : List.Forall₂ T l n := by
  induction first generalizing n with
  | nil =>
    cases second
    exact .nil
  | cons here _ ih =>
    cases second with
    | cons there others => exact .cons (both _ _ _ here there) (ih others)

theorem pairedMap {f : α → γ} {g : β → γ} (same : ∀ x y, R x y → f x = g y) (paired : List.Forall₂ R l m) : l.map f = m.map g := by
  induction paired with
  | nil => rfl
  | cons first _ ih => exact congrArg₂ List.cons (same _ _ first) ih

theorem pairedFilter {p : α → Bool} {q : β → Bool} (passes : ∀ x y, R x y → p x = q y) (paired : List.Forall₂ R l m) :
    List.Forall₂ R (l.filter p) (m.filter q) :=
  List.rel_filter (fun x y related => Bool.eq_iff_iff.mp (passes x y related)) paired

end Results

/-- A result that is there exactly under a condition, and is else a failure of one kind. -/
structure Settles {α : Type} (kind : Failure → Prop) (r : Except Failure α) (p : Prop) : Prop where
  exact : (∃ a, r = .ok a) ↔ p
  failure : ∀ f, r = .error f → kind f

namespace Settles

variable {α β : Type} {kind : Failure → Prop} {r : Except Failure α} {p q : Prop}

theorem congr (settles : Settles kind r p) (same : p ↔ q) : Settles kind r q := ⟨settles.exact.trans same, settles.failure⟩

theorem ok (a : α) : Settles kind (.ok a) True := by
  refine ⟨⟨fun _ => trivial, fun _ => ⟨a, rfl⟩⟩, ?_⟩
  rintro _ ⟨⟩

theorem refused {f : Failure} (meant : kind f) : Settles kind (.error f : Except Failure α) False := by
  refine ⟨⟨?_, False.elim⟩, ?_⟩
  · rintro ⟨_, ⟨⟩⟩
  · rintro _ ⟨⟩
    exact meant

/-- What follows a result is checked only where that is there, and may depend on it. -/
theorem follow {next : α → Except Failure β} {q : α → Prop} (failure : ∀ f, r = .error f → kind f)
    (later : ∀ a, r = .ok a → Settles kind (next a) (q a)) : Settles kind (r >>= next) (∃ a, r = .ok a ∧ q a) := by
  cases ran : r with
  | error f =>
    refine ⟨⟨nofun, nofun⟩, fun g same => ?_⟩
    cases same
    exact failure f ran
  | ok a =>
    have next := later a ran
    exact next.congr ⟨fun held => ⟨a, rfl, held⟩, fun ⟨_, same, held⟩ => Except.ok.inj same ▸ held⟩

theorem bind {next : α → Except Failure β} (first : Settles kind r p) (later : ∀ a, r = .ok a → Settles kind (next a) q) :
    Settles kind (r >>= next) (p ∧ q) :=
  (follow first.failure later).congr (by rw [← first.exact, exists_and_right])

theorem map {f : α → β} (settles : Settles kind r p) : Settles kind (do return f (← r)) p :=
  (settles.bind fun a _ => ok (f a)).congr (and_iff_left trivial)

theorem guarded {c : Prop} [Decidable c] {f : Failure} {next : PUnit → Except Failure α} (meant : kind f)
    (later : ¬ c → Settles kind (next ⟨⟩) p) : Settles kind (if c then throw f >>= next else next ⟨⟩) (¬ c ∧ p) := by
  split
  · rename_i held
    exact congr (refused meant) ⟨nofun, fun both => both.1 held⟩
  · rename_i held
    exact (later held).congr ⟨fun rest => ⟨held, rest⟩, fun both => both.2⟩

end Settles

/-- A result that is there exactly under a condition, and is else a fault of the schema. -/
structure Decides {α : Type} (r : Except Failure α) (p : Prop) : Prop where
  exact : (∃ a, r = .ok a) ↔ p
  fault : ∀ f, r = .error f → ∃ fault, f = .schema fault

namespace Decides

variable {α β : Type} {r : Except Failure α} {p q : Prop}

theorem iffSettles : Decides r p ↔ Settles (fun f => ∃ fault, f = .schema fault) r p :=
  ⟨fun decides => ⟨decides.exact, decides.fault⟩, fun settles => ⟨settles.exact, settles.failure⟩⟩

theorem congr (decides : Decides r p) (same : p ↔ q) : Decides r q := ⟨decides.exact.trans same, decides.fault⟩

theorem ok (a : α) : Decides (.ok a) True := iffSettles.mpr (.ok a)

theorem refused (fault : SchemaFault) : Decides (.error (.schema fault) : Except Failure α) False :=
  iffSettles.mpr (.refused ⟨fault, rfl⟩)

theorem bind {next : α → Except Failure β} (first : Decides r p) (later : ∀ a, r = .ok a → Decides (next a) q) :
    Decides (r >>= next) (p ∧ q) :=
  iffSettles.mpr ((iffSettles.mp first).bind fun a ran => iffSettles.mp (later a ran))

theorem each {l : List α} {f : α → Except Failure β} {p : α → Prop} (item : ∀ x ∈ l, Decides (f x) (p x)) :
    Decides (l.mapM f) (∀ x ∈ l, p x) := by
  induction l with
  | nil => exact (ok []).congr (by simp)
  | cons x rest ih =>
    have others := ih fun y mem => item y (List.mem_cons_of_mem x mem)
    rw [List.mapM_cons]
    refine ((item x List.mem_cons_self).bind fun y _ => others.bind fun ys _ => ok (y :: ys)).congr ?_
    rw [and_true, List.forall_mem_cons]

theorem guarded {c : Prop} [Decidable c] {fault : SchemaFault} {next : PUnit → Except Failure α}
    (later : ¬ c → Decides (next ⟨⟩) p) : Decides (if c then throw (.schema fault) >>= next else next ⟨⟩) (¬ c ∧ p) :=
  iffSettles.mpr (.guarded ⟨fault, rfl⟩ fun held => iffSettles.mp (later held))

theorem ofFault {r : Except SchemaFault α} (same : (∃ a, r = .ok a) ↔ p) : Decides (r.mapError Failure.schema) p := by
  cases r with
  | error fault => exact (refused fault).congr ⟨nofun, fun held => by simpa using same.mpr held⟩
  | ok a => exact (ok a).congr ⟨fun _ => same.mp ⟨a, rfl⟩, fun _ => trivial⟩

end Decides

end EntityQuery
