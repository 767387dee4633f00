import EntityQuery.Registry
import Mathlib.Algebra.GroupWithZero.Nat
import Mathlib.Algebra.Order.BigOperators.Group.List
import Mathlib.Algebra.Order.Group.Nat
/-! Where a registry keeps the fetchers of entities. A fetcher is kept under the name of the entity that is meant, and under the
whole given name where none is meant, but looked for under the last segment of a name then. -/

namespace EntityQuery

namespace Text

theorem lowerFilled (c : Char) : 0 < (lowerChar c).length := by
  unfold lowerChar
  split
  · exact Nat.one_pos
  · split <;> exact Nat.succ_pos _

/-- What stands around a letter decides which lower case form it takes, but not how long that is. -/
theorem lowerLength (before cs : List Char) : (lowerFrom before cs).length = (cs.map fun c => (lowerChar c).length).sum := by
  induction cs generalizing before with
  | nil => rfl
  | cons c rest ih =>
    unfold lowerFrom
    dsimp only
    rw [List.length_append, ih, List.map_cons, List.sum_cons]
    split
    · next ending =>
      have sigma : (lowerChar c).length = 1 := by simp [lowerChar, ending.1]
      rw [sigma]
      rfl
    · rfl

/-- A text with the lower case form of a part of it is that part. -/
theorem lowerSublist {before after cs ds : List Char} (part : cs.Sublist ds) (same : lowerFrom before cs = lowerFrom after ds) :
    cs = ds := by
  have lengths : (cs.map fun c => (lowerChar c).length).sum = (ds.map fun c => (lowerChar c).length).sum := by
    rw [← lowerLength before, ← lowerLength after, same]
  clear same
  induction part with
  | slnil => rfl
  | @cons cs ds c part ih =>
    have shorter := (part.map fun c => (lowerChar c).length).sum_le_sum fun n _ => Nat.zero_le n
    have filled := lowerFilled c
    rw [List.map_cons, List.sum_cons] at lengths
    omega
  | @cons_cons cs ds c part ih =>
    rw [List.map_cons, List.map_cons, List.sum_cons, List.sum_cons] at lengths
    rw [ih (by omega)]

theorem trimSublist (cs : List Char) : (trimChars cs).Sublist cs := by
  unfold trimChars
  have back := ((List.dropWhile_sublist (l := (cs.dropWhile isBlank).reverse) isBlank).reverse)
  rw [List.reverse_reverse] at back
  exact back.trans (List.dropWhile_sublist isBlank)

end Text

namespace Name

theorem splitSublist {current cs part : List Char} (mem : part ∈ splitFrom current cs) : part.Sublist (current.reverse ++ cs) := by
  fun_induction splitFrom current cs with
  | case1 current =>
    obtain rfl := List.mem_singleton.mp mem
    simp
  | case2 current rest ih =>
    rcases List.mem_cons.mp mem with rfl | later
    · exact List.sublist_append_left _ _
    · exact (ih later).trans ((List.sublist_append_right (current.reverse ++ [':', ':']) rest).trans (by simp))
  | case3 current rest _ ih =>
    rcases List.mem_cons.mp mem with rfl | later
    · exact List.sublist_append_left _ _
    · exact (ih later).trans ((List.sublist_append_right (current.reverse ++ ['.']) rest).trans (by simp))
  | case4 current c rest _ _ ih => simpa using ih mem

theorem lastSublist (s : String) : (lastSegment s).toList.Sublist s.toList := by
  unfold lastSegment
  cases last : (segments s).getLast? with
  | none => exact List.Sublist.refl _
  | some segment =>
    obtain ⟨part, mem, kept⟩ := List.mem_filterMap.mp (List.mem_of_getLast? last)
    obtain ⟨whole, inside, rfl⟩ := List.mem_map.mp mem
    split at kept
    · cases kept
    · cases kept
      rw [Option.getD_some, String.toList_ofList]
      exact (Text.trimSublist whole).trans (splitSublist inside)

theorem lastOfLower {s : String} : Text.toLower s = Text.toLower (lastSegment s) ↔ lastSegment s = s := by
  refine ⟨fun same => ?_, fun bare => by rw [bare]⟩
  exact String.toList_injective (Text.lowerSublist (lastSublist s) (String.ofList_injective same).symm)

end Name

namespace Registry

variable {φ : Type}

/-- The registry has a fetcher for a name, and it is this one. -/
def Finds (r : Registry φ) (name : String) (f : φ) : Prop := r.fetcher name = .ok f ∧ r.hasFetcher name

theorem fetcherRegistered (r : Registry φ) (name other : String) (f : φ) : (r.registerFetcher name f).fetcher? other =
    if Text.toLower (r.fetcherName name name) = Text.toLower (r.fetcherName other (Name.lastSegment other)) then some f
    else r.fetcher? other := by
  change ((r.registerFetcher name f).lookupFetcher? (Text.toLower (r.fetcherName other (Name.lastSegment other)))) = _
  unfold lookupFetcher? registerFetcher
  rw [List.find?_cons]
  dsimp only
  split
  · next same => rw [if_pos (eq_of_beq same)]; rfl
  · next apart => rw [if_neg (by simpa using apart)]; rfl

theorem findsIff {r : Registry φ} {name : String} {f : φ} : r.Finds name f ↔ r.fetcher? name = some f := by
  unfold Finds hasFetcher fetcher
  cases r.fetcher? name <;> simp

/-- A fetcher that was registered for an entity is found by every name that means the entity. One that was registered for
any other name is found by it exactly when the name is its own last segment; else there is for the name what was there before. -/
theorem fetcherFound (r : Registry φ) (name : String) (f : φ) :
    (∀ e, r.get? name = some e → ∀ other, r.get? other = some e → (r.registerFetcher name f).Finds other f) ∧
      (r.get? name = none → if Name.lastSegment name = name then (r.registerFetcher name f).Finds name f
        else (r.registerFetcher name f).fetcher name = r.fetcher name ∧
          (r.registerFetcher name f).hasFetcher name = r.hasFetcher name) := by
  refine ⟨fun e means other too => ?_, fun unknown => ?_⟩
  · rw [findsIff, fetcherRegistered]
    simp [fetcherName, means, too]
  · have kept : r.fetcherName name name = name ∧ r.fetcherName name (Name.lastSegment name) = Name.lastSegment name := by
      simp [fetcherName, unknown]
    have found := fetcherRegistered r name name f
    simp only [kept.1, kept.2, Name.lastOfLower] at found
    split
    · next bare => rw [findsIff, found, if_pos bare]
    · next apart =>
      rw [if_neg apart] at found
      unfold fetcher hasFetcher
      rw [found]
      exact ⟨rfl, rfl⟩

/-- A registry that knows notes. -/
def ofNotes : Registry String :=
  let key : Field := ⟨"id", "id", "i32", .integer .i32, false, true, true, true, none⟩
  ⟨[⟨"Note", "notes", key, [key], [], [], []⟩], []⟩

/-- The fetcher of notes is found by all of their names. For a ghost, of which the registry knows nothing, a fetcher is found by the
bare name alone: registered under a longer name it is lost. -/
theorem fetcherFoundOfNotes : (ofNotes.get? "blog::note").map (·.name) = some "Note" ∧
    (ofNotes.registerFetcher "blog::note" "f").Finds "Note" "f" ∧
    ofNotes.get? "Ghost" = none ∧ (ofNotes.registerFetcher "Ghost" "f").Finds "Ghost" "f" ∧
    ofNotes.get? "blog::Ghost" = none ∧ (ofNotes.registerFetcher "blog::Ghost" "f").hasFetcher "blog::Ghost" = false := by
  have same : ofNotes.get? "blog::note" = ofNotes.get? "Note" := by rfl
  have named : (ofNotes.get? "blog::note").map (·.name) = some "Note" := by decide +kernel
  have ghost : ofNotes.get? "Ghost" = none := by rfl
  have longer : ofNotes.get? "blog::Ghost" = none := by rfl
  obtain ⟨e, means, -⟩ := Option.map_eq_some_iff.mp named
  have bare := (fetcherFound ofNotes "Ghost" "f").2 ghost
  have lost := (fetcherFound ofNotes "blog::Ghost" "f").2 longer
  rw [if_pos (by decide +kernel)] at bare
  rw [if_neg (by decide +kernel)] at lost
  exact ⟨named, (fetcherFound ofNotes "blog::note" "f").1 e means "Note" (same ▸ means), ghost, bare, longer,
    lost.2.trans (by decide +kernel)⟩

end Registry

end EntityQuery
