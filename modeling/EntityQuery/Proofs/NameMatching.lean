import EntityQuery.Proofs.DigitTexts
import EntityQuery.Proofs.ReorderedSchemas
/-! Names that mean one entity. Entities are told apart by their names without underscores and case, and Pascal case changes
nothing of these, so that a registry finds the entity to which a relation is resolved, and none where the schema has none. -/

namespace EntityQuery

namespace Name

/-- A letter, a digit or an underscore. -/
def isWord (c : Char) : Bool := c.isAlphanum || c == '_'

def isMark (c : Char) : Bool := c == '.' || c == ':'

/-- Words with separators before, between and behind them. -/
inductive Path : List Char → Prop where
  | nil : Path []
  | word {c : Char} {rest : List Char} : isWord c → Path rest → Path (c :: rest)
  | dot {rest : List Char} : Path rest → Path ('.' :: rest)
  | colons {rest : List Char} : Path rest → Path (':' :: ':' :: rest)

def isPath : List Char → Bool
  | [] => true
  | ':' :: ':' :: rest => isPath rest
  | c :: rest => (c == '.' || isWord c) && isPath rest

theorem isPathIff {cs : List Char} : isPath cs ↔ Path cs := by
  constructor
  · intro path
    fun_induction isPath cs with
    | case1 => exact .nil
    | case2 rest ih => exact .colons (ih path)
    | case3 c rest _ ih =>
      obtain ⟨here, later⟩ := Bool.and_eq_true_iff.mp path
      rcases Bool.or_eq_true_iff.mp here with dot | letter
      · obtain rfl := eq_of_beq dot
        exact .dot (ih later)
      · exact .word letter (ih later)
  · intro path
    induction path with
    | nil => rfl
    | @word c rest letter path ih =>
      have apart : ∀ others, c = ':' → rest = ':' :: others → False := by
        rintro others rfl -
        cases letter
      rw [isPath.eq_3 c rest apart, letter, ih, Bool.or_true]
      rfl
    | dot path ih => exact ih
    | colons path ih => exact ih

instance (cs : List Char) : Decidable (Path cs) := decidable_of_iff _ isPathIff

def Words (cs : List Char) : Prop := ∀ c ∈ cs, isWord c

instance (cs : List Char) : Decidable (Words cs) := List.decidableBAll _ cs

def Marks (cs : List Char) : Prop := ∀ c ∈ cs, isMark c

section Characters

variable {c : Char}

theorem asciiAll {p : Char → Prop} (table : ∀ n < 128, p (Char.ofNat n)) (ascii : c.toNat < 128) : p c := by
  have here := table c.toNat ascii
  rwa [Char.ofNat_toNat] at here

theorem wordAscii (word : isWord c) : c.toNat < 128 := by
  have below {last : Char} (ascii : last.toNat < 128) (most : c.val ≤ last.val) : c.toNat < 128 :=
    lt_of_le_of_lt (UInt32.le_iff_toNat_le.mp most) ascii
  rcases Bool.or_eq_true_iff.mp word with letterOrDigit | underscore
  · rcases Bool.or_eq_true_iff.mp letterOrDigit with letter | digit
    · rcases Bool.or_eq_true_iff.mp letter with upper | lower
      · exact @below 'Z' (by decide) (of_decide_eq_true upper).2
      · exact @below 'z' (by decide) (of_decide_eq_true (Bool.and_eq_true_iff.mp lower).2)
    · exact @below '9' (by decide) (of_decide_eq_true (Bool.and_eq_true_iff.mp digit).2)
  · rw [eq_of_beq underscore]
    decide

theorem wordKept (word : isWord c) : isSeparator c = false ∧ Text.isBlank c = false ∧ isMark c = false ∧
    isWord c.toLower ∧ isWord c.toUpper :=
  asciiAll (p := fun c => isWord c → isSeparator c = false ∧ Text.isBlank c = false ∧ isMark c = false ∧
    isWord c.toLower ∧ isWord c.toUpper) (by decide +kernel) (wordAscii word) word

theorem markKept (mark : isMark c) : c.toNat < 128 ∧ isUpper c = false ∧ isSeparator c = false ∧ c ≠ '_' ∧
    c.toLower = c ∧ c.toUpper = c := by
  simp only [isMark, Bool.or_eq_true, beq_iff_eq] at mark
  rcases mark with rfl | rfl <;> decide

theorem asciiCase (ascii : c.toNat < 128) : (c.toLower != '_') = (c != '_') ∧ (c.toUpper != '_') = (c != '_') ∧
    c.toLower.toLower = c.toLower ∧ c.toUpper.toLower = c.toLower :=
  asciiAll (p := fun c => (c.toLower != '_') = (c != '_') ∧ (c.toUpper != '_') = (c != '_') ∧
    c.toLower.toLower = c.toLower ∧ c.toUpper.toLower = c.toLower) (by decide +kernel) ascii

/-- A character of paths: within ASCII, and neither a hyphen nor a blank. -/
def Solid (c : Char) : Prop := c.toNat < 128 ∧ isSeparator c = false

theorem wordIsSolid (word : isWord c) : Solid c := ⟨wordAscii word, (wordKept word).1⟩

theorem markIsSolid (mark : isMark c) : Solid c := ⟨(markKept mark).1, (markKept mark).2.2.1⟩

end Characters

section Folding

variable {cs ds : List Char}

/-- What is left of a text without underscores and case. -/
def folded (cs : List Char) : List Char := (cs.filter (· != '_')).map Char.toLower

theorem foldedAppend (cs ds : List Char) : folded (cs ++ ds) = folded cs ++ folded ds := by simp [folded]

theorem foldedUnderscore (cs : List Char) : folded ('_' :: cs) = folded cs := rfl

theorem foldedCons (c : Char) (same : folded cs = folded ds) : folded (c :: cs) = folded (c :: ds) := by
  unfold folded at *
  rw [List.filter_cons, List.filter_cons]
  split <;> simp [same]

theorem lowerAscii {before : List Char} (ascii : ∀ c ∈ cs, c.toNat < 128) : Text.lowerFrom before cs = cs.map Char.toLower := by
  induction cs generalizing before with
  | nil => rfl
  | cons c rest ih =>
    obtain ⟨here, later⟩ := List.forall_mem_cons.mp ascii
    have letter : c.toNat ≠ 0x3A3 := by omega
    simp [Text.lowerFrom, Text.lowerChar, ih later, here, letter]

theorem foldedLower (ascii : ∀ c ∈ cs, c.toNat < 128) : folded (cs.map Char.toLower) = folded cs := by
  induction cs with
  | nil => rfl
  | cons c rest ih =>
    obtain ⟨here, later⟩ := List.forall_mem_cons.mp ascii
    have own := ih later
    obtain ⟨kept, -, twice, -⟩ := asciiCase here
    unfold folded at own ⊢
    rw [List.map_cons, List.filter_cons, List.filter_cons, kept]
    split
    · rw [List.map_cons, List.map_cons, own, twice]
    · exact own

theorem normalizeFolded {s : String} (ascii : ∀ c ∈ s.toList, c.toNat < 128) : normalize s = String.ofList (folded s.toList) := by
  unfold normalize Text.toLower
  rw [String.toList_ofList, lowerAscii fun c mem => ascii c (List.mem_filter.mp mem).1]
  rfl

/-- Names that differ at most in case are one name without case and underscores. -/
theorem foldedOfLower {s t : String} (hs : ∀ c ∈ s.toList, c.toNat < 128) (ht : ∀ c ∈ t.toList, c.toNat < 128)
    (same : Text.toLower s = Text.toLower t) : folded s.toList = folded t.toList := by
  have chars := String.ofList_injective same
  rw [lowerAscii hs, lowerAscii ht] at chars
  rw [← foldedLower hs, chars, foldedLower ht]

end Folding

section Snake

variable {cs : List Char} {c : Char}

theorem acronymsMem {after : Bool} (mem : c ∈ splitAcronyms after cs) : c = '_' ∨ c ∈ cs := by
  induction cs generalizing after with
  | nil => cases mem
  | cons d rest ih =>
    unfold splitAcronyms at mem
    dsimp only at mem
    split at mem <;> simp only [List.mem_cons] at mem ⊢ <;> grind

theorem capitalsMem {after : Bool} (mem : c ∈ splitCapitals after cs) : c = '_' ∨ c ∈ cs := by
  induction cs generalizing after with
  | nil => cases mem
  | cons d rest ih =>
    unfold splitCapitals at mem
    dsimp only at mem
    split at mem <;> simp only [List.mem_cons] at mem ⊢ <;> grind

theorem acronymsFolded (after : Bool) (cs : List Char) : folded (splitAcronyms after cs) = folded cs := by
  induction cs generalizing after with
  | nil => rfl
  | cons c rest ih =>
    unfold splitAcronyms
    extract_lets startsWord
    split
    · rw [foldedUnderscore]
      exact foldedCons c (ih _)
    · exact foldedCons c (ih _)

theorem capitalsFolded (after : Bool) (cs : List Char) : folded (splitCapitals after cs) = folded cs := by
  induction cs generalizing after with
  | nil => rfl
  | cons c rest ih =>
    unfold splitCapitals
    dsimp only
    split
    · rw [foldedUnderscore]
      exact foldedCons c (ih _)
    · exact foldedCons c (ih _)

theorem separatorsNone {after : Bool} (solid : ∀ c ∈ cs, isSeparator c = false) : joinSeparators after cs = cs := by
  induction cs generalizing after with
  | nil => rfl
  | cons c rest ih =>
    obtain ⟨here, later⟩ := List.forall_mem_cons.mp solid
    simp [joinSeparators, here, ih later]

theorem snakeSolid (solid : ∀ c ∈ cs, Solid c) :
    snakeChars cs = (splitCapitals false (splitAcronyms false cs)).map Char.toLower ∧
      ∀ c ∈ splitCapitals false (splitAcronyms false cs), Solid c := by
  have underscore : Solid '_' := ⟨by decide, by decide⟩
  have split : ∀ c ∈ splitCapitals false (splitAcronyms false cs), Solid c := by
    intro c mem
    rcases capitalsMem mem with rfl | mem
    · exact underscore
    · rcases acronymsMem mem with rfl | mem
      · exact underscore
      · exact solid c mem
  refine ⟨?_, split⟩
  unfold snakeChars
  rw [separatorsNone fun c mem => (split c mem).2, lowerAscii fun c mem => (split c mem).1]

theorem snakeFolded (solid : ∀ c ∈ cs, Solid c) : folded (snakeChars cs) = folded cs := by
  obtain ⟨snake, split⟩ := snakeSolid solid
  rw [snake, foldedLower fun c mem => (split c mem).1, capitalsFolded, acronymsFolded]

/-- A name without capitals is in snake case. -/
theorem snakeSmall (small : ∀ c ∈ cs, Solid c ∧ isUpper c = false) : snakeChars cs = cs := by
  have acronyms : ∀ after l, (∀ c ∈ l, isUpper c = false) → splitAcronyms after l = l := by
    intro after l small
    induction l generalizing after with
    | nil => rfl
    | cons c rest ih =>
      obtain ⟨here, later⟩ := List.forall_mem_cons.mp small
      simp [splitAcronyms, here, ih _ later]
  have capitals : ∀ after l, (∀ c ∈ l, isUpper c = false) → splitCapitals after l = l := by
    intro after l small
    induction l generalizing after with
    | nil => rfl
    | cons c rest ih =>
      obtain ⟨here, later⟩ := List.forall_mem_cons.mp small
      simp [splitCapitals, here, ih _ later]
  have lower : ∀ c ∈ cs, c.toLower = c := fun c mem =>
    asciiAll (p := fun c => isUpper c = false → c.toLower = c) (by decide +kernel) (small c mem).1.1 (small c mem).2
  rw [(snakeSolid fun c mem => (small c mem).1).1, acronyms _ _ fun c mem => (small c mem).2, capitals _ _ fun c mem => (small c mem).2]
  exact (List.map_congr_left lower).trans (List.map_id _)

theorem snakeWords (word : Words cs) : ∀ c ∈ snakeChars cs, isWord c ∧ isUpper c = false := by
  rw [(snakeSolid fun c mem => wordIsSolid (word c mem)).1]
  intro c mem
  obtain ⟨d, inside, rfl⟩ := List.mem_map.mp mem
  have letter : isWord d := by
    rcases capitalsMem inside with rfl | inside
    · decide
    · rcases acronymsMem inside with rfl | inside
      · decide
      · exact word d inside
  exact ⟨(wordKept letter).2.2.2.1, asciiAll (p := fun c => isUpper c.toLower = false) (by decide +kernel) (wordAscii letter)⟩

theorem snakeMarks (marks : Marks cs) : snakeChars cs = cs :=
  snakeSmall fun c mem => ⟨markIsSolid (marks c mem), (markKept (marks c mem)).2.1⟩

end Snake

section Pascal

variable {cs : List Char} {s : String}

theorem splitFlatten (p : Char → Bool) (cs : List Char) : (cs.splitOnP p).flatten = cs.filter fun c => !p c := by
  induction cs with
  | nil => rfl
  | cons c rest ih =>
    rw [List.splitOnP_cons_eq_if_modifyHead]
    cases here : p c with
    | true => simp [here, ih]
    | false =>
      obtain ⟨first, others, parts⟩ := List.exists_cons_of_ne_nil (List.splitOnP_ne_nil p rest)
      rw [parts] at ih ⊢
      simp only [List.flatten_cons] at ih
      simp [here, ← ih]

theorem wordsFlatten (cs : List Char) : (words cs).flatten = cs.filter (· != '_') := by
  unfold words
  rw [List.flatten_filter_not_isEmpty, List.splitOn_eq_splitOnP, splitFlatten]
  rfl

theorem wordsMem {word : List Char} {c : Char} (listed : word ∈ words cs) (mem : c ∈ word) : c ∈ cs := by
  have all : c ∈ (words cs).flatten := List.mem_flatten.mpr ⟨word, listed, mem⟩
  rw [wordsFlatten] at all
  exact (List.mem_filter.mp all).1

theorem capitalizeCons {c : Char} (ascii : c.toNat < 128) (rest : List Char) : Text.capitalize (c :: rest) = c.toUpper :: rest := by
  have plane : c.toNat < 0x10000 := by omega
  change (if c.toNat < 0x10000 then Text.upperChar c else [c]) ++ rest = _
  rw [if_pos plane, Text.upperChar, if_pos ascii, List.singleton_append]

theorem capitalizeFolded (ascii : ∀ c ∈ cs, c.toNat < 128) : folded (Text.capitalize cs) = folded cs := by
  cases cs with
  | nil => rfl
  | cons c rest =>
    have here : c.toNat < 128 := ascii c List.mem_cons_self
    obtain ⟨-, kept, -, small⟩ := asciiCase here
    rw [capitalizeCons here, folded, folded, List.filter_cons, List.filter_cons, kept]
    split
    · rw [List.map_cons, List.map_cons, small]
    · rfl

theorem toPascalChars (s : String) : (toPascal s).toList = (words (snakeChars s.toList)).flatMap Text.capitalize :=
  String.toList_ofList

/-- Pascal case changes underscores and case alone. -/
theorem pascalFolded (solid : ∀ c ∈ s.toList, Solid c) : folded (toPascal s).toList = folded s.toList := by
  obtain ⟨snake, split⟩ := snakeSolid solid
  have small : ∀ c ∈ snakeChars s.toList, c.toNat < 128 := by
    rw [snake]
    intro c mem
    obtain ⟨d, inside, rfl⟩ := List.mem_map.mp mem
    exact asciiAll (p := fun c => c.toLower.toNat < 128) (by decide +kernel) (split d inside).1
  have each : ∀ parts : List (List Char), (∀ part ∈ parts, ∀ c ∈ part, c.toNat < 128) →
      folded (parts.flatMap Text.capitalize) = folded parts.flatten := by
    intro parts ascii
    induction parts with
    | nil => rfl
    | cons part rest ih =>
      obtain ⟨here, later⟩ := List.forall_mem_cons.mp ascii
      rw [List.flatMap_cons, List.flatten_cons, foldedAppend, foldedAppend, capitalizeFolded here, ih later]
  calc folded (toPascal s).toList
      = folded (words (snakeChars s.toList)).flatten := by
        rw [toPascalChars]
        exact each _ fun part listed c mem => small c (wordsMem listed mem)
    _ = folded (snakeChars s.toList) := by
        rw [wordsFlatten, folded, List.filter_filter]
        simp [folded]
    _ = folded s.toList := snakeFolded solid

theorem pascalWords (word : Words s.toList) : Words (toPascal s).toList := by
  have snake : Words (snakeChars s.toList) := fun c mem => (snakeWords word c mem).1
  rw [toPascalChars]
  intro c mem
  obtain ⟨part, listed, mem⟩ := List.mem_flatMap.mp mem
  have own : Words part := fun c mem => snake c (wordsMem listed mem)
  cases part with
  | nil => cases mem
  | cons d rest =>
    obtain ⟨here, later⟩ := List.forall_mem_cons.mp own
    rw [capitalizeCons (wordAscii here)] at mem
    rcases List.mem_cons.mp mem with rfl | mem
    · exact (wordKept here).2.2.2.2
    · exact later c mem

theorem pascalMarks (marks : Marks s.toList) : toPascal s = s := by
  have underscore : '_' ∉ s.toList := fun mem => (markKept (marks _ mem)).2.2.2.1 rfl
  apply String.toList_injective
  rw [toPascalChars, snakeMarks marks, words, List.splitOn_eq_singleton underscore]
  cases chars : s.toList with
  | nil => rfl
  | cons c rest =>
    obtain ⟨ascii, -, -, -, -, same⟩ := markKept (marks c (by simp [chars]))
    simp [capitalizeCons ascii, same]

end Pascal

section Segments

variable {cs : List Char} {s : String}

theorem trimWords (word : Words cs) : Text.trimChars cs = cs :=
  Number.trimSolid fun c mem => (wordKept (word c mem)).2.1

theorem splitLetter {c : Char} (letter : isWord c) (current rest : List Char) :
    splitFrom current (c :: rest) = splitFrom (c :: current) rest := by
  have apart : c ≠ '.' ∧ c ≠ ':' := by simpa [isMark] using (wordKept letter).2.2.1
  rw [splitFrom]
  · rw [if_neg apart.1]
  · rintro others rfl
    exact absurd rfl apart.2

theorem splitWords (current : List Char) (word : Words cs) : splitFrom current cs = [current.reverse ++ cs] := by
  induction cs generalizing current with
  | nil => simp [splitFrom]
  | cons c rest ih =>
    obtain ⟨here, later⟩ := List.forall_mem_cons.mp word
    simp [splitLetter here, ih _ later]

/-- By induction on the path: its parts are words, and if all of them are empty there is nothing but separators. -/
theorem splitPath {current : List Char} (path : Path cs) (word : Words current) :
    (∀ part ∈ splitFrom current cs, Words part) ∧ ((∀ part ∈ splitFrom current cs, part = []) → current = [] ∧ Marks cs) := by
  have back : Words current.reverse := fun c mem => word c (List.mem_reverse.mp mem)
  have mark (c : Char) (mark : isMark c) {rest : List Char} (all : [] = ([] : List Char) ∧ Marks rest) : Marks (c :: rest) :=
    List.forall_mem_cons.mpr ⟨mark, all.2⟩
  induction path generalizing current with
  | nil =>
    refine ⟨by simpa [splitFrom] using back, fun none => ⟨?_, nofun⟩⟩
    simpa [splitFrom] using none
  | @word c rest letter path ih =>
    have longer : Words (c :: current) := List.forall_mem_cons.mpr ⟨letter, word⟩
    rw [splitLetter letter]
    obtain ⟨parts, none⟩ := ih longer fun d mem => longer d (List.mem_reverse.mp mem)
    exact ⟨parts, fun all => absurd (none all).1 (List.cons_ne_nil c current)⟩
  | @dot rest path ih =>
    obtain ⟨parts, none⟩ := @ih [] nofun nofun
    have first : splitFrom current ('.' :: rest) = current.reverse :: splitFrom [] rest := by
      rw [splitFrom]
      · rw [if_pos rfl]
      · rintro others ⟨⟩
    rw [first]
    refine ⟨List.forall_mem_cons.mpr ⟨back, parts⟩, fun all => ?_⟩
    obtain ⟨here, later⟩ := List.forall_mem_cons.mp all
    exact ⟨by simpa using here, mark _ rfl (none later)⟩
  | @colons rest path ih =>
    obtain ⟨parts, none⟩ := @ih [] nofun nofun
    rw [splitFrom]
    refine ⟨List.forall_mem_cons.mpr ⟨back, parts⟩, fun all => ?_⟩
    obtain ⟨here, later⟩ := List.forall_mem_cons.mp all
    exact ⟨by simpa using here, mark _ rfl ⟨rfl, mark _ rfl (none later)⟩⟩

theorem lastOfWords (word : Words s.toList) : lastSegment s = s := by
  have whole : segments s = if s.toList.isEmpty then [] else [s] := by
    unfold segments
    rw [splitWords [] word, List.reverse_nil, List.nil_append, List.map_singleton, trimWords word,
      List.filterMap_cons, List.filterMap_nil]
    cases s.toList.isEmpty <;> simp
  unfold lastSegment
  rw [whole]
  cases s.toList.isEmpty <;> rfl

theorem segmentsOfPath (path : Path s.toList) :
    (∀ segment ∈ segments s, Words segment.toList) ∧ (segments s = [] → Marks s.toList) := by
  obtain ⟨parts, none⟩ := @splitPath s.toList [] path nofun
  have trimmed : (splitFrom [] s.toList).map Text.trimChars = splitFrom [] s.toList :=
    (List.map_congr_left fun part mem => trimWords (parts part mem)).trans (List.map_id _)
  unfold segments
  rw [trimmed]
  constructor
  · intro segment mem
    obtain ⟨part, inside, kept⟩ := List.mem_filterMap.mp mem
    split at kept
    · cases kept
    · cases kept
      rw [String.toList_ofList]
      exact parts part inside
  · intro empty
    refine (none fun part mem => ?_).2
    have dropped := List.filterMap_eq_nil_iff.mp empty part mem
    by_contra filled
    simp [filled] at dropped

/-- What a path names in Pascal case is its own last segment. -/
theorem lastOfTarget (path : Path s.toList) : (∀ c ∈ (toPascal (targetSegment s)).toList, Solid c) ∧
    lastSegment (toPascal (targetSegment s)) = toPascal (targetSegment s) := by
  obtain ⟨inside, none⟩ := segmentsOfPath path
  have named : (targetSegment s = s ∧ segments s = []) ∨ targetSegment s ∈ segments s := by
    unfold targetSegment
    split
    · next last target others listed =>
      exact .inr (List.mem_reverse.mp (by simp [listed]))
    · next only listed =>
      exact .inr (List.mem_reverse.mp (by simp [listed]))
    · next listed =>
      exact .inl ⟨rfl, List.reverse_eq_nil_iff.mp listed⟩
  rcases named with ⟨whole, empty⟩ | listed
  · have marks := none empty
    rw [whole, pascalMarks marks, lastSegment, empty]
    exact ⟨fun c mem => markIsSolid (marks c mem), rfl⟩
  · have word := inside _ listed
    exact ⟨fun c mem => wordIsSolid (pascalWords word c mem), lastOfWords (pascalWords word)⟩

end Segments

end Name

namespace Registry

variable {φ : Type} {r : Registry φ} {name : String} {e : Entity}

/-- Entities whose names differ not only in underscores and case are registered all. -/
theorem registersAll {entities : List Entity} (apart : ((r.entities ++ entities).map fun e => Text.toLower e.name).Nodup) :
    ∃ out, entities.foldlM register r = .ok out := by
  induction entities generalizing r with
  | nil => exact ⟨r, rfl⟩
  | cons e rest ih =>
    have fresh : r.lowerNamed? e.name = none := by
      refine List.find?_eq_none.mpr fun other mem same => ?_
      rw [List.map_append, List.map_cons] at apart
      exact (List.nodup_append.mp apart).2.2 _ (List.mem_map_of_mem mem) _ List.mem_cons_self (eq_of_beq same)
    have one : r.register e = .ok { r with entities := r.entities ++ [e] } := by
      unfold register
      rw [fresh]
    obtain ⟨out, later⟩ := ih (r := { r with entities := r.entities ++ [e] }) (by simpa using apart)
    exact ⟨out, by rw [List.foldlM_cons, one]; exact later⟩

theorem namedOwn (apart : (r.entities.map (·.name)).Nodup) (mem : e ∈ r.entities) : r.named? e.name = some e := by
  unfold named?
  cases found : r.entities.find? (fun other => other.name == e.name) with
  | none => exact absurd (beq_self_eq_true e.name) (List.find?_eq_none.mp found e mem)
  | some other =>
    have same : other.name = e.name := by simpa using List.find?_some found
    rw [List.inj_on_of_nodup_map apart (List.mem_of_find?_eq_some found) mem same]

theorem getNamed (apart : (r.entities.map (·.name)).Nodup) (mem : e ∈ r.entities) (filled : e.name ≠ "") :
    r.get? e.name = some e := by
  unfold get?
  rw [if_neg (by simpa using filled), namedOwn apart mem]
  rfl

/-- A name that means none of the entities without underscores and case means none of them with these. -/
theorem getNone (entities : ∀ e ∈ r.entities, Name.Words e.name.toList) (solid : ∀ c ∈ name.toList, Name.Solid c)
    (last : Name.lastSegment name = name)
    (apart : ∀ e ∈ r.entities, Name.folded e.name.toList ≠ Name.folded name.toList) : r.get? name = none := by
  have named : ∀ {other : String}, Name.folded other.toList = Name.folded name.toList → r.named? other = none := by
    intro other same
    refine List.find?_eq_none.mpr fun e mem found => apart e mem ?_
    rw [eq_of_beq found, same]
  have lower : r.lowerNamed? name = none := by
    refine List.find?_eq_none.mpr fun e mem found => apart e mem ?_
    exact Name.foldedOfLower (fun c inside => Name.wordAscii (entities e mem c inside)) (fun c inside => (solid c inside).1)
      (eq_of_beq found)
  unfold get?
  split
  · rfl
  · dsimp only
    rw [last, named rfl, named (Name.pascalFolded solid), lower]
    rfl

end Registry

/-- An entity named by letters, digits and underscores, whose relations refer to their targets by paths of such names. -/
structure EntityDeclaration.PlainlyNamed (d : EntityDeclaration) : Prop where
  name : Name.Words d.named.toList
  targets : ∀ r ∈ d.relations, Name.Path (r.2.target.text?.getD "").toList

namespace EntityDeclaration

variable {d : EntityDeclaration} {x : EntityDraft}

theorem draftNamed (drafted : d.draft = .ok x) : x.name = d.named ∧ x.name ≠ "" ∧
    ∀ r ∈ x.relations, ∃ declared ∈ d.relations, r.target = declared.2.reaches := by
  obtain ⟨entity, name, drafted⟩ := Results.bindOk drafted
  dsimp only at drafted
  split at drafted
  · cases drafted
  · next filled =>
    obtain ⟨table, -, drafted⟩ := Results.bindOk drafted
    obtain ⟨fields, -, drafted⟩ := Results.bindOk drafted
    obtain ⟨key, -, drafted⟩ := Results.bindOk drafted
    obtain ⟨relations, listed, drafted⟩ := Results.bindOk drafted
    obtain rfl := Except.ok.inj drafted
    refine ⟨nameOk name, by simpa using filled, fun r mem => ?_⟩
    obtain ⟨declared, inside, one⟩ := Results.mapAllItems listed r mem
    exact ⟨declared, inside, (RelationDeclaration.draftOk one).target⟩

end EntityDeclaration

namespace Schema

variable {φ : Type} {r : Registry φ} {ds : List EntityDeclaration} {drafts : List EntityDraft} {s : Schema}

/-- What a registry finds under the target of a relation is what the relation was resolved to: the entity whose table and
columns are in it, or nothing where only the naming convention is. -/
structure Agrees (drafts : List EntityDraft) (s : Schema) (r : Registry φ) (d : RelationDraft) (y : Relation) : Prop where
  inside : ∀ t, target? drafts d.target = some t → ∃ e ∈ s.entities, ∃ f, resolveEntity drafts t = .ok e ∧
    r.get? y.target = some e ∧ y.targetTable = e.table ∧ e.field? d.remoteField = some f ∧ y = insideRelation d t f
  outside : target? drafts d.target = none → r.get? y.target = none ∧ y = outsideRelation d

theorem insideAgrees (apart : (drafts.map fun x => Name.normalize x.name).Nodup)
    (paired : List.Forall₂ (fun x e => resolveEntity drafts x = .ok e) drafts s.entities)
    (found : ∀ e ∈ s.entities, r.get? e.name = some e) {owner : String} {d : RelationDraft} {y : Relation}
    (resolved : resolveRelation drafts owner d = .ok y) {t : EntityDraft} (target : target? drafts d.target = some t) :
    ∃ e ∈ s.entities, ∃ f, resolveEntity drafts t = .ok e ∧
      r.get? y.target = some e ∧ y.targetTable = e.table ∧ e.field? d.remoteField = some f ∧ y = insideRelation d t f := by
  obtain ⟨e, mem, made⟩ := Results.pairedLeft paired t ((targetIff apart).mp target).1
  obtain ⟨name, table, fields, -⟩ := resolvedParts made
  unfold resolveRelation at resolved
  rw [target] at resolved
  dsimp only at resolved
  split at resolved
  · cases resolved
  · next f listed =>
    obtain rfl := Except.ok.inj resolved
    refine ⟨e, mem, f, made, ?_, table.symm, ?_, rfl⟩
    · change r.get? t.name = some e
      rw [← name]
      exact found e mem
    · unfold Entity.field?
      rw [fields]
      exact listed

theorem outsideAgrees (words : ∀ e ∈ r.entities, Name.Words e.name.toList)
    (drawn : ∀ e ∈ r.entities, ∃ x ∈ drafts, e.name = x.name) {owner path : String} {d : RelationDraft} {y : Relation}
    (reached : d.target = Name.toPascal (Name.targetSegment path)) (route : Name.Path path.toList)
    (resolved : resolveRelation drafts owner d = .ok y) (target : target? drafts d.target = none) :
    r.get? y.target = none ∧ y = outsideRelation d := by
  obtain ⟨solid, last⟩ := Name.lastOfTarget route
  rw [← reached] at solid last
  unfold resolveRelation at resolved
  rw [target] at resolved
  obtain rfl := Except.ok.inj resolved
  refine ⟨Registry.getNone words solid last fun e mem same => ?_, rfl⟩
  obtain ⟨x, there, name⟩ := drawn e mem
  refine List.find?_eq_none.mp target x there (beq_iff_eq.mpr ?_)
  rw [← name, Name.normalizeFolded fun c inside => Name.wordAscii (words e mem c inside),
    Name.normalizeFolded fun c inside => (solid c inside).1]
  exact congrArg String.ofList same

theorem namedPlainly (plain : ∀ d ∈ ds, d.PlainlyNamed) (drafted : ds.mapM EntityDeclaration.draft = .ok drafts)
    (paired : List.Forall₂ (fun x e => resolveEntity drafts x = .ok e) drafts s.entities) {e : Entity} (mem : e ∈ s.entities) :
    (∃ x ∈ drafts, e.name = x.name) ∧ Name.Words e.name.toList ∧ e.name ≠ "" := by
  obtain ⟨x, there, made⟩ := Results.pairedRight paired e mem
  obtain ⟨d, declared, one⟩ := Results.mapAllItems drafted x there
  obtain ⟨same, filled, -⟩ := EntityDeclaration.draftNamed one
  have name : e.name = x.name := (resolvedParts made).1
  refine ⟨⟨x, there, name⟩, ?_⟩
  rw [name]
  exact ⟨same ▸ (plain d declared).name, filled⟩

/-- Words that differ without underscores and case differ when case alone is left out. -/
theorem registersWords (words : ∀ e ∈ s.entities, Name.Words e.name.toList)
    (apart : (s.entities.map fun e => Name.normalize e.name).Nodup) : ∃ r : Registry φ, Registry.ofSchema s = .ok r := by
  refine Registry.registersAll (List.pairwise_map.mpr ?_)
  refine (List.pairwise_map.mp apart).imp_of_mem fun {e f} memE memF differ same => differ ?_
  have ascii : ∀ e ∈ s.entities, ∀ c ∈ e.name.toList, c.toNat < 128 := fun e mem c inside => Name.wordAscii (words e mem c inside)
  rw [Name.normalizeFolded (ascii e memE), Name.normalizeFolded (ascii f memF),
    Name.foldedOfLower (ascii e memE) (ascii f memF) same]

/-- Compiled entities can be registered, and every relation of them then means by name the entity it was resolved to. -/
theorem targetsAgree (plain : ∀ d ∈ ds, d.PlainlyNamed) (compiled : compile ds = .ok s) :
    ∃ (r : Registry φ) (drafts : List EntityDraft), Registry.ofSchema s = .ok r ∧ ds.mapM EntityDeclaration.draft = .ok drafts ∧
      List.Forall₂ (fun x e => List.Forall₂ (fun d y => Agrees drafts s r d y) x.relations e.relations) drafts s.entities := by
  obtain ⟨drafts, drafted, made⟩ := compileIff.mp compiled
  obtain ⟨apart, resolved⟩ := ofDraftsIff.mp made
  have paired := Results.mapAllPaired resolved
  have named : ∀ e ∈ s.entities, (∃ x ∈ drafts, e.name = x.name) ∧ Name.Words e.name.toList ∧ e.name ≠ "" :=
    fun e mem => namedPlainly plain drafted paired mem
  have names : (s.entities.map fun e => Name.normalize e.name).Nodup := by
    rwa [← Results.pairedMap (fun x e made => by rw [(resolvedParts made).1]) paired]
  obtain ⟨r, registered⟩ : ∃ r : Registry φ, Registry.ofSchema s = .ok r := registersWords (fun e mem => (named e mem).2.1) names
  have entities : r.entities = s.entities := Registry.registeredAll registered
  have found : ∀ e ∈ s.entities, r.get? e.name = some e := by
    intro e mem
    rw [← entities] at mem
    exact Registry.getNamed (entities ▸ (compiledSound compiled).names) mem (named e (entities ▸ mem)).2.2
  refine ⟨r, drafts, registered, drafted, ?_⟩
  refine ((List.forall₂_and_left _ _).mpr ⟨Results.mapAllItems drafted, paired⟩).imp fun x e ⟨⟨d, declared, one⟩, made⟩ => ?_
  obtain ⟨-, -, targets⟩ := EntityDeclaration.draftNamed one
  obtain ⟨-, -, -, -, -, relations⟩ := resolvedParts made
  refine ((List.forall₂_and_left _ _).mpr ⟨targets, relations⟩).imp fun draft y ⟨⟨declaredToo, inside, reached⟩, joined⟩ => ?_
  refine ⟨fun t target => insideAgrees apart paired found joined target, fun target => ?_⟩
  rw [← entities] at named
  exact outsideAgrees (fun e mem => (named e mem).2.1) (fun e mem => (named e mem).1) reached
    ((plain d declared).targets declaredToo inside) joined target

/-- Notes, their writer and a shop that is declared elsewhere, in as many styles of naming. -/
def styled : List EntityDeclaration :=
  let key : String × FieldDeclaration := ("id", ⟨.text "i32", true, false, false, true, none, none⟩)
  let keyed (name : String) : String × FieldDeclaration := (name, ⟨.text "i32", false, false, false, false, none, none⟩)
  [⟨.text "my_Note", .text "notes", [key, keyed "by", keyed "shop"],
      [("writer", ⟨.text "belongs_to", .text "crm::noteWriter.Entity", .text "By", .text "Id"⟩),
        ("shop", ⟨.text "belongs_to", .text "net_shop", .text "Shop", .text "Id"⟩)]⟩,
    ⟨.text "NOTE_WRITER", .text "writers", [key], [("notes", ⟨.text "has_many", .text "MyNote", .text "Id", .text "By"⟩)]⟩]

theorem targetsAgreeOfStyles : (∀ d ∈ styled, d.PlainlyNamed) ∧ ∃ s, compile styled = .ok s ∧
    s.entities.map (fun e => e.relations.map (·.target)) = [["NOTE_WRITER", "NetShop"], ["my_Note"]] ∧
    ∃ (r : Registry Unit) (drafts : List EntityDraft), Registry.ofSchema s = .ok r ∧
      List.Forall₂ (fun x e => List.Forall₂ (fun d y => Agrees drafts s r d y) x.relations e.relations) drafts s.entities := by
  have plain : ∀ d ∈ styled, d.PlainlyNamed := by
    simp only [styled, List.forall_mem_cons]
    refine ⟨⟨by decide +kernel, ?_⟩, ⟨by decide +kernel, ?_⟩, nofun⟩
    · simp only [List.forall_mem_cons]
      exact ⟨by decide +kernel, by decide +kernel, nofun⟩
    · simp only [List.forall_mem_cons]
      exact ⟨by decide +kernel, nofun⟩
  have ran : (compile styled).toOption.map (fun s => s.entities.map fun e => e.relations.map (·.target)) =
      some [["NOTE_WRITER", "NetShop"], ["my_Note"]] := by decide +kernel
  obtain ⟨s, made, targets⟩ := Option.map_eq_some_iff.mp ran
  have compiled := Results.toOptionOk made
  obtain ⟨r, drafts, registered, -, agrees⟩ := targetsAgree (φ := Unit) plain compiled
  exact ⟨plain, s, compiled, targets, r, drafts, registered, agrees⟩

end Schema

end EntityQuery
