import EntityQuery.Proofs.NameMatching
/-! Names in Pascal case. Every word of such a name has its own capital, so that its snake case has the same words, and Pascal
case gives them their capitals back. A registry therefore finds an entity under the snake case of its name. -/

namespace EntityQuery

namespace Name

/-- A capital, and behind it small letters or digits, of which there is at least one. -/
inductive Capitalised : List Char → Prop where
  | word {first : Char} {rest : List Char} (capital : isUpper first) (some : rest ≠ [])
      (small : ∀ c ∈ rest, isLower c || c.isDigit) : Capitalised (first :: rest)

/-- One or more capitalised words, one right behind the other. -/
def IsPascal (name : String) : Prop :=
  ∃ parts : List (List Char), parts ≠ [] ∧ (∀ part ∈ parts, Capitalised part) ∧ name.toList = parts.flatten

section Characters

variable {c : Char}

theorem smallKept (small : isLower c || c.isDigit) :
    isWord c ∧ isUpper c = false ∧ c.toLower = c ∧ c ≠ '_' := by
  have ascii : c.toNat < 128 := by
    rcases Bool.or_eq_true_iff.mp small with letter | digit
    · have most : c.val ≤ 'z'.val := of_decide_eq_true (Bool.and_eq_true_iff.mp letter).2
      exact lt_of_le_of_lt (UInt32.le_iff_toNat_le.mp most) (by decide)
    · exact wordAscii (by simp [isWord, Char.isAlphanum, digit])
  exact asciiAll (p := fun c => (isLower c || c.isDigit) →
    isWord c ∧ isUpper c = false ∧ c.toLower = c ∧ c ≠ '_') (by decide +kernel) ascii small

theorem capitalKept (capital : isUpper c) :
    isWord c ∧ c.toLower.toUpper = c ∧ c.toLower ≠ '_' ∧ isLower c = false ∧ c.isDigit = false := by
  have ascii : c.toNat < 128 := by
    have most : c.val ≤ 'Z'.val := of_decide_eq_true (Bool.and_eq_true_iff.mp capital).2
    exact lt_of_le_of_lt (UInt32.le_iff_toNat_le.mp most) (by decide)
  exact asciiAll (p := fun c => isUpper c → isWord c ∧ c.toLower.toUpper = c ∧ c.toLower ≠ '_' ∧ isLower c = false ∧
    c.isDigit = false) (by decide +kernel) ascii capital

end Characters

section Splitting

variable {c : Char} {part rest : List Char} {parts : List (List Char)}

theorem acronymsStep (small : isLower c || c.isDigit) (after : Bool) (rest : List Char) :
    splitAcronyms after (c :: rest) = c :: splitAcronyms false rest := by
  simp [splitAcronyms, (smallKept small).2.1]

theorem acronymsSmall (small : ∀ c ∈ part, isLower c || c.isDigit) (rest : List Char) :
    splitAcronyms false (part ++ rest) = part ++ splitAcronyms false rest := by
  induction part with
  | nil => rfl
  | cons c part ih =>
    obtain ⟨here, later⟩ := List.forall_mem_cons.mp small
    rw [List.cons_append, acronymsStep here, ih later, List.cons_append]

/-- No capital of such a name stands right behind another one. -/
theorem acronymsParts (capitalised : ∀ part ∈ parts, Capitalised part) : splitAcronyms false parts.flatten = parts.flatten := by
  induction parts with
  | nil => rfl
  | cons part parts ih =>
    obtain ⟨here, later⟩ := List.forall_mem_cons.mp capitalised
    cases here with
    | @word first rest capital filled small =>
      obtain ⟨c, rest, rfl⟩ := List.exists_cons_of_ne_nil filled
      obtain ⟨here, others⟩ := List.forall_mem_cons.mp small
      have opened : splitAcronyms false (first :: c :: (rest ++ parts.flatten)) =
          first :: splitAcronyms true (c :: (rest ++ parts.flatten)) := by
        simp [splitAcronyms, capital]
      rw [List.flatten_cons, List.cons_append, List.cons_append, opened, acronymsStep here, acronymsSmall others, ih later]

theorem capitalsStep (small : isLower c || c.isDigit) (after : Bool) (rest : List Char) :
    splitCapitals after (c :: rest) = c :: splitCapitals true rest := by
  rw [splitCapitals, (smallKept small).2.1, Bool.and_false, if_neg Bool.false_ne_true, small]

theorem capitalsSmall (small : ∀ c ∈ part, isLower c || c.isDigit) (rest : List Char) :
    splitCapitals true (part ++ rest) = part ++ splitCapitals true rest := by
  induction part with
  | nil => rfl
  | cons c part ih =>
    obtain ⟨here, later⟩ := List.forall_mem_cons.mp small
    rw [List.cons_append, capitalsStep here, ih later, List.cons_append]

/-- A capitalised word is left whole. Behind a small letter it is separated, and what stands behind it is behind one. -/
theorem capitalsWord (capitalised : Capitalised part) (rest : List Char) :
    splitCapitals false (part ++ rest) = part ++ splitCapitals true rest ∧
      splitCapitals true (part ++ rest) = '_' :: splitCapitals false (part ++ rest) := by
  cases capitalised with
  | @word first tail capital filled small =>
    obtain ⟨c, tail, rfl⟩ := List.exists_cons_of_ne_nil filled
    obtain ⟨here, others⟩ := List.forall_mem_cons.mp small
    obtain ⟨-, -, -, letter, digit⟩ := capitalKept capital
    have opened : splitCapitals false (first :: c :: tail ++ rest) = first :: splitCapitals false (c :: tail ++ rest) := by
      simp [splitCapitals, letter, digit]
    constructor
    · rw [opened, List.cons_append, capitalsStep here, capitalsSmall others]
      rfl
    · rw [opened]
      simp [splitCapitals, capital, letter, digit]

/-- Each word but the first is separated from the one before it. -/
theorem capitalsParts (capitalised : ∀ part ∈ parts, Capitalised part) :
    splitCapitals false parts.flatten = List.intercalate ['_'] parts := by
  induction parts with
  | nil => rfl
  | cons part parts ih =>
    obtain ⟨here, later⟩ := List.forall_mem_cons.mp capitalised
    rw [List.flatten_cons, (capitalsWord here _).1]
    cases parts with
    | nil => simp [splitCapitals]
    | cons next others =>
      have following : Capitalised next := later next List.mem_cons_self
      rw [List.intercalate_cons_cons, ← ih later, List.flatten_cons, (capitalsWord following _).2]
      simp

end Splitting

section Reading

variable {part : List Char} {parts : List (List Char)} {name : String}

theorem mapIntercalate (f : Char → Char) (separator : List Char) (parts : List (List Char)) :
    (separator.intercalate parts).map f = (separator.map f).intercalate (parts.map (·.map f)) := by
  induction parts with
  | nil => rfl
  | cons part parts ih =>
    cases parts with
    | nil => simp
    | cons next others =>
      rw [List.intercalate_cons_cons, List.map_append, List.map_append, ih]
      simp [List.intercalate_cons_cons]

theorem partWords (capitalised : Capitalised part) : Words part := by
  cases capitalised with
  | word capital filled small =>
    exact List.forall_mem_cons.mpr ⟨(capitalKept capital).1, fun c mem => (smallKept (small c mem)).1⟩

theorem partsWords (capitalised : ∀ part ∈ parts, Capitalised part) : Words parts.flatten := by
  intro c mem
  obtain ⟨part, listed, inside⟩ := List.mem_flatten.mp mem
  exact partWords (capitalised part listed) c inside

/-- A capitalised word in small letters has no underscore, and gets its capital back. -/
theorem partLower (capitalised : Capitalised part) :
    '_' ∉ part.map Char.toLower ∧ Text.capitalize (part.map Char.toLower) = part := by
  cases capitalised with
  | @word first rest capital filled small =>
    obtain ⟨word, back, other, -⟩ := capitalKept capital
    have kept : rest.map Char.toLower = rest :=
      (List.map_congr_left fun c mem => (smallKept (small c mem)).2.2.1).trans (List.map_id _)
    have ascii : first.toLower.toNat < 128 := wordAscii (wordKept word).2.2.2.1
    rw [List.map_cons, kept, capitalizeCons ascii, back]
    refine ⟨fun mem => ?_, rfl⟩
    rcases List.mem_cons.mp mem with same | inside
    · exact other same.symm
    · exact (smallKept (small _ inside)).2.2.2 rfl

/-- The snake case of a name in Pascal case has its words, in small letters. -/
theorem snakeParts (capitalised : ∀ part ∈ parts, Capitalised part) :
    snakeChars parts.flatten = List.intercalate ['_'] (parts.map (·.map Char.toLower)) := by
  have solid : ∀ c ∈ parts.flatten, Solid c := fun c mem => wordIsSolid (partsWords capitalised c mem)
  rw [(snakeSolid solid).1, acronymsParts capitalised, capitalsParts capitalised, mapIntercalate]
  rfl

theorem wordsParts (capitalised : ∀ part ∈ parts, Capitalised part) (filled : parts ≠ []) :
    words (List.intercalate ['_'] (parts.map (·.map Char.toLower))) = parts.map (·.map Char.toLower) := by
  have apart : ∀ word ∈ parts.map (·.map Char.toLower), '_' ∉ word :=
    List.forall_mem_map.mpr fun part mem => (partLower (capitalised part mem)).1
  unfold words
  rw [List.splitOn_intercalate '_' apart (by simpa using filled), List.filter_eq_self]
  refine List.forall_mem_map.mpr fun part mem => ?_
  cases capitalised part mem with
  | word => rfl

theorem capitalizeParts (capitalised : ∀ part ∈ parts, Capitalised part) :
    (parts.map (·.map Char.toLower)).flatMap Text.capitalize = parts.flatten := by
  rw [List.flatMap_map]
  exact congrArg List.flatten ((List.map_congr_left fun part mem => (partLower (capitalised part mem)).2).trans (List.map_id _))

/-- Snake case changes nothing of a name in snake case. -/
theorem snakeTwice (word : Words name.toList) : snakeChars (toSnake name).toList = (toSnake name).toList := by
  refine snakeSmall fun c mem => ?_
  obtain ⟨letter, lower⟩ := snakeWords word c (by rwa [toSnake, String.toList_ofList] at mem)
  exact ⟨wordIsSolid letter, lower⟩

theorem pascalIsWords (pascal : IsPascal name) : Words name.toList := by
  obtain ⟨parts, -, capitalised, chars⟩ := pascal
  exact chars ▸ partsWords capitalised

theorem pascalCapital (pascal : IsPascal name) : ∃ first ∈ name.toList, isUpper first := by
  obtain ⟨parts, filled, capitalised, chars⟩ := pascal
  obtain ⟨part, parts, rfl⟩ := List.exists_cons_of_ne_nil filled
  cases capitalised part List.mem_cons_self with
  | @word first rest capital filled small => exact ⟨first, by simp [chars], capital⟩

/-- Pascal case takes the snake case of a name in Pascal case back to the name. -/
theorem pascalBack (pascal : IsPascal name) : toPascal (toSnake name) = name := by
  have word := pascalIsWords pascal
  obtain ⟨parts, filled, capitalised, chars⟩ := pascal
  apply String.toList_injective
  calc (toPascal (toSnake name)).toList
      = (words (snakeChars name.toList)).flatMap Text.capitalize := by
        rw [toPascalChars, snakeTwice word, toSnake, String.toList_ofList]
    _ = (parts.map (·.map Char.toLower)).flatMap Text.capitalize := by
        rw [chars, snakeParts capitalised, wordsParts capitalised filled]
    _ = name.toList := by
        rw [capitalizeParts capitalised, chars]

/-- A name in Pascal case is not in snake case, because of its capitals. -/
theorem snakeOther (pascal : IsPascal name) : toSnake name ≠ name := by
  intro same
  obtain ⟨first, mem, capital⟩ := pascalCapital pascal
  rw [← same, toSnake, String.toList_ofList] at mem
  rw [(snakeWords (pascalIsWords pascal) first mem).2] at capital
  cases capital

end Reading

end Name

namespace Registry

variable {φ : Type} {r : Registry φ} {e : Entity}

/-- Among entities that differ without underscores and case, one in Pascal case is found under its snake case. -/
theorem getSnake (apart : (r.entities.map fun e => Name.normalize e.name).Nodup) (mem : e ∈ r.entities)
    (pascal : Name.IsPascal e.name) : r.get? (Name.toSnake e.name) = some e := by
  have word := Name.pascalIsWords pascal
  have snake : Name.Words (Name.toSnake e.name).toList := fun c inside =>
    (Name.snakeWords word c (by rwa [Name.toSnake, String.toList_ofList] at inside)).1
  have same : Name.normalize (Name.toSnake e.name) = Name.normalize e.name := by
    rw [Name.normalizeFolded fun c inside => Name.wordAscii (snake c inside),
      Name.normalizeFolded fun c inside => Name.wordAscii (word c inside), Name.toSnake, String.toList_ofList,
      Name.snakeFolded fun c inside => Name.wordIsSolid (word c inside)]
  have none : r.named? (Name.toSnake e.name) = none := by
    refine List.find?_eq_none.mpr fun other listed named => ?_
    have named : other.name = Name.toSnake e.name := eq_of_beq named
    obtain rfl := List.inj_on_of_nodup_map apart listed mem (by rw [named, same])
    exact Name.snakeOther pascal named.symm
  have names : (r.entities.map (·.name)).Nodup := by
    refine List.Nodup.of_map Name.normalize ?_
    rwa [List.map_map]
  have filled : Name.toSnake e.name ≠ "" := by
    intro empty
    obtain ⟨first, inside, -⟩ := Name.pascalCapital pascal
    have back := Name.pascalBack pascal
    rw [empty, show Name.toPascal "" = "" from rfl] at back
    simp [← back] at inside
  unfold get?
  rw [if_neg (by simpa using filled)]
  dsimp only
  rw [Name.lastOfWords snake, none, Name.pascalBack pascal, namedOwn names mem]
  rfl

end Registry

namespace Schema

variable {φ : Type} {ds : List EntityDeclaration} {s : Schema}

theorem compiledApart (compiled : compile ds = .ok s) : (s.entities.map fun e => Name.normalize e.name).Nodup := by
  obtain ⟨drafts, -, made⟩ := compileIff.mp compiled
  obtain ⟨apart, resolved⟩ := ofDraftsIff.mp made
  rwa [← Results.pairedMap (fun x e made => by rw [(resolvedParts made).1]) (Results.mapAllPaired resolved)]

/-- Pascal case takes the snake case of a name in Pascal case back to the name. Compiled entities that all have such names can be
registered, and every registry of a compiled schema finds each entity with such a name under its snake case. -/
theorem snakeNamesFound :
    (∀ name, Name.IsPascal name → Name.toPascal (Name.toSnake name) = name) ∧
      ∀ (ds : List EntityDeclaration) (s : Schema), compile ds = .ok s →
        ((∀ e ∈ s.entities, Name.IsPascal e.name) → ∃ r : Registry φ, Registry.ofSchema s = .ok r) ∧
          ∀ r : Registry φ, Registry.ofSchema s = .ok r →
            ∀ e ∈ s.entities, Name.IsPascal e.name → r.get? (Name.toSnake e.name) = some e := by
  refine ⟨fun name pascal => Name.pascalBack pascal, fun ds s compiled => ⟨fun pascal => ?_, fun r registered e mem pascal => ?_⟩⟩
  · exact registersWords (fun e mem => Name.pascalIsWords (pascal e mem)) (compiledApart compiled)
  · have entities : r.entities = s.entities := Registry.registeredAll registered
    rw [← entities] at mem
    exact Registry.getSnake (entities ▸ compiledApart compiled) mem pascal

/-- Posts of a blog and second users. -/
def ofBlog : List EntityDeclaration :=
  let key : String × FieldDeclaration := ("id", ⟨.text "i32", true, false, false, true, none, none⟩)
  [⟨.text "BlogPost", .text "posts", [key], []⟩, ⟨.text "User2", .text "users", [key], []⟩]

theorem snakeNamesFoundOfBlog : Name.toPascal (Name.toSnake "BlogPost") = "BlogPost" ∧
    ∃ s, compile ofBlog = .ok s ∧ s.entities.map (·.name) = ["BlogPost", "User2"] ∧
      ∃ r : Registry Unit, Registry.ofSchema s = .ok r ∧ (r.get? "blog_post").map (·.name) = some "BlogPost" ∧
        (r.get? "user2").map (·.name) = some "User2" := by
  have blog : Name.IsPascal "BlogPost" := by
    refine ⟨[['B', 'l', 'o', 'g'], ['P', 'o', 's', 't']], nofun, List.forall_mem_cons.mpr ⟨?_, List.forall_mem_singleton.mpr ?_⟩, rfl⟩
    · exact .word rfl nofun (List.all_eq_true.mp rfl)
    · exact .word rfl nofun (List.all_eq_true.mp rfl)
  have user : Name.IsPascal "User2" :=
    ⟨[['U', 's', 'e', 'r', '2']], nofun, List.forall_mem_singleton.mpr (.word rfl nofun (List.all_eq_true.mp rfl)), rfl⟩
  have ran : (compile ofBlog).toOption.map (fun s => s.entities.map (·.name)) = some ["BlogPost", "User2"] := by decide +kernel
  obtain ⟨s, made, names⟩ := Option.map_eq_some_iff.mp ran
  have compiled := Results.toOptionOk made
  obtain ⟨back, found⟩ := snakeNamesFound (φ := Unit)
  obtain ⟨registers, finds⟩ := found ofBlog s compiled
  have pascal : ∀ e ∈ s.entities, Name.IsPascal e.name := by
    intro e mem
    have listed : e.name ∈ ["BlogPost", "User2"] := names ▸ List.mem_map_of_mem mem
    rcases List.mem_cons.mp listed with named | listed
    · exact named ▸ blog
    · exact (List.mem_singleton.mp listed) ▸ user
  obtain ⟨r, registered⟩ := registers pascal
  have meant : ∀ name ∈ ["BlogPost", "User2"], (r.get? (Name.toSnake name)).map (·.name) = some name := by
    intro name listed
    obtain ⟨e, mem, rfl⟩ := List.mem_map.mp (names.symm ▸ listed)
    rw [finds r registered e mem (pascal e mem)]
    rfl
  have spelled : Name.toSnake "BlogPost" = "blog_post" ∧ Name.toSnake "User2" = "user2" := by decide +kernel
  refine ⟨back "BlogPost" blog, s, compiled, names, r, registered, ?_, ?_⟩
  · rw [← spelled.1]
    exact meant "BlogPost" (by simp)
  · rw [← spelled.2]
    exact meant "User2" (by simp)

end Schema

end EntityQuery
