import EntityQuery.Proofs.Checks
import EntityQuery.Proofs.CompiledSchemas
import EntityQuery.Proofs.Rows
import Mathlib.Data.List.TakeWhile
/-! Which declarations compile, and to what. The two passes succeed exactly on well-formed declarations, fail with a fault
of the schema on all others, and join each relation to the columns of its own field and of the field of its target. -/

namespace EntityQuery

namespace Record

variable {α : Type}

/-- By induction on the pairs: what is put under a name, whichever pair puts it. -/
theorem getFold {g : String → Option α} {pairs : List (String × α)} (same : ∀ pair ∈ pairs, g pair.1 = some pair.2) (r : Record α)
    (name : String) : get? (pairs.foldl (fun r pair => r.put pair.1 pair.2) r) name =
      if name ∈ pairs.map (·.1) then g name else r.get? name := by
  induction pairs generalizing r with
  | nil => simp
  | cons pair rest ih =>
    obtain ⟨first, others⟩ := List.forall_mem_cons.mp same
    obtain ⟨own, other⟩ := getPut r pair.1 pair.2
    rw [List.foldl_cons, ih others, List.map_cons]
    by_cases later : name ∈ rest.map (·.1)
    · simp [later]
    · by_cases here : name = pair.1
      · subst here
        simp [later, own, first]
      · simp [later, here, other name here]

theorem getOfPairs {g : String → Option α} {pairs : List (String × α)} (same : ∀ pair ∈ pairs, g pair.1 = some pair.2)
    (name : String) : get? (ofPairs pairs) name = if name ∈ pairs.map (·.1) then g name else none :=
  getFold same [] name

end Record

namespace Name

theorem lowerNonempty (before : List Char) {cs : List Char} (filled : cs ≠ []) : Text.lowerFrom before cs ≠ [] := by
  cases cs with
  | nil => exact absurd rfl filled
  | cons c rest =>
    have letter : Text.lowerChar c ≠ [] := by
      unfold Text.lowerChar
      split
      · exact nofun
      · split <;> exact nofun
    unfold Text.lowerFrom
    dsimp only
    split
    · exact nofun
    · simp [letter]

theorem snakeNonempty {cs : List Char} (filled : cs ≠ []) : snakeChars cs ≠ [] := by
  have acronyms : ∀ b, splitAcronyms b cs ≠ [] := by
    intro b
    cases cs with
    | nil => exact absurd rfl filled
    | cons c rest =>
      unfold splitAcronyms
      split <;> dsimp only <;> split <;> exact nofun
  have capitals : ∀ b l, l ≠ [] → splitCapitals b l ≠ [] := by
    intro b l filled
    cases l with
    | nil => exact absurd rfl filled
    | cons c rest =>
      unfold splitCapitals
      dsimp only
      split <;> exact nofun
  have separators : ∀ l, l ≠ [] → joinSeparators false l ≠ [] := by
    intro l filled
    cases l with
    | nil => exact absurd rfl filled
    | cons c rest =>
      unfold joinSeparators
      split <;> exact nofun
  exact lowerNonempty [] (separators _ (capitals false _ (acronyms false)))

theorem toSnakeEmpty (s : String) : toSnake s = "" ↔ s = "" := by
  refine ⟨fun empty => ?_, ?_⟩
  · by_contra filled
    have chars : snakeChars s.toList ≠ [] := snakeNonempty fun none => filled (String.toList_eq_nil_iff.mp none)
    exact chars (by simpa [toSnake] using congrArg String.toList empty)
  · rintro rfl
    rfl

end Name

namespace Text

theorem trimBlank (s : String) : trim s = "" ↔ ∀ c ∈ s.toList, isBlank c := by
  have chars : trim s = "" ↔ trimChars s.toList = [] := by
    unfold trim
    rw [← String.toList_eq_nil_iff, String.toList_ofList]
  rw [chars]
  unfold trimChars
  rw [List.reverse_eq_nil_iff, List.dropWhile_eq_nil_iff]
  refine ⟨fun blank c mem => ?_, fun blank c mem => blank c ?_⟩
  · by_cases rest : c ∈ s.toList.dropWhile isBlank
    · exact blank c (List.mem_reverse.mpr rest)
    · rw [← List.takeWhile_append_dropWhile (p := isBlank) (l := s.toList)] at mem
      exact List.mem_takeWhile_imp ((List.mem_append.mp mem).resolve_right rest)
  · exact (List.dropWhile_sublist isBlank).subset (List.mem_reverse.mp mem)

end Text

namespace FieldDeclaration

def isNullable (d : FieldDeclaration) : Bool := (d.type.text?.any fun t => (ScalarType.ofDeclared t).nullable) || d.nullable

end FieldDeclaration

namespace RelationDeclaration

/-- The entity that a relation points at. -/
def reaches (d : RelationDeclaration) : String := Name.toPascal (Name.targetSegment (d.target.text?.getD ""))

def ownSegment (d : RelationDeclaration) : String := Name.lastSegment (d.ownColumn.text?.getD "")

def targetSegment (d : RelationDeclaration) : String := Name.lastSegment (d.targetColumn.text?.getD "")

/-- The parts of a relation that are read as texts are texts, if they are there at all. -/
structure Readable (d : RelationDeclaration) : Prop where
  kind : ∃ shown, d.kind.display = .ok shown
  target : d.target.isTruthy → ∃ s, d.target = .text s
  own : ∃ path, d.ownColumn = .text path
  remote : ∃ path, d.targetColumn = .text path

structure WellFormed (d : RelationDeclaration) (fields : List String) : Prop where
  kind : ∃ k : RelationKind, d.kind = .text k.tag
  target : ∃ s, d.target = .text s ∧ s ≠ ""
  own : d.ownSegment ≠ ""
  remote : d.targetSegment ≠ ""
  declared : Name.toSnake d.ownSegment ∈ fields

end RelationDeclaration

namespace EntityDeclaration

def named (d : EntityDeclaration) : String := d.name.text?.getD ""

def tabled (d : EntityDeclaration) : String := d.tableName.text?.getD ""

structure Readable (d : EntityDeclaration) : Prop where
  name : d.name.isTruthy → ∃ s, d.name = .text s
  table : d.tableName.isNothing ∨ ∃ s, d.tableName = .text s
  fields : ∀ f ∈ d.fields, ∃ s, f.2.type = .text s
  relations : ∀ r ∈ d.relations, r.2.Readable

/-- An entity that is declared well by itself. -/
structure WellFormed (d : EntityDeclaration) : Prop where
  name : d.named ≠ ""
  table : ∃ c ∈ d.tabled.toList, Text.isBlank c = false
  key : ∃ k, d.fields.filter (·.2.primaryKey) = [k] ∧ k.2.isNullable = false
  relations : ∀ r ∈ d.relations, r.2.WellFormed d.fields.names

end EntityDeclaration

/-- Entities that are declared well together: they have names of their own, and their relations to each other join
columns that are there. -/
structure WellDeclared (ds : List EntityDeclaration) : Prop where
  each : ∀ d ∈ ds, d.WellFormed
  names : (ds.map fun d => Name.normalize d.named).Nodup
  targets : ∀ d ∈ ds, ∀ r ∈ d.relations, ∀ e ∈ ds, Name.normalize e.named = Name.normalize r.2.reaches →
    Name.toSnake r.2.targetSegment ∈ e.fields.names

theorem needTextDecides {v : Value} (text : ∃ s, v = .text s) : Decides (needText v) True := by
  obtain ⟨s, rfl⟩ := text
  exact .ok s

theorem needTextOk {v : Value} {s : String} (read : needText v = .ok s) : v = .text s := by
  unfold needText at read
  split at read
  · rw [Except.ok.inj read]
  · cases read

namespace FieldDeclaration

theorem toFieldDecides {name : String} {d : FieldDeclaration} (text : ∃ s, d.type = .text s) : Decides (d.toField name) True := by
  exact ((needTextDecides text).bind fun _ _ => .ok _).congr (by rw [and_self])

theorem toFieldOk {name : String} {d : FieldDeclaration} {f : Field} (read : d.toField name = .ok f) :
    f.name = name ∧ f.primaryKey = d.primaryKey ∧ f.nullable = d.isNullable := by
  obtain ⟨type, typed, read⟩ := Results.bindOk read
  cases read
  exact ⟨rfl, rfl, by simp [isNullable, needTextOk typed, Value.text?]⟩

end FieldDeclaration

namespace RelationKind

theorem ofTagIff {tag : String} {k : RelationKind} : ofTag? tag = some k ↔ tag = k.tag := by
  refine ⟨fun found => ?_, ?_⟩
  · unfold ofTag? at found
    have same := List.find?_some found
    exact (beq_iff_eq.mp same).symm
  · rintro rfl
    cases k <;> rfl

end RelationKind

namespace RelationDeclaration

variable {entity name side : String} {d : RelationDeclaration} {fields : List Field}

theorem kindOf {v : Value} {k : RelationKind} (known : v.text?.bind RelationKind.ofTag? = some k) : v = .text k.tag := by
  obtain ⟨tag, text, found⟩ := Option.bind_eq_some_iff.mp known
  rw [← RelationKind.ofTagIff.mp found]
  unfold Value.text? at text
  split at text
  · obtain rfl := Option.some.inj text
    rfl
  · cases text

theorem columnDecides {v : Value} (text : ∃ path, v = .text path) :
    Decides (columnField v name entity side) (Name.lastSegment (v.text?.getD "") ≠ "") := by
  obtain ⟨path, rfl⟩ := text
  refine Decides.congr ((needTextDecides ⟨path, rfl⟩).bind fun given read => ?_) (by rw [true_and])
  obtain rfl : path = given := Except.ok.inj read
  have empty := Name.toSnakeEmpty (Name.lastSegment path)
  dsimp only
  generalize Name.toSnake (Name.lastSegment path) = column at empty ⊢
  refine (Decides.guarded fun _ => .ok column).congr ?_
  rw [and_true, String.isEmpty_iff, empty]
  rfl

theorem columnOk {v : Value} {out : String} (given : columnField v name entity side = .ok out) :
    out = Name.toSnake (Name.lastSegment (v.text?.getD "")) := by
  obtain ⟨path, read, given⟩ := Results.bindOk given
  rw [needTextOk read]
  dsimp only at given
  split at given
  · obtain ⟨_, refused, _⟩ := Results.bindOk given
    cases refused
  · exact (Except.ok.inj given).symm

theorem draftDecides (readable : d.Readable) : Decides (d.draft entity name fields) (d.WellFormed (fields.map (·.name))) := by
  unfold draft
  split
  · rename_i unknown
    obtain ⟨shown, display⟩ := readable.kind
    rw [display]
    refine (Decides.refused (.unknownKind name entity shown)).congr ⟨nofun, fun formed => ?_⟩
    obtain ⟨k, kind⟩ := formed.kind
    rw [kind] at unknown
    exact nomatch (RelationKind.ofTagIff.mpr rfl).symm.trans unknown
  · rename_i k known
    have kind := kindOf known
    have target : ¬(!d.target.isTruthy) = true → ∃ s, d.target = .text s ∧ s ≠ "" := by
      intro truthy
      rw [Bool.not_eq_true', Bool.not_eq_false] at truthy
      obtain ⟨s, text⟩ := readable.target truthy
      refine ⟨s, text, ?_⟩
      rintro rfl
      rw [text] at truthy
      cases truthy
    refine (Decides.guarded (p := d.ownSegment ≠ "" ∧ d.targetSegment ≠ "" ∧ Name.toSnake d.ownSegment ∈ fields.map (·.name))
      fun given => ?_).congr ?_
    · refine (columnDecides readable.own).bind fun ownName read => (columnDecides readable.remote).bind fun remoteName _ => ?_
      obtain rfl := columnOk read
      change Decides _ (Name.toSnake (Name.lastSegment (d.ownColumn.text?.getD "")) ∈ fields.map (·.name))
      generalize Name.toSnake (Name.lastSegment (d.ownColumn.text?.getD "")) = ownName
      split
      · rename_i missing
        refine (Decides.refused _).congr ⟨nofun, fun declared => ?_⟩
        obtain ⟨f, mem, same⟩ := List.mem_map.mp declared
        exact List.find?_eq_none.mp missing f mem (beq_iff_eq.mpr same)
      · rename_i f found
        have declared : ownName ∈ fields.map (·.name) :=
          List.mem_map.mpr ⟨f, List.mem_of_find?_eq_some found, by simpa using List.find?_some found⟩
        obtain ⟨s, text, -⟩ := target given
        refine ((needTextDecides ⟨s, text⟩).bind fun _ _ => .ok _).congr ?_
        simp only [and_self, declared]
    · refine ⟨fun ⟨given, own, remote, declared⟩ => ⟨⟨k, kind⟩, target given, own, remote, declared⟩, fun formed => ?_⟩
      obtain ⟨s, text, filled⟩ := formed.target
      refine ⟨?_, formed.own, formed.remote, formed.declared⟩
      simp [text, Value.isTruthy, filled]

/-- What a draft takes over from the declaration of a relation. -/
structure DraftedTo (d : RelationDeclaration) (name : String) (fields : List Field) (x : RelationDraft) : Prop where
  name : x.name = name
  kind : d.kind = .text x.kind.tag
  target : x.target = d.reaches
  own : fields.find? (fun f => f.name == x.own.name) = some x.own
  ownName : x.own.name = Name.toSnake d.ownSegment
  remote : x.remoteField = Name.toSnake d.targetSegment

theorem draftOk {x : RelationDraft} (drafted : d.draft entity name fields = .ok x) : d.DraftedTo name fields x := by
  have own := draftOwn drafted
  unfold draft at drafted
  split at drafted
  · obtain ⟨_, -, refused⟩ := Results.bindOk drafted
    cases refused
  · rename_i k known
    dsimp only at drafted
    split at drafted
    · cases drafted
    · obtain ⟨ownName, readOwn, drafted⟩ := Results.bindOk drafted
      obtain ⟨remoteName, readRemote, drafted⟩ := Results.bindOk drafted
      split at drafted
      · cases drafted
      · rename_i f found
        obtain ⟨reference, text, drafted⟩ := Results.bindOk drafted
        obtain rfl := Except.ok.inj drafted
        have target : Name.toPascal (Name.targetSegment reference) = d.reaches := by
          unfold reaches
          rw [needTextOk text]
          rfl
        refine ⟨rfl, kindOf known, target, own, ?_, columnOk readRemote⟩
        have named : f.name = ownName := by simpa using List.find?_some found
        exact named.trans (columnOk readOwn)

end RelationDeclaration

namespace EntityDeclaration

variable {entity : String} {d : EntityDeclaration} {fields : List Field}

theorem nameDecides (readable : d.name.isTruthy → ∃ s, d.name = .text s) : Decides (nameText d.name) True := by
  unfold nameText
  split
  · rename_i truthy
    exact needTextDecides (readable truthy)
  · exact .ok ""

theorem nameOk {s : String} (read : nameText d.name = .ok s) : s = d.named := by
  unfold nameText at read
  unfold named
  split at read
  · rw [needTextOk read]
    rfl
  · rename_i falsy
    obtain rfl := Except.ok.inj read
    cases given : d.name with
    | text s =>
      have empty : s.isEmpty := by
        rw [given] at falsy
        simpa only [Value.isTruthy, Bool.not_eq_true', Bool.not_eq_false] using falsy
      exact (String.isEmpty_iff.mp empty).symm
    | _ => rfl

theorem tableGiven {v : Value} (readable : v.isNothing ∨ ∃ s, v = .text s) :
    tableOf entity v =
      if (Text.trim (v.text?.getD "")).isEmpty then throw (.schema (.tableless entity)) >>= fun _ : PUnit => .ok (Text.trim (v.text?.getD ""))
      else .ok (Text.trim (v.text?.getD "")) := by
  unfold tableOf
  generalize Text.trim = trim
  rcases readable with nothing | ⟨s, rfl⟩
  · cases v with
    | absent | null => rfl
    | _ => cases nothing
  · rfl

theorem tableDecides (readable : d.tableName.isNothing ∨ ∃ s, d.tableName = .text s) :
    Decides (tableOf entity d.tableName) (∃ c ∈ d.tabled.toList, Text.isBlank c = false) := by
  have blank := Text.trimBlank (d.tableName.text?.getD "")
  rw [tableGiven readable]
  generalize Text.trim (d.tableName.text?.getD "") = table at blank ⊢
  refine Decides.congr (Decides.guarded fun _ => .ok _) ?_
  rw [and_true, String.isEmpty_iff, blank]
  simp [tabled]

theorem tableOk {table : String} (readable : d.tableName.isNothing ∨ ∃ s, d.tableName = .text s)
    (read : tableOf entity d.tableName = .ok table) : table = Text.trim d.tabled := by
  rw [tableGiven readable] at read
  split at read
  · cases read
  · exact (Except.ok.inj read).symm

/-- The fields that are read have the names, the keys and the nullability that are declared. -/
theorem fieldsOk {declared : Record FieldDeclaration} (read : declared.mapM (fun (name, f) => f.toField name) = .ok fields) :
    fields.map (·.name) = declared.names ∧
      (fields.filter (·.primaryKey)).map (·.nullable) = (declared.filter (·.2.primaryKey)).map (·.2.isNullable) := by
  have paired := (Results.mapAllPaired read).imp fun _ _ => FieldDeclaration.toFieldOk
  have keys := Results.pairedFilter (p := (·.2.primaryKey)) (q := (·.primaryKey)) (fun d f own => own.2.1.symm) paired
  exact ⟨(Results.pairedMap (fun d f own => own.1.symm) paired).symm, (Results.pairedMap (fun d f own => own.2.2.symm) keys).symm⟩

theorem primaryKeyIff : (∃ key, primaryKeyOf entity fields = .ok key) ↔ (fields.filter (·.primaryKey)).map (·.nullable) = [false] := by
  unfold primaryKeyOf
  split
  · rename_i none
    simp [none]
  · rename_i key one
    rw [one]
    cases nullable : key.nullable <;> simp [nullable]
  · rename_i keys none one
    constructor
    · rintro ⟨_, ⟨⟩⟩
    · intro single
      obtain ⟨key, same, -⟩ := List.map_eq_singleton_iff.mp single
      exact absurd same (one key)

theorem keyIff {declared : Record FieldDeclaration} :
    (declared.filter (·.2.primaryKey)).map (·.2.isNullable) = [false] ↔
      ∃ k, declared.filter (·.2.primaryKey) = [k] ∧ k.2.isNullable = false :=
  List.map_eq_singleton_iff

theorem draftDecides (readable : d.Readable) : Decides d.draft d.WellFormed := by
  have fieldsDecide : Decides (d.fields.mapM fun f => f.2.toField f.1) True := by
    refine (Decides.each fun f mem => FieldDeclaration.toFieldDecides (readable.fields f mem)).congr ?_
    simp
  have parts : d.WellFormed ↔ ¬ d.named.isEmpty = true ∧ (∃ c ∈ d.tabled.toList, Text.isBlank c = false) ∧
      (∃ k, d.fields.filter (·.2.primaryKey) = [k] ∧ k.2.isNullable = false) ∧ ∀ r ∈ d.relations, r.2.WellFormed d.fields.names := by
    rw [String.isEmpty_iff]
    exact ⟨fun formed => ⟨formed.name, formed.table, formed.key, formed.relations⟩, fun ⟨name, table, key, relations⟩ => ⟨name, table, key, relations⟩⟩
  rw [parts]
  refine Decides.congr ((nameDecides readable.name).bind fun entity name => ?_) (by rw [true_and])
  obtain rfl := nameOk name
  refine Decides.guarded fun filled => (tableDecides readable.table).bind fun table _ => ?_
  refine Decides.congr (fieldsDecide.bind fun fields read => ?_) (by rw [true_and])
  obtain ⟨names, keys⟩ := fieldsOk read
  refine Decides.bind ((Decides.ofFault primaryKeyIff).congr (by rw [keys, keyIff])) fun key _ => ?_
  have relationsDecide : Decides (d.relations.mapM fun r => r.2.draft d.named r.1 fields) (∀ r ∈ d.relations, r.2.WellFormed d.fields.names) := by
    refine Decides.each fun r mem => ?_
    rw [← names]
    exact RelationDeclaration.draftDecides (readable.relations r mem)
  exact Decides.congr (relationsDecide.bind fun relations _ => .ok _) (by rw [and_true])

/-- What a draft takes over from the declaration of an entity. -/
structure DraftedTo (d : EntityDeclaration) (x : EntityDraft) : Prop where
  name : x.name = d.named
  table : x.table = Text.trim d.tabled
  fields : List.Forall₂ (fun declared f => declared.2.toField declared.1 = .ok f) d.fields x.fields
  relations : List.Forall₂ (fun r y => r.2.DraftedTo r.1 x.fields y) d.relations x.relations
  keys : x.foreignKeyFields = ((keyRelations x.relations).map (·.own.name)).eraseDups
  types : x.foreignKeyTypes = Record.ofPairs ((keyRelations x.relations).map fun r => (r.own.name, r.own.type))

theorem DraftedTo.names {x : EntityDraft} (drawn : d.DraftedTo x) : x.fields.map (·.name) = d.fields.names :=
  (Results.pairedMap (f := (·.1)) (g := (·.name)) (fun _ _ read => (FieldDeclaration.toFieldOk read).1.symm) drawn.fields).symm

theorem draftOk (readable : d.Readable) {x : EntityDraft} (drafted : d.draft = .ok x) : d.DraftedTo x := by
  obtain ⟨entity, name, drafted⟩ := Results.bindOk drafted
  dsimp only at drafted
  split at drafted
  · cases drafted
  · obtain ⟨table, tabled, drafted⟩ := Results.bindOk drafted
    obtain ⟨fields, read, drafted⟩ := Results.bindOk drafted
    obtain ⟨key, -, drafted⟩ := Results.bindOk drafted
    obtain ⟨relations, listed, drafted⟩ := Results.bindOk drafted
    obtain rfl := Except.ok.inj drafted
    have paired := Results.mapAllPaired listed
    refine ⟨nameOk name, tableOk readable.table tabled, Results.mapAllPaired read, ?_, ?_, ?_⟩
    · exact paired.imp fun _ _ => RelationDeclaration.draftOk
    · exact congrArg List.eraseDups List.map_map
    · exact congrArg Record.ofPairs List.map_map

end EntityDeclaration

namespace Schema

variable {drafts : List EntityDraft} {owner : String}

theorem checkNamesIff {names seen : List String} : checkNames seen names = .ok () ↔
    (names.map Name.normalize).Nodup ∧ ∀ name ∈ names, Name.normalize name ∉ seen := by
  induction names generalizing seen with
  | nil => simp [checkNames]
  | cons name rest ih =>
    unfold checkNames
    split
    · rename_i again
      simp [again]
    · rename_i fresh
      rw [ih, List.map_cons, List.nodup_cons, List.forall_mem_cons, List.mem_map]
      simp only [List.mem_cons, not_or]
      refine ⟨fun ⟨apart, others⟩ => ?_, fun ⟨⟨own, apart⟩, _, others⟩ => ?_⟩
      · refine ⟨⟨?_, apart⟩, fresh, fun other mem => (others other mem).2⟩
        rintro ⟨other, mem, same⟩
        exact (others other mem).1 same
      · exact ⟨apart, fun other mem => ⟨fun same => own ⟨other, mem, same⟩, others other mem⟩⟩

theorem targetIff (apart : (drafts.map fun x => Name.normalize x.name).Nodup) {name : String} {t : EntityDraft} :
    target? drafts name = some t ↔ t ∈ drafts ∧ Name.normalize t.name = Name.normalize name := by
  have found : ∀ {t}, target? drafts name = some t → t ∈ drafts ∧ Name.normalize t.name = Name.normalize name :=
    fun here => ⟨List.mem_of_find?_eq_some here, by simpa using List.find?_some here⟩
  refine ⟨found, fun ⟨mem, same⟩ => ?_⟩
  cases here : target? drafts name with
  | none => exact absurd (beq_iff_eq.mpr same) (List.find?_eq_none.mp here t mem)
  | some u =>
    obtain ⟨there, named⟩ := found here
    rw [List.inj_on_of_nodup_map apart there mem (named.trans same.symm)]

theorem relationIff {r : RelationDraft} : (∃ y, resolveRelation drafts owner r = .ok y) ↔
    ∀ t, target? drafts r.target = some t → r.remoteField ∈ t.fields.map (·.name) := by
  unfold resolveRelation
  cases target? drafts r.target with
  | none => simp
  | some t =>
    simp only [Option.some.injEq, forall_eq']
    split
    · rename_i missing
      refine ⟨nofun, fun declared => ?_⟩
      obtain ⟨f, mem, same⟩ := List.mem_map.mp declared
      exact absurd (beq_iff_eq.mpr same) (List.find?_eq_none.mp missing f mem)
    · rename_i f found
      have declared : r.remoteField ∈ t.fields.map (·.name) :=
        List.mem_map.mpr ⟨f, List.mem_of_find?_eq_some found, by simpa using List.find?_some found⟩
      simp [declared]

theorem ofDraftsIff {s : Schema} : ofDrafts drafts = .ok s ↔ (drafts.map fun x => Name.normalize x.name).Nodup ∧
    drafts.mapM (resolveEntity drafts) = .ok s.entities := by
  have names : checkNames [] (drafts.map (·.name)) = .ok () ↔ (drafts.map fun x => Name.normalize x.name).Nodup := by
    rw [checkNamesIff, List.map_map]
    simp [Function.comp_def]
  unfold ofDrafts
  constructor
  · intro made
    obtain ⟨_, checked, made⟩ := Results.bindOk made
    obtain ⟨entities, resolved, made⟩ := Results.bindOk made
    obtain rfl := Except.ok.inj made
    exact ⟨names.mp checked, resolved⟩
  · rintro ⟨apart, resolved⟩
    rw [names.mpr apart, resolved]
    rfl

theorem draftsIff : (∃ s, ofDrafts drafts = .ok s) ↔ (drafts.map fun x => Name.normalize x.name).Nodup ∧
    ∀ x ∈ drafts, ∀ r ∈ x.relations, ∀ t ∈ drafts, Name.normalize t.name = Name.normalize r.target →
      r.remoteField ∈ t.fields.map (·.name) := by
  have entities : ∀ apart : (drafts.map fun x => Name.normalize x.name).Nodup,
      ((∃ es, drafts.mapM (resolveEntity drafts) = .ok es) ↔ ∀ x ∈ drafts, ∀ r ∈ x.relations, ∀ t ∈ drafts,
        Name.normalize t.name = Name.normalize r.target → r.remoteField ∈ t.fields.map (·.name)) := by
    intro apart
    rw [Results.existsMapAll]
    refine forall₂_congr fun x _ => ?_
    have resolved : (∃ e, resolveEntity drafts x = .ok e) ↔ ∃ rs, x.relations.mapM (resolveRelation drafts x.name) = .ok rs := by
      unfold resolveEntity
      rw [Results.existsBind]
      exact ⟨fun ⟨rs, ran, _⟩ => ⟨rs, ran⟩, fun ⟨rs, ran⟩ => ⟨rs, ran, _, rfl⟩⟩
    rw [resolved, Results.existsMapAll]
    refine forall₂_congr fun r _ => ?_
    rw [relationIff]
    simp only [targetIff apart, and_imp]
  constructor
  · rintro ⟨s, made⟩
    obtain ⟨apart, resolved⟩ := ofDraftsIff.mp made
    exact ⟨apart, (entities apart).mp ⟨_, resolved⟩⟩
  · rintro ⟨apart, joined⟩
    obtain ⟨es, resolved⟩ := (entities apart).mpr joined
    exact ⟨⟨es⟩, ofDraftsIff.mpr ⟨apart, resolved⟩⟩

variable {ds : List EntityDeclaration}

theorem draftsPaired (readable : ∀ d ∈ ds, d.Readable) (drafted : ds.mapM EntityDeclaration.draft = .ok drafts) :
    List.Forall₂ EntityDeclaration.DraftedTo ds drafts := by
  have both := (List.forall₂_and_left ds drafts).mpr ⟨readable, Results.mapAllPaired drafted⟩
  exact both.imp fun d x ⟨own, made⟩ => EntityDeclaration.draftOk own made

/-- Drafts join up as their declarations do. -/
theorem joinedIff (paired : List.Forall₂ EntityDeclaration.DraftedTo ds drafts) :
    (∀ x ∈ drafts, ∀ r ∈ x.relations, ∀ t ∈ drafts, Name.normalize t.name = Name.normalize r.target →
      r.remoteField ∈ t.fields.map (·.name)) ↔
    ∀ d ∈ ds, ∀ r ∈ d.relations, ∀ e ∈ ds, Name.normalize e.named = Name.normalize r.2.reaches →
      Name.toSnake r.2.targetSegment ∈ e.fields.names := by
  constructor
  · intro joined d mem r inside e among same
    obtain ⟨x, there, own⟩ := Results.pairedLeft paired d mem
    obtain ⟨t, other, target⟩ := Results.pairedLeft paired e among
    obtain ⟨y, related, drawn⟩ := Results.pairedLeft own.relations r inside
    have found := joined x there y related t other (by rw [target.name, drawn.target, same])
    rwa [drawn.remote, target.names] at found
  · intro joined x there y related t other same
    obtain ⟨d, mem, own⟩ := Results.pairedRight paired x there
    obtain ⟨e, among, target⟩ := Results.pairedRight paired t other
    obtain ⟨r, inside, drawn⟩ := Results.pairedRight own.relations y related
    rw [target.name, drawn.target] at same
    rw [drawn.remote, target.names]
    exact joined d mem r inside e among same

theorem compileDecides (readable : ∀ d ∈ ds, d.Readable) : Decides (compile ds) (WellDeclared ds) := by
  have parts : WellDeclared ds ↔ (∀ d ∈ ds, d.WellFormed) ∧ (ds.map fun d => Name.normalize d.named).Nodup ∧
      ∀ d ∈ ds, ∀ r ∈ d.relations, ∀ e ∈ ds, Name.normalize e.named = Name.normalize r.2.reaches →
        Name.toSnake r.2.targetSegment ∈ e.fields.names :=
    ⟨fun well => ⟨well.each, well.names, well.targets⟩, fun ⟨each, names, targets⟩ => ⟨each, names, targets⟩⟩
  rw [parts]
  refine (Decides.each fun d mem => EntityDeclaration.draftDecides (readable d mem)).bind fun drafts drafted => Decides.ofFault ?_
  have paired := draftsPaired readable drafted
  have names := Results.pairedMap (f := fun d => Name.normalize d.named) (g := fun x => Name.normalize x.name)
    (fun d x own => by rw [own.name]) paired
  rw [draftsIff, joinedIff paired, names]

end Schema

namespace RelationDeclaration

/-- What a relation of a compiled schema has to do with its declaration. The key is stored by the row itself where the
relation belongs to its target, else by the row of the target; of a target outside of the schema nothing is known. -/
structure CompiledTo (d : RelationDeclaration) (s : Schema) (e : Entity) (r : Relation) : Prop where
  kind : d.kind = .text r.kind.tag
  own : r.own.field = Name.toSnake d.ownSegment ∧ ∃ f, e.field? r.own.field = some f ∧ r.own.column = f.column ∧
    (r.kind = .belongsTo → r.foreignKeyType = some f.type ∧ r.foreignKeyNullable = f.nullable)
  remote : r.remote.field = Name.toSnake d.targetSegment
  inside : ∀ t ∈ s.entities, Name.normalize t.name = Name.normalize d.reaches → r.target = t.name ∧ r.targetTable = t.table ∧
    ∃ f, t.field? r.remote.field = some f ∧ r.remote.column = f.column ∧
      (r.kind ≠ .belongsTo → r.foreignKeyType = some f.type ∧ r.foreignKeyNullable = f.nullable)
  outside : (∀ t ∈ s.entities, Name.normalize t.name ≠ Name.normalize d.reaches) → r.target = d.reaches ∧
    r.targetTable = Name.defaultTable d.reaches ∧ r.remote.column = r.remote.field ∧
      (r.kind ≠ .belongsTo → r.foreignKeyType = none ∧ r.foreignKeyNullable = false)

end RelationDeclaration

/-- What an entity of a compiled schema has to do with its declaration. Its foreign keys are the fields by which it
belongs to others, each once, with their types. -/
structure EntityDeclaration.CompiledTo (d : EntityDeclaration) (s : Schema) (e : Entity) : Prop where
  name : e.name = d.named
  table : e.table = Text.trim d.tabled
  fields : List.Forall₂ (fun declared f => declared.2.toField declared.1 = .ok f) d.fields e.fields
  relations : List.Forall₂ (fun declared r => r.name = declared.1 ∧ declared.2.CompiledTo s e r) d.relations e.relations
  keys : e.foreignKeyFields = ((e.relations.filter (·.kind = .belongsTo)).map (·.own.field)).eraseDups
  types : ∀ name, name ≠ "__proto__" →
    Record.get? e.foreignKeyTypes name = if name ∈ e.foreignKeyFields then (e.field? name).map (·.type) else none

namespace Schema

variable {drafts : List EntityDraft} {s : Schema} {owner : String} {d : RelationDeclaration} {e : Entity}

theorem resolvedParts {x : EntityDraft} (resolved : resolveEntity drafts x = .ok e) :
    e.name = x.name ∧ e.table = x.table ∧ e.fields = x.fields ∧ e.foreignKeyFields = x.foreignKeyFields ∧
      e.foreignKeyTypes = x.foreignKeyTypes ∧
      List.Forall₂ (fun r y => resolveRelation drafts x.name r = .ok y) x.relations e.relations := by
  obtain ⟨relations, listed, resolved⟩ := Results.bindOk resolved
  obtain rfl := Except.ok.inj resolved
  exact ⟨rfl, rfl, rfl, rfl, rfl, Results.mapAllPaired listed⟩

/-- The target of a relation is found among the drafts exactly when the schema has an entity of its name. -/
theorem relationCompiled (apart : (drafts.map fun x => Name.normalize x.name).Nodup)
    (paired : List.Forall₂ (fun x e => resolveEntity drafts x = .ok e) drafts s.entities) {name : String} {r : RelationDraft}
    {y : Relation} (drawn : d.DraftedTo name e.fields r) (resolved : resolveRelation drafts owner r = .ok y) :
    y.name = name ∧ d.CompiledTo s e y := by
  have reached : ∀ t ∈ s.entities, Name.normalize t.name = Name.normalize d.reaches →
      ∃ x, target? drafts r.target = some x ∧ t.name = x.name ∧ t.table = x.table ∧ t.fields = x.fields := by
    intro t mem same
    obtain ⟨x, there, made⟩ := Results.pairedRight paired t mem
    obtain ⟨named, table, fields, -⟩ := resolvedParts made
    exact ⟨x, (targetIff apart).mpr ⟨there, by rw [← named, same, drawn.target]⟩, named, table, fields⟩
  have owns : r.ownsKey = true ↔ r.kind = .belongsTo := by
    cases kind : r.kind <;> simp [RelationDraft.ownsKey, RelationKind.keyOwner, kind]
  have own : e.field? r.own.name = some r.own := drawn.own
  unfold resolveRelation at resolved
  cases target : target? drafts r.target with
  | none =>
    rw [target] at resolved
    obtain rfl := Except.ok.inj resolved
    refine ⟨drawn.name, drawn.kind, ⟨drawn.ownName, r.own, own, rfl, fun belongs => ?_⟩, drawn.remote, ?_, fun _ => ?_⟩
    · simp [outsideRelation, owns.mpr belongs]
    · intro t mem same
      obtain ⟨x, found, -⟩ := reached t mem same
      cases target.symm.trans found
    · refine ⟨drawn.target, by rw [← drawn.target]; rfl, rfl, fun other => ?_⟩
      have apart : r.ownsKey = false := by
        rw [Bool.eq_false_iff]
        exact fun mine => other (owns.mp mine)
      simp [outsideRelation, apart]
  | some x =>
    rw [target] at resolved
    obtain ⟨there, named⟩ := (targetIff apart).mp target
    dsimp only at resolved
    split at resolved
    · cases resolved
    · rename_i f found
      obtain rfl := Except.ok.inj resolved
      have remote : f.name = r.remoteField := by simpa using List.find?_some found
      refine ⟨drawn.name, drawn.kind, ⟨drawn.ownName, r.own, own, rfl, fun belongs => ?_⟩, remote.trans drawn.remote, ?_, ?_⟩
      · simp [insideRelation, owns.mpr belongs]
      · intro t mem same
        obtain ⟨x', found', name, table, fields⟩ := reached t mem same
        obtain rfl : x = x' := Option.some.inj (target.symm.trans found')
        refine ⟨name.symm, table.symm, f, ?_, rfl, fun other => ?_⟩
        · unfold Entity.field?
          rw [fields]
          change x.fields.find? (fun g => g.name == f.name) = some f
          rw [remote]
          exact found
        · have apart : r.ownsKey = false := by
            rw [Bool.eq_false_iff]
            exact fun mine => other (owns.mp mine)
          simp [insideRelation, apart]
      · intro none
        obtain ⟨t, mem, made⟩ := Results.pairedLeft paired x there
        refine absurd ?_ (none t mem)
        rw [(resolvedParts made).1, named, drawn.target]

theorem resolvedKeys {x : EntityDraft} (paired : List.Forall₂ (fun r y => resolveRelation drafts x.name r = .ok y) x.relations e.relations) :
    (e.relations.filter (·.kind = .belongsTo)).map (·.own.field) = (keyRelations x.relations).map (·.own.name) := by
  have kept : ∀ r y, resolveRelation drafts x.name r = .ok y → r.ownsKey = decide (y.kind = .belongsTo) ∧ r.own.name = y.own.field := by
    intro r y resolved
    have same : y.kind = r.kind := by
      unfold resolveRelation at resolved
      split at resolved
      · obtain rfl := Except.ok.inj resolved
        rfl
      · split at resolved
        · cases resolved
        · obtain rfl := Except.ok.inj resolved
          rfl
    refine ⟨?_, (resolvedRelation resolved).1.symm⟩
    rw [same]
    cases kind : r.kind <;> simp [RelationDraft.ownsKey, RelationKind.keyOwner, kind]
  have keys := Results.pairedFilter (fun r y resolved => (kept r y resolved).1) paired
  exact (Results.pairedMap (fun r y resolved => (kept r y resolved).2) keys).symm

theorem entityCompiled (apart : (drafts.map fun x => Name.normalize x.name).Nodup)
    (paired : List.Forall₂ (fun x e => resolveEntity drafts x = .ok e) drafts s.entities) {d : EntityDeclaration} {x : EntityDraft}
    (drawn : d.DraftedTo x) (resolved : resolveEntity drafts x = .ok e) : d.CompiledTo s e := by
  obtain ⟨name, table, fields, keyFields, keyTypes, relations⟩ := resolvedParts resolved
  have keys : e.foreignKeyFields = ((e.relations.filter (·.kind = .belongsTo)).map (·.own.field)).eraseDups := by
    rw [keyFields, drawn.keys, resolvedKeys relations]
  refine ⟨name.trans drawn.name, table.trans drawn.table, fields ▸ drawn.fields, ?_, keys, fun field _ => ?_⟩
  · refine Results.pairedTrans drawn.relations relations fun declared r y own made => ?_
    rw [← fields] at own
    exact relationCompiled apart paired own made
  · have typed : ∀ pair ∈ (keyRelations x.relations).map fun r => (r.own.name, r.own.type), (e.field? pair.1).map (·.type) = some pair.2 := by
      intro pair mem
      obtain ⟨r, listed, rfl⟩ := List.mem_map.mp mem
      obtain ⟨declared, -, own⟩ := Results.pairedRight drawn.relations r (List.mem_filter.mp listed).1
      have found : e.field? r.own.name = some r.own := by
        unfold Entity.field?
        rw [fields]
        exact own.own
      rw [found]
      rfl
    have listed : field ∈ e.foreignKeyFields ↔ field ∈ ((keyRelations x.relations).map fun r => (r.own.name, r.own.type)).map (·.1) := by
      rw [keyFields, drawn.keys, List.mem_eraseDups, List.map_map]
      rfl
    rw [keyTypes, drawn.types, Record.getOfPairs (g := fun name => (e.field? name).map (·.type)) typed]
    simp only [listed]

/-- Declarations compile exactly when they are well-formed, and any other failure than a fault of the schema is out of
the question. What they compile to has their relations joined column by column. -/
theorem compilesExactly {ds : List EntityDeclaration} (readable : ∀ d ∈ ds, d.Readable) :
    ((∃ s, compile ds = .ok s) ↔ WellDeclared ds) ∧ (∀ f, compile ds = .error f → ∃ fault, f = .schema fault) ∧
      ∀ s, compile ds = .ok s → List.Forall₂ (fun d e => d.CompiledTo s e) ds s.entities := by
  have decided := compileDecides readable
  refine ⟨decided.exact, decided.fault, fun s compiled => ?_⟩
  obtain ⟨drafts, drafted, compiled⟩ := Results.bindOk compiled
  have made := mapErrorOk compiled
  obtain ⟨apart, -⟩ := draftsIff.mp ⟨s, made⟩
  obtain ⟨_, -, made⟩ := Results.bindOk made
  obtain ⟨entities, resolved, made⟩ := Results.bindOk made
  obtain rfl := Except.ok.inj made
  have paired := Results.mapAllPaired resolved
  exact Results.pairedTrans (draftsPaired readable drafted) paired fun d x e own => entityCompiled apart paired own

/-- Posts and the people who wrote them, each related to the other. -/
def written : List EntityDeclaration :=
  let key : String × FieldDeclaration := ("id", ⟨.text "i32", true, false, false, true, none, none⟩)
  let author : String × FieldDeclaration := ("author_id", ⟨.text "Option<i32>", false, false, false, false, some "author", none⟩)
  [⟨.text "Post", .text "posts", [key, author],
      [("author", ⟨.text "belongs_to", .text "person.Entity", .text "Column.AuthorId", .text "person.Column.Id"⟩)]⟩,
    ⟨.text "Person", .text "people", [key],
      [("posts", ⟨.text "has_many", .text "post.Entity", .text "Column.Id", .text "post.Column.AuthorId"⟩)]⟩]

theorem compilesExactlyOfPosts : ∃ s, compile written = .ok s ∧ WellDeclared written ∧
    s.entities.map (·.foreignKeyFields) = [["author_id"], []] := by
  have readable : ∀ d ∈ written, d.Readable := by
    simp only [written, List.forall_mem_cons]
    refine ⟨⟨fun _ => ⟨_, rfl⟩, .inr ⟨_, rfl⟩, ?_, ?_⟩, ⟨fun _ => ⟨_, rfl⟩, .inr ⟨_, rfl⟩, ?_, ?_⟩, nofun⟩
    · simp
    · simpa using ⟨⟨_, rfl⟩, fun _ => ⟨_, rfl⟩, ⟨_, rfl⟩, ⟨_, rfl⟩⟩
    · simp
    · simpa using ⟨⟨_, rfl⟩, fun _ => ⟨_, rfl⟩, ⟨_, rfl⟩, ⟨_, rfl⟩⟩
  obtain ⟨exact, -, -⟩ := compilesExactly readable
  exact ⟨_, rfl, exact.mp ⟨_, rfl⟩, rfl⟩

end Schema

end EntityQuery
