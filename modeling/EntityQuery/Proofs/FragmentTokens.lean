import EntityQuery.Proofs.SqlTokens
import Mathlib.Data.List.Chain
/-! The tokens of fragments. Pieces that no token can run across are read one by one, so a fragment spells the tokens
of its pieces, names as they are given and placeholders as the operands that they bind. -/

namespace EntityQuery.Sql

/-- The tokens of fixed words. -/
def fixed (s : String) : List Token := (tokens s).getD []

namespace Piece

/-- The tokens of a piece with its parameters. -/
def read (params : List Value) : Piece → List Token
  | .words s => fixed s
  | .name s => [.name s]
  | .place i => [Token.bound params (.place (i + 1))]

def tokens : Piece → List Token
  | .words s => fixed s
  | .name s => [.name s]
  | .place i => [.place (i + 1)]

/-- Words that end where no token is open. -/
def closes : Piece → Bool
  | .words s => match Scan.between.run s.toList with
    | some (_, last) => last == .between
    | none => false
  | _ => false

/-- Words that end every token before them. -/
def breaks : Piece → Bool
  | .words s => s.toList.head?.any Scan.breaks.contains
  | _ => false

/-- Words that are whole tokens, with no placeholder among them. -/
def plain : Piece → Bool
  | .words s => match Scan.between.run s.toList with
    | some (before, last) => last.rests && (last.done.any fun ended => (before ++ ended).all fun t => !t.isPlace)
    | none => false
  | _ => true

/-- Does the first piece end before the second begins? -/
def Fits (p q : Piece) : Prop := p.closes ∨ q.breaks

@[simp] theorem shiftCloses (n : Nat) (p : Piece) : (p.shift n).closes = p.closes := by
  cases p <;> rfl

@[simp] theorem shiftBreaks (n : Nat) (p : Piece) : (p.shift n).breaks = p.breaks := by
  cases p <;> rfl

@[simp] theorem shiftPlain (n : Nat) (p : Piece) : (p.shift n).plain = p.plain := by
  cases p <;> rfl

theorem plainWords {s : String} (plain : (words s).plain) :
    ∃ before last ended, Scan.between.run s.toList = some (before, last) ∧ last.rests ∧ last.done = some ended ∧
      (words s).tokens = before ++ ended ∧ ∀ t ∈ before ++ ended, t.isPlace = false := by
  unfold Piece.plain at plain
  dsimp only at plain
  split at plain
  · rename_i before last ran
    obtain ⟨rests, ended⟩ := (Bool.and_eq_true ..).mp plain
    obtain ⟨more, finished, all⟩ := (Option.any_eq_true ..).mp ended
    refine ⟨before, last, more, ran, rests, finished, ?_, fun t mem => ?_⟩
    · simp [tokens, fixed, Sql.tokens, Scan.read, ran, finished]
    · simpa using List.all_eq_true.mp all t mem
  · cases plain

theorem readTokens {params : List Value} {p : Piece} (plain : p.plain) : p.tokens.map (Token.bound params) = p.read params := by
  cases p with
  | name s => rfl
  | place i => rfl
  | words s =>
    obtain ⟨before, last, ended, -, -, -, whole, free⟩ := plainWords plain
    show (words s).tokens.map _ = (words s).tokens
    rw [whole]
    exact (List.map_congr_left fun t mem => Token.boundOther (free t mem)).trans (List.map_id _)

theorem runQuoted (s : String) : Scan.between.run (quoteName s).toList = some ([], .nameEnd s.toList.reverse) := by
  unfold quoteName
  rw [String.toList_ofList, List.cons_append, Scan.runSilent _ (show Scan.between.step '"' = some ([], .name []) from rfl),
    Scan.runName, List.append_nil]

theorem runNumbered (i : Nat) : Scan.between.run (Piece.place i).text.toList = some ([], .place (i + 1)) := by
  have written : (Piece.place i).text.toList = '$' :: Nat.toDigits 10 (i + 1) := by
    have counted : ¬ (((i : Int) + 1) < 0) := by omega
    have digits : ((i : Int) + 1).natAbs = i + 1 := by omega
    unfold Piece.text Number.intText
    rw [String.toList_append, if_neg counted, digits]
    exact congrArg (['$'] ++ ·) String.toList_ofList
  rw [written, Scan.runPlace]

/-- What has been read at the end of a piece, and the tokens that are complete there. -/
theorem scanned {p : Piece} (plain : p.plain) :
    ∃ before last ended, Scan.between.run p.text.toList = some (before, last) ∧ last.rests ∧ last.done = some ended ∧
      p.tokens = before ++ ended ∧ (p.closes → last = .between) := by
  cases p with
  | name s =>
    refine ⟨[], .nameEnd s.toList.reverse, _, runQuoted s, rfl, rfl, ?_, nofun⟩
    simp [tokens]
  | place i => exact ⟨[], .place (i + 1), _, runNumbered i, rfl, rfl, rfl, nofun⟩
  | words s =>
    obtain ⟨before, last, ended, ran, rests, finished, whole, -⟩ := plainWords plain
    refine ⟨before, last, ended, ran, rests, finished, whole, fun closes => ?_⟩
    unfold Piece.closes at closes
    dsimp only at closes
    rw [ran] at closes
    exact eq_of_beq closes

theorem readPiece {p : Piece} {rest : List Char} (plain : p.plain)
    (fits : p.closes ∨ ∀ c ∈ rest.head?, c ∈ Scan.breaks) :
    Scan.between.read (p.text.toList ++ rest) = (Scan.between.read rest).map (p.tokens ++ ·) := by
  obtain ⟨before, last, ended, ran, rests, finished, whole, closed⟩ := scanned plain
  rw [Scan.readAppend ran, Scan.readRest rests finished (fits.imp_left closed), whole]
  cases Scan.between.read rest <;> simp

theorem breaksHead {p : Piece} {rest : List Char} (breaks : p.breaks) : ∀ c ∈ (p.text.toList ++ rest).head?, c ∈ Scan.breaks := by
  cases p with
  | words s =>
    unfold Piece.breaks at breaks
    unfold Piece.text
    dsimp only at breaks ⊢
    cases written : s.toList with
    | nil => simp [written] at breaks
    | cons c cs =>
      rw [written] at breaks
      simpa using breaks
  | name s => cases breaks
  | place i => cases breaks

/-- By induction on the pieces: where each ends before the next begins, they are read one by one. -/
theorem readAll {ps : List Piece} (plain : ∀ p ∈ ps, p.plain) (apart : ps.IsChain Fits) :
    Scan.between.read (ps.flatMap fun p => p.text.toList) = some (ps.flatMap tokens) := by
  induction ps with
  | nil => rfl
  | cons p rest ih =>
    obtain ⟨here, later⟩ := List.forall_mem_cons.mp plain
    obtain ⟨fits, apart⟩ := List.isChain_cons.mp apart
    rw [List.flatMap_cons, readPiece here, ih later apart, List.flatMap_cons]
    · rfl
    · cases rest with
      | nil => exact .inr nofun
      | cons q rest => exact (fits q rfl).imp_right breaksHead

end Piece

namespace Fragment

/-- The tokens of a fragment with what its placeholders stand for. -/
def read (f : Fragment) : List Token := f.pieces.flatMap (Piece.read f.params)

/-- No token of a fragment runs across two of its pieces, and each placeholder binds a parameter. -/
structure Sound (f : Fragment) : Prop where
  plain : ∀ p ∈ f.pieces, p.plain
  apart : f.pieces.IsChain Piece.Fits
  bounded : ∀ i, .place i ∈ f.pieces → i < f.params.length

def Closes (f : Fragment) : Prop := ∀ p ∈ f.pieces.getLast?, p.closes

def Breaks (f : Fragment) : Prop := ∀ p ∈ f.pieces.head?, p.breaks

variable {a b f : Fragment} {before between after : String}

theorem readText (sound : Sound f) : (tokens f.text).map (·.map (Token.bound f.params)) = some f.read := by
  have listed : f.text.toList = f.pieces.flatMap fun p => p.text.toList := by
    simp [text, String.toList_join, List.flatMap_map]
  rw [tokens, listed, Piece.readAll sound.plain sound.apart, Option.map_some, List.map_flatMap]
  exact congrArg some (List.flatMap_congr fun p mem => Piece.readTokens (sound.plain p mem))

theorem readMore {ps : List Piece} {params more : List Value} (bounded : ∀ i, .place i ∈ ps → i < params.length) :
    ps.flatMap (Piece.read (params ++ more)) = ps.flatMap (Piece.read params) := by
  refine List.flatMap_congr fun p mem => ?_
  cases p with
  | place i => simp [Piece.read, Token.bound, List.getElem?_append_left (bounded i mem)]
  | words s => rfl
  | name s => rfl

theorem readShifted (ps : List Piece) (params more : List Value) (bounded : ∀ i, .place i ∈ ps → i < more.length) :
    (ps.map (Piece.shift params.length)).flatMap (Piece.read (params ++ more)) = ps.flatMap (Piece.read more) := by
  rw [List.flatMap_map]
  refine List.flatMap_congr fun p mem => ?_
  cases p with
  | place i => simp [Piece.shift, Piece.read, Token.bound, List.getElem?_append_right, List.getElem?_eq_getElem (bounded i mem)]
  | words s => rfl
  | name s => rfl

/-- A fragment that spells certain tokens. -/
def Spells (f : Fragment) (ts : List Token) : Prop := f.Sound ∧ f.read = ts

theorem spellsAppend {ts us : List Token} (first : a.Spells ts) (second : b.Spells us) (fits : a.Closes ∨ b.Breaks) :
    (a ++ b).Spells (ts ++ us) := by
  obtain ⟨left, rfl⟩ := first
  obtain ⟨right, rfl⟩ := second
  refine ⟨⟨?_, ?_, ?_⟩, ?_⟩
  · intro p mem
    rw [append_pieces, List.mem_append, List.mem_map] at mem
    rcases mem with mem | ⟨q, mem, rfl⟩
    · exact left.plain p mem
    · exact (Piece.shiftPlain _ q).trans (right.plain q mem)
  · rw [append_pieces, List.isChain_append]
    refine ⟨left.apart, (List.isChain_map _).mpr (right.apart.imp fun p q fits => ?_), fun p last q head => ?_⟩
    · simpa [Piece.Fits] using fits
    · rw [List.head?_map, Option.mem_def, Option.map_eq_some_iff] at head
      obtain ⟨q, head, rfl⟩ := head
      rw [Piece.Fits, Piece.shiftBreaks]
      exact fits.imp (fun closes => closes p last) fun breaks => breaks q head
  · intro i mem
    rw [append_pieces, List.mem_append, List.mem_map] at mem
    rw [append_params, List.length_append]
    rcases mem with mem | ⟨q, mem, shifted⟩
    · have := left.bounded i mem
      omega
    · cases q with
      | place j =>
        cases shifted
        have := right.bounded j mem
        omega
      | _ => cases shifted
  · unfold read
    rw [append_pieces, append_params, List.flatMap_append, readMore left.bounded, readShifted _ _ _ right.bounded]

theorem spellsEmpty : empty.Spells [] := ⟨⟨nofun, .nil, nofun⟩, rfl⟩

theorem spellsWords {s : String} (plain : (Piece.words s).plain) : (words s).Spells (fixed s) := by
  refine ⟨⟨?_, .singleton _, ?_⟩, List.append_nil _⟩ <;> simp [words, plain]

theorem spellsName (s : String) : (name s).Spells [.name s] := by
  refine ⟨⟨?_, .singleton _, ?_⟩, rfl⟩ <;> simp [name, Piece.plain]

theorem spellsBind (v : Value) : (bind v).Spells [.operand v] := by
  refine ⟨⟨?_, .singleton _, ?_⟩, rfl⟩ <;> simp [bind, Piece.plain]

theorem closesWords {s : String} (closes : (Piece.words s).closes) : (a ++ words s).Closes := by
  simp [Closes, words, Piece.shift, closes]

theorem breaksWords {s : String} (breaks : (Piece.words s).breaks) : (words s).Breaks := by
  simp [Breaks, words, breaks]

/-- Words that begin where no token is open, and words that end the token before them. -/
def Opens (s : String) : Prop := (Piece.words s).plain ∧ (Piece.words s).closes

def Ends (s : String) : Prop := (Piece.words s).plain ∧ (Piece.words s).breaks

instance (s : String) : Decidable (Opens s) := inferInstanceAs (Decidable (_ ∧ _))

instance (s : String) : Decidable (Ends s) := inferInstanceAs (Decidable (_ ∧ _))

section Spelled

variable {ts us : List Token} {s : String}

theorem spellsEnded (first : a.Spells ts) (ends : Ends s) : (a ++ words s).Spells (ts ++ fixed s) :=
  spellsAppend first (spellsWords ends.1) (.inr (breaksWords ends.2))

theorem spellsOpened (opens : Opens s) (second : b.Spells ts) : (words s ++ b).Spells (fixed s ++ ts) :=
  spellsAppend (spellsWords opens.1) second (.inl (by simp [Closes, words, opens.2]))

theorem spellsParted (first : a.Spells ts) (ends : Ends s) (opens : Opens s) (second : b.Spells us) :
    (a ++ words s ++ b).Spells (ts ++ fixed s ++ us) :=
  spellsAppend (spellsEnded first ends) second (.inl (closesWords opens.2))

theorem spellsJoin {fs : List Fragment} {tss : List (List Token)} (each : List.Forall₂ Spells fs tss) (ends : Ends s)
    (opens : Opens s) : (join s fs).Spells ((fixed s).intercalate tss) := by
  induction each with
  | nil => exact spellsEmpty
  | cons first rest ih =>
    cases rest with
    | nil => simpa [join] using first
    | cons second rest =>
      rw [List.intercalate_cons_cons, join]
      · exact spellsParted first ends opens ih
      · exact nofun

theorem chainEnded {ps : List Piece} (apart : ps.IsChain Piece.Fits) (ends : Ends s) {rest : List Piece}
    (later : (Piece.words s :: rest).IsChain Piece.Fits) : (ps ++ Piece.words s :: rest).IsChain Piece.Fits := by
  refine List.isChain_append.mpr ⟨apart, later, fun p _ q head => ?_⟩
  cases head
  exact .inr ends.2

theorem chainOpened {ps : List Piece} (apart : ps.IsChain Piece.Fits) (opens : Opens s) :
    (Piece.words s :: ps).IsChain Piece.Fits :=
  List.isChain_cons.mpr ⟨fun _ _ => .inl opens.2, apart⟩

theorem spellsTwice (opening parting ending : String) (spells : f.Spells ts) (opens : Opens opening)
    (parts : Ends parting ∧ Opens parting) (ends : Ends ending) :
    (f.twice opening parting ending).Spells (fixed opening ++ ts ++ fixed parting ++ ts ++ fixed ending) := by
  obtain ⟨sound, rfl⟩ := spells
  have again := chainEnded sound.apart ends (.singleton _)
  refine ⟨⟨?_, ?_, ?_⟩, ?_⟩
  · intro p mem
    simp only [twice, List.cons_append, List.append_assoc, List.mem_cons, List.mem_append, List.not_mem_nil, or_false] at mem
    rcases mem with rfl | mem | rfl | mem | rfl
    · exact opens.1
    · exact sound.plain p mem
    · exact parts.1.1
    · exact sound.plain p mem
    · exact ends.1
  · simpa [twice] using chainOpened (chainEnded sound.apart parts.1 (chainOpened again parts.2)) opens
  · intro i mem
    exact sound.bounded i (by simpa [twice] using mem)
  · simp [read, twice, Piece.read]

end Spelled

end Fragment

end EntityQuery.Sql
