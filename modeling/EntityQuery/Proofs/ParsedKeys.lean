import EntityQuery.Proofs.IntegerTexts
import EntityQuery.Proofs.KeyRoundTrips
/-! Keys that are read from any text. No failure gets out of a wrapper, an integer in the range of some width is kept as it
is, and what is left as text is the whole text that was given. -/

namespace EntityQuery

/-- The failures of reading a text as a value of a kind: it does not convert, or is no JSON. -/
def Failure.isUnread : Failure → Bool
  | .conversion .. | .wrongSyntax _ => true
  | _ => false

namespace Key

/-- What wrapped text denotes where only those failures count as no key, and any other gets out. -/
def tryWrapped (s : String) : Except Failure (Option Key) :=
  match unwrap? s.toList with
  | none => .ok none
  | some (name, body) =>
    match ofLabel? name with
    | none => .ok none
    | some kind =>
      match ofColumn kind (.text body) with
      | .ok k => .ok (some k)
      | .error failure => if failure.isUnread then .ok none else .error failure

def tryParse (s : String) : Except Failure Key := do return (← tryWrapped s).getD (ofPlain s)

section Wrapped

variable {kind : ScalarType} {s body t : String} {k : Key} {failure : Failure}

theorem columnUnread (refused : ofColumn kind (.text body) = .error failure) : failure.isUnread := by
  cases kind with
  | integer width =>
    simp only [ofColumn, ofInteger, Value.display] at refused
    split at refused
    · split at refused <;> cases refused
      rfl
    · cases refused
      rfl
  | float width =>
    simp only [ofColumn, ofFloat] at refused
    split at refused <;> cases refused
    rfl
  | uuid =>
    simp only [ofColumn] at refused
    split at refused <;> cases refused
    rfl
  | datetime =>
    simp only [ofColumn] at refused
    split at refused <;> cases refused
    rfl
  | bool =>
    simp only [ofColumn] at refused
    split at refused <;> cases refused
    rfl
  | json =>
    simp only [ofColumn, ofDocument] at refused
    split at refused
    · dsimp only [bind, Except.bind] at refused
      split at refused <;> cases refused
      rfl
    · cases refused
      rfl
  | opaqueType =>
    cases refused
    rfl
  | text | date | time => cases refused

theorem wrappedTried (s : String) : tryWrapped s = .ok (ofWrapped? s) := by
  unfold tryWrapped ofWrapped?
  cases unwrap? s.toList with
  | none => rfl
  | some parts =>
    obtain ⟨name, body⟩ := parts
    simp only [Option.bind_eq_bind, Option.bind_some]
    cases ofLabel? name with
    | none => rfl
    | some kind =>
      simp only [Option.bind_some]
      cases read : ofColumn kind (.text body) with
      | ok k => rfl
      | error failure => simp [columnUnread read, Except.toOption]

/-- Text that is taken apart is a name, an opening bracket, the body and a closing bracket. -/
theorem unwrapParts {cs : List Char} {name : String} (taken : unwrap? cs = some (name, body)) :
    cs = name.toList ++ '(' :: (body.toList ++ [')']) := by
  unfold unwrap? at taken
  extract_lets letters at taken
  have parts : letters ++ cs.drop letters.length = cs := List.prefix_iff_eq_append.mp (List.takeWhile_prefix _)
  clear_value letters
  split at taken
  · next c others tail inner opened closed =>
    obtain ⟨rfl, rfl⟩ := Prod.mk.inj (Option.some.inj taken)
    rw [List.drop_add_one_eq_tail_drop, opened, List.tail_cons, List.reverse_eq_cons_iff] at closed
    rw [← parts, opened, closed, String.toList_ofList, String.toList_ofList]
  · cases taken

theorem wrappedParts (read : ofWrapped? s = some k) :
    ∃ kind body, s = label kind ++ "(" ++ body ++ ")" ∧ ofColumn kind (.text body) = .ok k := by
  unfold ofWrapped? at read
  obtain ⟨⟨name, body⟩, taken, read⟩ := Option.bind_eq_some_iff.mp read
  obtain ⟨kind, labelled, made⟩ := Option.bind_eq_some_iff.mp read
  obtain rfl : label kind = name := eq_of_beq (List.find?_some (p := fun kind => label kind == name) labelled)
  refine ⟨kind, body, String.toList_injective ?_, Results.toOptionOk made⟩
  rw [unwrapParts taken]
  simp

theorem columnText (read : ofColumn kind (.text body) = .ok (.text t)) : kind = .text ∧ t = body := by
  cases kind with
  | text =>
    cases read
    exact ⟨rfl, rfl⟩
  | integer width =>
    simp only [ofColumn, ofInteger, Value.display] at read
    split at read
    · split at read <;> cases read
    · cases read
  | float width =>
    simp only [ofColumn, ofFloat] at read
    split at read <;> cases read
  | uuid | datetime | bool =>
    simp only [ofColumn] at read
    split at read <;> cases read
  | json =>
    simp only [ofColumn] at read
    obtain ⟨parsed, same⟩ := documentKey read
    cases same
  | date | time | opaqueType => cases read

end Wrapped

section Parsed

variable {s t : String} {n : Int}

/-- The text of an integer has no bracket, so it is no wrapped text. -/
theorem integerBare (spelled : Number.Spells (Text.trimChars s.toList) n) : ofWrapped? s = none := by
  rw [Option.eq_none_iff_forall_ne_some]
  intro k read
  obtain ⟨kind, body, parts, -⟩ := wrappedParts read
  have bracket : '(' ∈ s.toList := by simp [parts]
  rcases Text.trimLeaves bracket with blank | inside
  · cases blank
  · rcases spelled.chars _ inside with digit | plus | minus
    · cases digit
    · cases plus
    · cases minus

theorem integerParsed (spelled : Number.Spells (Text.trimChars s.toList) n) :
    parse s = match IntegerType.all.find? fun width => width.holds n with
      | some width => .integer width n
      | none => .text s := by
  have read : Number.intOfText? s = some n := spelled.read
  unfold parse ofPlain
  rw [integerBare spelled, read]
  rfl

theorem plainText (left : ofPlain s = .text t) : t = s := by
  unfold ofPlain at left
  split at left
  · split at left
    · cases left
    · cases left
      rfl
  · split_ifs at left
    · unfold ofDecimal at left
      dsimp only at left
      split_ifs at left
      cases left
      rfl
    · cases left
      rfl

theorem textParsed (left : parse s = .text t) : t = s ∨ s = "String(" ++ t ++ ")" := by
  unfold parse at left
  cases wrapped : ofWrapped? s with
  | none =>
    rw [wrapped] at left
    exact .inl (plainText left)
  | some k =>
    rw [wrapped] at left
    obtain ⟨kind, body, parts, read⟩ := wrappedParts wrapped
    obtain rfl : k = .text t := left
    obtain ⟨rfl, rfl⟩ := columnText read
    exact .inr parts

/-- Every text is read as a key, and no failure gets out. An integer in the range of some width is kept as it is in the first
such width, and one out of the range of all stays text. A text is kept as it was given, unless it was wrapped as text. -/
theorem parsedExactly (s : String) :
    tryParse s = .ok (parse s) ∧
      (∀ n, Number.Spells (Text.trimChars s.toList) n →
        if -(2 ^ 63) ≤ n ∧ n < 2 ^ 64 then
          ∃ earlier width later, [.i8, .i16, .i32, .i64, .u8, .u16, .u32, .u64] = earlier ++ width :: later ∧
            parse s = .integer width n ∧ width.holds n ∧ ∀ other ∈ earlier, ¬ other.holds n
        else parse s = .text s) ∧
      ∀ t, parse s = .text t → t = s ∨ s = "String(" ++ t ++ ")" := by
  refine ⟨by simp [tryParse, wrappedTried, parse], fun n spelled => ?_, fun t => textParsed⟩
  have parsed := integerParsed spelled
  split
  · next inside =>
    obtain ⟨width, found⟩ := Option.ne_none_iff_exists'.mp (mt IntegerType.widthNone.mp (not_not.mpr inside))
    rw [found] at parsed
    obtain ⟨holds, earlier, later, order, others⟩ := List.find?_eq_some_iff_append.mp found
    exact ⟨earlier, width, later, order, parsed, holds, by simpa using others⟩
  · next outside =>
    rw [IntegerType.widthNone.mpr outside] at parsed
    exact parsed

/-- The least integer of one byte, and one past the greatest of all widths. -/
theorem integersParsed : tryParse " -00128\n" = .ok (.integer .i8 (-128)) ∧
    Number.Spells (Text.trimChars "+18446744073709551616 ".toList) 18446744073709551616 ∧
      parse "+18446744073709551616 " = .text "+18446744073709551616 " := by
  have spelled : Number.Spells (Text.trimChars "+18446744073709551616 ".toList) 18446744073709551616 :=
    .plus (show "18446744073709551616".toList ≠ [] by decide) (List.all_eq_true.mp rfl)
  have kept := (parsedExactly "+18446744073709551616 ").2.1 _ spelled
  rw [if_neg (by decide)] at kept
  exact ⟨(parsedExactly " -00128\n").1, spelled, kept⟩

end Parsed

end Key

end EntityQuery
