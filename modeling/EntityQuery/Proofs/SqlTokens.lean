import EntityQuery.Proofs.DigitTexts
import EntityQuery.Sql.Fragment
/-! The tokens of SQL text, read one character after another. Names stand between double quotes and literals between
single quotes, a quote inside being doubled; `$` and digits are a placeholder; unquoted words are read in lower case.
Text is refused where it would need more of the lexical rules: comments, quotes right after a word, dollar quotes,
fractions, and operators that the rules would cut in two. The bounds that a database sets on a name, such as its
length, are no matter of the text. -/

namespace EntityQuery.Sql

/-- A token of SQL text. `operand` is a placeholder together with what it stands for. -/
inductive Token where
  | word (s : String)
  | name (s : String)
  | literal (s : String)
  | place (n : Nat)
  | operand (v : Value)
  | digits (n : Nat)
  | sign (s : String)
  | mark (c : Char)
  | cast
  deriving Repr

namespace Token

/-- A token with the parameter that its placeholder binds; placeholders count from one. -/
def bound (params : List Value) : Token → Token
  | .place (n + 1) => (params[n]?.map operand).getD (.place (n + 1))
  | t => t

def isPlace : Token → Bool
  | .place _ => true
  | _ => false

theorem boundOther {params : List Value} {t : Token} (other : t.isPlace = false) : t.bound params = t := by
  cases t <;> first | rfl | cases other

end Token

def isMark (c : Char) : Bool := "()[],.;".toList.contains c

def isSign (c : Char) : Bool := "+-*/<>=~!@#%^&|`?".toList.contains c

def isLetter (c : Char) : Bool := c.isAlpha || c == '_'

/-- Does a comment begin in a run of signs, the last one first? -/
def hasComment : List Char → Bool
  | b :: a :: rest => (a == '-' && b == '-') || (a == '/' && b == '*') || hasComment (a :: rest)
  | _ => false

/-- Is a run of signs, the last one first, one operator? Only some signs let a longer one end in `+` or `-`. -/
def isOperator (signs : List Char) : Bool :=
  !hasComment signs && (signs.length == 1 || !"+-".toList.contains (signs.headD '=') ||
    signs.any "~!@#%^&|`?".toList.contains)

def digitOf (c : Char) : Nat := c.toNat - '0'.toNat

/-- What has been read of a token, characters with the last one first. `nameEnd` and `literalEnd` have read a quote
that ends the token unless another one follows. -/
inductive Scan where
  | between
  | word (letters : List Char)
  | digits (n : Nat)
  | dollar
  | place (n : Nat)
  | sign (signs : List Char)
  | colon
  | name (chars : List Char)
  | nameEnd (chars : List Char)
  | literal (chars : List Char)
  | literalEnd (chars : List Char)
  deriving DecidableEq, Repr

namespace Scan

/-- The tokens that are complete where the text ends or something else begins. -/
def done : Scan → Option (List Token)
  | between => some []
  | word cs => some [.word (String.ofList cs.reverse)]
  | digits n => some [.digits n]
  | place n => some [.place n]
  | sign cs => if isOperator cs then some [.sign (String.ofList cs.reverse)] else none
  | nameEnd cs => some [.name (String.ofList cs.reverse)]
  | literalEnd cs => some [.literal (String.ofList cs.reverse)]
  | dollar | colon | name _ | literal _ => none

/-- A character where no token has begun. -/
def start (c : Char) : Option (List Token × Scan) :=
  if c.isWhitespace then some ([], between)
  else if isLetter c then some ([], word [c.toLower])
  else if c.isDigit then some ([], digits (digitOf c))
  else if c = '$' then some ([], dollar)
  else if c = '"' then some ([], name [])
  else if c = '\x27' then some ([], literal [])
  else if c = ':' then some ([], colon)
  else if isMark c then some ([.mark c], between)
  else if isSign c then some ([], sign [c])
  else none

/-- A character that does not belong to the token before it. -/
def turn (m : Scan) (c : Char) : Option (List Token × Scan) := do
  let before ← m.done
  let (tokens, next) ← start c
  return (before ++ tokens, next)

def step (m : Scan) (c : Char) : Option (List Token × Scan) :=
  match m with
  | name cs => some ([], if c = '"' then nameEnd cs else name (c :: cs))
  | nameEnd cs => if c = '"' then some ([], name (c :: cs)) else turn m c
  | literal cs => some ([], if c = '\x27' then literalEnd cs else literal (c :: cs))
  | literalEnd cs => if c = '\x27' then some ([], literal (c :: cs)) else turn m c
  | word cs =>
    if isLetter c || c.isDigit || c == '$' then some ([], word (c.toLower :: cs))
    else if "\"'&".toList.contains c then none
    else turn m c
  | digits n =>
    if c.isDigit then some ([], digits (10 * n + digitOf c)) else if isLetter c || c == '.' then none else turn m c
  | dollar => if c.isDigit then some ([], place (digitOf c)) else none
  | place n =>
    if c.isDigit then some ([], place (10 * n + digitOf c)) else if isLetter c then none else turn m c
  | sign cs => if isSign c then some ([], sign (c :: cs)) else turn m c
  | colon => if c = ':' then some ([.cast], between) else none
  | between => start c

/-- The tokens of characters, and what has been read of one more. -/
def run (m : Scan) : List Char → Option (List Token × Scan)
  | [] => some ([], m)
  | c :: rest => do
    let (tokens, next) ← step m c
    let (more, last) ← run next rest
    return (tokens ++ more, last)

/-- The tokens of characters that nothing follows. -/
def read (m : Scan) (cs : List Char) : Option (List Token) := do
  let (tokens, last) ← run m cs
  return tokens ++ (← last.done)

end Scan

/-- The tokens of a text. -/
def tokens (text : String) : Option (List Token) := Scan.between.read text.toList

example : tokens "NOT (\"a\"\"b\".\"c\" #>> '\x7b\x7d' <> $12::text[])" =
    some [.word "not", .mark '(', .name "a\"b", .mark '.', .name "c", .sign "#>>", .literal "\x7b\x7d", .sign "<>",
      .place 12, .cast, .word "text", .mark '[', .mark ']', .mark ')'] := rfl

namespace Scan

/-- Does a token that ends here end wherever a break follows? -/
def rests : Scan → Bool
  | between | word _ | place _ | nameEnd _ => true
  | _ => false

/-- Characters that end every token they follow. -/
def breaks : List Char := " ()[],.;:".toList

theorem runAppend (m : Scan) (a b : List Char) :
    run m (a ++ b) = (run m a).bind fun first => (run first.2 b).map fun second => (first.1 ++ second.1, second.2) := by
  induction a generalizing m with
  | nil => simp [run]
  | cons c rest ih =>
    cases stepped : step m c with
    | none => simp [run, stepped]
    | some next =>
      simp only [List.cons_append, run, stepped, ih, Option.bind_eq_bind, Option.bind_some, Option.pure_def]
      cases run next.2 rest with
      | none => rfl
      | some last => cases ended : run last.2 b <;> simp [ended]

theorem readAppend {m next : Scan} {a b : List Char} {before : List Token} (ran : run m a = some (before, next)) :
    read m (a ++ b) = (read next b).map (before ++ ·) := by
  unfold read
  rw [runAppend, ran]
  cases ended : run next b with
  | none => simp [ended]
  | some last => cases closed : last.2.done <;> simp [ended, closed]

/-- A break is part of no word, placeholder or name. -/
theorem stepBreak {m : Scan} {c : Char} (rests : m.rests) (mem : c ∈ breaks) : step m c = turn m c := by
  have apart : breaks.all fun c => !(isLetter c || c.isDigit || c == '$' || c == '"' || "\"'&".toList.contains c) := by
    decide
  have plain := List.all_eq_true.mp apart c mem
  simp only [Bool.not_eq_true', Bool.or_eq_false_iff] at plain
  obtain ⟨⟨⟨⟨letter, digit⟩, dollar⟩, quote⟩, special⟩ := plain
  cases m with
  | between =>
    unfold step turn
    cases start c <;> simp [done]
  | word cs =>
    unfold step
    rw [letter, digit, dollar, special]
    rfl
  | place n =>
    unfold step
    rw [letter, digit]
    rfl
  | nameEnd cs => exact if_neg (beq_eq_false_iff_ne.mp quote)
  | _ => cases rests

theorem readBreak {m : Scan} {c : Char} {rest : List Char} {ended : List Token} (rests : m.rests)
    (finished : m.done = some ended) (mem : c ∈ breaks) :
    read m (c :: rest) = (read between (c :: rest)).map (ended ++ ·) := by
  have here : step m c = (start c).map fun next => (ended ++ next.1, next.2) := by
    rw [stepBreak rests mem]
    unfold turn
    cases start c <;> simp [finished]
  unfold read
  simp only [run]
  rw [here, show step between c = start c from rfl]
  cases start c with
  | none => rfl
  | some next =>
    cases ran : run next.2 rest with
    | none => simp [ran]
    | some last => cases closed : last.2.done <;> simp [ran, closed]

theorem readRest {m : Scan} {rest : List Char} {ended : List Token} (rests : m.rests) (finished : m.done = some ended)
    (fits : m = between ∨ ∀ c ∈ rest.head?, c ∈ breaks) : read m rest = (read between rest).map (ended ++ ·) := by
  rcases fits with rfl | follows
  · cases finished
    cases read between rest <;> rfl
  · cases rest with
    | nil => simp [read, run, finished, show between.done = some [] from rfl]
    | cons c rest => exact readBreak rests finished (follows c rfl)

theorem runSilent {m next : Scan} {c : Char} (rest : List Char) (stepped : step m c = some ([], next)) :
    run m (c :: rest) = run next rest := by
  rw [run, stepped]
  cases ran : run next rest <;> simp [ran]

/-- A quote inside a name is doubled, so the name reads back whole. -/
theorem runName (cs : List Char) (before : List Char) :
    run (name before) ((cs.flatMap fun c => if c = '"' then ['"', '"'] else [c]) ++ ['"']) =
      some ([], nameEnd (cs.reverse ++ before)) := by
  induction cs generalizing before with
  | nil => rfl
  | cons c rest ih =>
    have last : (c :: rest).reverse ++ before = rest.reverse ++ c :: before := by simp
    rw [List.flatMap_cons, List.append_assoc, last, ← ih]
    by_cases quote : c = '"'
    · subst quote
      exact (runSilent _ rfl).trans (runSilent _ rfl)
    · rw [if_neg quote]
      exact runSilent _ (by simp [step, quote])

theorem runDigits {ds : List Char} (digits : ∀ d ∈ ds, d.isDigit) (n : Nat) :
    run (place n) ds = some ([], place (Nat.ofDigitChars 10 ds n)) := by
  induction ds generalizing n with
  | nil => rfl
  | cons d rest ih =>
    obtain ⟨here, later⟩ := List.forall_mem_cons.mp digits
    rw [Nat.ofDigitChars_cons, ← show digitOf d = d.toNat - '0'.toNat from rfl, ← ih later]
    exact runSilent rest (by simp [step, here])

theorem runPlace (n : Nat) : run between ('$' :: Nat.toDigits 10 n) = some ([], place n) := by
  have digits := Number.naturalDigits n
  have value := Nat.ofDigitChars_ten_toDigits (n := n)
  cases written : Nat.toDigits 10 n with
  | nil => exact absurd written Nat.toDigits_ne_nil
  | cons d rest =>
    rw [written] at digits value
    obtain ⟨here, later⟩ := List.forall_mem_cons.mp digits
    rw [Nat.ofDigitChars_cons, Nat.mul_zero, Nat.zero_add, ← show digitOf d = d.toNat - '0'.toNat from rfl] at value
    rw [runSilent _ (show step between '$' = some ([], dollar) from rfl),
      runSilent rest (show step dollar d = some ([], place (digitOf d)) by simp [step, here]), runDigits later, value]

end Scan

end EntityQuery.Sql
