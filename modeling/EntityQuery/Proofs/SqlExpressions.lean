import EntityQuery.Proofs.SqlTokens
import Mathlib.Data.List.Forall2
/-! Expressions of SQL, read by operator precedence. Operators wait for their right operand on a stack, and a token
that binds more weakly closes them; a bracket sets the operators outside aside. Between the levels stand, from the
weakest on, `OR`, `AND`, `NOT`, `IS`, comparisons, `LIKE` and `IN`, all other operators, the sign of a number, and
casts. -/

namespace EntityQuery.Sql

/-- An expression. A chain of conjunctions or disjunctions is one node, and parentheses leave what they hold. -/
inductive Expr where
  | column (table name : String)
  | operand (v : Value)
  | literal (s : String)
  | number (n : Nat)
  | truth (b : Bool)
  | negative (e : Expr)
  | cast (e : Expr) (type : String) (list : Bool)
  | binary (sign : String) (left right : Expr)
  | among (e : Expr) (items : List Expr) (negated : Bool)
  | null (e : Expr) (negated : Bool)
  | not (e : Expr)
  | all (members : List Expr)
  | any (members : List Expr)
  | present (table label : String) (inner : Expr)
  deriving Repr

namespace Level

abbrev or : Nat := 1
abbrev and : Nat := 2
abbrev not : Nat := 3
abbrev is : Nat := 4
abbrev comparison : Nat := 5
abbrev pattern : Nat := 6
abbrev operator : Nat := 7
abbrev sign : Nat := 8
abbrev cast : Nat := 9

end Level

/-- `AND`, or `OR`. -/
inductive Connective where
  | and | or
  deriving DecidableEq, Repr

namespace Connective

def level : Connective → Nat
  | and => Level.and
  | or => Level.or

def word : Connective → String
  | and => "and"
  | or => "or"

def node : Connective → List Expr → Expr
  | and => .all
  | or => .any

end Connective

/-- An operator that waits for its last operand. -/
inductive Pending where
  | chain (connective : Connective) (members : List Expr)
  | not
  | binary (level : Nat) (sign : String) (left : Expr)
  | negative
  deriving Repr

namespace Pending

def level : Pending → Nat
  | chain c _ => c.level
  | not => Level.not
  | binary level _ _ => level
  | negative => Level.sign

def close : Pending → Expr → Expr
  | chain c members, e => c.node (members ++ [e])
  | not, e => .not e
  | binary _ sign left, e => .binary sign left e
  | negative, e => .negative e

/-- The operators that a token of a level leaves open, and what the others make of the operand. -/
def settle (level : Nat) : List Pending → Expr → List Pending × Expr
  | [], e => ([], e)
  | p :: rest, e => if level ≤ p.level then settle level rest (p.close e) else (p :: rest, e)

/-- The operators after one more member of a chain. -/
def extend (c : Connective) (e : Expr) : List Pending → List Pending
  | chain d members :: rest => if c = d then chain c (members ++ [e]) :: rest else chain c [e] :: chain d members :: rest
  | ps => chain c [e] :: ps

end Pending

/-- What an open parenthesis belongs to: a group, the list after `IN`, or a subquery. -/
inductive Bracket where
  | group
  | items (e : Expr) (negated : Bool) (before : List Expr)
  | body (table label : String)
  deriving Repr

/-- What is due next: an operand, what may follow one, certain tokens, or a part of a construct that has begun. -/
inductive Stage where
  | start
  | ended (e : Expr)
  | due (tokens : List Token) (next : Stage)
  | column (table : String)
  | is (e : Expr)
  | not (e : Expr)
  | cast (e : Expr)
  | source
  | label (table : String)
  deriving Repr

/-- Is a token a certain word, mark or number? -/
def Token.isFixed : Token → Token → Bool
  | .word s, .word t => s == t
  | .mark c, .mark d => c == d
  | .digits m, .digits n => m == n
  | _, _ => false

structure Reader where
  pending : List Pending
  outer : List (Bracket × List Pending)
  stage : Stage
  deriving Repr

namespace Reader

open Pending (settle extend)

def initial : Reader := ⟨[], [], .start⟩

/-- The operand with all operators inside the bracket. -/
def whole (r : Reader) (e : Expr) : Expr := (settle 0 r.pending e).2

def ended (r : Reader) (e : Expr) : Option Reader := some { r with stage := .ended e }

def opened (r : Reader) (b : Bracket) : Reader := ⟨[], (b, r.pending) :: r.outer, .start⟩

def closed (r : Reader) (e : Expr) : Option Reader :=
  match r.outer with
  | (.group, pending) :: outer => some ⟨pending, outer, .ended (r.whole e)⟩
  | (.items item negated before, pending) :: outer =>
    some ⟨pending, outer, .ended (.among item (before ++ [r.whole e]) negated)⟩
  | (.body table label, pending) :: outer => some ⟨pending, outer, .ended (.present table label (r.whole e))⟩
  | [] => none

/-- An operator between two operands that groups to the left. -/
def operator (r : Reader) (level : Nat) (sign : String) (e : Expr) : Option Reader :=
  let (pending, left) := settle level r.pending e
  some { r with pending := .binary level sign left :: pending, stage := .start }

/-- The operand of an operator that does not stand beside another of its level. -/
def apart (r : Reader) (level : Nat) (e : Expr) : Option (List Pending × Expr) :=
  let (pending, left) := settle (level + 1) r.pending e
  if pending.head?.any (·.level == level) then none else some (pending, left)

def test (r : Reader) (level : Nat) (sign : String) (e : Expr) : Option Reader := do
  let (pending, left) ← r.apart level e
  return { r with pending := .binary level sign left :: pending, stage := .start }

def membership (r : Reader) (negated : Bool) (e : Expr) : Option Reader := do
  let (pending, left) ← r.apart Level.pattern e
  return ⟨[], (.items left negated [], pending) :: r.outer, .due [.mark '('] .start⟩

def connect (r : Reader) (c : Connective) (e : Expr) : Option Reader :=
  let (pending, e) := settle (c.level + 1) r.pending e
  some { r with pending := extend c e pending, stage := .start }

def comparisons : List String := ["=", "<>", "<", ">", "<=", ">="]

/-- A token where an operand is due. -/
def start (r : Reader) : Token → Option Reader
  | .word "not" => some { r with pending := .not :: r.pending }
  | .word "true" => r.ended (.truth true)
  | .word "false" => r.ended (.truth false)
  | .word "exists" => some { r with stage := .due [.mark '(', .word "select", .digits 1, .word "from"] .source }
  | .sign "-" => some { r with pending := .negative :: r.pending }
  | .mark '(' => some (r.opened .group)
  | .mark ')' => match r.pending, r.outer with
    | [], (.items e negated [], pending) :: outer => some ⟨pending, outer, .ended (.among e [] negated)⟩
    | _, _ => none
  | .name table => some { r with stage := .due [.mark '.'] (.column table) }
  | .operand v => r.ended (.operand v)
  | .literal s => r.ended (.literal s)
  | .digits n => r.ended (.number n)
  | _ => none

/-- A token after an operand. -/
def resume (r : Reader) (e : Expr) : Token → Option Reader
  | .word "and" => r.connect .and e
  | .word "or" => r.connect .or e
  | .word "is" =>
    let (pending, e) := settle Level.is r.pending e
    some { r with pending := pending, stage := .is e }
  | .word "not" => some { r with stage := .not e }
  | .word "in" => r.membership false e
  | .word "like" => r.test Level.pattern "like" e
  | .word "ilike" => r.test Level.pattern "ilike" e
  | .sign s => if comparisons.contains s then r.test Level.comparison s e else r.operator Level.operator s e
  | .cast =>
    let (pending, e) := settle Level.cast r.pending e
    some { r with pending := pending, stage := .cast e }
  | .mark '[' => match e with
    | .cast e type false => some { r with stage := .due [.mark ']'] (.ended (.cast e type true)) }
    | _ => none
  | .mark ',' => match r.outer with
    | (.items item negated before, pending) :: outer =>
      some ⟨[], (.items item negated (before ++ [r.whole e]), pending) :: outer, .start⟩
    | _ => none
  | .mark ')' => r.closed e
  | _ => none

def step (r : Reader) (t : Token) : Option Reader :=
  match r.stage, t with
  | .start, t => r.start t
  | .ended e, t => r.resume e t
  | .due [last] next, t => if last.isFixed t then some { r with stage := next } else none
  | .due (first :: rest) next, t => if first.isFixed t then some { r with stage := .due rest next } else none
  | .column table, .name c => r.ended (.column table c)
  | .is e, .word "null" => r.ended (.null e false)
  | .is e, .word "not" => some { r with stage := .due [.word "null"] (.ended (.null e true)) }
  | .not e, .word "in" => r.membership true e
  | .cast e, .word type => r.ended (.cast e type false)
  | .source, .name table => some { r with stage := .due [.word "as"] (.label table) }
  | .label table, .name label => some { r.opened (.body table label) with stage := .due [.word "where"] .start }
  | _, _ => none

def run (r : Reader) (ts : List Token) : Option Reader := ts.foldlM step r

/-- The expression that has been read when no token is left. -/
def finish (r : Reader) : Option Expr :=
  match r.stage, r.outer with
  | .ended e, [] => some (r.whole e)
  | _, _ => none

@[simp] theorem run_nil (r : Reader) : r.run [] = some r := rfl

@[simp] theorem run_cons (r : Reader) (t : Token) (ts : List Token) : r.run (t :: ts) = (r.step t).bind (·.run ts) := rfl

theorem run_append (r : Reader) (ts us : List Token) : r.run (ts ++ us) = (r.run ts).bind (·.run us) :=
  List.foldlM_append

end Reader

/-- The expression that all tokens make up. -/
def parse (ts : List Token) : Option Expr := (Reader.initial.run ts).bind Reader.finish

/-- `NOT` takes a whole comparison, and a group stays one member of the chain that it stands in. -/
example : (tokens "NOT 1 = 2 AND 3 -> - 4 <> 5 OR (6 IS NULL OR 7 IN (8))").bind parse =
    some (.any [.all [.not (.binary "=" (.number 1) (.number 2)),
        .binary "<>" (.binary "->" (.number 3) (.negative (.number 4))) (.number 5)],
      .any [.null (.number 6) false, .among (.number 7) [.number 8] false]]) := rfl

open Pending (settle extend)

/-- The operators that are open bind more weakly than a level. -/
def Loose (level : Nat) (ps : List Pending) : Prop := ∀ p ∈ ps.head?, p.level < level

/-- Tokens that read as an expression among operators that bind more weakly than a level, once such an operator or the
end of the bracket follows. -/
def Yields (level : Nat) (ts : List Token) (e : Expr) : Prop :=
  ∀ ps outer, Loose level ps → ∃ qs last, Reader.run ⟨ps, outer, .start⟩ ts = some ⟨qs ++ ps, outer, .ended last⟩ ∧
    ∀ l ≤ level, ∀ rest, settle l (qs ++ rest) last = settle l rest e

variable {level l : Nat} {ps rest : List Pending} {ts us : List Token} {e a b : Expr} {s : String}

theorem settleLoose (loose : Loose level ps) (le : level ≤ l) : settle l ps e = (ps, e) := by
  cases ps with
  | nil => rfl
  | cons p rest =>
    have := loose p rfl
    exact if_neg (by omega)

theorem Loose.mono (loose : Loose level ps) (le : level ≤ l) : Loose l ps :=
  fun p head => Nat.lt_of_lt_of_le (loose p head) le

theorem looseCons {p : Pending} (lt : p.level < level) : Loose level (p :: rest) := by
  intro q head
  cases head
  exact lt

theorem Yields.mono (yields : Yields level ts e) (le : l ≤ level) : Yields l ts e := by
  intro ps outer loose
  obtain ⟨qs, last, ran, settles⟩ := yields ps outer (loose.mono le)
  exact ⟨qs, last, ran, fun k below => settles k (Nat.le_trans below le)⟩

/-- Tokens that stand for an operand by themselves. -/
theorem yieldsOperand (read : ∀ ps outer, Reader.run ⟨ps, outer, .start⟩ ts = some ⟨ps, outer, .ended e⟩) :
    Yields Level.cast ts e :=
  fun ps outer _ => ⟨[], e, read ps outer, fun _ _ _ => rfl⟩

theorem yieldsColumn (table name : String) : Yields Level.cast [.name table, .mark '.', .name name] (.column table name) :=
  yieldsOperand fun _ _ => rfl

theorem yieldsValue (v : Value) : Yields Level.cast [.operand v] (.operand v) :=
  yieldsOperand fun _ _ => rfl

section Bracketed

variable {outer : List (Bracket × List Pending)}

theorem runInside (outer : List (Bracket × List Pending)) (yields : Yields level ts e) :
    ∃ pending last, Reader.run ⟨[], outer, .start⟩ ts = some ⟨pending, outer, .ended last⟩ ∧ (settle 0 pending last).2 = e := by
  obtain ⟨qs, last, ran, settles⟩ := yields [] outer nofun
  exact ⟨qs ++ [], last, ran, congrArg Prod.snd (settles 0 (Nat.zero_le _) [])⟩

theorem parseYields (yields : Yields level ts e) : parse ts = some e := by
  obtain ⟨pending, last, ran, whole⟩ := runInside _ yields
  unfold parse Reader.initial
  rw [ran]
  exact congrArg some whole

theorem runGroup (yields : Yields level ts e) :
    Reader.run ⟨[], (.group, ps) :: outer, .start⟩ (ts ++ [.mark ')']) = some ⟨ps, outer, .ended e⟩ := by
  obtain ⟨pending, last, ran, rfl⟩ := runInside ((.group, ps) :: outer) yields
  rw [Reader.run_append, ran]
  rfl

theorem runBody (yields : Yields level ts e) (table label : String) :
    Reader.run ⟨[], (.body table label, ps) :: outer, .start⟩ (ts ++ [.mark ')']) =
      some ⟨ps, outer, .ended (.present table label e)⟩ := by
  obtain ⟨pending, last, ran, rfl⟩ := runInside ((.body table label, ps) :: outer) yields
  rw [Reader.run_append, ran]
  rfl

/-- By induction on the operands that are left in a list. -/
theorem runItems (item : Expr) (negated : Bool) (before : List Expr) (v : Value) (values : List Value) :
    Reader.run ⟨[], (.items item negated before, ps) :: outer, .start⟩
        (List.intercalate [.mark ','] ((v :: values).map fun v => [Token.operand v]) ++ [.mark ')']) =
      some ⟨ps, outer, .ended (.among item (before ++ (v :: values).map .operand) negated)⟩ := by
  induction values generalizing v before with
  | nil => rfl
  | cons w rest ih =>
    have later := ih (before ++ [.operand v]) w
    rw [List.append_assoc, List.singleton_append] at later
    rw [List.map_cons, List.map_cons, List.intercalate_cons_cons, List.append_assoc]
    exact later

end Bracketed

theorem yieldsGroup (yields : Yields level ts e) : Yields Level.cast (.mark '(' :: (ts ++ [.mark ')'])) e :=
  yieldsOperand fun _ _ => runGroup yields

theorem yieldsPresent (yields : Yields level ts e) (table label : String) :
    Yields Level.cast (.word "exists" :: .mark '(' :: .word "select" :: .digits 1 :: .word "from" :: .name table ::
      .word "as" :: .name label :: .word "where" :: (ts ++ [.mark ')'])) (.present table label e) :=
  yieldsOperand fun _ _ => runBody yields table label

/-- An operator before its operand closes when one that binds more weakly follows. -/
theorem yieldsLed {p : Pending} {t : Token} (leads : ∀ ps outer, Reader.step ⟨ps, outer, .start⟩ t = some ⟨p :: ps, outer, .start⟩)
    (yields : Yields (p.level + 1) ts e) : Yields p.level (t :: ts) (p.close e) := by
  intro ps outer loose
  obtain ⟨qs, last, ran, settles⟩ := yields (p :: ps) outer (looseCons (Nat.lt_succ_self _))
  refine ⟨qs ++ [p], last, ?_, fun l below rest => ?_⟩
  · rw [Reader.run_cons, leads, Option.bind_some, ran, List.append_assoc, List.singleton_append]
  · rw [List.append_assoc, List.singleton_append, settles l (Nat.le_succ_of_le below)]
    exact if_pos below

theorem yieldsNot (yields : Yields level ts e) (tighter : Level.not < level) : Yields Level.not (.word "not" :: ts) (.not e) :=
  yieldsLed (p := .not) (fun _ _ => rfl) (yields.mono tighter)

theorem yieldsNegative (yields : Yields Level.cast ts e) : Yields Level.sign (.sign "-" :: ts) (.negative e) :=
  yieldsLed (p := .negative) (fun _ _ => rfl) yields

/-- What a token makes of the operand before it, where it leaves the operators open that are outside. -/
theorem yieldsBinary {t : Token} {k : Nat} (first : Yields k ts a) (le : level ≤ k)
    (binary : ∀ qs ps outer last, Loose level ps → settle k (qs ++ ps) last = (ps, a) →
      Reader.step ⟨qs ++ ps, outer, .ended last⟩ t = some ⟨.binary level s a :: ps, outer, .start⟩)
    (second : Yields (level + 1) us b) : Yields level (ts ++ t :: us) (.binary s a b) := by
  intro ps outer loose
  obtain ⟨qs, last, ran, settles⟩ := first ps outer (loose.mono le)
  have left := (settles k (Nat.le_refl _) ps).trans (settleLoose loose le)
  obtain ⟨qs', last', ran', settles'⟩ := second (.binary level s a :: ps) outer (looseCons (Nat.lt_succ_self _))
  refine ⟨qs' ++ [.binary level s a], last', ?_, fun l below rest => ?_⟩
  · rw [Reader.run_append, ran, Option.bind_some, Reader.run_cons, binary qs ps outer last loose left, Option.bind_some, ran',
      List.append_assoc, List.singleton_append]
  · rw [List.append_assoc, List.singleton_append, settles' l (Nat.le_succ_of_le below)]
    exact if_pos below

theorem apartLoose {r : Reader} {last : Expr} (loose : Loose level ps) (left : settle (level + 1) r.pending last = (ps, a)) :
    r.apart level last = some (ps, a) := by
  have free : ps.head?.any (·.level == level) = false := by
    rw [Option.any_eq_false]
    exact fun p head => beq_false_of_ne (Nat.ne_of_lt (loose p head))
  unfold Reader.apart
  rw [left]
  exact if_neg (by simp [free])

theorem yieldsTest {t : Token} (tests : ∀ r last, Reader.resume r last t = r.test level s last)
    (first : Yields (level + 1) ts a) (second : Yields (level + 1) us b) :
    Yields level (ts ++ t :: us) (.binary s a b) := by
  refine yieldsBinary first (Nat.le_succ _) (fun qs ps outer last loose left => ?_) second
  show Reader.resume _ last t = _
  rw [tests]
  unfold Reader.test
  rw [apartLoose loose left]
  rfl

theorem yieldsCompare (compares : Reader.comparisons.contains s) (first : Yields Level.pattern ts a)
    (second : Yields Level.pattern us b) : Yields Level.comparison (ts ++ .sign s :: us) (.binary s a b) :=
  yieldsTest (fun _ _ => if_pos compares) first second

theorem yieldsOperator (other : Reader.comparisons.contains s = false) (first : Yields Level.operator ts a)
    (second : Yields Level.sign us b) : Yields Level.operator (ts ++ .sign s :: us) (.binary s a b) := by
  refine yieldsBinary first (Nat.le_refl _) (fun qs ps outer last loose left => ?_) second
  refine (if_neg (by rw [other]; exact Bool.false_ne_true)).trans ?_
  unfold Reader.operator
  rw [left]

theorem yieldsNull (yields : Yields Level.is ts e) (negated : Bool) :
    Yields Level.is (ts ++ .word "is" :: ((if negated then [.word "not"] else []) ++ [.word "null"])) (.null e negated) := by
  intro ps outer loose
  obtain ⟨qs, last, ran, settles⟩ := yields ps outer loose
  have left := (settles Level.is (Nat.le_refl _) ps).trans (settleLoose loose (Nat.le_refl _))
  refine ⟨[], .null e negated, ?_, fun _ _ _ => rfl⟩
  have began : Reader.step ⟨qs ++ ps, outer, .ended last⟩ (.word "is") = some ⟨ps, outer, .is e⟩ := by
    show some _ = _
    rw [left]
  rw [Reader.run_append, ran, Option.bind_some, Reader.run_cons, began]
  cases negated <;> rfl

theorem yieldsCast (yields : Yields Level.cast ts e) (type : String) :
    Yields Level.cast (ts ++ [.cast, .word type]) (.cast e type false) := by
  intro ps outer loose
  obtain ⟨qs, last, ran, settles⟩ := yields ps outer loose
  have left := (settles Level.cast (Nat.le_refl _) ps).trans (settleLoose loose (Nat.le_refl _))
  refine ⟨[], .cast e type false, ?_, fun _ _ _ => rfl⟩
  have began : Reader.step ⟨qs ++ ps, outer, .ended last⟩ .cast = some ⟨ps, outer, .cast e⟩ := by
    show some _ = _
    rw [left]
  rw [Reader.run_append, ran, Option.bind_some, Reader.run_cons, began]
  rfl

theorem runMembership {r : Reader} {last : Expr} (loose : Loose Level.pattern ps)
    (left : settle Level.operator r.pending last = (ps, a)) (negated : Bool) :
    r.membership negated last = some ⟨[], (.items a negated [], ps) :: r.outer, .due [.mark '('] .start⟩ := by
  unfold Reader.membership
  rw [apartLoose loose left]
  rfl

theorem yieldsAmong (yields : Yields Level.operator ts e) (values : List Value) (negated : Bool) :
    Yields Level.pattern (ts ++ ((if negated then [.word "not"] else []) ++ .word "in" :: .mark '(' ::
      (List.intercalate [.mark ','] (values.map fun v => [Token.operand v]) ++ [.mark ')'])))
      (.among e (values.map .operand) negated) := by
  intro ps outer loose
  obtain ⟨qs, last, ran, settles⟩ := yields ps outer (loose.mono (Nat.le_succ _))
  have left := (settles Level.operator (Nat.le_refl _) ps).trans (settleLoose loose (Nat.le_succ _))
  refine ⟨[], .among e (values.map .operand) negated, ?_, fun _ _ _ => rfl⟩
  have listed : Reader.run ⟨[], (.items e negated [], ps) :: outer, .start⟩
      (List.intercalate [.mark ','] (values.map fun v => [Token.operand v]) ++ [.mark ')']) =
        some ⟨ps, outer, .ended (.among e (values.map .operand) negated)⟩ := by
    cases values with
    | nil => rfl
    | cons v rest => exact runItems e negated [] v rest
  have entered : Reader.run ⟨qs ++ ps, outer, .ended last⟩ ((if negated then [.word "not"] else []) ++ [.word "in"]) =
      some ⟨[], (.items e negated [], ps) :: outer, .due [.mark '('] .start⟩ := by
    cases negated
    · exact congrArg (Option.bind · some) (runMembership loose left false)
    · exact congrArg (Option.bind · some) (runMembership loose left true)
  rw [Reader.run_append, ran, Option.bind_some, List.append_cons _ (Token.word "in"), Reader.run_append, entered]
  exact listed

section Chained

variable {c : Connective} {tss : List (List Token)} {es : List Expr} {f : Expr} {outer : List (Bracket × List Pending)}

theorem connected {qs : List Pending} {last : Expr} (left : settle (c.level + 1) qs last = (ps, a)) :
    Reader.step ⟨qs, outer, .ended last⟩ (.word c.word) = some ⟨extend c a ps, outer, .start⟩ := by
  have connects : Reader.step ⟨qs, outer, .ended last⟩ (.word c.word) = Reader.connect ⟨qs, outer, .ended last⟩ c last := by
    cases c <;> rfl
  rw [connects, Reader.connect, left]

theorem levelNot (c : Connective) : c.level < Level.not := by
  cases c <;> decide

/-- By induction on the members that are left, with those before them in the chain that is open. -/
theorem runChain (first : Yields Level.not ts e) (each : List.Forall₂ (Yields Level.not) tss es) (before : List Expr)
    (ps : List Pending) (outer : List (Bracket × List Pending)) :
    ∃ qs last, Reader.run ⟨.chain c before :: ps, outer, .start⟩ (List.intercalate [.word c.word] (ts :: tss)) =
        some ⟨qs ++ ps, outer, .ended last⟩ ∧
      ∀ l ≤ c.level, ∀ rest, settle l (qs ++ rest) last = settle l rest (c.node (before ++ e :: es)) := by
  induction each generalizing ts e before with
  | nil =>
    obtain ⟨qs, last, ran, settles⟩ := first (.chain c before :: ps) outer (looseCons (levelNot c))
    refine ⟨qs ++ [.chain c before], last, by simpa using ran, fun l below rest => ?_⟩
    rw [List.append_assoc, List.singleton_append, settles l (Nat.le_trans below (Nat.le_of_lt (levelNot c)))]
    exact if_pos below
  | cons second later ih =>
    obtain ⟨qs, last, ran, settles⟩ := first (.chain c before :: ps) outer (looseCons (levelNot c))
    have left : settle (c.level + 1) (qs ++ .chain c before :: ps) last = (.chain c before :: ps, e) :=
      (settles _ (levelNot c) _).trans (if_neg (Nat.not_succ_le_self _))
    obtain ⟨qs', last', ran', settles'⟩ := ih second (before ++ [e])
    refine ⟨qs', last', ?_, fun l below rest => by simpa using settles' l below rest⟩
    rw [List.intercalate_cons_cons, List.append_assoc, Reader.run_append, ran, Option.bind_some, List.singleton_append,
      Reader.run_cons, connected left, Option.bind_some, extend, if_pos rfl, ran']

theorem extendLoose (loose : Loose c.level ps) : extend c e ps = .chain c [e] :: ps := by
  cases ps with
  | nil => rfl
  | cons p rest =>
    cases p with
    | chain d members =>
      have lower : d.level < c.level := loose _ rfl
      exact if_neg fun same => Nat.lt_irrefl _ (same ▸ lower)
    | _ => rfl

theorem yieldsChain (first : Yields Level.not ts e) (second : Yields Level.not us f)
    (each : List.Forall₂ (Yields Level.not) tss es) :
    Yields c.level (List.intercalate [.word c.word] (ts :: us :: tss)) (c.node (e :: f :: es)) := by
  intro ps outer loose
  obtain ⟨qs, last, ran, settles⟩ := first ps outer (loose.mono (Nat.le_of_lt (levelNot c)))
  have left := (settles _ (levelNot c) ps).trans (settleLoose loose (Nat.le_succ _))
  obtain ⟨qs', last', ran', settles'⟩ := runChain (c := c) second each [e] ps outer
  refine ⟨qs', last', ?_, settles'⟩
  rw [List.intercalate_cons_cons, List.append_assoc, Reader.run_append, ran, Option.bind_some, List.singleton_append,
    Reader.run_cons, connected left, Option.bind_some, extendLoose loose, ran']

end Chained

end EntityQuery.Sql
