import EntityQuery.Proofs.ConditionOutline
import EntityQuery.Proofs.FragmentTokens
import EntityQuery.Proofs.Results
/-! The text of a condition reads back as the condition. -/

namespace EntityQuery.Sql

open Fragment (words column spellsWords spellsName spellsBind spellsParted spellsEnded spellsOpened Spells Ends Opens)

/-- A fragment whose tokens read as an expression. -/
def Reads (f : Fragment) (level : Nat) (e : Expr) : Prop := ∃ ts, f.Spells ts ∧ Yields level ts e

/-- Words that are one token between two parts of an expression. -/
def Links (s : String) (t : Token) : Prop := (Ends s ∧ Opens s) ∧ fixed s = [t]

variable {a b f : Fragment} {x y e : Expr} {level l : Nat} {s t : String}

theorem Reads.mono (reads : Reads f level e) (le : l ≤ level) : Reads f l e :=
  reads.imp fun _ both => ⟨both.1, both.2.mono le⟩

theorem spellsColumn (r : ColumnRef) : (columnText r).Spells [.name r.table, .mark '.', .name r.column] :=
  spellsParted (spellsName r.table) (s := ".") (by decide) (by decide) (spellsName r.column)

theorem readsColumn (r : ColumnRef) : Reads (columnText r) Level.cast (.column r.table r.column) :=
  ⟨_, spellsColumn r, yieldsColumn _ _⟩

theorem readsBind (v : Value) : Reads (.bind v) Level.cast (.operand v) := ⟨_, spellsBind v, yieldsValue v⟩

theorem readsTruth (b : Bool) : Reads (words (if b then "TRUE" else "FALSE")) Level.cast (.truth b) := by
  cases b
  · exact ⟨_, spellsWords (by decide), yieldsOperand fun _ _ => rfl⟩
  · exact ⟨_, spellsWords (by decide), yieldsOperand fun _ _ => rfl⟩

theorem readsSpelled (reads : Reads f level e) : f.spelled = f := by
  obtain ⟨ts, ⟨-, rfl⟩, yields⟩ := reads
  cases written : f.pieces with
  | nil =>
    obtain ⟨qs, last, ran, -⟩ := yields [] [] nofun
    rw [Fragment.read, written] at ran
    cases congrArg (·.map Reader.stage) ran
  | cons p rest =>
    unfold Fragment.spelled
    rw [written]
    rfl

theorem readsLinked {k : Token} {m : Nat} (links : Links s k) (first : Reads a l x) (second : Reads b m y)
    (yields : ∀ ts us, Yields l ts x → Yields m us y → Yields level (ts ++ k :: us) e) : Reads (a ++ words s ++ b) level e := by
  obtain ⟨ts, spells, before⟩ := first
  obtain ⟨us, spells', after⟩ := second
  have spelled := spellsParted spells links.1.1 links.1.2 spells'
  rw [links.2, List.append_assoc] at spelled
  exact ⟨_, spelled, yields ts us before after⟩

theorem readsCompare (links : Links s (.sign t)) (compares : Reader.comparisons.contains t) (first : Reads a Level.pattern x)
    (second : Reads b Level.pattern y) : Reads (a ++ words s ++ b) Level.comparison (.binary t x y) :=
  readsLinked links first second fun _ _ => yieldsCompare compares

theorem readsOperator (links : Links s (.sign t)) (other : Reader.comparisons.contains t = false)
    (first : Reads a Level.operator x) (second : Reads b Level.sign y) :
    Reads (a ++ words s ++ b) Level.operator (.binary t x y) :=
  readsLinked links first second fun _ _ => yieldsOperator other

theorem readsLike (ignoreCase : Bool) (first : Reads a Level.operator x) (second : Reads b Level.operator y) :
    Reads (a ++ words (if ignoreCase then " ILIKE " else " LIKE ") ++ b) Level.pattern
      (.binary (if ignoreCase then "ilike" else "like") x y) := by
  cases ignoreCase
  · exact readsLinked (k := .word "like") (by exact ⟨by decide, rfl⟩) first second fun _ _ => yieldsTest fun _ _ => rfl
  · exact readsLinked (k := .word "ilike") (by exact ⟨by decide, rfl⟩) first second fun _ _ => yieldsTest fun _ _ => rfl

theorem readsGroup (inner : Reads f level e) : Reads (words "(" ++ f ++ words ")") Level.cast e := by
  obtain ⟨ts, spells, yields⟩ := inner
  have spelled := spellsEnded (spellsOpened (s := "(") (by decide) spells) (s := ")") (by decide)
  exact ⟨_, spelled, yieldsGroup yields⟩

theorem readsNull (reads : Reads f Level.is e) (negated : Bool) :
    Reads (f ++ words (if negated then " IS NOT NULL" else " IS NULL")) Level.is (.null e negated) := by
  obtain ⟨ts, spells, yields⟩ := reads
  cases negated
  · exact ⟨_, spellsEnded spells (by decide), yieldsNull yields false⟩
  · exact ⟨_, spellsEnded spells (by decide), yieldsNull yields true⟩

theorem readsNot (inner : Reads f level e) : Reads (words "NOT (" ++ f ++ words ")") Level.not (.not e) := by
  obtain ⟨ts, spells, yields⟩ := inner
  have spelled := spellsEnded (spellsOpened (s := "NOT (") (by decide) spells) (s := ")") (by decide)
  exact ⟨_, spelled, yieldsNot (yieldsGroup yields) (by decide)⟩

theorem readsMember (r : ColumnRef) (values : List Value) (negated : Bool) :
    Reads (columnText r ++ words (if negated then " NOT IN (" else " IN (") ++ .join ", " (values.map .bind) ++ words ")")
      Level.pattern (.among (.column r.table r.column) (values.map .operand) negated) := by
  have listed : List.Forall₂ Spells (values.map .bind) (values.map fun v => [Token.operand v]) :=
    List.forall₂_map_left_iff.mpr (List.forall₂_map_right_iff.mpr (List.forall₂_same.mpr fun v _ => spellsBind v))
  have items := Fragment.spellsJoin (s := ", ") listed (by decide) (by decide)
  have yields := yieldsAmong ((yieldsColumn r.table r.column).mono (by decide)) values negated
  cases negated
  · exact ⟨_, spellsEnded (spellsParted (spellsColumn r) (s := " IN (") (by decide) (by decide) items) (s := ")") (by decide), yields⟩
  · exact ⟨_, spellsEnded (spellsParted (spellsColumn r) (s := " NOT IN (") (by decide) (by decide) items) (s := ")") (by decide), yields⟩

section Chains

variable {c : Connective} {fs : List Fragment} {es : List Expr}

theorem readsEach (each : List.Forall₂ (Reads · level ·) fs es) :
    ∃ tss, List.Forall₂ Spells fs tss ∧ List.Forall₂ (Yields level) tss es := by
  induction each with
  | nil => exact ⟨[], .nil, .nil⟩
  | cons first later ih =>
    obtain ⟨ts, spells, yields⟩ := first
    obtain ⟨tss, spelled, yielded⟩ := ih
    exact ⟨ts :: tss, .cons spells spelled, .cons yields yielded⟩

theorem readsChain (each : List.Forall₂ (Reads · Level.not ·) fs es) (listed : es ≠ []) :
    Reads (.join (separator c) fs) c.level (chained c es) := by
  obtain ⟨tss, spelled, yielded⟩ := readsEach each
  have ends : Ends (separator c) ∧ Opens (separator c) := by cases c <;> decide
  have spells := Fragment.spellsJoin spelled ends.1 ends.2
  have one : fixed (separator c) = [.word c.word] := by cases c <;> rfl
  rw [one] at spells
  refine ⟨_, spells, ?_⟩
  cases yielded with
  | nil => exact absurd rfl listed
  | cons first later =>
    cases later with
    | nil => simpa [chained] using first.mono (Nat.le_of_lt (levelNot c))
    | cons second later => exact yieldsChain first second later

end Chains

section Documents

variable (r : ColumnRef) (path : List Value)

theorem readsDocument : Reads (documentAt r path) Level.cast (documentExpr r path) := by
  unfold documentAt documentExpr
  split
  · exact readsColumn r
  · exact ⟨_, spellsEnded (spellsParted (spellsOpened (s := "(") (by decide) (spellsColumn r)) (s := " #> ") (by decide)
      (by decide) (spellsBind _)) (s := "::text[])") (by decide), yieldsOperand fun _ _ => rfl⟩

theorem readsText : Reads (textAt r path) Level.cast (textExpr r path) := by
  unfold textAt textExpr
  have opened := spellsOpened (s := "(") (by decide) (spellsColumn r)
  split
  · exact ⟨_, spellsEnded opened (s := " #>> '\x7b\x7d')") (by decide), yieldsOperand fun _ _ => rfl⟩
  · exact ⟨_, spellsEnded (spellsParted opened (s := " #>> ") (by decide) (by decide) (spellsBind _)) (s := "::text[])")
      (by decide), yieldsOperand fun _ _ => rfl⟩

variable {r path}

theorem readsOperand {v : Value} (bound : bindDocument v = .ok f) : Reads f Level.cast (jsonCast (.operand (documentOperand v))) := by
  unfold bindDocument at bound
  obtain ⟨s, written, made⟩ := Results.bindOk bound
  cases made
  unfold documentOperand
  rw [written]
  have casts (v : Value) := yieldsCast (yieldsValue v) "jsonb"
  cases s with
  | none => exact ⟨_, spellsEnded (spellsBind _) (s := "::jsonb") (by decide), casts _⟩
  | some s => exact ⟨_, spellsEnded (spellsBind _) (s := "::jsonb") (by decide), casts _⟩

theorem yieldsJsonNull : Yields Level.cast [.literal "null", .cast, .word "jsonb"] (jsonCast (.literal "null")) :=
  have literal : Yields Level.cast [.literal "null"] (.literal "null") := yieldsOperand fun _ _ => rfl
  yieldsCast literal "jsonb"

theorem readsJsonNull (reads : Reads f Level.cast e) :
    Reads (f ++ words " = 'null'::jsonb") Level.comparison (.binary "=" e (jsonCast (.literal "null"))) := by
  obtain ⟨ts, spells, yields⟩ := reads
  exact ⟨_, spellsEnded spells (by decide), yieldsCompare (by decide) (yields.mono (by decide)) (yieldsJsonNull.mono (by decide))⟩

theorem readsEither (reads : Reads f Level.cast e) :
    Reads (f.twice "(" " IS NULL OR " " = 'null'::jsonb)") Level.cast
      (.any [.null e false, .binary "=" e (jsonCast (.literal "null"))]) := by
  obtain ⟨ts, spells, yields⟩ := reads
  have missing := yieldsNull (yields.mono (by decide)) false
  have equal := yieldsCompare (s := "=") (by decide) (yields.mono (by decide)) (yieldsJsonNull.mono (by decide))
  have halves := yieldsChain (c := .or) (missing.mono (by decide)) (equal.mono (by decide)) .nil
  refine ⟨_, Fragment.spellsTwice "(" " IS NULL OR " " = 'null'::jsonb)" spells (by decide) (by decide) (by decide), ?_⟩
  have grouped := yieldsGroup halves
  rw [List.intercalate_cons_cons, List.intercalate_singleton] at grouped
  have opened : fixed "(" = [.mark '('] := rfl
  have parted : fixed " IS NULL OR " = [.word "is", .word "null", .word "or"] := rfl
  have ended : fixed " = 'null'::jsonb)" = [.sign "=", .literal "null", .cast, .word "jsonb", .mark ')'] := rfl
  simpa [opened, parted, ended, Connective.word, Connective.node] using grouped

end Documents

theorem readsSubquery {body : Fragment} (reads : Reads body level e) (table label : String) (negated : Bool) :
    Reads (words (if negated then "NOT EXISTS (SELECT 1 FROM " else "EXISTS (SELECT 1 FROM ") ++ .name table ++ words " AS " ++
        .name label ++ words " WHERE " ++ body ++ words ")") Level.not
      (if negated then .not (.present table label e) else .present table label e) := by
  obtain ⟨ts, spells, yields⟩ := reads
  have present := yieldsPresent yields table label
  cases negated with
  | false =>
    have header := spellsParted (spellsOpened (s := "EXISTS (SELECT 1 FROM ") (by decide) (spellsName table)) (s := " AS ")
      (by decide) (by decide) (spellsName label)
    exact ⟨_, spellsEnded (spellsParted header (s := " WHERE ") (by decide) (by decide) spells) (s := ")") (by decide),
      present.mono (by decide)⟩
  | true =>
    have header := spellsParted (spellsOpened (s := "NOT EXISTS (SELECT 1 FROM ") (by decide) (spellsName table)) (s := " AS ")
      (by decide) (by decide) (spellsName label)
    exact ⟨_, spellsEnded (spellsParted header (s := " WHERE ") (by decide) (by decide) spells) (s := ")") (by decide),
      yieldsNot present (by decide)⟩

theorem patternFound {kind : TextMatch} {part : Value} (formed : kind.looksFor part) :
    likePattern kind part = .ok (patternOperand kind part) := by
  cases kind <;> cases part <;> first | rfl | cases formed

theorem textReads {r : ColumnRef} {kind : TextMatch} {part : Value} (ignoreCase : Bool) (formed : kind.looksFor part) :
    ∃ f, textTest r kind part ignoreCase = .ok f ∧ Reads f Level.not (textTestExpr r kind part ignoreCase) := by
  have column := readsColumn r
  have like := readsLike ignoreCase (column.mono (by decide)) ((readsBind (patternOperand kind part)).mono (by decide))
  have compare := readsCompare (s := " = ") (t := "=") ⟨by decide, rfl⟩ (by decide) (column.mono (by decide))
    ((readsBind part).mono (by decide))
  unfold textTest
  rw [patternFound formed]
  cases kind with
  | equals =>
    cases ignoreCase with
    | false => exact ⟨_, rfl, compare.mono (by decide)⟩
    | true => exact ⟨_, rfl, like.mono (by decide)⟩
  | part o => exact ⟨_, rfl, like.mono (by decide)⟩
  | foreign name => cases part <;> cases formed

theorem operandBound {v : Value} (written : (v.jsonText? .refused).isOk) : ∃ f, bindDocument v = .ok f := by
  unfold bindDocument
  cases text : v.jsonText? .refused with
  | error e =>
    rw [text] at written
    cases written
  | ok s => exact ⟨_, rfl⟩

theorem listWritten {v : Value} (written : (v.jsonText? .refused).isOk) : ((Value.array [v]).jsonText? .refused).isOk := by
  unfold Value.jsonText? Value.document at written ⊢
  cases shown : v.toJson? .refused with
  | error e =>
    rw [shown] at written
    cases written
  | ok j =>
    rw [Value.toJson?, Value.toJsonItems, shown]
    rfl

/-- The JSON value at a place of a list, compared with one. -/
theorem readsItem {item : Expr} {index : List Token} (first : Reads a Level.cast x) (second : Reads b Level.cast y)
    (places : Yields Level.sign index item) (links : Ends s ∧ Opens s)
    (spelled : fixed s = .sign "->" :: (index ++ [.sign "="])) :
    Reads (a ++ words s ++ b) Level.comparison (.binary "=" (.binary "->" x item) y) := by
  obtain ⟨ts, spells, before⟩ := first
  obtain ⟨us, spells', after⟩ := second
  have there := spellsParted spells links.1 links.2 spells'
  rw [spelled] at there
  have chosen := yieldsOperator (s := "->") (by decide) (before.mono (by decide)) places
  have compared := yieldsCompare (s := "=") (by decide) (chosen.mono (by decide)) (after.mono (by decide))
  exact ⟨_, there, by simpa using compared⟩

theorem jsonReads {r : ColumnRef} {test : JsonTest} (formed : test.isFormed) :
    ∃ f, jsonTest r test = .ok f ∧ Reads f Level.not (jsonExpr r test) := by
  unfold jsonTest
  cases test with
  | path path => exact ⟨_, rfl, (readsNull ((readsDocument r path).mono (by decide)) true).mono (by decide)⟩
  | text kind path part =>
    have like := readsLike false ((readsText r path).mono (by decide)) ((readsBind (patternOperand kind part)).mono (by decide))
    unfold knownTest
    dsimp only
    rw [patternFound formed]
    exact ⟨_, rfl, like.mono (by decide)⟩
  | array item path operand =>
    have column := readsDocument r path
    unfold knownTest
    cases item with
    | any =>
      obtain ⟨f, bound⟩ := operandBound (listWritten formed)
      have contains := readsOperator (s := " @> ") (t := "@>") ⟨by decide, rfl⟩ (by decide) (column.mono (by decide))
        ((readsOperand bound).mono (by decide))
      dsimp only
      rw [bound]
      exact ⟨_, rfl, contains.mono (by decide)⟩
    | first =>
      obtain ⟨f, bound⟩ := operandBound formed
      have zero : Yields Level.sign [.digits 0] (.number 0) := (yieldsOperand fun _ _ => rfl).mono (by decide)
      have compared := readsItem (s := " -> 0 = ") column (readsOperand bound) zero (by decide) rfl
      dsimp only
      rw [bound]
      exact ⟨_, rfl, compared.mono (by decide)⟩
    | last =>
      obtain ⟨f, bound⟩ := operandBound formed
      have one : Yields Level.sign [.sign "-", .digits 1] (.negative (.number 1)) := yieldsNegative (yieldsOperand fun _ _ => rfl)
      have compared := readsItem (s := " -> -1 = ") column (readsOperand bound) one (by decide) rfl
      dsimp only
      rw [bound]
      exact ⟨_, rfl, compared.mono (by decide)⟩
  | objectKey path key =>
    have has := readsOperator (s := " ? ") (t := "?") ⟨by decide, rfl⟩ (by decide) ((readsDocument r path).mono (by decide))
      ((readsBind key).mono (by decide))
    exact ⟨_, rfl, has.mono (by decide)⟩
  | null path kind =>
    have column := readsDocument r path
    cases kind with
    | db => exact ⟨_, rfl, (readsNull (column.mono (by decide)) false).mono (by decide)⟩
    | json => exact ⟨_, rfl, (readsJsonNull column).mono (by decide)⟩
    | any => exact ⟨_, rfl, (readsEither column).mono (by decide)⟩
    | foreign name => cases formed
  | foreign test => cases formed

section Related

variable {table label : String} {join : Join} {inner : Fragment}

theorem readsJoinTest (join : Join) : Reads (columnText join.inner ++ words " = " ++ columnText join.outer) Level.comparison
    (.binary "=" (.column join.inner.table join.inner.column) (.column join.outer.table join.outer.column)) :=
  readsCompare ⟨by decide, rfl⟩ (by decide) ((readsColumn join.inner).mono (by decide)) ((readsColumn join.outer).mono (by decide))

theorem readsJoined (negated : Bool) :
    Reads (subquery table label join none negated) Level.not (relatedExpr table label join none negated) := by
  unfold subquery
  dsimp only
  rw [Fragment.append_empty]
  exact readsSubquery (readsJoinTest join) table label negated

/-- The condition inside a subquery is a conjunct beside the join, whatever it is built of. -/
theorem readsRelated (reads : Reads inner Level.not e) (negated : Bool) :
    Reads (subquery table label join (some inner) negated) Level.not (relatedExpr table label join (some e) negated) := by
  have both := readsChain (c := .and) (.cons ((readsJoinTest join).mono (by decide)) (.cons reads .nil)) nofun
  have body := readsSubquery both table label negated
  unfold subquery
  dsimp only
  simp only [Fragment.join, Fragment.append_assoc] at body ⊢
  exact body

end Related

section Lists

variable {fs : List Fragment} {es : List Expr}

theorem readsList (c : Connective) (each : List.Forall₂ (Reads · Level.not ·) fs es) (listed : es ≠ []) :
    Reads (words "(" ++ .join (separator c) fs ++ words ")") Level.not (chained c es) :=
  (readsGroup (readsChain each listed)).mono (by decide)

end Lists

mutual

theorem conditionReads (c : Condition) (formed : c.isFormed) : ∃ f, condition c = .ok f ∧ Reads f Level.not (outline c) := by
  cases c with
  | constant b => exact ⟨_, rfl, (readsTruth b).mono (by decide)⟩
  | truthy v => exact ⟨_, rfl, (readsTruth _).mono (by decide)⟩
  | compare r operator operand =>
    cases operator with
    | foreign sign => cases formed
    | of c =>
      have links : Links (" " ++ c.symbol ++ " ") (.sign c.symbol) := by
        cases c <;> exact ⟨by decide, rfl⟩
      have compares : Reader.comparisons.contains c.symbol := by
        cases c <;> decide
      exact ⟨_, rfl, (readsCompare links compares ((readsColumn r).mono (by decide)) ((readsBind operand).mono (by decide))).mono
        (by decide)⟩
  | text r kind part ignoreCase => exact textReads ignoreCase formed
  | member r values negated => exact ⟨_, rfl, (readsMember r values negated).mono (by decide)⟩
  | null r negated => exact ⟨_, rfl, (readsNull ((readsColumn r).mono (by decide)) negated).mono (by decide)⟩
  | json r test => exact jsonReads formed
  | all members =>
    obtain ⟨fs, listed, each⟩ := conditionsRead members formed
    cases members with
    | nil => exact ⟨_, rfl, (readsTruth true).mono (by decide)⟩
    | cons first rest =>
      refine ⟨words "(" ++ .join " AND " fs ++ words ")", ?_, readsList .and each nofun⟩
      rw [condition, listed]
      · rfl
      · exact nofun
  | any members =>
    obtain ⟨fs, listed, each⟩ := conditionsRead members formed
    cases members with
    | nil => exact ⟨_, rfl, (readsTruth false).mono (by decide)⟩
    | cons first rest =>
      refine ⟨words "(" ++ .join " OR " fs ++ words ")", ?_, readsList .or each nofun⟩
      rw [condition, listed]
      · rfl
      · exact nofun
  | not inner =>
    obtain ⟨f, done, reads⟩ := conditionReads inner formed
    refine ⟨words "NOT (" ++ f ++ words ")", ?_, readsNot reads⟩
    rw [condition, done]
    show Except.ok (words "NOT (" ++ f.spelled ++ words ")") = _
    rw [readsSpelled reads]
  | related table label join inner negated =>
    obtain ⟨f, done, reads⟩ := conditionReads inner formed
    rw [condition, outline]
    split
    · exact ⟨_, rfl, readsJoined negated⟩
    · refine ⟨subquery table label join (some f) negated, ?_, readsRelated reads negated⟩
      rw [done]
      show Except.ok (subquery table label join (some f.spelled) negated) = _
      rw [readsSpelled reads]
  | annotated document reading => exact conditionReads reading formed
  | foreign node => cases formed

theorem conditionsRead (cs : List Condition) (formed : Condition.areFormed cs) :
    ∃ fs, conditions cs = .ok fs ∧ List.Forall₂ (Reads · Level.not ·) fs (outlines cs) := by
  cases cs with
  | nil => exact ⟨[], rfl, .nil⟩
  | cons c rest =>
    obtain ⟨here, later⟩ := (Bool.and_eq_true ..).mp formed
    obtain ⟨f, done, reads⟩ := conditionReads c here
    obtain ⟨fs, listed, each⟩ := conditionsRead rest later
    refine ⟨f :: fs, ?_, .cons reads each⟩
    rw [conditions, done, listed]
    rfl

end

theorem readingReads (reads : Reads f level e) : f.reading = some e := by
  obtain ⟨ts, ⟨sound, rfl⟩, yields⟩ := reads
  obtain ⟨us, spelled, bound⟩ := Option.map_eq_some_iff.mp (Fragment.readText sound)
  unfold Fragment.reading
  rw [spelled, Option.bind_some, bound, parseYields yields]

/-- The text of a condition reads as the expression that the condition stands for: no name, operand or nesting makes
it read as anything else. -/
theorem renderedReadsBack (c : Condition) (formed : c.isFormed) :
    ∃ f, condition c = .ok f ∧ f.reading = some (outline c) := by
  obtain ⟨f, done, reads⟩ := conditionReads c formed
  exact ⟨f, done, readingReads reads⟩

/-- A name that holds quotes and a condition of its own, below a negation and beside a subquery. -/
def quotedNames : Condition :=
  .not (.any [.compare ⟨"a\" OR TRUE OR \"a", "b"⟩ (.of .lt) (.int 18), .all [.null ⟨"a", "c"⟩ true],
    .related "t" "r1" ⟨⟨"a", "id"⟩, ⟨"r1", "\""⟩⟩
      (.any [.json ⟨"r1", "d"⟩ (.null [.text "x"] .any), .member ⟨"r1", "e"⟩ [.int 1, .int 2] false]) true])

theorem quotedNamesReadBack : quotedNames.isFormed ∧ ∃ f, condition quotedNames = .ok f ∧
    f.reading = some (.not (.any [.binary "<" (.column "a\" OR TRUE OR \"a" "b") (.operand (.int 18)), .null (.column "a" "c") true,
      .not (.present "t" "r1" (.all [.binary "=" (.column "r1" "\"") (.column "a" "id"),
        .any [.any [.null (documentExpr ⟨"r1", "d"⟩ [.text "x"]) false,
            .binary "=" (documentExpr ⟨"r1", "d"⟩ [.text "x"]) (jsonCast (.literal "null"))],
          .among (.column "r1" "e") [.operand (.int 1), .operand (.int 2)] false]]))])) :=
  ⟨rfl, renderedReadsBack quotedNames rfl⟩

end EntityQuery.Sql
