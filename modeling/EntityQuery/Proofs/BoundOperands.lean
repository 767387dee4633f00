import EntityQuery.Proofs.ConditionText
import EntityQuery.Proofs.Rows
import EntityQuery.Proofs.StatementOutline
/-! Operands are bound and never written. The text of a statement numbers its parameters from one in the order in which
it comes to them, each placeholder stands for the operand of its own node, and statements that are alike but for their
operands have one text. -/

namespace EntityQuery.Sql

open Fragment (words name names column Writes writesAppend writesWords writesName writesBind writesEmpty writesJoin writesTwice)
open Results (valueOr)
open Value (blank blankPath)

/-- A fragment with its marks, and another one of the same text that binds as many parameters. -/
structure Fragment.Twin (f g : Fragment) (ms : List Mark) : Prop where
  writes : f.Writes ms
  pieces : g.pieces = f.pieces
  count : g.params.length = f.params.length

open Fragment (Twin)

/-- Twins one after another. -/
inductive Twins : List Fragment → List Fragment → List (List Mark) → Prop
  | nil : Twins [] [] []
  | cons {f g ms fs gs mss} (first : Twin f g ms) (rest : Twins fs gs mss) : Twins (f :: fs) (g :: gs) (ms :: mss)

variable {a b f g : Fragment} {ms ns : List Mark} {s : String}

section Twins

theorem twinSame (writes : f.Writes ms) : Twin f f ms := ⟨writes, rfl, rfl⟩

theorem twinOf (numbered : f.Numbered) : Twin f f f.filled := twinSame ⟨numbered, rfl⟩

theorem twinBind (v w : Value) : Twin (.bind v) (.bind w) [.operand v] := ⟨writesBind v, rfl, rfl⟩

theorem twinAppend {a' b' : Fragment} (first : Twin a a' ms) (second : Twin b b' ns) : Twin (a ++ b) (a' ++ b') (ms ++ ns) where
  writes := writesAppend first.writes second.writes
  pieces := by rw [Fragment.append_pieces, Fragment.append_pieces, first.pieces, first.count, second.pieces]
  count := by simp [first.count, second.count]

theorem twinEnded (first : Twin a b ms) (inert : (Piece.words s).inert) : Twin (a ++ words s) (b ++ words s) (ms ++ letters s) :=
  twinAppend first (twinSame (writesWords inert))

theorem twinOpened (inert : (Piece.words s).inert) (second : Twin a b ms) : Twin (words s ++ a) (words s ++ b) (letters s ++ ms) :=
  twinAppend (twinSame (writesWords inert)) second

theorem twinTwice {opening parting ending : String} (twin : Twin f g ms) (opens : (Piece.words opening).inert)
    (parts : (Piece.words parting).inert) (ends : (Piece.words ending).inert) :
    Twin (f.twice opening parting ending) (g.twice opening parting ending)
      (letters opening ++ ms ++ letters parting ++ ms ++ letters ending) where
  writes := writesTwice opening parting ending twin.writes opens parts ends
  pieces := by simp [Fragment.twice, twin.pieces]
  count := twin.count

theorem twinJoin {fs gs : List Fragment} {mss : List (List Mark)} (each : Twins fs gs mss) (inert : (Piece.words s).inert) :
    Twin (.join s fs) (.join s gs) ((letters s).intercalate mss) := by
  induction each with
  | nil => exact twinSame writesEmpty
  | cons first rest ih =>
    cases rest with
    | nil => simpa [Fragment.join] using first
    | cons second rest =>
      rw [List.intercalate_cons_cons]
      exact twinAppend (twinEnded first inert) ih

theorem twinsMap {α : Type} {xs : List α} {x y : α → Fragment} {m : α → List Mark} (each : ∀ i ∈ xs, Twin (x i) (y i) (m i)) :
    Twins (xs.map x) (xs.map y) (xs.map m) := by
  induction xs with
  | nil => exact .nil
  | cons i xs ih =>
    obtain ⟨here, later⟩ := List.forall_mem_cons.mp each
    exact .cons here (ih later)

end Twins

section Names

theorem writesColumn (table column : String) : (Fragment.column table column).Writes (Fragment.column table column).filled :=
  ⟨(writesAppend (writesAppend (writesName table) (writesWords (s := ".") (by decide))) (writesName column)).1, rfl⟩

theorem twinColumn (r : ColumnRef) : Twin (columnText r) (columnText r) (columnText r).filled :=
  twinOf (writesColumn r.table r.column).1

/-- Fragments that are numbered one by one are so when they are joined. -/
theorem numberedJoin {fs : List Fragment} (each : ∀ f ∈ fs, f.Numbered) (inert : (Piece.words s).inert) :
    (Fragment.join s fs).Numbered := by
  have listed : List.Forall₂ Writes fs (fs.map Fragment.filled) :=
    List.forall₂_map_right_iff.mpr (List.forall₂_same.mpr fun f mem => ⟨each f mem, rfl⟩)
  exact (writesJoin listed inert).1

end Names

section Documents

variable (r : ColumnRef) (path : List Value)

theorem twinPart {step : String} (inert : (Piece.words step).inert) (steps : List Value) :
    Twin (words "(" ++ columnText r ++ words step ++ .bind (.array path) ++ words "::text[])")
      (words "(" ++ columnText r ++ words step ++ .bind (.array steps) ++ words "::text[])") (partMarks r path step) :=
  twinEnded (twinAppend (twinEnded (twinOpened (by decide) (twinColumn r)) inert) (twinBind _ _)) (by decide)

theorem documentTwin : Twin (documentAt r path) (documentAt r (blankPath path)) (documentMarks r path) := by
  cases path with
  | nil => exact twinColumn r
  | cons step rest => exact twinPart r (step :: rest) (by decide) [blank]

theorem textTwin : Twin (textAt r path) (textAt r (blankPath path)) (textMarks r path) := by
  cases path with
  | nil => exact twinEnded (twinOpened (by decide) (twinColumn r)) (by decide)
  | cons step rest => exact twinPart r (step :: rest) (by decide) [blank]

theorem operandShape {v : Value} (bound : bindDocument v = .ok f) : f = .bind (documentOperand v) ++ words "::jsonb" := by
  unfold bindDocument at bound
  obtain ⟨s, written, made⟩ := Results.bindOk bound
  cases made
  unfold documentOperand
  rw [written]
  cases s <;> rfl

/-- A value is bound as JSON text, and so is any other. -/
theorem operandTwin {v w : Value} (bound : bindDocument v = .ok f) (other : bindDocument w = .ok g) : Twin f g (jsonMarks v) := by
  rw [operandShape bound, operandShape other]
  exact twinEnded (twinBind _ _) (by decide)

theorem blankBound : ∃ f, bindDocument blank = .ok f := operandBound rfl

theorem blankListBound : ∃ f, bindDocument (.array [blank]) = .ok f := operandBound (listWritten rfl)

end Documents

theorem patternShape {kind : TextMatch} {part v : Value} (found : likePattern kind part = .ok v) : patternOperand kind part = v := by
  unfold patternOperand
  rw [found]
  rfl

theorem blankPattern (kind : TextMatch) : ∃ v, likePattern kind blank = .ok v := by
  cases kind <;> exact ⟨_, rfl⟩

theorem jsonTwin {r : ColumnRef} {test : JsonTest} (known : test.isKnown) (made : jsonTest r test = .ok f) :
    ∃ g, jsonTest r test.blank = .ok g ∧ Twin f g (jsonTestMarks r test) := by
  cases test with
  | path path =>
    cases made
    exact ⟨_, rfl, twinEnded (documentTwin r path) (by decide)⟩
  | text kind path part =>
    obtain ⟨v, found, made⟩ := Results.bindOk made
    cases made
    obtain ⟨w, other⟩ := blankPattern kind
    refine ⟨textAt r (blankPath path) ++ words " LIKE " ++ .bind w, ?_, ?_⟩
    · show (likePattern kind blank >>= fun w => _) = _
      rw [other]
      rfl
    · rw [jsonTestMarks, patternShape found]
      exact twinAppend (twinEnded (textTwin r path) (by decide)) (twinBind _ _)
  | array item path operand =>
    obtain ⟨g, blanked⟩ := blankBound
    obtain ⟨gs, listed⟩ := blankListBound
    cases item with
    | any =>
      obtain ⟨f, bound, made⟩ := Results.bindOk made
      cases made
      refine ⟨documentAt r (blankPath path) ++ words " @> " ++ gs, ?_, ?_⟩
      · show (bindDocument (.array [blank]) >>= fun g => _) = _
        rw [listed]
        rfl
      · exact twinAppend (twinEnded (documentTwin r path) (by decide)) (operandTwin bound listed)
    | first =>
      obtain ⟨f, bound, made⟩ := Results.bindOk made
      cases made
      refine ⟨documentAt r (blankPath path) ++ words " -> 0 = " ++ g, ?_, ?_⟩
      · show (bindDocument blank >>= fun g => _) = _
        rw [blanked]
        rfl
      · exact twinAppend (twinEnded (documentTwin r path) (by decide)) (operandTwin bound blanked)
    | last =>
      obtain ⟨f, bound, made⟩ := Results.bindOk made
      cases made
      refine ⟨documentAt r (blankPath path) ++ words " -> -1 = " ++ g, ?_, ?_⟩
      · show (bindDocument blank >>= fun g => _) = _
        rw [blanked]
        rfl
      · exact twinAppend (twinEnded (documentTwin r path) (by decide)) (operandTwin bound blanked)
  | objectKey path key =>
    cases made
    exact ⟨_, rfl, twinAppend (twinEnded (documentTwin r path) (by decide)) (twinBind _ _)⟩
  | null path kind =>
    cases kind with
    | db =>
      cases made
      exact ⟨_, rfl, twinEnded (documentTwin r path) (by decide)⟩
    | json =>
      cases made
      exact ⟨_, rfl, twinEnded (documentTwin r path) (by decide)⟩
    | any =>
      cases made
      exact ⟨_, rfl, twinTwice (documentTwin r path) (by decide) (by decide) (by decide)⟩
    | foreign name => cases known
  | foreign test => cases known

theorem textTestTwin {r : ColumnRef} {kind : TextMatch} {part : Value} {ignoreCase : Bool}
    (made : textTest r kind part ignoreCase = .ok f) :
    ∃ g, textTest r kind blank ignoreCase = .ok g ∧ Twin f g (textTestMarks r kind part ignoreCase) := by
  have signs : (Piece.words (if ignoreCase then " ILIKE " else " LIKE ")).inert := by cases ignoreCase <;> decide
  have patterned (written : (likePattern kind part >>= fun v =>
        return columnText r ++ words (if ignoreCase then " ILIKE " else " LIKE ") ++ .bind v) = Except.ok f) :
      ∃ g, (likePattern kind blank >>= fun v =>
        return columnText r ++ words (if ignoreCase then " ILIKE " else " LIKE ") ++ .bind v) = Except.ok g ∧
        Twin f g ((columnText r).filled ++ letters (if ignoreCase then " ILIKE " else " LIKE ") ++
          [.operand (patternOperand kind part)]) := by
    obtain ⟨v, found, made⟩ := Results.bindOk written
    cases made
    obtain ⟨w, other⟩ := blankPattern kind
    rw [other, patternShape found]
    exact ⟨_, rfl, twinAppend (twinEnded (twinColumn r) signs) (twinBind _ _)⟩
  unfold textTest at made ⊢
  unfold textTestMarks
  cases kind with
  | equals =>
    cases ignoreCase with
    | false =>
      cases made
      exact ⟨_, rfl, twinAppend (twinEnded (twinColumn r) (by decide)) (twinBind _ _)⟩
    | true => exact patterned made
  | part o => exact patterned made
  | foreign name => exact patterned made

section Conditions

theorem jsonMarksWritten {r : ColumnRef} {test : JsonTest} (known : test.isKnown) : jsonTestMarks r test ≠ [] := by
  cases test with
  | array item path operand => cases item <;> simp [jsonTestMarks, jsonMarks]
  | null path kind =>
    cases kind with
    | foreign name => cases known
    | _ => simp [jsonTestMarks, letters, chars]
  | foreign test => cases known
  | _ => simp [jsonTestMarks, letters, chars]

theorem marksWritten : ∀ {c : Condition}, c.isKnown → conditionMarks c ≠ []
  | .constant b, _ => by cases b <;> simp [conditionMarks, letters, chars]
  | .truthy v, _ => by
    rw [conditionMarks]
    split <;> simp [letters, chars]
  | .text r kind part ignoreCase, _ => by
    rw [conditionMarks]
    unfold textTestMarks
    split <;> simp
  | .compare _ _ _, _ | .member _ _ _, _ | .not _, _ | .related _ _ _ _ _, _ => by simp [conditionMarks, letters, chars]
  | .null _ negated, _ => by cases negated <;> simp [conditionMarks, letters, chars]
  | .json _ _, known => jsonMarksWritten known
  | .all [], _ | .any [], _ | .all (_ :: _), _ | .any (_ :: _), _ => by simp [conditionMarks, letters, chars]
  | .annotated _ reading, known => marksWritten (c := reading) known

theorem spelledWritten (writes : f.Writes ms) (written : ms ≠ []) : f.spelled = f := by
  obtain ⟨-, rfl⟩ := writes
  cases pieces : f.pieces with
  | nil => exact absurd (by rw [Fragment.filled, pieces]; rfl) written
  | cons p rest =>
    unfold Fragment.spelled
    rw [pieces]
    rfl

theorem twinSpelled (twin : Twin f g ms) (written : ms ≠ []) : Twin f.spelled g.spelled ms := by
  have same := spelledWritten twin.writes written
  have other : g.spelled = g := by
    unfold Fragment.spelled at same ⊢
    rw [twin.pieces]
    split at same
    · next none => exact absurd (by rw [← twin.writes.2, Fragment.filled, List.isEmpty_iff.mp none]; rfl) written
    · next some => rw [if_neg some]
  rwa [same, other]

theorem blankConstant : ∀ c : Condition, c.blank.constant? = c.constant?
  | .annotated _ reading => blankConstant reading
  | .constant _ | .truthy _ | .compare _ _ _ | .text _ _ _ _ | .member _ _ _ | .null _ _ | .json _ _ | .all _ | .any _
  | .not _ | .related _ _ _ _ _ | .foreign _ => rfl

theorem blankTrue (c : Condition) : c.blank.isTrue = c.isTrue := by
  rw [Condition.isTrue, blankConstant, Condition.isTrue]

theorem signTwin {operator : Comparator} (known : operator.isKnown) :
    sign operator = .ok (signText operator) ∧ (Piece.words (signText operator)).inert := by
  cases operator with
  | of c => cases c <;> exact ⟨rfl, by decide⟩
  | foreign sign => cases known

variable {r : ColumnRef}

theorem headTwin (table label : String) (join : Join) (negated : Bool) :
    Twin (subqueryHead table label join negated) (subqueryHead table label join negated)
      (subqueryHead table label join negated).filled := by
  have opens : (Piece.words (if negated then "NOT EXISTS (SELECT 1 FROM " else "EXISTS (SELECT 1 FROM ")).inert := by
    cases negated <;> decide
  have joined := writesAppend (writesAppend (twinColumn join.inner).writes (writesWords (s := " = ") (by decide)))
    (twinColumn join.outer).writes
  have header := writesAppend (writesAppend (writesAppend (writesWords opens) (writesName table))
    (writesWords (s := " AS ") (by decide))) (writesName label)
  exact twinOf (writesAppend (writesAppend header (writesWords (s := " WHERE ") (by decide))) joined).1

theorem memberTwin (values : List Value) (negated : Bool) :
    Twin (columnText r ++ words (if negated then " NOT IN (" else " IN (") ++ .join ", " (values.map .bind) ++ words ")")
      (columnText r ++ words (if negated then " NOT IN (" else " IN (") ++ .join ", " ((values.map fun _ => blank).map .bind) ++
        words ")")
      (conditionMarks (.member r values negated)) := by
  have signs : (Piece.words (if negated then " NOT IN (" else " IN (")).inert := by cases negated <;> decide
  have items : Twins (values.map .bind) (values.map fun _ => .bind blank) (values.map fun v => [Mark.operand v]) :=
    twinsMap fun v _ => twinBind v blank
  rw [List.map_map]
  exact twinEnded (twinAppend (twinEnded (twinColumn r) signs) (twinJoin items (by decide))) (by decide)

mutual

/-- By induction on the condition: without its operands it is written as before, and what it binds stands where its
nodes do. -/
theorem conditionTwin (c : Condition) (known : c.isKnown) {f : Fragment} (made : condition c = .ok f) :
    ∃ g, condition c.blank = .ok g ∧ Twin f g (conditionMarks c) := by
  cases c with
  | constant b =>
    cases made
    exact ⟨_, rfl, twinSame (writesWords (by cases b <;> decide))⟩
  | truthy v =>
    cases made
    exact ⟨_, rfl, twinSame (writesWords (by cases v.isTruthy <;> decide))⟩
  | compare r operator operand =>
    obtain ⟨signed, inert⟩ := signTwin known
    rw [condition, signed] at made
    cases made
    refine ⟨_, ?_, twinAppend (twinEnded (twinColumn r) inert) (twinBind operand blank)⟩
    rw [Condition.blank, condition, signed]
    rfl
  | text r kind part ignoreCase => exact textTestTwin made
  | member r values negated =>
    cases made
    exact ⟨_, rfl, memberTwin values negated⟩
  | null r negated =>
    cases made
    exact ⟨_, rfl, twinEnded (twinColumn r) (by cases negated <;> decide)⟩
  | json r test => exact jsonTwin known made
  | all members =>
    cases members with
    | nil =>
      cases made
      exact ⟨_, rfl, twinSame (writesWords (by decide))⟩
    | cons first rest =>
      obtain ⟨fs, listed, made⟩ := Results.bindOk made
      cases made
      obtain ⟨gs, blanked, each⟩ := conditionsTwin (first :: rest) known listed
      refine ⟨words "(" ++ .join " AND " gs ++ words ")", ?_, twinEnded (twinOpened (by decide) (twinJoin each (by decide))) (by decide)⟩
      show (conditions (Condition.blanks (first :: rest)) >>= fun gs => _) = _
      rw [blanked]
      rfl
  | any members =>
    cases members with
    | nil =>
      cases made
      exact ⟨_, rfl, twinSame (writesWords (by decide))⟩
    | cons first rest =>
      obtain ⟨fs, listed, made⟩ := Results.bindOk made
      cases made
      obtain ⟨gs, blanked, each⟩ := conditionsTwin (first :: rest) known listed
      refine ⟨words "(" ++ .join " OR " gs ++ words ")", ?_, twinEnded (twinOpened (by decide) (twinJoin each (by decide))) (by decide)⟩
      show (conditions (Condition.blanks (first :: rest)) >>= fun gs => _) = _
      rw [blanked]
      rfl
  | not inner =>
    obtain ⟨f, done, made⟩ := Results.bindOk made
    cases made
    obtain ⟨g, blanked, twin⟩ := conditionTwin inner known done
    have written := marksWritten (c := inner) known
    refine ⟨words "NOT (" ++ g.spelled ++ words ")", ?_, ?_⟩
    · rw [Condition.blank, condition, blanked]
      rfl
    · exact twinEnded (twinOpened (by decide) (twinSpelled twin written)) (by decide)
  | related table label join inner negated =>
    have head := headTwin table label join negated
    rw [Condition.blank, condition, blankTrue, conditionMarks]
    rw [condition] at made
    split at made
    · next constant =>
      cases made
      rw [if_pos constant, if_pos constant]
      exact ⟨_, rfl, twinEnded (twinAppend head (twinSame writesEmpty)) (by decide)⟩
    · next varies =>
      obtain ⟨f, done, made⟩ := Results.bindOk made
      cases made
      obtain ⟨g, blanked, twin⟩ := conditionTwin inner known done
      have spelled := twinSpelled twin (marksWritten (c := inner) known)
      rw [if_neg varies, if_neg varies, blanked]
      exact ⟨_, rfl, twinEnded (twinAppend head (twinOpened (by decide) spelled)) (by decide)⟩
  | annotated document reading => exact conditionTwin reading known made
  | foreign node => cases known

theorem conditionsTwin (cs : List Condition) (known : Condition.areKnown cs) {fs : List Fragment} (made : conditions cs = .ok fs) :
    ∃ gs, conditions (Condition.blanks cs) = .ok gs ∧ Twins fs gs (conditionsMarks cs) := by
  cases cs with
  | nil =>
    cases made
    exact ⟨[], rfl, .nil⟩
  | cons c rest =>
    obtain ⟨here, later⟩ := (Bool.and_eq_true ..).mp known
    obtain ⟨f, done, made⟩ := Results.bindOk made
    obtain ⟨fs, listed, made⟩ := Results.bindOk made
    cases made
    obtain ⟨g, blanked, twin⟩ := conditionTwin c here done
    obtain ⟨gs, blankedRest, each⟩ := conditionsTwin rest later listed
    refine ⟨g :: gs, ?_, .cons twin each⟩
    rw [Condition.blanks, conditions, blanked, blankedRest]
    rfl

end

end Conditions

section Clauses

theorem whereTwin {c : Condition} (known : c.isKnown) (made : whereClause c = .ok f) :
    ∃ g, whereClause c.blank = .ok g ∧ Twin f g (whereMarks c) := by
  unfold whereClause at made ⊢
  unfold whereMarks
  rw [blankTrue]
  split at made
  · next constant =>
    cases made
    rw [if_pos constant, if_pos constant]
    exact ⟨_, rfl, twinSame writesEmpty⟩
  · next varies =>
    obtain ⟨f, done, made⟩ := Results.bindOk made
    cases made
    obtain ⟨g, blanked, twin⟩ := conditionTwin c known done
    rw [if_neg varies, if_neg varies, blanked]
    exact ⟨_, rfl, twinOpened (by decide) (twinSpelled twin (marksWritten known))⟩

/-- The clause of a bound: nothing, or a word and a number. -/
def Bounding (word text : String) : Prop := text = "" ∨ ∃ n : Number, text = word ++ n.toText

theorem limitWritten {limit offset : Value} (limited : limit.isBound) (shifted : offset.isBound) :
    ∃ first second, limitClause limit offset = .ok (words (first ++ second)) ∧ Bounding " LIMIT " first ∧
      Bounding " OFFSET " second := by
  have decided (m : Number) : (Value.number m).isAboveZero = .ok (m.compare? (.integer 0) == some .gt) := rfl
  unfold limitClause
  cases limit with
  | null =>
    cases offset with
    | null => exact ⟨"", "", rfl, .inl rfl, .inl rfl⟩
    | number m =>
      rw [decided]
      cases m.compare? (.integer 0) == some .gt with
      | false => exact ⟨"", "", rfl, .inl rfl, .inl rfl⟩
      | true => exact ⟨"", _, rfl, .inl rfl, .inr ⟨m, rfl⟩⟩
    | _ => cases shifted
  | number n =>
    cases offset with
    | null => exact ⟨_, "", rfl, .inr ⟨n, rfl⟩, .inl rfl⟩
    | number m =>
      rw [decided]
      cases m.compare? (.integer 0) == some .gt with
      | false => exact ⟨_, "", rfl, .inr ⟨n, rfl⟩, .inl rfl⟩
      | true => exact ⟨_, _, rfl, .inr ⟨n, rfl⟩, .inr ⟨m, rfl⟩⟩
    | _ => cases shifted
  | _ => cases limited

theorem boundingPlain {word text : String} (plain : Plain word.toList) (bounding : Bounding word text) : Plain text.toList := by
  obtain rfl | ⟨n, rfl⟩ := bounding
  · simp [Plain]
  · rw [String.toList_append]
    exact plainAppend plain (plainNumber n)

theorem limitNumbered {limit offset : Value} (limited : limit.isBound) (shifted : offset.isBound) :
    ∃ f, limitClause limit offset = .ok f ∧ f.Numbered := by
  obtain ⟨first, second, made, leading, following⟩ := limitWritten limited shifted
  refine ⟨_, made, (writesWords (inertPlain ?_ ?_)).1⟩
  · rw [String.toList_append]
    exact plainAppend (boundingPlain (by simp [Plain]) leading) (boundingPlain (by simp [Plain]) following)
  · obtain rfl | ⟨n, rfl⟩ := leading <;> obtain rfl | ⟨m, rfl⟩ := following <;> simp

theorem orderTermNumbered (table : Option String) (t : OrderTerm) : (orderTerm table t).Numbered := by
  unfold orderTerm
  refine Fragment.numberedAppend ?_ (writesWords ?_).1
  · cases table with
    | none => exact (writesName t.column).1
    | some table => exact (writesColumn table t.column).1
  · split <;> split <;> decide

theorem namesNumbered (columns : List String) : (names columns).Numbered :=
  numberedJoin (List.forall_mem_map.mpr fun c _ => (writesName c).1) (by decide)

theorem columnsNumbered (table : String) (columns : List String) : (Fragment.join ", " (columns.map (column table))).Numbered :=
  numberedJoin (List.forall_mem_map.mpr fun c _ => (writesColumn table c).1) (by decide)

theorem numberedOpened (inert : (Piece.words s).inert) (numbered : f.Numbered) : (words s ++ f).Numbered :=
  Fragment.numberedAppend (writesWords inert).1 numbered

theorem returningNumbered (columns : List String) : (returning columns).Numbered := by
  unfold returning
  split
  · exact writesEmpty.1
  · exact numberedOpened (by decide) (namesNumbered columns)

theorem orderNumbered {terms : List Fragment} (each : ∀ f ∈ terms, f.Numbered) : (orderClause terms).Numbered := by
  unfold orderClause
  split
  · exact writesEmpty.1
  · exact numberedOpened (by decide) (numberedJoin each (by decide))

theorem groupNumbered (s : Grouping) : (groupClause s).Numbered := by
  unfold groupClause
  split
  · exact writesEmpty.1
  · exact numberedOpened (by decide) (columnsNumbered s.table s.columns)

theorem aggregateNumbered {table : String} {x : Aggregate} (known : x.function.isKnown) (made : aggregate table x = .ok f) :
    f.Numbered := by
  obtain ⟨about, named, made⟩ := Results.bindOk made
  have argued : about.Numbered := by
    unfold argument at named
    split at named
    · cases named
      exact (writesWords (by decide)).1
    · obtain ⟨c, -, named⟩ := Results.bindOk named
      cases named
      exact (writesColumn table c).1
  cases function : x.function with
  | foreign name =>
    rw [function] at known
    cases known
  | of known =>
    rw [function] at made
    cases made
    have called : (Piece.words (functionName known ++ "(")).inert := by cases known <;> decide
    exact Fragment.numberedAppend (numberedOpened called argued) (writesWords (by decide)).1

theorem selectionsNumbered {s : Grouping} {fs : List Fragment} (known : s.aggregates.all (·.function.isKnown))
    (made : selections s = .ok fs) : ∀ f ∈ fs, f.Numbered := by
  have labelled {f : Fragment} (numbered : f.Numbered) (label : String) : (f ++ words " AS " ++ name label).Numbered :=
    Fragment.numberedAppend (Fragment.numberedAppend numbered (writesWords (by decide)).1) (writesName label).1
  obtain ⟨aggregates, mapped, made⟩ := Results.bindOk made
  cases made
  refine List.forall_mem_append.mpr ⟨List.forall_mem_map.mpr fun c _ => labelled (writesColumn s.table c).1 c, ?_⟩
  intro f mem
  obtain ⟨x, inside, written⟩ := Results.mapAllItems mapped f mem
  obtain ⟨f, done, written⟩ := Results.bindOk written
  cases written
  exact labelled (aggregateNumbered (List.all_eq_true.mp known x inside) done) x.label

theorem havingTwin {table : String} {having : Option Having}
    (known : having.all fun h => h.aggregate.function.isKnown && h.operator.isKnown) (made : havingClause table having = .ok f) :
    ∃ g, havingClause table (having.map fun h => { h with operand := blank }) = .ok g ∧ Twin f g (havingMarks table having) := by
  cases having with
  | none =>
    cases made
    exact ⟨_, rfl, twinSame writesEmpty⟩
  | some h =>
    obtain ⟨function, operator⟩ := (Bool.and_eq_true ..).mp known
    obtain ⟨signed, inert⟩ := signTwin operator
    obtain ⟨x, done, made⟩ := Results.bindOk made
    rw [signed] at made
    cases made
    unfold havingClause havingMarks
    rw [Option.map_some]
    dsimp only
    rw [done, signed]
    have written := twinOpened (s := " HAVING ") (by decide) (twinOf (aggregateNumbered function done))
    exact ⟨_, rfl, twinAppend (twinEnded written inert) (twinBind h.operand blank)⟩

theorem tupleTwin (columns : List String) (row : Row) :
    Twin (tuple columns row) (tuple columns (Record.mapValues (fun _ => blank) row)) (tupleMarks columns row) := by
  refine twinEnded (twinOpened (by decide) (twinJoin (twinsMap fun c _ => ?_) (by decide))) (by decide)
  rw [Record.getMapped]
  cases Record.get? row c with
  | none => exact twinSame (writesWords (by decide))
  | some v => exact twinBind v blank

theorem columnsBlank (rows : List Row) : columnsOf (rows.map (Record.mapValues fun _ => blank)) = columnsOf rows := by
  unfold columnsOf
  rw [List.flatMap_map]
  exact congrArg List.eraseDups (List.flatMap_congr fun row _ => Record.namesMapped _ row)

theorem assignmentTwin {x : Assignment} (known : x.change.isKnown) (made : assignment x = .ok f) :
    ∃ g, assignment { x with operand := blank } = .ok g ∧ Twin f g (assignmentMarks x) := by
  obtain ⟨column, change, operand⟩ := x
  have target := twinEnded (s := " = ") (twinOf (writesName column).1) (by decide)
  cases change with
  | set =>
    cases made
    exact ⟨_, rfl, twinAppend target (twinBind operand blank)⟩
  | arithmetic op =>
    cases made
    have signed : (Piece.words (" " ++ arithmeticSymbol op ++ " ")).inert := by cases op <;> decide
    exact ⟨_, rfl, twinAppend (twinEnded (twinAppend target (twinOf (writesName column).1)) signed) (twinBind operand blank)⟩
  | foreign v => cases known

/-- A step that gives twins for each item gives them for a list. -/
theorem twinsMapAll {α : Type} {xs : List α} {x y : α → Except Failure Fragment} {m : α → List Mark} {fs : List Fragment}
    (each : ∀ i ∈ xs, ∀ f, x i = .ok f → ∃ g, y i = .ok g ∧ Twin f g (m i)) (made : xs.mapM x = .ok fs) :
    ∃ gs, xs.mapM y = .ok gs ∧ Twins fs gs (xs.map m) := by
  induction xs generalizing fs with
  | nil =>
    cases made
    exact ⟨[], rfl, .nil⟩
  | cons i xs ih =>
    obtain ⟨here, later⟩ := List.forall_mem_cons.mp each
    rw [List.mapM_cons] at made
    obtain ⟨f, done, made⟩ := Results.bindOk made
    obtain ⟨fs, rest, made⟩ := Results.bindOk made
    cases made
    obtain ⟨g, other, twin⟩ := here f done
    obtain ⟨gs, others, twins⟩ := ih later rest
    refine ⟨g :: gs, ?_, .cons twin twins⟩
    rw [List.mapM_cons, other, others]
    rfl

end Clauses

section Statements

variable {p : Prepared}

/-- A statement that was written, and the one without its operands. -/
def Paired (p : Prepared) (blanked : Except Failure Prepared) (ms : List Mark) : Prop :=
  ∃ f g, p = f.prepare ∧ blanked = .ok g.prepare ∧ Twin f g ms

theorem limitTwin {limit offset : Value} (limited : limit.isBound) (shifted : offset.isBound) :
    ∃ f, limitClause limit offset = .ok f ∧ Twin f f (boundMarks limit offset) := by
  obtain ⟨f, made, numbered⟩ := limitNumbered limited shifted
  refine ⟨f, made, ?_⟩
  unfold boundMarks
  rw [made]
  exact twinOf numbered

theorem pairedSelect {s : Select} (known : (Statement.select s).isKnown) (made : select s = .ok p) :
    Paired p (Statement.select s).blank.render (statementMarks (.select s)) := by
  obtain ⟨both, shifted⟩ := (Bool.and_eq_true ..).mp known
  obtain ⟨known, limited⟩ := (Bool.and_eq_true ..).mp both
  obtain ⟨f, done, made⟩ := Results.bindOk made
  obtain ⟨g, blanked, condition⟩ := whereTwin known done
  obtain ⟨bounds, limits, bounded⟩ := limitTwin limited shifted
  rw [limits] at made
  cases made
  have columns := twinOf (numberedOpened (s := "SELECT ") (by decide) (columnsNumbered s.table s.columns))
  have head := twinOf (twinAppend (twinEnded (s := " FROM ") columns (by decide)) (twinOf (writesName s.table).1)).writes.1
  have order : (orderClause (s.order.map (orderTerm (some s.table)))).Numbered :=
    orderNumbered (List.forall_mem_map.mpr fun t _ => orderTermNumbered _ t)
  refine ⟨_, _, rfl, ?_, twinAppend (twinAppend (twinAppend head condition) (twinOf order)) bounded⟩
  show select { s with condition := s.condition.blank } = _
  unfold select
  rw [blanked, limits]
  rfl

theorem pairedInsert {s : Insert} (made : insert s = .ok p) :
    Paired p (Statement.insert s).blank.render (statementMarks (.insert s)) := by
  have head := writesAppend (writesWords (s := "INSERT INTO ") (by decide)) (writesName s.table)
  have tail := twinOf (returningNumbered s.returning)
  have render : (Statement.insert s).blank.render = insert { s with rows := s.rows.map (Record.mapValues fun _ => blank) } := rfl
  rw [render, statementMarks]
  unfold insert at made ⊢
  dsimp only at made ⊢
  rw [columnsBlank]
  split at made
  · next none =>
    rw [if_pos none, if_pos none]
    split at made
    · cases made
    · next one =>
      cases made
      rw [List.length_map, if_neg one]
      have defaults := writesAppend (writesAppend head (writesWords (s := " DEFAULT VALUES") (by decide))) tail.writes
      exact ⟨_, _, rfl, rfl, twinOf defaults.1⟩
  · next some =>
    cases made
    rw [if_neg some, if_neg some]
    have listed := writesAppend (writesAppend head (writesWords (s := " (") (by decide)))
      ⟨namesNumbered (columnsOf s.rows), rfl⟩
    have opened := twinOf (writesAppend listed (writesWords (s := ") VALUES ") (by decide))).1
    have tuples := twinsMap fun row (_ : row ∈ s.rows) => tupleTwin (columnsOf s.rows) row
    have rows := twinJoin (s := ", ") tuples (by decide)
    refine ⟨_, _, rfl, ?_, twinAppend (twinAppend opened rows) tail⟩
    rw [List.map_map]
    rfl

theorem pairedUpdate {s : Update} (known : (Statement.update s).isKnown) (made : update s = .ok p) :
    Paired p (Statement.update s).blank.render (statementMarks (.update s)) := by
  obtain ⟨known, changes⟩ := (Bool.and_eq_true ..).mp known
  obtain ⟨fs, assigned, made⟩ := Results.bindOk made
  obtain ⟨gs, others, each⟩ := twinsMapAll (fun x mem f => assignmentTwin (List.all_eq_true.mp changes x mem)) assigned
  have head := writesAppend (writesAppend (writesWords (s := "UPDATE ") (by decide)) (writesName s.table))
    (writesWords (s := " SET ") (by decide))
  split at made
  · cases made
  · next some =>
    obtain ⟨f, done, made⟩ := Results.bindOk made
    cases made
    obtain ⟨g, blanked, condition⟩ := whereTwin known done
    refine ⟨_, _, rfl, ?_, twinAppend (twinAppend (twinAppend (twinOf head.1) (twinJoin each (by decide))) condition)
      (twinOf (returningNumbered s.returning))⟩
    show update { s with
      assignments := s.assignments.map fun x => { x with operand := blank }
      condition := s.condition.blank } = _
    unfold update
    rw [List.mapM_map, List.isEmpty_map]
    show (s.assignments.mapM (fun x => assignment { x with operand := blank }) >>= fun _ => _) = _
    rw [others, blanked, Bool.eq_false_iff.mpr some]
    rfl

theorem pairedDelete {s : Delete} (known : (Statement.delete s).isKnown) (made : delete s = .ok p) :
    Paired p (Statement.delete s).blank.render (statementMarks (.delete s)) := by
  obtain ⟨f, done, made⟩ := Results.bindOk made
  cases made
  obtain ⟨g, blanked, condition⟩ := whereTwin known done
  have head := twinOf (writesAppend (writesWords (s := "DELETE FROM ") (by decide)) (writesName s.table)).1
  refine ⟨_, _, rfl, ?_, twinAppend (twinAppend head condition) (twinOf (returningNumbered s.returning))⟩
  show delete { s with condition := s.condition.blank } = _
  unfold delete
  rw [blanked]
  rfl

theorem pairedCount {s : Count} (known : (Statement.count s).isKnown) (made : count s = .ok p) :
    Paired p (Statement.count s).blank.render (statementMarks (.count s)) := by
  obtain ⟨f, done, made⟩ := Results.bindOk made
  cases made
  obtain ⟨g, blanked, condition⟩ := whereTwin known done
  have head := twinOf (writesAppend (writesWords (s := "SELECT COUNT(*) AS \"count\" FROM ") (by decide)) (writesName s.table)).1
  refine ⟨_, _, rfl, ?_, twinAppend head condition⟩
  show count { s with condition := s.condition.blank } = _
  unfold count
  rw [blanked]
  rfl

theorem pairedAggregate {s : Grouping} (known : (Statement.aggregate s).isKnown) (made : grouping s = .ok p) :
    Paired p (Statement.aggregate s).blank.render (statementMarks (.aggregate s)) := by
  obtain ⟨known, shifted⟩ := (Bool.and_eq_true ..).mp known
  obtain ⟨known, limited⟩ := (Bool.and_eq_true ..).mp known
  obtain ⟨known, filtered⟩ := (Bool.and_eq_true ..).mp known
  obtain ⟨known, functions⟩ := (Bool.and_eq_true ..).mp known
  obtain ⟨fs, selected, made⟩ := Results.bindOk made
  obtain ⟨f, done, made⟩ := Results.bindOk made
  obtain ⟨h, having, made⟩ := Results.bindOk made
  obtain ⟨g, blanked, condition⟩ := whereTwin known done
  obtain ⟨h', having', filter⟩ := havingTwin filtered having
  obtain ⟨bounds, limits, bounded⟩ := limitTwin limited shifted
  rw [limits] at made
  cases made
  have selections := twinOf (numberedOpened (s := "SELECT ") (by decide)
    (numberedJoin (s := ", ") (selectionsNumbered functions selected) (by decide)))
  have head := twinOf (twinAppend (twinEnded (s := " FROM ") selections (by decide)) (twinOf (writesName s.table).1)).writes.1
  have order : (orderOf s).Numbered := orderNumbered (List.forall_mem_map.mpr fun t _ => orderTermNumbered _ t)
  have groups := twinOf (groupNumbered s)
  rw [statementMarks, selected]
  refine ⟨_, _, rfl, ?_, twinAppend (twinAppend (twinAppend (twinAppend (twinAppend head condition) groups) filter) (twinOf order))
    bounded⟩
  show grouping { s with condition := s.condition.blank, having := s.having.map fun h => { h with operand := blank } } = _
  have same : Sql.selections { s with
      condition := s.condition.blank
      having := s.having.map fun h => { h with operand := blank } } = .ok fs := selected
  unfold grouping
  rw [same, blanked, having', limits]
  rfl

theorem statementPaired {s : Statement} (known : s.isKnown) (made : s.render = .ok p) :
    Paired p s.blank.render (statementMarks s) := by
  cases s with
  | select s => exact pairedSelect known made
  | insert s => exact pairedInsert made
  | update s => exact pairedUpdate known made
  | delete s => exact pairedDelete known made
  | count s => exact pairedCount known made
  | aggregate s => exact pairedAggregate known made

/-- The placeholders of a statement number its parameters in the order of its text, each stands for the operand of its
node, and nothing of an operand is in the text: statements that are alike without their operands have one text. -/
theorem operandsBound (s : Statement) (known : s.isKnown) (made : s.render = .ok p) :
    (placeholders p.sql).eraseDups = List.range' 1 p.params.length ∧
    (marks p.sql).map (Mark.bound p.params) = statementMarks s ∧
    ∀ t : Statement, t.isKnown → t.blank = s.blank → ∀ q, t.render = .ok q → q.sql = p.sql := by
  obtain ⟨f, g, rfl, blanked, twin⟩ := statementPaired known made
  refine ⟨Fragment.placeholdersText twin.writes.1, (Fragment.boundText twin.writes.1).trans twin.writes.2, ?_⟩
  intro t typed same q written
  obtain ⟨f', g', rfl, blanked', twin'⟩ := statementPaired typed written
  rw [same, blanked] at blanked'
  have one : g.text = g'.text := congrArg Prepared.sql (Except.ok.inj blanked')
  show String.join (f'.pieces.map Piece.text) = String.join (f.pieces.map Piece.text)
  rw [← twin'.pieces, ← twin.pieces]
  exact one.symm

/-- An update of a table with a placeholder in its name, by operands of one form. -/
def repriced (amount : Int) (part : String) (step : String) : Statement :=
  .update ⟨"t\"$9", [⟨"price", .arithmetic .increment, .int amount⟩, ⟨"note", .set, .text part⟩],
    .all [.text ⟨"t\"$9", "name"⟩ (.part .contains) (.text part) true, .json ⟨"t\"$9", "data"⟩ (.null [.text step] .any)], ["id"]⟩

theorem repricedBound : ∃ p q, (repriced 5 "a%" "x").render = .ok p ∧ (repriced 7 "$1\" OR" "$2").render = .ok q ∧ q.sql = p.sql ∧
    (placeholders p.sql).eraseDups = [1, 2, 3, 4] ∧
    (marks p.sql).map (Mark.bound p.params) = statementMarks (repriced 5 "a%" "x") := by
  obtain ⟨numbered, bound, one⟩ := operandsBound (repriced 5 "a%" "x") rfl rfl
  exact ⟨_, _, rfl, rfl, one (repriced 7 "$1\" OR" "$2") rfl rfl _ rfl, numbered, bound⟩

end Statements

end EntityQuery.Sql
