import EntityQuery.Proofs.ClientRuns
import EntityQuery.Proofs.ExactNumbers
import EntityQuery.Proofs.Operands
/-! Columns of integers. What a client writes in them is checked against their width, while the store counts keys and
carries out arithmetic without a check. -/

namespace EntityQuery

namespace IntegerType

/-- The integer that a stored value is in a column of a width: exact in wide columns, a number in narrow ones. -/
def stored? (width : IntegerType) : Value → Option Int
  | .integer n => if width.isWide then some n else none
  | .number x => if width.isWide then none else x.int?
  | _ => none

def key (width : IntegerType) (n : Int) : Value := if width.isWide then .integer n else .number (Number.ofInt n)

variable {width : IntegerType} {n : Int}

theorem narrowBounds (narrow : width.isWide = false) (holds : width.holds n) : n.natAbs ≤ 2 ^ 32 := by
  have bounds : width.least ≤ n ∧ n ≤ width.greatest := of_decide_eq_true holds
  have few : width.isWide = false → -(2 ^ 32) ≤ width.least ∧ width.greatest ≤ 2 ^ 32 := by cases width <;> decide
  have := few narrow
  omega

theorem storedCases {v : Value} (stored : width.stored? v = some n) :
    (width.isWide ∧ v = .integer n) ∨ width.isWide = false ∧ ∃ x : Number, v = .number x ∧ x.int? = some n := by
  cases v with
  | integer m =>
    obtain ⟨wide, same⟩ := (Option.ite_none_right_eq_some).mp stored
    cases same
    exact .inl ⟨wide, rfl⟩
  | number x =>
    obtain ⟨narrow, same⟩ := (Option.ite_none_left_eq_some).mp stored
    exact .inr ⟨by simpa using narrow, x, rfl, same⟩
  | _ => cases stored

theorem storedOfWidth (width : IntegerType) (n : Int) : width.stored? (Field.ofWidth width n) = some n := by
  unfold Field.ofWidth
  cases wide : width.isWide <;> simp [stored?, wide, Value.int]

theorem storedKey (holds : width.holds n) : width.stored? (width.key n) = some n := by
  unfold key
  cases wide : width.isWide with
  | true => simp [stored?, wide]
  | false =>
    have small : n.natAbs ≤ Number.integerBound := (narrowBounds wide holds).trans (by decide)
    simp [stored?, wide, Number.ofInt_of_le small]

end IntegerType

namespace Results

theorem pastThrow {α β : Type} {p : Prop} [Decidable p] {e : Failure} {next : α → Except Failure β}
    {later : Except Failure β} {b : β} (h : (if p then throw e >>= next else later) = .ok b) : later = .ok b := by
  split at h
  · cases h
  · exact h

end Results

/-- What a column of integers holds: nothing, an integer of its width, or a key that was counted past them. -/
inductive Field.HoldsInteger (f : Field) (width : IntegerType) : Value → Prop
  | nothing {v : Value} (none : v.isNothing) : HoldsInteger f width v
  | within {v : Value} (n : Int) (stored : width.stored? v = some n) (holds : width.holds n) : HoldsInteger f width v
  | counted (generated : f.generated) (n : Int) (past : width.greatest < n) : HoldsInteger f width (width.key n)

/-- Wide columns hold exact integers, and narrow ones numbers. -/
def IntegerType.HoldsNumber (width : IntegerType) (v : Value) : Prop :=
  v.isNothing ∨ if width.isWide then ∃ n, v = .integer n else ∃ x, v = .number x

namespace IntegerType.HoldsNumber

variable {width : IntegerType} {v : Value}

theorem key (width : IntegerType) (n : Int) : width.HoldsNumber (width.key n) := by
  unfold IntegerType.key
  refine .inr ?_
  cases width.isWide with
  | true => exact ⟨n, rfl⟩
  | false => exact ⟨Number.ofInt n, rfl⟩

theorem copied (held : width.HoldsNumber v) : Store.copied v = v := by
  rcases held with nothing | number
  · cases v with
    | absent | null => rfl
    | _ => cases nothing
  · split at number
    · obtain ⟨n, rfl⟩ := number
      rfl
    · obtain ⟨x, rfl⟩ := number
      rfl

end IntegerType.HoldsNumber

theorem Field.HoldsInteger.number {f : Field} {width : IntegerType} {v : Value} (held : f.HoldsInteger width v) :
    width.HoldsNumber v := by
  cases held with
  | nothing none => exact .inl none
  | within n stored holds =>
    refine .inr ?_
    rcases IntegerType.storedCases stored with ⟨wide, rfl⟩ | ⟨narrow, x, rfl, -⟩
    · rw [wide]
      exact ⟨n, rfl⟩
    · rw [narrow]
      exact ⟨x, rfl⟩
  | counted generated n past => exact .key width n

namespace Field

variable {f : Field} {width : IntegerType} {v w : Value}

theorem encodedInteger (typed : f.type = .integer width) (written : f.encode v = .ok w) :
    w.isNothing ∨ ∃ n, w = ofWidth width n ∧ width.holds n := by
  cases there : v.isNothing with
  | true =>
    rw [encode_of_isNothing there] at written
    split at written
    · cases written
      exact .inl rfl
    · cases written
  | false =>
    rw [encodeGiven typed there] at written
    change encodeInteger width f.name v = .ok w at written
    unfold encodeInteger at written
    split at written
    · cases written
    · rename_i n exact
      split at written
      · rename_i holds
        exact .inr ⟨n, (Except.ok.inj written).symm, holds⟩
      · cases written

theorem encodedHolds (typed : f.type = .integer width) (written : f.encode v = .ok w) : f.HoldsInteger width w := by
  rcases encodedInteger typed written with nothing | ⟨n, rfl, holds⟩
  · exact .nothing nothing
  · exact .within n (width.storedOfWidth n) holds

theorem keyHolds (generated : f.generated) {n : Int} (positive : 0 < n) : f.HoldsInteger width (width.key n) := by
  by_cases fits : n ≤ width.greatest
  · have least : width.least ≤ 0 := by cases width <;> decide
    have holds : width.holds n := decide_eq_true ⟨by omega, fits⟩
    exact .within n (IntegerType.storedKey holds) holds
  · exact .counted generated n (by omega)

theorem encodedOperand (typed : f.type = .integer width) {operation : Arithmetic}
    (encoded : f.encodeArithmetic operation v = .ok w) : if width.isWide then ∃ n, w = .integer n else ∃ x, w = .number x := by
  have wide : f.type.isWideInteger = width.isWide := by rw [typed]; rfl
  unfold encodeArithmetic at encoded
  have finite := Results.pastThrow encoded
  have divides := Results.pastThrow finite
  rw [wide] at divides
  split
  · rename_i yes
    rw [if_pos yes] at divides
    split at divides
    · obtain ⟨n, -, exactly⟩ := Results.bindOk (Results.pastThrow divides)
      cases exactly
      exact ⟨n, rfl⟩
    · obtain ⟨n, -, exactly⟩ := Results.bindOk divides
      cases exactly
      exact ⟨n, rfl⟩
  · rename_i no
    rw [if_neg no] at divides
    obtain ⟨x, -, divides⟩ := Results.bindOk divides
    cases divides
    exact ⟨x, rfl⟩

end Field

namespace Store

variable {f : Field} {width : IntegerType} {operation : Arithmetic} {current operand w : Value}

theorem computedNumber (typed : f.type = .integer width) (held : width.HoldsNumber current) {v : Value}
    (encoded : f.encodeArithmetic operation v = .ok operand) (computed : arithmetic operation f current operand = .ok w) :
    width.HoldsNumber w := by
  have given := Field.encodedOperand typed encoded
  unfold arithmetic at computed
  split at computed
  · cases computed
    exact .inl rfl
  · rename_i there
    refine .inr ?_
    rcases held with nothing | held
    · exact absurd nothing there
    · cases wide : width.isWide with
      | true =>
        rw [wide] at given held
        obtain ⟨a, rfl⟩ := held
        obtain ⟨b, rfl⟩ := given
        obtain ⟨n, -, computed⟩ := Results.bindOk computed
        cases computed
        exact ⟨n, rfl⟩
      | false =>
        rw [wide] at given held
        obtain ⟨a, rfl⟩ := held
        obtain ⟨b, rfl⟩ := given
        cases computed
        exact ⟨_, rfl⟩

theorem numberExact (typed : f.type = .integer width) {x y : Number} {a b k : Int} (left : x.int? = some a)
    (few : a.natAbs ≤ 2 ^ 32) (right : y.int? = some b) (result : exactArithmetic operation a b = .ok k)
    (small : k.natAbs ≤ 2 ^ 32) : (numberArithmetic operation f x y).int? = some k := by
  have bounded : k.natAbs ≤ Number.integerBound := small.trans (by decide)
  cases operation with
  | increment =>
    cases result
    exact Number.wholeAdd left right bounded
  | decrement =>
    cases result
    exact Number.wholeSub left right bounded
  | multiply =>
    cases result
    exact Number.wholeMul left right bounded
  | divide =>
    have cut : f.typeClass = .integer := by
      unfold Field.typeClass
      rw [typed]
      rfl
    unfold exactArithmetic quotient at result
    dsimp only at result
    split at result
    · cases result
    · rename_i divides
      cases result
      unfold numberArithmetic
      dsimp only
      rw [if_pos (by rw [cut]; rfl)]
      exact Number.wholeDiv left right divides few

end Store

/-- What comes about in a column of integers: what it holds without arithmetic, and what arithmetic makes of that with
operands that a client accepts. -/
inductive Field.Computed (f : Field) (width : IntegerType) : Value → Prop
  | held {v : Value} (holds : f.HoldsInteger width v) : Computed f width v
  | applied {v given operand w : Value} {operation : Arithmetic} (before : Computed f width v)
    (accepted : f.encodeArithmetic operation given = .ok operand) (made : Store.arithmetic operation f v operand = .ok w) :
    Computed f width w

theorem Field.Computed.number {f : Field} {width : IntegerType} {v : Value} (typed : f.type = .integer width)
    (computed : f.Computed width v) : width.HoldsNumber v := by
  induction computed with
  | held holds => exact holds.number
  | applied before accepted made ih => exact Store.computedNumber typed ih accepted made

namespace Store

variable {f : Field} {width : IntegerType} {operation : Arithmetic} {current operand : Value}

/-- Arithmetic on an integer of a column and an integer is exact where its result is an integer of the column's width. -/
theorem arithmeticExact (typed : f.type = .integer width) {a b k : Int} (left : width.stored? current = some a)
    (within : width.holds a) (right : width.stored? operand = some b) (result : exactArithmetic operation a b = .ok k)
    (fits : width.holds k) : ∃ w, arithmetic operation f current operand = .ok w ∧ width.stored? w = some k := by
  rcases IntegerType.storedCases left with ⟨wide, rfl⟩ | ⟨narrow, x, rfl, whole⟩
  · rcases IntegerType.storedCases right with ⟨-, rfl⟩ | ⟨narrow, -⟩
    · refine ⟨.integer k, ?_, if_pos wide⟩
      change (do return Value.integer (← exactArithmetic operation a b)) = _
      rw [result]
      rfl
    · exact absurd (narrow.symm.trans wide) Bool.false_ne_true
  · rcases IntegerType.storedCases right with ⟨wide, -⟩ | ⟨-, y, rfl, given⟩
    · exact absurd (narrow.symm.trans wide) Bool.false_ne_true
    · refine ⟨.number (numberArithmetic operation f x y), rfl, ?_⟩
      have exactly := numberExact typed whole (IntegerType.narrowBounds narrow within) given result
        (IntegerType.narrowBounds narrow fits)
      rw [IntegerType.stored?, if_neg (by simp [narrow]), exactly]

end Store

namespace Field

variable {f : Field} {v w : Value}

theorem encodeNewEncodes (written : f.encodeNew v = .ok w) : ∃ x, f.encode x = .ok w := by
  unfold encodeNew at written
  split at written
  · split at written
    · obtain ⟨x, -, written⟩ := Results.bindOk written
      exact ⟨x, written⟩
    · exact ⟨_, written⟩
  · exact ⟨v, written⟩

end Field

namespace CellRule

def free (schema : Schema) : CellRule schema where
  cell _ _ _ := True
  plain _ := True
  computes _ _ := True
  plainNull := trivial
  copied _ := trivial
  read _ _ _ _ _ := trivial
  written _ _ _ _ := trivial
  entered _ _ _ _ := trivial
  omitted _ _ _ _ := trivial
  generated _ _ _ _ _ := trivial
  changed _ _ _ _ _ _ := trivial

/-- Columns of integers hold what clients write, what is generated, and what arithmetic makes of that. -/
def computed (schema : Schema) : CellRule schema where
  cell _ f v := ∀ width, f.type = .integer width → f.Computed width v
  plain _ := True
  computes _ _ := True
  plainNull := trivial
  copied held width typed := by
    rw [((held width typed).number typed).copied]
    exact held width typed
  read _ _ _ _ _ := trivial
  written _ _ _ encoded width typed := .held (Field.encodedHolds typed encoded)
  entered _ _ encoded _ width typed := .held (Field.encodedHolds typed encoded)
  omitted _ _ _ _ _ _ := .held (.nothing rfl)
  generated _ _ isGenerated counts made width typed := by
    obtain ⟨n, positive, rfl, -⟩ := Store.generatedKey counts typed made
    exact .held (Field.keyHolds isGenerated positive)
  changed _ _ _ accepted held made width typed := .applied (held width typed) accepted made

/-- One column of integers holds integers of its width, and keys that were counted past them. -/
def ranged (schema : Schema) (entity : Entity) (field : Field) : CellRule schema where
  cell e f v := e = entity → f = field → ∀ width, f.type = .integer width → f.HoldsInteger width v
  plain _ := True
  computes e f := ¬ (e = entity ∧ f = field)
  plainNull := trivial
  copied held same own width typed := by
    rw [(held same own width typed).number.copied]
    exact held same own width typed
  read _ _ _ _ _ := trivial
  written _ _ _ encoded _ _ width typed := Field.encodedHolds typed encoded
  entered _ _ encoded _ _ _ width typed := Field.encodedHolds typed encoded
  omitted _ _ _ _ _ _ _ _ := .nothing rfl
  generated _ _ isGenerated counts made _ _ width typed := by
    obtain ⟨n, positive, rfl, -⟩ := Store.generatedKey counts typed made
    exact Field.keyHolds isGenerated positive
  changed _ _ apart _ _ _ same own := absurd ⟨same, own⟩ apart

end CellRule

def Request.Computes (r : Request) (e : Entity) (f : Field) : Prop :=
  ∃ operation operand, Usage.Carries e (.field e.name f.name (.arithmetic operation) operand) r

namespace Client

variable {client : Client Fetcher} {fetcher : Entity → Fetcher} {declared : Record EntityDeclaration} {e : Entity} {f : Field}

open Sample

/-- The client with any values, whatever its operations leave. -/
def anyUsage (client : Client Fetcher) : Usage := ⟨client, fun _ => True, fun _ _ => True⟩

/-- The client with any values, where the operations that apply arithmetic to a column of integers leave integers of its
width in it. -/
def fittingUsage (client : Client Fetcher) (e : Entity) (f : Field) : Usage :=
  ⟨client, fun _ => True, fun o t => o.entity = e → o.request.Computes e f → ∀ width, f.type = .integer width →
    e.Column f (f.HoldsInteger width) t.backend⟩

theorem servesAny (made : ofDeclarations fetcher declared = .ok client) (apart : client.schema.NamesApart)
    (rule : CellRule client.schema) (any : ∀ v, rule.plain v) : rule.Serves client.registry := by
  obtain ⟨compiled, same⟩ := ofDeclarationsOk made
  exact ⟨apart, Schema.compiledSound compiled, fun e mem => same ▸ mem, fun _ _ _ _ _ _ _ => any _⟩

theorem computedKept (made : ofDeclarations fetcher declared = .ok client) (apart : client.schema.NamesApart) :
    client.anyUsage.Keeps (CellRule.computed client.schema).Holds := by
  refine ⟨CellRule.Holds.same, CellRule.restoredHolds, fun {o h s} composes holds _ => ?_⟩
  have serves := servesAny made apart (CellRule.computed client.schema) fun _ => trivial
  refine Usage.executedHolds serves composes (fun _ {f v w} _ _ written width typed => ?_) (fun _ => trivial) h holds
  obtain ⟨x, encoded⟩ := Field.encodeNewEncodes written
  exact .held (Field.encodedHolds typed encoded)

theorem rangedKept (made : ofDeclarations fetcher declared = .ok client) (apart : client.schema.NamesApart)
    (mem : e ∈ client.schema.entities) (inside : f ∈ e.fields) : (client.fittingUsage e f).Keeps (CellRule.ranged client.schema e f).Holds := by
  refine ⟨CellRule.Holds.same, CellRule.restoredHolds, fun {o h s} composes holds leaves => ?_⟩
  by_cases computes : o.entity = e ∧ o.request.Computes e f
  -- with arithmetic on the column, only what the operation leaves there says what it holds
  · have free : (CellRule.free client.schema).Holds s.backend :=
      ⟨holds.columns, holds.counts, fun _ _ _ _ _ _ _ _ => trivial⟩
    have serves := servesAny made apart (CellRule.free client.schema) fun _ => trivial
    have ended := Usage.executedHolds serves composes (fun _ {_ _ _} _ _ _ => trivial) (fun _ => trivial) h free
    refine ⟨ended.columns, ended.counts, fun other among rows there row listed g own same fields width typed => ?_⟩
    subst same fields
    exact leaves computes.1 computes.2 width typed rows there row listed
  · have serves := servesAny made apart (CellRule.ranged client.schema e f) fun _ => trivial
    refine Usage.executedHolds serves composes (fun _ {g v w} _ _ written _ _ width typed => ?_) (fun {g operation operand} carried => ?_) h holds
    · obtain ⟨x, encoded⟩ := Field.encodeNewEncodes written
      exact Field.encodedHolds typed encoded
    · rintro ⟨here, rfl⟩
      exact computes ⟨here, operation, operand, here ▸ carried⟩

/-- Whatever the client does, a column of integers holds integers of its width alone. -/
def KeepsWidth (client : Client Fetcher) (e : Entity) (f : Field) (width : IntegerType) : Prop :=
  ∀ s, client.anyUsage.Reaches s →
    e.Column f (fun v => v.isNothing ∨ ∃ n, width.stored? v = some n ∧ width.holds n) s.backend

theorem passesWidth {width : IntegerType} {rows : List Row} {row : Row} (os : List Operation) (n : Int)
    (composes : ∀ o ∈ os, client.anyUsage.Composes o)
    (leaves : client.anyUsage.LeavesAll os (.start (Store.ofSchema client.schema)))
    (there : Record.get? ((Action.dispatchAll client.registry os).runOn (.start (Store.ofSchema client.schema))).2.backend.tables
      e.table = some rows) (mem : row ∈ rows) (held : width.stored? (Row.value row f.column) = some n)
    (past : width.holds n = false) : ¬ client.KeepsWidth e f width := by
  intro kept
  rcases kept _ (Usage.reachesAll composes leaves) rows there row mem with nothing | ⟨m, stored, within⟩
  · rcases IntegerType.storedCases held with ⟨-, same⟩ | ⟨-, x, same, -⟩
    all_goals
      rw [same] at nothing
      cases nothing
  · obtain rfl := Option.some.inj (stored.symm.trans held)
    exact absurd (past.symm.trans within) Bool.false_ne_true

end Client

end EntityQuery
