import EntityQuery.Json.Reader
import EntityQuery.Proofs.Results
import EntityQuery.Registry
import EntityQuery.Row
import EntityQuery.Store.Order
import EntityQuery.Store.Evaluation
/-! What tables hold that were filled by encoding: values in the form of their field's type, and no other
columns. Columns of JSON documents hold their text. -/

namespace EntityQuery

open Store (Tables)

theorem Record.memOfGet? {α : Type} {r : Record α} {name : String} {v : α} (h : r.get? name = some v) : (name, v) ∈ r := by
  induction r with
  | nil => cases h
  | cons pair rest ih =>
    obtain ⟨key, old⟩ := pair
    unfold get? at h
    split at h
    · rename_i own
      cases own
      cases h
      exact List.mem_cons_self
    · exact List.mem_cons_of_mem _ (ih h)

namespace ScalarType

/-- Has a value that is there the form in which a type is stored? Opaque types have no form of their own. -/
def isForm (type : ScalarType) (v : Value) : Bool :=
  match type, v with
  | .integer _, .number _ | .integer _, .integer _ => true
  | .float _, .number _ | .float _, .integer _ => true
  | .text, .text _ | .uuid, .text _ | .date, .text _ | .time, .text _ => true
  | .bool, .bool _ => true
  | .datetime, .date (some _) => true
  | .json, .text s => (Json.read? s).isSome
  | _, _ => false

end ScalarType

namespace Field

def Holds (f : Field) (v : Value) : Prop := v.isNothing ∨ f.type.isForm v

theorem encodeDayText {v w : Value} (h : encodeDay v = .ok w) : ∃ s, w = .text s := by
  cases v with
  | date instant =>
    obtain ⟨s, _, hw⟩ := Results.bindOk h
    cases hw
    exact ⟨_, rfl⟩
  | _ =>
    obtain ⟨s, _, hw⟩ := Results.bindOk h
    cases hw
    exact ⟨s, rfl⟩

/-- A value that is there is written in the form of its type. -/
theorem presentForm {f : Field} {v w : Value} (h : f.encodePresent v = .ok w) (notJson : f.type ≠ .json)
    (notOpaque : f.type ≠ .opaqueType) : f.type.isForm w := by
  unfold encodePresent at h
  cases type : f.type with
  | integer width =>
    simp only [type, encodeInteger] at h
    split at h
    · cases h
    · split at h
      · cases h
        unfold ofWidth
        split <;> rfl
      · cases h
  | float width =>
    simp only [type, encodeFloat] at h
    split at h
    · cases h
    · cases h
      rfl
  | text =>
    cases v with
    | text s =>
      simp only [type, Except.ok.injEq] at h
      rw [← h]
      rfl
    | _ => simp [type] at h
  | bool =>
    cases v with
    | bool b =>
      simp only [type, Except.ok.injEq] at h
      rw [← h]
      rfl
    | _ => simp [type] at h
  | datetime =>
    simp only [type, toDate] at h
    split at h
    · cases h
      rfl
    · cases h
  | date =>
    simp only [type] at h
    obtain ⟨s, rfl⟩ := encodeDayText h
    rfl
  | time =>
    simp only [type] at h
    obtain ⟨s, _, hw⟩ := Results.bindOk h
    cases hw
    rfl
  | uuid =>
    cases v with
    | text s =>
      simp only [type] at h
      split at h
      · cases h
        rfl
      · cases h
    | _ => simp [type] at h
  | json => exact absurd type notJson
  | opaqueType => exact absurd type notOpaque

theorem encodeHolds {f : Field} {v w : Value} (h : f.encode v = .ok w) (notJson : f.type ≠ .json)
    (notOpaque : f.type ≠ .opaqueType) : f.Holds w := by
  unfold encode at h
  split at h
  · split at h
    · cases h
      exact .inl rfl
    · cases h
  · exact .inr (presentForm h notJson notOpaque)

theorem comparableForm {type : ScalarType} {v : Value} (form : type.isForm v) : ∃ x, Store.comparable v = .ok x := by
  cases v with
  | date instant => cases instant <;> exact ⟨_, rfl⟩
  | bool _ | number _ | integer _ | text _ => exact ⟨_, rfl⟩
  | _ => cases type <;> cases form

end Field

/-- A row of an entity: only columns of its fields, each with a value in the form of every such field. -/
def Entity.IsRow (e : Entity) (row : Row) : Prop :=
  ∀ column v, Record.get? row column = some v →
    (∃ f ∈ e.fields, f.column = column) ∧ ∀ f ∈ e.fields, f.column = column → f.Holds v

theorem Entity.isRowOfPairs {e : Entity} {row : Row}
    (h : ∀ column v, (column, v) ∈ row →
      (∃ f ∈ e.fields, f.column = column) ∧ ∀ f ∈ e.fields, f.column = column → f.Holds v) : e.IsRow row :=
  fun column v found => h column v (Record.memOfGet? found)

namespace Entity

theorem valueCases (row : Row) (column : String) :
    (∃ v, Record.get? row column = some v ∧ Row.value row column = v) ∨
      Row.value row column = Value.inherited column := by
  unfold Row.value
  cases Record.get? row column with
  | none => exact .inr rfl
  | some v => exact .inl ⟨v, rfl, rfl⟩

theorem comparableInherited (name : String) : ∃ x, Store.comparable (Value.inherited name) = .ok x := by
  unfold Value.inherited
  split
  · exact ⟨_, rfl⟩
  · split
    · exact ⟨_, rfl⟩
    · exact ⟨_, rfl⟩

theorem comparableValue {e : Entity} {row : Row} (isRow : e.IsRow row) (column : String) :
    ∃ x, Store.comparable (Row.value row column) = .ok x := by
  rcases valueCases row column with ⟨v, found, eq⟩ | eq
  · obtain ⟨⟨f, mem, own⟩, holds⟩ := isRow column v found
    rw [eq]
    rcases holds f mem own with nothing | form
    · cases v with
      | absent | null => exact ⟨_, rfl⟩
      | _ => cases nothing
    · exact Field.comparableForm form
  · rw [eq]
    exact comparableInherited column

/-- A column of JSON documents reads as one, or as none. -/
theorem documentValue {e : Entity} {f : Field} {row : Row} (isRow : e.IsRow row) (mem : f ∈ e.fields)
    (json : f.type = .json) : ∃ j, Store.documentOf (Row.value row f.column) = .ok j := by
  rcases valueCases row f.column with ⟨v, found, eq⟩ | eq
  · obtain ⟨-, holds⟩ := isRow f.column v found
    rw [eq]
    rcases holds f mem rfl with nothing | form
    · cases v with
      | absent | null => exact ⟨_, rfl⟩
      | _ => cases nothing
    · rw [json] at form
      cases v with
      | text s =>
        obtain ⟨j, read⟩ := Option.isSome_iff_exists.mp form
        exact ⟨some j, by simp [Store.documentOf, read]⟩
      | _ => cases form
  · rw [eq]
    unfold Value.inherited
    split
    · exact ⟨_, rfl⟩
    · split
      · exact ⟨_, rfl⟩
      · exact ⟨_, rfl⟩

end Entity

/-- Every entity of a registry has its table, and its rows are rows of the entity. -/
def Registry.Describes {φ : Type} (registry : Registry φ) (tables : Tables) : Prop :=
  ∀ e ∈ registry.entities, ∃ rows, Store.tableRows tables e.table = .ok rows ∧ ∀ row ∈ rows, e.IsRow row

namespace Registry

variable {φ : Type} {registry : Registry φ}

theorem memOfGet {name : String} {e : Entity} (h : registry.get? name = some e) : e ∈ registry.entities := by
  unfold get? at h
  split at h
  · cases h
  · simp only [Option.orElse_eq_orElse, Option.orElse_eq_or, Option.or_eq_some_iff] at h
    rcases h with (h | ⟨-, h⟩)
    · exact List.mem_of_find?_eq_some h
    · rcases h with (h | ⟨-, h⟩)
      · exact List.mem_of_find?_eq_some h
      · rcases h with (h | ⟨-, h⟩)
        · exact List.mem_of_find?_eq_some h
        · exact List.mem_of_find?_eq_some h

end Registry

end EntityQuery
