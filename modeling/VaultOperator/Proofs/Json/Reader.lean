import VaultOperator.Json.Reader
import VaultOperator.Proofs.Json.Dict

/-!
# Reading fields of objects

A reader of named fields leaves them as they are, so what is read of each field is told by the
field alone.
-/

namespace VaultOperator.Json

theorem structure?_ofDict (reader : Reader α) (fields : Dict Json) :
    structure? reader (ofDict fields) = (reader (.named fields)).map (·.1) := by
  simp [structure?, ofDict]

/-- What a field that may be missing is read as. -/
def readField (missing : Option α) (read : Json → Option α) : Option Json → Option α
  | none => missing
  | some value => read value

variable {name : String} {missing : Option α} {read : Json → Option α}

theorem field_named (fields : Dict Json) :
    field name missing read (.named fields) =
      (readField missing read (fields.get? name)).map (·, .named fields) := by
  rw [field]
  cases fields.get? name <;> rfl

theorem field_eq_some {fields : Dict Json} :
    field name missing read (.named fields) = some (a, rest) ↔
      readField missing read (fields.get? name) = some a ∧ rest = .named fields := by
  rw [field_named]
  cases readField missing read (fields.get? name) <;> simp [eq_comm]

theorem reader_bind_eq_some {x : Reader α} {f : α → Reader β} {fields : Fields} :
    (x >>= f) fields = some r ↔ ∃ a rest, x fields = some (a, rest) ∧ f a rest = some r := by
  show (x fields).bind (fun r => f r.1 r.2) = some r ↔ _
  simp [Option.bind_eq_some_iff]

theorem field_bind_eq_some {f : α → Reader β} {fields : Dict Json} :
    (field name missing read >>= f) (.named fields) = some r ↔
      ∃ a, readField missing read (fields.get? name) = some a ∧ f a (.named fields) = some r := by
  simp only [reader_bind_eq_some, field_eq_some]
  constructor
  · rintro ⟨a, _, ⟨hread, rfl⟩, hrest⟩; exact ⟨a, hread, hrest⟩
  · rintro ⟨a, hread, hrest⟩; exact ⟨a, _, ⟨hread, rfl⟩, hrest⟩

/-- A field that may be missing is read as if null were not there. -/
theorem bind_of_optional {read : Json → Option α} (hnull : read .null = none)
    (h : readField (some none) (nullable read) value? = some a) : value?.bind read = a := by
  cases value? with
  | none =>
    cases h
    rfl
  | some value =>
    cases value with
    | null =>
      cases h
      exact hnull
    | _ =>
      simp only [readField, nullable, Option.map_eq_some_iff] at h
      obtain ⟨a, hread, rfl⟩ := h
      exact hread

/-- A reader that takes fields by their names leaves all of them. -/
def LeavesNamed (x : Reader α) : Prop :=
  ∀ fields a rest, x (.named fields) = some (a, rest) → rest = .named fields

theorem leavesNamed_field : LeavesNamed (field name missing read) := fun _ _ _ h =>
  (field_eq_some.1 h).2

theorem leavesNamed_pure : LeavesNamed (pure a) := by
  intro fields b rest h
  cases h
  rfl

theorem LeavesNamed.bind {x : Reader α} {f : α → Reader β} (hx : LeavesNamed x)
    (hf : ∀ a, LeavesNamed (f a)) : LeavesNamed (x >>= f) := by
  intro fields b rest h
  obtain ⟨a, rest', ha, hb⟩ := reader_bind_eq_some.1 h
  obtain rfl := hx _ _ _ ha
  exact hf _ _ _ _ hb

end VaultOperator.Json
