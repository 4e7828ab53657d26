import VaultOperator.Proofs.Json.MergePatch
import VaultOperator.Proofs.Json.Reader

/-!
# Reading what was patched

A written value survives when it is read back from every value it is merged into (`Survives`). A
field that is written then reads as what was written, and one that is removed as nothing
(`readField_ofOption`), whatever stood there.
-/

namespace VaultOperator.Json

/-- What is written of a value is read as that value, whatever it is merged into. -/
structure Survives (read : Json → Option α) (a : α) (written : Json) : Prop where
  ne_null : written ≠ .null
  reads : ∀ old : Json, read (old.mergePatch written) = some a

theorem mergePatch_ne_null {written : Json} (h : written ≠ .null) (old : Json) :
    old.mergePatch written ≠ .null := by
  cases written with
  | null => exact absurd rfl h
  | _ => simp [mergePatch, ofDict]

theorem nullable_of_ne_null {read : Json → Option α} {j : Json} (h : j ≠ .null) :
    nullable read j = (read j).map some := by
  cases j with
  | null => exact absurd rfl h
  | _ => rfl

theorem mergedField_of_ne_null {written : Json} (h : written ≠ .null) (old : Option Json) :
    mergedField old written = some ((old.getD .null).mergePatch written) := by
  cases written with
  | null => exact absurd rfl h
  | _ => rfl

variable {read : Json → Option α} {a : α}

theorem Survives.readField (h : Survives read a written) (missing : Option α)
    (old : Option Json) : readField missing read (mergedField old written) = some a := by
  rw [mergedField_of_ne_null h.ne_null]
  exact h.reads _

theorem Survives.nullable (h : Survives read a written) :
    Survives (nullable read) (some a) written := by
  refine ⟨h.ne_null, fun old => ?_⟩
  rw [nullable_of_ne_null (mergePatch_ne_null h.ne_null old), h.reads]
  rfl

theorem readField_ofOption {write : α → Json} {value : Option α}
    (h : ∀ a, value = some a → Survives read a (write a)) (old : Option Json) :
    readField (some none) (nullable read) (mergedField old (ofOption write value)) =
      some value := by
  cases value with
  | none => rfl
  | some a => exact (h a rfl).nullable.readField _ old

-- ---------------------------------------------------------------------------
-- Values of each kind
-- ---------------------------------------------------------------------------

theorem survives_str (s : String) : Survives str? s (.str s) :=
  ⟨nofun, fun old => by simp [mergePatch, str?]⟩

theorem survives_name {ofName? : String → Option α} (h : ofName? name = some a) :
    Survives (oneOf ofName?) a (.str name) :=
  ⟨nofun, fun old => by simp [mergePatch, oneOf, h]⟩

theorem survives_int (h : signed? bits (.int i) = some i) : Survives (signed? bits) i (.int i) :=
  ⟨nofun, fun old => by simp [mergePatch, h]⟩

/-- A list is replaced as a whole, so its items need only be read as they were written. -/
theorem survives_list {write : α → Json} (h : ∀ a, read (write a) = some a) (l : List α) :
    Survives (listOf read) l (.arr (l.map write)) := by
  refine ⟨nofun, fun old => ?_⟩
  rw [mergePatch, listOf]
  · induction l with
    | nil => rfl
    | cons a l ih => simp [h a, ih]
  · simp

theorem signed?_int (h : signed? bits j = some i) : signed? bits (.int i) = some i := by
  simp only [signed?, Option.filter_eq_some_iff] at h ⊢
  exact ⟨rfl, h.2⟩

theorem eq_of_signed? (h : signed? bits (.int i) = some j) : j = i := by
  simp only [signed?, Option.filter_eq_some_iff] at h
  exact (Option.some.inj h.1).symm

-- ---------------------------------------------------------------------------
-- Where a value that was read comes from
-- ---------------------------------------------------------------------------

/-- What is read of a field is read of some value, unless the field is missing. -/
theorem field_reads {missing : Option α} {fields rest : Fields}
    (h : field name missing read fields = some (a, rest)) :
    missing = some a ∨ ∃ value, read value = some a := by
  unfold field at h
  split at h
  · split at h
    · obtain ⟨_, hmissing, heq⟩ := Option.map_eq_some_iff.1 h
      cases heq
      exact .inl hmissing
    · obtain ⟨_, hread, heq⟩ := Option.map_eq_some_iff.1 h
      cases heq
      exact .inr ⟨_, hread⟩
  · obtain ⟨_, hmissing, heq⟩ := Option.map_eq_some_iff.1 h
    cases heq
    exact .inl hmissing
  · obtain ⟨_, hread, heq⟩ := Option.map_eq_some_iff.1 h
    cases heq
    exact .inr ⟨_, hread⟩

theorem optional_reads {fields rest : Fields}
    (h : optional name read fields = some (some a, rest)) : ∃ value, read value = some a := by
  rcases field_reads h with hmissing | ⟨value, hread⟩
  · cases hmissing
  · cases value with
    | null => cases hread
    | _ =>
      obtain ⟨_, hread, heq⟩ := Option.map_eq_some_iff.1 hread
      cases heq
      exact ⟨_, hread⟩

end VaultOperator.Json
