import VaultOperator.Json.Basic
import VaultOperator.Proofs.Json.Dict

/-!
# Values without doubles

Two values may be equal as JSON values without being the same only if there are doubles in them, of
which the two zeros are equal (`eq_of_same`). What is declared holds no doubles.
-/

namespace VaultOperator

namespace Json

mutual

/-- No double occurs in the value. -/
def IsFloatless : Json → Prop
  | .float _ => False
  | .arr items => ItemsFloatless items
  | .obj fields => FieldsFloatless fields
  | _ => True

def ItemsFloatless : List Json → Prop
  | [] => True
  | item :: items => item.IsFloatless ∧ ItemsFloatless items

def FieldsFloatless : List (String × Json) → Prop
  | [] => True
  | (_, value) :: fields => value.IsFloatless ∧ FieldsFloatless fields

end

@[simp] theorem isFloatless_null : IsFloatless .null := by simp [IsFloatless]
@[simp] theorem isFloatless_bool (b : Bool) : IsFloatless (.bool b) := by simp [IsFloatless]
@[simp] theorem isFloatless_int (i : Int) : IsFloatless (.int i) := by simp [IsFloatless]
@[simp] theorem isFloatless_str (s : String) : IsFloatless (.str s) := by simp [IsFloatless]

theorem itemsFloatless_iff {items : List Json} :
    ItemsFloatless items ↔ ∀ item ∈ items, item.IsFloatless := by
  induction items with
  | nil => simp [ItemsFloatless]
  | cons item items ih => simp [ItemsFloatless, ih]

theorem fieldsFloatless_iff {fields : List (String × Json)} :
    FieldsFloatless fields ↔ ∀ e ∈ fields, e.2.IsFloatless := by
  induction fields with
  | nil => simp [FieldsFloatless]
  | cons e fields ih => simp [FieldsFloatless, ih]

@[simp] theorem isFloatless_arr {items : List Json} :
    IsFloatless (.arr items) ↔ ∀ item ∈ items, item.IsFloatless := by
  rw [IsFloatless, itemsFloatless_iff]

@[simp] theorem isFloatless_obj {fields : List (String × Json)} :
    IsFloatless (.obj fields) ↔ ∀ e ∈ fields, e.2.IsFloatless := by
  rw [IsFloatless, fieldsFloatless_iff]

mutual

theorem eq_of_same : ∀ {a b : Json}, b.IsFloatless → a.same b → a = b
  | .null, .null, _, _ => rfl
  | .bool _, .bool _, _, h => by simpa [same] using h
  | .int _, .int _, _, h => by simpa [same] using h
  | .str _, .str _, _, h => by simpa [same] using h
  | .arr items, .arr items', hfloatless, h => by
    rw [IsFloatless] at hfloatless
    rw [same] at h
    rw [eq_of_sameItems hfloatless h]
  | .obj fields, .obj fields', hfloatless, h => by
    rw [IsFloatless] at hfloatless
    rw [same] at h
    rw [eq_of_sameFields hfloatless h]
  | _, .float _, hfloatless, _ => by simp [IsFloatless] at hfloatless

theorem eq_of_sameItems : ∀ {items items' : List Json}, ItemsFloatless items' →
    sameItems items items' → items = items'
  | [], [], _, _ => rfl
  | item :: items, item' :: items', hfloatless, h => by
    obtain ⟨hitem, hitems⟩ := hfloatless
    rw [sameItems, Bool.and_eq_true] at h
    rw [eq_of_same hitem h.1, eq_of_sameItems hitems h.2]

theorem eq_of_sameFields : ∀ {fields fields' : List (String × Json)}, FieldsFloatless fields' →
    sameFields fields fields' → fields = fields'
  | [], [], _, _ => rfl
  | (key, value) :: fields, (key', value') :: fields', hfloatless, h => by
    obtain ⟨hvalue, hfields⟩ := hfloatless
    rw [sameFields, Bool.and_eq_true, Bool.and_eq_true, beq_iff_eq] at h
    obtain ⟨⟨rfl, hsame⟩, hrest⟩ := h
    rw [eq_of_same hvalue hsame, eq_of_sameFields hfields hrest]

end

end Json

namespace Dict

theorem mem_of_lookup {l : List (String × α)} (h : lookup key l = some value) :
    (key, value) ∈ l := by
  induction l with
  | nil => cases h
  | cons e l ih =>
    rw [lookup] at h
    split at h
    · next hkey =>
      obtain ⟨rfl⟩ := h
      simp [← hkey]
    · exact List.mem_cons_of_mem _ (ih h)

theorem mem_of_get?_ofFields {fields : List (String × Option Json)}
    (h : (ofFields fields).get? key = some value) : (key, some value) ∈ fields := by
  rw [ofFields, get?_ofList] at h
  have hmem := List.mem_reverse.1 (mem_of_lookup h)
  obtain ⟨⟨key', value'⟩, hfield, hsome⟩ := List.mem_filterMap.1 hmem
  cases value' with
  | none => cases hsome
  | some value' =>
    obtain ⟨rfl, rfl⟩ := Prod.mk.inj (Option.some.inj hsome)
    exact hfield

/-- No double occurs in the payload. -/
def IsFloatless (p : Payload) : Prop :=
  ∀ key value, p.get? key = some value → value.IsFloatless

theorem isFloatless_ofFields {fields : List (String × Option Json)}
    (h : ∀ e ∈ fields, ∀ value ∈ e.2, value.IsFloatless) : IsFloatless (ofFields fields) := by
  intro key value hvalue
  exact h _ (mem_of_get?_ofFields hvalue) value rfl

theorem isFloatless_insert {p : Payload} (hp : IsFloatless p) (hvalue : value.IsFloatless) :
    IsFloatless (p.insert key value) := by
  intro key' value' h
  rw [get?_insert] at h
  split at h
  · cases h
    exact hvalue
  · exact hp _ _ h

theorem isFloatless_empty : IsFloatless ∅ := by
  intro key value h
  cases h

end Dict

namespace Json

theorem isFloatless_ofStrings (l : List String) : (ofStrings l).IsFloatless := by
  simp [ofStrings]

theorem isFloatless_of_texts? {l : List String} (h : value ∈ texts? l) : value.IsFloatless := by
  unfold texts? at h
  split at h
  · cases h
  · cases h
    exact isFloatless_ofStrings l

theorem isFloatless_ofDict_str (d : Dict String) : (ofDict (d.map .str)).IsFloatless := by
  simp only [ofDict, Dict.map, isFloatless_obj, List.forall_mem_map, isFloatless_str, implies_true]

end Json

end VaultOperator
