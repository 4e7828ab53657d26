import VaultOperator.Json.MergePatch
import VaultOperator.Proofs.Json.Dict

/-!
# What a merge patch leaves

A field of a patched object is the field of the patch merged into what was there, and what it was
where the patch does not name it (`get?_mergePatch_record`).
-/

namespace VaultOperator.Json

/-- What becomes of a field that a patch names: null removes it. -/
def mergedField (old : Option Json) : Json → Option Json
  | .null => none
  | value => some (mergePatch (old.getD .null) value)

theorem get?_mergeFields {l : List (String × Json)} (h : (l.map (·.1)).Nodup) (d : Dict Json)
    (key : String) :
    (mergeFields d l).get? key =
      match Dict.lookup key l with
      | none => d.get? key
      | some value => mergedField (d.get? key) value := by
  induction l generalizing d with
  | nil => simp [mergeFields, Dict.lookup]
  | cons e l ih =>
    obtain ⟨he, hl⟩ := List.nodup_cons.1 h
    obtain ⟨name, value⟩ := e
    -- a later entry cannot be about the same field
    have hlater (hkey : name = key) : Dict.lookup key l = none :=
      Dict.lookup_eq_none_iff.2 (hkey ▸ he)
    cases value with
    | null =>
      rw [mergeFields, ih hl, Dict.get?_erase, Dict.lookup]
      by_cases hkey : name = key
      · simp [hkey, hlater hkey, mergedField]
      · simp [hkey]
    | _ =>
      rw [mergeFields, ih hl, Dict.get?_insert, Dict.lookup]
      · by_cases hkey : name = key
        · simp [hkey, hlater hkey, mergedField]
        · simp [hkey]
      · simp

@[simp] theorem fields?_ofDict (d : Dict Json) : (ofDict d).fields? = some d := by
  simp [ofDict, fields?]

@[simp] theorem get?_ofDict (d : Dict Json) (key : String) : (ofDict d).get? key = d.get? key := by
  simp [get?]

theorem get?_fields (target : Json) (key : String) :
    (target.fields?.getD ∅).get? key = target.get? key := by
  unfold get?
  cases target.fields? <;> rfl

theorem get?_mergePatch_record {l : List (String × Json)} (h : (l.map (·.1)).Nodup)
    (target : Json) (key : String) :
    (target.mergePatch (record l)).get? key =
      match Dict.lookup key l with
      | none => target.get? key
      | some value => mergedField (target.get? key) value := by
  rw [record, ofDict, mergePatch, get?_ofDict, get?_mergeFields (Dict.nodup_keys _), get?_fields,
    ← Dict.get?_ofList_of_nodup h]
  rfl

/-- A patch with named fields leaves an object. -/
theorem exists_mergePatch_record {l : List (String × Json)} (h : (l.map (·.1)).Nodup)
    (target : Json) :
    ∃ fields, target.mergePatch (record l) = ofDict fields ∧
      ∀ key, fields.get? key =
        match Dict.lookup key l with
        | none => target.get? key
        | some value => mergedField (target.get? key) value := by
  have hobject : ∃ fields, target.mergePatch (record l) = ofDict fields := by
    rw [record, ofDict, mergePatch]
    exact ⟨_, rfl⟩
  obtain ⟨fields, hfields⟩ := hobject
  refine ⟨fields, hfields, fun key => ?_⟩
  rw [← get?_ofDict, ← hfields, get?_mergePatch_record h]

end VaultOperator.Json
