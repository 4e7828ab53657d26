import VaultOperator.Proofs.Json.Dict
import VaultOperator.Vault.Session

/-!
# The versions of the key/value engine

What Vault shows of a secret is told by its shape: the second version of the engine shows the values
as `data` beside their `metadata`, and the first one shows nothing but the values (`Unwraps`).
-/

namespace VaultOperator.Vault

variable {shown values p : Payload}

/-- What is shown looks like a secret of the second version of the engine. -/
def IsWrapped (p : Payload) : Prop :=
  (∃ fields, p.get? "data" = some (.obj fields)) ∧ ∃ fields, p.get? "metadata" = some (.obj fields)

/-- The values of the secret that is shown. -/
inductive Unwraps (shown : Payload) : Payload → Prop
  | wrapped (hdata : shown.get? "data" = some (.obj data))
    (hmetadata : shown.get? "metadata" = some (.obj metadata)) : Unwraps shown (Dict.ofList data)
  | plain (hplain : ¬ IsWrapped shown) : Unwraps shown shown

theorem unwrapKv_eq_iff : unwrapKv shown = values ↔ Unwraps shown values := by
  constructor
  · rintro rfl
    unfold unwrapKv
    split
    · next hdata hmetadata => exact .wrapped hdata hmetadata
    · next hother =>
      exact .plain fun ⟨⟨data, hdata⟩, metadata, hmetadata⟩ =>
        hother data metadata hdata hmetadata
  · intro h
    unfold unwrapKv
    cases h with
    | wrapped hdata hmetadata => rw [hdata, hmetadata]
    | plain hplain =>
      split
      · next hdata hmetadata => exact absurd ⟨⟨_, hdata⟩, _, hmetadata⟩ hplain
      · rfl

theorem unwraps_unwrapKv (shown : Payload) : Unwraps shown (unwrapKv shown) :=
  unwrapKv_eq_iff.1 rfl

theorem Unwraps.unique {values' : Payload} (h : Unwraps shown values) (h' : Unwraps shown values') :
    values = values' :=
  (unwrapKv_eq_iff.2 h).symm.trans (unwrapKv_eq_iff.2 h')

theorem get?_wrapKv (p : Payload) : (wrapKv p).get? "data" = some (.obj p.entries) := by
  rw [wrapKv, Dict.get?_insert, if_pos rfl]
  rfl

/-- A secret that is shown as it was given to the second version of the engine. -/
theorem unwraps_of_shown (hdata : shown.get? "data" = (wrapKv p).get? "data")
    (hmetadata : shown.get? "metadata" = some (.obj metadata)) : Unwraps shown p := by
  have hunwraps := Unwraps.wrapped (hdata.trans (get?_wrapKv p)) hmetadata
  rwa [Dict.ofList_entries p] at hunwraps

end VaultOperator.Vault
