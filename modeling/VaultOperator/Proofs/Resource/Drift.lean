import VaultOperator.Database.Object
import VaultOperator.Ldap.Object
import VaultOperator.Mount.Object
import VaultOperator.Policy.Object
import VaultOperator.Proofs.Json.Floatless
import VaultOperator.Proofs.Resource.Equivalence

/-!
# Drift

A configuration has drifted if something that it desires, and that Vault shows, is not observed with
the desired value. For objects that say all that is to be compared (`ComparesDesired`) the
comparison tells just that (`ComparesDesired.exists_same`); policies, mounts, database connections
and configurations of LDAP are such objects.
-/

namespace VaultOperator

open Comparison (Shows)

namespace Comparison

variable {desired observed : Payload} {redacted : List String} {c : Comparison}

theorem holds_iff (hvalue : value.IsFloatless) :
    holds observed key value ↔ observed.get? key = some value := by
  constructor
  · intro h
    unfold holds at h
    split at h
    · next found hfound => rw [hfound, Json.eq_of_same hvalue h]
    · cases h
  · exact holds_of_get?

/-- A desired value under the key is compared. -/
def Covers : Comparison → String → Prop
  | .keys listed, key => key ∈ listed
  | _, _ => True

theorem holds_of_isEquivalent (hc : c ≠ .exact) (hcovers : c.Covers key)
    (hvalue : (redact desired redacted).get? key = some value)
    (h : isEquivalent desired observed redacted c) :
    holds (redact observed redacted) key value := by
  cases c with
  | exact => exact absurd rfl hc
  | desiredKeys => exact List.all_eq_true.1 h _ (Dict.mem_of_lookup hvalue)
  | keys listed =>
    have hkey := List.all_eq_true.1 h key hcovers
    rwa [hvalue] at hkey

theorem isEquivalent_iff (hc : c ≠ .exact)
    (hcovers : ∀ key value, desired.get? key = some value → c.Covers key)
    (hfloatless : desired.IsFloatless) :
    isEquivalent desired observed redacted c ↔ Shows redacted desired observed := by
  constructor
  · intro h key value hkey hvalue
    have hcontains : ¬ redacted.contains key := by simpa using hkey
    have hkept : (redact desired redacted).get? key = some value := by
      rwa [get?_redact, if_neg hcontains]
    have hholds := holds_of_isEquivalent hc (hcovers key value hvalue) hkept h
    rw [holds_iff (hfloatless key value hvalue), get?_redact, if_neg hcontains] at hholds
    exact hholds
  · intro h
    cases c with
    | exact => exact absurd rfl hc
    | desiredKeys => exact isEquivalent_desiredKeys h
    | keys listed => exact isEquivalent_keys fun key _ => h key

end Comparison

namespace VaultObject

/-- All that is desired is compared, and an update writes all of it. -/
structure ComparesDesired (o : VaultObject) : Prop where
  isEquivalent : o.isEquivalent = fun v observed =>
    pure (o.comparison.isEquivalent (o.desired v) (o.normalize observed) o.redactedKeys)
  not_exact : o.comparison ≠ .exact
  covers : ∀ v key value, (o.desired v).get? key = some value → o.comparison.Covers key
  isFloatless : ∀ v, (o.desired v).IsFloatless
  prepareWrite : o.prepareWrite = fun _ v => pure v
  updates : ∀ v, (o.updateRequest v).body = o.desired v

/-- Something that is desired, and that Vault shows, is missing or has another value. -/
def Drifted (o : VaultObject) (v : InternalValues) (observed : Payload) : Prop :=
  ∃ key value, key ∉ o.redactedKeys ∧ (o.desired v).get? key = some value ∧
    (o.normalize observed).get? key ≠ some value

variable {o : VaultObject} {v : InternalValues} {observed observed' : Payload}

theorem not_drifted_iff :
    ¬ o.Drifted v observed ↔ Shows o.redactedKeys (o.desired v) (o.normalize observed) := by
  simp only [Drifted, Comparison.Shows, Comparison.Observes, not_exists, not_and, ne_eq,
    Classical.not_not]

theorem ComparesDesired.exists_same (h : o.ComparesDesired) (v : InternalValues)
    (observed : Payload) :
    ∃ same : Bool, o.isEquivalent v observed = pure same ∧ (same ↔ ¬ o.Drifted v observed) := by
  refine ⟨_, congrFun (congrFun h.isEquivalent v) observed, ?_⟩
  rw [not_drifted_iff]
  exact Comparison.isEquivalent_iff h.not_exact (h.covers v) (h.isFloatless v)

/-- Two payloads that are alike where something is desired have drifted or not together. -/
theorem drifted_congr
    (h : ∀ key, ((o.desired v).get? key).isSome →
      (o.normalize observed).get? key = (o.normalize observed').get? key) :
    o.Drifted v observed ↔ o.Drifted v observed' := by
  refine exists_congr fun key => exists_congr fun value => and_congr_right fun _ =>
    and_congr_right fun hvalue => ?_
  rw [h key (by simp [hvalue])]

end VaultObject

-- ---------------------------------------------------------------------------
-- Kinds
-- ---------------------------------------------------------------------------

theorem Policy.comparesDesired (p : Policy) : p.toVaultObject.ComparesDesired where
  isEquivalent := rfl
  not_exact := nofun
  covers v key value h := by
    have hdesired : ((∅ : Payload).insert bodyKey _).get? key = some value := h
    rw [Dict.get?_insert] at hdesired
    split at hdesired
    · next hkey => exact List.mem_singleton.2 hkey.symm
    · cases hdesired
  isFloatless v := Dict.isFloatless_insert Dict.isFloatless_empty (Json.isFloatless_str _)
  prepareWrite := rfl
  updates v := rfl

namespace Mount

theorem isFloatless_ttlValue (ttl : String) : (ttlValue ttl).IsFloatless := by
  unfold ttlValue
  split <;> simp

theorem Tuning.isFloatless (t : Tuning) :
    ∀ e ∈ t.payloadFields, ∀ value ∈ e.2, value.IsFloatless := by
  have htexts (l : List String) : ∀ value ∈ Json.texts? l, value.IsFloatless :=
    fun _ => Json.isFloatless_of_texts?
  have hmap {α : Type} (f : α → Json) (hf : ∀ a, (f a).IsFloatless) (entry : Option α) :
      ∀ value ∈ entry.map f, value.IsFloatless := by
    cases entry <;> simp [hf]
  simp only [payloadFields, List.forall_mem_cons, List.not_mem_nil, false_imp_iff, implies_true,
    and_true]
  exact ⟨hmap _ isFloatless_ttlValue _, hmap _ isFloatless_ttlValue _,
    hmap _ Json.isFloatless_bool _, htexts _, htexts _, hmap _ Json.isFloatless_str _, htexts _,
    htexts _⟩

namespace Definition

variable {d : Definition}

theorem isFloatless_tunePayload (d : Definition) : d.tunePayload.IsFloatless := by
  have hoptions : ∀ value ∈ d.optionsValue?, value.IsFloatless := by
    intro value h
    unfold optionsValue? at h
    split at h
    · cases h
    · cases h
      exact Json.isFloatless_ofDict_str d.options
  refine Dict.isFloatless_ofFields (List.forall_mem_append.2 ⟨d.config.isFloatless, ?_⟩)
  simpa using hoptions

/-- Whatever a tuning is made of can be tuned. -/
theorem mem_tunableKeys_of_tunePayload (h : d.tunePayload.get? key = some value) :
    key ∈ tunableKeys := by
  have hmem := List.mem_map_of_mem (f := (·.1)) (Dict.mem_of_get?_ofFields h)
  have hkeys : ∀ key ∈ ["default_lease_ttl", "max_lease_ttl", "force_no_cache",
      "audit_non_hmac_request_keys", "audit_non_hmac_response_keys", "listing_visibility",
      "passthrough_request_headers", "allowed_response_headers", "description", "options"],
      key ∈ tunableKeys := by
    decide
  exact hkeys key hmem

theorem comparesDesired (d : Definition) :
    (d.toVaultObject table metadata access body).ComparesDesired where
  isEquivalent := rfl
  not_exact := nofun
  covers _ _ _ := mem_tunableKeys_of_tunePayload
  isFloatless _ := d.isFloatless_tunePayload
  prepareWrite := rfl
  updates _ := rfl

end Definition

end Mount

theorem Database.isFloatless_payload (d : Database) (v : InternalValues) :
    (payload d v).IsFloatless := by
  refine Dict.isFloatless_ofFields ?_
  simpa using ⟨fun _ => Json.isFloatless_of_texts?, fun _ => Json.isFloatless_of_texts?⟩

theorem Database.comparesDesired (d : Database) : (toVaultObject d).ComparesDesired where
  isEquivalent := rfl
  not_exact := nofun
  covers _ _ _ _ := trivial
  isFloatless := isFloatless_payload d
  prepareWrite := rfl
  updates _ := rfl

theorem Ldap.isFloatless_payload (l : Ldap) (v : InternalValues) :
    (payload l v).IsFloatless := by
  refine Dict.isFloatless_ofFields ?_
  simp

theorem Ldap.comparesDesired (l : Ldap) : (toVaultObject l).ComparesDesired where
  isEquivalent := rfl
  not_exact := nofun
  covers _ _ _ _ := trivial
  isFloatless := isFloatless_payload l
  prepareWrite := rfl
  updates _ := rfl

end VaultOperator
