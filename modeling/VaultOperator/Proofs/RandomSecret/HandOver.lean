import VaultOperator.Proofs.Credential.Resolution
import VaultOperator.Proofs.RandomSecret.Standing

/-!
# Generated secrets are handed over

Whatever a key/value engine keeps of a generated secret is shown under the key that it was written
under, in either version of the engine (`Keeps.unwraps`). So the object itself finds its value
again, and who refers to the object is given that value (`hand_over`).
-/

namespace VaultOperator.RandomSecret

open Credential (Answers Reference Resolves resolve)

/-- What was written is kept: as it is, or in the second version of the engine as data beside its
metadata. -/
def Keeps (r : RandomSecret) (w : Answers) (request : WriteRequest) (found : Payload) : Prop :=
  w.vault request.path = .ok (some found) ∧
    if r.spec.kvV2 then
      found.get? "data" = request.body.get? "data" ∧
        ∃ fields, found.get? "metadata" = some (.obj fields)
    else found = request.body

section
variable {r : RandomSecret} {w : Answers} {value : String}

/-- A text is not taken for a wrapped secret, whatever its key. -/
theorem not_isWrapped_payload (h : v.generated = some value) :
    ¬ Vault.IsWrapped (payload r v) := by
  rintro ⟨⟨fields, hdata⟩, -⟩
  rw [payload, h] at hdata
  have hdata : ((∅ : Payload).insert r.spec.secretKey (.str value)).get? "data" =
    some (.obj fields) := hdata
  rw [Dict.get?_insert] at hdata
  split at hdata
  · cases hdata
  · cases hdata

theorem Keeps.unwraps (hvalue : v.generated = some value)
    (h : r.Keeps w (createRequest r v) found) : Vault.Unwraps found (payload r v) := by
  obtain ⟨-, hshown⟩ := h
  unfold createRequest at hshown
  split at hshown
  · obtain ⟨hdata, fields, hmetadata⟩ := hshown
    exact Vault.unwraps_of_shown hdata hmetadata
  · rw [hshown]
    exact .plain (not_isWrapped_payload hvalue)

theorem Keeps.isPresent (hne : value ≠ "") (hvalue : v.generated = some value)
    (h : r.Keeps w (createRequest r v) found) : isPresent r found :=
  isPresent_iff.2 ⟨_, value, h.unwraps hvalue, get?_payload hvalue, hne⟩

/-- A reference to the object, with an identity and no key of its own, is specified to resolve to
the value that is kept. -/
theorem Keeps.resolves {reference : Reference} (hvalue : v.generated = some value)
    (hkept : r.Keeps w (createRequest r v) found)
    (hrandom : w.randomSecret ns name = .ok (some r))
    (hone : reference.NamesOnly (.generatedSecret name)) (hkey : reference.passwordKey = none)
    (hidentity : identity ≠ "") :
    Resolves w ns session reference (some identity) defaults
      [.cluster (.getRandomSecret ns name), .vault (.read session (createRequest r v).path)]
      (.ok (some ⟨identity, value⟩)) := by
  have hread : w.vault r.readPath = .ok (some found) := hkept.1
  refine .named (x := .ok ⟨identity, value⟩) hone ?_
  refine .generatedSecret (x := .ok value) (by rw [hrandom]; exact .found r) ⟨rfl, hidentity⟩
    (by rw [hread]; exact .found found) (.ok ?_)
  rw [hkey]
  exact ⟨_, hkept.unwraps hvalue, .text (get?_payload hvalue) (.str value)⟩

/-- A generated value that was written: the object finds it, and who refers to the object is given
it, from the path that was written to and from no other. -/
structure HandsOver (r : RandomSecret) (w : Answers) (request : WriteRequest) (value : String)
    (found : Payload) : Prop where
  /-- The object reads what is kept, -/
  read : ∀ session, ComesTo w.Gives ((toVaultObject r).readObserved session)
    [.call (.vault (.read session request.path)) (.ok (some found))] (.ok (some found))
  isPresent : isPresent r found
  /-- and leaves it alone unless its refresh is due. -/
  rests : ∀ v es x, Program.Exec ((toVaultObject r).isEquivalent v found) es x →
    ∃ now, es = [.call .clock now] ∧
      x = (refreshDue? r.spec.refreshPeriod (lastUpdate? r) now).map (!·)
  resolves : ∀ name session (reference : Reference) identity defaults,
    w.randomSecret r.metadata.nsAny name = .ok (some r) →
    reference.NamesOnly (.generatedSecret name) → reference.passwordKey = none → identity ≠ "" →
    ∃ es, ComesTo w.Gives
        (resolve r.metadata.nsAny session reference (some identity) defaults) es
        (.ok (some ⟨identity, value⟩)) ∧
      asked es =
        [.cluster (.getRandomSecret r.metadata.nsAny name), .vault (.read session request.path)]

theorem hand_over (hne : value ≠ "") (hvalue : v.generated = some value)
    (hkept : r.Keeps w (createRequest r v) found) :
    HandsOver r w (createRequest r v) value found where
  read session := by
    refine comesTo_of_ends (Pass.ends_read.2 ⟨.ok (some found), rfl, rfl⟩)
      (List.forall_mem_singleton.2 hkept.1.symm) fun es' hes' c answer answer' hmem hmem' => ?_
    cases List.mem_singleton.1 hmem
    exact hkept.1.symm.trans (hes' _ hmem').symm
  isPresent := hkept.isPresent hne hvalue
  rests v es x h := exec_isEquivalent (hkept.isPresent hne hvalue) h
  resolves name session reference identity defaults hrandom hone hkey hidentity := by
    obtain ⟨es, x, hcomes⟩ := Credential.exists_resolve w r.metadata.nsAny session reference
      (some identity) defaults
    have hresolves := Credential.resolve_ends hcomes.ends hcomes.holds
    obtain ⟨hcalls, rfl⟩ :=
      hresolves.unique (hkept.resolves hvalue hrandom hone hkey hidentity)
    exact ⟨es, hcomes, hcalls⟩

end

-- ---------------------------------------------------------------------------
-- A secret that is kept under the name of its own wrapping
-- ---------------------------------------------------------------------------

def nestedToken : RandomSecret where
  metadata := { name := some "token", ns := some "team-a" }
  spec := {
    access := ⟨none, { role := "admin" }⟩, path := "kv", secretKey := "data"
    passwordPolicy := "strong", kvV2 := true }
  status := none

def nestedValues : InternalValues := { generated := some "s3cret" }

def nestedFound : Payload :=
  (createRequest nestedToken nestedValues).body.insert "metadata" (.obj [])

/-- A Vault with nothing but the secret, and a cluster with nothing but the object. -/
def nestedAnswers : Answers where
  secret _ _ := .ok none
  randomSecret _ name := .ok (if name = "token" then some nestedToken else none)
  vault path := .ok (if path = "kv/data/token" then some nestedFound else none)

/-- The key of a secret may be the one that secrets are wrapped under. -/
theorem hand_over_nested :
    "s3cret" ≠ "" ∧ HandsOver nestedToken nestedAnswers (createRequest nestedToken nestedValues)
      "s3cret" nestedFound := by
  have hpath : (createRequest nestedToken nestedValues).path = "kv/data/token" := by
    decide +kernel
  have hkept : nestedToken.Keeps nestedAnswers (createRequest nestedToken nestedValues)
      nestedFound := by
    refine ⟨?_, ?_, [], ?_⟩
    · rw [hpath]
      rfl
    · exact (Dict.get?_insert ..).trans (if_neg (by decide))
    · exact (Dict.get?_insert ..).trans (if_pos rfl)
  exact ⟨by decide, hand_over (by decide) rfl hkept⟩

end VaultOperator.RandomSecret
