import VaultOperator.Proofs.Json.MergePatch
import VaultOperator.Proofs.Resource.Reading
import VaultOperator.Proofs.Status.Stored
import VaultOperator.Proofs.Watch.Stored

/-!
# The time of the last update that the cluster stores

A status that names the time of an update is stored with it (`showsUpdate_of_patch`), and whoever
reads the object finds it (`ShowsUpdate.lastUpdate?_eq`), until another is named.
-/

namespace VaultOperator

open Json

/-- The stored status names the time of the last update. -/
def ShowsUpdate (time : String) (stored : Json) : Prop :=
  (stored.get? "status").bind (·.get? "lastVaultSecretUpdate") = some (.str time)

theorem Status.lastVaultSecretUpdate_next (previous : Option Status) (generation : Option Int)
    (result : Except ReconcileError SyncOutcome) (now nextPass : Instant) :
    (Status.next previous generation result true now nextPass).lastVaultSecretUpdate =
      match result with
      | .ok outcome =>
        if outcome.wrote then some now.write else previous.bind (·.lastVaultSecretUpdate)
      | .error _ => previous.bind (·.lastVaultSecretUpdate) := by
  cases previous <;> cases result <;> rfl

theorem Status.get?_lastVaultSecretUpdate_toJson {s : Status}
    (h : s.lastVaultSecretUpdate = some time) :
    s.toJson.get? "lastVaultSecretUpdate" = some (.str time) := by
  rw [Status.toJson, Json.record, Json.get?_ofDict, Dict.get?_ofList_of_nodup s.nodup_fields]
  simp [Status.fields, h, Dict.lookup]

theorem get?_statusPatch (status : Json) : (statusPatch status).get? "status" = some status := by
  rw [statusPatch, Json.record, Json.get?_ofDict, Dict.get?_ofList_of_nodup (by simp)]
  rfl

theorem get?_finalizersPatch (finalizers : List String) :
    (finalizersPatch finalizers).get? "status" = none := by
  rw [finalizersPatch, Json.record, Json.get?_ofDict, Dict.get?_ofList_of_nodup (by simp)]
  rfl

theorem Status.lastVaultSecretUpdate_of_ofJson? {fields : List (String × Json)} {s : Status}
    (h : Status.ofJson? (.obj fields) = some s) :
    readField (some none) (nullable str?) ((Json.obj fields).get? "lastVaultSecretUpdate") =
      some s.lastVaultSecretUpdate := by
  obtain ⟨⟨s, rest⟩, hreader, rfl⟩ := Option.map_eq_some_iff.1 h
  simp only [Status.reader, withDefault, Json.optional, field_bind_eq_some] at hreader
  obtain ⟨_, -, _, -, _, -, _, -, _, -, update, hupdate, hdone⟩ := hreader
  cases hdone
  exact hupdate

theorem ShowsUpdate.lastUpdate?_eq {r : RandomSecret} (h : ShowsUpdate time stored)
    (hread : RandomSecret.ofJson? stored = some r) : RandomSecret.lastUpdate? r = some time := by
  obtain ⟨status, hstatus, hupdate⟩ := Option.bind_eq_some_iff.1 h
  obtain ⟨fields, rfl, -⟩ := exists_obj_of_get? hstatus
  obtain ⟨statusFields, rfl, -⟩ := exists_obj_of_get? hupdate
  obtain ⟨-, -, hreadStatus⟩ := Resource.ofJson?_obj hread
  rw [hstatus] at hreadStatus
  obtain ⟨s, hs, hsome⟩ := Option.map_eq_some_iff.1 hreadStatus
  have hreadUpdate := Status.lastVaultSecretUpdate_of_ofJson? hs
  rw [hupdate] at hreadUpdate
  rw [RandomSecret.lastUpdate?, ← hsome]
  exact (Option.some.inj hreadUpdate).symm

-- ---------------------------------------------------------------------------
-- What a patch leaves
-- ---------------------------------------------------------------------------

theorem ShowsUpdate.edited {edited : Json} (h : ShowsUpdate time stored)
    (hedit : edited.get? "status" = stored.get? "status") : ShowsUpdate time edited := by
  rwa [ShowsUpdate, hedit]

theorem ShowsUpdate.patchFinalizers (h : ShowsUpdate time stored) (finalizers : List String) :
    ShowsUpdate time (stored.mergePatch (finalizersPatch finalizers)) := by
  refine h.edited ?_
  rw [finalizersPatch, get?_mergePatch_record (by simp)]
  rfl

theorem showsUpdate_of_patch (stored : Json) {s : Status}
    (h : s.lastVaultSecretUpdate = some time) :
    ShowsUpdate time (stored.mergePatch (statusPatch s.toJson)) := by
  have hstatus : (stored.mergePatch (statusPatch s.toJson)).get? "status" =
      some (((stored.get? "status").getD .null).mergePatch s.toJson) := by
    rw [statusPatch, get?_mergePatch_record (by simp)]
    rfl
  have hupdate : Dict.lookup "lastVaultSecretUpdate" s.fields = some (.str time) := by
    simp [Status.fields, h, Dict.lookup]
  rw [ShowsUpdate, hstatus, Option.bind_some, Status.toJson, get?_mergePatch_record s.nodup_fields,
    hupdate]
  rfl

end VaultOperator
