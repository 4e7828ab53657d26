import VaultOperator.Mount.Object
import VaultOperator.Proofs.Path.Segments
import VaultOperator.Proofs.Resource.Equivalence

/-!
# Mounts as Vault shows them

The path that a mount is made at tells how it is listed and where its tuning is read (`path_eq`,
`tunePath_eq`). A tuning that shows what a mount was made from shows all that can be tuned
(`shows_tunePayload`).
-/

namespace VaultOperator

namespace Path

/-- The path of a tuning, or of a mount that cannot be told from one. -/
def EndsInTune (path : String) : Prop :=
  (segments path).getLast? = some "tune"

theorem endsInTune_append : EndsInTune (path ++ "/tune") := by
  have hsegments : segmentsOf (path ++ "/tune").toList =
      segmentsOf path.toList ++ ["tune".toList] := by
    rw [String.toList_append, show "/tune".toList = separator :: "tune".toList from rfl,
      segmentsOf_append]
    rfl
  rw [EndsInTune, segments, hsegments, List.map_append, List.getLast?_append]
  rfl

end Path

namespace Mount

open Comparison (Observes Shows)
open VaultOperator.Path (MountTable EndsInTune)

/-- The tuning of a new mount: its configuration, and what is written beside it. -/
def ShowsTuning (written found : Payload) : Prop :=
  (∀ key ∈ ["description", "options"], Observes [] written found key) ∧
    ∀ config, written.get? "config" = some (.obj config) → Shows [] (Dict.ofList config) found

theorem showsTuning_of_insert (hkey : key ∉ ["description", "options", "config"])
    (h : ShowsTuning (written.insert key value) found) : ShowsTuning written found := by
  simp only [List.mem_cons, List.not_mem_nil, or_false, not_or] at hkey
  obtain ⟨hdescription, hoptions, hconfig⟩ := hkey
  have hget (key' : String) (hne : key ≠ key') :
      (written.insert key value).get? key' = written.get? key' := by
    rw [Dict.get?_insert, if_neg hne]
  refine ⟨fun key' hkey' => ?_, fun config hwritten => h.2 config (by rwa [hget _ hconfig])⟩
  have hne : key ≠ key' := by
    rcases List.mem_cons.1 hkey' with rfl | hkey'
    · exact hdescription
    · exact List.mem_singleton.1 hkey' ▸ hoptions
  intro found' hsecret hwritten
  exact h.1 key' hkey' found' hsecret (by rwa [hget key' hne])

namespace Definition

variable {d : Definition} {table : MountTable} {objectName place : String}

theorem get?_payload (d : Definition) (key : String) :
    d.payload.get? key = (Dict.lookup key d.payloadFields).join :=
  Dict.get?_ofFields (by simp [payloadFields]) key

theorem get?_config (d : Definition) :
    d.payload.get? "config" = some (Json.ofDict (Dict.ofFields d.config.payloadFields)) := by
  rw [get?_payload]
  rfl

theorem get?_tunePayload (d : Definition) (key : String) :
    d.tunePayload.get? key = ((Dict.ofFields d.config.payloadFields).get? key).or
      (if key ∈ ["description", "options"] then d.payload.get? key else none) := by
  have hkeys : (d.config.payloadFields.map (·.1)).Nodup := by simp [Tuning.payloadFields]
  rw [tunePayload, Dict.get?_ofFields (by simp [Tuning.payloadFields]), Dict.lookup_append,
    Dict.get?_ofFields hkeys]
  by_cases hkey : key ∈ ["description", "options"]
  · have hnone : Dict.lookup key d.config.payloadFields = none := by
      rw [Dict.lookup_eq_none_iff]
      rcases List.mem_cons.1 hkey with rfl | hkey
      · simp [Tuning.payloadFields]
      · rw [List.mem_singleton.1 hkey]
        simp [Tuning.payloadFields]
    rw [if_pos hkey, hnone, get?_payload]
    rcases List.mem_cons.1 hkey with rfl | hkey
    · rfl
    · rw [List.mem_singleton.1 hkey]
      rfl
  · have hnone : Dict.lookup key [("description", d.description.map Json.str),
        ("options", d.optionsValue?)] = none := by
      rw [Dict.lookup_eq_none_iff]
      exact hkey
    rw [if_neg hkey, hnone, Option.or_none, Option.or_none]

theorem shows_tunePayload (h : ShowsTuning d.payload found) : Shows [] d.tunePayload found := by
  intro key value hsecret hvalue
  rw [get?_tunePayload, Option.or_eq_some_iff] at hvalue
  rcases hvalue with hvalue | ⟨-, hvalue⟩
  · refine h.2 _ (get?_config d) key value hsecret ?_
    rwa [Dict.ofList_entries]
  · split at hvalue
    · next hkey => exact h.1 key hkey value hsecret hvalue
    · cases hvalue

-- ---------------------------------------------------------------------------
-- Paths
-- ---------------------------------------------------------------------------

/-- What a mount is called in its table. -/
def mountName (d : Definition) (objectName : String) : String :=
  Path.join [d.path, Path.effectiveName d.name objectName]

/-- The name has more than blanks and separators. -/
def IsNamed (d : Definition) (objectName : String) : Prop :=
  Path.segments (Path.effectiveName d.name objectName) ≠ []

theorem segmentsOf_table_path (table : MountTable) : Path.segmentsOf table.path.toList ≠ [] := by
  cases table <;> decide

theorem join_table_path (table : MountTable) : Path.join [table.path] = table.path := by
  cases table <;> decide

theorem eq_join_of_vaultPath (h : d.vaultPath table objectName = .ok place) :
    place = Path.join [table.path, d.path, Path.effectiveName d.name objectName] := by
  refine (Path.eq_of_build h).trans (Path.join_congr ?_)
  have hempty : Path.segmentsOf [] = [] := rfl
  show [table.mountPath d.path "", Path.effectiveName d.name objectName].flatMap _ = _
  simp [MountTable.mountPath, Path.segmentsOf_join, hempty]

theorem path_eq (hnamed : d.IsNamed objectName) (h : d.vaultPath table objectName = .ok place) :
    place = table.path ++ "/" ++ d.mountName objectName := by
  have hname : Path.segmentsOf (Path.effectiveName d.name objectName).toList ≠ [] :=
    fun hnil => hnamed (by rw [Path.segments, hnil]; rfl)
  rw [eq_join_of_vaultPath h, mountName]
  refine (Path.join_append [table.path] _ ?_ ?_).trans (by rw [join_table_path])
  · simpa using segmentsOf_table_path table
  · simp [hname]

theorem tunePath_eq (h : d.vaultPath table objectName = .ok place) :
    d.tunePath table objectName = place ++ "/tune" := by
  rw [eq_join_of_vaultPath h]
  refine (Path.join_append [table.path, d.path, Path.effectiveName d.name objectName] ["tune"] ?_
    (by decide)).trans ?_
  · simp [segmentsOf_table_path]
  · rw [String.append_assoc, show "/" ++ Path.join ["tune"] = "/tune" by decide]

end Definition

end Mount

end VaultOperator
