import VaultOperator.Pki.Object
import VaultOperator.Proofs.Json.MergePatch
import VaultOperator.Proofs.Resource.Reading

/-!
# The status that the cluster stores

Whether a certificate authority has a key is read from its stored status alone
(`HasKey.isGenerated`). A patch of the status with a key in it is what is read from then on
(`hasKey_of_patch`), whatever the object was before, and patches without progress leave it so.
-/

namespace VaultOperator

open Json

theorem Status.leavesNamed_reader : LeavesNamed Status.reader :=
  leavesNamed_field.bind fun _ => leavesNamed_field.bind fun _ => leavesNamed_field.bind fun _ =>
    leavesNamed_field.bind fun _ => leavesNamed_field.bind fun _ => leavesNamed_field.bind fun _ =>
      leavesNamed_pure

theorem PkiStatus.reader_state {fields : Dict Json}
    (h : PkiStatus.reader (.named fields) = some (s, rest)) :
    readField (some .notGenerated) CaState.ofJson? (fields.get? "caState") =
      some s.progress.state := by
  obtain ⟨common, _, hcommon, h⟩ := reader_bind_eq_some.1 h
  obtain rfl := Status.leavesNamed_reader _ _ _ hcommon
  obtain ⟨state, _, hstate, h⟩ := reader_bind_eq_some.1 h
  obtain ⟨hread, rfl⟩ := field_eq_some.1 hstate
  obtain ⟨type, _, -, h⟩ := reader_bind_eq_some.1 h
  obtain ⟨mode, _, -, h⟩ := reader_bind_eq_some.1 h
  cases h
  exact hread

/-- The stored status of an object says that there is a key. -/
def HasKey (stored : Json) : Prop :=
  ∃ status recorded, stored.get? "status" = some status ∧ status.get? "caState" = some recorded ∧
    ∀ state, CaState.ofJson? recorded = some state → state.isGenerated

theorem exists_obj_of_get? {j : Json} (h : j.get? key = some value) :
    ∃ fields, j = .obj fields ∧ (Dict.ofList fields).get? key = some value := by
  cases j with
  | obj fields => exact ⟨fields, rfl, h⟩
  | _ => cases h

/-- Whoever reads the object finds that there is a key. -/
theorem HasKey.isGenerated (h : HasKey stored) (hread : Pki.ofJson? stored = some p) :
    (Pki.progress p).state.isGenerated := by
  obtain ⟨status, recorded, hstatus, hrecorded, hgenerated⟩ := h
  obtain ⟨fields, rfl, -⟩ := exists_obj_of_get? hstatus
  obtain ⟨statusFields, rfl, hstate⟩ := exists_obj_of_get? hrecorded
  obtain ⟨-, -, hreadStatus⟩ := Resource.ofJson?_obj hread
  rw [hstatus] at hreadStatus
  obtain ⟨s, hs, hsome⟩ := Option.map_eq_some_iff.1 hreadStatus
  obtain ⟨⟨s, rest⟩, hreader, rfl⟩ := Option.map_eq_some_iff.1 hs
  have hreadState := PkiStatus.reader_state hreader
  rw [hstate] at hreadState
  rw [Pki.progress, ← hsome]
  exact hgenerated _ hreadState

-- ---------------------------------------------------------------------------
-- What a patch leaves
-- ---------------------------------------------------------------------------

theorem CaState.ofRecord_phase (state : CaState) : ofRecord state.phase state.isExported = state := by
  cases state with
  | awaitingSignature isExported => cases isExported <;> rfl
  | signed isExported => cases isExported <;> rfl
  | _ => rfl

theorem CaState.Phase.ofName?_name (phase : CaState.Phase) : Phase.ofName? phase.name = some phase := by
  cases phase <;> rfl

/-- A state is read back whatever it is merged into. -/
theorem CaState.ofJson?_mergePatch (old : Json) (state : CaState) :
    CaState.ofJson? (old.mergePatch state.toJson) = some state := by
  obtain ⟨fields, hfields, hget⟩ := exists_mergePatch_record
    (l := [("phase", .str state.phase.name), ("exported", .bool state.isExported)]) (by simp) old
  have hphase : readField (some .notGenerated) (oneOf CaState.Phase.ofName?)
      (fields.get? "phase") = some state.phase := by
    rw [hget]
    simp [Dict.lookup, mergedField, mergePatch, readField, oneOf, CaState.Phase.ofName?_name]
  have hexported : readField (some false) bool? (fields.get? "exported") =
      some state.isExported := by
    rw [hget]
    simp [Dict.lookup, mergedField, mergePatch, readField, bool?]
  have hread : CaState.reader (.named fields) = some (state, .named fields) := by
    refine reader_bind_eq_some.2 ⟨_, _, field_eq_some.2 ⟨hphase, rfl⟩, ?_⟩
    refine reader_bind_eq_some.2 ⟨_, _, field_eq_some.2 ⟨hexported, rfl⟩, ?_⟩
    rw [CaState.ofRecord_phase]
    rfl
  rw [CaState.toJson, hfields, CaState.ofJson?, structure?_ofDict, hread]
  rfl

theorem PkiStatus.nodup_fields (s : PkiStatus) :
    ((s.common.fields ++
      [("caState", s.progress.state.toJson),
        ("observedType", Json.ofOption CaType.toJson s.progress.observedType),
        ("observedPrivateKeyType", Json.ofOption KeyMode.toJson s.progress.observedKeyMode)]).map
      (·.1)).Nodup := by
  cases h : s.common.lastVaultSecretUpdate <;> simp [Status.fields, h]

theorem Status.nodup_fields (s : Status) : (s.fields.map (·.1)).Nodup := by
  cases h : s.lastVaultSecretUpdate <;> simp [Status.fields, h]

theorem hasKey_of_patch (stored : Json) (s : PkiStatus) (h : s.progress.state.isGenerated) :
    HasKey (stored.mergePatch (record [("status", s.toJson)])) := by
  let old := (stored.get? "status").getD .null
  refine ⟨old.mergePatch s.toJson,
    ((old.get? "caState").getD .null).mergePatch s.progress.state.toJson, ?_, ?_,
    fun state hread => ?_⟩
  · rw [get?_mergePatch_record (by simp)]
    rfl
  · rw [PkiStatus.toJson, get?_mergePatch_record s.nodup_fields]
    cases h : s.common.lastVaultSecretUpdate <;> simp [Status.fields, h, Dict.lookup] <;> rfl
  · rw [CaState.ofJson?_mergePatch] at hread
    cases hread
    exact h

theorem HasKey.patchCommon (h : HasKey stored) (s : Status) :
    HasKey (stored.mergePatch (record [("status", s.toJson)])) := by
  obtain ⟨status, recorded, hstatus, hrecorded, hgenerated⟩ := h
  refine ⟨status.mergePatch s.toJson, recorded, ?_, ?_, hgenerated⟩
  · rw [get?_mergePatch_record (by simp), hstatus]
    rfl
  · rw [Status.toJson, get?_mergePatch_record s.nodup_fields, ← hrecorded]
    cases h : s.lastVaultSecretUpdate <;> simp [Status.fields, h, Dict.lookup]

theorem HasKey.patchFinalizers (h : HasKey stored) (finalizers : List String) :
    HasKey (stored.mergePatch
      (record [("metadata", record [("finalizers", ofStrings finalizers)])])) := by
  obtain ⟨status, recorded, hstatus, hrest⟩ := h
  refine ⟨status, recorded, ?_, hrest⟩
  rw [get?_mergePatch_record (by simp), ← hstatus]
  rfl

end VaultOperator
