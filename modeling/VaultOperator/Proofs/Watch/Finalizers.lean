import VaultOperator.Proofs.Engine.Discipline
import VaultOperator.Proofs.Json.MergePatch
import VaultOperator.Proofs.Pki.Seen
import VaultOperator.Proofs.Resource.Reading

/-!
# The finalizer of an object

Nothing is written to Vault without the finalizer on the object, and the finalizer is taken off by
nobody but a deletion that succeeded (`RunEnd.followsProtocol`). Of the patches that a look asks for
only that one can take the finalizer from the stored object (`patch_cases`).
-/

namespace VaultOperator

open Json

-- ---------------------------------------------------------------------------
-- Finalizers that are stored
-- ---------------------------------------------------------------------------

def HasFinalizer (stored : Json) : Prop :=
  finalizer ∈ storedFinalizers stored

theorem Object.hasFinalizer_stored {k : Kind} {fields : List (String × Json)} {o : Object}
    (h : Object.ofJson? k (.obj fields) = some o) :
    o.metadata.hasFinalizer ↔ HasFinalizer (.obj fields) := by
  rw [HasFinalizer, ← Object.finalizers_eq h, Metadata.hasFinalizer, List.contains_iff_mem]

theorem listOf_ofStrings (l : List String) : listOf str? (ofStrings l) = some l := by
  rw [ofStrings, listOf]
  induction l with
  | nil => rfl
  | cons s l ih => simp [str?, ih]

theorem mergePatch_ofStrings (old : Json) (l : List String) :
    old.mergePatch (ofStrings l) = ofStrings l := by
  simp [ofStrings, mergePatch]

theorem storedFinalizers_finalizersPatch (stored : Json) (finalizers : List String) :
    storedFinalizers (stored.mergePatch (finalizersPatch finalizers)) = finalizers := by
  have hmetadata : (stored.mergePatch (finalizersPatch finalizers)).get? "metadata" =
      some (((stored.get? "metadata").getD .null).mergePatch
        (record [("finalizers", ofStrings finalizers)])) := by
    rw [finalizersPatch, get?_mergePatch_record (by simp)]
    rfl
  rw [storedFinalizers, hmetadata, Option.map_some, Option.getD_some, metadataFinalizers,
    get?_mergePatch_record (by simp)]
  show ((some (mergePatch _ (ofStrings finalizers))).bind (listOf str?)).getD [] = finalizers
  rw [mergePatch_ofStrings, Option.bind_some, listOf_ofStrings]
  rfl

theorem storedFinalizers_statusPatch (stored status : Json) :
    storedFinalizers (stored.mergePatch (statusPatch status)) = storedFinalizers stored := by
  rw [storedFinalizers, statusPatch, get?_mergePatch_record (by simp)]
  rfl

namespace Object

variable {settings : Engine.Settings} {o : Object}

-- ---------------------------------------------------------------------------
-- Passes over an object
-- ---------------------------------------------------------------------------

theorem sync_exec (hkind : o.kind ≠ .pki) (h : Program.Exec (o.sync settings) es r) :
    ∃ result, Program.Exec (Engine.reconcile settings o.toVaultObject).run es result ∧
      r = result.map fun ended => { result := ended } := by
  have hsync : o.sync settings = (Engine.reconcile settings o.toVaultObject).run.bind fun ended =>
      .done { result := ended } := by
    cases o with
    | pki => exact absurd rfl hkind
    | _ => rfl
  rw [hsync] at h
  rcases Program.exec_bind.1 h with ⟨ended, es₁, es₂, hpass, hdone, rfl⟩ | ⟨hpass, rfl⟩
  · obtain ⟨rfl, rfl⟩ := Program.exec_done.1 hdone
    rw [List.append_nil]
    exact ⟨some ended, hpass, rfl⟩
  · exact ⟨none, hpass, rfl⟩

/-- A pass leaves the objects of the cluster to others. -/
theorem not_isPatch_of_sync (h : Program.Exec (o.sync settings) es r) :
    ∀ c answer, .call c answer ∈ es → c.isPatch = false := by
  by_cases hkind : o.kind = .pki
  · cases o with
    | pki p =>
      obtain ⟨_, _, -, hpass⟩ := Pki.exec_sync h
      exact (Pki.reconcile_ends hpass).2
    | _ => cases hkind
  · obtain ⟨result, hpass, -⟩ := sync_exec hkind h
    exact ((Engine.reconcile_course (keepsSession hkind) hpass).disciplined
      (keepsSession hkind)).session.not_isPatch

end Object

namespace Watch

variable {settings : Engine.Settings} {o : Object}

-- ---------------------------------------------------------------------------
-- Patches
-- ---------------------------------------------------------------------------

/-- A change of finalizers that is asked for. -/
def isFinalizersPatch : Event → Bool
  | .call (.cluster (.patchFinalizers ..)) _ => true
  | _ => false

/-- All that a pass asks to be patched is the status, and that once. -/
theorem PassEnd.patch (h : PassEnd settings o es) (hc : .call c answer ∈ es) (hpatch : c.isPatch) :
    ∃ outcome now nextPass,
      c = .cluster (.patchStatus o.ref (o.statusAfter outcome now nextPass)) := by
  have hnot (hfalse : c.isPatch = false) : False := by rw [hfalse] at hpatch; cases hpatch
  cases h with
  | aborted hsync =>
    have hc := (List.mem_cons.1 hc).resolve_left nofun
    exact (hnot (Object.not_isPatch_of_sync hsync c answer hc)).elim
  | ended outcome hsync hrecord =>
    have hc := (List.mem_cons.1 hc).resolve_left nofun
    rcases List.mem_append.1 hc with hc | hc
    · exact (hnot (Object.not_isPatch_of_sync hsync c answer hc)).elim
    · cases hrecord with
      | unscheduled now now' =>
        simp only [clockEvent, List.mem_cons, List.not_mem_nil, or_false] at hc
        rcases hc with hc | hc <;> cases hc <;> cases hpatch
      | recorded now now' nextPass recorded hcounts =>
        simp only [List.mem_cons] at hc
        rcases hc with hc | hc | hc | hc
        · cases hc; cases hpatch
        · cases hc; cases hpatch
        · cases hc
          exact ⟨outcome, now, nextPass, rfl⟩
        · exact (hcounts c answer hc).elim

theorem patch?_eq_none {es : List Event} (h : ∀ c answer, .call c answer ∈ es → c.isPatch = false)
    (he : e ∈ es) : e.patch? ref = none := by
  cases e with
  | call c answer => exact Call.patch?_eq_none (h c answer he)
  | count => rfl

theorem patch?_finalizersEvent :
    (finalizersEvent o finalizers answer).patch? o.ref = some (finalizersPatch finalizers) :=
  if_pos rfl

/-- A look asks for no change of the finalizers but to put the finalizer on, or to take it off after
a deletion that succeeded. -/
theorem patch_cases (h : RunEnd settings o (before ++ e :: after))
    (hpatch : e.patch? o.ref = some patch) :
    (∃ status, patch = statusPatch status) ∨
      (∃ finalizers, finalizer ∈ finalizers ∧ patch = finalizersPatch finalizers) ∨
      (o.metadata.deleting ∧ o.metadata.hasFinalizer ∧
        ∃ outcome, o.Deletion settings before (.ok outcome)) := by
  have hdeletion {es result} (hdelete : o.Deletion settings es result) (he : e ∈ es) :
      False := by
    rw [patch?_eq_none (fun c answer hc => (hdelete.calls c answer hc).2) he] at hpatch
    cases hpatch
  generalize hes : before ++ e :: after = es at h
  have he : e ∈ es := hes ▸ List.mem_append_right _ List.mem_cons_self
  cases h with
  | gone => cases he
  | guarded _ _ answer =>
    obtain rfl := List.mem_singleton.1 he
    rw [patch?_finalizersEvent] at hpatch
    exact .inr (.inl ⟨_, by simp, (Option.some.inj hpatch).symm⟩)
  | released hdeleting hguarded hdelete answer =>
    rcases append_eq_append_cons hes.symm with ⟨rest, rfl⟩ | ⟨between, rfl, hlast⟩
    · exact (hdeletion hdelete (by simp)).elim
    · cases between with
      | nil =>
        rw [List.append_nil]
        exact .inr (.inr ⟨hdeleting, hguarded, _, hdelete⟩)
      | cons => simp at hlast
  | blocked hdeleting hguarded hdelete now answer =>
    rcases List.mem_append.1 he with he | he
    · exact (hdeletion hdelete he).elim
    · simp only [List.mem_cons, List.not_mem_nil, or_false] at he
      rcases he with rfl | rfl
      · cases hpatch
      · have hstatus := (if_pos rfl).symm.trans hpatch
        exact .inl ⟨_, (Option.some.inj hstatus).symm⟩
  | skipped _ _ now =>
    obtain rfl := List.mem_singleton.1 he
    cases hpatch
  | passed _ _ now _ hpass =>
    rcases List.mem_cons.1 he with rfl | he
    · cases hpatch
    · cases e with
      | count => cases hpatch
      | call c answer =>
        have hc : c.isPatch := by
          by_contra hnot
          rw [Event.patch?, Call.patch?_eq_none (by simpa using hnot)] at hpatch
          cases hpatch
        obtain ⟨outcome, now, nextPass, rfl⟩ := hpass.patch he hc
        have hstatus := (if_pos rfl).symm.trans hpatch
        exact .inl ⟨_, (Option.some.inj hstatus).symm⟩

-- ---------------------------------------------------------------------------
-- The protocol of one look
-- ---------------------------------------------------------------------------

/-- What a look does about the finalizer, by what it sees. -/
structure FollowsProtocol (settings : Engine.Settings) (o : Object) (es : List Event) : Prop where
  guards : ¬ o.metadata.hasFinalizer → ¬ o.metadata.deleting →
    ∃ answer, es = [finalizersEvent o (o.metadata.finalizers ++ [finalizer]) answer]
  leaves : ¬ o.metadata.hasFinalizer → o.metadata.deleting → es = []
  releases : o.metadata.hasFinalizer → o.metadata.deleting → writes es = [] ∧
    ∃ deletion result rest, o.Deletion settings deletion result ∧ es = deletion ++ rest ∧
      (∀ outcome, result = .ok outcome → ∃ answer,
        rest = [finalizersEvent o (o.metadata.finalizers.filter (· ≠ finalizer)) answer]) ∧
      ∀ e, result = .error e → ∀ event ∈ es, ¬ isFinalizersPatch event

theorem writes_deletion (h : o.Deletion settings es result) : writes es = [] :=
  writes_eq_nil_of_writesNothing fun c answer hc => (h.calls c answer hc).1

theorem RunEnd.followsProtocol (h : RunEnd settings o es) : FollowsProtocol settings o es := by
  cases h with
  | gone hdeleting hbare => exact ⟨fun _ hkept => absurd hdeleting hkept, fun _ _ => rfl,
      fun hguarded => absurd hguarded hbare⟩
  | guarded hkept hbare answer => exact ⟨fun _ _ => ⟨answer, rfl⟩,
      fun _ hdeleting => absurd hdeleting hkept, fun hguarded => absurd hguarded hbare⟩
  | released hdeleting hguarded hdelete answer =>
    refine ⟨fun hbare => absurd hguarded hbare, fun hbare => absurd hguarded hbare, fun _ _ => ?_⟩
    refine ⟨by simp [writes_deletion hdelete, finalizersEvent], _, _, _, hdelete, rfl,
      fun _ _ => ⟨answer, rfl⟩, nofun⟩
  | blocked hdeleting hguarded hdelete now answer =>
    refine ⟨fun hbare => absurd hguarded hbare, fun hbare => absurd hguarded hbare, fun _ _ => ?_⟩
    refine ⟨by rw [writes_append, writes_deletion hdelete]; rfl, _, _, _, hdelete, rfl,
      nofun, fun _ _ event hmem hpatch => ?_⟩
    rcases List.mem_append.1 hmem with hmem | hmem
    · cases event with
      | count => cases hpatch
      | call c answer =>
        have hnot := (hdelete.calls c answer hmem).2
        unfold isFinalizersPatch at hpatch
        split at hpatch
        · next hevent => cases hevent; cases hnot
        · cases hpatch
    · simp only [List.mem_cons, List.not_mem_nil, or_false] at hmem
      rcases hmem with rfl | rfl <;> cases hpatch
  | skipped hkept hguarded =>
    exact ⟨fun hbare => absurd hguarded hbare, fun hbare => absurd hguarded hbare,
      fun _ hdeleting => absurd hdeleting hkept⟩
  | passed hkept hguarded =>
    exact ⟨fun hbare => absurd hguarded hbare, fun hbare => absurd hguarded hbare,
      fun _ hdeleting => absurd hdeleting hkept⟩

/-- Only a look at an object that has the finalizer and is not being deleted writes to Vault. -/
theorem RunEnd.guarded_of_writes (h : RunEnd settings o es) (hes : writes es ≠ []) :
    o.metadata.hasFinalizer ∧ ¬ o.metadata.deleting := by
  cases h with
  | gone | guarded | skipped => exact absurd rfl hes
  | released _ _ hdelete =>
    exact absurd (by rw [writes_append, writes_deletion hdelete]; rfl) hes
  | blocked _ _ hdelete =>
    exact absurd (by rw [writes_append, writes_deletion hdelete]; rfl) hes
  | passed hkept hguarded => exact ⟨hguarded, hkept⟩

end Watch

end VaultOperator
