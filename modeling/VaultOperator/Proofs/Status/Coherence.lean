import VaultOperator.Proofs.Pki.Generation
import VaultOperator.Proofs.Status.Conditions

/-!
# What the conditions of a status say together

A status shows that an object is ready where its phase is that of a pass that succeeded, and then it
was valid, too (`Coherent`). Every update keeps that (`Coherent.apply`), so it holds whatever
happened before (`coherent_after`). The status of a certificate authority says that it is signed
where its progress does.
-/

namespace VaultOperator

namespace Status

/-- What is shown for a type of condition. -/
def value? (s : Status) (type : String) : Option String :=
  (s.condition? type).map (·.status)

/-- Ready is what a pass that succeeded leaves, of an object that is valid. -/
structure Coherent (s : Status) : Prop where
  isReady_iff : s.isReady ↔ s.phase = some .synced
  validated : s.isReady → s.value? "Validated" = some "True"

/-- The updates of single conditions only concern the signing of an authority. -/
def SetsOnlySigned (updates : List Update) : Prop :=
  ∀ c, .condition c ∈ updates → ∃ state now, c = signedCondition state now

theorem SetsOnlySigned.of_cons (h : SetsOnlySigned (update :: rest)) :
    (∀ c, update = .condition c → ∃ state now, c = signedCondition state now) ∧
      SetsOnlySigned rest :=
  ⟨fun c hc => h c (hc ▸ List.mem_cons_self), fun c hc => h c (List.mem_cons_of_mem _ hc)⟩

/-- The update is a pass that wrote to Vault at that time, over an object that records this. -/
inductive Update.RecordsWrite : Update → Instant → Prop
  | pass (hwrote : outcome.wrote) :
    RecordsWrite (.pass generation (.ok outcome) true now nextPass) now

-- ---------------------------------------------------------------------------
-- One update
-- ---------------------------------------------------------------------------

theorem isReady_iff (s : Status) : s.isReady ↔ s.value? "Ready" = some "True" := by
  cases h : s.condition? "Ready" <;> simp [isReady, value?, h, Condition.isTrue]

@[simp]
theorem value?_setCondition (s : Status) (c : Condition) (type : String) :
    (s.setCondition c).value? type = if c.type = type then some c.status else s.value? type := by
  rw [value?, condition?_setCondition]
  split
  · simp
  · rfl

theorem value?_apply (previous : Option Status) (update : Update) (type : String) :
    (update.apply previous).value? type =
      ((previous.getD {}).setConditions update.conditions).value? type := by
  rw [value?, condition?, conditions_apply]
  rfl

@[simp]
theorem value?_next_ok :
    (next previous generation (.ok outcome) recordsWriteTime now nextPass).value? type =
      if "Ready" = type then some "True"
      else if "Validated" = type then some "True" else (previous.getD {}).value? type :=
  (value?_apply previous (.pass generation (.ok outcome) recordsWriteTime now nextPass) type).trans
    (by simp [Update.conditions, validated, ready, conditionOf])

@[simp]
theorem value?_next_error :
    (next previous generation (.error e) recordsWriteTime now nextPass).value? type =
      if "Ready" = type then some "False"
      else if "Validated" = type then some (if e.phase = .unvalidated then "False" else "True")
      else (previous.getD {}).value? type := by
  refine (value?_apply previous
    (.pass generation (.error e) recordsWriteTime now nextPass) type).trans ?_
  by_cases h : e.phase = .unvalidated <;>
    simp [Update.conditions, h, validated, invalidated, unready, conditionOf]

@[simp]
theorem value?_deleting :
    (deleting previous e now).value? type =
      if "Ready" = type then some "False" else (previous.getD {}).value? type :=
  (value?_apply previous (.deletion e now) type).trans
    (by simp [Update.conditions, blocked, conditionOf])

@[simp]
theorem phase_setCondition (s : Status) (c : Condition) : (s.setCondition c).phase = s.phase :=
  rfl

@[simp]
theorem phase_next_ok :
    (next previous generation (.ok outcome) recordsWriteTime now nextPass).phase = some .synced :=
  rfl

@[simp]
theorem phase_next_error :
    (next previous generation (.error e) recordsWriteTime now nextPass).phase = some e.phase :=
  rfl

@[simp]
theorem phase_deleting : (deleting previous e now).phase = some .deleting :=
  rfl

theorem phase_ne_synced (e : ReconcileError) : e.phase ≠ .synced := by
  unfold ReconcileError.phase
  split <;> nofun

theorem phase_eq_unvalidated {e : ReconcileError} :
    e.phase = .unvalidated ↔ e.retryPolicy = .awaitSpecChange := by
  simp [ReconcileError.phase]

theorem coherent_new : Coherent {} where
  isReady_iff := by decide
  validated := by decide

theorem coherent_iff {s : Status} :
    s.Coherent ↔ (s.value? "Ready" = some "True" ↔ s.phase = some .synced) ∧
      (s.value? "Ready" = some "True" → s.value? "Validated" = some "True") := by
  rw [← isReady_iff]
  exact ⟨fun h => ⟨h.1, h.2⟩, fun h => ⟨h.1, h.2⟩⟩

theorem Coherent.setSigned {s : Status} (h : s.Coherent) (state : CaState) (now : Instant) :
    (s.setCondition (signedCondition state now)).Coherent := by
  rw [coherent_iff] at h ⊢
  simpa [signedCondition, conditionOf] using h

/-- Every update leaves a status coherent, whatever its pass or deletion ended with. -/
theorem Coherent.apply {previous : Option Status} (h : (previous.getD {}).Coherent)
    (update : Update)
    (hsigned : ∀ c, update = .condition c → ∃ state now, c = signedCondition state now) :
    (update.apply previous).Coherent := by
  cases update with
  | pass generation result recordsWriteTime now nextPass =>
    rw [coherent_iff, Update.apply]
    cases result with
    | ok outcome => simp
    | error e => simp [phase_ne_synced]
  | deletion e now =>
    rw [coherent_iff, Update.apply]
    simp
  | condition c =>
    obtain ⟨state, now, rfl⟩ := hsigned c rfl
    exact h.setSigned state now

/-- What a pass says of the declaration goes with the cause that it failed for. -/
structure Judges (s : Status) (result : Except ReconcileError SyncOutcome) : Prop where
  invalid_iff : s.value? "Validated" = some "False" ↔ s.phase = some .unvalidated
  unvalidated_iff : s.phase = some .unvalidated ↔
    ∃ e, result = .error e ∧ e.retryPolicy = .awaitSpecChange

theorem judges_next (previous : Option Status) (generation : Option Int)
    (result : Except ReconcileError SyncOutcome) (recordsWriteTime : Bool) (now nextPass : Instant) :
    (next previous generation result recordsWriteTime now nextPass).Judges result := by
  cases result with
  | ok outcome => exact ⟨by simp, by simp⟩
  | error e => exact ⟨by simp, by simp [phase_eq_unvalidated]⟩

theorem Update.RecordsWrite.lastVaultSecretUpdate_eq (h : RecordsWrite update now)
    (previous : Option Status) :
    (update.apply previous).lastVaultSecretUpdate = some now.write := by
  cases h with
  | pass hwrote => simp [Update.apply, next, hwrote]

theorem lastVaultSecretUpdate_apply {update : Update} (h : ∀ now, ¬ update.RecordsWrite now)
    (previous : Option Status) :
    (update.apply previous).lastVaultSecretUpdate = previous.bind (·.lastVaultSecretUpdate) := by
  have hprevious : (previous.getD {}).lastVaultSecretUpdate =
      previous.bind (·.lastVaultSecretUpdate) := by
    cases previous <;> rfl
  cases update with
  | pass generation result recordsWriteTime now nextPass =>
    cases result with
    | ok outcome =>
      have hunrecorded : ¬ (recordsWriteTime && outcome.wrote) = true := fun hwrites => by
        obtain ⟨rfl, hwrote⟩ := Bool.and_eq_true_iff.1 hwrites
        exact h now (.pass hwrote)
      exact (if_neg hunrecorded).trans hprevious
    | error e => exact hprevious
  | deletion e now => exact hprevious
  | condition c => exact hprevious

end Status

-- ---------------------------------------------------------------------------
-- Certificate authorities
-- ---------------------------------------------------------------------------

/-- The status of an authority says that it is signed where its progress does, and that it is ready
only then. -/
structure PkiStatus.Coherent (s : PkiStatus) : Prop where
  signed_iff : s.common.value? "Signed" = some "True" ↔ s.progress.state.isSigned
  signed_of_isReady : s.common.isReady → s.common.value? "Signed" = some "True"

theorem Object.value?_signed_pkiStatusAfter (p : Pki) (outcome : PassOutcome)
    (now nextPass : Instant) :
    (pkiStatusAfter p outcome now nextPass).common.value? "Signed" = some "True" ↔
      (pkiStatusAfter p outcome now nextPass).progress.state.isSigned := by
  simp [pkiStatusAfter, Status.signedCondition, Status.conditionOf]

/-- A pass that succeeds leaves a signed authority, so what it leaves ready it leaves signed. -/
theorem Object.coherent_pkiStatusAfter
    (h : Program.Exec ((Object.pki p).sync settings) es (some outcome)) :
    (pkiStatusAfter p outcome now nextPass).Coherent := by
  refine ⟨value?_signed_pkiStatusAfter p outcome now nextPass, fun hready => ?_⟩
  rw [value?_signed_pkiStatusAfter]
  obtain ⟨result, progress, houtcome, hpass⟩ := Pki.exec_sync h
  obtain rfl := Option.some.inj houtcome
  obtain ⟨⟨_, _, hended, hrun⟩, -⟩ := Pki.reconcile_ends hpass
  cases hended
  cases result with
  | ok outcome => exact (Pki.run_ends hrun).isSigned outcome rfl
  | error e =>
    rw [Status.isReady_iff] at hready
    simp [pkiStatusAfter, Status.signedCondition, Status.conditionOf] at hready

-- ---------------------------------------------------------------------------
-- All updates
-- ---------------------------------------------------------------------------

namespace Status

theorem Coherent.after {start : Option Status} (h : (start.getD {}).Coherent)
    (hsigned : SetsOnlySigned updates) : ((after start updates).getD {}).Coherent := by
  induction updates generalizing start with
  | nil => exact h
  | cons update rest ih =>
    obtain ⟨hfirst, hrest⟩ := hsigned.of_cons
    exact ih (h.apply update hfirst) hrest

/-- Whatever happened since there was no status: the one that is shown is coherent, and what the
next update makes of it is told by that update. -/
theorem coherent_after (hsigned : SetsOnlySigned updates) :
    (∀ s ∈ after none updates, s.Coherent) ∧
      (∀ generation result recordsWriteTime now nextPass,
        (next (after none updates) generation result recordsWriteTime now nextPass).Judges result) ∧
      (∀ e now, (deleting (after none updates) e now).phase = some .deleting ∧
        (deleting (after none updates) e now).value? "Ready" = some "False") ∧
      (∀ update now, Update.RecordsWrite update now →
        (update.apply (after none updates)).lastVaultSecretUpdate = some now.write) ∧
      (∀ update : Update, (∀ now, ¬ update.RecordsWrite now) →
        (update.apply (after none updates)).lastVaultSecretUpdate =
          (after none updates).bind (·.lastVaultSecretUpdate)) ∧
      ∀ settings p es outcome now nextPass,
        Program.Exec ((Object.pki p).sync settings) es (some outcome) →
          (Object.pkiStatusAfter p outcome now nextPass).Coherent := by
  have hnew : (Option.getD (none : Option Status) {}).Coherent := coherent_new
  have hcoherent := hnew.after hsigned
  refine ⟨fun s hs => ?_, ?_, ?_, ?_, ?_, ?_⟩
  · rwa [hs] at hcoherent
  · exact fun generation result recordsWriteTime now nextPass => judges_next _ _ _ _ _ _
  · exact fun e now => ⟨rfl, by simp⟩
  · exact fun update now h => h.lastVaultSecretUpdate_eq _
  · exact fun update h => lastVaultSecretUpdate_apply h _
  · exact fun settings p es outcome now nextPass h => Object.coherent_pkiStatusAfter h

/-- A pass over an invalid declaration, a blocked deletion, and a pass that writes a secret. -/
def recovery : List Update :=
  [.pass (some 1) (.error (.validation (.invalid "spec.type" "unknown"))) true ⟨0, 0⟩ ⟨60, 0⟩,
    .deletion (.awaiting "a release") ⟨60, 0⟩, .condition (signedCondition .generated ⟨60, 0⟩),
    .pass (some 2) (.ok .created) true ⟨120, 0⟩ ⟨180, 0⟩]

theorem coherent_after_recovery :
    (∃ s ∈ after none recovery, s.isReady ∧ s.value? "Validated" = some "True") ∧
      ∃ es outcome, Program.Exec ((Object.pki Pki.root).sync {}) es (some outcome) ∧
        outcome.result.isOk ∧ (Object.pkiStatusAfter Pki.root outcome ⟨0, 0⟩ ⟨60, 0⟩).Coherent := by
  have hsigned : SetsOnlySigned recovery := fun c hc => by
    simp only [recovery, List.mem_cons, Update.condition.injEq, reduceCtorEq, false_or, or_false,
      List.not_mem_nil] at hc
    exact ⟨_, _, hc⟩
  obtain ⟨hcoherent, -, -, -, -, hauthority⟩ := coherent_after hsigned
  let pass := ((Object.pki Pki.root).sync {}).run Memory.Backends.clusterWorld (Pki.rootWorld ∅)
  have hexec : Program.Exec ((Object.pki Pki.root).sync {}) pass.events pass.result :=
    Program.exec_run _ _ _
  have hok : (pass.result.any (·.result.isOk)) = true := by decide +kernel
  rw [Option.any_eq_true] at hok
  obtain ⟨outcome, houtcome, hok⟩ := hok
  rw [houtcome] at hexec
  have hready := hcoherent _ rfl
  have hshown := hready.isReady_iff.2 rfl
  exact ⟨⟨_, rfl, hshown, hready.validated hshown⟩, _, outcome, hexec, hok,
    hauthority _ _ _ _ _ _ hexec⟩

end Status

end VaultOperator
