import VaultOperator.Proofs.Status.LastUpdate
import VaultOperator.Proofs.Watch.Finalizers
import VaultOperator.Proofs.Watch.Turns

/-!
# When a generated secret was written

The stored status tells when a value was last written. A look that writes one leaves the time of it
there (`showsUpdate_written`), and every other hands on what it found (`showsUpdate_kept`).
-/

namespace VaultOperator.RandomSecret

open Program (Exec)
open Watch (PassEnd RunEnd Turn Turns clockEvent recordEvent)

variable {r : RandomSecret} {settings : Engine.Settings}

-- ---------------------------------------------------------------------------
-- What is recorded
-- ---------------------------------------------------------------------------

/-- A patch that names an update, if it is one of the status. -/
def NamesUpdate (update : Option String) (patch : Json) : Prop :=
  (∃ finalizers, patch = finalizersPatch finalizers) ∨
    ∃ s : Status, s.lastVaultSecretUpdate = update ∧ patch = statusPatch s.toJson

/-- All patches that are asked for name the same update, which is that of the secret or the time of
a write that Vault took. -/
structure Hands (r : RandomSecret) (es : List Event) (update : Option String) : Prop where
  names : ∀ e ∈ es, ∀ patch ∈ e.patch? (Object.randomSecret r).ref, NamesUpdate update patch
  kept : (∀ w ∈ writes es, ∀ response, w.answer ≠ .ok response) → update = lastUpdate? r
  written : (∃ w ∈ writes es, ∃ response, w.answer = .ok response) →
    (∃ status, .call (.cluster (.patchStatus (Object.randomSecret r).ref status)) (.ok ()) ∈ es) →
      ∃ now ∈ times es, update = some now.write

theorem sync_outcome (h : Exec ((Object.randomSecret r).sync settings) es (some outcome)) :
    (∃ sync, outcome.result = .ok sync ∧ sync.wrote) ↔
      ∃ w ∈ writes es, ∃ response, w.answer = .ok response := by
  obtain ⟨result, hpass, hresult⟩ := Object.sync_exec (by nofun) h
  obtain ⟨ended, rfl, rfl⟩ := Option.map_eq_some_iff.1 hresult.symm
  have hdisciplined := (Engine.reconcile_course keepsSession hpass).disciplined keepsSession
  simpa using hdisciplined.wrote

theorem hands_of_idle (hpatch : ∀ c answer, .call c answer ∈ es → c.isPatch = false) :
    Hands r es (lastUpdate? r) where
  names e he patch hmem := by
    rw [Watch.patch?_eq_none hpatch he] at hmem
    cases hmem
  kept _ := rfl
  written := by
    rintro - ⟨status, hmem⟩
    cases hpatch _ _ hmem

/-- The update that the status names after a pass. -/
def updateAfter (r : RandomSecret) (outcome : PassOutcome) (now nextPass : Instant) :
    Option String :=
  (Status.next r.status r.metadata.generation outcome.result true now
    nextPass).lastVaultSecretUpdate

theorem updateAfter_of_unwritten
    (hsync : Exec ((Object.randomSecret r).sync settings) es (some outcome))
    (hnone : ∀ w ∈ writes es, ∀ response, w.answer ≠ .ok response) :
    updateAfter r outcome now nextPass = lastUpdate? r := by
  rw [updateAfter, Status.lastVaultSecretUpdate_next]
  split
  · next sync hresult =>
    have hkept : ¬ sync.wrote := fun hwrote => by
      obtain ⟨w, hw, response, hok⟩ := (sync_outcome hsync).1 ⟨sync, hresult, hwrote⟩
      exact hnone w hw response hok
    exact if_neg hkept
  · rfl

theorem updateAfter_of_written
    (hsync : Exec ((Object.randomSecret r).sync settings) es (some outcome))
    (hwrote : ∃ w ∈ writes es, ∃ response, w.answer = .ok response) :
    updateAfter r outcome now nextPass = some now.write := by
  obtain ⟨sync, hresult, hwrote⟩ := (sync_outcome hsync).2 hwrote
  rw [updateAfter, Status.lastVaultSecretUpdate_next, hresult]
  exact if_pos hwrote

theorem namesUpdate_of_record (hpatch : patch ∈ (recordEvent (.randomSecret r) outcome now nextPass
      answer).patch? (Object.randomSecret r).ref) :
    NamesUpdate (updateAfter r outcome now nextPass) patch :=
  .inr ⟨_, rfl, (Option.some.inj ((if_pos rfl).symm.trans hpatch)).symm⟩

/-- What is recorded of a pass that came to its end. -/
theorem hands_of_record (hsync : Exec ((Object.randomSecret r).sync settings) es (some outcome))
    (hcounts : ∀ c answer, .call c answer ∉ counts) :
    Hands r (.count metric :: (es ++ clockEvent now :: clockEvent now' ::
        recordEvent (.randomSecret r) outcome now nextPass answer :: counts))
      (updateAfter r outcome now nextPass) := by
  have hquiet := Object.not_isPatch_of_sync hsync
  have hwrites : writes (.count metric :: (es ++ clockEvent now :: clockEvent now' ::
      recordEvent (.randomSecret r) outcome now nextPass answer :: counts)) = writes es := by
    have hnone : writes counts = [] :=
      writes_eq_nil_of_writesNothing fun c answer hmem => (hcounts c answer hmem).elim
    rw [writes_cons_count, writes_append]
    show writes es ++ writes counts = writes es
    rw [hnone, List.append_nil]
  constructor
  · intro e he patch hpatch
    rcases List.mem_cons.1 he with rfl | he
    · cases hpatch
    rcases List.mem_append.1 he with he | he
    · rw [Watch.patch?_eq_none hquiet he] at hpatch
      cases hpatch
    simp only [List.mem_cons] at he
    rcases he with rfl | rfl | rfl | he
    · cases hpatch
    · cases hpatch
    · exact namesUpdate_of_record hpatch
    · cases e with
      | call c answer => exact absurd he (hcounts c answer)
      | count => cases hpatch
  · rw [hwrites]
    exact updateAfter_of_unwritten hsync
  · rw [hwrites]
    intro hwrote _
    exact ⟨now, mem_times.2 (by simp [clockEvent]), updateAfter_of_written hsync hwrote⟩

theorem hands_of_pass (h : PassEnd settings (.randomSecret r) es) :
    ∃ update, Hands r es update := by
  have hquiet {es x} (hsync : Exec ((Object.randomSecret r).sync settings) es x) :=
    Object.not_isPatch_of_sync hsync
  cases h with
  | aborted hsync =>
    refine ⟨_, hands_of_idle fun c answer hmem => ?_⟩
    exact hquiet hsync c answer ((List.mem_cons.1 hmem).resolve_left nofun)
  | ended outcome hsync hrecord =>
    cases hrecord with
    | unscheduled now now' =>
      refine ⟨_, hands_of_idle fun c answer hmem => ?_⟩
      have hmem := (List.mem_cons.1 hmem).resolve_left nofun
      rcases List.mem_append.1 hmem with hmem | hmem
      · exact hquiet hsync c answer hmem
      · simp only [clockEvent, List.mem_cons, List.not_mem_nil, or_false] at hmem
        rcases hmem with hmem | hmem <;> cases hmem <;> rfl
    | recorded now now' nextPass answer hcounts => exact ⟨_, hands_of_record hsync hcounts⟩

theorem hands_of_unwritten (hwrites : writes es = [])
    (hnames : ∀ e ∈ es, ∀ patch ∈ e.patch? (Object.randomSecret r).ref,
      NamesUpdate (lastUpdate? r) patch) : Hands r es (lastUpdate? r) where
  names := hnames
  kept _ := rfl
  written := by simp [hwrites]

theorem Hands.clock (h : Hands r es update) : Hands r (clockEvent now :: es) update where
  names e he patch hpatch := by
    rcases List.mem_cons.1 he with rfl | he
    · cases hpatch
    · exact h.names e he patch hpatch
  kept := h.kept
  written hwrote hrecorded := by
    obtain ⟨status, hmem⟩ := hrecorded
    have hmem := (List.mem_cons.1 hmem).resolve_left nofun
    obtain ⟨now, hnow, hupdate⟩ := h.written hwrote ⟨status, hmem⟩
    exact ⟨now, mem_times.2 (List.mem_cons_of_mem _ (mem_times.1 hnow)), hupdate⟩

theorem namesUpdate_of_finalizers
    (hpatch : patch ∈ (Watch.finalizersEvent (.randomSecret r) finalizers answer).patch?
      (Object.randomSecret r).ref) : NamesUpdate update patch := by
  rw [Watch.patch?_finalizersEvent] at hpatch
  exact .inl ⟨finalizers, (Option.some.inj hpatch).symm⟩

/-- A status says what it said of the update when the object could not be deleted. -/
theorem namesUpdate_of_blocked (hpatch : patch ∈ (Watch.blockedEvent (.randomSecret r) e now
      answer).patch? (Object.randomSecret r).ref) : NamesUpdate (lastUpdate? r) patch := by
  obtain rfl := Option.some.inj ((if_pos rfl).symm.trans hpatch)
  refine .inr ⟨Status.deleting r.status e now, ?_, rfl⟩
  rw [lastUpdate?]
  cases r.status <;> rfl

theorem hands_of_deletion
    (hdelete : (Object.randomSecret r).Deletion settings deletion result)
    (hwrites : writes rest = [])
    (hnames : ∀ e ∈ rest, ∀ patch ∈ e.patch? (Object.randomSecret r).ref,
      NamesUpdate (lastUpdate? r) patch) :
    Hands r (deletion ++ rest) (lastUpdate? r) := by
  refine hands_of_unwritten ?_ (List.forall_mem_append.2 ⟨fun e he patch hpatch => ?_, hnames⟩)
  · rw [writes_append, Watch.writes_deletion hdelete, hwrites, List.append_nil]
  · have hquiet c answer hmem := (hdelete.calls c answer hmem).2
    rw [Watch.patch?_eq_none hquiet he] at hpatch
    cases hpatch

theorem hands_of_run (h : RunEnd settings (.randomSecret r) es) : ∃ update, Hands r es update := by
  cases h with
  | gone => exact ⟨lastUpdate? r, hands_of_idle fun _ _ hmem => nomatch hmem⟩
  | guarded =>
    refine ⟨lastUpdate? r, hands_of_unwritten rfl fun e he patch hpatch => ?_⟩
    obtain rfl := List.mem_singleton.1 he
    exact namesUpdate_of_finalizers hpatch
  | released _ _ hdelete =>
    refine ⟨lastUpdate? r, hands_of_deletion hdelete rfl fun e he patch hpatch => ?_⟩
    obtain rfl := List.mem_singleton.1 he
    exact namesUpdate_of_finalizers hpatch
  | blocked _ _ hdelete =>
    refine ⟨lastUpdate? r, hands_of_deletion hdelete rfl fun e he patch hpatch => ?_⟩
    simp only [List.mem_cons, List.not_mem_nil, or_false] at he
    rcases he with rfl | rfl
    · cases hpatch
    · exact namesUpdate_of_blocked hpatch
  | skipped =>
    refine ⟨lastUpdate? r, hands_of_idle fun c answer hmem => ?_⟩
    cases List.mem_singleton.1 hmem
    rfl
  | passed _ _ _ _ hpass =>
    obtain ⟨update, hhands⟩ := hands_of_pass hpass
    exact ⟨update, hhands.clock⟩

-- ---------------------------------------------------------------------------
-- What is stored
-- ---------------------------------------------------------------------------

theorem showsUpdate_patched (h : NamesUpdate (some time) patch)
    (hstored : ShowsUpdate time stored) : ShowsUpdate time (stored.mergePatch patch) := by
  rcases h with ⟨finalizers, rfl⟩ | ⟨s, hs, rfl⟩
  · exact hstored.patchFinalizers finalizers
  · exact showsUpdate_of_patch stored hs

theorem seen_eq {turn : Turn} (h : turn.Takes .randomSecret stored next) :
    ∃ r, turn.seen = .randomSecret r ∧ RandomSecret.ofJson? stored = some r := by
  obtain ⟨r, hread, hseen⟩ := Option.map_eq_some_iff.1 h.seen
  exact ⟨r, hseen.symm, hread⟩

/-- A look at which nothing is written hands on what is stored of the last update. -/
theorem showsUpdate_kept {turn : Turn} (h : turn.Takes .randomSecret stored next)
    (hwrites : ¬ turn.Writes) (hshows : ShowsUpdate time stored) : ShowsUpdate time next := by
  obtain ⟨c, table, result, hpass⟩ := h.pass
  obtain ⟨r, hseen, hread⟩ := seen_eq h
  have hstores := h.stores
  rw [hseen] at hpass hstores
  obtain ⟨update, hhands⟩ := hands_of_run (Watch.run_ends hpass)
  have hupdate : update = some time := by
    rw [hhands.kept fun w hw response hok => hwrites ⟨w, hw, response, hok⟩,
      hshows.lastUpdate?_eq hread]
  subst hupdate
  exact hstores.invariant hshows (fun _ _ hedit hs => hs.edited hedit) fun e he patch hpatch s hs =>
    showsUpdate_patched (hhands.names e he patch hpatch) hs

/-- The cluster took a status that names the time of the write, which the clock had shown. -/
def RecordsAt (turn : Turn) (written : Instant) : Prop :=
  written ∈ times turn.events ∧
    ∃ status, .call (.cluster (.patchStatus turn.seen.ref status)) (.ok ()) ∈ turn.events ∧
      status.get? "lastVaultSecretUpdate" = some (.str written.write)

theorem namesUpdate_statusPatch (h : NamesUpdate (some time) (statusPatch status)) :
    status.get? "lastVaultSecretUpdate" = some (.str time) ∧
      ∀ stored : Json, ShowsUpdate time (stored.mergePatch (statusPatch status)) := by
  rcases h with ⟨finalizers, hpatch⟩ | ⟨s, hs, hpatch⟩
  · have hstatus := congrArg (·.get? "status") hpatch
    simp only [get?_statusPatch, get?_finalizersPatch] at hstatus
    cases hstatus
  · have hstatus := congrArg (·.get? "status") hpatch
    simp only [get?_statusPatch, Option.some.injEq] at hstatus
    subst hstatus
    exact ⟨s.get?_lastVaultSecretUpdate_toJson hs, fun stored => showsUpdate_of_patch stored hs⟩

/-- A look at which a value is written leaves the time of it, if its record was made. -/
theorem showsUpdate_written {turn : Turn} (h : turn.Takes .randomSecret stored next)
    (hwrites : turn.Writes) (hrecorded : turn.IsRecorded) :
    ∃ written, RecordsAt turn written ∧ ShowsUpdate written.write next := by
  obtain ⟨c, table, result, hpass⟩ := h.pass
  obtain ⟨r, hseen, -⟩ := seen_eq h
  obtain ⟨status, hmade⟩ := hrecorded
  have hstores := h.stores
  rw [hseen] at hpass hstores hmade
  obtain ⟨update, hhands⟩ := hands_of_run (Watch.run_ends hpass)
  obtain ⟨written, htime, rfl⟩ := hhands.written hwrites ⟨status, hmade⟩
  have hpatch : Event.patch? (Object.randomSecret r).ref
      (.call (.cluster (.patchStatus (Object.randomSecret r).ref status)) (.ok ())) =
        some (statusPatch status) := if_pos rfl
  obtain ⟨hnames, hshows⟩ := namesUpdate_statusPatch (hhands.names _ hmade _ hpatch)
  refine ⟨written, ⟨htime, status, hseen ▸ hmade, hnames⟩, ?_⟩
  refine hstores.established (fun _ _ hedit hs => hs.edited hedit) (fun e he patch hpatch s hs =>
    showsUpdate_patched (hhands.names e he patch hpatch) hs) ⟨_, hmade, nofun, _, hpatch, hshows⟩

-- ---------------------------------------------------------------------------
-- Many looks
-- ---------------------------------------------------------------------------

/-- Of an update no earlier than `written` the stored status tells. -/
def ShowsSince (written : Instant) (stored : Json) : Prop :=
  ∃ last : Instant, last.IsOrdinary ∧ written.le last ∧ ShowsUpdate last.write stored

theorem showsSince_of_turns (h : Turns .randomSecret turns stored final)
    (hclock : ∀ t ∈ times (turns.flatMap (·.events)), t.IsOrdinary ∧ written.le t)
    (hrecorded : ∀ turn ∈ turns, turn.Writes → turn.IsRecorded)
    (hstored : ShowsSince written stored) : ShowsSince written final := by
  refine h.invariant hstored fun turn hmem s t hturn hs => ?_
  -- a look that writes names a time that the clock showed, and any other hands on the one it saw
  by_cases hwrites : turn.Writes
  · obtain ⟨last, ⟨htime, -⟩, hshows⟩ :=
      showsUpdate_written hturn hwrites (hrecorded turn hmem hwrites)
    have htime : last ∈ times (turns.flatMap (·.events)) :=
      mem_times.2 (List.mem_flatMap.2 ⟨turn, hmem, mem_times.1 htime⟩)
    exact ⟨last, (hclock last htime).1, (hclock last htime).2, hshows⟩
  · obtain ⟨last, hordinary, hlast, hshows⟩ := hs
    exact ⟨last, hordinary, hlast, showsUpdate_kept hturn hwrites hshows⟩

theorem showsUpdate_of_turns (h : Turns .randomSecret turns stored final)
    (hwrites : ∀ turn ∈ turns, ¬ turn.Writes) (hstored : ShowsUpdate time stored) :
    ShowsUpdate time final :=
  h.invariant hstored fun turn hmem _ _ hturn hs => showsUpdate_kept hturn (hwrites turn hmem) hs

end VaultOperator.RandomSecret
