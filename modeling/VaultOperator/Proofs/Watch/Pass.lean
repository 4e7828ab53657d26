import VaultOperator.Proofs.Engine.Deletion
import VaultOperator.Watch.Pass

/-!
# What is done when an object is seen

An object is deleted, given its finalizer, left alone, or there is a pass over it and a record of that
in its status (`RunEnd`). But for a pass, nothing is written to Vault and no more is recorded than what
all kinds of objects have (`run_cases`).
-/

namespace VaultOperator

/-- Neither a write to Vault nor a record of anything that only certificate authorities have. -/
def Call.KeepsAuthority : Call → Prop
  | .vault (.write ..) => False
  | .cluster (.patchStatus _ status) => ∃ s : Status, status = s.toJson
  | _ => True

namespace Watch

variable {c : Config} {settings : Engine.Settings} {o : Object} {table : Backoff.Table}

-- ---------------------------------------------------------------------------
-- Steps that ask nobody
-- ---------------------------------------------------------------------------

namespace Watching

theorem exec_lift_bind {p : Program α} {f : α → Watching β} :
    Program.Exec ((lift p >>= f).run.run table) es r ↔
      (∃ a es₁ es₂, Program.Exec p es₁ (some a) ∧ Program.Exec ((f a).run.run table) es₂ r ∧
        es = es₁ ++ es₂) ∨ (Program.Exec p es none ∧ r = none) := by
  show Program.Exec ((p.bind fun a => .done (.ok a, table)).bind fun a =>
    (ExceptT.bindCont f a.1).run a.2) es r ↔ _
  rw [Program.bind_assoc, Program.exec_bind]
  rfl

theorem concludesWith_lift {p : Program α} (h : p.Within P) : ConcludesWith P (lift p) :=
  fun _ => h.bind fun _ => Program.within_done

/-- Nobody is asked, and nothing fails. -/
def Silent (q : Watching α) : Prop :=
  ∀ table, ∃ a table', q.run.run table = .done (.ok a, table')

theorem silent_pure : Silent (pure a : Watching α) := fun _ => ⟨_, _, rfl⟩

theorem silent_nextBackoff : Silent (nextBackoff k) := fun _ => ⟨_, _, rfl⟩

theorem silent_resetBackoff : Silent (resetBackoff k) := fun _ => ⟨_, _, rfl⟩

theorem silent_failureDelay : Silent (failureDelay c o e) := by
  unfold failureDelay
  split
  · exact silent_pure
  · exact silent_pure
  · exact silent_nextBackoff

theorem exec_bind_of_done {q : Watching α} {f : α → Watching β} {table' : Backoff.Table}
    (hdone : q.run.run table = .done (.ok a, table'))
    (h : Program.Exec ((q >>= f).run.run table) es r) :
    Program.Exec ((f a).run.run table') es r := by
  have hbind : (q >>= f).run.run table = (f a).run.run table' := by
    show (q.run.run table).bind (fun a => (ExceptT.bindCont f a.1).run a.2) = _
    rw [hdone]
    rfl
  exact hbind ▸ h

theorem Silent.exec_bind {q : Watching α} {f : α → Watching β} (hq : Silent q)
    (h : Program.Exec ((q >>= f).run.run table) es r) :
    ∃ a table', Program.Exec ((f a).run.run table') es r := by
  obtain ⟨a, table', hdone⟩ := hq table
  exact ⟨a, table', exec_bind_of_done hdone h⟩

/-- Nobody is asked, and nothing is counted. -/
def Quiet (q : Watching α) : Prop :=
  ∀ table, ∃ x, q.run.run table = .done x

theorem Silent.quiet {q : Watching α} (hq : Silent q) : Quiet q := fun table =>
  let ⟨_, _, hdone⟩ := hq table
  ⟨_, hdone⟩

theorem Quiet.concludesWith {q : Watching α} (hq : Quiet q) : ConcludesWith P q := by
  intro table
  obtain ⟨x, hdone⟩ := hq table
  rw [hdone]
  exact Program.within_done

theorem quiet_fail : Quiet (fail o cause seconds : Watching α) := fun _ => ⟨_, rfl⟩

theorem Quiet.bind {q : Watching α} {f : α → Watching β} (hq : Quiet q) (hf : ∀ a, Quiet (f a)) :
    Quiet (q >>= f) := by
  intro table
  obtain ⟨⟨a | e, table'⟩, hdone⟩ := hq table
  · exact ⟨_, by show (q.run.run table).bind _ = _; rw [hdone]; rfl⟩
  · obtain ⟨x, hx⟩ := hf e table'
    exact ⟨x, by show (q.run.run table).bind _ = _; rw [hdone]; exact hx⟩

theorem Quiet.events_eq {q : Watching α} (hq : Quiet q)
    (h : Program.Exec (q.run.run table) es r) : es = [] := by
  obtain ⟨x, hdone⟩ := hq table
  rw [hdone] at h
  exact (Program.exec_done.1 h).1

theorem quiet_mustSucceed : Quiet (mustSucceed o answer) := by
  unfold mustSucceed
  split
  · exact silent_pure.quiet
  · exact silent_nextBackoff.quiet.bind fun _ => quiet_fail

end Watching

-- ---------------------------------------------------------------------------
-- A pass and the record of it
-- ---------------------------------------------------------------------------

def clockEvent (now : Instant) : Event :=
  .call .clock now

def recordEvent (o : Object) (outcome : PassOutcome) (now nextPass : Instant)
    (answer : Except Kubernetes.Error Unit) : Event :=
  .call (.cluster (.patchStatus o.ref (o.statusAfter outcome now nextPass))) answer

theorem exec_scheduleAfter : Program.Exec (scheduleAfter seconds) es r ↔
    ∃ now, es = [clockEvent now] ∧
      r = if Instant.maxSpanSeconds < seconds then some now else now.addSeconds? seconds := by
  unfold scheduleAfter
  refine Program.exec_bind.trans ⟨?_, ?_⟩
  · rintro (⟨now, _, rest, hclock, hrest, rfl⟩ | ⟨hclock, -⟩) <;>
      obtain ⟨_, rfl, ⟨⟩⟩ := Program.exec_ask.1 hclock
    refine ⟨now, ?_⟩
    split at hrest
    · next hlong =>
      obtain ⟨rfl, rfl⟩ := Program.exec_done.1 hrest
      exact ⟨rfl, (if_pos hlong).symm⟩
    · next hshort =>
      rw [if_neg hshort]
      split at hrest
      · next hlater =>
        obtain ⟨rfl, rfl⟩ := Program.exec_done.1 hrest
        exact ⟨rfl, hlater.symm⟩
      · next hnone =>
        obtain ⟨rfl, rfl⟩ := Program.exec_abort.1 hrest
        exact ⟨rfl, hnone.symm⟩
  · rintro ⟨now, rfl, rfl⟩
    refine .inl ⟨now, [clockEvent now], [], Program.exec_ask.2 ⟨now, rfl, rfl⟩, ?_, rfl⟩
    split
    · exact .done
    · split
      · next hlater =>
        rw [hlater]
        exact .done
      · next hnone =>
        rw [hnone]
        exact .abort

theorem scheduleAfter_ends (h : Program.Exec (scheduleAfter seconds) es r) :
    ∃ now, es = [clockEvent now] :=
  (exec_scheduleAfter.1 h).imp fun _ => And.left

theorem within_tally : (Program.tally metric).Within P :=
  Program.within_count Program.within_done

def conclude (o : Object) (result : Except ReconcileError SyncOutcome) (delay : Nat)
    (patched : Except Kubernetes.Error Unit) : Watching Action := do
  Watching.lift (.tally (.reconciliationDuration o.kind.name))
  match result with
  | .ok sync =>
    Watching.lift (.tally (.syncOutcome o.kind.name sync.name))
    Watching.resetBackoff (key o)
    mustSucceed o patched
    Watching.lift (.tally (.requeue "resync"))
    return .requeueSeconds delay
  | .error e =>
    if e.retryPolicy = .poll then
      Watching.lift (.tally (.requeue "awaiting-input"))
      return .requeueSeconds delay
    else fail o e delay

def record (o : Object) (outcome : PassOutcome) (delay : Nat) : Watching Action := do
  let now ← Watching.lift (.ask .clock)
  let nextPass ← Watching.lift (scheduleAfter delay)
  let patched ← Watching.lift
    (.cluster (.patchStatus o.ref (o.statusAfter outcome now nextPass)))
  conclude o outcome.result delay patched

/-- The seconds to wait for the next pass after one that ended. -/
def delayAfter (c : Config) (o : Object) : Except ReconcileError SyncOutcome → Watching Nat
  | .ok _ => pure c.resyncSeconds.toNat
  | .error e => failureDelay c o e

theorem syncAndRecord_eq : syncAndRecord c settings o = (do
    Watching.lift (.tally (.reconciliation o.kind.name))
    let outcome ← Watching.lift (o.sync settings)
    let delay ← delayAfter c o outcome.result
    record o outcome delay) := by
  unfold syncAndRecord delayAfter
  refine bind_congr fun _ => bind_congr fun outcome => ?_
  obtain ⟨result, progress⟩ := outcome
  cases result <;> rfl

theorem silent_delayAfter : Watching.Silent (delayAfter c o result) := by
  unfold delayAfter
  split
  · exact Watching.silent_pure
  · exact Watching.silent_failureDelay

/-- Once the status is patched nobody is asked anything. -/
theorem concludesWith_conclude : ConcludesWith (fun _ => False) (conclude o result delay patched) := by
  have htally {metric : Metric} : ConcludesWith (fun _ => False) (Watching.lift (.tally metric)) :=
    Watching.concludesWith_lift within_tally
  unfold conclude
  refine .bind htally fun _ => ?_
  split
  · refine .bind htally fun _ => .bind Watching.silent_resetBackoff.quiet.concludesWith fun _ => ?_
    exact .bind Watching.quiet_mustSucceed.concludesWith fun _ => .bind htally fun _ => concludesWith_pure
  · split
    · exact .bind htally fun _ => concludesWith_pure
    · exact Watching.quiet_fail.concludesWith

/-- The clock is looked at twice, and then the status is patched unless the calendar ended. -/
inductive RecordEnd (o : Object) (outcome : PassOutcome) : List Event → Prop
  | unscheduled (now now' : Instant) : RecordEnd o outcome [clockEvent now, clockEvent now']
  | recorded (now now' nextPass : Instant) (answer : Except Kubernetes.Error Unit)
    (hcounts : ∀ c answer, .call c answer ∉ counts) :
    RecordEnd o outcome
      (clockEvent now :: clockEvent now' :: recordEvent o outcome now nextPass answer :: counts)

theorem record_ends (h : Program.Exec ((record o outcome delay).run.run table) es r) :
    RecordEnd o outcome es := by
  rcases Watching.exec_lift_bind.1 h with ⟨now, _, es₁, hclock, h₁, rfl⟩ | ⟨hclock, -⟩ <;>
    obtain ⟨_, rfl, ⟨⟩⟩ := Program.exec_ask.1 hclock
  rcases Watching.exec_lift_bind.1 h₁ with ⟨nextPass, _, es₂, hschedule, h₂, rfl⟩ |
    ⟨hschedule, -⟩ <;> obtain ⟨now', rfl⟩ := scheduleAfter_ends hschedule
  · rcases Watching.exec_lift_bind.1 h₂ with ⟨answer, _, es₃, hpatch, h₃, rfl⟩ | ⟨hpatch, -⟩ <;>
      obtain ⟨_, rfl, ⟨⟩⟩ := Program.exec_cluster.1 hpatch
    have hquiet := (concludesWith_conclude _ _ _ h₃).2
    exact .recorded now now' nextPass answer hquiet
  · exact .unscheduled now now'

/-- A pass and the record of it; the calendar can end in the pass too. -/
inductive PassEnd (settings : Engine.Settings) (o : Object) : List Event → Prop
  | aborted (hsync : Program.Exec (o.sync settings) es none) :
    PassEnd settings o (.count (.reconciliation o.kind.name) :: es)
  | ended (outcome : PassOutcome)
    (hsync : Program.Exec (o.sync settings) es (some outcome)) (hrecord : RecordEnd o outcome rest) :
    PassEnd settings o (.count (.reconciliation o.kind.name) :: (es ++ rest))

theorem syncAndRecord_ends (h : Program.Exec ((syncAndRecord c settings o).run.run table) es r) :
    PassEnd settings o es := by
  rw [syncAndRecord_eq] at h
  rcases Watching.exec_lift_bind.1 h with ⟨_, _, es₁, hcount, h₁, rfl⟩ | ⟨hcount, -⟩ <;>
    obtain ⟨rfl, ⟨⟩⟩ := Program.exec_tally.1 hcount
  rcases Watching.exec_lift_bind.1 h₁ with ⟨outcome, pass, es₂, hsync, h₂, rfl⟩ | ⟨hsync, -⟩
  · obtain ⟨delay, table', hrest⟩ := silent_delayAfter.exec_bind h₂
    show PassEnd settings o (_ :: (pass ++ es₂))
    exact .ended outcome hsync (record_ends hrest)
  · exact .aborted hsync

-- ---------------------------------------------------------------------------
-- All that can be done
-- ---------------------------------------------------------------------------

def finalizersEvent (o : Object) (finalizers : List String)
    (answer : Except Kubernetes.Error Unit) : Event :=
  .call (.cluster (.patchFinalizers o.ref finalizers)) answer

/-- A record of why an object could not be deleted. -/
def blockedEvent (o : Object) (e : ReconcileError) (now : Instant)
    (answer : Except Kubernetes.Error Unit) : Event :=
  .call (.cluster (.patchStatus o.ref (Status.deleting o.status e now).toJson)) answer

/-- What happens from when an object is seen until it is left to itself again. -/
inductive RunEnd (settings : Engine.Settings) (o : Object) : List Event → Prop
  | gone (hdeleting : o.metadata.deleting) (hbare : ¬ o.metadata.hasFinalizer) :
    RunEnd settings o []
  | guarded (hkept : ¬ o.metadata.deleting) (hbare : ¬ o.metadata.hasFinalizer)
    (answer : Except Kubernetes.Error Unit) :
    RunEnd settings o [finalizersEvent o (o.metadata.finalizers ++ [finalizer]) answer]
  | released (hdeleting : o.metadata.deleting) (hguarded : o.metadata.hasFinalizer)
    (hdelete : o.Deletion settings es (.ok outcome)) (answer : Except Kubernetes.Error Unit) :
    RunEnd settings o
      (es ++ [finalizersEvent o (o.metadata.finalizers.filter (· ≠ finalizer)) answer])
  | blocked (hdeleting : o.metadata.deleting) (hguarded : o.metadata.hasFinalizer)
    (hdelete : o.Deletion settings es (.error e)) (now : Instant)
    (answer : Except Kubernetes.Error Unit) :
    RunEnd settings o (es ++ [clockEvent now, blockedEvent o e now answer])
  | skipped (hkept : ¬ o.metadata.deleting) (hguarded : o.metadata.hasFinalizer) (now : Instant)
    (hskip : (Status.skipRemaining? o.metadata.generation o.status now).isSome) :
    RunEnd settings o [clockEvent now]
  | passed (hkept : ¬ o.metadata.deleting) (hguarded : o.metadata.hasFinalizer) (now : Instant)
    (hdue : Status.skipRemaining? o.metadata.generation o.status now = none)
    (hpass : PassEnd settings o es) : RunEnd settings o (clockEvent now :: es)

theorem exec_patchFinalizers (h : Program.Exec
    (Program.cluster (.patchFinalizers o.ref finalizers)) es r) :
    ∃ answer, es = [finalizersEvent o finalizers answer] ∧ r = some answer :=
  Program.exec_cluster.1 h

theorem removeFinalizer_exec (hguarded : o.metadata.hasFinalizer)
    (h : Program.Exec (removeFinalizer o) es r) :
    ∃ answer, es = [finalizersEvent o (o.metadata.finalizers.filter (· ≠ finalizer)) answer] := by
  have hwithout : withoutFinalizer o.metadata.finalizers =
      some (o.metadata.finalizers.filter (· ≠ finalizer)) := if_pos hguarded
  rw [removeFinalizer, hwithout] at h
  obtain ⟨answer, rest, rfl, hdone⟩ := Program.exec_call.1 h
  refine ⟨answer, ?_⟩
  cases answer <;> rw [(Program.exec_done.1 hdone).1] <;> rfl

theorem cleanUp_ends (hdeleting : o.metadata.deleting) (hguarded : o.metadata.hasFinalizer)
    (h : Program.Exec ((cleanUp c settings o).run.run table) es r) : RunEnd settings o es := by
  rcases Watching.exec_lift_bind.1 h with ⟨result, es₁, es₂, hdelete, h₁, rfl⟩ | ⟨hdelete, -⟩ <;>
    obtain ⟨_, ⟨⟩, hends, -⟩ := Engine.delete_trace hdelete
  have hdeletion := Object.deletion_of_ends hends
  cases result with
  | ok outcome =>
    rcases Watching.exec_lift_bind.1 h₁ with ⟨released, es₃, es₄, hremove, h₂, rfl⟩ | ⟨hremove, -⟩ <;>
      obtain ⟨answer, rfl⟩ := removeFinalizer_exec hguarded hremove
    · have hrest : Watching.Quiet (do
          mustSucceed o released
          Watching.resetBackoff (key o)
          return Action.awaitChange) :=
        Watching.quiet_mustSucceed.bind fun _ =>
          Watching.silent_resetBackoff.quiet.bind fun _ => Watching.silent_pure.quiet
      rw [hrest.events_eq h₂, List.append_nil]
      exact .released hdeleting hguarded hdeletion answer
    · exact .released hdeleting hguarded hdeletion answer
  | error e =>
    rcases Watching.exec_lift_bind.1 h₁ with ⟨now, _, es₃, hclock, h₂, rfl⟩ | ⟨hclock, -⟩ <;>
      obtain ⟨_, rfl, ⟨⟩⟩ := Program.exec_ask.1 hclock
    rcases Watching.exec_lift_bind.1 h₂ with ⟨answer, _, es₄, hpatch, h₃, rfl⟩ | ⟨hpatch, -⟩ <;>
      obtain ⟨_, rfl, ⟨⟩⟩ := Program.exec_cluster.1 hpatch
    have hrest : Watching.Quiet (do fail o e (← failureDelay c o e) : Watching Action) :=
      Watching.silent_failureDelay.quiet.bind fun _ => Watching.quiet_fail
    rw [hrest.events_eq h₃]
    exact .blocked hdeleting hguarded hdeletion now answer

theorem addFinalizer_exec (hbare : ¬ o.metadata.hasFinalizer)
    (h : Program.Exec (addFinalizer o) es r) :
    ∃ answer, es = [finalizersEvent o (o.metadata.finalizers ++ [finalizer]) answer] ∧
      r = some answer := by
  have hwith : withFinalizer o.metadata.finalizers =
      some (o.metadata.finalizers ++ [finalizer]) := if_neg hbare
  rw [addFinalizer, hwith] at h
  exact exec_patchFinalizers h

theorem run_ends (h : Program.Exec ((run c settings o).run.run table) es r) :
    RunEnd settings o es := by
  unfold run at h
  split at h
  · next hdeleting =>
    split at h
    · next hguarded => exact cleanUp_ends hdeleting hguarded h
    · next hbare =>
      rw [(Program.exec_done.1 h).1]
      exact .gone hdeleting hbare
  · next hkept =>
    split at h
    · next hguarded =>
      rcases Watching.exec_lift_bind.1 h with ⟨now, _, es₁, hclock, h₁, rfl⟩ | ⟨hclock, -⟩ <;>
        obtain ⟨_, rfl, ⟨⟩⟩ := Program.exec_ask.1 hclock
      split at h₁
      · next hskip =>
        rw [(Program.exec_done.1 h₁).1]
        exact .skipped hkept hguarded now (hskip ▸ rfl)
      · next hdue => exact .passed hkept hguarded now hdue (syncAndRecord_ends h₁)
    · next hbare =>
      rcases Watching.exec_lift_bind.1 h with ⟨answer, _, es₁, hadd, h₁, rfl⟩ | ⟨hadd, -⟩ <;>
        obtain ⟨_, rfl, ⟨⟩⟩ := addFinalizer_exec hbare hadd
      have hrest : Watching.Quiet (do
          mustSucceed o answer
          return Action.awaitChange) :=
        Watching.quiet_mustSucceed.bind fun _ => Watching.silent_pure.quiet
      rw [hrest.events_eq h₁]
      exact .guarded hkept hbare answer

theorem keepsAuthority_of_deletion (h : o.Deletion settings es result) :
    ∀ c answer, .call c answer ∈ es → c.KeepsAuthority := by
  intro c answer hmem
  obtain ⟨hwrites, hpatch⟩ := h.calls c answer hmem
  unfold Call.KeepsAuthority
  split
  · exact hwrites
  · cases hpatch
  · trivial

theorem run_cases (h : Program.Exec ((run c settings o).run.run table) es r) :
    (∀ c answer, .call c answer ∈ es → c.KeepsAuthority) ∨
      ∃ now pass, es = clockEvent now :: pass ∧ PassEnd settings o pass := by
  cases run_ends h with
  | gone => exact .inl fun _ _ hmem => nomatch hmem
  | guarded | skipped =>
    left
    intro c answer hmem
    cases List.mem_singleton.1 hmem
    trivial
  | released _ _ hdelete =>
    left
    intro c answer hmem
    rcases List.mem_append.1 hmem with hmem | hmem
    · exact keepsAuthority_of_deletion hdelete c answer hmem
    · cases List.mem_singleton.1 hmem
      trivial
  | blocked _ _ hdelete =>
    left
    intro c answer hmem
    rcases List.mem_append.1 hmem with hmem | hmem
    · exact keepsAuthority_of_deletion hdelete c answer hmem
    · rcases List.mem_cons.1 hmem with hmem | hmem
      · cases hmem
        trivial
      · cases List.mem_singleton.1 hmem
        exact ⟨_, rfl⟩
  | passed _ _ now _ hpass => exact .inr ⟨now, _, rfl, hpass⟩

end Watch

end VaultOperator
