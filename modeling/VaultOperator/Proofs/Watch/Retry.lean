import VaultOperator.Proofs.Backoff.Table
import VaultOperator.Proofs.Pass.Determined
import VaultOperator.Proofs.Watch.Life

/-!
# Trying again

What a look makes of the failures counted so far (`Settles`): it counts one more, forgets them, or leaves
them alone. A look that synchronized its object and could not record that forgets them first and then
counts one, so of a row of failures only those from the last such look on lengthen the delay
(`delay_in_row`), and where it is the record that fails each time the delay stays the least
(`delay_restarts`).
-/

namespace VaultOperator.Watch

open Program (Exec)
open Backoff (Table)

variable {c : Config} {s : Engine.Settings} {o : Object} {table table' : Table}

-- ---------------------------------------------------------------------------
-- What becomes of the failures counted so far
-- ---------------------------------------------------------------------------

/-- The object was synchronized with Vault; what came after may have failed. -/
def Synced (s : Engine.Settings) (o : Object) (es : List Event) : Prop :=
  ¬ o.metadata.deleting ∧ ∃ now pass outcome sync rest,
    es = clockEvent now :: .count (.reconciliation o.kind.name) :: (pass ++ rest) ∧
      Exec (o.sync s) pass (some outcome) ∧ outcome.result = .ok sync

/-- How a look ends, and what becomes of the failures counted so far. -/
inductive Settles (s : Engine.Settings) (o : Object) (table : Table) (es : List Event) :
    Except Failure Action → Table → Prop
  | kept (action : Action) : Settles s o table es (.ok action) table
  | forgotten (action : Action) : Settles s o table es (.ok action) (table.reset (key o))
  | postponed (f : Failure) (hpolicy : f.cause.retryPolicy ≠ .backoff) :
    Settles s o table es (.error f) table
  | failed (f : Failure) (hpolicy : f.cause.retryPolicy = .backoff)
    (hunsynced : ¬ Synced s o es)
    (hdelay : f.retryAfterSeconds = (table.fail (key o)).1.toNat) :
    Settles s o table es (.error f) (table.fail (key o)).2
  | unrecorded (f : Failure) (hcause : f.cause = .kubernetes e) (hsynced : Synced s o es)
    (hdelay : f.retryAfterSeconds = ((table.reset (key o)).fail (key o)).1.toNat) :
    Settles s o table es (.error f) ((table.reset (key o)).fail (key o)).2

/-- The delay after a failure, and what becomes of the failures counted so far. -/
inductive Delays (o : Object) (table : Table) (e : ReconcileError) : Nat → Table → Prop
  | fixed (seconds : Nat) (hpolicy : e.retryPolicy ≠ .backoff) : Delays o table e seconds table
  | counted (hpolicy : e.retryPolicy = .backoff) :
    Delays o table e (table.fail (key o)).1.toNat (table.fail (key o)).2

theorem failureDelay_delays (c : Config) (o : Object) (table : Table) (e : ReconcileError) :
    ∃ seconds table', (failureDelay c o e).run.run table = .done (.ok seconds, table') ∧
      Delays o table e seconds table' := by
  unfold failureDelay
  cases hpolicy : e.retryPolicy with
  | awaitSpecChange => exact ⟨_, _, rfl, .fixed _ (by simp [hpolicy])⟩
  | poll => exact ⟨_, _, rfl, .fixed _ (by simp [hpolicy])⟩
  | backoff => exact ⟨_, _, rfl, .counted hpolicy⟩

theorem Delays.settles (h : Delays o table e seconds table') (hunsynced : ¬ Synced s o es)
    {f : Failure} (hcause : f.cause = e) (hdelay : f.retryAfterSeconds = seconds) :
    Settles s o table es (.error f) table' := by
  subst hcause
  cases h with
  | fixed _ hpolicy => exact .postponed f hpolicy
  | counted hpolicy => exact .failed f hpolicy hunsynced hdelay

namespace Watching

theorem exec_tally_bind {f : Unit → Watching β}
    (h : Exec ((lift (.tally metric) >>= f).run.run table) es r) :
    ∃ rest, es = .count metric :: rest ∧ Exec ((f ()).run.run table) rest r := by
  rcases exec_lift_bind.1 h with ⟨_, _, rest, hcount, hrest, rfl⟩ | ⟨hcount, -⟩ <;>
    obtain ⟨rfl, ⟨⟩⟩ := Program.exec_tally.1 hcount
  exact ⟨rest, rfl, hrest⟩

end Watching

/-- A patch that had to succeed, and what was done after it. -/
theorem mustSucceed_bind {f : Unit → Watching Action}
    (h : Exec ((mustSucceed o answer >>= f).run.run table) es (some (r, table'))) :
    (answer = .ok () ∧ Exec ((f ()).run.run table) es (some (r, table'))) ∨
      ∃ e failure, answer = .error e ∧ r = .error failure ∧ failure.cause = .kubernetes e ∧
        failure.retryAfterSeconds = (table.fail (key o)).1.toNat ∧
        table' = (table.fail (key o)).2 := by
  cases answer with
  | ok u => exact .inl ⟨rfl, h⟩
  | error e =>
    obtain ⟨-, hdone⟩ := Program.exec_done.1 h
    cases hdone
    exact .inr ⟨e, _, rfl, rfl, rfl, rfl, rfl⟩

/-- What a look that has to make its patch comes to. -/
theorem settles_of_mustSucceed (hunsynced : ¬ Synced s o es)
    {f : Unit → Watching Action}
    (h : Exec ((mustSucceed o answer >>= f).run.run table) rest (some (r, table')))
    (hrest : Exec ((f ()).run.run table) rest (some (r, table')) →
      Settles s o table es r table') : Settles s o table es r table' := by
  rcases mustSucceed_bind h with ⟨-, hdone⟩ | ⟨e, failure, -, rfl, hcause, hdelay, rfl⟩
  · exact hrest hdone
  · exact .failed failure (by rw [hcause]; rfl) hunsynced hdelay

-- ---------------------------------------------------------------------------
-- A pass and the record of it
-- ---------------------------------------------------------------------------

/-- What a look makes of the failures once its pass ended with `result`, and the status was patched. -/
inductive ConcludesAs (o : Object) (table : Table) (delay : Nat) :
    Except ReconcileError SyncOutcome → Except Failure Action → Table → Prop
  | recorded (action : Action) : ConcludesAs o table delay (.ok sync) (.ok action) (table.reset (key o))
  | unrecorded (f : Failure) (hcause : f.cause = .kubernetes e)
    (hdelay : f.retryAfterSeconds = ((table.reset (key o)).fail (key o)).1.toNat) :
    ConcludesAs o table delay (.ok sync) (.error f) ((table.reset (key o)).fail (key o)).2
  | waiting (action : Action) (hpolicy : e.retryPolicy = .poll) :
    ConcludesAs o table delay (.error e) (.ok action) table
  | failed (f : Failure) (hcause : f.cause = e) (hdelay : f.retryAfterSeconds = delay) :
    ConcludesAs o table delay (.error e) (.error f) table

theorem conclude_as
    (h : Exec ((conclude o result delay patched).run.run table) es (some (r, table'))) :
    ConcludesAs o table delay result r table' := by
  obtain ⟨_, -, h⟩ := Watching.exec_tally_bind h
  cases result with
  | ok sync =>
    obtain ⟨_, -, h⟩ := Watching.exec_tally_bind h
    have hreset := Watching.exec_bind_of_done rfl h
    rcases mustSucceed_bind hreset with ⟨-, h⟩ | ⟨e, failure, -, rfl, hcause, hdelay, rfl⟩
    · obtain ⟨_, -, h⟩ := Watching.exec_tally_bind h
      obtain ⟨-, hdone⟩ := Program.exec_done.1 h
      cases hdone
      exact .recorded _
    · exact .unrecorded failure hcause hdelay
  | error e =>
    dsimp only at h
    split at h
    · next hpolicy =>
      obtain ⟨_, -, h⟩ := Watching.exec_tally_bind h
      obtain ⟨-, hdone⟩ := Program.exec_done.1 h
      cases hdone
      exact .waiting _ hpolicy
    · obtain ⟨-, hdone⟩ := Program.exec_done.1 h
      cases hdone
      exact .failed _ rfl rfl

theorem record_as
    (h : Exec ((record o outcome delay).run.run table) es (some (r, table'))) :
    ConcludesAs o table delay outcome.result r table' := by
  rcases Watching.exec_lift_bind.1 h with ⟨_, _, _, -, h, -⟩ | ⟨-, ⟨⟩⟩
  rcases Watching.exec_lift_bind.1 h with ⟨_, _, _, -, h, -⟩ | ⟨-, ⟨⟩⟩
  rcases Watching.exec_lift_bind.1 h with ⟨_, _, _, -, h, -⟩ | ⟨-, ⟨⟩⟩
  exact conclude_as h

/-- A pass tells by its end whether it synchronized its object. -/
theorem not_synced_of_error {pass : List Event} (hsync : Exec (o.sync s) pass (some outcome))
    (hresult : outcome.result = .error e) :
    ¬ Synced s o (clockEvent now :: .count (.reconciliation o.kind.name) :: (pass ++ rest)) := by
  rintro ⟨-, now', pass', outcome', sync, rest', heq, hsync', hresult'⟩
  obtain ⟨-, heq⟩ := List.cons.inj heq
  obtain ⟨-, heq⟩ := List.cons.inj heq
  obtain ⟨-, hsame⟩ := hsync.unique_of_append hsync' heq
  cases hsame
  rw [hresult] at hresult'
  cases hresult'

theorem syncAndRecord_settles (hkept : ¬ o.metadata.deleting) (now : Instant)
    (h : Exec ((syncAndRecord c s o).run.run table) es (some (r, table'))) :
    Settles s o table (clockEvent now :: es) r table' := by
  rw [syncAndRecord_eq] at h
  obtain ⟨_, rfl, hpass⟩ := Watching.exec_tally_bind h
  rcases Watching.exec_lift_bind.1 hpass with ⟨outcome, pass, rest, hsync, hrest, rfl⟩ | ⟨-, ⟨⟩⟩
  cases hresult : outcome.result with
  | ok sync =>
    have hsynced : Synced s o
        (clockEvent now :: .count (.reconciliation o.kind.name) :: (pass ++ rest)) :=
      ⟨hkept, now, pass, outcome, sync, rest, rfl, hsync, hresult⟩
    rw [hresult] at hrest
    have hrecord := Watching.exec_bind_of_done rfl hrest
    have hends := record_as hrecord
    rw [hresult] at hends
    cases hends with
    | recorded action => exact .forgotten action
    | unrecorded f hcause hdelay => exact .unrecorded f hcause hsynced hdelay
  | error e =>
    have hunsynced : ¬ Synced s o
        (clockEvent now :: .count (.reconciliation o.kind.name) :: (pass ++ rest)) :=
      not_synced_of_error hsync hresult
    obtain ⟨seconds, counted, hdelayed, hdelays⟩ := failureDelay_delays c o table e
    rw [hresult] at hrest
    have hrecord := Watching.exec_bind_of_done hdelayed hrest
    have hends := record_as hrecord
    rw [hresult] at hends
    cases hends with
    | waiting action hpolicy =>
      cases hdelays with
      | fixed => exact .kept action
      | counted hbackoff => rw [hpolicy] at hbackoff; cases hbackoff
    | failed f hcause hdelay => exact hdelays.settles hunsynced hcause hdelay

-- ---------------------------------------------------------------------------
-- All that can be done
-- ---------------------------------------------------------------------------

theorem not_synced_of_deleting (h : o.metadata.deleting) : ¬ Synced s o es :=
  fun hsynced => hsynced.1 h

theorem cleanUp_settles (hdeleting : o.metadata.deleting)
    (h : Exec ((cleanUp c s o).run.run table) es (some (r, table'))) :
    Settles s o table es r table' := by
  have hunsynced : ¬ Synced s o es := not_synced_of_deleting hdeleting
  rcases Watching.exec_lift_bind.1 h with ⟨result, _, rest, -, hrest, -⟩ | ⟨-, ⟨⟩⟩
  cases result with
  | ok outcome =>
    rcases Watching.exec_lift_bind.1 hrest with ⟨released, _, tail, -, htail, -⟩ | ⟨-, ⟨⟩⟩
    refine settles_of_mustSucceed hunsynced htail fun hdone => ?_
    obtain ⟨-, hdone⟩ := Program.exec_done.1 hdone
    cases hdone
    exact .forgotten _
  | error e =>
    rcases Watching.exec_lift_bind.1 hrest with ⟨now, _, tail, -, htail, -⟩ | ⟨-, ⟨⟩⟩
    rcases Watching.exec_lift_bind.1 htail with ⟨patched, _, _, -, hend, -⟩ | ⟨-, ⟨⟩⟩
    obtain ⟨seconds, counted, hdelayed, hdelays⟩ := failureDelay_delays c o table e
    obtain ⟨-, hdone⟩ := Program.exec_done.1 (Watching.exec_bind_of_done hdelayed hend)
    cases hdone
    exact hdelays.settles hunsynced rfl rfl

theorem not_synced_of_guarded :
    ¬ Synced s o ([finalizersEvent o finalizers answer] ++ rest) := by
  rintro ⟨-, now, pass, outcome, sync, rest, hevents, -⟩
  cases hevents

theorem run_settles (h : Exec ((run c s o).run.run table) es (some (r, table'))) :
    Settles s o table es r table' := by
  unfold run at h
  split at h
  · next hdeleting =>
    split at h
    · exact cleanUp_settles hdeleting h
    · obtain ⟨-, hdone⟩ := Program.exec_done.1 h
      cases hdone
      exact .kept _
  · next hkept =>
    split at h
    · rcases Watching.exec_lift_bind.1 h with ⟨now, _, rest, hclock, hrest, rfl⟩ | ⟨-, ⟨⟩⟩
      obtain ⟨_, rfl, hnow⟩ := Program.exec_ask.1 hclock
      cases hnow
      split at hrest
      · obtain ⟨-, hdone⟩ := Program.exec_done.1 hrest
        cases hdone
        exact .kept _
      · exact syncAndRecord_settles hkept now hrest
    · next hbare =>
      rcases Watching.exec_lift_bind.1 h with ⟨answer, _, rest, hadd, hrest, rfl⟩ | ⟨-, ⟨⟩⟩
      obtain ⟨_, rfl, hanswer⟩ := addFinalizer_exec hbare hadd
      cases hanswer
      refine settles_of_mustSucceed not_synced_of_guarded hrest fun hdone => ?_
      obtain ⟨-, hdone⟩ := Program.exec_done.1 hdone
      cases hdone
      exact .kept _

/-- What each look makes of the failures counted so far. -/
theorem reconcile_settles (h : Exec (reconcile c o table) es (some (r, table'))) :
    Settles (settings c) o table es r table' :=
  run_settles h

-- ---------------------------------------------------------------------------
-- Failures in a row
-- ---------------------------------------------------------------------------

/-- A look at an object that failed, and is to be made again. -/
structure Attempt where
  config : Config
  seen : Object
  events : List Event
  failure : Failure

/-- The object was synchronized, and what failed was the record of it. -/
def Attempt.IsSynced (a : Attempt) : Prop :=
  Synced (settings a.config) a.seen a.events

/-- Failures in a row of the looks at one object. Others may be looked at in between. -/
inductive Row (ref : ObjectRef) (start : Table) : List Attempt → Table → Prop
  | nil : Row ref start [] start
  | failed {before after : Table} (row : Row ref start attempts before) (href : a.seen.ref = ref)
    (h : Exec (reconcile a.config a.seen before) a.events (some (.error a.failure, after)))
    (hpolicy : a.failure.cause.retryPolicy = .backoff) : Row ref start (attempts ++ [a]) after
  | elsewhere {before : Table} (row : Row ref start attempts before) (op : Backoff.Operation)
    (hop : op.key ≠ Backoff.resourceKey ref.kind.name ref.ns ref.name) :
    Row ref start attempts (before.after op)

section

variable {ref : ObjectRef} {start : Table} {least greatest : UInt64} {n : Nat}

theorem Row.of_append {later : List Attempt} (row : Row ref start (attempts ++ later) table) :
    ∃ before, Row ref start attempts before := by
  generalize hall : attempts ++ later = all at row
  induction row generalizing later with
  | nil =>
    obtain ⟨rfl, -⟩ := List.append_eq_nil_iff.1 hall
    exact ⟨_, .nil⟩
  | failed row href h hpolicy ih =>
    rcases List.eq_nil_or_concat later with rfl | ⟨later, last, rfl⟩
    · rw [List.append_nil] at hall
      exact ⟨_, hall ▸ row.failed href h hpolicy⟩
    · rw [List.concat_eq_append, ← List.append_assoc] at hall
      exact ih (List.append_inj' hall rfl).1
  | elsewhere _ _ _ ih => exact ih hall

/-- A failure counts from one again if the object was synchronized before it. -/
theorem Settles.counts {f : Failure} (h : Settles s o table es (.error f) table')
    (hpolicy : f.cause.retryPolicy = .backoff)
    (hcounts : Table.Counts least greatest (key o) n table) :
    ∃ m, f.retryAfterSeconds = (Backoff.afterFailures least greatest m).delay.toNat ∧
      Table.Counts least greatest (key o) (m + 1) table' ∧
      (Synced s o es → m = 0) ∧ (¬ Synced s o es → m = n) := by
  have hfailed {t : Table} {m : Nat} (ht : Table.Counts least greatest (key o) m t) :
      (t.fail (key o)).1 = (Backoff.afterFailures least greatest m).delay ∧
        Table.Counts least greatest (key o) (m + 1) (t.fail (key o)).2 := by
    have hafter := ht.after (.fail (key o))
    rw [Backoff.Operation.count, if_pos rfl] at hafter
    exact ⟨congrArg Backoff.delay ht.state, hafter⟩
  cases h with
  | postponed _ hother => exact absurd hpolicy hother
  | failed _ _ hunsynced hdelay =>
    obtain ⟨hseconds, hafter⟩ := hfailed hcounts
    exact ⟨n, by rw [hdelay, hseconds], hafter, fun hsynced => absurd hsynced hunsynced,
      fun _ => rfl⟩
  | unrecorded _ _ hsynced hdelay =>
    have hreset := hcounts.after (.reset (key o))
    rw [Backoff.Operation.count, if_pos rfl] at hreset
    obtain ⟨hseconds, hafter⟩ := hfailed hreset
    exact ⟨0, by rw [hdelay, ← hseconds]; rfl, hafter, fun _ => rfl,
      fun hunsynced => absurd hsynced hunsynced⟩

/-- The failures that count at the end of a row, and the delay after the last of them. -/
structure Row.Ends (least greatest : UInt64) (ref : ObjectRef) (attempts : List Attempt) (n : Nat)
    (table : Table) : Prop where
  counts : Table.Counts least greatest (Backoff.resourceKey ref.kind.name ref.ns ref.name) n table
  none : attempts = [] → n = 0
  since : ∀ before first since, attempts = before ++ first :: since →
    (before = [] ∨ first.IsSynced) → (∀ a ∈ since, ¬ a.IsSynced) → n = since.length + 1 ∧
      ((first :: since).getLast (List.cons_ne_nil _ _)).failure.retryAfterSeconds =
        (Backoff.afterFailures least greatest since.length).delay.toNat

theorem Row.exists_ends (row : Row ref start attempts table)
    (hstart : start.states.get? (Backoff.resourceKey ref.kind.name ref.ns ref.name) = none) :
    ∃ n, Row.Ends start.minMinutes start.maxMinutes ref attempts n table := by
  induction row with
  | nil => exact ⟨0, Table.counts_of_none hstart, fun _ => rfl, fun _ _ _ h => by simp at h⟩
  | @failed attempts a _ _ _ href h hpolicy ih =>
    obtain ⟨n, hends⟩ := ih
    subst href
    obtain ⟨m, hdelay, hcounts, hsynced, hunsynced⟩ := (reconcile_settles h).counts hpolicy
      hends.counts
    refine ⟨m + 1, hcounts, fun h => by simp at h, fun before first since hall hfirst hsince => ?_⟩
    rcases List.eq_nil_or_concat since with rfl | ⟨since, last, rfl⟩
    · -- the row that counts begins with this failure
      obtain ⟨rfl, hlast⟩ := List.append_inj' hall rfl
      cases hlast
      have hm : m = 0 := by
        by_cases ha : a.IsSynced
        · exact hsynced ha
        · exact (hunsynced ha).trans (hends.none (hfirst.resolve_right ha))
      subst hm
      exact ⟨rfl, hdelay⟩
    · rw [List.concat_eq_append] at hall hsince ⊢
      rw [← List.cons_append, ← List.append_assoc] at hall
      obtain ⟨rfl, hlast⟩ := List.append_inj' hall rfl
      cases hlast
      have ha : ¬ a.IsSynced := hsince a (by simp)
      obtain ⟨hn, -⟩ := hends.since before first since rfl hfirst
        fun b hb => hsince b (List.mem_append_left _ hb)
      have hm : m = since.length + 1 := (hunsynced ha).trans hn
      subst hm
      simpa using hdelay
  | elsewhere _ op hop ih =>
    obtain ⟨n, hends⟩ := ih
    have hcounts := hends.counts.after op
    rw [Backoff.Operation.count_other hop] at hcounts
    exact ⟨n, hcounts, hends.none, hends.since⟩

end

/-- Of failures in a row those count that came since the last look that had synchronized its object
before it failed, this one included: so many delays of the Fibonacci numbers have been waited for.
Where each look fails after that, each waits for the least delay. -/
theorem delay_in_row {ref : ObjectRef} {start : Table} {before since later : List Attempt}
    {first : Attempt}
    (row : Row ref start (before ++ first :: since ++ later) table)
    (hstart : start.states.get? (Backoff.resourceKey ref.kind.name ref.ns ref.name) = none)
    (hfirst : before = [] ∨ first.IsSynced) (hsince : ∀ a ∈ since, ¬ a.IsSynced) :
    let last := (first :: since).getLast (List.cons_ne_nil _ _)
    last.failure.retryAfterSeconds =
        (Backoff.afterFailures start.minMinutes start.maxMinutes since.length).delay.toNat ∧
      (60 * start.maxMinutes.toNat < 2 ^ 64 → last.failure.retryAfterSeconds =
        60 * min start.maxMinutes.toNat (min start.minMinutes.toNat start.maxMinutes.toNat *
          Nat.fib (since.length + 1))) := by
  intro last
  obtain ⟨_, row⟩ := row.of_append
  obtain ⟨n, hends⟩ := row.exists_ends hstart
  obtain ⟨-, hdelay⟩ := hends.since before first since rfl hfirst hsince
  refine ⟨hdelay, fun hfits => hdelay.trans ?_⟩
  exact (Backoff.hasFailed_afterFailures hfits since.length).delay_eq hfits

-- ---------------------------------------------------------------------------
-- A policy
-- ---------------------------------------------------------------------------

def notNow : Kubernetes.Error :=
  .api 500 "not now" "InternalError"

/-- The policy in a cluster where some requests fail. -/
def failingCluster (requests : List String) : Memory.Cluster where
  objects := Dict.ofList [(readerPath, storedReader "path")]
  failures := Dict.ofList (requests.map fun request => (request, notNow))

def statusRequest : String := "PATCH " ++ readerPath ++ "/status"

def tokenRequest : String := "POST /api/v1/namespaces/team-a/serviceaccounts/default/token"

/-- A look at the policy while some requests fail. -/
def tryReader (requests : List String) (table : Table) :=
  (reconcile {} (seenReader (storedReader "path")) table).run Memory.Backends.clusterWorld
    { cluster := failingCluster requests, clock := ⟨0, 0⟩ }

def failure? : Option (Except Failure Action × Table) → Option (Failure × Table)
  | some (.error failure, table) => some (failure, table)
  | _ => none

/-- The failures counted after looks at the policy, while different requests failed. -/
def tableAfter (tries : List (List String)) : Table :=
  tries.foldl (fun table requests => ((tryReader requests table).result.map (·.2)).getD table)
    (.new 1 10)

def failureAfter? (tries : List (List String)) (requests : List String) : Option Failure :=
  (failure? (tryReader requests (tableAfter tries)).result).map (·.1)

/-- A failure that is not of the record of a pass. -/
def isOther : ReconcileError → Bool
  | .kubernetes _ => false
  | _ => true

/-- What is looked at here of a failure. -/
def summary (failure : Failure) : Nat × RetryPolicy × Bool :=
  (failure.retryAfterSeconds, failure.cause.retryPolicy, isOther failure.cause)

theorem Row.tried (row : Row readerRef (.new 1 10) attempts (tableAfter tries))
    (h : (failureAfter? tries requests).map summary = some (seconds, .backoff, other)) :
    ∃ a, Row readerRef (.new 1 10) (attempts ++ [a]) (tableAfter (tries ++ [requests])) ∧
      a.failure.retryAfterSeconds = seconds ∧ (other → ¬ a.IsSynced) := by
  have href : (seenReader (storedReader "path")).ref = readerRef := by decide +kernel
  have hexec : Exec (reconcile {} (seenReader (storedReader "path")) (tableAfter tries))
    (tryReader requests (tableAfter tries)).events (tryReader requests (tableAfter tries)).result :=
    Program.exec_run _ _ _
  have hafter : tableAfter (tries ++ [requests]) =
      ((tryReader requests (tableAfter tries)).result.map (·.2)).getD (tableAfter tries) := by
    simp [tableAfter]
  rw [hafter]
  rw [failureAfter?] at h
  generalize (tryReader requests (tableAfter tries)).result = result at h hexec ⊢
  rcases result with _ | ⟨failure | action, after⟩
  · cases h
  · obtain ⟨hseconds, hpolicy, hother⟩ : failure.retryAfterSeconds = seconds ∧
        failure.cause.retryPolicy = .backoff ∧ isOther failure.cause = other := by
      simpa [failure?, summary] using h
    refine ⟨⟨{}, seenReader (storedReader "path"), _, failure⟩, row.failed href hexec hpolicy,
      hseconds, fun hnot hsynced => ?_⟩
    cases reconcile_settles hexec with
    | postponed _ hwait => exact hwait hpolicy
    | failed _ _ hunsynced => exact hunsynced hsynced
    | unrecorded _ hcause =>
      rw [← hother, hcause] at hnot
      cases hnot
  · cases h

theorem summary_unrecorded :
    (failureAfter? [] [statusRequest]).map summary = some (60, .backoff, false) ∧
    (failureAfter? [[statusRequest]] [statusRequest]).map summary = some (60, .backoff, false) ∧
    (failureAfter? [[statusRequest], [statusRequest]] [statusRequest]).map summary =
      some (60, .backoff, false) := by
  decide +kernel

theorem summary_shut_out :
    (failureAfter? [[statusRequest]] [tokenRequest]).map summary = some (60, .backoff, true) ∧
    (failureAfter? [[statusRequest], [tokenRequest]] [tokenRequest]).map summary =
      some (120, .backoff, true) := by
  decide +kernel

/-- Where a policy is written again and again and its status cannot be, the delay stays the least. -/
theorem delay_restarts :
    ¬ ∀ ref least greatest attempts table, Row ref (.new least greatest) attempts table →
      60 * greatest.toNat < 2 ^ 64 → ∀ k a, attempts[k]? = some a →
        a.failure.retryAfterSeconds =
          60 * min greatest.toNat (min least.toNat greatest.toNat * Nat.fib (k + 1)) := by
  intro hclaim
  obtain ⟨hfirst, hsecond, hthird⟩ := summary_unrecorded
  have row : Row readerRef (.new 1 10) [] (tableAfter []) := .nil
  obtain ⟨first, row, -⟩ := row.tried hfirst
  obtain ⟨second, row, -⟩ := row.tried hsecond
  obtain ⟨third, row, hdelay, -⟩ := row.tried hthird
  have hclaimed := hclaim _ _ _ _ _ row (by decide) 2 third rfl
  rw [hdelay] at hclaimed
  exact absurd hclaimed (by decide)

/-- A status that cannot be written, and then no token two times: the delays grow. -/
theorem delay_in_row_reader :
    ∃ first since table, Row readerRef (.new 1 10) ([] ++ first :: since ++ []) table ∧
      (∀ a ∈ since, ¬ a.IsSynced) ∧
      ((first :: since).getLast (List.cons_ne_nil _ _)).failure.retryAfterSeconds = 120 := by
  obtain ⟨hfirst, -⟩ := summary_unrecorded
  obtain ⟨hsecond, hthird⟩ := summary_shut_out
  have row : Row readerRef (.new 1 10) [] (tableAfter []) := .nil
  obtain ⟨first, row, -⟩ := row.tried hfirst
  obtain ⟨second, row, -, hsecond⟩ := row.tried hsecond
  obtain ⟨third, row, -, hthird⟩ := row.tried hthird
  have row : Row readerRef (.new 1 10) ([] ++ first :: [second, third] ++ []) _ := row
  have hsince : ∀ a ∈ [second, third], ¬ a.IsSynced := by
    simp [hsecond, hthird]
  obtain ⟨-, hdelay⟩ := delay_in_row row rfl (.inl rfl) hsince
  exact ⟨_, _, _, row, hsince, hdelay (by decide)⟩

end VaultOperator.Watch
