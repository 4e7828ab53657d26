import VaultOperator.Memory.World
import VaultOperator.Proofs.Status.ReadBack
import VaultOperator.Proofs.Time.Rfc3339
import VaultOperator.Proofs.Watch.Life
import VaultOperator.Proofs.Watch.Turns

/-!
# When the next pass is due

A look at an object whose declaration was seen waits while more than the tolerance is left until the
next pass is due, and asks for nothing but to be woken then; any other look goes on to a pass
(`reconcile_active`). What is due is read from the stored status as the last pass wrote it
(`ShowsSchedule`), so that of two passes over one declaration the later one is never early
(`skip_guard`).
-/

namespace VaultOperator

open Json
open Program (Exec)

/-- The declaration was seen by a pass, and more than the tolerance is left until the next one is
due. -/
structure Status.Waits (generation : Option Int) (status : Option Status) (now due : Instant) :
    Prop where
  is_seen : ∃ g, generation = some g ∧ status.bind (·.observedGeneration) = some g
  is_due : (status.bind (·.nextReconcileTime)).bind Instant.read? = some due
  is_early : toleranceNanos < due.nanosSince now

theorem Status.skipRemaining?_eq_some {generation : Option Int} {status : Option Status} :
    skipRemaining? generation status now = some nanos ↔
      ∃ due, Waits generation status now due ∧ nanos = (due.nanosSince now).toNat := by
  cases status with
  | none => exact ⟨nofun, fun ⟨_, hwaits, _⟩ => nomatch hwaits.is_due⟩
  | some s =>
    cases generation with
    | none => exact ⟨nofun, fun ⟨_, ⟨⟨_, hgeneration, _⟩, _, _⟩, _⟩ => nomatch hgeneration⟩
    | some g =>
      simp only [skipRemaining?, Option.bind_eq_bind, Option.bind_some]
      constructor
      · intro h
        split at h
        · next hseen =>
          obtain ⟨due, hdue, h⟩ := Option.bind_eq_some_iff.1 h
          split at h
          · next hearly => exact ⟨due, ⟨⟨g, rfl, hseen⟩, hdue, hearly⟩, (Option.some.inj h).symm⟩
          · cases h
        · cases h
      · rintro ⟨due, ⟨⟨_, ⟨⟩, hseen⟩, hdue, hearly⟩, rfl⟩
        rw [Option.bind_some] at hseen hdue
        rw [if_pos hseen, hdue, Option.bind_some, if_pos hearly]

namespace Watch

/-- The object has the finalizer and is not being deleted. -/
structure IsActive (o : Object) : Prop where
  kept : ¬ o.metadata.deleting
  guarded : o.metadata.hasFinalizer

/-- The clock is looked at, and then there is a pass. -/
def PassesAt (o : Object) (now : Instant) (es : List Event) : Prop :=
  ∃ rest, es = clockEvent now :: .count (.reconciliation o.kind.name) :: rest

theorem PassEnd.passesAt {c : Engine.Settings} (h : PassEnd c o es) :
    PassesAt o now (clockEvent now :: es) := by
  cases h <;> exact ⟨_, rfl⟩

theorem reconcile_active (hactive : IsActive o) (h : Exec (reconcile c o table) es r) :
    ∃ now,
      (∃ due nanos, Status.Waits o.metadata.generation o.status now due ∧
        (nanos : Nat) = due.nanosSince now ∧ es = [clockEvent now] ∧
        r = some (.ok (.requeue nanos), table)) ∨
      ((∀ due, ¬ Status.Waits o.metadata.generation o.status now due) ∧
        ∃ rest, es = clockEvent now :: rest ∧ PassEnd (settings c) o rest) := by
  have hrun : Exec ((run c (settings c) o).run.run table) es r := h
  rw [run, if_neg hactive.kept, if_pos hactive.guarded] at hrun
  rcases Watching.exec_lift_bind.1 hrun with ⟨now, _, es₁, hclock, hrest, rfl⟩ | ⟨hclock, -⟩ <;>
    obtain ⟨_, rfl, ⟨⟩⟩ := Program.exec_ask.1 hclock
  refine ⟨now, ?_⟩
  split at hrest
  case h_1 nanos hskip =>
    obtain ⟨due, hwaits, rfl⟩ := Status.skipRemaining?_eq_some.1 hskip
    obtain ⟨rfl, rfl⟩ := Program.exec_done.1 hrest
    have hearly := hwaits.is_early
    refine .inl ⟨due, _, hwaits, Int.toNat_of_nonneg ?_, rfl, rfl⟩
    exact Int.le_trans (by decide) (Int.le_of_lt hearly)
  case h_2 hdue =>
    refine .inr ⟨fun due hwaits => ?_, _, rfl, syncAndRecord_ends hrest⟩
    have hskip := Status.skipRemaining?_eq_some.2 ⟨due, hwaits, rfl⟩
    rw [hdue] at hskip
    cases hskip

-- ---------------------------------------------------------------------------
-- The schedule that the cluster stores
-- ---------------------------------------------------------------------------

/-- The stored status tells which declaration was seen, and when the next pass is due. -/
structure ShowsSchedule (generation : Int) (due : String) (stored : Json) : Prop where
  observedGeneration :
    (stored.get? "status").bind (·.get? "observedGeneration") = some (.int generation)
  nextReconcileTime : (stored.get? "status").bind (·.get? "nextReconcileTime") = some (.str due)

theorem ShowsSchedule.edited {edited : Json} (h : ShowsSchedule g due stored)
    (hedit : edited.get? "status" = stored.get? "status") : ShowsSchedule g due edited := by
  constructor
  · rw [hedit]
    exact h.observedGeneration
  · rw [hedit]
    exact h.nextReconcileTime

/-- Whoever reads the object finds the schedule. -/
theorem ShowsSchedule.status_eq {o : Object} (h : ShowsSchedule g due stored)
    (hread : Object.ofJson? kind stored = some o) :
    o.status.bind (·.observedGeneration) = some g ∧
      o.status.bind (·.nextReconcileTime) = some due := by
  obtain ⟨status, hstatus, hgeneration⟩ := Option.bind_eq_some_iff.1 h.observedGeneration
  have hdue := h.nextReconcileTime
  rw [hstatus, Option.bind_some] at hdue
  obtain ⟨fields, rfl, -⟩ := exists_obj_of_get? hstatus
  obtain ⟨statusFields, rfl, hgeneration⟩ := exists_obj_of_get? hgeneration
  obtain ⟨s, hsome, hs⟩ := Object.exists_status hread hstatus
  have hreadGeneration : nullable (signed? 64) (.int g) = some s.observedGeneration := by
    rw [← hs.observedGeneration, show (Dict.ofList statusFields).get? _ = _ from hgeneration]
    rfl
  have hreadDue : nullable str? (.str due) = some s.nextReconcileTime := by
    rw [← hs.nextReconcileTime, show (Dict.ofList statusFields).get? _ = _ from hdue]
    rfl
  obtain ⟨g', hfits, hsame⟩ := Option.map_eq_some_iff.1 hreadGeneration
  obtain rfl := eq_of_signed? hfits
  rw [hsome]
  exact ⟨hsame.symm, (Option.some.inj hreadDue).symm⟩

/-- The fields of a status that tell of the schedule. -/
structure NamesSchedule (g : Int) (due : String) (fields : List (String × Json)) : Prop where
  nodup : (fields.map (·.1)).Nodup
  observedGeneration : Dict.lookup "observedGeneration" fields = some (.int g)
  nextReconcileTime : Dict.lookup "nextReconcileTime" fields = some (.str due)

theorem Status.namesSchedule {s : Status} (hgeneration : s.observedGeneration = some g)
    (hdue : s.nextReconcileTime = some due) : NamesSchedule g due s.fields := by
  refine ⟨s.nodup_fields, ?_, ?_⟩ <;> simp [Status.fields, hgeneration, hdue, ofOption, Dict.lookup]

theorem Object.exists_namesSchedule {o : Object} (hgeneration : o.metadata.generation = some g)
    (outcome : PassOutcome) (now nextPass : Instant) :
    ∃ fields, o.statusAfter outcome now nextPass = Json.record fields ∧
      NamesSchedule g nextPass.write fields := by
  have hnext (previous result recordsWriteTime) :
      (Status.next previous o.metadata.generation result recordsWriteTime now
          nextPass).observedGeneration = some g ∧
        (Status.next previous o.metadata.generation result recordsWriteTime now
          nextPass).nextReconcileTime = some nextPass.write := by
    cases result <;> exact ⟨hgeneration, rfl⟩
  cases o with
  | pki p =>
    obtain ⟨hseen, hdue⟩ := hnext (p.status.map (·.common)) outcome.result false
    have hcommon : NamesSchedule g nextPass.write
        (Object.pkiStatusAfter p outcome now nextPass).common.fields :=
      Status.namesSchedule hseen hdue
    refine ⟨_, rfl, PkiStatus.nodup_fields _, ?_, ?_⟩
    · rw [Dict.lookup_append, hcommon.observedGeneration, Option.some_or]
    · rw [Dict.lookup_append, hcommon.nextReconcileTime, Option.some_or]
  | _ =>
    obtain ⟨hseen, hdue⟩ := hnext _ _ _
    exact ⟨_, rfl, Status.namesSchedule hseen hdue⟩

theorem NamesSchedule.get? (h : NamesSchedule g due fields) :
    (Json.record fields).get? "nextReconcileTime" = some (.str due) := by
  rw [Json.record, Json.get?_ofDict, Dict.get?_ofList_of_nodup h.nodup, h.nextReconcileTime]

theorem NamesSchedule.showsSchedule (h : NamesSchedule g due fields) (stored : Json) :
    ShowsSchedule g due (stored.mergePatch (statusPatch (Json.record fields))) := by
  have hne : Json.record fields ≠ .null := by simp [Json.record, ofDict]
  constructor
  all_goals
    rw [get?_status_statusPatch hne, Option.bind_some, get?_mergePatch_record h.nodup]
  · rw [h.observedGeneration]
    simp [mergedField, mergePatch]
  · rw [h.nextReconcileTime]
    simp [mergedField, mergePatch]

-- ---------------------------------------------------------------------------
-- Many looks
-- ---------------------------------------------------------------------------

/-- The cluster took a status by which the next pass is due at `next`. -/
def Turn.Schedules (turn : Turn) (next : Instant) : Prop :=
  ∃ status, .call (.cluster (.patchStatus turn.seen.ref status)) (.ok ()) ∈ turn.events ∧
    status.get? "nextReconcileTime" = some (.str next.write)

theorem RecordEnd.patch_unique (h : RecordEnd o outcome es) :
    ∃ call : Call, ∀ c answer, .call c answer ∈ es → c.isPatch → c = call := by
  cases h with
  | unscheduled now now' =>
    refine ⟨.clock, fun c answer hc hpatch => ?_⟩
    simp only [clockEvent, List.mem_cons, List.not_mem_nil, or_false] at hc
    rcases hc with hc | hc <;> cases hc <;> rfl
  | recorded now now' nextPass recorded hcounts =>
    refine ⟨.cluster (.patchStatus o.ref (o.statusAfter outcome now nextPass)),
      fun c answer hc hpatch => ?_⟩
    simp only [List.mem_cons] at hc
    rcases hc with hc | hc | hc | hc
    · cases hc
      cases hpatch
    · cases hc
      cases hpatch
    · cases hc
      rfl
    · exact absurd hc (hcounts c answer)

/-- A pass asks for one patch at most. -/
theorem PassEnd.patch_unique {c : Engine.Settings} (h : PassEnd c o es) :
    ∃ call : Call, ∀ c answer, .call c answer ∈ es → c.isPatch → c = call := by
  cases h with
  | aborted hsync =>
    refine ⟨.clock, fun c answer hc hpatch => ?_⟩
    have hc := (List.mem_cons.1 hc).resolve_left nofun
    rw [Object.not_isPatch_of_sync hsync c answer hc] at hpatch
    cases hpatch
  | ended outcome hsync hrecord =>
    obtain ⟨call, hunique⟩ := hrecord.patch_unique
    refine ⟨call, fun c answer hc hpatch => ?_⟩
    have hc := (List.mem_cons.1 hc).resolve_left nofun
    rcases List.mem_append.1 hc with hc | hc
    · rw [Object.not_isPatch_of_sync hsync c answer hc] at hpatch
      cases hpatch
    · exact hunique c answer hc hpatch

theorem mem_of_isPatch {call : Call} {answer : call.Answer}
    (h : .call call answer ∈ clockEvent now :: es) (hpatch : call.isPatch) :
    .call call answer ∈ es := by
  rcases List.mem_cons.1 h with h | h
  · cases h
    cases hpatch
  · exact h

/-- A pass whose record was taken leaves its schedule, whatever is edited beside it. -/
theorem Turn.Takes.showsSchedule {turn : Turn} (h : turn.Takes kind stored left)
    (hactive : IsActive turn.seen) (hgeneration : turn.seen.metadata.generation = some g)
    (hschedules : turn.Schedules next) : ShowsSchedule g next.write left := by
  obtain ⟨c, table, r, hexec⟩ := h.pass
  obtain ⟨status, hmade, hdue⟩ := hschedules
  obtain ⟨now, ⟨_, _, -, -, hes, -⟩ | ⟨-, rest, hes, hpass⟩⟩ := reconcile_active hactive hexec
  · rw [hes] at hmade
    cases List.mem_singleton.1 hmade
  have hpatch : Event.patch? turn.seen.ref
      (.call (.cluster (.patchStatus turn.seen.ref status)) (.ok ())) = some (statusPatch status) :=
    if_pos rfl
  have hinside := mem_of_isPatch (hes ▸ hmade) rfl
  obtain ⟨outcome, now', nextPass, hstatus⟩ := hpass.patch hinside rfl
  obtain ⟨fields, hfields, hnames⟩ := Object.exists_namesSchedule hgeneration outcome now' nextPass
  simp only [Call.cluster.injEq, Kubernetes.Call.patchStatus.injEq, true_and] at hstatus
  rw [hstatus, hfields, hnames.get?] at hdue
  simp only [Option.some.injEq, Json.str.injEq] at hdue
  have hshows (stored : Json) :
      ShowsSchedule g next.write (stored.mergePatch (statusPatch status)) := by
    rw [hstatus, hfields, ← hdue]
    exact hnames.showsSchedule stored
  refine h.stores.established (fun _ _ hedit hs => hs.edited hedit) ?_
    ⟨_, hmade, nofun, _, hpatch, hshows⟩
  -- no other patch is asked for in a pass
  obtain ⟨call, hunique⟩ := hpass.patch_unique
  intro e he patch hasked stored _
  cases e with
  | count => cases hasked
  | call c answer =>
    have hisPatch : c.isPatch := by
      by_contra hnone
      rw [Event.patch?, Call.patch?_eq_none (eq_false_of_ne_true hnone)] at hasked
      cases hasked
    have hsame := hunique c answer (mem_of_isPatch (hes ▸ he) hisPatch) hisPatch
    rw [← hunique _ _ hinside rfl] at hsame
    subst hsame
    obtain rfl := Option.some.inj (hpatch.symm.trans hasked)
    exact hshows stored

/-- A look that waits leaves the schedule as it is. -/
theorem Turn.Takes.showsSchedule_of_waits {turn : Turn} (h : turn.Takes kind stored left)
    (hwaits : turn.events = [clockEvent now]) (hshows : ShowsSchedule g due stored) :
    ShowsSchedule g due left := by
  refine h.stores.invariant hshows (fun _ _ hedit hs => hs.edited hedit) ?_
  intro e he patch hasked
  rw [hwaits] at he
  obtain rfl := List.mem_singleton.1 he
  cases hasked

/-- No look at an active object is but a pass or a wait. -/
theorem Turn.Takes.waits {turn : Turn} (h : turn.Takes kind stored left)
    (hactive : IsActive turn.seen) (hpass : ∀ now, ¬ PassesAt turn.seen now turn.events) :
    ∃ now, turn.events = [clockEvent now] := by
  obtain ⟨c, table, r, hexec⟩ := h.pass
  obtain ⟨now, ⟨_, _, -, -, hes, -⟩ | ⟨-, rest, hes, hrest⟩⟩ := reconcile_active hactive hexec
  · exact ⟨now, hes⟩
  · exact absurd (hes ▸ hrest.passesAt) (hpass now)

/-- Where a schedule is stored, a pass over the declaration it is for comes when it is due. -/
theorem Turn.Takes.due {turn : Turn} {next now : Instant} (h : turn.Takes kind stored left)
    (hactive : IsActive turn.seen) (hgeneration : turn.seen.metadata.generation = some g)
    (hshows : ShowsSchedule g next.write stored) (hordinary : next.IsOrdinary)
    (hpass : PassesAt turn.seen now turn.events) :
    next.nanosSince now ≤ Status.toleranceNanos := by
  by_contra hearly
  obtain ⟨hobserved, hdue⟩ := hshows.status_eq h.seen
  have hwaits : Status.Waits turn.seen.metadata.generation turn.seen.status now next := by
    refine ⟨⟨g, hgeneration, hobserved⟩, ?_, Int.not_le.1 hearly⟩
    rw [hdue, Option.bind_some, Instant.read?_write hordinary]
  obtain ⟨c, table, r, hexec⟩ := h.pass
  obtain ⟨rest, hes⟩ := hpass
  obtain ⟨now', ⟨_, _, -, -, hes', -⟩ | ⟨hdone, rest', hes', -⟩⟩ := reconcile_active hactive hexec
  · rw [hes] at hes'
    cases hes'
  · rw [hes] at hes'
    cases hes'
    exact hdone next hwaits

/-- An active object is left alone exactly while its declaration was seen and more than the tolerance
is left until its next pass is due: the clock is looked at, nobody is asked for anything, and the
object is looked at again at that very time. Of two passes over one declaration, the later one comes
no sooner than the earlier one had recorded, but for the tolerance. -/
theorem skip_guard :
    (∀ c o table es r, IsActive o → Exec (reconcile c o table) es r →
      ∃ now,
        (∃ due nanos, Status.Waits o.metadata.generation o.status now due ∧
          (nanos : Nat) = due.nanosSince now ∧ es = [clockEvent now] ∧
          r = some (.ok (.requeue nanos), table)) ∨
        ((∀ due, ¬ Status.Waits o.metadata.generation o.status now due) ∧
          ∃ rest, es = clockEvent now :: rest ∧ PassEnd (settings c) o rest)) ∧
    ∀ kind before first between later after stored final g (next now : Instant),
      Turns kind (before ++ first :: (between ++ later :: after)) stored final →
      (∀ turn ∈ first :: (between ++ [later]), IsActive turn.seen) →
      first.seen.metadata.generation = some g → later.seen.metadata.generation = some g →
      first.Schedules next → next.IsOrdinary →
      (∀ turn ∈ between, ∀ t, ¬ PassesAt turn.seen t turn.events) →
      PassesAt later.seen now later.events →
      next.nanosSince now ≤ Status.toleranceNanos := by
  refine ⟨fun c o table es r => reconcile_active, ?_⟩
  intro kind before first between later after stored final g next now hturns hactive hfirst hlater
    hschedules hordinary hnone hpass
  obtain ⟨hfirstActive, hactive⟩ := List.forall_mem_cons.1 hactive
  obtain ⟨hbetweenActive, hlaterActive⟩ := List.forall_mem_append.1 hactive
  obtain ⟨_, written, found, _, htakes, hbetween, htakesLater⟩ := hturns.between
  have hwritten := htakes.showsSchedule hfirstActive hfirst hschedules
  have hfound : ShowsSchedule g next.write found := by
    refine hbetween.invariant hwritten fun turn hmem s t hturn hshows => ?_
    obtain ⟨_, hwaits⟩ := hturn.waits (hbetweenActive turn hmem) (hnone turn hmem)
    exact hturn.showsSchedule_of_waits hwaits hshows
  exact htakesLater.due (hlaterActive later List.mem_cons_self) hlater hfound hordinary hpass

-- ---------------------------------------------------------------------------
-- A policy
-- ---------------------------------------------------------------------------

/-- The policy with the generation that the cluster counts. -/
def countedReader : Json :=
  (storedReader "path").mergePatch (Json.record [("metadata", Json.record [("generation", .int 1)])])

def readerTurn (now : Instant) (stored : Json) : Turn :=
  ⟨seenReader stored, ((reconcile {} (seenReader stored) (.new 1 10)).run
    Memory.Backends.clusterWorld
    { cluster := { objects := Dict.ofList [(readerPath, stored)] }, clock := now }).events⟩

/-- The policy after a look at it. -/
def readerLeft (now : Instant) (stored : Json) : Json :=
  storedAfter (readerTurn now stored).seen.ref (readerTurn now stored).events stored

theorem readerTurn_exec (now : Instant) (stored : Json) :
    ∃ r, Exec (reconcile {} (readerTurn now stored).seen (.new 1 10))
      (readerTurn now stored).events r :=
  ⟨_, Program.exec_run _ _ _⟩

theorem readerTurn_takes (h : (Object.ofJson? .policy stored).isSome) :
    (readerTurn now stored).Takes .policy stored (readerLeft now stored) :=
  Turn.takes_storedAfter (ofJson?_seenReader h) ⟨_, _, readerTurn_exec now stored⟩

def startsPass (o : Object) (now : Instant) : List Event → Bool
  | .call .clock t :: .count metric :: _ => t = now && metric = .reconciliation o.kind.name
  | _ => false

theorem passesAt_of_startsPass (h : startsPass o now es) : PassesAt o now es := by
  unfold startsPass at h
  split at h
  · obtain ⟨htime, hmetric⟩ := Bool.and_eq_true_iff.1 h
    obtain rfl := of_decide_eq_true htime
    obtain rfl := of_decide_eq_true hmetric
    exact ⟨_, rfl⟩
  · cases h

def namesTime (o : ObjectRef) (text : String) : Event → Bool
  | .call (.cluster (.patchStatus ref status)) (.ok _) =>
    ref = o && (status.get? "nextReconcileTime").bind Json.str? = some text
  | _ => false

theorem schedules_of_namesTime {turn : Turn} {next : Instant}
    (h : ∃ e ∈ turn.events, namesTime turn.seen.ref next.write e) : turn.Schedules next := by
  obtain ⟨e, he, h⟩ := h
  unfold namesTime at h
  split at h
  · obtain ⟨href, htext⟩ := Bool.and_eq_true_iff.1 h
    obtain rfl := of_decide_eq_true href
    obtain ⟨j, hj, htext⟩ := Option.bind_eq_some_iff.1 (of_decide_eq_true htext)
    refine ⟨_, he, ?_⟩
    cases j with
    | str text =>
      obtain rfl := Option.some.inj htext
      exact hj
    | _ => cases htext
  · cases h

instance (o : Object) : Decidable (IsActive o) :=
  decidable_of_iff (¬ o.metadata.deleting ∧ o.metadata.hasFinalizer)
    ⟨fun h => ⟨h.1, h.2⟩, fun h => ⟨h.1, h.2⟩⟩

def writingTurn : Turn := readerTurn ⟨0, 0⟩ countedReader

def readerWritten : Json := readerLeft ⟨0, 0⟩ countedReader

def waitingTurn : Turn := readerTurn ⟨297, 0⟩ readerWritten

def dueTurn : Turn := readerTurn ⟨298, 0⟩ (readerLeft ⟨297, 0⟩ readerWritten)

theorem readerTurns_facts :
    ((Object.ofJson? .policy countedReader).isSome ∧
      (Object.ofJson? .policy readerWritten).isSome ∧
      (Object.ofJson? .policy (readerLeft ⟨297, 0⟩ readerWritten)).isSome) ∧
    (∀ turn ∈ [writingTurn, waitingTurn, dueTurn], IsActive turn.seen) ∧
    (writingTurn.seen.metadata.generation = some 1 ∧ dueTurn.seen.metadata.generation = some 1) ∧
    (∃ e ∈ writingTurn.events, namesTime writingTurn.seen.ref (⟨300, 0⟩ : Instant).write e) ∧
    (waitingTurn.events.length = 1 ∧ times waitingTurn.events = [⟨297, 0⟩]) ∧
    (waitingTurn.seen.status.bind (·.nextReconcileTime)).bind Instant.read? = some ⟨300, 0⟩ ∧
    startsPass dueTurn.seen ⟨298, 0⟩ dueTurn.events := by
  decide +kernel

theorem not_passesAt (h : es.length = 1) : ¬ PassesAt o now es := by
  rintro ⟨rest, rfl⟩
  simp at h

/-- A policy is written, left alone while more than two seconds are left, and looked after again with
two seconds left. -/
theorem skip_guard_reader :
    ∃ final, Turns .policy ([] ++ writingTurn :: ([waitingTurn] ++ dueTurn :: [])) countedReader final ∧
      writingTurn.Schedules ⟨300, 0⟩ ∧ PassesAt dueTurn.seen ⟨298, 0⟩ dueTurn.events ∧
      (⟨300, 0⟩ : Instant).nanosSince ⟨298, 0⟩ ≤ Status.toleranceNanos ∧
      waitingTurn.events = [clockEvent ⟨297, 0⟩] ∧
      ∃ nanos r, Exec (reconcile {} waitingTurn.seen (.new 1 10)) waitingTurn.events (some r) ∧
        r.1 = .ok (.requeue nanos) ∧ (nanos : Int) = 3 * Instant.nanosPerSecond := by
  obtain ⟨⟨hread, hread', hread''⟩, hactive, ⟨hgeneration, hgeneration'⟩, htime,
    ⟨hlength, htimes⟩, hdue, hpass⟩ := readerTurns_facts
  obtain ⟨hone, hrun⟩ := skip_guard
  have hturns : Turns .policy ([] ++ writingTurn :: ([waitingTurn] ++ dueTurn :: []))
      countedReader _ :=
    .cons (readerTurn_takes hread) (.cons (readerTurn_takes hread')
      (.cons (readerTurn_takes hread'') .nil))
  have hschedules := schedules_of_namesTime htime
  have hpass := passesAt_of_startsPass hpass
  have hnone : ∀ turn ∈ [waitingTurn], ∀ t, ¬ PassesAt turn.seen t turn.events := by
    intro turn hmem t
    obtain rfl := List.mem_singleton.1 hmem
    exact not_passesAt hlength
  have hlate := hrun _ [] _ _ _ [] _ _ _ _ _ hturns hactive hgeneration hgeneration' hschedules
    (by decide) hnone hpass
  obtain ⟨_, hexec⟩ : ∃ r, Exec (reconcile {} waitingTurn.seen (.new 1 10)) waitingTurn.events r :=
    readerTurn_exec ⟨297, 0⟩ readerWritten
  refine ⟨_, hturns, hschedules, hpass, hlate, ?_⟩
  obtain ⟨now, ⟨due, nanos, hwaits, hnanos, hes, hresult⟩ | ⟨-, rest, hes, hrest⟩⟩ :=
    hone {} waitingTurn.seen (.new 1 10) _ _ (hactive _ (by simp)) hexec
  · rw [hes] at htimes
    obtain rfl : now = ⟨297, 0⟩ := List.cons.inj htimes |>.1
    obtain rfl := Option.some.inj (hwaits.is_due.symm.trans hdue)
    exact ⟨hes, nanos, _, hresult ▸ hexec, rfl, hnanos⟩
  · exact absurd (hes ▸ hrest.passesAt) (not_passesAt hlength)

end Watch

end VaultOperator
