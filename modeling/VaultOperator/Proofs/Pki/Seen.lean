import VaultOperator.Proofs.Pki.Recorded
import VaultOperator.Proofs.Watch.Pass
import VaultOperator.Proofs.Watch.Stored

/-!
# What happens when a certificate authority is seen

Either there is a pass and a record of what it hands back (`Surrounds`), or nothing that concerns the
authority (`seen_cases`).
-/

namespace VaultOperator

namespace Event

/-- What happens around passes: counts, looks at the clock and records in the status. -/
def isAside : Event → Bool
  | .count _ | .call .clock _ | .call (.cluster (.patchStatus ..)) _ => true
  | _ => false

theorem write?_eq_none_of_isAside {e : Event} (h : e.isAside) : e.write? = none := by
  unfold isAside at h
  split at h
  case h_4 => cases h
  all_goals rfl

theorem not_grantsLogin_of_isAside {e : Event} (h : e.isAside) : ¬ e.grantsLogin := by
  unfold isAside at h
  split at h
  case h_4 => cases h
  all_goals simp [grantsLogin]

end Event

namespace Pki

open VaultOperator.Path (PkiOperation)

variable {settings : Engine.Settings} {p : Pki}

/-- An event around a pass, that records nothing but what the pass hands back. -/
def IsAsideOf (p : Pki) (next : CaProgress) (e : Event) : Prop :=
  e.isAside ∧ ∀ patch ∈ e.patch? (Object.pki p).ref,
    ∃ status : PkiStatus, status.progress = next ∧ patch = statusPatch status.toJson

/-- A pass in the midst of all that happens when an authority is seen, with what the pass hands back
as the one thing that is recorded. -/
structure Surrounds (p : Pki) (next : CaProgress) (es before pass after : List Event) : Prop where
  events : es = before ++ (pass ++ after)
  aside : ∀ e ∈ before ++ after, IsAsideOf p next e

theorem sync_eq : (Object.pki p).sync settings =
    (reconcile settings p).bind fun ended => .done ⟨ended.1, some ended.2⟩ :=
  rfl

theorem exec_sync (h : Program.Exec ((Object.pki p).sync settings) es r) :
    ∃ result next, r = some ⟨result, some next⟩ ∧
      Program.Exec (reconcile settings p) es (some (result, next)) := by
  rw [sync_eq] at h
  rcases Program.exec_bind.1 h with ⟨⟨result, next⟩, es₁, es₂, hpass, hdone, rfl⟩ | ⟨hnone, rfl⟩
  · obtain ⟨rfl, rfl⟩ := Program.exec_done.1 hdone
    rw [List.append_nil]
    exact ⟨result, next, rfl, hpass⟩
  · obtain ⟨⟨result, next, hsome, -⟩, -⟩ := reconcile_ends hnone
    cases hsome

theorem isAsideOf_clock : IsAsideOf p next (Watch.clockEvent now) :=
  ⟨rfl, nofun⟩

theorem isAsideOf_count : IsAsideOf p next (.count metric) :=
  ⟨rfl, nofun⟩

theorem isAsideOf_record :
    IsAsideOf p next
      (Watch.recordEvent (.pki p) ⟨result, some next⟩ now nextPass answer) := by
  refine ⟨rfl, fun patch hpatch => ?_⟩
  have hpatch : (if (Object.pki p).ref = (Object.pki p).ref then
      some (statusPatch (Object.pkiStatusAfter p ⟨result, some next⟩ now nextPass).toJson)
    else none) = some patch := hpatch
  rw [if_pos rfl] at hpatch
  exact ⟨Object.pkiStatusAfter p ⟨result, some next⟩ now nextPass, rfl, (Option.some.inj hpatch).symm⟩

theorem record_isAsideOf (h : Watch.RecordEnd (.pki p) ⟨result, some next⟩ es) :
    ∀ e ∈ es, IsAsideOf p next e := by
  cases h with
  | unscheduled => simp [isAsideOf_clock]
  | recorded now now' nextPass answer hcounts =>
    simp only [List.forall_mem_cons]
    refine ⟨isAsideOf_clock, isAsideOf_clock, isAsideOf_record, fun e he => ?_⟩
    cases e with
    | call c answer => exact absurd he (hcounts c answer)
    | count => exact isAsideOf_count

/-- Whenever an authority is seen, there is a pass or nothing that concerns it. -/
theorem seen_cases (h : Program.Exec (Watch.reconcile c (.pki p) table) es r) :
    (∀ c answer, .call c answer ∈ es → c.KeepsAuthority) ∨
      ∃ settings result next before pass after,
        Program.Exec (reconcile settings p) pass (some (result, next)) ∧
          Surrounds p next es before pass after := by
  rcases Watch.run_cases h with hidle | ⟨now, es, rfl, hend⟩
  · exact .inl hidle
  · right
    cases hend with
    | aborted hsync => obtain ⟨_, _, ⟨⟩, -⟩ := exec_sync hsync
    | @ended pass after outcome hsync hrecord =>
      obtain ⟨result, next, houtcome, hpass⟩ := exec_sync hsync
      obtain rfl := Option.some.inj houtcome
      refine ⟨_, result, next, [_, _], pass, after, hpass, rfl, ?_⟩
      simp only [List.cons_append, List.nil_append, List.forall_mem_cons]
      exact ⟨isAsideOf_clock, isAsideOf_count, record_isAsideOf hrecord⟩

variable {es before pass after : List Event}

theorem Surrounds.writes_eq (h : Surrounds p next es before pass after) :
    writes es = writes pass := by
  have hsilent (fs : List Event) (hfs : fs ⊆ before ++ after) : writes fs = [] :=
    List.filterMap_eq_nil_iff.2 fun e he => Event.write?_eq_none_of_isAside (h.aside e (hfs he)).1
  rw [h.events, writes_append, writes_append, hsilent before (List.subset_append_left _ _),
    hsilent after (List.subset_append_right _ _), List.nil_append, List.append_nil]

theorem Surrounds.isStored (h : Surrounds p next es before pass after)
    (hstored : IsStored p response es) : IsStored p response pass := by
  have haside : .call (.cluster (.createSecret (exportSecret p response))) (.ok ()) ∉
      before ++ after := fun hmem => by cases (h.aside _ hmem).1
  rw [IsStored, h.events] at hstored
  simp only [List.mem_append, not_or] at hstored haside
  exact (hstored.resolve_left haside.1).resolve_right haside.2

theorem Surrounds.made (h : Surrounds p next es before pass after) (hmade : Made p es) :
    Made p pass := by
  obtain ⟨w, hw, hpath, response, hok, hstored⟩ := hmade
  exact ⟨w, h.writes_eq ▸ hw, hpath, response, hok, fun hneeds => h.isStored (hstored hneeds)⟩

theorem beforeSigner_subset : beforeSigner es ⊆ beforeSigner (es ++ fs) := by
  rw [beforeSigner, beforeSigner, List.takeWhile_append]
  split
  · exact fun e he => List.mem_append_left _ ((List.takeWhile_prefix _).subset he)
  · exact fun e he => he

theorem afterLogin_append_left (h : ∀ e ∈ es, ¬ e.grantsLogin) :
    afterLogin (es ++ fs) = afterLogin fs := by
  rw [afterLogin, List.dropWhile_append_of_pos fun e he => by simpa using h e he]
  rfl

theorem beforeSigner_afterLogin_subset :
    beforeSigner (afterLogin es) ⊆ beforeSigner (afterLogin (es ++ fs)) := by
  rw [afterLogin, afterLogin, List.dropWhile_append]
  split
  · next hnone =>
    rw [List.isEmpty_iff.1 hnone]
    exact List.nil_subset _
  · next hsome =>
    rw [List.tail_append_of_ne_nil (by simpa using hsome)]
    exact beforeSigner_subset

theorem LacksCsr.mono (h : LacksCsr p es) (hes : es ⊆ fs) : LacksCsr p fs := by
  obtain ⟨data, hget, hlacks⟩ := h
  exact ⟨data, hes hget, hlacks⟩

theorem Surrounds.csrLost (h : Surrounds p next es before pass after) (hlost : CsrLost p pass) :
    CsrLost p es := by
  obtain ⟨hinternal, hstale, hlacks⟩ := hlost
  refine ⟨hinternal, ?_, ?_⟩
  · rwa [FreshCsr, h.writes_eq]
  · rw [h.events, afterLogin_append_left fun e he =>
      Event.not_grantsLogin_of_isAside (h.aside e (List.mem_append_left _ he)).1]
    exact hlacks.mono beforeSigner_afterLogin_subset

theorem Surrounds.recorded (h : Surrounds p next es before pass after)
    (hpass : ∀ c answer, .call c answer ∈ pass → c.isPatch = false) :
    ∀ e ∈ es, ∀ patch ∈ e.patch? (Object.pki p).ref,
      ∃ status : PkiStatus, status.progress = next ∧ patch = statusPatch status.toJson := by
  intro e he patch hpatch
  rw [h.events, List.mem_append, List.mem_append] at he
  rcases he with he | he | he
  · exact (h.aside e (List.mem_append_left _ he)).2 patch hpatch
  · cases e with
    | call c answer =>
      have hnone : c.patch? (Object.pki p).ref = none := Call.patch?_eq_none (hpass c answer he)
      rw [Event.patch?, hnone] at hpatch
      cases hpatch
    | count => cases hpatch
  · exact (h.aside e (List.mem_append_right _ he)).2 patch hpatch

end Pki

end VaultOperator
