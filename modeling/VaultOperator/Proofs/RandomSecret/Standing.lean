import VaultOperator.Proofs.Engine.Reconcile
import VaultOperator.Proofs.Vault.Versions
import VaultOperator.RandomSecret.Object

/-!
# Generated secrets stand

A value that was generated and is shown again is there for the next pass (`foundAt_of_echoes`), which
leaves it alone as long as its refresh is not due (`stands`).
-/

namespace VaultOperator

namespace RandomSecret

open Engine (KeepsSession Leaves Stands)

variable {r : RandomSecret} {store : StoreContent} {before between : VaultContent}

/-- What is shown of the secret has a text under its key that is not empty. -/
def HasValue (r : RandomSecret) (shown : Payload) : Prop :=
  ∃ values value, Vault.Unwraps shown values ∧
    values.get? r.spec.secretKey = some (.str value) ∧ value ≠ ""

theorem isPresent_iff : isPresent r shown ↔ HasValue r shown := by
  constructor
  · intro h
    obtain ⟨value, htext, hne⟩ := (Option.any_eq_true ..).1 h
    exact ⟨_, value, Vault.unwraps_unwrapKv shown, Dict.text?_eq_some_iff.1 htext,
      by simpa using hne⟩
  · rintro ⟨values, value, hunwraps, hvalue, hne⟩
    rw [isPresent, Vault.unwrapKv_eq_iff.2 hunwraps, Dict.text?_eq_some_iff.2 hvalue]
    simpa using hne

/-- What the password policy generates is not empty. -/
def GeneratesValue (r : RandomSecret) (before : VaultContent) : Prop :=
  ∀ answer, before (Path.passwordPolicyGenerate r.spec.passwordPolicy) = some answer →
    answer.text? "password" ≠ some ""

/-- A secret that is kept as it is does not look as if it were wrapped. -/
def IsToldApart (r : RandomSecret) (between : VaultContent) : Prop :=
  r.spec.kvV2 = false → ∀ found, between (readPath r) = some found → ¬ Vault.IsWrapped found

/-- At no time that the clock shows is a refresh due. -/
def RestsAt (r : RandomSecret) : Event → Prop
  | .call .clock now => refreshDue? r.spec.refreshPeriod (lastUpdate? r) now = some false
  | _ => True

/-- Where there is a value, only the clock is looked at. -/
theorem exec_isEquivalent (hpresent : isPresent r observed)
    (h : Program.Exec (isEquivalent r observed) es ended) :
    ∃ now, es = [.call .clock now] ∧
      ended = (refreshDue? r.spec.refreshPeriod (lastUpdate? r) now).map (!·) := by
  rw [isEquivalent, if_pos hpresent] at h
  rcases Program.exec_bind.1 h with ⟨now, _, rest, hclock, hrest, rfl⟩ | ⟨hclock, -⟩ <;>
    obtain ⟨_, rfl, ⟨⟩⟩ := Program.exec_ask.1 hclock
  refine ⟨now, ?_⟩
  split at hrest
  · next due hdue =>
    obtain ⟨rfl, rfl⟩ := Program.exec_done.1 hrest
    exact ⟨rfl, by rw [hdue]; rfl⟩
  · next hdue =>
    obtain ⟨rfl, rfl⟩ := Program.exec_abort.1 hrest
    exact ⟨rfl, by rw [hdue]; rfl⟩

theorem isEquivalent_of_isPresent (hpresent : isPresent r observed)
    (h : Program.Exec (isEquivalent r observed) es ended) (hrests : ∀ e ∈ es, RestsAt r e) :
    ended = some true := by
  obtain ⟨now, rfl, rfl⟩ := exec_isEquivalent hpresent h
  have hdue : refreshDue? r.spec.refreshPeriod (lastUpdate? r) now = some false :=
    hrests _ List.mem_cons_self
  rw [hdue]
  rfl

theorem isPresent_of_isEquivalent (h : Program.Exec (isEquivalent r observed) es (some true)) :
    isPresent r observed := by
  by_cases hpresent : isPresent r observed
  · exact hpresent
  · rw [isEquivalent, if_neg hpresent] at h
    obtain ⟨-, ⟨⟩⟩ := Program.exec_done.1 h

theorem clock_of_isEquivalent (h : Program.Exec (isEquivalent r observed) es ended) :
    ∀ c answer, .call c answer ∈ es → c = .clock := by
  by_cases hpresent : isPresent r observed
  · obtain ⟨now, rfl, -⟩ := exec_isEquivalent hpresent h
    intro c answer hmem
    cases List.mem_singleton.1 hmem
    rfl
  · rw [isEquivalent, if_neg hpresent] at h
    rw [(Program.exec_done.1 h).1]
    exact fun _ _ hmem => nomatch hmem

theorem concludes_prepareWrite : Concludes (Call.LooksIn session) (prepareWrite r session v) := by
  refine .bind (Pass.concludes_read rfl) fun answer => ?_
  split
  · exact concludes_pure
  · exact concludes_throw

theorem keepsSession : KeepsSession (toVaultObject r) where
  prepare _ := concludes_pure
  readObserved _ := Pass.concludes_read rfl
  prepareWrite _ _ := concludes_prepareWrite
  isEquivalent _ _ _ _ := clock_of_isEquivalent

theorem restates (r : RandomSecret) (status : Option Status) :
    Engine.Restates (toVaultObject r) (toVaultObject { r with status }) where
  ns := rfl
  access := rfl
  validate := by simp only [toVaultObject, validate, vaultPath]
  prepare := rfl

theorem prepareWrite_ok (h : Ends (prepareWrite r session v) es (.ok v'))
    (hgiven : ∀ e ∈ es, Given store before e) (hvalue : GeneratesValue r before) :
    ∃ value, value ≠ "" ∧ v'.generated = some value := by
  rcases ends_bind.1 h with ⟨answer, es₁, es₂, hread, hrest, rfl⟩ | ⟨_, -, ⟨⟩⟩
  obtain ⟨hgiven, -⟩ := List.forall_mem_append.1 hgiven
  have hanswer := Pass.read_ok hread hgiven
  split at hrest
  · next value htext =>
    obtain ⟨-, ⟨⟩⟩ := ends_pure.1 hrest
    obtain ⟨payload, rfl, htext⟩ := Option.bind_eq_some_iff.1 htext
    refine ⟨value, ?_, rfl⟩
    rintro rfl
    exact hvalue payload hanswer.symm htext
  · obtain ⟨-, ⟨⟩⟩ := ends_throw.1 hrest

theorem get?_payload (h : v.generated = some value) :
    (payload r v).get? r.spec.secretKey = some (.str value) := by
  rw [payload, h]
  exact (Dict.get?_insert ..).trans (if_pos rfl)

theorem foundAt_of_echoes (hne : value ≠ "") (hvalue : v.generated = some value)
    (happart : IsToldApart r between)
    (h : (Backend.keyValue r.spec.kvV2).Echoes before between (readPath r) (createRequest r v).body) :
    FoundAt between (readPath r) fun found => isPresent r found := by
  unfold createRequest at h
  cases hversion : r.spec.kvV2 with
  | true =>
    rw [hversion] at h
    obtain ⟨found, hbetween, hdata, fields, hmetadata⟩ := h
    have hunwraps := Vault.unwraps_of_shown hdata hmetadata
    exact ⟨found, hbetween, isPresent_iff.2 ⟨_, value, hunwraps, get?_payload hvalue, hne⟩⟩
  | false =>
    rw [hversion] at h
    obtain ⟨found, hbetween, hshows⟩ := h
    have hunwraps := Vault.Unwraps.plain (happart hversion found hbetween)
    have hshown := hshows _ _ List.not_mem_nil (get?_payload hvalue)
    exact ⟨found, hbetween, isPresent_iff.2 ⟨_, value, hunwraps, hshown, hne⟩⟩

theorem stands_of_foundAt {status : Option Status}
    (h : FoundAt between (readPath r) fun found => isPresent r found) :
    Stands store between (RestsAt { r with status }) (toVaultObject { r with status }) v := by
  obtain ⟨found, hbetween, hpresent⟩ := h
  refine ⟨found, fun session => ?_, fun es ended h hrests => ?_⟩
  · rw [← hbetween]
    exact Pass.read_yields
  · exact isEquivalent_of_isPresent (r := { r with status }) hpresent h hrests

theorem stands {status : Option Status} (hvalue : GeneratesValue r before)
    (happart : outcome.wrote → IsToldApart r between)
    (hleaves : Leaves store (.keyValue r.spec.kvV2) (toVaultObject r) session v before outcome
      between) :
    Stands store between (RestsAt { r with status }) (toVaultObject { r with status }) v := by
  refine stands_of_foundAt ?_
  cases hleaves with
  | same observed hread hgiven hsame =>
    exact ⟨observed, (Pass.read_ok hread hgiven).symm, isPresent_of_isEquivalent hsame⟩
  | created v' hprepared hgiven hechoes =>
    obtain ⟨value, hne, hgenerated⟩ := prepareWrite_ok hprepared hgiven hvalue
    exact foundAt_of_echoes hne hgenerated (happart rfl) hechoes
  | updated observed v' hread hgiven hprepared hgiven' hechoes =>
    obtain ⟨value, hne, hgenerated⟩ := prepareWrite_ok hprepared hgiven' hvalue
    exact foundAt_of_echoes hne hgenerated (happart rfl) hechoes

end RandomSecret

end VaultOperator
