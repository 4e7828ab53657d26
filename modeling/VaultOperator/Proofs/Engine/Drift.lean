import VaultOperator.Proofs.Engine.Convergence
import VaultOperator.Proofs.Engine.Course
import VaultOperator.Proofs.Pass.Determined
import VaultOperator.Proofs.Resource.Drift

/-!
# Drift is found and undone

Once a pass has seen what there is (`Sees`), all that is left of it depends on whether that has
drifted from what is desired: if it has not the pass is over, and else it makes the update and
nothing else (`exec_reconcile_of_sees`). This holds of all kinds that compare what they desire
(`drift_detected`).
-/

namespace VaultOperator.Engine

/-- A pass over a valid object has logged in, has its values and saw what is there. -/
inductive Sees (s : Settings) (o : VaultObject) (session : Vault.Session) (v : InternalValues)
    (observed : Payload) : List Event → Prop
  | mk (hgather : Ends (gather s o) es (.ok (session, v)))
    (hread : Ends (o.readObserved session) fs (.ok (some observed))) :
    Sees s o session v observed (es ++ fs)

theorem exec_settle_iff (h : Sees s o session v observed es) :
    Program.Exec (reconcile s o).run (es ++ fs) r ↔
      Program.Exec (settle o session v (some observed)).run fs r := by
  obtain ⟨hgather, hread⟩ := h
  rw [reconcile_eq_gather, List.append_assoc, exec_run_bind_append hgather,
    exec_run_bind_append hread]

/-- How a pass that saw what is there may end: it has nothing to do, or it makes an update. -/
inductive Remains (o : VaultObject) (session : Vault.Session) (v : InternalValues)
    (observed : Payload) : List Event → Option (Except ReconcileError SyncOutcome) → Prop
  | standing (hstands : ¬ o.Drifted v observed) :
    Remains o session v observed [] (some (.ok .unchanged))
  | updated (hdrifted : o.Drifted v observed) (answer : Except Vault.Error (Option Payload)) :
    Remains o session v observed [writeEvent session (o.updateRequest v) answer]
      (some ((answer.mapError .remote).map fun _ => .updated))

theorem exec_write_return {a : α} :
    Program.Exec (Pass.write session path body >>= fun _ => (pure a : Pass α)).run es r ↔
      ∃ answer : Except Vault.Error (Option Payload),
        es = [.call (.vault (.write session path body)) answer] ∧
          r = some ((answer.mapError .remote).map fun _ => a) := by
  refine Program.exec_call.trans ⟨?_, ?_⟩
  · rintro ⟨answer | answer, rest, rfl, h⟩ <;>
      obtain ⟨rfl, rfl⟩ := Program.exec_done.1 h <;>
      exact ⟨_, rfl, rfl⟩
  · rintro ⟨answer | answer, rfl, rfl⟩ <;>
      exact ⟨_, [], rfl, Program.exec_done.2 ⟨rfl, rfl⟩⟩

theorem exec_settle (h : o.ComparesDesired) :
    Program.Exec (settle o session v (some observed)).run fs r ↔
      Remains o session v observed fs r := by
  obtain ⟨same, hcompare, hsame⟩ := h.exists_same v observed
  have hlift : (ExceptT.lift (pure same) : Pass Bool) = pure same := rfl
  rw [settle, hcompare, hlift, pure_bind]
  cases same with
  | true =>
    have hstands : ¬ o.Drifted v observed := hsame.1 rfl
    refine Program.exec_done.trans ⟨?_, ?_⟩
    · rintro ⟨rfl, rfl⟩
      exact .standing hstands
    · rintro (_ | hdrifted)
      · exact ⟨rfl, rfl⟩
      · exact absurd hdrifted hstands
  | false =>
    have hdrifted : o.Drifted v observed := by simpa using hsame
    rw [write, h.prepareWrite, pure_bind, bind_assoc]
    refine exec_write_return.trans ⟨?_, ?_⟩
    · rintro ⟨answer, rfl, rfl⟩
      exact .updated hdrifted answer
    · rintro (hstands | _)
      · exact absurd hdrifted hstands
      · exact ⟨_, rfl, rfl⟩

/-- All of what a pass may do once it saw what is there. -/
theorem exec_reconcile_of_sees (h : o.ComparesDesired) (hsees : Sees s o session v observed es) :
    Program.Exec (reconcile s o).run (es ++ fs) r ↔ Remains o session v observed fs r :=
  (exec_settle_iff hsees).trans (exec_settle h)

end VaultOperator.Engine

namespace VaultOperator

open Engine (Remains Sees)

/-- The comparison finds what has drifted and nothing else, and a pass undoes it. -/
structure VaultObject.DetectsDrift (settings : Engine.Settings) (o : VaultObject) : Prop where
  exact : ∀ v observed, ∃ same : Bool, o.isEquivalent v observed = pure same ∧
    (same ↔ ∀ key value, key ∉ o.redactedKeys → (o.desired v).get? key = some value →
      (o.normalize observed).get? key = some value)
  /-- What is not declared makes no difference. -/
  undeclared : ∀ v observed observed',
    (∀ key, ((o.desired v).get? key).isSome →
      (o.normalize observed).get? key = (o.normalize observed').get? key) →
    o.isEquivalent v observed = o.isEquivalent v observed'
  restores : ∀ v key value, key ∉ o.redactedKeys → (o.desired v).get? key = some value →
    (o.updateRequest v).body.get? key = some value
  remains : ∀ session v observed es fs r, Sees settings o session v observed es →
    (Program.Exec (Engine.reconcile settings o).run (es ++ fs) r ↔
      Remains o session v observed fs r)

theorem VaultObject.ComparesDesired.detectsDrift {o : VaultObject} (h : o.ComparesDesired) :
    o.DetectsDrift settings where
  exact v observed := by
    obtain ⟨same, hcompare, hsame⟩ := h.exists_same v observed
    exact ⟨same, hcompare, hsame.trans not_drifted_iff⟩
  undeclared v observed observed' halike := by
    obtain ⟨same, hcompare, hsame⟩ := h.exists_same v observed
    obtain ⟨same', hcompare', hsame'⟩ := h.exists_same v observed'
    have heq : same = same' := by
      rw [Bool.eq_iff_iff, hsame, hsame', drifted_congr halike]
    rw [hcompare, hcompare', heq]
  restores v key value _ hvalue := by rwa [h.updates v]
  remains _ _ _ _ _ _ := Engine.exec_reconcile_of_sees h

namespace Object

theorem comparesDesired {o : Object}
    (hkind : o.kind ∈ [.policy, .secretMount, .authMount, .database, .ldap]) :
    o.toVaultObject.ComparesDesired := by
  cases o with
  | policy p => exact p.comparesDesired
  | secretMount m => exact m.spec.mount.comparesDesired
  | authMount m => exact m.spec.mount.comparesDesired
  | database d => exact d.comparesDesired
  | ldap l => exact l.comparesDesired
  | randomSecret => simp [kind] at hkind
  | pki => simp [kind] at hkind

/-- Whatever Vault shows and is declared is compared, and brought back where it has drifted. -/
theorem drift_detected {o : Object}
    (hkind : o.kind ∈ [.policy, .secretMount, .authMount, .database, .ldap]) :
    o.toVaultObject.DetectsDrift settings ∧
      ∀ (d : Mount.Definition) key value, d.tunePayload.get? key = some value →
        key ∈ Mount.tunableKeys :=
  ⟨(comparesDesired hkind).detectsDrift,
    fun _ _ _ => Mount.Definition.mem_tunableKeys_of_tunePayload⟩

def directorySession : Vault.Session :=
  ⟨{ address := "https://vault.vault.svc:8200" }, "token"⟩

def directoryValues : InternalValues :=
  { credential := some ⟨"cn=admin", "secret"⟩ }

def directoryShown : Payload :=
  ((∅ : Payload).insert "username" (.str "cn=admin")).insert "password" (.str "secret")

/-- A configuration that lacks its address has drifted, and is updated. -/
theorem drift_detected_directory :
    let o := (ldap selfReferring).toVaultObject
    ∃ es answer, Sees {} o directorySession directoryValues directoryShown es ∧
      o.Drifted directoryValues directoryShown ∧
      Ends (Engine.reconcile {} o)
        (es ++ [Engine.writeEvent directorySession (o.updateRequest directoryValues) answer])
        (.ok .updated) := by
  intro o
  have hsees : Sees {} o directorySession directoryValues directoryShown _ :=
    .mk (ends_of_run (mirror noStore ∅) overlaid (by decide +kernel))
      (ends_of_run (mirror noStore ∅) overlaid (by rfl))
  have hdrifted : o.Drifted directoryValues directoryShown := by
    refine ⟨"url", .str "ldaps://ldap.example.com", by decide, by rfl, fun h => ?_⟩
    cases h
  have hdetects : o.DetectsDrift {} := (drift_detected (by decide)).1
  exact ⟨_, .ok none, hsees, hdrifted,
    (hdetects.remains _ _ _ _ _ _ hsees).2 (.updated hdrifted (.ok none))⟩

end Object

end VaultOperator
