import VaultOperator.Proofs.Pki.Plan

/-!
# Passes over a certificate authority end

Whatever is answered, a pass is never aborted, and it changes no object of the cluster
(`reconcile_ends`).
-/

namespace VaultOperator.Pki

variable {settings : Engine.Settings} {p : Pki} {session : Vault.Session}

/-- Everything but changes of objects of the cluster. -/
def NoPatch (c : Call) : Prop :=
  c.isPatch = false

section
variable {P : Call → Prop}

theorem concludesWith_lift {q : Pass α} (h : Concludes P q) : ConcludesWith P (CaPass.lift q) :=
  fun _ => Program.Within.bind h fun _ => Program.within_done

theorem concludesWith_progress : ConcludesWith P CaPass.progress :=
  fun _ => Program.within_done

theorem concludesWith_observe : ConcludesWith P (CaPass.observe type mode) :=
  fun _ => Program.within_done

theorem concludesWith_advance : ConcludesWith P (CaPass.advance state) := by
  intro s
  change Program.Within P (if s.state = state then _ else _)
  split
  · exact Program.within_done
  · exact Program.within_count Program.within_done

end

theorem concludes_persistArtifacts : Concludes NoPatch (persistArtifacts p response) := by
  have hcreate {secret : Secret} : Concludes NoPatch
      (ExceptT.lift (Program.cluster (.createSecret secret)) : Pass _) :=
    Program.Within.bind (Program.within_ask (P := NoPatch) rfl) fun _ => Program.within_done
  refine .bind hcreate fun answer => ?_
  split
  · exact concludes_pure
  · exact .bind (Pass.concludes_attempt (Program.within_ask rfl)) fun _ =>
      Pass.concludes_attempt (Program.within_ask rfl)
  · exact concludes_throw

theorem concludesWith_generate : ConcludesWith NoPatch (generate p session) := by
  refine .bind (concludesWith_lift (Pass.concludes_write rfl)) fun answer => ?_
  have hrecord {csr : Option String} : ConcludesWith NoPatch (do
      CaPass.observe p.spec.type p.spec.keyMode
      CaPass.advance (madeState p)
      return csr) :=
    .bind concludesWith_observe fun _ => .bind concludesWith_advance fun _ => concludesWith_pure
  split
  · exact .bind (concludesWith_lift concludes_persistArtifacts) fun _ => hrecord
  · exact hrecord

theorem concludes_login : Concludes Call.SparesCluster (Engine.login settings ns access) :=
  Engine.concludes_login fun _ => Call.sparesCluster_of_isLoginStep

theorem concludes_signInternally :
    Concludes Call.SparesCluster (signInternally settings p signer csr) := by
  simp only [signInternally]
  refine .bind (Pass.concludes_attempt (Program.within_ask ⟨rfl, rfl⟩)) fun found => ?_
  refine .bind Pass.concludes_orFail fun authority => ?_
  split
  · exact concludes_throw_bind
  · split
    · exact concludes_throw_bind
    · refine .bind concludes_login fun _ => .bind (Pass.concludes_write ⟨rfl, rfl⟩) fun _ => ?_
      refine .bind Pass.concludes_orFail fun _ => ?_
      split <;> exact concludes_pure

theorem concludesWith_certificate :
    ConcludesWith Call.SparesCluster (certificate settings p fresh) := by
  unfold certificate
  split
  · refine .bind ?_ fun _ => concludesWith_lift concludes_signInternally
    unfold signingRequest
    split
    · exact concludesWith_pure
    · refine .bind (concludesWith_lift (Pass.concludes_getSecret ⟨rfl, rfl⟩)) fun _ => ?_
      split
      · exact concludesWith_pure
      · exact .bind concludesWith_advance fun _ => concludesWith_throw
  · exact concludesWith_lift
      (.bind (Pass.concludes_getSecret ⟨rfl, rfl⟩) fun _ => Pass.concludes_orFail)
  · exact concludesWith_throw

theorem concludesWith_sign :
    ConcludesWith Call.SparesCluster (sign settings p session fresh outcome) := by
  unfold sign
  split
  · refine .bind concludesWith_progress fun _ => ?_
    exact .bind concludesWith_advance fun _ => concludesWith_pure
  · refine .bind concludesWith_progress fun _ => .bind concludesWith_advance fun _ => ?_
    refine .bind concludesWith_certificate fun _ => ?_
    refine .bind (concludesWith_lift (Pass.concludes_write ⟨rfl, rfl⟩)) fun _ => ?_
    refine .bind concludesWith_progress fun _ => ?_
    exact .bind concludesWith_advance fun _ => concludesWith_pure

/-- What follows on the making of a key leaves the whole cluster to others. -/
theorem concludesWith_finish :
    ConcludesWith Call.SparesCluster (finish settings p session fresh outcome) := by
  have hurls {outcome : SyncOutcome} :
      ConcludesWith Call.SparesCluster (syncUrls p session outcome) := by
    unfold syncUrls
    split
    · exact .bind (concludesWith_lift (Engine.concludes_syncPath ⟨rfl, rfl⟩ ⟨rfl, rfl⟩)) fun _ =>
        concludesWith_pure
    · exact concludesWith_pure
  refine .bind concludesWith_progress fun s => ?_
  split
  · exact .bind concludesWith_pure fun _ => hurls
  · exact .bind concludesWith_sign fun _ => hurls

theorem concludesWith_run : ConcludesWith NoPatch (run settings p) := by
  rw [run_eq]
  refine .bind (concludesWith_lift Pass.concludes_check) fun _ => ?_
  refine .bind (concludesWith_lift (concludes_login.mono fun _ h => h.1)) fun session => ?_
  refine .bind concludesWith_progress fun s => ?_
  split
  · exact concludesWith_finish.mono fun _ h => h.1
  · exact .bind concludesWith_generate fun _ => concludesWith_finish.mono fun _ h => h.1

/-- Every pass comes to a result and hands back its progress, and leaves the objects of the cluster
to others. -/
theorem reconcile_ends (h : Program.Exec (reconcile settings p) es r) :
    (∃ result next, r = some (result, next) ∧
      EndsWith (run settings p) (progress p) es result next) ∧
    ∀ c answer, .call c answer ∈ es → c.isPatch = false := by
  obtain ⟨hr, hes⟩ := concludesWith_run (progress p) es r h
  refine ⟨?_, hes⟩
  cases r with
  | none => exact absurd rfl hr
  | some r => exact ⟨r.1, r.2, rfl, h⟩

end VaultOperator.Pki
