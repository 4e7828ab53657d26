import VaultOperator.Proofs.Engine.Refusal
import VaultOperator.Proofs.Pki.External
import VaultOperator.Proofs.Pki.Signer

/-!
# What is refused of a certificate authority

Whether the signer of an authority is a root is only known once it is looked up, which is after the
login and after the making of the key. Nothing else that is refused for good is found after the
check (`run_refused`).
-/

namespace VaultOperator

namespace Pki

open VaultOperator.Path (PkiOperation)

variable {settings : Engine.Settings} {p : Pki} {session : Vault.Session} {s t : CaProgress}

-- ---------------------------------------------------------------------------
-- The signer
-- ---------------------------------------------------------------------------

/-- What is said of a signer that is not declared as a root. -/
def notRoot (p : Pki) (signer : Signer) : ReconcileError :=
  .validation (.invalid "spec.internalSign"
    (signer.ns.getD p.metadata.nsAny ++ "/" ++ signer.name ++ " is not a root CA"))

/-- The signer that is declared was looked up, with nothing asked of Vault since some earlier time,
and it is no root. -/
inductive FindsNoRoot (p : Pki) : List Event → ReconcileError → Prop
  | found (es : List Event) (signer : Signer) (authority : Pki)
    (hsigner : p.spec.internalSign = some signer) (hwaits : LeavesVault es)
    (htype : authority.spec.type ≠ .root) :
    FindsNoRoot p
      (es ++ [getPkiEvent (signer.ns.getD p.metadata.nsAny) signer.name (.ok (some authority))])
      (notRoot p signer)

theorem FindsNoRoot.append_left (h : FindsNoRoot p fs e) (hwaits : LeavesVault es) :
    FindsNoRoot p (es ++ fs) e := by
  cases h with
  | found gs signer authority hsigner hwaits' htype =>
    rw [← List.append_assoc]
    exact .found (es ++ gs) signer authority hsigner (hwaits.append hwaits') htype

theorem leavesVault_of_counts {es : List Event} (h : ∀ e ∈ es, e.isCount) : LeavesVault es :=
  fun _ _ hmem => nomatch h _ hmem

theorem signInternally_refused (hsigner : p.spec.internalSign = some signer)
    (h : Ends (signInternally settings p signer csr) es (.error e)) (hrefused : ¬ e.isRetryable) :
    FindsNoRoot p es e := by
  simp only [signInternally, ends_bind, ends_getPki, Pass.ends_orFail] at h
  rcases h with ⟨found, _, _, ⟨answer, rfl, hanswer⟩, hrest, rfl⟩ | ⟨_, ⟨answer, rfl, hanswer⟩, ⟨⟩⟩
  · obtain rfl := ok_eq_mapError.1 hanswer
    rcases hrest with ⟨authority, _, es₂, ⟨rfl, hfound⟩, hrest, rfl⟩ | ⟨_, ⟨rfl, hfound⟩, ⟨⟩⟩
    · split at hrest
      · next htype =>
        obtain ⟨rfl, ⟨⟩⟩ := ends_throw_bind.1 hrest
        cases found with
        | none => cases hfound
        | some found =>
          obtain rfl := Except.ok.inj hfound
          exact .found [] signer _ hsigner leavesVault_nil htype
      · -- the signer is a root, and what else it lacks may come
        refine absurd ?_ hrefused
        split at hrest
        · obtain ⟨-, ⟨⟩⟩ := ends_throw_bind.1 hrest
          rfl
        · refine Raises.bind Engine.failsRetryably_login (fun session => ?_) _ _ hrest
          refine .bind Pass.failsRetryably_write fun _ => .bind (Pass.raises_orFail rfl) fun _ => ?_
          split <;> exact raises_pure
    · cases found with
      | none => cases hfound; exact absurd rfl hrefused
      | some found => cases hfound
  · obtain ⟨cause, rfl, rfl⟩ := error_eq_mapError.1 hanswer
    exact absurd rfl hrefused

/-- The request to sign is looked for in the cluster, and may be there later. -/
theorem signingRequest_waits (h : EndsWith (signingRequest p fresh) s es r t) :
    LeavesVault es ∧ ∀ e, r = .error e → e.isRetryable := by
  cases fresh with
  | some csr =>
    obtain ⟨rfl, rfl, -⟩ := endsWith_pure.1 h
    exact ⟨leavesVault_nil, nofun⟩
  | none =>
    rcases endsWith_bind.1 h with ⟨data, _, _, es₂, hlift, hrest, rfl⟩ | ⟨e, hlift, rfl⟩ <;>
      obtain ⟨hget, rfl⟩ := CaPass.endsWith_lift.1 hlift <;>
      obtain ⟨answer, rfl, hanswer⟩ := Pass.ends_getSecret.1 hget
    · split at hrest
      · obtain ⟨rfl, rfl, -⟩ := endsWith_pure.1 hrest
        exact ⟨leavesVault_nil.cons_call rfl, nofun⟩
      · obtain ⟨counts, _, rfl, hcounts, hthrow⟩ := CaPass.advance_bind_ends hrest
        obtain ⟨rfl, rfl, -⟩ := endsWith_throw.1 hthrow
        rw [List.append_nil]
        refine ⟨(leavesVault_of_counts hcounts).cons_call rfl, fun e he => ?_⟩
        cases he
        rfl
    · obtain ⟨cause, rfl, rfl⟩ := error_eq_mapError.1 hanswer
      refine ⟨leavesVault_nil.cons_call rfl, fun e he => ?_⟩
      cases he
      rfl

theorem externalCertificate_isRetryable (h : Ends (externalCertificate p secret) es (.error e)) :
    e.isRetryable := by
  cases externalCertificate_trace h with
  | unread | missing => rfl

theorem certificate_refused (hvalid : validate p = .ok ()) (htype : p.spec.type = .intermediate)
    (h : EndsWith (certificate settings p fresh) s es (.error e) t) (hrefused : ¬ e.isRetryable) :
    FindsNoRoot p es e := by
  unfold certificate at h
  split at h
  · next signer hsigner =>
    rcases endsWith_bind.1 h with ⟨csr, _, es₁, es₂, hrequest, hlift, rfl⟩ | ⟨_, hrequest, ⟨⟩⟩ <;>
      obtain ⟨hwaits, hretryable⟩ := signingRequest_waits hrequest
    · obtain ⟨hsign, -⟩ := CaPass.endsWith_lift.1 hlift
      exact (signInternally_refused hsigner hsign hrefused).append_left hwaits
    · exact absurd (hretryable _ rfl) hrefused
  · obtain ⟨hget, -⟩ := CaPass.endsWith_lift.1 h
    exact absurd (externalCertificate_isRetryable hget) hrefused
  · next hinternal hexternal =>
    have hsigning := checkSigning_ok hvalid
    rw [Spec.checkSigning, htype, hinternal, hexternal] at hsigning
    cases hsigning

-- ---------------------------------------------------------------------------
-- The whole pass
-- ---------------------------------------------------------------------------

theorem PersistTrace.isRetryable (h : PersistTrace p response es r) (herror : r = .error e) :
    e.isRetryable := by
  cases h with
  | created => cases herror
  | refused | stuck => exact Except.error.inj herror ▸ rfl
  | replaced _ _ _ answer =>
    obtain ⟨cause, -, rfl⟩ := error_eq_mapError.1 herror.symm
    rfl

theorem GenerateTrace.isRetryable (h : GenerateTrace p session s es (.error e) t) :
    e.isRetryable := by
  cases h with
  | refused => rfl
  | unkept _ _ hkeep => exact hkeep.isRetryable rfl

theorem sign_refused (hvalid : validate p = .ok ())
    (h : EndsWith (sign settings p session fresh outcome) s es (.error e) t)
    (hrefused : ¬ e.isRetryable) : FindsNoRoot p es e := by
  unfold sign at h
  split at h
  · rw [CaPass.endsWith_progress_bind] at h
    obtain ⟨_, _, -, -, hpure⟩ := CaPass.advance_bind_ends h
    obtain ⟨-, ⟨⟩, -⟩ := endsWith_pure.1 hpure
  · next htype =>
    rw [CaPass.endsWith_progress_bind] at h
    obtain ⟨counts, es₁, rfl, hcounts, hrest⟩ := CaPass.advance_bind_ends h
    refine .append_left ?_ (leavesVault_of_counts hcounts)
    rcases endsWith_bind.1 hrest with ⟨pem, _, es₂, es₃, -, hinstall, rfl⟩ | ⟨_, hcertificate, ⟨⟩⟩
    · obtain ⟨answer, _, -, -, hend⟩ := install_ends hinstall
      cases answer with
      | ok response => cases hend.1
      | error cause =>
        cases hend.1
        exact absurd rfl hrefused
    · exact certificate_refused hvalid htype hcertificate hrefused

theorem syncUrls_isRetryable (h : EndsWith (syncUrls p session outcome) s es (.error e) t) :
    e.isRetryable := by
  unfold syncUrls at h
  split at h
  · rcases endsWith_bind.1 h with ⟨_, _, _, _, -, hpure, -⟩ | ⟨_, hlift, ⟨⟩⟩
    · obtain ⟨-, ⟨⟩, -⟩ := endsWith_pure.1 hpure
    · obtain ⟨hsync, -⟩ := CaPass.endsWith_lift.1 hlift
      exact Engine.failsRetryably_syncPath _ _ hsync
  · obtain ⟨-, ⟨⟩, -⟩ := endsWith_pure.1 h

theorem finish_refused (hvalid : validate p = .ok ())
    (h : EndsWith (finish settings p session fresh outcome) s es (.error e) t)
    (hrefused : ¬ e.isRetryable) : FindsNoRoot p es e := by
  unfold finish at h
  rw [CaPass.endsWith_progress_bind] at h
  split at h
  · exact absurd (syncUrls_isRetryable h) hrefused
  · rcases endsWith_bind.1 h with ⟨_, _, _, _, -, hurls, -⟩ | ⟨_, hsign, ⟨⟩⟩
    · exact absurd (syncUrls_isRetryable hurls) hrefused
    · exact sign_refused hvalid hsign hrefused

/-- How the key came to be there that is to be signed: it was there before, or it is made now. -/
inductive KeyTrace (p : Pki) (session : Vault.Session) : List Event → Prop
  | kept (hgenerated : (progress p).state.isGenerated) : KeyTrace p session []
  | made {next : CaProgress} (hgenerated : ¬ (progress p).state.isGenerated)
    (hgenerate : GenerateTrace p session (progress p) es (.ok csr) next) : KeyTrace p session es

theorem proceed_refused (hvalid : validate p = .ok ())
    (h : EndsWith (proceed settings p session) (progress p) es (.error e) t)
    (hrefused : ¬ e.isRetryable) :
    ∃ making rest, es = making ++ rest ∧ KeyTrace p session making ∧ FindsNoRoot p rest e := by
  cases proceed_trace h with
  | kept _ hgenerated hfinish =>
    exact ⟨[], es, rfl, .kept hgenerated, finish_refused hvalid hfinish hrefused⟩
  | unmade _ hgenerate => exact absurd hgenerate.isRetryable hrefused
  | made _ hgenerated hgenerate hfinish =>
    exact ⟨_, _, rfl, .made hgenerated hgenerate, finish_refused hvalid hfinish hrefused⟩

/-- A pass over a valid authority that finds its signer to be no root: it logged in before, made the
key where there was none, and asked nothing else of Vault. -/
structure MeetsNoRoot (settings : Engine.Settings) (p : Pki) (es : List Event)
    (e : ReconcileError) : Prop where
  valid : validate p = .ok ()
  trace : ∃ session login making rest, es = login ++ (making ++ rest) ∧
    Engine.LoginTrace settings p.metadata.nsAny p.spec.access login (.ok session) ∧
    KeyTrace p session making ∧ FindsNoRoot p rest e

theorem run_refused (h : EndsWith (run settings p) (progress p) es (.error e) t)
    (hrefused : ¬ e.isRetryable) :
    (es = [] ∧ ∃ cause, validate p = .error cause ∧ e = .validation cause) ∨
      MeetsNoRoot settings p es e := by
  rw [run_eq] at h
  rcases endsWith_bind.1 h with ⟨_, _, _, _, hlift, hrest, rfl⟩ | ⟨_, hlift, ⟨⟩⟩ <;>
    obtain ⟨hcheck, rfl⟩ := CaPass.endsWith_lift.1 hlift <;>
    obtain ⟨rfl, hvalid⟩ := Pass.ends_check.1 hcheck
  · have hvalid := ok_eq_mapError.1 hvalid
    rcases endsWith_bind.1 hrest with ⟨session, _, login, rest, hlift, hproceed, rfl⟩ |
      ⟨_, hlift, ⟨⟩⟩ <;>
      obtain ⟨hlogin, rfl⟩ := CaPass.endsWith_lift.1 hlift
    · obtain ⟨making, rest, rfl, hkey, hfinds⟩ := proceed_refused hvalid hproceed hrefused
      have hgranted := Engine.login_trace hlogin
      exact .inr ⟨hvalid, session, login, making, rest, rfl, hgranted, hkey, hfinds⟩
    · exact absurd (Engine.failsRetryably_login _ _ hlogin) hrefused
  · obtain ⟨cause, hinvalid, rfl⟩ := error_eq_mapError.1 hvalid
    exact .inl ⟨rfl, cause, hinvalid, rfl⟩

end Pki

namespace Object

/-- A pass that fails for good failed its own check and asked nobody anything, unless it met a signer
that is no root, or a database that passes its check without a source of its credential. -/
theorem untouched_unless {o : Object} (h : Program.Exec (o.sync settings) es (some outcome))
    (herror : outcome.result = .error e) (hphase : e.phase = .unvalidated) :
    (es = [] ∧ ∃ cause, o.toVaultObject.validate = .error cause ∧ e = .validation cause) ∨
      (∃ p, o = .pki p ∧ Pki.MeetsNoRoot settings p es e) ∨ o.LacksSource ∧ o.IsValid := by
  have hrefused : ¬ e.isRetryable := fun hretryable =>
    ReconcileError.isRetryable_iff.1 hretryable hphase
  by_cases hsource : o.LacksSource ∧ o.IsValid
  · exact .inr (.inr hsource)
  by_cases hkind : o.kind = .pki
  · cases o with
    | pki p =>
      obtain ⟨result, next, houtcome, hpass⟩ := Pki.exec_sync h
      obtain rfl := Option.some.inj houtcome
      obtain rfl : result = .error e := herror
      exact (Pki.run_refused hpass hrefused).imp_right fun hmeets => .inl ⟨p, rfl, hmeets⟩
    | _ => cases hkind
  · have hsource (hvalid : o.IsValid) : ¬ o.LacksSource := fun hlacks => hsource ⟨hlacks, hvalid⟩
    exact .inl (sync_refused hkind hsource h herror hrefused)

/-- A leaf, to be signed by an intermediate authority. -/
def misdirectedLeaf : Object :=
  .pki (Pki.leafOf Pki.mid)

def misdirectedRun :=
  (misdirectedLeaf.sync {}).run Memory.Backends.storeWorld (Pki.signingWorld Pki.mid)

theorem misdirectedRun_exec :
    ∃ outcome, Program.Exec (misdirectedLeaf.sync {}) misdirectedRun.events (some outcome) ∧
      outcome.result = .error (Pki.notRoot (Pki.leafOf Pki.mid) { name := "mid" }) := by
  have hexec : Program.Exec (misdirectedLeaf.sync {}) misdirectedRun.events misdirectedRun.result :=
    Program.exec_run _ _ _
  have hresult : misdirectedRun.result.map (·.result) =
      some (.error (Pki.notRoot (Pki.leafOf Pki.mid) { name := "mid" })) := by decide +kernel
  obtain ⟨outcome, houtcome, herror⟩ := Option.map_eq_some_iff.1 hresult
  exact ⟨outcome, houtcome ▸ hexec, herror⟩

/-- The leaf is not worth another try, as its signer is no root. -/
theorem untouched_unless_leaf :
    ∃ es outcome e, Program.Exec (misdirectedLeaf.sync {}) es (some outcome) ∧
      outcome.result = .error e ∧ e.phase = .unvalidated ∧
      ((es = [] ∧ ∃ cause, misdirectedLeaf.toVaultObject.validate = .error cause ∧
          e = .validation cause) ∨
        (∃ p, misdirectedLeaf = .pki p ∧ Pki.MeetsNoRoot {} p es e) ∨
        misdirectedLeaf.LacksSource ∧ misdirectedLeaf.IsValid) := by
  obtain ⟨outcome, hexec, herror⟩ := misdirectedRun_exec
  exact ⟨_, outcome, _, hexec, herror, rfl, untouched_unless hexec herror rfl⟩

def asksVault : Event → Bool
  | .call c _ => c.isVault
  | _ => false

/-- By then the leaf has a key of its own in Vault. -/
theorem touched_leaf :
    ¬ ∀ (settings : Engine.Settings) (o : Object) es outcome e,
      Program.Exec (o.sync settings) es (some outcome) → outcome.result = .error e →
      e.phase = .unvalidated → LeavesVault es := by
  intro hclaim
  obtain ⟨outcome, hexec, herror⟩ := misdirectedRun_exec
  have hasks : ∃ e ∈ misdirectedRun.events, asksVault e := by decide +kernel
  obtain ⟨e, hmem, hasks⟩ := hasks
  have hleaves := hclaim {} misdirectedLeaf _ outcome _ hexec herror rfl
  cases e with
  | call c answer => exact Bool.false_ne_true ((hleaves c answer hmem).symm.trans hasks)
  | count => exact Bool.false_ne_true hasks

end Object

end VaultOperator
