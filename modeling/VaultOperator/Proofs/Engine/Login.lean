import VaultOperator.Engine.Login
import VaultOperator.Proofs.Pass.Execution
import VaultOperator.Proofs.Pass.Trace

/-!
# Logging in

A login asks for certificates and for a token of the service account, and then for one of Vault,
which is the last of its events (`login_trace`).
-/

namespace VaultOperator.Engine

theorem readCaSecret_ends (h : Ends (readCaSecret ns secret) es r) :
    ∃ answer, es = [.call (.cluster (.getSecret ns secret)) answer] := by
  simp only [readCaSecret, ends_bind, Pass.ends_getSecret, Pass.ends_orFail, ends_pure] at h
  rcases h with ⟨_, _, _, ⟨answer, rfl, -⟩, h, rfl⟩ | ⟨_, ⟨answer, rfl, -⟩, -⟩
  · rcases h with ⟨_, _, _, ⟨rfl, -⟩, h, rfl⟩ | ⟨_, ⟨rfl, -⟩, -⟩
    · rcases h with ⟨_, _, _, ⟨rfl, -⟩, ⟨rfl, -⟩, rfl⟩ | ⟨_, ⟨rfl, -⟩, -⟩ <;>
        exact ⟨answer, rfl⟩
    · exact ⟨answer, rfl⟩
  · exact ⟨answer, rfl⟩

theorem readCaFile_ends :
    Ends (readCaFile path) es r → ∃ answer, es = [.call (.readCaFile path) answer] := by
  intro h
  obtain ⟨answer, rfl, -⟩ := (Pass.ends_attempt_ask fun _ _ => Program.exec_ask).1 h
  exact ⟨answer, rfl⟩

/-- Finding out whom to trust does not involve Vault. -/
theorem caPem_ends (h : Ends (caPem s ns connection) es r) :
    ∀ e ∈ es, e.isLoginStep ∧ ¬ e.isLogin := by
  unfold caPem at h
  split at h
  · obtain ⟨_, h, -⟩ := ends_map.1 h
    obtain ⟨answer, rfl⟩ := readCaSecret_ends h
    simp [Event.isLoginStep, Call.isLoginStep, Event.isLogin]
  · obtain ⟨_, h, -⟩ := ends_map.1 h
    obtain ⟨answer, rfl⟩ := readCaFile_ends h
    simp [Event.isLoginStep, Call.isLoginStep, Event.isLogin]
  · obtain ⟨rfl, -⟩ := ends_pure.1 h
    simp

theorem target_ends (h : Ends (target s ns connection) es r) :
    ∀ e ∈ es, e.isLoginStep ∧ ¬ e.isLogin := by
  simp only [target, ends_bind, ends_pure] at h
  rcases h with ⟨_, es₁, _, h, ⟨rfl, -⟩, rfl⟩ | ⟨_, h, -⟩
  · simpa using caPem_ends h
  · exact caPem_ends h

theorem ends_askToken :
    Ends (Pass.attempt .store (.cluster (.serviceAccountToken ns account audiences ttl))) es r ↔
      ∃ answer : Except StoreError String,
        es = [.call (.cluster (.serviceAccountToken ns account audiences ttl)) answer] ∧
          r = answer.mapError .store :=
  Pass.ends_attempt_ask fun _ _ => Program.exec_cluster

theorem ends_askLogin {target : Vault.Target} :
    Ends (Pass.attempt .remote (.vault (.login target request))) es r ↔
      ∃ answer : Except Vault.Error String,
        es = [.call (.vault (.login target request)) answer] ∧ r = answer.mapError .remote :=
  Pass.ends_attempt_ask fun _ _ => Program.exec_vault

def tokenEvent (s : Settings) (ns : String) (auth : Authentication)
    (answer : Except StoreError String) : Event :=
  .call (.cluster (.serviceAccountToken ns auth.serviceAccount auth.audiences s.tokenTtlSeconds))
    answer

def loginEvent (server : Vault.Target) (auth : Authentication) (jwt : String)
    (answer : Except Vault.Error String) : Event :=
  .call (.vault (.login server { mount := auth.path, role := auth.role, jwt, ns := auth.ns }))
    answer

/-- A login from its first event to its last, with the authentication of `access` and the token that
the cluster issued for it. -/
inductive LoginTrace (s : Settings) (ns : String) (access : Access) :
    List Event → Except ReconcileError Vault.Session → Prop
  | untargeted (htarget : Ends (target s ns access.connection) es (.error e)) :
    LoginTrace s ns access es (.error e)
  | tokenless (htarget : Ends (target s ns access.connection) es (.ok server))
    (cause : StoreError) :
    LoginTrace s ns access (es ++ [tokenEvent s ns access.authentication (.error cause)])
      (.error (.store cause))
  | refused (htarget : Ends (target s ns access.connection) es (.ok server)) (jwt : String)
    (cause : Vault.Error) :
    LoginTrace s ns access
      (es ++ [tokenEvent s ns access.authentication (.ok jwt),
        loginEvent server access.authentication jwt (.error cause)]) (.error (.remote cause))
  | granted (htarget : Ends (target s ns access.connection) es (.ok server)) (jwt token : String) :
    LoginTrace s ns access
      (es ++ [tokenEvent s ns access.authentication (.ok jwt),
        loginEvent server access.authentication jwt (.ok token)]) (.ok ⟨server, token⟩)

theorem login_trace (h : Ends (login s ns access) es r) : LoginTrace s ns access es r := by
  simp only [login, ends_bind, ends_askToken, ends_askLogin, ends_pure, ok_eq_mapError,
    error_eq_mapError] at h
  rcases h with ⟨target, es₁, _, htarget, h, rfl⟩ | ⟨e, htarget, rfl⟩
  · rcases h with ⟨jwt, _, _, ⟨_, rfl, rfl⟩, h, rfl⟩ | ⟨_, ⟨_, rfl, cause, rfl, rfl⟩, rfl⟩
    · rcases h with ⟨token, _, _, ⟨_, rfl, rfl⟩, ⟨rfl, rfl⟩, rfl⟩ |
        ⟨_, ⟨_, rfl, cause, rfl, rfl⟩, rfl⟩
      · exact .granted htarget jwt token
      · exact .refused htarget jwt cause
    · exact .tokenless htarget cause
  · exact .untargeted htarget

theorem LoginTrace.isLoginStep (h : LoginTrace s ns access es r) : ∀ e ∈ es, e.isLoginStep := by
  have hsteps {es r} (htarget : Ends (target s ns access.connection) es r) :
      ∀ e ∈ es, e.isLoginStep := fun e he => (target_ends htarget e he).1
  cases h with
  | untargeted htarget => exact hsteps htarget
  | tokenless htarget | refused htarget | granted htarget =>
    simpa [or_imp, forall_and, tokenEvent, loginEvent, Event.isLoginStep, Call.isLoginStep]
      using hsteps htarget

/-- How a login ends: the session is the one that Vault granted at last, or there is none. -/
inductive LoginEnd (es : List Event) : Except ReconcileError Vault.Session → Prop
  | granted (session : Vault.Session) (request : Vault.LoginRequest) (before : List Event)
    (hes : es = before ++ [.call (.vault (.login session.target request)) (.ok session.token)])
    (hbefore : ∀ e ∈ before, ¬ e.isLogin) : LoginEnd es (.ok session)
  | refused (e : ReconcileError) (hes : ¬ LoggedIn es) : LoginEnd es (.error e)

theorem LoginTrace.loginEnd (h : LoginTrace s ns access es r) : LoginEnd es r := by
  have hquiet {es r} (htarget : Ends (target s ns access.connection) es r) :
      ∀ e ∈ es, ¬ e.isLogin := fun e he => (target_ends htarget e he).2
  cases h with
  | untargeted htarget => exact .refused _ (not_loggedIn (hquiet htarget))
  | tokenless htarget | refused htarget =>
    refine .refused _ ?_
    simpa [tokenEvent, loginEvent, Event.grantsLogin] using not_loggedIn (hquiet htarget)
  | @granted before server htarget jwt token =>
    refine .granted ⟨server, token⟩ _ (before ++ [_]) (by simp; exact ⟨rfl, rfl⟩) ?_
    simpa [or_imp, forall_and, tokenEvent, Event.isLogin] using hquiet htarget

theorem login_ends (h : Ends (login s ns access) es r) :
    (∀ e ∈ es, e.isLoginStep) ∧ LoginEnd es r :=
  ⟨(login_trace h).isLoginStep, (login_trace h).loginEnd⟩

section
variable {P : Call → Prop} (hP : ∀ c : Call, c.isLoginStep → P c)

include hP

theorem concludes_caPem : Concludes P (caPem s ns connection) := by
  unfold caPem
  split
  · refine .bind (.bind (Pass.concludes_getSecret (hP _ rfl)) fun _ => ?_) fun _ => concludes_pure
    exact .bind Pass.concludes_orFail fun _ => .bind Pass.concludes_orFail fun _ => concludes_pure
  · exact .bind (Pass.concludes_attempt (Program.within_ask (hP _ rfl))) fun _ => concludes_pure
  · exact concludes_pure

theorem concludes_login : Concludes P (login s ns access) := by
  refine .bind (.bind (concludes_caPem hP) fun _ => concludes_pure) fun _ => ?_
  refine .bind (Pass.concludes_attempt (Program.within_ask (hP _ rfl))) fun _ => ?_
  exact .bind (Pass.concludes_attempt (Program.within_ask (hP _ rfl))) fun _ => concludes_pure

end

end VaultOperator.Engine
