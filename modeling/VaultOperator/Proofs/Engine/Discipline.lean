import VaultOperator.Proofs.Engine.Convergence
import VaultOperator.Proofs.RandomSecret.Course

/-!
# The discipline of writes

What a pass over an object does to Vault and says of it, whatever it is answered
(`Object.reconcile_disciplined`): one login, one session, and at most one write, which comes last
and tells how the pass ends. A generated secret is not made up unless it is about to be written.
-/

namespace VaultOperator

namespace Call

/-- Reads and writes in a session, and calls that leave all objects of the cluster as they are. -/
def StaysIn (session : Vault.Session) : Call → Prop
  | .vault (.read used _) | .vault (.write used ..) => used = session
  | .vault _ => False
  | c => c.isPatch = false

theorem staysIn_of_looksIn {session : Vault.Session} {c : Call} (h : c.LooksIn session) :
    c.StaysIn session := by
  cases c with
  | vault c =>
    cases c with
    | read => exact h
    | _ => exact h.elim
  | _ => exact h.1

theorem not_isPatch_of_staysIn {session : Vault.Session} {c : Call} (h : c.StaysIn session) :
    c.isPatch = false := by
  cases c with
  | vault => rfl
  | _ => exact h

end Call

namespace Engine

variable {o : VaultObject} {s : Settings}

/-- There is one login at most, and all else that Vault is asked is asked in its session. -/
inductive OneSession (s : Settings) (o : VaultObject) : List Event → Prop
  | none : OneSession s o []
  | shutOut (hlogin : LoginTrace s o.ns o.access es (.error e)) : OneSession s o es
  | granted (hlogin : LoginTrace s o.ns o.access es (.ok session))
    (hrest : ∀ c answer, .call c answer ∈ fs → c.StaysIn session) : OneSession s o (es ++ fs)

/-- What is found after a login, and the request that it calls for: the one for a new object where
nothing is observed, and the one for a change where something else is observed than is desired. -/
inductive Requests (o : VaultObject) (session : Vault.Session) :
    List Event → WriteRequest → SyncOutcome → Prop
  | create (v v' : InternalValues) (hprepare : Ends (o.prepare session) es (.ok v))
    (hread : Ends (o.readObserved session) fs (.ok none))
    (hprepared : Ends (o.prepareWrite session v) gs (.ok v')) :
    Requests o session (es ++ fs ++ gs) (o.createRequest v') .created
  | update (v v' : InternalValues) (observed : Payload)
    (hprepare : Ends (o.prepare session) es (.ok v))
    (hread : Ends (o.readObserved session) fs (.ok (some observed)))
    (hdiffers : Program.Exec (o.isEquivalent v observed) gs (some false))
    (hprepared : Ends (o.prepareWrite session v) hs (.ok v')) :
    Requests o session (es ++ (fs ++ gs) ++ hs) (o.updateRequest v') .updated

/-- A write as the last event of a pass, in the session of the pass and as what was found calls
for. -/
def IsCalledFor (s : Settings) (o : VaultObject) (es : List Event) (w : VaultWrite)
    (outcome : SyncOutcome) : Prop :=
  ∃ login looks request, LoginTrace s o.ns o.access login (.ok w.session) ∧
    Requests o w.session looks request outcome ∧
    es = login ++ (looks ++ [writeEvent w.session request w.answer])

/-- What a pass does to Vault, and what it says of it. -/
structure Disciplined (s : Settings) (o : VaultObject) (es : List Event)
    (r : Option (Except ReconcileError SyncOutcome)) : Prop where
  session : OneSession s o es
  oneLogin : (es.filter Event.isLogin).length ≤ 1
  oneWrite : (writes es).length ≤ 1
  calledFor : ∀ w ∈ writes es, ∃ outcome, IsCalledFor s o es w outcome ∧
    r = some ((w.answer.mapError .remote).map fun _ => outcome)
  wrote : (∃ outcome, r = some (.ok outcome) ∧ outcome.wrote) ↔
    ∃ w ∈ writes es, ∃ response, w.answer = .ok response
  unchanged : r = some (.ok .unchanged) → writes es = []
  failed : ∀ e, r = some (.error e) →
    writes es = [] ∨ ∃ w ∈ writes es, ∃ cause, w.answer = .error cause ∧ e = .remote cause

-- ---------------------------------------------------------------------------
-- What follows from the course of a pass
-- ---------------------------------------------------------------------------

theorem Drafts.requests (hdraft : Drafts o session es d)
    (hprepared : Ends (o.prepareWrite session d.values) fs (.ok v)) :
    Requests o session (es ++ fs) (d.request v) d.outcome := by
  cases hdraft with
  | create v hprepare hread => exact .create v _ hprepare hread hprepared
  | update v observed hprepare hread hdiffers =>
    exact .update v _ observed hprepare hread hdiffers hprepared

theorem Requests.wrote (h : Requests o session es request outcome) : outcome.wrote := by
  cases h <;> rfl

theorem OnlyLooksIn.writes_eq (h : OnlyLooksIn session es) : writes es = [] :=
  writes_eq_nil_of_writesNothing fun c answer hmem =>
    Call.writesNothing_of_looksIn (h c answer hmem)

theorem OnlyLooksIn.filter_isLogin (h : OnlyLooksIn session es) : es.filter Event.isLogin = [] := by
  refine List.filter_eq_nil_iff.2 fun e he hlogin => ?_
  unfold Event.isLogin at hlogin
  split at hlogin
  · exact h _ _ he
  · cases hlogin

theorem LoginTrace.writes_eq (h : LoginTrace s ns access es r) : writes es = [] :=
  writes_eq_nil h.isLoginStep

theorem LoginTrace.filter_isLogin_length (h : LoginTrace s ns access es r) :
    (es.filter Event.isLogin).length ≤ 1 := by
  have hquiet {es r} (htarget : Ends (target s ns access.connection) es r) :
      es.filter Event.isLogin = [] :=
    List.filter_eq_nil_iff.2 fun e he => (target_ends htarget e he).2
  cases h with
  | untargeted htarget => simp [hquiet htarget]
  | tokenless htarget => simp [hquiet htarget, tokenEvent, Event.isLogin]
  | refused htarget | granted htarget =>
    have htoken {answer} : (tokenEvent s ns access.authentication answer).isLogin = false := rfl
    rw [List.filter_append, hquiet htarget, List.nil_append,
      List.filter_cons_of_neg (by simp [htoken])]
    exact List.length_filter_le ..

/-- What there is of a pass after its login. -/
theorem Continuation.cases (hkeeps : KeepsSession o) (h : Continuation o session es r) :
    (OnlyLooksIn session es ∧ ∀ outcome, r = some (.ok outcome) → outcome = .unchanged) ∨
      ∃ looks request answer outcome, OnlyLooksIn session looks ∧
        Requests o session looks request outcome ∧
        es = looks ++ [writeEvent session request answer] ∧
        r = some ((answer.mapError .remote).map fun _ => outcome) := by
  cases h with
  | rested hseek _ hresult => exact .inl ⟨onlyLooksIn_seek hkeeps hseek, hresult⟩
  | @unprepared looks d preparing e hseek hprepare =>
    have hlooks := onlyLooksIn_of_concludes (hkeeps.prepareWrite session d.values) hprepare
    exact .inl ⟨(onlyLooksIn_seek hkeeps hseek).append hlooks, nofun⟩
  | @wrote looks d preparing v hseek hprepared answer =>
    have hlooks := onlyLooksIn_of_concludes (hkeeps.prepareWrite session d.values) hprepared
    exact .inr ⟨looks ++ preparing, d.request v, answer, d.outcome,
      (onlyLooksIn_seek hkeeps hseek).append hlooks, (seek_ok hseek).requests hprepared,
      (List.append_assoc ..).symm, rfl⟩

theorem OneSession.not_isPatch (h : OneSession s o es) :
    ∀ c answer, .call c answer ∈ es → c.isPatch = false := by
  have hsteps {es r} (hlogin : LoginTrace s o.ns o.access es r) :
      ∀ c answer, .call c answer ∈ es → c.isPatch = false := fun c answer hmem =>
    Call.not_isPatch_of_isLoginStep (hlogin.isLoginStep _ hmem)
  cases h with
  | none => exact fun _ _ hmem => nomatch hmem
  | shutOut hlogin => exact hsteps hlogin
  | granted hlogin hrest =>
    intro c answer hmem
    rcases List.mem_append.1 hmem with hmem | hmem
    · exact hsteps hlogin c answer hmem
    · exact Call.not_isPatch_of_staysIn (hrest c answer hmem)

theorem disciplined_of_writes_eq_nil (hsession : OneSession s o es)
    (hlogin : (es.filter Event.isLogin).length ≤ 1) (hnone : writes es = [])
    (hresult : ∀ outcome, r = some (.ok outcome) → outcome = .unchanged) :
    Disciplined s o es r where
  session := hsession
  oneLogin := hlogin
  oneWrite := by simp [hnone]
  calledFor := by simp [hnone]
  wrote := by
    constructor
    · rintro ⟨outcome, hr, hwrote⟩
      rw [hresult outcome hr] at hwrote
      cases hwrote
    · simp [hnone]
  unchanged _ := hnone
  failed _ _ := .inl hnone

theorem disciplined_of_write (hlogin : LoginTrace s o.ns o.access es (.ok session))
    (hlooks : OnlyLooksIn session fs) (hrequests : Requests o session fs request outcome)
    (answer : Except Vault.Error (Option Payload)) :
    Disciplined s o (es ++ (fs ++ [writeEvent session request answer]))
      (some ((answer.mapError .remote).map fun _ => outcome)) := by
  have hwrites : writes (es ++ (fs ++ [writeEvent session request answer])) =
      [⟨session, request.path, request.body, answer⟩] := by
    simp [hlogin.writes_eq, hlooks.writes_eq, writeEvent]
  refine ⟨.granted hlogin ?_, ?_, by simp [hwrites], ?_, ?_, ?_, ?_⟩
  · intro c answer' hmem
    rcases List.mem_append.1 hmem with hmem | hmem
    · exact Call.staysIn_of_looksIn (hlooks c answer' hmem)
    · cases List.mem_singleton.1 hmem
      rfl
  · simpa [hlooks.filter_isLogin, writeEvent, Event.isLogin] using hlogin.filter_isLogin_length
  · simp only [hwrites, List.mem_singleton, forall_eq]
    exact ⟨outcome, ⟨es, fs, request, hlogin, hrequests, rfl⟩, rfl⟩
  · simp only [hwrites, List.mem_singleton, exists_eq_left]
    cases answer with
    | ok response => exact ⟨fun _ => ⟨response, rfl⟩, fun _ => ⟨outcome, rfl, hrequests.wrote⟩⟩
    | error cause => simp [Except.mapError, Except.map]
  · intro hunchanged
    have hwrote := hrequests.wrote
    cases answer with
    | ok response =>
      cases hunchanged
      cases hwrote
    | error cause => cases hunchanged
  · intro e he
    simp only [hwrites, List.mem_singleton, exists_eq_left]
    cases answer with
    | ok response => cases he
    | error cause =>
      cases he
      exact .inr ⟨cause, rfl, rfl⟩

theorem Course.disciplined (hkeeps : KeepsSession o) (h : Course s o es r) :
    Disciplined s o es r := by
  cases h with
  | invalid => exact disciplined_of_writes_eq_nil .none (by simp) rfl nofun
  | shutOut hlogin =>
    exact disciplined_of_writes_eq_nil (.shutOut hlogin) hlogin.filter_isLogin_length
      hlogin.writes_eq nofun
  | admitted hlogin hrest =>
    rcases hrest.cases hkeeps with ⟨hlooks, hresult⟩ |
      ⟨looks, request, answer, outcome, hlooks, hrequests, rfl, rfl⟩
    · refine disciplined_of_writes_eq_nil
        (.granted hlogin fun c answer hmem => Call.staysIn_of_looksIn (hlooks c answer hmem)) ?_ ?_
        hresult
      · simpa [hlooks.filter_isLogin] using hlogin.filter_isLogin_length
      · simp [hlogin.writes_eq, hlooks.writes_eq]
    · exact disciplined_of_write hlogin hlooks hrequests answer

end Engine

/-- The password policy is read, other than by the look-up of a value that is kept there, only where
the look-up calls for a value. -/
def RandomSecret.AsksSparingly (r : RandomSecret) (s : Engine.Settings) (es : List Event) : Prop :=
  ∀ before used answer after,
    es = before ++ .call (.vault (.read used (policyPath r))) answer :: after →
      ∃ login session looks,
        Engine.LoginTrace s r.metadata.nsAny r.spec.access login (.ok session) ∧
          before = login ++ looks ∧
          ((looks = [] ∧ policyPath r = readPath r) ∨ CallsForValue r session looks)

namespace Object

theorem keepsSession {o : Object} (hkind : o.kind ≠ .pki) :
    Engine.KeepsSession o.toVaultObject := by
  cases o with
  | policy => exact Policy.isPlain.keepsSession fun _ => Policy.concludes_prepare
  | secretMount => exact Mount.Definition.keepsSession
  | authMount => exact Mount.Definition.keepsSession
  | database d =>
    exact (Database.isPlain (d := d)).keepsSession fun _ => Credential.concludes_prepare
  | ldap l => exact (Ldap.isPlain (l := l)).keepsSession fun _ => Credential.concludes_prepare
  | randomSecret => exact RandomSecret.keepsSession
  | pki => exact absurd rfl hkind

/-- However Vault and the cluster answer, a pass writes at most once and last, in the session of its
one login and as what it found calls for, and says truly whether it did; and a password is not made
up for nothing. -/
theorem reconcile_disciplined {o : Object} (hkind : o.kind ≠ .pki)
    (h : Program.Exec (Engine.reconcile s o.toVaultObject).run es r) :
    Engine.Disciplined s o.toVaultObject es r ∧
      ∀ secret, o = randomSecret secret → secret.AsksSparingly s es := by
  have hcourse := Engine.reconcile_course (keepsSession hkind) h
  refine ⟨hcourse.disciplined (keepsSession hkind), ?_⟩
  rintro secret rfl before used answer after hes
  exact RandomSecret.asked_only_if_called_for hcourse hes

/-- A secret is generated. -/
theorem reconcile_disciplined_token :
    (randomSecret token).kind ≠ .pki ∧
      ∃ es r, Program.Exec (Engine.reconcile {} (randomSecret token).toVaultObject).run es r ∧
        (writes es).length = 1 ∧ Engine.Disciplined {} (randomSecret token).toVaultObject es r ∧
        token.AsksSparingly {} es := by
  have hkind : (randomSecret token).kind ≠ .pki := nofun
  let pass := passOver noStore ∅ (randomSecret token) generating
  have hexec : Program.Exec (Engine.reconcile {} (randomSecret token).toVaultObject).run
      pass.events pass.result := Program.exec_run _ _ _
  obtain ⟨hdisciplined, hsparing⟩ := reconcile_disciplined hkind hexec
  exact ⟨hkind, _, _, hexec, by decide +kernel, hdisciplined, hsparing token rfl⟩

end Object

end VaultOperator
