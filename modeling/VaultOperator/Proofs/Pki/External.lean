import VaultOperator.Proofs.Engine.Working
import VaultOperator.Proofs.Pki.Signer

/-!
# Waiting for a certificate

An intermediate authority that is signed elsewhere waits for its certificate to be put into a secret:
a pass that finds nothing to use there leaves all as it is and is made again later, and the first one
that finds a certificate installs exactly that (`external_signing`).
-/

namespace VaultOperator.Pki

open VaultOperator.Path (PkiOperation)
open Program (Exec)

variable {settings : Engine.Settings} {p : Pki} {secret : SignedSecret} {session : Vault.Session}
  {s : CaProgress}

theorem checkSigning_ok (h : validate p = .ok ()) : p.spec.checkSigning = .ok () := by
  obtain ⟨_, -, h⟩ := bind_eq_ok.1 h
  obtain ⟨_, -, h⟩ := bind_eq_ok.1 h
  obtain ⟨_, -, h⟩ := bind_eq_ok.1 h
  obtain ⟨_, hsigning, -⟩ := bind_eq_ok.1 h
  exact hsigning

/-- A valid intermediate authority whose certificate comes in a secret. -/
structure SignsExternally (p : Pki) (secret : SignedSecret) : Prop where
  valid : validate p = .ok ()
  type : p.spec.type = .intermediate
  secret : p.spec.externalSign = some secret

theorem SignsExternally.internalSign (h : SignsExternally p secret) :
    p.spec.internalSign = none := by
  have hsigning := checkSigning_ok h.valid
  rw [Spec.checkSigning, h.type, h.secret] at hsigning
  cases hinternal : p.spec.internalSign with
  | none => rfl
  | some signer =>
    rw [hinternal] at hsigning
    cases hsigning

-- ---------------------------------------------------------------------------
-- The certificate in a secret
-- ---------------------------------------------------------------------------

/-- The key that the certificate is looked for under. -/
def certificateKey (secret : SignedSecret) : String :=
  if secret.key.isEmpty then "tls.crt" else secret.key

/-- There is no certificate to be had from what was found of a secret. -/
inductive Unusable (key : String) : Option SecretData → Prop
  | absent : Unusable key none
  | keyless (hkey : data.get? key = none) : Unusable key (some data)
  | undecodable (hkey : data.get? key = some bytes) (hbytes : Text.decode? bytes = none) :
    Unusable key (some data)
  | blank (hkey : data.get? key = some bytes) (hbytes : Text.decode? bytes = some text)
    (hblank : Text.isBlankText text) : Unusable key (some data)

/-- The text under a key of a secret, which is not blank. -/
structure HoldsText (key pem : String) (data : SecretData) : Prop where
  decoded : (data.get? key).bind Text.decode? = some pem
  nonBlank : ¬ Text.isBlankText pem

/-- The certificate of an authority, as far as it is there. -/
def certificateIn (secret : SignedSecret) (data : Option SecretData) : Option String :=
  ((data.bind (·.get? (certificateKey secret))).bind Text.decode?).filter fun text =>
    !Text.isBlankText text

theorem certificateIn_eq_none {data : Option SecretData} :
    certificateIn secret data = none ↔ Unusable (certificateKey secret) data := by
  constructor
  · intro h
    cases data with
    | none => exact .absent
    | some data =>
      cases hkey : data.get? (certificateKey secret) with
      | none => exact .keyless hkey
      | some bytes =>
        cases hbytes : Text.decode? bytes with
        | none => exact .undecodable hkey hbytes
        | some text =>
          refine .blank hkey hbytes ?_
          simpa [certificateIn, hkey, hbytes] using h
  · intro h
    cases h with
    | absent => rfl
    | keyless hkey => simp [certificateIn, hkey]
    | undecodable hkey hbytes => simp [certificateIn, hkey, hbytes]
    | blank hkey hbytes hblank => simp [certificateIn, hkey, hbytes, hblank]

theorem certificateIn_eq_some {data : Option SecretData} :
    certificateIn secret data = some pem ↔
      ∃ found, data = some found ∧ HoldsText (certificateKey secret) pem found := by
  constructor
  · intro h
    obtain ⟨hdecoded, hblank⟩ := Option.filter_eq_some_iff.1 h
    obtain ⟨bytes, hbytes, hpem⟩ := Option.bind_eq_some_iff.1 hdecoded
    obtain ⟨found, rfl, hkey⟩ := Option.bind_eq_some_iff.1 hbytes
    exact ⟨found, rfl, ⟨by rw [hkey]; exact hpem, by simpa using hblank⟩⟩
  · rintro ⟨found, rfl, h⟩
    simp [certificateIn, h.decoded, h.nonBlank]

/-- What is said of a certificate that is not there yet. -/
def missingCertificate (p : Pki) (secret : SignedSecret) : ReconcileError :=
  .awaiting
    ("signed certificate in secret " ++ p.metadata.nsAny ++ "/" ++ secret.name ++ " key '" ++
      certificateKey secret ++ "'")

def secretEvent (p : Pki) (secret : SignedSecret) (answer : Except StoreError (Option SecretData)) :
    Event :=
  .call (.cluster (.getSecret p.metadata.nsAny secret.name)) answer

/-- How a certificate is taken from a secret and installed: it is looked up, and where there is none
all ends there. -/
inductive ExternalTrace (p : Pki) (secret : SignedSecret) (session : Vault.Session)
    (outcome : SyncOutcome) (s : CaProgress) :
    List Event → Except ReconcileError SyncOutcome → CaProgress → Prop
  | unread (cause : StoreError) :
    ExternalTrace p secret session outcome s [secretEvent p secret (.error cause)]
      (.error (.store cause)) s
  | missing (data : Option SecretData) (hnone : certificateIn secret data = none) :
    ExternalTrace p secret session outcome s [secretEvent p secret (.ok data)]
      (.error (missingCertificate p secret)) s
  | found (data : Option SecretData) (pem : String) (hpem : certificateIn secret data = some pem)
    (answer : Except Vault.Error (Option Payload)) (hcounts : ∀ e ∈ counts, e.isCount)
    (hend : InstallEnd (mostSignificant .updated outcome) s r t answer) :
    ExternalTrace p secret session outcome s
      (secretEvent p secret (.ok data) :: installEvent p session pem answer :: counts) r t

/-- How a look for the certificate goes. -/
inductive CertificateTrace (p : Pki) (secret : SignedSecret) :
    List Event → Except ReconcileError String → Prop
  | unread (cause : StoreError) :
    CertificateTrace p secret [secretEvent p secret (.error cause)] (.error (.store cause))
  | missing (data : Option SecretData) (hnone : certificateIn secret data = none) :
    CertificateTrace p secret [secretEvent p secret (.ok data)]
      (.error (missingCertificate p secret))
  | found (data : Option SecretData) (pem : String) (hpem : certificateIn secret data = some pem) :
    CertificateTrace p secret [secretEvent p secret (.ok data)] (.ok pem)

theorem externalCertificate_trace (h : Ends (externalCertificate p secret) es r) :
    CertificateTrace p secret es r := by
  simp only [externalCertificate, ends_bind, Pass.ends_getSecret, Pass.ends_orFail] at h
  rcases h with ⟨data, _, _, ⟨answer, rfl, hanswer⟩, ⟨rfl, hr⟩, rfl⟩ |
    ⟨e, ⟨answer, rfl, hanswer⟩, rfl⟩
  · obtain rfl := ok_eq_mapError.1 hanswer
    have hr : r = (certificateIn secret data).elim (.error (missingCertificate p secret)) .ok := hr
    subst hr
    cases hpem : certificateIn secret data with
    | none => exact .missing data hpem
    | some pem => exact .found data pem hpem
  · obtain ⟨cause, rfl, rfl⟩ := error_eq_mapError.1 hanswer
    exact .unread cause

theorem certificate_external (hsigns : SignsExternally p secret) (fresh : Option String) :
    certificate settings p fresh = CaPass.lift (externalCertificate p secret) := by
  rw [certificate, hsigns.internalSign, hsigns.secret]

theorem sign_external (hsigns : SignsExternally p secret)
    (h : EndsWith (sign settings p session fresh outcome) s es r t) :
    ∃ counts rest, es = counts ++ rest ∧ (∀ e ∈ counts, e.isCount) ∧
      ExternalTrace p secret session outcome { s with state := s.state.awaitSignature } rest r t := by
  unfold sign at h
  split at h
  · next htype =>
    rw [hsigns.type] at htype
    cases htype
  · rw [CaPass.endsWith_progress_bind] at h
    obtain ⟨counts, rest, rfl, hcounts, hrest⟩ := CaPass.advance_bind_ends h
    refine ⟨counts, rest, rfl, hcounts, ?_⟩
    rw [certificate_external hsigns] at hrest
    rcases endsWith_bind.1 hrest with ⟨pem, _, _, _, hlift, hinstall, rfl⟩ | ⟨e, hlift, rfl⟩ <;>
      obtain ⟨hends, rfl⟩ := CaPass.endsWith_lift.1 hlift
    · cases externalCertificate_trace hends with
      | found data _ hpem =>
        obtain ⟨answer, counts', rfl, hcounts', hend⟩ := install_ends hinstall
        exact .found data pem hpem answer hcounts' hend
    · cases externalCertificate_trace hends with
      | unread cause => exact .unread cause
      | missing data hnone => exact .missing data hnone

/-- What follows on a certificate: the addresses are brought in line where it was installed. -/
inductive FinishTrace (p : Pki) (secret : SignedSecret) (session : Vault.Session)
    (outcome : SyncOutcome) (s : CaProgress) :
    List Event → Except ReconcileError SyncOutcome → CaProgress → Prop
  | unsigned (hsign : ExternalTrace p secret session outcome s es (.error e) t) :
    FinishTrace p secret session outcome s es (.error e) t
  | signed (hsign : ExternalTrace p secret session outcome s es (.ok signed) t)
    (hurls : EndsWith (syncUrls p session signed) t fs r t) :
    FinishTrace p secret session outcome s (es ++ fs) r t

/-- A pass over an authority that has a key and is not signed yet. -/
inductive PassTrace (settings : Engine.Settings) (p : Pki) (secret : SignedSecret) :
    List Event → Except ReconcileError SyncOutcome → CaProgress → Prop
  | shutOut (hlogin : Ends (Engine.login settings p.metadata.nsAny p.spec.access) es (.error e)) :
    PassTrace settings p secret es (.error e) (progress p)
  | admitted (session : Vault.Session)
    (hlogin : Ends (Engine.login settings p.metadata.nsAny p.spec.access) login (.ok session))
    (hcounts : ∀ e ∈ counts, e.isCount)
    (hfinish : FinishTrace p secret session .unchanged
      { progress p with state := (progress p).state.awaitSignature } fs r t) :
    PassTrace settings p secret (login ++ (counts ++ fs)) r t

theorem run_external (hsigns : SignsExternally p secret) (hgenerated : (progress p).state.isGenerated)
    (hunsigned : ¬ (progress p).state.isSigned)
    (h : EndsWith (run settings p) (progress p) es r t) : PassTrace settings p secret es r t := by
  rw [run_eq, hsigns.valid] at h
  rcases endsWith_bind.1 h with ⟨_, _, _, es₁, hlift, hrest, rfl⟩ | ⟨e, hlift, rfl⟩ <;>
    obtain ⟨hcheck, rfl⟩ := CaPass.endsWith_lift.1 hlift <;>
    obtain ⟨rfl, hvalid⟩ := Pass.ends_check.1 hcheck
  · rw [List.nil_append]
    rcases endsWith_bind.1 hrest with ⟨session, _, login, fs, hlift, hproceed, rfl⟩ | ⟨e, hlift, rfl⟩ <;>
      obtain ⟨hlogin, rfl⟩ := CaPass.endsWith_lift.1 hlift
    · rw [proceed, CaPass.endsWith_progress_bind, if_pos hgenerated, finish,
        CaPass.endsWith_progress_bind, if_neg hunsigned] at hproceed
      rcases endsWith_bind.1 hproceed with ⟨signed, _, gs, hs, hsign, hurls, rfl⟩ | ⟨e, hsign, rfl⟩ <;>
        obtain ⟨counts, rest, rfl, hcounts, hsign⟩ := sign_external hsigns hsign
      · obtain ⟨rfl, -⟩ := syncUrls_ends hurls
        rw [List.append_assoc counts]
        exact .admitted session hlogin hcounts (.signed hsign hurls)
      · exact .admitted session hlogin hcounts (.unsigned hsign)
    · exact .shutOut hlogin
  · cases hvalid

-- ---------------------------------------------------------------------------
-- One pass
-- ---------------------------------------------------------------------------

def urlsPath (p : Pki) : String :=
  PkiOperation.configUrls.path (mount p)

/-- A call to bring the addresses in certificates in line. -/
def IsUrlCall (p : Pki) : Event → Prop
  | .call (.vault (.read _ path)) _ | .call (.vault (.write _ path _)) _ => path = urlsPath p
  | _ => False

/-- The backends work in a pass, except perhaps for the addresses in certificates. -/
structure BackendsWork (p : Pki) (es : List Event) : Prop where
  works : ∀ e ∈ es, e.fails → IsUrlCall p e
  finds : Engine.FindsCertificates p.metadata.nsAny p.spec.access es

theorem not_isUrlCall_of_isLoginStep (h : e.isLoginStep) : ¬ IsUrlCall p e := by
  intro hurl
  unfold IsUrlCall at hurl
  split at hurl
  · cases h
  · cases h
  · exact hurl

theorem BackendsWork.login_ok (h : BackendsWork p (login ++ rest))
    (hlogin : Ends (Engine.login settings p.metadata.nsAny p.spec.access) login r) :
    ∃ session, r = .ok session := by
  refine Engine.login_ok hlogin (fun e he hfails => ?_) h.finds.append_left
  have hstep := (Engine.login_trace hlogin).isLoginStep e he
  exact not_isUrlCall_of_isLoginStep hstep (h.works e (List.mem_append_left _ he) hfails)

theorem BackendsWork.not_unread (h : BackendsWork p es) :
    secretEvent p secret (.error cause) ∉ es := fun hmem => h.works _ hmem rfl

theorem BackendsWork.not_refused (h : BackendsWork p es) :
    installEvent p session pem (.error cause) ∉ es := by
  intro hmem
  have hpath : PkiOperation.setSigned.path (mount p) = urlsPath p := h.works _ hmem rfl
  cases PkiOperation.path_inj hpath

/-- Where the backends work Vault grants a login, and nothing is written before the certificate is
looked for. -/
theorem PassTrace.admits (h : PassTrace settings p secret es r t) (hwork : BackendsWork p es) :
    ∃ session fs, fs ⊆ es ∧ writes es = writes fs ∧
      FinishTrace p secret session .unchanged
        { progress p with state := (progress p).state.awaitSignature } fs r t := by
  cases h with
  | shutOut hlogin =>
    rw [← List.append_nil es] at hwork
    obtain ⟨_, ⟨⟩⟩ := hwork.login_ok hlogin
  | @admitted login counts fs r t session hlogin hcounts hfinish =>
    refine ⟨session, fs, fun e he => ?_, ?_, hfinish⟩
    · exact List.mem_append_right _ (List.mem_append_right _ he)
    · simp [(isLogin_of_ends hlogin).silent, writes_eq_nil_of_counts hcounts]

/-- The secret has nothing to use in it, so the authority goes on waiting. -/
theorem waits_of_unusable (hsigns : SignsExternally p secret)
    (hgenerated : (progress p).state.isGenerated) (hunsigned : ¬ (progress p).state.isSigned)
    (h : EndsWith (run settings p) (progress p) es r t) (hwork : BackendsWork p es)
    (hunusable : ∀ data, secretEvent p secret (.ok data) ∈ es →
      Unusable (certificateKey secret) data) :
    r = .error (missingCertificate p secret) ∧
      t = { progress p with state := (progress p).state.awaitSignature } ∧ writes es = [] := by
  obtain ⟨session, fs, hsub, hwrites, hfinish⟩ :=
    (run_external hsigns hgenerated hunsigned h).admits hwork
  have hnone (data) (hmem : secretEvent p secret (.ok data) ∈ fs) : certificateIn secret data = none :=
    certificateIn_eq_none.2 (hunusable data (hsub hmem))
  rw [hwrites]
  cases hfinish with
  | unsigned hsign =>
    cases hsign with
    | unread cause => exact absurd (hsub List.mem_cons_self) hwork.not_unread
    | missing data => exact ⟨rfl, rfl, rfl⟩
    | found data pem hpem =>
      rw [hnone data List.mem_cons_self] at hpem
      cases hpem
  | signed hsign =>
    cases hsign with
    | found data pem hpem =>
      rw [hnone data List.mem_cons_self] at hpem
      cases hpem

theorem Makes.exists_op (h : Makes p es ops) (hw : w ∈ writes es) :
    ∃ op ∈ ops, IsWriteOf p es w op := by
  unfold Makes at h
  generalize writes es = ws at h hw
  induction h with
  | nil => cases hw
  | cons hhead _ ih =>
    rcases List.mem_cons.1 hw with rfl | hw
    · exact ⟨_, List.mem_cons_self, hhead⟩
    · obtain ⟨op, hop, hof⟩ := ih hw
      exact ⟨op, List.mem_cons_of_mem _ hop, hof⟩

theorem writes_syncUrls (h : EndsWith (syncUrls p session outcome) s es r t) :
    ∀ w ∈ writes es, w.path = urlsPath p := by
  intro w hw
  obtain ⟨-, -, ops, hops, hmakes⟩ := syncUrls_ends h
  obtain ⟨op, hop, hof⟩ := hmakes.exists_op hw
  have hurl : op = .configUrls := by
    have hmem := hops.subset hop
    unfold urlOps at hmem
    split at hmem
    · exact List.mem_singleton.1 hmem
    · cases hmem
  subst hurl
  exact hof.1

theorem syncUrls_ok (h : EndsWith (syncUrls p session outcome) s es r t) (hworks : Works es) :
    ∃ outcome, r = .ok outcome := by
  unfold syncUrls at h
  split at h
  · rcases endsWith_bind.1 h with ⟨_, _, _, _, -, hpure, -⟩ | ⟨e, hlift, rfl⟩
    · exact ⟨_, (endsWith_pure.1 hpure).2.1⟩
    · obtain ⟨hsync, rfl⟩ := CaPass.endsWith_lift.1 hlift
      obtain ⟨_, ⟨⟩⟩ := Engine.syncPath_ok hsync hworks
  · exact ⟨_, (endsWith_pure.1 h).2.1⟩

/-- The certificate is there, so the authority is signed with it. -/
theorem signs_of_usable (hsigns : SignsExternally p secret)
    (hgenerated : (progress p).state.isGenerated) (hunsigned : ¬ (progress p).state.isSigned)
    (h : EndsWith (run settings p) (progress p) es r t) (hwork : BackendsWork p es)
    (husable : ∀ data, secretEvent p secret (.ok data) ∈ es →
      ∃ found, data = some found ∧ HoldsText (certificateKey secret) pem found) :
    (∃ session response urls, writes es = installWrite p session pem (.ok response) :: urls ∧
      ∀ w ∈ urls, w.path = urlsPath p) ∧
    t = { progress p with state := (progress p).state.awaitSignature.sign } ∧
    (Works es → ∃ outcome, r = .ok outcome) := by
  obtain ⟨session, fs, hsub, hwrites, hfinish⟩ :=
    (run_external hsigns hgenerated hunsigned h).admits hwork
  have hsome (data) (hmem : secretEvent p secret (.ok data) ∈ fs) :
      certificateIn secret data = some pem :=
    certificateIn_eq_some.2 (husable data (hsub hmem))
  rw [hwrites]
  cases hfinish with
  | unsigned hsign =>
    cases hsign with
    | unread cause => exact absurd (hsub List.mem_cons_self) hwork.not_unread
    | missing data hnone =>
      rw [hsome data List.mem_cons_self] at hnone
      cases hnone
    | found data pem' hpem answer hcounts hend =>
      cases answer with
      | ok response => cases hend.1
      | error cause =>
        exact absurd (hsub (List.mem_cons_of_mem _ List.mem_cons_self)) hwork.not_refused
  | @signed es signed t fs r hsign hurls =>
    cases hsign with
    | found data pem' hpem answer hcounts hend =>
      rw [hsome data List.mem_cons_self] at hpem
      obtain rfl := Option.some.inj hpem
      cases answer with
      | error cause => cases hend.1
      | ok response =>
        refine ⟨⟨session, response, writes fs, ?_, writes_syncUrls hurls⟩, hend.2, fun hworks => ?_⟩
        · simp [secretEvent, installEvent, installWrite, writes_eq_nil_of_counts hcounts]
        · exact syncUrls_ok hurls fun e he => hworks e (hsub (List.mem_append_right _ he))

-- ---------------------------------------------------------------------------
-- All passes
-- ---------------------------------------------------------------------------

/-- Passes one after the other, the first of which starts from `s`. -/
inductive PassesFrom : CaProgress → List PassRecord → CaProgress → Prop
  | nil (s : CaProgress) : PassesFrom s [] s
  | cons {settings : Engine.Settings} {p : Pki} {s : CaProgress} (hseen : progress p = s)
    (hpass : Exec (reconcile settings p) es (some (result, next)))
    (rest : PassesFrom next passes t) : PassesFrom s (⟨p, es, result, next⟩ :: passes) t

/-- The pass of an authority that is signed elsewhere, with backends that work. -/
structure LooksForCertificate (pass : PassRecord) (secret : SignedSecret) : Prop where
  signs : SignsExternally pass.seen secret
  work : BackendsWork pass.seen pass.events

/-- Whatever is found of the secret in a pass. -/
def Finds (pass : PassRecord) (secret : SignedSecret) (P : Option SecretData → Prop) : Prop :=
  ∀ data, secretEvent pass.seen secret (.ok data) ∈ pass.events → P data

theorem ends_of_exec {next : CaProgress} (h : Exec (reconcile settings p) es (some (result, next))) :
    EndsWith (run settings p) (progress p) es result next := by
  obtain ⟨⟨_, _, ⟨⟩, hends⟩, -⟩ := reconcile_ends h
  exact hends

/-- An authority that waits to be signed elsewhere. -/
def awaiting (s : CaProgress) : CaProgress :=
  { s with state := .awaitingSignature s.state.isExported }

theorem isExported_awaiting (s : CaProgress) :
    (awaiting s).state.isExported = s.state.isExported :=
  CaState.isExported_awaitSignature s.state

theorem awaiting_awaiting (s : CaProgress) : awaiting (awaiting s) = awaiting s := by
  rw [awaiting, isExported_awaiting]
  rfl

/-- What comes of a pass that finds nothing to use: it is made again later, from the progress that
waits. -/
structure Waits (s : CaProgress) (pass : PassRecord) : Prop where
  result : ∃ secret, pass.seen.spec.externalSign = some secret ∧
    pass.result = .error (missingCertificate pass.seen secret)
  next : pass.next = awaiting s
  writes : writes pass.events = []

theorem PassesFrom.waits (h : PassesFrom s passes t) (hgenerated : s.state.isGenerated)
    (hunsigned : ¬ s.state.isSigned)
    (hnothing : ∀ pass ∈ passes, ∃ secret, LooksForCertificate pass secret ∧
      Finds pass secret (Unusable (certificateKey secret))) :
    (∀ pass ∈ passes, Waits s pass) ∧
      t.state.isGenerated ∧ ¬ t.state.isSigned ∧ awaiting t = awaiting s := by
  induction h with
  | nil => exact ⟨by simp, hgenerated, hunsigned, rfl⟩
  | @cons es result next passes t settings p s hseen hpass _ ih =>
    subst hseen
    obtain ⟨⟨secret, hlooks, hunusable⟩, hlater⟩ := List.forall_mem_cons.1 hnothing
    obtain ⟨hresult, hnext, hwrites⟩ := waits_of_unusable hlooks.signs hgenerated hunsigned
      (ends_of_exec hpass) hlooks.work hunusable
    have hnext : next = awaiting (progress p) := hnext
    subst hnext
    obtain ⟨hwaits, hgenerated', hunsigned', hsame⟩ := ih rfl nofun hlater
    rw [awaiting_awaiting] at hsame
    have hfirst : Waits (progress p) ⟨p, es, result, awaiting (progress p)⟩ :=
      ⟨⟨secret, hlooks.signs.secret, hresult⟩, rfl, hwrites⟩
    refine ⟨List.forall_mem_cons.2 ⟨hfirst, fun pass hmem => ?_⟩, hgenerated', hunsigned', hsame⟩
    obtain ⟨hresult, hnext, hwrites⟩ := hwaits pass hmem
    rw [awaiting_awaiting] at hnext
    exact ⟨hresult, hnext, hwrites⟩

/-- An authority with a key, that is to be signed elsewhere, waits however often there is nothing to
use in the secret: every such pass is to be made again, keeps what is known of the key and writes
nothing. The first pass that finds a certificate has Vault install exactly that and nothing but
addresses after it; the authority is signed, and the pass succeeds where the addresses can be brought
in line. -/
theorem external_signing (h : PassesFrom s passes t) (hgenerated : s.state.isGenerated)
    (hunsigned : ¬ s.state.isSigned)
    (hnothing : ∀ pass ∈ passes, ∃ secret, LooksForCertificate pass secret ∧
      Finds pass secret (Unusable (certificateKey secret))) :
    (∀ pass ∈ passes, Waits s pass ∧
      ∀ e, pass.result = .error e → e.retryPolicy = .poll ∧ e.phase = .prepared) ∧
    ∀ last u secret pem, PassesFrom t [last] u → LooksForCertificate last secret →
      Finds last secret (fun data =>
        ∃ found, data = some found ∧ HoldsText (certificateKey secret) pem found) →
      (∃ session response urls,
        writes last.events = installWrite last.seen session pem (.ok response) :: urls ∧
          ∀ w ∈ urls, w.path = urlsPath last.seen) ∧
      last.next = { s with state := .signed s.state.isExported } ∧
      (Works last.events → ∃ outcome, last.result = .ok outcome) := by
  obtain ⟨hwaits, hgenerated', hunsigned', hsame⟩ := h.waits hgenerated hunsigned hnothing
  constructor
  · intro pass hmem
    refine ⟨hwaits pass hmem, fun e he => ?_⟩
    obtain ⟨secret, -, hresult⟩ := (hwaits pass hmem).result
    rw [hresult] at he
    cases he
    exact ⟨rfl, rfl⟩
  · intro last u secret pem hlast hlooks hfinds
    cases hlast with
    | cons hseen hpass =>
      subst hseen
      obtain ⟨hwrites, hnext, hok⟩ := signs_of_usable hlooks.signs hgenerated' hunsigned'
        (ends_of_exec hpass) hlooks.work hfinds
      refine ⟨hwrites, ?_, hok⟩
      rw [hnext, ← isExported_awaiting s]
      exact congrArg (fun a : CaProgress => { a with state := a.state.sign }) hsame

-- ---------------------------------------------------------------------------
-- An intermediate authority
-- ---------------------------------------------------------------------------

/-- The intermediate authority once its key was made. -/
def waitingMid : Pki :=
  { mid with
    status := some { progress := ⟨.awaitingSignature false, some .intermediate, some .internal⟩ } }

def midSecret : SignedSecret := { name := "mid-cert" }

theorem midSigns : SignsExternally waitingMid midSecret :=
  ⟨by decide +kernel, rfl, rfl⟩

/-- A pass over the authority in a cluster with some secrets. -/
def midRun (secrets : Dict SecretData) :=
  (reconcile {} waitingMid).run Memory.Backends.storeWorld { midWorld with cluster := { secrets } }

/-- In whatever secret is found there is this certificate, or none. -/
def findsOnly (pem : Option String) : Event → Bool
  | .call (.cluster (.getSecret ..)) (.ok data) => certificateIn midSecret data = pem
  | _ => true

theorem exists_midPass (secrets : Dict SecretData) :
    ∃ result next, (midRun secrets).result = some (result, next) ∧
      PassesFrom (progress waitingMid) [⟨waitingMid, (midRun secrets).events, result, next⟩] next := by
  have hexec : Exec (reconcile {} waitingMid) (midRun secrets).events (midRun secrets).result :=
    Program.exec_run _ _ _
  obtain ⟨⟨result, next, hresult, -⟩, -⟩ := reconcile_ends hexec
  rw [hresult] at hexec
  exact ⟨result, next, hresult, .cons rfl hexec (.nil next)⟩

theorem looksForCertificate_mid (h : Works es) :
    LooksForCertificate ⟨waitingMid, es, result, next⟩ midSecret where
  signs := midSigns
  work := ⟨fun e he hfails => absurd hfails (h e he), nofun⟩

/-- The authority waits while there is no secret, and is signed once there is one. -/
theorem external_signing_mid :
    ∃ waiting signing u, PassesFrom (progress waitingMid) [waiting] (progress waitingMid) ∧
      PassesFrom (progress waitingMid) [signing] u ∧
      waiting.result = .error (missingCertificate waitingMid midSecret) ∧
      writes waiting.events = [] ∧
      (∃ session response urls,
        writes signing.events = installWrite waitingMid session "certificate" (.ok response) :: urls) ∧
      signing.next.state = .signed false ∧ ∃ outcome, signing.result = .ok outcome := by
  let secrets : Dict SecretData :=
    Dict.ofList [("pki/mid-cert", Dict.ofList [("tls.crt", Text.encode "certificate")])]
  obtain ⟨result, next, hresult, hwaits⟩ := exists_midPass ∅
  obtain ⟨result', next', -, hsigns⟩ := exists_midPass secrets
  have hnothing : ∀ pass ∈ [PassRecord.mk waitingMid (midRun ∅).events result next],
      ∃ secret, LooksForCertificate pass secret ∧
        Finds pass secret (Unusable (certificateKey secret)) := by
    intro pass hmem
    obtain rfl := List.mem_singleton.1 hmem
    refine ⟨midSecret, looksForCertificate_mid (by decide +kernel), fun data hdata => ?_⟩
    have hfinds : ∀ e ∈ (midRun ∅).events, findsOnly none e := by decide +kernel
    exact certificateIn_eq_none.1 (of_decide_eq_true (hfinds _ hdata))
  obtain ⟨hpasses, hlast⟩ := external_signing hwaits rfl nofun hnothing
  obtain ⟨⟨⟨secret, hsecret, hwaiting⟩, hnext, hwrites⟩, -⟩ := hpasses _ (List.mem_singleton_self _)
  obtain rfl := Option.some.inj hsecret
  have hnext : next = progress waitingMid := hnext
  subst hnext
  have hworks : Works (midRun secrets).events := by decide +kernel
  have hfinds : ∀ e ∈ (midRun secrets).events, findsOnly (some "certificate") e := by decide +kernel
  obtain ⟨⟨session, response, urls, hinstalls, -⟩, hsigned, hok⟩ :=
    hlast _ _ midSecret "certificate" hsigns (looksForCertificate_mid hworks) fun data hdata =>
      certificateIn_eq_some.1 (of_decide_eq_true (hfinds _ hdata))
  refine ⟨_, _, _, hwaits, hsigns, hwaiting, hwrites, ⟨session, response, urls, hinstalls⟩, ?_, ?_⟩
  · rw [hsigned]
    rfl
  · exact hok hworks

end VaultOperator.Pki
