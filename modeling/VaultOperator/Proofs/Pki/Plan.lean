import Mathlib.Data.List.Forall2
import VaultOperator.Proofs.Path.Segments
import VaultOperator.Proofs.Engine.Sync
import VaultOperator.Proofs.Pki.Steps

/-!
# The writes of a pass over a certificate authority

Which operations a pass sets out to make (`plan`), and that its writes are a first part of them
(`run_ends`).
-/

namespace VaultOperator.Pki

open VaultOperator.Path (PkiOperation)

variable {settings : Engine.Settings} {p : Pki} {session : Vault.Session}

/-- The addresses were looked up, and others than those that are declared were found or none. -/
def UrlsDiffer (p : Pki) (urls : Payload) (es : List Event) : Prop :=
  ∃ session observed,
    .call (.vault (.read session (PkiOperation.configUrls.path (mount p)))) (.ok observed) ∈ es ∧
    Engine.Differs .desiredKeys urls observed

def certificateBody (pem : String) : Payload :=
  (∅ : Payload).insert "certificate" (.str pem)

/-- A write that makes an operation for the authority: at the mount of the authority, or for its
signature at that of the one that signs. -/
def IsWriteOf (p : Pki) (es : List Event) (w : VaultWrite) : PkiOperation → Prop
  | .generate type mode =>
    w.path = (PkiOperation.generate type mode).path (mount p) ∧ w.body = p.spec.generatePayload
  | .signIntermediate => IsSigning p es w
  | .setSigned =>
    w.path = PkiOperation.setSigned.path (mount p) ∧
      ∃ pem, w.body = certificateBody pem
  | .configUrls =>
    w.path = PkiOperation.configUrls.path (mount p) ∧ p.spec.urlsPayload? = some w.body ∧
      UrlsDiffer p w.body es
  | .deleteRoot => False

theorem IsWriteOf.mono (h : IsWriteOf p es w op) (hes : es ⊆ fs) : IsWriteOf p fs w op := by
  cases op with
  | signIntermediate => exact IsSigning.mono h hes
  | configUrls =>
    obtain ⟨hpath, hurls, session, observed, hread, hdiffer⟩ := h
    exact ⟨hpath, hurls, session, observed, hes hread, hdiffer⟩
  | _ => exact h

/-- The path of a write tells which operation it makes. -/
theorem IsWriteOf.op_eq (h : IsWriteOf p es w op) (hpath : w.path = op'.path m) : op = op' := by
  cases op with
  | signIntermediate =>
    obtain ⟨authority, -, hw, -⟩ := h
    exact PkiOperation.path_inj (hw.symm.trans hpath)
  | deleteRoot => exact h.elim
  | _ => exact PkiOperation.path_inj (h.1.symm.trans hpath)

/-- The writes of the events make the operations, in this order and none else. -/
def Makes (p : Pki) (es : List Event) (ops : List PkiOperation) : Prop :=
  List.Forall₂ (IsWriteOf p es) (writes es) ops

theorem makes_nil (h : writes es = []) : Makes p es [] := by
  simp [Makes, h]

theorem makes_singleton (hwrites : writes es = [w]) (hw : IsWriteOf p es w op) :
    Makes p es [op] := by
  simp [Makes, hwrites, hw]

theorem Makes.append {es fs : List Event} (hes : Makes p es ops) (hfs : Makes p fs ops') :
    Makes p (es ++ fs) (ops ++ ops') := by
  rw [Makes, writes_append]
  exact List.rel_append
    (hes.imp fun _ _ h => h.mono (List.subset_append_left _ _))
    (hfs.imp fun _ _ h => h.mono (List.subset_append_right _ _))

theorem Makes.mem (h : Makes p es ops) (hw : w ∈ writes es) (hpath : w.path = op.path m) :
    op ∈ ops := by
  unfold Makes at h
  generalize writes es = ws at h hw
  induction h with
  | nil => cases hw
  | cons hhead _ ih =>
    rcases List.mem_cons.1 hw with rfl | hw
    · exact hhead.op_eq hpath ▸ List.mem_cons_self
    · exact List.mem_cons_of_mem _ (ih hw)

-- ---------------------------------------------------------------------------
-- Signing
-- ---------------------------------------------------------------------------

/-- The calls up to the look at the authority that is to sign. -/
def beforeSigner (es : List Event) : List Event :=
  es.takeWhile fun e => !e.isGetPki

theorem beforeSigner_append {es fs : List Event} (h : ∀ e ∈ es, ¬ e.isGetPki) :
    beforeSigner (es ++ fs) = es ++ beforeSigner fs :=
  List.takeWhile_append_of_pos fun e he => by simpa using h e he

theorem beforeSigner_eq_self {es : List Event} (h : ∀ e ∈ es, ¬ e.isGetPki) :
    beforeSigner es = es :=
  List.takeWhile_eq_self_iff.2 fun e he => by simpa using h e he

/-- The authority is to be signed internally, and neither this pass nor the companion secret has
a request for it. -/
def MissesCsr (p : Pki) (fresh : Option String) (es : List Event) : Prop :=
  p.spec.internalSign.isSome ∧ fresh = none ∧ LacksCsr p (beforeSigner es)

theorem lacksCsr_append {es fs : List Event} :
    LacksCsr p (es ++ fs) ↔ LacksCsr p es ∨ LacksCsr p fs := by
  simp [LacksCsr, or_and_right, exists_or]

theorem not_lacksCsr {es : List Event} (h : ∀ e ∈ es, ¬ e.isLookup) : ¬ LacksCsr p es := by
  rintro ⟨data, hget, -⟩
  exact h _ hget rfl

theorem missesCsr_append_left {es fs : List Event} (h : ∀ e ∈ es, ¬ e.isLookup) :
    MissesCsr p fresh (es ++ fs) ↔ MissesCsr p fresh fs := by
  have hes : ∀ e ∈ es, ¬ e.isGetPki := fun e he hpki => h e he (Event.isLookup_of_isGetPki hpki)
  simp [MissesCsr, beforeSigner_append hes, lacksCsr_append, not_lacksCsr h]

theorem missesCsr_append_right {es fs : List Event} (h : ∀ e ∈ fs, ¬ e.isLookup) :
    MissesCsr p fresh (es ++ fs) ↔ MissesCsr p fresh es := by
  have hfs : ¬ LacksCsr p (beforeSigner fs) :=
    not_lacksCsr fun e he => h e ((List.takeWhile_prefix _).subset he)
  have happend : beforeSigner (es ++ fs) = if (beforeSigner es).length = es.length then
      es ++ beforeSigner fs else beforeSigner es := List.takeWhile_append
  split at happend
  · next hlength =>
    have hself : beforeSigner es = es := (List.takeWhile_prefix _).eq_of_length hlength
    simp only [MissesCsr, happend, hself, lacksCsr_append, hfs, or_false]
  · simp only [MissesCsr, happend]

def certificateOps (p : Pki) : List PkiOperation :=
  if p.spec.internalSign.isSome then [.signIntermediate] else []

/-- How the search for a certificate ends. -/
inductive CertificateEnd (p : Pki) (fresh : Option String) (s : CaProgress) (es : List Event) :
    Except ReconcileError String → CaProgress → Prop
  | lost (e : ReconcileError) (hmisses : MissesCsr p fresh es) (hwrites : writes es = []) :
    CertificateEnd p fresh s es (.error e) { s with state := .notGenerated }
  | failed (e : ReconcileError) (ops : List PkiOperation) (hkept : ¬ MissesCsr p fresh es)
    (hops : ops <+: certificateOps p)
    (hwrites : Makes p es ops) :
    CertificateEnd p fresh s es (.error e) s
  | found (certificate : String) (hkept : ¬ MissesCsr p fresh es)
    (hwrites : Makes p es (certificateOps p)) :
    CertificateEnd p fresh s es (.ok certificate) s

theorem certificateOps_of_signer (hsigner : p.spec.internalSign = some signer) :
    certificateOps p = [.signIntermediate] := by
  simp [certificateOps, hsigner]

/-- What is asked of the signing authority comes after its look-up, and a request was found before. -/
theorem certificateEnd_of_request {es fs : List Event}
    (hsigner : p.spec.internalSign = some signer) (hsilent : writes es = [])
    (hquiet : ∀ e ∈ es, ¬ e.isGetPki) (hkept : fresh = none → ¬ LacksCsr p es)
    (h : Ends (signInternally settings p signer csr) fs r) :
    CertificateEnd p fresh s (es ++ fs) r s := by
  obtain ⟨⟨e, rest, rfl, he⟩, hend⟩ := signInternally_ends hsigner h
  have hkept : ¬ MissesCsr p fresh (es ++ e :: rest) := by
    rintro ⟨-, hfresh, hlacks⟩
    rw [beforeSigner_append hquiet] at hlacks
    exact hkept hfresh (by simpa [beforeSigner, he] using hlacks)
  cases hend with
  | unasked e hnone =>
    exact .failed e [] hkept List.nil_prefix (makes_nil (by simp [hsilent, hnone]))
  | asked w r hone hw =>
    have hmakes : Makes p (es ++ e :: rest) (certificateOps p) := by
      rw [certificateOps_of_signer hsigner]
      exact (makes_nil hsilent).append (makes_singleton hone hw)
    cases r with
    | error e => exact .failed e _ hkept (List.prefix_refl _) hmakes
    | ok certificate => exact .found certificate hkept hmakes

theorem certificateEnd_of_noRequest {e : ReconcileError} (hinternal : p.spec.internalSign.isSome)
    (hsilent : writes es = []) (hquiet : ∀ e ∈ es, ¬ e.isGetPki)
    (h : RequestEnd p fresh s es (.error e) t) : CertificateEnd p fresh s es (.error e) t := by
  have hbefore : beforeSigner es = es := beforeSigner_eq_self hquiet
  cases h with
  | unread e hkept =>
    have hkept : ¬ MissesCsr p fresh es := fun hmisses => hkept (hbefore ▸ hmisses.2.2)
    exact .failed e [] hkept List.nil_prefix (makes_nil hsilent)
  | lost e hfresh hlacks => exact .lost e ⟨hinternal, hfresh, hbefore.symm ▸ hlacks⟩ hsilent

theorem certificate_ends (h : EndsWith (certificate settings p fresh) s es r t) :
    CertificateEnd p fresh s es r t := by
  unfold certificate at h
  split at h
  · next signer hsigner =>
    rcases endsWith_bind.1 h with ⟨csr, _, es₁, es₂, hrequest, hlift, rfl⟩ | ⟨e, hrequest, rfl⟩ <;>
      obtain ⟨hsilent, hquiet, hrequest⟩ := signingRequest_ends hrequest
    · obtain ⟨hsign, rfl⟩ := CaPass.endsWith_lift.1 hlift
      cases hrequest with
      | found csr _ hkept => exact certificateEnd_of_request hsigner hsilent hquiet hkept hsign
    · exact certificateEnd_of_noRequest (by simp [hsigner]) hsilent hquiet hrequest
  · next secret hinternal hexternal =>
    obtain ⟨hget, rfl⟩ := CaPass.endsWith_lift.1 h
    have hkept : ¬ MissesCsr p fresh es := by simp [MissesCsr, hinternal]
    have hmakes : Makes p es [] := makes_nil (externalCertificate_ends hget).1
    cases r with
    | error e => exact .failed e [] hkept List.nil_prefix hmakes
    | ok certificate =>
      refine .found certificate hkept ?_
      simpa [certificateOps, hinternal] using hmakes
  · next hinternal _ =>
    obtain ⟨rfl, rfl, rfl⟩ := endsWith_throw.1 h
    exact .failed _ [] (by simp [MissesCsr, hinternal]) List.nil_prefix .nil

/-- Vault took a certificate for the authority. -/
def Installed (p : Pki) (es : List Event) : Prop :=
  ∃ w ∈ writes es, w.path = PkiOperation.setSigned.path (mount p) ∧
    ∃ response, w.answer = .ok response

theorem Installed.append_left {es fs : List Event} (h : Installed p es) : Installed p (es ++ fs) := by
  obtain ⟨w, hw, h⟩ := h
  exact ⟨w, by simp [hw], h⟩

def signOps (p : Pki) : List PkiOperation :=
  match p.spec.type with
  | .root => []
  | .intermediate => certificateOps p ++ [.setSigned]

theorem certificateOps_first (htype : p.spec.type = .intermediate) :
    certificateOps p <+: signOps p := by
  rw [signOps, htype]
  exact List.prefix_append _ _

theorem setSigned_not_mem (hops : ops <+: certificateOps p) : PkiOperation.setSigned ∉ ops := by
  intro h
  have hmem := hops.subset h
  simp [certificateOps] at hmem

def installEvent (p : Pki) (session : Vault.Session) (pem : String)
    (answer : Except Vault.Error (Option Payload)) : Event :=
  .call (.vault (.write session (PkiOperation.setSigned.path (mount p)) (certificateBody pem)))
    answer

def installWrite (p : Pki) (session : Vault.Session) (pem : String)
    (answer : Except Vault.Error (Option Payload)) : VaultWrite :=
  ⟨session, PkiOperation.setSigned.path (mount p), certificateBody pem, answer⟩

/-- How installing a certificate ends, by what Vault answers. -/
def InstallEnd (outcome : SyncOutcome) (s : CaProgress) (r : Except ReconcileError SyncOutcome)
    (t : CaProgress) : Except Vault.Error (Option Payload) → Prop
  | .ok _ => r = .ok outcome ∧ t = { s with state := s.state.sign }
  | .error cause => r = .error (.remote cause) ∧ t = s

theorem install_ends
    (h : EndsWith (do
      let _ ← CaPass.lift (Pass.write session (PkiOperation.setSigned.path (mount p))
        (certificateBody pem))
      CaPass.advance (← CaPass.progress).state.sign
      return outcome) s es r t) :
    ∃ answer counts, es = installEvent p session pem answer :: counts ∧ (∀ e ∈ counts, e.isCount) ∧
      InstallEnd outcome s r t answer := by
  rcases endsWith_bind.1 h with ⟨response, _, _, _, hlift, hsigned, rfl⟩ | ⟨e, hlift, rfl⟩ <;>
    obtain ⟨hwrite, rfl⟩ := CaPass.endsWith_lift.1 hlift <;>
    obtain ⟨answer, rfl, hanswer⟩ := Pass.ends_write.1 hwrite
  · obtain rfl := ok_eq_mapError.1 hanswer
    rw [CaPass.endsWith_progress_bind] at hsigned
    obtain ⟨counts, _, rfl, hcounts, hpure⟩ := CaPass.advance_bind_ends hsigned
    obtain ⟨rfl, rfl, rfl⟩ := endsWith_pure.1 hpure
    exact ⟨.ok response, _, rfl, by simpa using hcounts, rfl, rfl⟩
  · obtain ⟨cause, rfl, rfl⟩ := error_eq_mapError.1 hanswer
    exact ⟨.error cause, _, rfl, by simp, rfl, rfl⟩

inductive SignEnd (p : Pki) (fresh : Option String) (s : CaProgress) (es : List Event) :
    Except ReconcileError SyncOutcome → CaProgress → Prop
  | root (outcome : SyncOutcome) (htype : p.spec.type = .root) (hwrites : writes es = []) :
    SignEnd p fresh s es (.ok outcome) { s with state := s.state.sign }
  | lost (e : ReconcileError) (htype : p.spec.type = .intermediate)
    (hmisses : MissesCsr p fresh es) (hwrites : writes es = []) :
    SignEnd p fresh s es (.error e) { s with state := .notGenerated }
  | waiting (e : ReconcileError) (ops : List PkiOperation) (htype : p.spec.type = .intermediate)
    (hkept : ¬ MissesCsr p fresh es) (hinstalled : ¬ Installed p es) (hops : ops <+: signOps p)
    (hwrites : Makes p es ops) :
    SignEnd p fresh s es (.error e) { s with state := s.state.awaitSignature }
  | installed (outcome : SyncOutcome) (htype : p.spec.type = .intermediate)
    (hkept : ¬ MissesCsr p fresh es) (hinstalled : Installed p es)
    (hwrites : Makes p es (signOps p)) :
    SignEnd p fresh s es (.ok outcome) { s with state := s.state.awaitSignature.sign }

/-- A certificate that Vault refuses leaves the authority waiting, and one that it takes signs it. -/
theorem signEnd_of_install {fs : List Event} (htype : p.spec.type = .intermediate)
    (hkept : ¬ MissesCsr p fresh es) (hbefore : Makes p es (certificateOps p))
    (hquiet : ∀ e ∈ counts, e.isCount)
    (hend : InstallEnd outcome { s with state := s.state.awaitSignature } r t answer)
    (hes : fs = es ++ installEvent p session pem answer :: counts) : SignEnd p fresh s fs r t := by
  subst hes
  have hwrite : writes (installEvent p session pem answer :: counts) =
      [installWrite p session pem answer] := by
    simp [installEvent, installWrite, writes_eq_nil_of_counts hquiet]
  have hmakes : Makes p (es ++ installEvent p session pem answer :: counts) (signOps p) := by
    rw [signOps, htype]
    exact hbefore.append (makes_singleton hwrite ⟨rfl, pem, rfl⟩)
  have hlookups : ∀ e ∈ installEvent p session pem answer :: counts, ¬ e.isLookup := by
    simpa [installEvent, Event.isLookup] using
      fun e he => Event.not_isLookup_of_isCount (hquiet e he)
  have hkept : ¬ MissesCsr p fresh (es ++ installEvent p session pem answer :: counts) := by
    rwa [missesCsr_append_right hlookups]
  cases answer with
  | error cause =>
    obtain ⟨rfl, rfl⟩ := hend
    refine .waiting _ _ htype hkept ?_ (List.prefix_refl _) hmakes
    rintro ⟨w, hw, hpath, response, hok⟩
    rw [writes_append, hwrite, List.mem_append, List.mem_singleton] at hw
    rcases hw with hw | rfl
    · exact setSigned_not_mem (List.prefix_refl _) (hbefore.mem hw hpath)
    · cases hok
  | ok response =>
    obtain ⟨rfl, rfl⟩ := hend
    have hmem : installWrite p session pem (.ok response) ∈
        writes (es ++ installEvent p session pem (.ok response) :: counts) := by
      rw [writes_append, hwrite]
      exact List.mem_append_right _ (List.mem_singleton_self _)
    exact .installed _ htype hkept ⟨_, hmem, rfl, response, rfl⟩ hmakes

theorem sign_ends (h : EndsWith (sign settings p session fresh outcome) s es r t) :
    SignEnd p fresh s es r t := by
  unfold sign at h
  split at h
  · next htype =>
    rw [CaPass.endsWith_progress_bind] at h
    obtain ⟨counts, _, rfl, hcounts, hpure⟩ := CaPass.advance_bind_ends h
    obtain ⟨rfl, rfl, rfl⟩ := endsWith_pure.1 hpure
    exact .root _ htype (by simp [writes_eq_nil_of_counts hcounts])
  · next htype =>
    rw [CaPass.endsWith_progress_bind] at h
    obtain ⟨counts, es₁, rfl, hcounts, hrest⟩ := CaPass.advance_bind_ends h
    have hcount : ∀ e ∈ counts, ¬ e.isLookup := fun e he =>
      Event.not_isLookup_of_isCount (hcounts e he)
    have hsilent := writes_eq_nil_of_counts hcounts
    rcases endsWith_bind.1 hrest with ⟨pem, u, es₂, es₃, hcertificate, hinstall, rfl⟩ |
      ⟨e, hcertificate, rfl⟩
    · cases certificate_ends hcertificate with
      | found _ hkept hwrites =>
        obtain ⟨answer, counts', rfl, hcounts', hend⟩ := install_ends hinstall
        have hkept : ¬ MissesCsr p fresh (counts ++ es₂) := by rwa [missesCsr_append_left hcount]
        exact signEnd_of_install htype hkept ((makes_nil hsilent).append hwrites) hcounts' hend
          (List.append_assoc ..).symm
    · cases certificate_ends hcertificate with
      | lost _ hmisses hnone =>
        exact .lost e htype ((missesCsr_append_left hcount).2 hmisses) (by simp [hsilent, hnone])
      | failed _ ops hkept hops hwrites =>
        have hmakes : Makes p (counts ++ es₁) ops := (makes_nil hsilent).append hwrites
        refine .waiting e ops htype (fun h => hkept ((missesCsr_append_left hcount).1 h)) ?_
          (hops.trans (certificateOps_first htype)) hmakes
        rintro ⟨w, hw, hpath, -⟩
        exact setSigned_not_mem hops (hmakes.mem hw hpath)

-- ---------------------------------------------------------------------------
-- Addresses
-- ---------------------------------------------------------------------------

def urlOps (p : Pki) : List PkiOperation :=
  if p.spec.urlsPayload?.isSome then [.configUrls] else []

theorem syncUrls_ends (h : EndsWith (syncUrls p session outcome) s es r t) :
    t = s ∧ (∀ e ∈ es, ¬ e.isLookup) ∧ ∃ ops, ops <+: urlOps p ∧ Makes p es ops := by
  unfold syncUrls at h
  split at h
  · next urls hurls =>
    have hops : urlOps p = [.configUrls] := by simp [urlOps, hurls]
    suffices hsync : ∀ es', ∀ r' : Except ReconcileError SyncOutcome,
        Ends (Engine.syncPath session (PkiOperation.configUrls.path (mount p)) urls .desiredKeys)
          es' r' → (∀ e ∈ es', ¬ e.isLookup) ∧ ∃ ops, ops <+: urlOps p ∧ Makes p es' ops by
      rcases endsWith_bind.1 h with ⟨_, _, es₁, _, hlift, hpure, rfl⟩ | ⟨e, hlift, rfl⟩ <;>
        obtain ⟨hends, rfl⟩ := CaPass.endsWith_lift.1 hlift
      · obtain ⟨rfl, rfl, rfl⟩ := endsWith_pure.1 hpure
        rw [List.append_nil]
        exact ⟨rfl, hsync _ _ hends⟩
      · exact ⟨rfl, hsync _ _ hends⟩
    intro es' r' hends
    obtain ⟨answer, _, rfl, rfl | ⟨observed, written, rfl, hdiffers, rfl⟩⟩ :=
      Engine.syncPath_ends hends
    · exact ⟨by simp [Event.isLookup], [], List.nil_prefix, makes_nil rfl⟩
    · refine ⟨by simp [Event.isLookup], _, List.prefix_refl _, ?_⟩
      rw [hops]
      refine makes_singleton rfl ⟨rfl, hurls, session, observed, ?_, hdiffers⟩
      exact List.mem_cons_self
  · next hurls =>
    obtain ⟨rfl, rfl, rfl⟩ := endsWith_pure.1 h
    exact ⟨rfl, by simp, [], List.nil_prefix, makes_nil rfl⟩

-- ---------------------------------------------------------------------------
-- After the key
-- ---------------------------------------------------------------------------

/-- The rest of a pass once there is a key. -/
def finish (settings : Engine.Settings) (p : Pki) (session : Vault.Session)
    (fresh : Option String) (outcome : SyncOutcome) : CaPass SyncOutcome := do
  let outcome ←
    if (← CaPass.progress).state.isSigned then pure outcome
    else sign settings p session fresh outcome
  syncUrls p session outcome

/-- The rest of a pass once Vault granted a login. -/
def proceed (settings : Engine.Settings) (p : Pki) (session : Vault.Session) :
    CaPass SyncOutcome := do
  if (← CaPass.progress).state.isGenerated then finish settings p session none .unchanged
  else
    let csr ← generate p session
    finish settings p session csr .created

theorem run_eq : run settings p = (do
    CaPass.lift (Pass.check (validate p))
    let session ← CaPass.lift (Engine.login settings p.metadata.nsAny p.spec.access)
    proceed settings p session) :=
  rfl

/-- What is still to be done for an authority that has a key. -/
def finishOps (p : Pki) (s : CaProgress) : List PkiOperation :=
  (if s.state.isSigned then [] else signOps p) ++ urlOps p

/-- How far an authority that has a key gets, with its request to sign lost or not and a certificate
installed or not. -/
inductive Finished (p : Pki) (lost installed : Prop) (s : CaProgress) : CaProgress → Prop
  | signed (hsigned : s.state.isSigned) : Finished p lost installed s s
  | selfSigned (hsigned : ¬ s.state.isSigned) (htype : p.spec.type = .root) :
    Finished p lost installed s { s with state := s.state.sign }
  | lost (hsigned : ¬ s.state.isSigned) (htype : p.spec.type = .intermediate) (hlost : lost) :
    Finished p lost installed s { s with state := .notGenerated }
  | waiting (hsigned : ¬ s.state.isSigned) (htype : p.spec.type = .intermediate)
    (hkept : ¬ lost) (hinstalled : ¬ installed) :
    Finished p lost installed s { s with state := s.state.awaitSignature }
  | installed (hsigned : ¬ s.state.isSigned) (htype : p.spec.type = .intermediate)
    (hkept : ¬ lost) (hinstalled : installed) :
    Finished p lost installed s { s with state := s.state.awaitSignature.sign }

theorem finish_ends (h : EndsWith (finish settings p session fresh outcome) s es r t) :
    (∃ ops, ops <+: finishOps p s ∧ Makes p es ops) ∧
      Finished p (MissesCsr p fresh es) (Installed p es) s t ∧
      ∀ outcome, r = .ok outcome → t.state.isSigned := by
  unfold finish at h
  rw [CaPass.endsWith_progress_bind] at h
  split at h
  · next hsigned =>
    have h : EndsWith (syncUrls p session outcome) s es r t := h
    obtain ⟨rfl, -, hurls⟩ := syncUrls_ends h
    exact ⟨by simpa [finishOps, hsigned] using hurls, .signed hsigned, fun _ _ => hsigned⟩
  · next hsigned =>
    have hops : finishOps p s = signOps p ++ urlOps p := by simp [finishOps, hsigned]
    rw [hops]
    rcases endsWith_bind.1 h with ⟨_, _, es₁, es₂, hsign, hsync, rfl⟩ | ⟨e, hsign, rfl⟩
    · obtain ⟨rfl, hquiet, ops, hfirst, hmakes⟩ := syncUrls_ends hsync
      have hwrites (hsign : Makes p es₁ (signOps p)) :
          ∃ ops, ops <+: signOps p ++ urlOps p ∧ Makes p (es₁ ++ es₂) ops :=
        ⟨_, (List.prefix_append_right_inj _).2 hfirst, hsign.append hmakes⟩
      cases sign_ends hsign with
      | root _ htype hnone =>
        exact ⟨hwrites (by simpa [signOps, htype] using makes_nil hnone),
          .selfSigned hsigned htype, fun _ _ => rfl⟩
      | installed _ htype hkept hinstalled hall =>
        exact ⟨hwrites hall, .installed hsigned htype
          (fun h => hkept ((missesCsr_append_right hquiet).1 h)) hinstalled.append_left, fun _ _ => rfl⟩
    · cases sign_ends hsign with
      | lost _ htype hmisses hnone =>
        exact ⟨⟨[], List.nil_prefix, makes_nil hnone⟩, .lost hsigned htype hmisses, nofun⟩
      | waiting _ ops htype hkept hinstalled hfirst hmakes =>
        exact ⟨⟨ops, hfirst.trans (List.prefix_append _ _), hmakes⟩,
          .waiting hsigned htype hkept hinstalled, nofun⟩

/-- The operations that a pass sets out to make: one after the other, each at most once. -/
def plan (p : Pki) : List PkiOperation :=
  (if (progress p).state.isGenerated then [] else [.generate p.spec.type p.spec.keyMode]) ++
    finishOps p (progress p)

theorem plan_nodup (p : Pki) : (plan p).Nodup := by
  unfold plan finishOps signOps certificateOps urlOps
  cases p.spec.type <;> split_ifs <;> simp

end VaultOperator.Pki
