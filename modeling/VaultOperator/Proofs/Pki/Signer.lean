import VaultOperator.Proofs.Pki.History

/-!
# Who signs an authority

A pass that has another authority sign looked it up as it is declared, found it ready, and logged in
for it right after that (`Signature`). The look-up tells the type that the signer declares; it tells
the type it was made with only where the declaration was not changed since (`signed_by_declared`).
-/

namespace VaultOperator.Pki

open VaultOperator.Path (PkiOperation)

variable {settings : Engine.Settings} {p : Pki} {session : Vault.Session}

-- ---------------------------------------------------------------------------
-- What leads to a signature
-- ---------------------------------------------------------------------------

/-- A write that has another authority sign, among the events that led to it: the request was at
hand before the signer was looked up, and the session is the one of the login that followed. -/
inductive Signature (settings : Engine.Settings) (p : Pki) (fresh : Option String) :
    List Event → VaultWrite → Prop
  | signed {before login after : List Event} (signer : Signer) (authority : Pki)
    (session : Vault.Session) (csr : String) (answer : Except Vault.Error (Option Payload))
    (hsigner : p.spec.internalSign = some signer) (hcsr : HasCsr p fresh before csr)
    (htype : authority.spec.type = .root) (hready : (caState authority).isSigned)
    (hlogin : Engine.LoginTrace settings (signer.ns.getD p.metadata.nsAny) authority.spec.access
      login (.ok session)) :
    Signature settings p fresh
      (before ++ getPkiEvent (signer.ns.getD p.metadata.nsAny) signer.name (.ok (some authority)) ::
        (login ++ signEvent p authority session csr answer :: after))
      (signWrite p authority session csr answer)

theorem HasCsr.append_left {es fs : List Event} (h : HasCsr p fresh fs csr) :
    HasCsr p fresh (es ++ fs) csr := by
  rcases h with h | ⟨h, data, hget, hcsr⟩
  · exact .inl h
  · exact .inr ⟨h, data, List.mem_append_right _ hget, hcsr⟩

theorem Signature.append_left {es fs : List Event} (h : Signature settings p fresh fs w) :
    Signature settings p fresh (es ++ fs) w := by
  cases h with
  | signed signer authority session csr answer hsigner hcsr htype hready hlogin =>
    rw [← List.append_assoc]
    exact .signed signer authority session csr answer hsigner hcsr.append_left htype hready hlogin

theorem Signature.append_right {es fs : List Event} (h : Signature settings p fresh es w) :
    Signature settings p fresh (es ++ fs) w := by
  cases h with
  | signed signer authority session csr answer hsigner hcsr htype hready hlogin =>
    simp only [List.append_assoc, List.cons_append]
    exact .signed signer authority session csr answer hsigner hcsr htype hready hlogin

theorem signature_of_request {es fs : List Event} (hsigner : p.spec.internalSign = some signer)
    (hcsr : HasCsr p fresh es csr) (h : SigningTrace settings p signer csr fs r)
    (hw : w ∈ writes fs) : Signature settings p fresh (es ++ fs) w := by
  cases h with
  | @unasked es answer e hsteps =>
    have hsilent : writes es = [] := writes_eq_nil hsteps
    simp [getPkiEvent, hsilent] at hw
  | @asked login authority session answer r htype hready hlogin =>
    have hsilent : writes login = [] := writes_eq_nil hlogin.isLoginStep
    obtain rfl : w = signWrite p authority session csr answer := by
      simpa [getPkiEvent, signEvent, signWrite, hsilent] using hw
    exact .signed signer authority session csr answer hsigner hcsr htype hready hlogin

theorem certificate_signature (h : EndsWith (certificate settings p fresh) s es r t)
    (hw : w ∈ writes es) : Signature settings p fresh es w := by
  unfold certificate at h
  split at h
  · next signer hsigner =>
    rcases endsWith_bind.1 h with ⟨csr, _, es₁, es₂, hrequest, hlift, rfl⟩ | ⟨e, hrequest, rfl⟩ <;>
      obtain ⟨hsilent, -, hrequest⟩ := signingRequest_ends hrequest
    · obtain ⟨hsign, rfl⟩ := CaPass.endsWith_lift.1 hlift
      rw [writes_append, hsilent, List.nil_append] at hw
      cases hrequest with
      | found csr hcsr => exact signature_of_request hsigner hcsr (signInternally_trace hsign) hw
    · rw [hsilent] at hw
      cases hw
  · obtain ⟨hget, rfl⟩ := CaPass.endsWith_lift.1 h
    rw [(externalCertificate_ends hget).1] at hw
    cases hw
  · obtain ⟨rfl, rfl, rfl⟩ := endsWith_throw.1 h
    cases hw

/-- A write that has an authority sign, at whatever mount. -/
def IsSignIntermediate (w : VaultWrite) : Prop :=
  ∃ mount, w.path = PkiOperation.signIntermediate.path mount

theorem not_isSignIntermediate_of_makes (h : Makes p es ops) (hops : .signIntermediate ∉ ops) :
    ∀ w ∈ writes es, ¬ IsSignIntermediate w := by
  rintro w hw ⟨mount, hpath⟩
  exact hops (h.mem hw hpath)

theorem sign_signature (h : EndsWith (sign settings p session fresh outcome) s es r t)
    (hw : w ∈ writes es) (hsigns : IsSignIntermediate w) : Signature settings p fresh es w := by
  unfold sign at h
  split at h
  · rw [CaPass.endsWith_progress_bind] at h
    obtain ⟨counts, _, rfl, hcounts, hpure⟩ := CaPass.advance_bind_ends h
    obtain ⟨rfl, rfl, rfl⟩ := endsWith_pure.1 hpure
    rw [writes_append, writes_eq_nil_of_counts hcounts] at hw
    cases hw
  · rw [CaPass.endsWith_progress_bind] at h
    obtain ⟨counts, es₁, rfl, hcounts, hrest⟩ := CaPass.advance_bind_ends h
    rw [writes_append, writes_eq_nil_of_counts hcounts, List.nil_append] at hw
    refine .append_left ?_
    rcases endsWith_bind.1 hrest with ⟨pem, u, es₂, es₃, hcertificate, hinstall, rfl⟩ |
      ⟨e, hcertificate, rfl⟩
    · rcases List.mem_append.1 (writes_append .. ▸ hw) with hw | hw
      · exact (certificate_signature hcertificate hw).append_right
      · obtain ⟨answer, counts', rfl, hcounts', -⟩ := install_ends hinstall
        obtain rfl : w = installWrite p session pem answer := by
          simpa [installEvent, installWrite, writes_eq_nil_of_counts hcounts'] using hw
        obtain ⟨signerMount, hpath⟩ := hsigns
        have hpath : PkiOperation.setSigned.path (mount p) =
            PkiOperation.signIntermediate.path signerMount := hpath
        cases PkiOperation.path_inj hpath
    · exact certificate_signature hcertificate hw

theorem finish_signature (h : EndsWith (finish settings p session fresh outcome) s es r t)
    (hw : w ∈ writes es) (hsigns : IsSignIntermediate w) : Signature settings p fresh es w := by
  have hurls {outcome s es r t} (h : EndsWith (syncUrls p session outcome) s es r t)
      (hw : w ∈ writes es) : False := by
    obtain ⟨-, -, ops, hfirst, hmakes⟩ := syncUrls_ends h
    refine not_isSignIntermediate_of_makes hmakes (fun hop => ?_) w hw hsigns
    have hmem := hfirst.subset hop
    unfold urlOps at hmem
    split at hmem <;> simp at hmem
  unfold finish at h
  rw [CaPass.endsWith_progress_bind] at h
  split at h
  · exact (hurls h hw).elim
  · rcases endsWith_bind.1 h with ⟨_, _, es₁, es₂, hsign, hsync, rfl⟩ | ⟨e, hsign, rfl⟩
    · rcases List.mem_append.1 (writes_append .. ▸ hw) with hw | hw
      · exact (sign_signature hsign hw hsigns).append_right
      · exact (hurls hsync hw).elim
    · exact sign_signature hsign hw hsigns

theorem GenerateTrace.writes_eq (h : GenerateTrace p session s es r t) :
    ∃ answer, writes es = [⟨session, generatePath p, p.spec.generatePayload, answer⟩] := by
  cases h.generateEnd with
  | made response _ hwrites => exact ⟨_, hwrites⟩
  | failed _ answer _ hwrites => exact ⟨answer, hwrites⟩

theorem GenerateTrace.not_isSignIntermediate (h : GenerateTrace p session s es r t) :
    ∀ w ∈ writes es, ¬ IsSignIntermediate w := by
  obtain ⟨answer, hwrites⟩ := h.writes_eq
  rintro w hw ⟨signerMount, hpath⟩
  rw [hwrites, List.mem_singleton] at hw
  subst hw
  cases PkiOperation.path_inj hpath

theorem run_signature (h : EndsWith (run settings p) (progress p) es r t) (hw : w ∈ writes es)
    (hsigns : IsSignIntermediate w) : ∃ fresh, Signature settings p fresh es w := by
  cases runEnd_of_ends h with
  | stopped e hsteps =>
    rw [writes_eq_nil hsteps] at hw
    cases hw
  | proceeded session _ hes hlogin hproceed =>
    subst hes
    rw [writes_append, hlogin.silent, List.nil_append] at hw
    cases proceed_trace hproceed with
    | kept _ _ hfinish => exact ⟨_, (finish_signature hfinish hw hsigns).append_left⟩
    | unmade _ hgenerate => exact absurd hsigns (hgenerate.not_isSignIntermediate w hw)
    | made _ _ hgenerate hfinish =>
      rcases List.mem_append.1 (writes_append .. ▸ hw) with hw | hw
      · exact absurd hsigns (hgenerate.not_isSignIntermediate w hw)
      · exact ⟨_, (finish_signature hfinish hw hsigns).append_left.append_left⟩

-- ---------------------------------------------------------------------------
-- The signer
-- ---------------------------------------------------------------------------

theorem caState_eq (p : Pki) : caState p = (progress p).state := by
  unfold caState progress
  cases p.status <;> rfl

/-- Passes over the authority can have left what is recorded of it, whatever it declares now. -/
def IsReachable (p : Pki) : Prop :=
  ∃ passes, History passes (progress p)

/-- The type that an authority which is ready was made with. -/
theorem IsReachable.observedType (h : IsReachable p) (hready : (progress p).state.isSigned) :
    ∃ made, (progress p).observedType = some made := by
  obtain ⟨passes, hpasses⟩ := h
  obtain ⟨made, -, hmade, -⟩ :=
    hpasses.invariant.consistent.observed (CaState.isGenerated_of_isSigned hready)
  exact ⟨made, hmade⟩

/-- Whoever signs an authority is the signer it declares. The signer declares to be a root, it is
signed itself, and it is asked at its own mount in a session that was granted to its own access. It
was made as a root if and only if the type that it was made with is the one it declares now. -/
theorem signed_by_declared (hpass : Program.Exec (reconcile settings p) es r)
    (hstore : ∀ ns name authority, getPkiEvent ns name (.ok (some authority)) ∈ es →
      IsReachable authority) :
    ∀ w ∈ writes es, IsSignIntermediate w →
      ∃ signer authority made before login after,
        p.spec.internalSign = some signer ∧
        es = before ++ getPkiEvent (signer.ns.getD p.metadata.nsAny) signer.name
            (.ok (some authority)) ::
          (login ++ .call (.vault (.write w.session w.path w.body)) w.answer :: after) ∧
        Engine.LoginTrace settings (signer.ns.getD p.metadata.nsAny) authority.spec.access login
          (.ok w.session) ∧
        w.path = PkiOperation.signIntermediate.path (mount authority) ∧
        authority.spec.type = .root ∧ (progress authority).state.isSigned ∧
        (progress authority).observedType = some made ∧
        (made = .root ↔ made = authority.spec.type) := by
  intro w hw hsigns
  obtain ⟨⟨_, _, rfl, hends⟩, -⟩ := reconcile_ends hpass
  obtain ⟨fresh, hsignature⟩ := run_signature hends hw hsigns
  cases hsignature with
  | @signed before login after signer authority session csr answer hsigner _ htype hready hlogin =>
    have hready : (progress authority).state.isSigned := caState_eq authority ▸ hready
    have hfound := hstore (signer.ns.getD p.metadata.nsAny) signer.name authority
      (List.mem_append_right _ List.mem_cons_self)
    obtain ⟨made, hmade⟩ := hfound.observedType hready
    exact ⟨signer, authority, made, before, login, after, hsigner, rfl, hlogin, rfl, htype, hready,
      hmade, by rw [htype]⟩

/-- The leaf, to be signed by another authority. -/
def leafOf (signer : Pki) : Pki :=
  { leaf with
    spec := { leaf.spec with internalSign := some { name := signer.metadata.nameAny } } }

/-- A world with one authority in its cluster, in which Vault signs for it. -/
def signingWorld (signer : Pki) : Memory.Backends Memory.Store :=
  { vault :=
      { responses := Dict.ofList
          [("leaf/intermediate/generate/exported", Dict.ofList [("csr", .str "request")]),
            ("pki/root/sign-intermediate", Dict.ofList [("certificate", .str "certificate")])] }
    cluster := { authorities := Dict.ofList [("pki/" ++ signer.metadata.nameAny, signer)] }
    clock := ⟨0, 0⟩ }

def signingRun (signer : Pki) :=
  (reconcile {} (leafOf signer)).run Memory.Backends.storeWorld (signingWorld signer)

/-- The progress of the authority that was found. -/
def foundProgress? : Event → Option CaProgress
  | .call (.cluster (.getPki ..)) (.ok (some authority)) => some (progress authority)
  | _ => none

/-- What is found in the world of a signer that passes can have left there. -/
theorem isReachable_of_found {signer : Pki} (hsigner : IsReachable signer)
    (hfound : ∀ e ∈ (signingRun signer).events,
      foundProgress? e = none ∨ foundProgress? e = some (progress signer)) :
    ∀ ns name authority, getPkiEvent ns name (.ok (some authority)) ∈ (signingRun signer).events →
      IsReachable authority := by
  intro ns name authority hmem
  rcases hfound _ hmem with h | h
  · cases h
  · have hsame : progress authority = progress signer := Option.some.inj h
    rw [IsReachable, hsame]
    exact hsigner

theorem isReachable_signedRoot : IsReachable signedRoot :=
  have hrun : ((reconcile {} root).run Memory.Backends.storeWorld keyWorld).result.map (·.2) =
      some (progress signedRoot) := by decide +kernel
  history_of_run rfl hrun

def signsAtRoot (w : VaultWrite) : Bool :=
  w.path = PkiOperation.signIntermediate.path "pki"

/-- The root signs the leaf. -/
theorem signed_by_declared_root :
    ∃ es r, Program.Exec (reconcile {} (leafOf signedRoot)) es r ∧
      (∀ ns name authority, getPkiEvent ns name (.ok (some authority)) ∈ es →
        IsReachable authority) ∧
      ∃ w ∈ writes es, IsSignIntermediate w ∧
        ∃ signer authority made before login after,
          (leafOf signedRoot).spec.internalSign = some signer ∧
          es = before ++ getPkiEvent (signer.ns.getD "pki") signer.name (.ok (some authority)) ::
            (login ++ .call (.vault (.write w.session w.path w.body)) w.answer :: after) ∧
          Engine.LoginTrace {} (signer.ns.getD "pki") authority.spec.access login (.ok w.session) ∧
          w.path = PkiOperation.signIntermediate.path (mount authority) ∧
          authority.spec.type = .root ∧ (progress authority).state.isSigned ∧
          (progress authority).observedType = some made ∧
          (made = .root ↔ made = authority.spec.type) := by
  have hexec : Program.Exec (reconcile {} (leafOf signedRoot)) (signingRun signedRoot).events
      (signingRun signedRoot).result := Program.exec_run _ _ _
  have hstore := isReachable_of_found isReachable_signedRoot (by decide +kernel)
  have hwrites : ∃ w ∈ writes (signingRun signedRoot).events, signsAtRoot w := by decide +kernel
  obtain ⟨w, hw, hsigns⟩ := hwrites
  have hsigns : IsSignIntermediate w := ⟨"pki", of_decide_eq_true hsigns⟩
  exact ⟨_, _, hexec, hstore, w, hw, hsigns, signed_by_declared hexec hstore w hw hsigns⟩

/-- An intermediate authority that a certificate from elsewhere is installed for. -/
def mid : Pki :=
  { root with
    metadata := { root.metadata with name := some "mid" }
    spec :=
      { root.spec with
        commonName := "Example Mid", type := .intermediate
        externalSign := some { name := "mid-cert" } } }

/-- The intermediate authority once a pass installed the certificate, declared as a root since. -/
def editedMid : Pki :=
  { mid with
    spec := { mid.spec with type := .root, externalSign := none }
    status := some { progress := ⟨.signed false, some .intermediate, some .internal⟩ } }

def midWorld : Memory.Backends Memory.Store :=
  { vault :=
      { responses := Dict.ofList
          [("pki/intermediate/generate/internal", Dict.ofList [("csr", .str "request")])] }
    cluster :=
      { secrets := Dict.ofList
          [("pki/mid-cert", Dict.ofList [("tls.crt", Text.encode "certificate")])] }
    clock := ⟨0, 0⟩ }

theorem isReachable_editedMid : IsReachable editedMid :=
  have hrun : ((reconcile {} mid).run Memory.Backends.storeWorld midWorld).result.map (·.2) =
      some (progress editedMid) := by decide +kernel
  history_of_run rfl hrun

/-- An authority that was made as an intermediate signs once it is declared as a root. -/
theorem signed_by_intermediate :
    ¬ ∀ settings p es r, Program.Exec (reconcile settings p) es r →
      (∀ ns name authority, getPkiEvent ns name (.ok (some authority)) ∈ es →
        IsReachable authority) →
      ∀ w ∈ writes es, IsSignIntermediate w →
        ∃ ns name authority, getPkiEvent ns name (.ok (some authority)) ∈ es ∧
          (progress authority).observedType = some .root ∧
          (progress authority).state.isSigned := by
  intro hclaim
  have hexec : Program.Exec (reconcile {} (leafOf editedMid)) (signingRun editedMid).events
      (signingRun editedMid).result := Program.exec_run _ _ _
  have hfound : ∀ e ∈ (signingRun editedMid).events,
      foundProgress? e = none ∨ foundProgress? e = some (progress editedMid) := by decide +kernel
  have hwrites : ∃ w ∈ writes (signingRun editedMid).events, signsAtRoot w := by decide +kernel
  obtain ⟨w, hw, hsigns⟩ := hwrites
  obtain ⟨ns, name, authority, hmem, htype, -⟩ := hclaim {} _ _ _ hexec
    (isReachable_of_found isReachable_editedMid hfound) w hw ⟨"pki", of_decide_eq_true hsigns⟩
  rcases hfound _ hmem with h | h
  · cases h
  · have hsame : progress authority = progress editedMid := Option.some.inj h
    rw [hsame] at htype
    cases htype

end VaultOperator.Pki
