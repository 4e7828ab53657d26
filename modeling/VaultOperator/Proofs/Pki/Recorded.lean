import VaultOperator.Memory.World
import VaultOperator.Proofs.Pki.Ending

/-!
# What a pass over a certificate authority records

The progress that a pass hands back is told by its calls alone (`Mirrors`), for every progress that
passes can have left (`CaProgress.Consistent`).
-/

namespace VaultOperator

namespace CaState

@[simp] theorem isExported_awaitSignature (s : CaState) :
    s.awaitSignature.isExported = s.isExported := by
  unfold awaitSignature
  cases s.isExported <;> rfl

@[simp] theorem isExported_sign (s : CaState) : s.sign.isExported = s.isExported := by
  unfold sign
  cases s.isExported <;> rfl

@[simp] theorem isExported_ofGeneration (isExported : Bool) :
    (ofGeneration isExported).isExported = isExported := by
  cases isExported <;> rfl

@[simp] theorem isSigned_ofGeneration (isExported : Bool) :
    (ofGeneration isExported).isSigned = false := by
  cases isExported <;> rfl

theorem isGenerated_ofGeneration (isExported : Bool) : (ofGeneration isExported).isGenerated := by
  cases isExported <;> rfl

theorem isGenerated_of_isSigned {s : CaState} (h : s.isSigned) : s.isGenerated := by
  cases s <;> first | rfl | cases h

end CaState

/-- What passes leave behind: nothing is known of an authority that was not made, roots are signed,
intermediates wait or are signed, and what was observed is the authority that is there. -/
structure CaProgress.Consistent (s : CaProgress) : Prop where
  unobserved : s.observedType = none → s.state = .notGenerated
  root : s.observedType = some .root → ∃ isExported, s.state = .signed isExported
  intermediate : s.observedType = some .intermediate →
    s.state = .notGenerated ∨ ∃ isExported,
      s.state = .awaitingSignature isExported ∨ s.state = .signed isExported
  observed : s.state.isGenerated →
    ∃ type mode, s.observedType = some type ∧ s.observedKeyMode = some mode ∧
      (s.state.isExported ↔ mode = .exported)

namespace Pki

open VaultOperator.Path (PkiOperation)

variable {settings : Engine.Settings} {p : Pki} {session : Vault.Session}

-- ---------------------------------------------------------------------------
-- The whole pass
-- ---------------------------------------------------------------------------

/-- A declaration is only valid for the authority that is recorded. -/
theorem validate_ok (h : validate p = .ok ()) :
    (∀ type, (progress p).observedType = some type → type = p.spec.type) ∧
      ∀ mode, (progress p).observedKeyMode = some mode → mode = p.spec.keyMode := by
  have himmutable : checkImmutable p = .ok () := by
    obtain ⟨_, -, h⟩ := bind_eq_ok.1 h
    obtain ⟨_, -, h⟩ := bind_eq_ok.1 h
    obtain ⟨_, -, h⟩ := bind_eq_ok.1 h
    obtain ⟨_, -, h⟩ := bind_eq_ok.1 h
    exact h
  cases htype : (progress p).observedType <;> cases hmode : (progress p).observedKeyMode <;>
    simp only [checkImmutable, htype, hmode, bind, Except.bind, throw, throwThe,
      MonadExceptOf.throw, pure, Except.pure] at himmutable
  all_goals first | split_ifs at himmutable <;> simp_all | simp

/-- What is recorded of an authority that is there is what is declared. -/
theorem progress_eq_reached (hs : (progress p).Consistent) (h : validate p = .ok ())
    (hgenerated : (progress p).state.isGenerated) :
    progress p = reached p (progress p).state ∧
      ((progress p).state.isExported ↔ p.spec.keyMode = .exported) := by
  obtain ⟨type, mode, htype, hmode, hexported⟩ := hs.observed hgenerated
  obtain ⟨hsame, hsame'⟩ := validate_ok h
  obtain rfl := hsame type htype
  obtain rfl := hsame' mode hmode
  refine ⟨?_, hexported⟩
  rw [reached, ← htype, ← hmode]

/-- There is a key, of this pass or of one before. -/
def Begun (p : Pki) (es : List Event) : Prop :=
  validate p = .ok () ∧ LoggedIn es ∧ ((progress p).state.isGenerated ∨ Made p es)

/-- The answer to the making of the key had the request to sign in it. -/
def FreshCsr (p : Pki) (es : List Event) : Prop :=
  ∃ w ∈ writes es, w.path = generatePath p ∧ ∃ response csr, w.answer = .ok response ∧
    (response.getD ∅).text? "csr" = some csr

/-- The events after the first login that was granted. -/
def afterLogin (es : List Event) : List Event :=
  (es.dropWhile fun e => !e.grantsLogin).tail

/-- The authority is to be signed internally, this pass has no request for it, and neither has the
companion secret that was read before the signing authority was looked at. -/
def CsrLost (p : Pki) (es : List Event) : Prop :=
  p.spec.internalSign.isSome ∧ ¬ FreshCsr p es ∧ LacksCsr p (beforeSigner (afterLogin es))

/-- The progress of an authority once it has a key. -/
def keyed (p : Pki) : CaProgress :=
  if (progress p).state.isGenerated then progress p else reached p (madeState p)

/-- What a pass hands back: what was recorded before where it did not get to a key, and else what
becomes of an authority that has one. -/
inductive Records (p : Pki) (es : List Event) : CaProgress → Prop
  | unbegun (h : ¬ Begun p es) : Records p es (progress p)
  | begun (h : Begun p es) (next : CaProgress)
    (hnext : Finished p (CsrLost p es) (Installed p es) (keyed p) next) : Records p es next

structure IsLogin (es : List Event) : Prop where
  steps : ∀ e ∈ es, e.isLoginStep
  loggedIn : LoggedIn es
  after : ∀ fs, afterLogin (es ++ fs) = fs

theorem IsLogin.silent (h : IsLogin es) : writes es = [] :=
  writes_eq_nil h.steps

theorem IsLogin.unstored (h : IsLogin es) : ¬ IsStored p response es := fun hstored => by
  cases h.steps _ hstored

theorem afterLogin_granted {before : List Event} (h : ∀ e ∈ before, ¬ e.isLogin)
    (he : e.grantsLogin) : afterLogin (before ++ e :: es) = es := by
  have hbefore : ∀ e ∈ before, !e.grantsLogin := fun e hmem => by
    simpa using fun hgrants => h e hmem (Event.isLogin_of_grantsLogin hgrants)
  rw [afterLogin, List.dropWhile_append_of_pos hbefore, List.dropWhile_cons_of_neg (by simpa)]
  rfl

theorem isLogin_of_ends (h : Ends (Engine.login settings ns access) es (.ok session)) :
    IsLogin es := by
  obtain ⟨hsteps, hend⟩ := Engine.login_ends h
  cases hend with
  | granted _ request before hes hbefore =>
    refine ⟨hsteps, ?_, fun fs => ?_⟩
    · rw [hes]
      exact ⟨_, List.mem_append_right _ (List.mem_singleton_self _), rfl⟩
    · rw [hes, List.append_assoc]
      exact afterLogin_granted hbefore rfl

theorem isStored_append {es fs : List Event} :
    IsStored p response (es ++ fs) ↔ IsStored p response es ∨ IsStored p response fs :=
  List.mem_append

theorem Made.append_left {es fs : List Event} (h : Made p es) : Made p (es ++ fs) := by
  obtain ⟨w, hw, hpath, response, hok, hstored⟩ := h
  exact ⟨w, by simp [hw], hpath, response, hok, fun h => isStored_append.2 (.inl (hstored h))⟩

theorem made_append {es fs : List Event} (hlogin : IsLogin es) : Made p (es ++ fs) ↔ Made p fs := by
  simp [Made, hlogin.silent, isStored_append, hlogin.unstored]

theorem finishOps_generate : PkiOperation.generate type mode ∉ finishOps p s := by
  unfold finishOps signOps certificateOps urlOps
  cases p.spec.type <;> split_ifs <;> simp

theorem installed_append {es fs : List Event} (h : Makes p es ops)
    (hops : PkiOperation.setSigned ∉ ops) : Installed p (es ++ fs) ↔ Installed p fs := by
  constructor
  · rintro ⟨w, hw, hpath, hok⟩
    rw [writes_append, List.mem_append] at hw
    rcases hw with hw | hw
    · exact absurd (h.mem hw hpath) hops
    · exact ⟨w, hw, hpath, hok⟩
  · rintro ⟨w, hw, h⟩
    exact ⟨w, by simp [hw], h⟩

theorem freshCsr_append {es fs : List Event} (h : Makes p fs ops)
    (hops : ops <+: finishOps p s) : FreshCsr p (es ++ fs) ↔ FreshCsr p es := by
  constructor
  · rintro ⟨w, hw, hpath, hok⟩
    rw [writes_append, List.mem_append] at hw
    rcases hw with hw | hw
    · exact ⟨w, hw, hpath, hok⟩
    · exact absurd (hops.subset (h.mem hw hpath)) finishOps_generate
  · rintro ⟨w, hw, h⟩
    exact ⟨w, by simp [hw], h⟩

/-- What a pass writes, what it hands back, and that it only succeeds once the authority is
signed. -/
structure Proceeds (p : Pki) (es : List Event) (r : Except ReconcileError SyncOutcome)
    (t : CaProgress) : Prop where
  makes : ∃ ops, ops <+: plan p ∧ Makes p es ops
  records : Records p es t
  isSigned : ∀ outcome, r = .ok outcome → t.state.isSigned

/-- The course of a pass once Vault granted a login: there is a key already, or one is made, and
what follows on that only follows where making it succeeded. -/
inductive ProceedTrace (settings : Engine.Settings) (p : Pki) (session : Vault.Session) :
    List Event → Except ReconcileError SyncOutcome → CaProgress → Prop
  | kept (outcome : SyncOutcome) (hgenerated : (progress p).state.isGenerated)
    (hfinish : EndsWith (finish settings p session none outcome) (progress p) fs r t) :
    ProceedTrace settings p session fs r t
  | unmade (hgenerated : ¬ (progress p).state.isGenerated)
    (hgenerate : GenerateTrace p session (progress p) gs (.error e) t) :
    ProceedTrace settings p session gs (.error e) t
  | made (outcome : SyncOutcome) (hgenerated : ¬ (progress p).state.isGenerated)
    (hgenerate : GenerateTrace p session (progress p) gs (.ok csr) s)
    (hfinish : EndsWith (finish settings p session csr outcome) s fs r t) :
    ProceedTrace settings p session (gs ++ fs) r t

theorem proceed_trace (h : EndsWith (proceed settings p session) (progress p) es r t) :
    ProceedTrace settings p session es r t := by
  unfold proceed at h
  rw [CaPass.endsWith_progress_bind] at h
  split at h
  · next hgenerated => exact .kept _ hgenerated h
  · next hgenerated =>
    rcases endsWith_bind.1 h with ⟨csr, s, gs, fs, hgenerate, hfinish, rfl⟩ | ⟨e, hgenerate, rfl⟩
    · exact .made _ hgenerated (generate_trace hgenerate) hfinish
    · exact .unmade hgenerated (generate_trace hgenerate)

section
variable {es fs gs : List Event}

theorem IsLogin.loggedIn_append (hlogin : IsLogin es) : LoggedIn (es ++ fs) :=
  VaultOperator.loggedIn_append.2 (.inl hlogin.loggedIn)

theorem IsLogin.makes (hlogin : IsLogin es) : Makes p es [] :=
  makes_nil hlogin.silent

theorem proceeds_of_kept (hvalid : validate p = .ok ()) (hlogin : IsLogin es)
    (hgenerated : (progress p).state.isGenerated)
    (h : EndsWith (finish settings p session none outcome) (progress p) fs r t) :
    Proceeds p (es ++ fs) r t := by
  obtain ⟨⟨ops, hfirst, hmakes⟩, hend, hok⟩ := finish_ends h
  have hplan : plan p = finishOps p (progress p) := by simp [plan, hgenerated]
  have hstale : ¬ FreshCsr p (es ++ fs) := fun hfresh => by
    obtain ⟨w, hw, -⟩ := (freshCsr_append hmakes hfirst).1 hfresh
    simp [hlogin.silent] at hw
  have hlost : CsrLost p (es ++ fs) ↔ MissesCsr p none fs := by
    simp only [CsrLost, MissesCsr, hlogin.after, hstale, not_false_eq_true]
  refine ⟨⟨ops, hplan ▸ hfirst, hlogin.makes.append hmakes⟩, ?_, hok⟩
  refine .begun ⟨hvalid, hlogin.loggedIn_append, .inl hgenerated⟩ t ?_
  rwa [hlost, installed_append hlogin.makes (by simp), keyed, if_pos hgenerated]

theorem plan_of_not_isGenerated (hgenerated : ¬ (progress p).state.isGenerated) :
    plan p = .generate p.spec.type p.spec.keyMode :: finishOps p (progress p) := by
  simp [plan, hgenerated]

/-- A new key is not signed yet, so all that follows on it is what would have followed anyway. -/
theorem finishOps_reached (hgenerated : ¬ (progress p).state.isGenerated) :
    finishOps p (reached p (madeState p)) = finishOps p (progress p) := by
  have hunsigned : (madeState p).isSigned = false := CaState.isSigned_ofGeneration _
  have hsame : ¬ (progress p).state.isSigned := fun h =>
    hgenerated (CaState.isGenerated_of_isSigned h)
  simp [finishOps, reached, hunsigned, hsame]

theorem proceeds_of_made (hvalid : validate p = .ok ()) (hlogin : IsLogin es)
    (hgenerated : ¬ (progress p).state.isGenerated) (hquiet : ∀ e ∈ gs, ¬ e.isLookup)
    (hmade : Made p gs)
    (hwrites : writes gs = [⟨session, generatePath p, p.spec.generatePayload, .ok response⟩])
    (h : EndsWith (finish settings p session ((response.getD ∅).text? "csr") outcome)
      (reached p (madeState p)) fs r t) : Proceeds p (es ++ (gs ++ fs)) r t := by
  obtain ⟨⟨ops, hfirst, hmakes⟩, hend, hok⟩ := finish_ends h
  have hkey : Makes p (es ++ gs) [.generate p.spec.type p.spec.keyMode] :=
    hlogin.makes.append (makes_singleton hwrites ⟨rfl, rfl⟩)
  have hfresh : FreshCsr p (es ++ (gs ++ fs)) ↔
      ∃ csr, (response.getD ∅).text? "csr" = some csr := by
    rw [← List.append_assoc, freshCsr_append hmakes hfirst]
    simp [FreshCsr, hlogin.silent, hwrites]
  have hlost : CsrLost p (es ++ (gs ++ fs)) ↔ MissesCsr p ((response.getD ∅).text? "csr") fs := by
    rw [← missesCsr_append_left hquiet]
    simp only [CsrLost, MissesCsr, hlogin.after, hfresh, not_exists,
      Option.eq_none_iff_forall_ne_some]
  have hinstalled : Installed p (es ++ (gs ++ fs)) ↔ Installed p fs := by
    rw [← List.append_assoc]
    exact installed_append hkey (by simp)
  refine ⟨⟨.generate p.spec.type p.spec.keyMode :: ops, ?_, ?_⟩, ?_, hok⟩
  · rw [plan_of_not_isGenerated hgenerated, List.cons_prefix_cons]
    exact ⟨rfl, finishOps_reached hgenerated ▸ hfirst⟩
  · rw [← List.append_assoc]
    exact hkey.append hmakes
  · have hmade : Made p (es ++ (gs ++ fs)) := (made_append hlogin).2 hmade.append_left
    refine .begun ⟨hvalid, hlogin.loggedIn_append, .inr hmade⟩ t ?_
    rwa [hlost, hinstalled, keyed, if_neg hgenerated]

theorem proceeds_of_unmade (hlogin : IsLogin es) (hgenerated : ¬ (progress p).state.isGenerated)
    (hmade : ¬ Made p fs)
    (hwrites : writes fs = [⟨session, generatePath p, p.spec.generatePayload, answer⟩]) :
    Proceeds p (es ++ fs) (.error e) (progress p) := by
  have hkey : Makes p fs [.generate p.spec.type p.spec.keyMode] :=
    makes_singleton hwrites ⟨rfl, rfl⟩
  refine ⟨⟨_, ?_, hlogin.makes.append hkey⟩, .unbegun ?_, nofun⟩
  · rw [plan_of_not_isGenerated hgenerated]
    exact List.prefix_append _ _
  · rintro ⟨-, -, h | h⟩
    · exact hgenerated h
    · exact hmade ((made_append hlogin).1 h)

/-- A login that was granted, and everything after it. -/
theorem proceed_ends (hvalid : validate p = .ok ()) (hlogin : IsLogin es)
    (h : EndsWith (proceed settings p session) (progress p) fs r t) :
    Proceeds p (es ++ fs) r t := by
  cases proceed_trace h with
  | kept _ hgenerated hfinish => exact proceeds_of_kept hvalid hlogin hgenerated hfinish
  | unmade hgenerated hgenerate =>
    cases hgenerate.generateEnd with
    | failed _ answer hmade hwrites => exact proceeds_of_unmade hlogin hgenerated hmade hwrites
  | made _ hgenerated hgenerate hfinish =>
    cases hgenerate.generateEnd with
    | made response hmade hwrites =>
      exact proceeds_of_made hvalid hlogin hgenerated hgenerate.not_isLookup hmade hwrites hfinish

end

/-- A pass gets to work with a valid declaration and a login, or it fails and leaves all as it
was. -/
inductive RunEnd (settings : Engine.Settings) (p : Pki) (es : List Event) :
    Except ReconcileError SyncOutcome → CaProgress → Prop
  | stopped (e : ReconcileError) (hsteps : ∀ e ∈ es, e.isLoginStep)
    (hbegun : ¬ (validate p = .ok () ∧ LoggedIn es)) : RunEnd settings p es (.error e) (progress p)
  | proceeded (session : Vault.Session) (hvalid : validate p = .ok ()) (hes : es = login ++ rest)
    (hlogin : IsLogin login)
    (hproceed : EndsWith (proceed settings p session) (progress p) rest r t) :
    RunEnd settings p es r t

theorem runEnd_of_ends (h : EndsWith (run settings p) (progress p) es r t) :
    RunEnd settings p es r t := by
  rw [run_eq] at h
  rcases endsWith_bind.1 h with ⟨_, u, es₀, es₁, hlift, hrest, rfl⟩ | ⟨e, hlift, rfl⟩
  · obtain ⟨hcheck, rfl⟩ := CaPass.endsWith_lift.1 hlift
    obtain ⟨rfl, hvalid⟩ := Pass.ends_check.1 hcheck
    have hvalid := ok_eq_mapError.1 hvalid
    rw [List.nil_append]
    rcases endsWith_bind.1 hrest with ⟨session, u, es₂, es₃, hlift, hproceed, rfl⟩ | ⟨e, hlift, rfl⟩
    · obtain ⟨hlogin, rfl⟩ := CaPass.endsWith_lift.1 hlift
      exact .proceeded session hvalid rfl (isLogin_of_ends hlogin) hproceed
    · obtain ⟨hlogin, rfl⟩ := CaPass.endsWith_lift.1 hlift
      obtain ⟨hsteps, hend⟩ := Engine.login_ends hlogin
      cases hend with
      | refused _ hrefused => exact .stopped e hsteps fun h => hrefused h.2
  · obtain ⟨hcheck, rfl⟩ := CaPass.endsWith_lift.1 hlift
    obtain ⟨rfl, hinvalid⟩ := Pass.ends_check.1 hcheck
    obtain ⟨cause, hinvalid, rfl⟩ := error_eq_mapError.1 hinvalid
    refine .stopped _ (by simp) fun h => ?_
    rw [h.1] at hinvalid
    cases hinvalid

theorem run_ends (h : EndsWith (run settings p) (progress p) es r t) : Proceeds p es r t := by
  cases runEnd_of_ends h with
  | stopped e hsteps hbegun =>
    exact ⟨⟨[], List.nil_prefix, makes_nil (writes_eq_nil hsteps)⟩,
      .unbegun fun h => hbegun ⟨h.1, h.2.1⟩, nofun⟩
  | proceeded _ hvalid hes hlogin hproceed =>
    subst hes
    exact proceed_ends hvalid hlogin hproceed

/-- Where a key was made there was all it takes. -/
theorem Made.begun (hmade : Made p es) (h : EndsWith (run settings p) (progress p) es r t) :
    Begun p es := by
  cases runEnd_of_ends h with
  | stopped e hsteps =>
    obtain ⟨w, hw, -⟩ := hmade
    rw [writes_eq_nil hsteps] at hw
    cases hw
  | proceeded _ hvalid hes hlogin =>
    subst hes
    exact ⟨hvalid, loggedIn_append.2 (.inl hlogin.loggedIn), .inr hmade⟩

-- ---------------------------------------------------------------------------
-- From consistent progress
-- ---------------------------------------------------------------------------

/-- The private half of the key is handed out. -/
def isExported (p : Pki) : Bool :=
  p.spec.keyMode = .exported

/-- What is recorded after a pass, by what happened in it. -/
inductive Mirrors (p : Pki) (es : List Event) : CaProgress → Prop
  | unchanged (h : ¬ Begun p es ∨ (progress p).state.isSigned) : Mirrors p es (progress p)
  | selfSigned (hbegun : Begun p es) (hsigned : ¬ (progress p).state.isSigned)
    (htype : p.spec.type = .root) : Mirrors p es (reached p (.signed (isExported p)))
  | lost (hbegun : Begun p es) (hsigned : ¬ (progress p).state.isSigned)
    (htype : p.spec.type = .intermediate) (hlost : CsrLost p es) :
    Mirrors p es (reached p .notGenerated)
  | waiting (hbegun : Begun p es) (hsigned : ¬ (progress p).state.isSigned)
    (htype : p.spec.type = .intermediate) (hkept : ¬ CsrLost p es)
    (hinstalled : ¬ Installed p es) :
    Mirrors p es (reached p (.awaitingSignature (isExported p)))
  | installed (hbegun : Begun p es) (hsigned : ¬ (progress p).state.isSigned)
    (htype : p.spec.type = .intermediate) (hkept : ¬ CsrLost p es) (hinstalled : Installed p es) :
    Mirrors p es (reached p (.signed (isExported p)))

/-- The events of a pass tell what it records. -/
theorem Mirrors.unique (h : Mirrors p es s) (h' : Mirrors p es t) : s = t := by
  cases h <;> cases h' <;> first | rfl | simp_all

/-- Consistent progress, and what is declared validly, tell what is known once there is a key. -/
theorem keyed_eq_reached (hs : (progress p).Consistent) (h : validate p = .ok ()) :
    keyed p = reached p (keyed p).state ∧ (keyed p).state.isExported = isExported p := by
  unfold keyed
  split
  · next hgenerated =>
    obtain ⟨hstart, hexported⟩ := progress_eq_reached hs h hgenerated
    exact ⟨hstart, by simp [isExported, ← hexported]⟩
  · exact ⟨rfl, by simp [reached, madeState, isExported]⟩

theorem Records.mirrors (hs : (progress p).Consistent) (h : Records p es t) : Mirrors p es t := by
  cases h with
  | unbegun h => exact .unchanged (.inl h)
  | begun hbegun _ hnext =>
    obtain ⟨hreached, hexported⟩ := keyed_eq_reached hs hbegun.1
    have hstate (state : CaState) : { keyed p with state } = reached p state := by
      rw [hreached]
      rfl
    have hunsigned (h : ¬ (keyed p).state.isSigned) : ¬ (progress p).state.isSigned := by
      intro hsigned
      rw [keyed, if_pos (CaState.isGenerated_of_isSigned hsigned)] at h
      exact h hsigned
    cases hnext with
    | signed hsigned =>
      unfold keyed at hsigned ⊢
      split at hsigned
      · next hgenerated =>
        rw [if_pos hgenerated]
        exact .unchanged (.inr hsigned)
      · exact absurd hsigned (by simp [reached, madeState])
    | selfSigned hsigned htype =>
      rw [hstate, CaState.sign, hexported]
      exact .selfSigned hbegun (hunsigned hsigned) htype
    | lost hsigned htype hlost =>
      rw [hstate]
      exact .lost hbegun (hunsigned hsigned) htype hlost
    | waiting hsigned htype hkept hinstalled =>
      rw [hstate, CaState.awaitSignature, hexported]
      exact .waiting hbegun (hunsigned hsigned) htype hkept hinstalled
    | installed hsigned htype hkept hinstalled =>
      rw [hstate, CaState.sign, CaState.isExported_awaitSignature, hexported]
      exact .installed hbegun (hunsigned hsigned) htype hkept hinstalled

/-- A pass writes a first part of what it set out to, and what it hands back mirrors exactly the
steps that succeeded. -/
theorem reconcile_mirrors (hs : (progress p).Consistent)
    (h : Program.Exec (reconcile settings p) es r) :
    ∃ result next, r = some (result, next) ∧
      (∃ ops, ops <+: plan p ∧ Makes p es ops) ∧ (plan p).Nodup ∧
      ∀ recorded, Mirrors p es recorded ↔ recorded = next := by
  obtain ⟨⟨result, next, rfl, hends⟩, -⟩ := reconcile_ends h
  obtain ⟨hwrites, hrecords, -⟩ := run_ends hends
  have hmirrors := hrecords.mirrors hs
  refine ⟨result, next, rfl, hwrites, plan_nodup p, fun recorded => ?_⟩
  constructor
  · intro h; exact h.unique hmirrors
  · rintro rfl; exact hmirrors

/-- An intermediate authority that `pki/root` is to sign. -/
def leaf : Pki :=
  { metadata := { name := some "leaf", ns := some "pki", finalizers := [finalizer] }
    spec :=
      { access := ⟨none, { role := "pki-admin" }⟩
        path := "leaf"
        type := .intermediate
        keyMode := .exported
        commonName := "Example Leaf"
        internalSign := some { name := "root" } }
    status := none }

/-- A world in which Vault answers the making of a key with a request to sign it. -/
def keyWorld : Memory.Backends Memory.Store :=
  { vault :=
      { responses := Dict.ofList
          [("leaf/intermediate/generate/exported", Dict.ofList [("csr", .str "request")])] }
    cluster := {}
    clock := ⟨0, 0⟩ }

theorem consistent_new : CaProgress.Consistent {} where
  unobserved _ := rfl
  root := nofun
  intermediate := nofun
  observed := nofun

/-- There is no authority to sign yet, so the key that was made waits for a signature. -/
theorem reconcile_mirrors_leaf :
    (progress leaf).Consistent ∧
      ∃ es r, Program.Exec (reconcile {} leaf) es r ∧
        Mirrors leaf es ⟨.awaitingSignature true, some .intermediate, some .exported⟩ := by
  have hs : (progress leaf).Consistent := consistent_new
  let run := (reconcile {} leaf).run Memory.Backends.storeWorld keyWorld
  have hexec : Program.Exec (reconcile {} leaf) run.events run.result := Program.exec_run _ _ _
  have hrun : run.result.map (·.2) =
      some ⟨.awaitingSignature true, some .intermediate, some .exported⟩ := by decide +kernel
  obtain ⟨result, next, hresult, -, -, hmirrors⟩ := reconcile_mirrors hs hexec
  rw [hresult] at hrun
  exact ⟨hs, run.events, run.result, hexec, (hmirrors _).2 (Option.some.inj hrun).symm⟩

end Pki

end VaultOperator
