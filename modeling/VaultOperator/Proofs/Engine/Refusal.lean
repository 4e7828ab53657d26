import VaultOperator.Proofs.Credential.Resolution
import VaultOperator.Proofs.Engine.Login
import VaultOperator.Proofs.Pass.Raises
import VaultOperator.Proofs.Watch.Ownership

/-!
# What is refused for good

A pass that fails for a cause which only another declaration removes has found it before it asked
anybody (`reconcile_refused`): past the check, all errors may be gone when the pass is made again.
-/

namespace VaultOperator

theorem ReconcileError.isRetryable_iff {e : ReconcileError} :
    e.isRetryable ↔ e.phase ≠ .unvalidated := by
  cases h : e.retryPolicy <;> simp [isRetryable, phase, h]

-- ---------------------------------------------------------------------------
-- Sessions and credentials
-- ---------------------------------------------------------------------------

/-- Past its checks a pass only fails in ways that another try may do better in. -/
abbrev FailsRetryably (p : Pass α) : Prop :=
  Raises (fun e => e.isRetryable) p

theorem Pass.failsRetryably_read : FailsRetryably (Pass.read session path) :=
  raises_attempt fun _ _ _ => rfl

theorem Pass.failsRetryably_write : FailsRetryably (Pass.write session path body) :=
  raises_attempt fun _ _ _ => rfl

theorem Pass.failsRetryably_getSecret : FailsRetryably (Pass.getSecret ns name) :=
  raises_attempt fun _ _ _ => rfl

namespace Engine

variable {s : Settings}

theorem failsRetryably_caPem : FailsRetryably (caPem s ns connection) := by
  unfold caPem
  split
  · refine .map (.bind Pass.failsRetryably_getSecret fun _ => ?_)
    refine .bind (Pass.raises_orFail rfl) fun _ => ?_
    exact .bind (Pass.raises_orFail rfl) fun _ => raises_pure
  · exact .map (Pass.raises_attempt fun _ _ _ => rfl)
  · exact raises_pure

theorem failsRetryably_login : FailsRetryably (login s ns access) := by
  refine .bind (.bind failsRetryably_caPem fun _ => raises_pure) fun _ => ?_
  refine .bind (Pass.raises_attempt fun _ _ _ => rfl) fun _ => ?_
  exact .bind (Pass.raises_attempt fun _ _ _ => rfl) fun _ => raises_pure

end Engine

namespace Credential

/-- A look-up fails, but not for what the reference itself says. -/
abbrev FailsByLookup (p : Lookup α) : Prop :=
  Raises (fun e => ¬ e.isMisconfigured) p

theorem Lookup.failsByLookup_attempt {wrap : ε → Error} {q : Program (Except ε α)}
    (h : ∀ e, ¬ (wrap e).isMisconfigured) : FailsByLookup (Lookup.attempt wrap q) := by
  intro es e hends
  obtain ⟨answer, -, hanswer⟩ := Lookup.ends_attempt.1 hends
  obtain ⟨cause, -, rfl⟩ := error_eq_mapError.1 hanswer
  exact h cause

theorem Lookup.failsByLookup_orFail {value : Option α} (h : ¬ e.isMisconfigured) :
    FailsByLookup (Lookup.orFail value e) := by
  cases value with
  | some a => exact raises_pure
  | none => exact raises_throw h

theorem secretValue_error {data : SecretData} (h : secretValue data key location = .error e) :
    ¬ e.isMisconfigured := by
  unfold secretValue at h
  split at h
  · cases h
    nofun
  · split at h
    · cases h
    · cases h
      nofun

theorem payloadValue_error {p : Payload} (h : payloadValue p key location = .error e) :
    ¬ e.isMisconfigured := by
  unfold payloadValue at h
  split at h <;> cases h
  nofun

theorem pair_error {value : String → Except Error String}
    (hvalue : ∀ key e, value key = .error e → ¬ e.isMisconfigured)
    (h : pair identity? value usernameKey passwordKey = .error e) : ¬ e.isMisconfigured := by
  rcases bind_eq_error.1 h with hsecret | ⟨secret, -, h⟩
  · exact hvalue _ _ hsecret
  · cases identity? with
    | some identity => cases h
    | none =>
      rcases bind_eq_error.1 h with hidentity | ⟨identity, -, ⟨⟩⟩
      exact hvalue _ _ hidentity

theorem failsByLookup_readSecret : FailsByLookup (readSecret session path location) := by
  refine .bind (Lookup.failsByLookup_attempt fun _ => nofun) fun _ => ?_
  exact .map (Lookup.failsByLookup_orFail nofun)

theorem failsByLookup_lookUp :
    FailsByLookup (lookUp ns session r identity? defaults source) := by
  cases source with
  | localSecret name =>
    refine .bind (Lookup.failsByLookup_attempt fun _ => nofun) fun _ => ?_
    refine .bind (Lookup.failsByLookup_orFail nofun) fun _ => ?_
    exact raises_done fun _ => pair_error fun _ _ => secretValue_error
  | remoteSecret path =>
    refine .bind failsByLookup_readSecret fun _ => ?_
    exact raises_done fun _ => pair_error fun _ _ => payloadValue_error
  | generatedSecret name =>
    refine .bind (Lookup.failsByLookup_attempt fun _ => nofun) fun _ => ?_
    refine .bind (Lookup.failsByLookup_orFail nofun) fun _ => ?_
    refine .bind (Lookup.failsByLookup_orFail nofun) fun _ => ?_
    refine .bind failsByLookup_readSecret fun _ => ?_
    exact .bind (raises_done fun _ => payloadValue_error) fun _ => raises_pure

/-- What a reference says can only be at fault where it names no source that it needs, or several. -/
theorem failsByLookup_resolve (hsource : Source.ofReference r = .ok source?)
    (hneeds : source? = none → defaults.implicit) :
    FailsByLookup (resolve ns session r identity? defaults) := by
  cases source? with
  | none =>
    rw [resolve_nothing hsource, if_pos (hneeds rfl)]
    exact raises_pure
  | some source =>
    rw [resolve_one hsource]
    refine .bind failsByLookup_lookUp fun _ => ?_
    exact .bind raises_lift fun _ => raises_pure

end Credential

-- ---------------------------------------------------------------------------
-- Objects
-- ---------------------------------------------------------------------------

/-- What a kind adds to a pass fails in ways that another try may do better in. -/
structure VaultObject.FailsRetryably (object : VaultObject) : Prop where
  prepare : ∀ session, VaultOperator.FailsRetryably (object.prepare session)
  readObserved : ∀ session, VaultOperator.FailsRetryably (object.readObserved session)
  prepareWrite : ∀ session v, VaultOperator.FailsRetryably (object.prepareWrite session v)

namespace Engine

variable {s : Settings} {object : VaultObject}

theorem failsRetryably_write (h : object.FailsRetryably) :
    FailsRetryably (write session object v request) :=
  .bind (h.prepareWrite session v) fun _ => .bind Pass.failsRetryably_write fun _ => raises_pure

theorem failsRetryably_syncPath : FailsRetryably (syncPath session path desired comparison) := by
  refine .bind Pass.failsRetryably_read fun found => ?_
  cases found with
  | none => exact .bind Pass.failsRetryably_write fun _ => raises_pure
  | some observed =>
    show FailsRetryably (if _ then _ else _)
    split
    · exact raises_pure
    · exact .bind Pass.failsRetryably_write fun _ => raises_pure

/-- A pass that is not worth another try failed its check, before anything else. -/
theorem reconcile_refused (h : object.validate = .ok () → object.FailsRetryably)
    (hends : Ends (reconcile s object) es (.error e)) (hrefused : ¬ e.isRetryable) :
    es = [] ∧ ∃ cause, object.validate = .error cause ∧ e = .validation cause := by
  unfold reconcile at hends
  rcases ends_bind.1 hends with ⟨_, es₁, es₂, hcheck, hrest, rfl⟩ | ⟨_, hcheck, ⟨⟩⟩ <;>
    obtain ⟨rfl, hvalid⟩ := Pass.ends_check.1 hcheck
  · obtain hobject := h (ok_eq_mapError.1 hvalid)
    refine absurd (Raises.bind failsRetryably_login (fun session => ?_) _ _ hrest) hrefused
    refine .bind (hobject.prepare session) fun v => ?_
    refine .bind (hobject.readObserved session) fun found => ?_
    cases found with
    | none => exact .bind (failsRetryably_write hobject) fun _ => raises_pure
    | some observed =>
      refine .bind raises_lift fun same => ?_
      cases same with
      | true => exact raises_pure
      | false => exact .bind (failsRetryably_write hobject) fun _ => raises_pure
  · obtain ⟨cause, hinvalid, rfl⟩ := error_eq_mapError.1 hvalid
    exact ⟨rfl, cause, hinvalid, rfl⟩

end Engine

theorem Credential.exists_source (h : validateReference field r = .ok ()) :
    ∃ source?, Source.ofReference r = .ok source? := by
  unfold validateReference at h
  split at h
  · next source? hsource => exact ⟨source?, hsource⟩
  · cases h

theorem Mount.Definition.failsRetryably {d : Definition} {metadata : Metadata} :
    (d.toVaultObject table metadata access body).FailsRetryably where
  prepare _ := raises_pure
  readObserved session := by
    refine .bind Pass.failsRetryably_read fun _ => ?_
    split
    · exact Pass.failsRetryably_read
    · exact raises_pure
  prepareWrite _ _ := raises_pure

/-- The declaration of a database names none of the sources that its credential needs. -/
def Object.LacksSource (o : Object) : Prop :=
  ∃ d, o = .database d ∧ Credential.Source.ofReference d.spec.rootCredentials = .ok none

theorem Policy.failsRetryably_prepare {p : Policy} : FailsRetryably (prepare p session) := by
  unfold prepare
  split
  · exact raises_pure
  · refine .bind Pass.failsRetryably_read fun _ => ?_
    split
    · exact raises_pure
    · exact raises_throw rfl

theorem Credential.failsRetryably_resolve (hvalid : validateReference field r = .ok ())
    (hneeds : Source.ofReference r = .ok none → defaults.implicit) :
    FailsRetryably
      (Pass.attempt .credential (resolve ns session r identity? defaults)) := by
  obtain ⟨source?, hsource⟩ := exists_source hvalid
  refine Pass.raises_attempt fun es e hexec => ?_
  have hlookup := failsByLookup_resolve hsource (fun hnone => hneeds (hnone ▸ hsource)) es e hexec
  simp [ReconcileError.isRetryable, ReconcileError.retryPolicy, hlookup]

theorem Database.validateReference_ok {d : Database} (h : validate d = .ok ()) :
    Credential.validateReference "spec.rootCredentials" d.spec.rootCredentials = .ok () := by
  obtain ⟨_, -, h⟩ := bind_eq_ok.1 h
  obtain ⟨_, -, h⟩ := bind_eq_ok.1 h
  obtain ⟨_, -, h⟩ := bind_eq_ok.1 h
  exact h

theorem Ldap.validateReference_ok {l : Ldap} (h : validate l = .ok ()) :
    Credential.validateReference "spec.bindCredentials" l.spec.bindCredentials = .ok () := by
  obtain ⟨_, -, h⟩ := bind_eq_ok.1 h
  obtain ⟨_, -, h⟩ := bind_eq_ok.1 h
  exact h

theorem RandomSecret.failsRetryably_prepareWrite {r : RandomSecret} :
    FailsRetryably (prepareWrite r session v) := by
  unfold prepareWrite
  refine .bind Pass.failsRetryably_read fun _ => ?_
  split
  · exact raises_pure
  · exact raises_throw rfl

theorem Object.failsRetryably {o : Object} (hkind : o.kind ≠ .pki) (hvalid : o.IsValid)
    (hsource : ¬ o.LacksSource) : o.toVaultObject.FailsRetryably := by
  cases o with
  | policy p =>
    exact ⟨fun _ => Policy.failsRetryably_prepare, fun _ => Pass.failsRetryably_read,
      fun _ _ => raises_pure⟩
  | secretMount m => exact Mount.Definition.failsRetryably
  | authMount m => exact Mount.Definition.failsRetryably
  | database d =>
    refine ⟨fun _ => ?_, fun _ => Pass.failsRetryably_read, fun _ _ => raises_pure⟩
    have hreference := Database.validateReference_ok hvalid
    exact .bind (Credential.failsRetryably_resolve hreference
      fun hnone => absurd ⟨d, rfl, hnone⟩ hsource) fun _ => raises_pure
  | ldap l =>
    refine ⟨fun _ => ?_, fun _ => Pass.failsRetryably_read, fun _ _ => raises_pure⟩
    have hreference := Ldap.validateReference_ok hvalid
    exact .bind (Credential.failsRetryably_resolve hreference fun _ => rfl) fun _ => raises_pure
  | randomSecret r =>
    exact ⟨fun _ => raises_pure, fun _ => Pass.failsRetryably_read,
      fun _ _ => RandomSecret.failsRetryably_prepareWrite⟩
  | pki => exact absurd rfl hkind

/-- A pass over an object with a place of its own. -/
theorem Object.sync_refused {o : Object} (hkind : o.kind ≠ .pki)
    (hsource : o.IsValid → ¬ o.LacksSource)
    (h : Program.Exec (o.sync settings) es (some outcome)) (herror : outcome.result = .error e)
    (hrefused : ¬ e.isRetryable) :
    es = [] ∧ ∃ cause, o.toVaultObject.validate = .error cause ∧ e = .validation cause := by
  obtain ⟨result, hpass, hresult⟩ := sync_exec hkind h
  cases result with
  | none => cases hresult
  | some result =>
    obtain rfl := Option.some.inj hresult
    obtain rfl : result = .error e := herror
    exact Engine.reconcile_refused (fun hvalid => failsRetryably hkind hvalid (hsource hvalid))
      hpass hrefused

end VaultOperator
