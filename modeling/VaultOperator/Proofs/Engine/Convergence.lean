import VaultOperator.Object
import VaultOperator.Proofs.Engine.Mirror
import VaultOperator.Proofs.Engine.Plain
import VaultOperator.Proofs.Mount.Standing
import VaultOperator.Proofs.RandomSecret.Standing

/-!
# Passes converge

After a pass that succeeded the next one over the same declaration finds nothing to do and writes
nothing (`second_pass_unchanged`), as long as Vault echoes what is written and the write is not in
the way of what is looked up.
-/

namespace VaultOperator.Object

/-- The same declaration, with another status. -/
def withStatus (o : Object) (status : Option Status) : Object :=
  match o with
  | policy o => policy { o with status }
  | secretMount o => secretMount { o with status }
  | authMount o => authMount { o with status }
  | database o => database { o with status }
  | ldap o => ldap { o with status }
  | randomSecret o => randomSecret { o with status }
  | pki o => pki o

/-- What objects of one path are written to. -/
def backend? : Object → Option Backend
  | policy _ => some (.config [])
  | secretMount _ => some (.mounts .secret)
  | authMount _ => some (.mounts .auth)
  | database _ => some (.connection ["password"])
  | ldap _ => some (.config ["bindpass"])
  | randomSecret o => some (.keyValue o.spec.kvV2)
  | pki _ => none

def IsProper : Object → Prop
  | secretMount o => o.spec.mount.IsProper .secret o.metadata.nameAny
  | authMount o => o.spec.mount.IsProper .auth o.metadata.nameAny
  | _ => True

def GeneratesValue (before : VaultContent) : Object → Prop
  | randomSecret o => o.GeneratesValue before
  | _ => True

def RestsAt : Object → Event → Prop
  | randomSecret o, e => o.RestsAt e
  | _, _ => True

/-- Two passes over a declaration, the first of which succeeds, and a Vault that echoes. -/
structure TwoPasses (settings : Engine.Settings) (store : StoreContent) (o : Object)
    (status : Option Status) (before between after : VaultContent) (es fs : List Event)
    (outcome : SyncOutcome) (r : Option (Except ReconcileError SyncOutcome)) : Prop where
  first : Ends (Engine.reconcile settings o.toVaultObject) es (.ok outcome)
  second : Program.Exec (Engine.reconcile settings (o.withStatus status).toVaultObject).run fs r
  echoes : ∃ engine, o.backend? = some engine ∧ Happens store engine before es between ∧
    Happens store engine between fs after
  isProper : o.IsProper
  generatesValue : o.GeneratesValue before
  rests : ∀ e ∈ fs, (o.withStatus status).RestsAt e

/-- Where in Vault the credential of an object is looked up. -/
def credentialPath? (store : StoreContent) : Object → Option String
  | database o => o.spec.rootCredentials.vaultPath? store o.metadata.nsAny
  | ldap o => o.spec.bindCredentials.vaultPath? store o.metadata.nsAny
  | _ => none

def IsToldApart (between : VaultContent) : Object → Prop
  | randomSecret o => o.IsToldApart between
  | _ => True

/-- A write is not in the way of what is looked up. -/
structure IsApart (store : StoreContent) (between : VaultContent) (o : Object) : Prop where
  credential : ∀ path, o.credentialPath? store = some path → path ≠ o.toVaultObject.path
  isToldApart : o.IsToldApart between

def passOver (store : StoreContent) (more : Payload) (o : Object) (content : VaultContent) :
    Run VaultContent (Except ReconcileError SyncOutcome) :=
  Program.run (mirror store more) (Engine.reconcile {} o.toVaultObject).run content

def nextOver (store : StoreContent) (more : Payload) (o : Object) (status : Option Status)
    (content : VaultContent) : Run VaultContent (Except ReconcileError SyncOutcome) :=
  passOver store more (o.withStatus status) (passOver store more o content).state

/-- Two passes before a mirror are two passes before a Vault that echoes. -/
theorem twoPasses_of_runs (store : StoreContent) (more : Payload) (o : Object)
    (status : Option Status) (before : VaultContent) (outcome : SyncOutcome) {engine : Backend}
    (hechoes : ∀ content path body, engine.Echoes content (put more content path body) path body)
    (hengine : o.backend? = some engine)
    (hfirst : (passOver store more o before).result = some (.ok outcome)) (hproper : o.IsProper)
    (hvalue : o.GeneratesValue before)
    (hrests : ∀ e ∈ (nextOver store more o status before).events, (o.withStatus status).RestsAt e) :
    TwoPasses {} store o status before (passOver store more o before).state
      (nextOver store more o status before).state (passOver store more o before).events
      (nextOver store more o status before).events outcome
      (nextOver store more o status before).result where
  first := by
    rw [Ends, ← hfirst]
    exact Program.exec_run _ _ _
  second := Program.exec_run _ _ _
  echoes := ⟨engine, hengine, happens_run hechoes _ _, happens_run hechoes _ _⟩
  isProper := hproper
  generatesValue := hvalue
  rests := hrests

section
variable {settings : Engine.Settings} {store : StoreContent} {status : Option Status}
  {before between after : VaultContent} {es fs : List Event} {outcome : SyncOutcome}
  {r : Option (Except ReconcileError SyncOutcome)}

theorem policy_again {p : Policy} (h : TwoPasses settings store (.policy p) status before between
    after es fs outcome r) : r = some (.ok .unchanged) ∧ writes fs = [] := by
  obtain ⟨_, ⟨⟩, hes, hfs⟩ := h.echoes
  refine Policy.isPlain.unchanged_again (fun _ => Policy.concludes_prepare)
    (fun _ => Policy.agrees_of_echoes) (fun _ => Backend.keptBut_of_config) (fun hkept _ _ => ?_)
    h.first hes h.second hfs
  exact Policy.prepare_follows (hkept _ fun _ => Policy.path_ne)

theorem ldap_again {l : Ldap} (h : TwoPasses settings store (.ldap l) status before between after
    es fs outcome r) (happart : outcome.wrote → (ldap l).IsApart store between) :
    r = some (.ok .unchanged) ∧ writes fs = [] := by
  obtain ⟨_, ⟨⟩, hes, hfs⟩ := h.echoes
  have hsecond : Program.Exec (Engine.reconcile settings (Ldap.toVaultObject l)).run fs r := by
    rw [← Ldap.toVaultObject_withStatus l status]
    exact h.second
  refine (Ldap.isPlain (l := l)).unchanged_again (fun _ => Credential.concludes_prepare)
    (fun _ => Ldap.agrees_of_echoes) (fun _ => Backend.keptBut_of_config) (fun hkept _ _ => ?_)
    h.first hes hsecond hfs
  exact Credential.prepare_follows fun path hpath =>
    hkept path fun hwrote => (happart hwrote).credential path hpath

theorem database_again {d : Database} (h : TwoPasses settings store (.database d) status before
    between after es fs outcome r) (happart : outcome.wrote → (database d).IsApart store between) :
    r = some (.ok .unchanged) ∧ writes fs = [] := by
  obtain ⟨_, ⟨⟩, hes, hfs⟩ := h.echoes
  refine Database.isPlain.unchanged_again (fun _ => Credential.concludes_prepare)
    (fun _ => Database.agrees_of_echoes) (fun _ => Backend.keptBut_of_connection)
    (fun hkept _ _ => ?_) h.first hes h.second hfs
  exact Credential.prepare_follows fun path hpath =>
    hkept path fun hwrote => (happart hwrote).credential path hpath

theorem randomSecret_again {o : RandomSecret} (h : TwoPasses settings store (.randomSecret o) status
    before between after es fs outcome r)
    (happart : outcome.wrote → (randomSecret o).IsApart store between) :
    r = some (.ok .unchanged) ∧ writes fs = [] := by
  obtain ⟨_, ⟨⟩, hes, hfs⟩ := h.echoes
  have hlooks : Engine.OnlyLooks (RandomSecret.toVaultObject { o with status }) :=
    RandomSecret.keepsSession.onlyLooks
  refine Engine.unchanged_again RandomSecret.keepsSession.onlyLooks hlooks
    (RandomSecret.restates o status) h.first hes (fun session v hleaves => ?_) h.second hfs h.rests
  exact ⟨RandomSecret.stands h.generatesValue (fun hwrote => (happart hwrote).isToldApart) hleaves,
    fun _ => follows_pure rfl⟩

theorem secretMount_again {m : SecretMount} (h : TwoPasses settings store (.secretMount m) status
    before between after es fs outcome r) : r = some (.ok .unchanged) ∧ writes fs = [] := by
  obtain ⟨_, ⟨⟩, hes, hfs⟩ := h.echoes
  refine Mount.Definition.unchanged_again h.isProper (fun _ => ?_) h.first hes h.second hfs
  exact Mount.showsTuning_of_insert (by decide)

theorem authMount_again {m : AuthMount} (h : TwoPasses settings store (.authMount m) status
    before between after es fs outcome r) : r = some (.ok .unchanged) ∧ writes fs = [] := by
  obtain ⟨_, ⟨⟩, hes, hfs⟩ := h.echoes
  exact Mount.Definition.unchanged_again h.isProper (fun _ => id) h.first hes h.second hfs

/-- The second pass finds what it desires, unless the first wrote where something is looked up. -/
theorem second_pass_unchanged {o : Object}
    (h : TwoPasses settings store o status before between after es fs outcome r)
    (happart : outcome.wrote → o.IsApart store between) :
    r = some (.ok .unchanged) ∧ writes fs = [] := by
  cases o with
  | policy => exact policy_again h
  | secretMount => exact secretMount_again h
  | authMount => exact authMount_again h
  | database => exact database_again h happart
  | ldap => exact ldap_again h happart
  | randomSecret => exact randomSecret_again h happart
  | pki => obtain ⟨_, ⟨⟩, -⟩ := h.echoes

end

-- ---------------------------------------------------------------------------
-- Passes over a generated secret, and over a configuration in the way of its own credential
-- ---------------------------------------------------------------------------

def noStore : StoreContent :=
  ⟨fun _ _ => none, fun _ _ => none, fun _ => .error "no such file"⟩

def admin : Access := ⟨none, { role := "admin" }⟩

def token : RandomSecret where
  metadata := { name := some "token", ns := some "team-a" }
  spec := { access := admin, path := "kv", secretKey := "token", passwordPolicy := "strong" }
  status := none

/-- A Vault that has nothing but what a password policy generates. -/
def generating : VaultContent := fun path =>
  if path = "sys/policies/password/strong/generate" then
    some ((∅ : Payload).insert "password" (.str "s3cret"))
  else none

theorem token_generatesValue : (randomSecret token).GeneratesValue generating := by
  intro answer hanswer
  have hall : (generating (Path.passwordPolicyGenerate "strong")).all
      fun answer => answer.text? "password" ≠ some "" := by decide +kernel
  have hanswer : generating (Path.passwordPolicyGenerate "strong") = some answer := hanswer
  rw [hanswer] at hall
  simpa using hall

/-- Without a refresh period there is no refresh. -/
theorem token_restsAt (e : Event) : ((randomSecret token).withStatus none).RestsAt e := by
  cases e with
  | count => trivial
  | call c =>
    cases c with
    | clock => exact rfl
    | _ => trivial

theorem token_isToldApart :
    (randomSecret token).IsToldApart (passOver noStore ∅ (randomSecret token) generating).state := by
  intro _ found hfound hwrapped
  have hall : ((passOver noStore ∅ (randomSecret token) generating).state
      (RandomSecret.readPath token)).all fun found => (found.get? "data").isNone := by
    decide +kernel
  obtain ⟨⟨fields, hdata⟩, -⟩ := hwrapped
  rw [hfound] at hall
  simp [hdata] at hall

/-- A secret that was generated is left alone. -/
theorem second_pass_unchanged_token :
    ∃ between after es fs r, TwoPasses {} noStore (.randomSecret token) none generating between after
        es fs .created r ∧ (randomSecret token).IsApart noStore between ∧
      r = some (.ok .unchanged) ∧ writes fs = [] := by
  have hpasses := twoPasses_of_runs noStore ∅ (.randomSecret token) none generating
    .created echoes_put_keyValue rfl (by decide +kernel) trivial token_generatesValue
    fun e _ => token_restsAt e
  have happart : (randomSecret token).IsApart noStore
      (passOver noStore ∅ (randomSecret token) generating).state :=
    ⟨nofun, token_isToldApart⟩
  exact ⟨_, _, _, _, _, hpasses, happart, second_pass_unchanged hpasses fun _ => happart⟩

/-- What Vault would show of a secret of the second version beside the secret itself. -/
def wrapping : Payload :=
  ((∅ : Payload).insert "data" (.obj [])).insert "metadata" (.obj [])

/-- A configuration whose credential is looked up where the configuration is kept. -/
def selfReferring : Ldap where
  metadata := { name := some "ldap", ns := some "team-a" }
  spec := {
    access := admin, url := "ldaps://ldap.example.com"
    bindCredentials := { vaultSecret := some "auth/ldap/config" } }
  status := none

/-- A Vault that has a credential where the configuration is going to be. -/
def overlaid : VaultContent := fun path =>
  if path = "auth/ldap/config" then
    some (((∅ : Payload).insert "username" (.str "cn=admin")).insert "password" (.str "secret"))
  else none

/-- What is written can be in the way of what is looked up: a credential that is replaced by the
configuration it is for is not found again, and a secret that is shown beside others is taken for a
wrapped one and made anew. -/
theorem second_pass_disturbed :
    (∃ between after es fs, TwoPasses {} noStore (.ldap selfReferring) none overlaid between after es
      fs .updated (some (.error (.credential (.keyNotFound "password" "vault path auth/ldap/config"))))) ∧
    ∃ between after es fs, TwoPasses {} noStore (.randomSecret token) none generating between after
      es fs .created (some (.ok .updated)) := by
  have hldap := twoPasses_of_runs noStore ∅ (.ldap selfReferring) none overlaid
    .updated echoes_put_config rfl (by decide +kernel) trivial trivial
    fun _ _ => trivial
  have hsecret := twoPasses_of_runs noStore wrapping (.randomSecret token) none generating
    .created echoes_put_keyValue rfl (by decide +kernel) trivial token_generatesValue
    fun e _ => token_restsAt e
  have hended : (nextOver noStore ∅ (.ldap selfReferring) none overlaid).result =
      some (.error (.credential (.keyNotFound "password" "vault path auth/ldap/config"))) := by
    decide +kernel
  have hupdated : (nextOver noStore wrapping (.randomSecret token) none generating).result =
      some (.ok .updated) := by
    decide +kernel
  rw [hended] at hldap
  rw [hupdated] at hsecret
  exact ⟨⟨_, _, _, _, hldap⟩, _, _, _, _, hsecret⟩

end VaultOperator.Object
