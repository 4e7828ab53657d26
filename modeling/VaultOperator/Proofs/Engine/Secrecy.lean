import VaultOperator.Object
import VaultOperator.Proofs.Credential.Secrecy
import VaultOperator.Proofs.Engine.Course
import VaultOperator.Proofs.Engine.Plain

/-!
# Secrets do not interfere with a pass

A pass over an object that is written with a credential does the same, and comes to the same, in
worlds that differ in the text of its secret (`secrets_do_not_interfere`). Only the value that is
written under one key differs.
-/

namespace VaultOperator

open Credential (IdentityApart SameIdentity)

/-- How the credential of an object is looked up, and the key that its secret is written under. -/
structure Binding where
  reference : Credential.Reference
  identity? : Option String
  defaults : Credential.Defaults
  key : String

/-- The text at the place is read for nothing but the secret of the credential. -/
structure Place.IsApart (place : Place) (o : VaultObject) (b : Binding) : Prop where
  identity : IdentityApart b.identity? (b.reference.usernameKey.getD b.defaults.usernameKey) place
  certificates : ∀ secret, (o.access.connection.bind (·.tls)).bind (·.caSecret) = some secret →
    place ≠ .cluster o.ns secret Engine.caKey
  observed : ∀ key, place ≠ .vault o.path key

/-- The values are the same but for the secret of the credential. -/
structure InternalValues.SameButSecret (v v' : InternalValues) : Prop where
  credential : Option.Rel SameIdentity v.credential v'.credential
  generated : v.generated = v'.generated
  rendered : v.rendered = v'.rendered

theorem Credential.describe_eq {c c' : Credential.Resolved} (h : SameIdentity c c') :
    c.describe = c'.describe := by
  have hidentity : c.identity = c'.identity := h
  unfold Resolved.describe
  rw [hidentity]

theorem InternalValues.SameButSecret.describe_eq {v v' : InternalValues}
    (h : v.SameButSecret v') : v.describe = v'.describe := by
  unfold InternalValues.describe
  rw [h.generated, h.rendered]
  have hcredential := h.credential
  generalize v.credential = credential at hcredential
  generalize v'.credential = credential' at hcredential
  cases hcredential with
  | none => rfl
  | some hidentity =>
    dsimp only
    rw [Credential.describe_eq hidentity]

namespace Engine

section
variable {place : Place} {key : String}

-- ---------------------------------------------------------------------------
-- Logging in
-- ---------------------------------------------------------------------------

theorem readCaSecret_inStep (h : place ≠ .cluster ns secret caKey) :
    InStep (place.likeness key) Eq (readCaSecret ns secret) (readCaSecret ns secret) := by
  refine (Pass.inStep_attempt lockstep_getSecret).bind fun found found' hfound => ?_
  refine (Pass.inStep_orFail hfound).bind fun data data' hdata => ?_
  have hbytes : data.get? caKey = data'.get? caKey := by
    rcases hdata with rfl | ⟨key, rfl, halike⟩
    · rfl
    · refine halike.alike.others caKey fun hkey => ?_
      rw [hkey] at h
      exact h rfl
  rw [hbytes]
  refine (Pass.inStep_orFail (R := Eq) ?_).bind fun bytes _ heq => ?_
  · cases data'.get? caKey with
    | none => exact .none
    | some bytes => exact .some rfl
  · subst heq
    exact inStep_pure rfl

/-- A call whose answers say nothing of the place. -/
theorem inStep_attempt_eq {p : Program (Except ε α)} (h : p.Lockstep (place.likeness key) Eq p) :
    InStep (place.likeness key) Eq (Pass.attempt wrap p) (Pass.attempt wrap p) := by
  refine Pass.inStep_attempt (h.mono fun x y heq => ?_)
  rw [heq]
  exact .refl (fun _ => rfl) y

theorem caPem_inStep
    (h : ∀ secret, (connection.bind (·.tls)).bind (·.caSecret) = some secret →
      place ≠ .cluster ns secret caKey) :
    InStep (place.likeness key) Eq (caPem s ns connection) (caPem s ns connection) := by
  unfold caPem
  split
  · next secret hsecret =>
    exact (readCaSecret_inStep (h secret hsecret)).map fun _ _ heq => congrArg some heq
  · refine InStep.map (R := Eq) (inStep_attempt_eq ?_) fun _ _ heq => congrArg some heq
    refine lockstep_same (c := .readCaFile _) fun _ _ hanswers => ?_
    cases hanswers
    rfl
  · exact inStep_pure rfl

theorem login_inStep
    (h : ∀ secret, (access.connection.bind (·.tls)).bind (·.caSecret) = some secret →
      place ≠ .cluster ns secret caKey) :
    InStep (place.likeness key) Eq (login s ns access) (login s ns access) := by
  refine InStep.bind (R := Eq) ?_ fun target _ htarget => ?_
  · refine (caPem_inStep h).bind fun ca _ hca => ?_
    subst hca
    exact inStep_pure rfl
  subst htarget
  refine InStep.bind (R := Eq) (inStep_attempt_eq ?_) fun jwt _ hjwt => ?_
  · refine lockstep_same (c := .cluster (.serviceAccountToken ..)) fun _ _ hanswers => ?_
    cases hanswers
    rfl
  subst hjwt
  refine InStep.bind (R := Eq) (inStep_attempt_eq ?_) fun token _ htoken => ?_
  · refine lockstep_same (c := .vault (.login ..)) fun _ _ hanswers => ?_
    cases hanswers
    rfl
  subst htoken
  exact inStep_pure rfl

theorem read_inStep (h : ∀ key, place ≠ .vault path key) :
    InStep (place.likeness key) Eq (Pass.read session path) (Pass.read session path) := by
  refine inStep_attempt_eq (lockstep_same (c := .vault (.read session path)) fun _ _ hanswers => ?_)
  cases hanswers with
  | same => rfl
  | shown hplace => exact absurd hplace (h _)

theorem write_inStep {body body' : Payload} (h : body.AlikeBut key body') :
    InStep (place.likeness key) Eq (Pass.write session path body)
      (Pass.write session path body') := by
  refine Pass.inStep_attempt (.call (CallsAlike.write h) fun answer answer' hanswers => .done ?_)
  cases hanswers with
  | same | write => exact .refl (fun _ => rfl) answer

end

end Engine

-- ---------------------------------------------------------------------------
-- Passes
-- ---------------------------------------------------------------------------

/-- An object that is written with a credential, and that Vault does not show the secret of. -/
structure VaultObject.IsBound (o : VaultObject) (b : Binding) : Prop where
  isPlain : o.IsPlain
  prepare : o.prepare = fun session =>
    Credential.prepare o.ns session b.reference b.identity? b.defaults
  payload : ∀ v v' : InternalValues, v.SameButSecret v' →
    (o.payload v).AlikeBut b.key (o.payload v')
  redacts : b.key ∈ o.redactedKeys

section
variable {o : VaultObject} {b : Binding} {place : Place}

open Engine (gather settle)

theorem Credential.prepare_inStep
    (h : IdentityApart identity? (r.usernameKey.getD defaults.usernameKey) place) :
    InStep (place.likeness key) InternalValues.SameButSecret
      (prepare ns session r identity? defaults) (prepare ns session r identity? defaults) :=
  (Pass.inStep_attempt (resolve_inStep h)).bind fun _ _ hcredential =>
    inStep_pure ⟨hcredential, rfl, rfl⟩

/-- Two states of knowledge that differ in the secret. -/
def KnowsAlike (known known' : Vault.Session × InternalValues) : Prop :=
  known.1 = known'.1 ∧ known.2.SameButSecret known'.2

theorem VaultObject.IsPlain.concludes_write (hplain : o.IsPlain) :
    Concludes (fun _ => True) (Engine.write session o v request) := by
  unfold Engine.write
  rw [hplain.prepareWrite, pure_bind]
  exact .bind (Pass.concludes_write trivial) fun _ => concludes_pure

/-- A pass over an object with a credential comes to a result, whatever is answered. -/
theorem VaultObject.IsBound.concludes_reconcile (hbound : o.IsBound b) :
    Concludes (fun _ => True) (Engine.reconcile s o) := by
  refine .bind Pass.concludes_check fun _ => ?_
  refine .bind (Engine.concludes_login fun _ _ => trivial) fun session => ?_
  rw [hbound.prepare, hbound.isPlain.readObserved, hbound.isPlain.isEquivalent]
  refine .bind (Credential.concludes_prepare.mono fun _ _ => trivial) fun v => ?_
  refine .bind (Pass.concludes_read trivial) fun observed => ?_
  cases observed with
  | none => exact .bind hbound.isPlain.concludes_write fun _ => concludes_pure
  | some observed =>
    refine .bind Program.within_done fun same => ?_
    cases same with
    | true => exact concludes_pure
    | false => exact .bind hbound.isPlain.concludes_write fun _ => concludes_pure

theorem VaultObject.IsBound.gather_inStep (hbound : o.IsBound b) (hplace : place.IsApart o b) :
    InStep (place.likeness b.key) KnowsAlike (gather s o) (gather s o) := by
  refine Pass.inStep_check.bind fun _ _ _ => ?_
  refine (Engine.login_inStep hplace.certificates).bind fun session _ hsession => ?_
  subst hsession
  rw [hbound.prepare]
  refine (Credential.prepare_inStep hplace.identity).bind fun v v' hvalues => ?_
  exact inStep_pure ⟨rfl, hvalues⟩

theorem VaultObject.IsBound.write_inStep (hbound : o.IsBound b) (hvalues : v.SameButSecret v')
    {request : InternalValues → WriteRequest}
    (hrequest : request = fun v => ⟨o.path, o.payload v⟩) :
    InStep (place.likeness b.key) Eq (Engine.write session o v request)
      (Engine.write session o v' request) := by
  unfold Engine.write
  rw [hbound.isPlain.prepareWrite, hrequest, pure_bind, pure_bind]
  refine (Engine.write_inStep (hbound.payload v v' hvalues)).bind fun _ _ _ => ?_
  exact inStep_pure rfl

theorem VaultObject.IsBound.settle_inStep (hbound : o.IsBound b) (hvalues : v.SameButSecret v') :
    InStep (place.likeness b.key) Eq (settle o session v found) (settle o session v' found) := by
  cases found with
  | none =>
    refine (hbound.write_inStep hvalues hbound.isPlain.createRequest).bind fun _ _ _ => ?_
    exact inStep_pure rfl
  | some observed =>
    have hagrees : o.agrees v observed = o.agrees v' observed :=
      Comparison.isEquivalent_congr (hbound.payload v v' hvalues) hbound.redacts o.comparison
    unfold settle
    rw [hbound.isPlain.isEquivalent]
    dsimp only
    rw [hagrees]
    refine (inStep_lift (R := Eq) (.done rfl)).bind fun same _ hsame => ?_
    subst hsame
    cases same with
    | true => exact inStep_pure rfl
    | false =>
      refine (hbound.write_inStep hvalues hbound.isPlain.updateRequest).bind fun _ _ _ => ?_
      exact inStep_pure rfl

theorem VaultObject.IsBound.reconcile_inStep (hbound : o.IsBound b) (hplace : place.IsApart o b) :
    InStep (place.likeness b.key) Eq (Engine.reconcile s o) (Engine.reconcile s o) := by
  rw [Engine.reconcile_eq_gather]
  refine (hbound.gather_inStep hplace).bind fun known known' hknown => ?_
  obtain ⟨session, v⟩ := known
  obtain ⟨session', v'⟩ := known'
  obtain ⟨rfl, hvalues⟩ := hknown
  dsimp only
  rw [hbound.isPlain.readObserved]
  refine (Engine.read_inStep hplace.observed).bind fun found _ hfound => ?_
  subst hfound
  exact hbound.settle_inStep hvalues

end

-- ---------------------------------------------------------------------------
-- Kinds
-- ---------------------------------------------------------------------------

theorem InternalValues.SameButSecret.identity_eq {v v' : InternalValues} (h : v.SameButSecret v') :
    v.credential.map (·.identity) = v'.credential.map (·.identity) :=
  map_eq_of_rel h.credential fun _ _ hidentity => hidentity

theorem InternalValues.SameButSecret.isSome_eq {v v' : InternalValues} (h : v.SameButSecret v') :
    v.credential.isSome = v'.credential.isSome := by
  simpa using congrArg Option.isSome h.identity_eq

def Database.binding (d : Database) : Binding :=
  ⟨d.spec.rootCredentials, d.spec.username, .required, "password"⟩

theorem Database.isBound (d : Database) : (toVaultObject d).IsBound d.binding where
  isPlain := isPlain
  prepare := rfl
  payload v v' h := by
    have hidentity : v.credential.map (Json.str ·.identity) =
        v'.credential.map (Json.str ·.identity) := by
      simpa [Function.comp_def] using congrArg (Option.map Json.str) h.identity_eq
    refine Dict.alikeBut_ofFields ?_
    simp [Dict.FieldsAlike, binding, hidentity, h.isSome_eq]
  redacts := List.mem_singleton_self _

def Ldap.binding (l : Ldap) : Binding :=
  ⟨l.spec.bindCredentials, l.spec.bindDn, .optional, "bindpass"⟩

theorem Ldap.isBound (l : Ldap) : (toVaultObject l).IsBound l.binding where
  isPlain := isPlain
  prepare := rfl
  payload v v' h := by
    refine Dict.alikeBut_ofFields ?_
    simp [Dict.FieldsAlike, binding, h.identity_eq, h.isSome_eq]
  redacts := List.mem_singleton_self _

namespace Object

def binding? : Object → Option Binding
  | database d => some d.binding
  | ldap l => some l.binding
  | _ => none

theorem isBound {o : Object} (h : o.binding? = some b) : o.toVaultObject.IsBound b := by
  cases o with
  | database d =>
    cases h
    exact d.isBound
  | ldap l =>
    cases h
    exact l.isBound
  | policy | secretMount | authMount | randomSecret | pki => cases h

/-- What can be seen of a pass over the object in two worlds, from two states. -/
structure SeenAlike (settings : Engine.Settings) (place : Place) (b : Binding) (o : Object)
    (w : World σ) (w' : World τ) (s : σ) (t : τ) : Prop where
  /-- The same is asked and counted, but for the value under the key of the secret. -/
  events : List.Forall₂ (place.likeness b.key).Events
    ((Engine.reconcile settings o.toVaultObject).run.run w s).events
    ((Engine.reconcile settings o.toVaultObject).run.run w' t).events
  result : ∃ result,
    ((Engine.reconcile settings o.toVaultObject).run.run w s).result = some result ∧
    ((Engine.reconcile settings o.toVaultObject).run.run w' t).result = some result
  status : ∀ now nextPass,
    ((o.sync settings).run w s).result.map (o.statusAfter · now nextPass) =
      ((o.sync settings).run w' t).result.map (o.statusAfter · now nextPass)
  /-- The values that were found out are the same to look at. -/
  values : ((Engine.gather settings o.toVaultObject).run.run w s).result.map
      (·.map fun known => known.2.describe) =
    ((Engine.gather settings o.toVaultObject).run.run w' t).result.map
      (·.map fun known => known.2.describe)

theorem sync_lockstep {o : Object} {L : Likeness} (hbinding : o.binding? = some b)
    (h : InStep L Eq (Engine.reconcile settings o.toVaultObject)
      (Engine.reconcile settings o.toVaultObject)) :
    Program.Lockstep L Eq (o.sync settings) (o.sync settings) := by
  cases o with
  | database | ldap =>
    refine Program.Lockstep.bind h fun x y hends => .done ?_
    rw [hends.eq]
  | policy | secretMount | authMount | randomSecret | pki => cases hbinding

/-- What can be seen of a pass does not depend on the text of the secret that it writes. -/
theorem secrets_do_not_interfere {o : Object} {w : World σ} {w' : World τ} {B : σ → τ → Prop}
    (hbinding : o.binding? = some b) (hplace : place.IsApart o.toVaultObject b)
    (hworlds : Resembles (place.likeness b.key) B w w') (hstates : B s t) :
    o.SeenAlike settings place b w w' s t := by
  have hbound := isBound hbinding
  have hreconcile : InStep (place.likeness b.key) Eq (Engine.reconcile settings o.toVaultObject)
      (Engine.reconcile settings o.toVaultObject) := hbound.reconcile_inStep hplace
  obtain ⟨hevents, hresult⟩ := Program.Lockstep.run hreconcile hworlds hstates
  obtain ⟨-, hsync⟩ := (sync_lockstep hbinding hreconcile).run hworlds hstates
  obtain ⟨-, hknown⟩ :=
    Program.Lockstep.run (hbound.gather_inStep hplace (s := settings)) hworlds hstates
  refine ⟨hevents, ?_, fun now nextPass => ?_, ?_⟩
  · obtain ⟨result, hended⟩ := Option.ne_none_iff_exists'.1
      (hbound.concludes_reconcile _ _ (Program.exec_run w _ s)).1
    refine ⟨result, hended, ?_⟩
    rw [hended] at hresult
    generalize Run.result _ = ended at hresult ⊢
    cases hresult with
    | some hends => rw [hends.eq]
  · exact map_eq_of_rel hsync fun outcome _ heq => by rw [heq]
  · refine map_eq_of_rel hknown fun known known' hends => ?_
    cases hends with
    | error => rfl
    | ok hknows => exact congrArg Except.ok hknows.2.describe_eq

-- ---------------------------------------------------------------------------
-- Two worlds with different passwords
-- ---------------------------------------------------------------------------

def directory : Ldap where
  metadata := { name := some "directory", ns := some "team-a" }
  spec := {
    access := ⟨none, { role := "admin" }⟩, url := "ldaps://ldap.example.com"
    bindCredentials := Credential.bindReference }
  status := none

/-- A world that has a credential in a secret of the cluster, and nothing in Vault. -/
def passwordWorld (password : String) : World Unit where
  answer
    | .clock, s => (⟨0, 0⟩, s)
    | .readCaFile _, s => (.error "no such file", s)
    | .vault (.login ..), s => (.ok "token", s)
    | .vault (.read ..), s => (.ok none, s)
    | .vault (.write ..), s => (.ok none, s)
    | .vault (.delete ..), s => (.ok (), s)
    | .cluster (.serviceAccountToken ..), s => (.ok "jwt", s)
    | .cluster (.getSecret ns name), s =>
      let found :=
        if ns = "team-a" ∧ name = "bind" then some (Credential.bindSecret password) else none
      (.ok found, s)
    | .cluster (.getRandomSecret ..), s => (.ok none, s)
    | .cluster (.getPki ..), s => (.ok none, s)
    | .cluster (.createSecret _), s => (.ok (), s)
    | .cluster (.deleteSecret ..), s => (.ok (), s)
    | .cluster (.patchFinalizers ..), s => (.ok (), s)
    | .cluster (.patchStatus ..), s => (.ok (), s)

def passwordPlace : Place := .cluster "team-a" "bind" "password"

theorem secretsAlike_bindSecret (password password' : String) :
    SecretsAlike "password" (Credential.bindSecret password) (Credential.bindSecret password') := by
  have htext (password : String) : ∃ bytes text,
      (Credential.bindSecret password).get? "password" = some bytes ∧
        Text.decode? bytes = some text :=
    ⟨_, password, by rw [Credential.bindSecret, Dict.get?_insert, if_pos rfl],
      Text.decode?_encode _⟩
  exact ⟨(Dict.AlikeBut.refl _ _).insert (absurd rfl), htext password, htext password'⟩

theorem passwordWorlds_resemble (password password' key : String) :
    Resembles (passwordPlace.likeness key) (fun _ _ => True) (passwordWorld password)
      (passwordWorld password') where
  states _ _ := trivial
  answers {c c' s t} hcalls _ := by
    cases hcalls with
    | write => exact .write _
    | same =>
      cases c with
      | clock => exact .same _
      | readCaFile => exact .same _
      | vault c => cases c <;> exact .same _
      | cluster c =>
        cases c with
        | getSecret ns name =>
          simp only [passwordWorld]
          split
          · next hname =>
            obtain ⟨rfl, rfl⟩ := hname
            exact .secret rfl (secretsAlike_bindSecret password password')
          · exact .same _
        | _ => exact .same _

/-- The password that is written for a directory is not seen anywhere else. -/
theorem secrets_do_not_interfere_directory :
    (ldap directory).SeenAlike {} passwordPlace directory.binding (passwordWorld "hunter2")
        (passwordWorld "correct horse") () () ∧
      ((Engine.reconcile {} (ldap directory).toVaultObject).run.run (passwordWorld "hunter2")
        ()).result = some (.ok .created) := by
  refine ⟨secrets_do_not_interfere rfl ⟨.inr (by decide), nofun, nofun⟩
    (passwordWorlds_resemble _ _ _) trivial, ?_⟩
  decide +kernel

end Object

end VaultOperator
