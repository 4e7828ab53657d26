import VaultOperator.Ldap.Object
import VaultOperator.Policy.Object
import VaultOperator.Proofs.Credential.Lookup
import VaultOperator.Proofs.Engine.Reconcile

/-!
# Objects that are read where they are written

Policies, configurations of LDAP and database connections are read at the path that they are written
to, and what they are made of is known before anything is read. What a write of one of them leaves
behind is found as desired (`IsPlain.stands`), and nothing else has changed (`IsPlain.kept`).
-/

namespace VaultOperator

open Engine (KeepsSession Leaves Stands)
open Comparison (Observes Shows)

namespace VaultObject

/-- What is found is what is desired. -/
def agrees (o : VaultObject) (v : InternalValues) (found : Payload) : Bool :=
  o.comparison.isEquivalent (o.payload v) (o.normalize found) o.redactedKeys

structure IsPlain (o : VaultObject) : Prop where
  readObserved : o.readObserved = fun session => Pass.read session o.path
  createRequest : o.createRequest = fun v => ⟨o.path, o.payload v⟩
  updateRequest : o.updateRequest = fun v => ⟨o.path, o.payload v⟩
  prepareWrite : o.prepareWrite = fun _ v => pure v
  isEquivalent : o.isEquivalent = fun v found => pure (o.agrees v found)

variable {o : VaultObject} {store : StoreContent} {engine : Backend}
  {before between : VaultContent}

theorem IsPlain.keepsSession (hplain : o.IsPlain)
    (hprepare : ∀ session, Concludes (Call.LooksIn session) (o.prepare session)) :
    KeepsSession o where
  prepare := hprepare
  readObserved session := by
    rw [hplain.readObserved]
    exact Pass.concludes_read rfl
  prepareWrite session v := by
    rw [hplain.prepareWrite]
    exact concludes_pure
  isEquivalent v observed es r h := by
    rw [hplain.isEquivalent] at h
    rw [(Program.exec_done.1 h).1]
    exact fun _ _ hmem => nomatch hmem

theorem IsPlain.stands_of_foundAt (hplain : o.IsPlain)
    (hfound : FoundAt between o.path fun found => o.agrees v found) :
    Stands store between Also o v := by
  obtain ⟨found, hbetween, hagrees⟩ := hfound
  refine ⟨found, fun session => ?_, fun es r h _ => ?_⟩
  · rw [hplain.readObserved, ← hbetween]
    exact Pass.read_yields
  · rw [hplain.isEquivalent] at h
    rw [(Program.exec_done.1 h).2, hagrees]

/-- What was found before is found again, and what was written is shown as it is desired. -/
theorem IsPlain.stands (hplain : o.IsPlain)
    (hechoes : engine.Echoes before between o.path (o.payload v) →
      FoundAt between o.path fun found => o.agrees v found)
    (hleaves : Leaves store engine o session v before outcome between) :
    Stands store between Also o v := by
  refine hplain.stands_of_foundAt ?_
  cases hleaves with
  | same observed hread hgiven hsame =>
    rw [hplain.readObserved] at hread
    rw [hplain.isEquivalent] at hsame
    have hagrees := (Program.exec_done.1 hsame).2
    exact ⟨observed, (Pass.read_ok hread hgiven).symm, (Option.some.inj hagrees).symm⟩
  | created v' hprepared hgiven hecho =>
    rw [hplain.prepareWrite] at hprepared
    obtain ⟨-, ⟨⟩⟩ := ends_pure.1 hprepared
    rw [hplain.createRequest] at hecho
    exact hechoes hecho
  | updated observed v' hread hgiven hprepared hgiven' hecho =>
    rw [hplain.prepareWrite] at hprepared
    obtain ⟨-, ⟨⟩⟩ := ends_pure.1 hprepared
    rw [hplain.updateRequest] at hecho
    exact hechoes hecho

theorem IsPlain.kept (hplain : o.IsPlain)
    (hkept : ∀ body, engine.Echoes before between o.path body → KeptBut o.path before between)
    (hleaves : Leaves store engine o session v before outcome between)
    (hother : outcome.wrote → other ≠ o.path) : between other = before other := by
  cases hleaves with
  | same => rfl
  | created v' hprepared hgiven hecho =>
    rw [hplain.createRequest] at hecho
    exact hkept _ hecho other (hother rfl)
  | updated observed v' hread hgiven hprepared hgiven' hecho =>
    rw [hplain.updateRequest] at hecho
    exact hkept _ hecho other (hother rfl)

/-- A pass that prepares the same values again, as long as only the object's own path changed,
finds nothing to do. -/
theorem IsPlain.unchanged_again (hplain : o.IsPlain)
    (hprepare : ∀ session, Concludes (Call.LooksIn session) (o.prepare session))
    (hechoes : ∀ v, engine.Echoes before between o.path (o.payload v) →
      FoundAt between o.path fun found => o.agrees v found)
    (hkept : ∀ body, engine.Echoes before between o.path body → KeptBut o.path before between)
    (hfollows : (∀ other, (outcome.wrote → other ≠ o.path) → between other = before other) →
      ∀ session session', Follows (Given store before) (Given store between) Eq
        (o.prepare session) (o.prepare session'))
    (hfirst : Ends (Engine.reconcile settings o) es (.ok outcome))
    (hes : Happens store engine before es between)
    (hsecond : Program.Exec (Engine.reconcile settings o).run fs r)
    (hfs : Happens store engine between fs after) :
    r = some (.ok .unchanged) ∧ writes fs = [] := by
  have hlooks := (hplain.keepsSession hprepare).onlyLooks
  have halso : ∀ e ∈ fs, (fun _ : Event => True) e := fun _ _ => trivial
  refine Engine.unchanged_again hlooks hlooks ⟨rfl, rfl, rfl, rfl⟩ hfirst hes
    (fun session v hleaves => ?_) hsecond hfs halso
  exact ⟨hplain.stands (hechoes v) hleaves,
    hfollows (fun other hother => hplain.kept hkept hleaves hother) session⟩

end VaultObject

variable {store : StoreContent} {before between : VaultContent}

-- ---------------------------------------------------------------------------
-- Policies
-- ---------------------------------------------------------------------------

namespace Policy

variable {p : Policy}

theorem isPlain : p.toVaultObject.IsPlain :=
  ⟨rfl, rfl, rfl, rfl, rfl⟩

theorem concludes_prepare : Concludes (Call.LooksIn session) (prepare p session) := by
  unfold prepare
  split
  · exact concludes_pure
  · refine .bind (Pass.concludes_read rfl) fun table => ?_
    split
    · exact concludes_pure
    · exact concludes_throw

/-- Policies are not kept where auth methods are listed. -/
theorem path_ne : Path.MountTable.auth.path ≠ p.toVaultObject.path := by
  simp only [toVaultObject]
  cases hpath : vaultPath p with
  | error => exact (by decide : Path.MountTable.auth.path ≠ "")
  | ok path =>
    intro hauth
    have hsegments := congrArg (fun path => Path.segmentsOf path.toList) hauth
    simp only [Path.eq_of_build hpath, Path.segmentsOf_join, Path.Step.raw?, List.filterMap_cons,
      List.filterMap_nil, List.flatMap_cons, List.flatMap_nil, List.append_nil] at hsegments
    have hsecond := congrArg (fun segments => segments[1]?) hsegments
    rw [List.getElem?_append_left (by decide)] at hsecond
    exact absurd hsecond (by decide)

theorem prepare_follows
    (h : between Path.MountTable.auth.path = before Path.MountTable.auth.path) :
    Follows (Given store before) (Given store between) Eq (prepare p session)
      (prepare p session') := by
  unfold prepare
  split
  · exact follows_pure rfl
  · refine (Pass.read_follows h).bind fun table _ htable => ?_
    subst htable
    split
    · exact follows_pure rfl
    · exact follows_throw

theorem agrees_of_echoes
    (h : (Backend.config []).Echoes before between p.toVaultObject.path (payload p v)) :
    FoundAt between p.toVaultObject.path fun found => p.toVaultObject.agrees v found := by
  obtain ⟨⟨found, hbetween, hshows⟩, -⟩ := h
  exact ⟨found, hbetween, Comparison.isEquivalent_keys fun key _ => hshows key⟩

end Policy

-- ---------------------------------------------------------------------------
-- Objects with a credential
-- ---------------------------------------------------------------------------

namespace Credential

/-- Looks up the credential that an object is written with. -/
def prepare (ns : String) (session : Vault.Session) (r : Reference) (identity? : Option String)
    (defaults : Defaults) : Pass InternalValues := do
  let credential ← Pass.attempt .credential (resolve ns session r identity? defaults)
  return { credential }

theorem concludes_prepare :
    Concludes (Call.LooksIn session) (prepare ns session r identity? defaults) :=
  .bind (Pass.concludes_attempt concludes_resolve) fun _ => concludes_pure

theorem prepare_follows {r : Reference}
    (h : ∀ path ∈ r.vaultPath? store ns, between path = before path) :
    Follows (Given store before) (Given store between) Eq
      (prepare ns session r identity? defaults) (prepare ns session' r identity? defaults) := by
  refine (Pass.follows_attempt (resolve_follows h)).bind fun credential _ heq => ?_
  subst heq
  exact follows_pure rfl

end Credential

-- ---------------------------------------------------------------------------
-- Configurations of LDAP
-- ---------------------------------------------------------------------------

namespace Ldap

variable {l : Ldap}

-- here and below `rfl` alone would work the path out
theorem isPlain : (toVaultObject l).IsPlain := by
  constructor <;> simp only [toVaultObject]
  rfl

theorem toVaultObject_withStatus (l : Ldap) (status : Option Status) :
    toVaultObject { l with status } = toVaultObject l := by
  have hpath : vaultPath { l with status } = vaultPath l := by simp only [vaultPath]
  have hpayload : payload { l with status } = payload l := rfl
  have hvalidate : validate { l with status } = validate l := by simp only [validate, vaultPath]
  have hprepare : prepare { l with status } = prepare l := rfl
  simp only [toVaultObject, hpath, hpayload, hvalidate, hprepare]

theorem agrees_of_echoes
    (h : (Backend.config ["bindpass"]).Echoes before between (toVaultObject l).path (payload l v)) :
    FoundAt between (toVaultObject l).path fun found => (toVaultObject l).agrees v found := by
  obtain ⟨⟨found, hbetween, hshows⟩, -⟩ := h
  exact ⟨found, hbetween, Comparison.isEquivalent_desiredKeys hshows⟩

end Ldap

-- ---------------------------------------------------------------------------
-- Database connections
-- ---------------------------------------------------------------------------

namespace Database

variable {d : Database}

theorem isPlain : (toVaultObject d).IsPlain :=
  ⟨rfl, rfl, rfl, rfl, rfl⟩

theorem agrees_of_echoes
    (h : (Backend.connection ["password"]).Echoes before between (toVaultObject d).path
      (payload d v)) :
    FoundAt between (toVaultObject d).path fun found => (toVaultObject d).agrees v found := by
  obtain ⟨⟨found, hbetween, hshows⟩, -⟩ := h
  refine ⟨found, hbetween, Comparison.isEquivalent_desiredKeys ?_⟩
  exact shows_flattenObserved (fun _ _ => isWritten_of_payload) hshows

end Database

end VaultOperator
