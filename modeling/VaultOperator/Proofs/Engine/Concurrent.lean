import VaultOperator.Proofs.Engine.Discipline
import VaultOperator.Proofs.Pass.Footprint

/-!
# Two passes at a time

A pass leaves the cluster as it is (`sparesCluster_of_reconcile`), so two of them meet nowhere but in
Vault. Where neither writes what the other touches there, the listings of mounts included, both do in
any order of their calls what they do alone (`Object.passes_do_not_interfere`).
-/

namespace VaultOperator

open Program (Exec)
open Memory (Backends Store)
open Memory.Backends (storeWorld)

namespace Engine

variable {o : VaultObject} {s : Settings}

theorem sparesCluster_of_login (h : LoginTrace s ns access es r) :
    ∀ c answer, .call c answer ∈ es → c.SparesCluster :=
  fun _ _ hmem => Call.sparesCluster_of_isLoginStep (h.isLoginStep _ hmem)

theorem Continuation.sparesCluster (hkeeps : KeepsSession o) (h : Continuation o session es r) :
    ∀ c answer, .call c answer ∈ es → c.SparesCluster := by
  intro c answer hmem
  rcases h.cases hkeeps with ⟨hlooks, -⟩ | ⟨looks, request, answered, outcome, hlooks, -, rfl, -⟩
  · exact Call.sparesCluster_of_looksIn (hlooks c answer hmem)
  · rcases List.mem_append.1 hmem with hmem | hmem
    · exact Call.sparesCluster_of_looksIn (hlooks c answer hmem)
    · cases List.mem_singleton.1 hmem
      exact ⟨rfl, rfl⟩

/-- A pass changes neither objects nor secrets of the cluster. -/
theorem sparesCluster_of_reconcile (hkeeps : KeepsSession o) (h : Exec (reconcile s o).run es r) :
    ∀ c answer, .call c answer ∈ es → c.SparesCluster := by
  intro c answer hmem
  cases reconcile_course hkeeps h with
  | invalid => cases hmem
  | shutOut hlogin => exact sparesCluster_of_login hlogin c answer hmem
  | admitted hlogin hrest =>
    rcases List.mem_append.1 hmem with hmem | hmem
    · exact sparesCluster_of_login hlogin c answer hmem
    · exact hrest.sparesCluster hkeeps c answer hmem

end Engine

namespace Object

/-- The pass that all kinds of objects but certificate authorities share. -/
def pass (s : Engine.Settings) (o : Object) : Program (Except ReconcileError SyncOutcome) :=
  (Engine.reconcile s o.toVaultObject).run

/-- A pass that no other pass gets in the way of. -/
def passAlone (s : Engine.Settings) (o : Object) (b : Backends Store) :=
  (o.pass s).run storeWorld b

variable {s : Engine.Settings} {o o' : Object} {b : Backends Store}

/-- Nothing in Vault is written by the one pass that the other reads or writes. -/
def KeepsClear (s : Engine.Settings) (b : Backends Store) (o o' : Object) : Prop :=
  ∀ path ∈ writtenPaths (o.passAlone s b).events, path ∉ touchedPaths (o'.passAlone s b).events

instance : Decidable (KeepsClear s b o o') :=
  inferInstanceAs (Decidable (∀ path ∈ _, _))

theorem independent_of_keepsClear (hkind : o.kind ≠ .pki) (hkind' : o'.kind ≠ .pki)
    (h : KeepsClear s b o o') (h' : KeepsClear s b o' o) :
    storeWorld.Independent (o.passAlone s b).events (o'.passAlone s b).events := by
  intro c answer hc d answer' hd
  have hexec {o : Object} : Exec (o.pass s) (o.passAlone s b).events (o.passAlone s b).result :=
    Program.exec_run _ _ _
  have hspares : c.SparesCluster :=
    Engine.sparesCluster_of_reconcile (keepsSession hkind) hexec c answer hc
  have hspares' : d.SparesCluster :=
    Engine.sparesCluster_of_reconcile (keepsSession hkind') hexec d answer' hd
  exact Memory.storeWorld_commute hspares hspares'
    (fun path hwritten htouched =>
      h path (mem_writtenPaths hc hwritten) (mem_touchedPaths hd htouched))
    (fun path hwritten htouched =>
      h' path (mem_writtenPaths hd hwritten) (mem_touchedPaths hc htouched))

/-- Two passes go on in turns, in whatever order. Where neither writes in Vault what the other reads or
writes there, each makes the calls that it makes alone and ends as it ends alone, and Vault comes to hold
what it holds when the second comes after the first. -/
theorem passes_do_not_interfere (turns : List Side) (hkind : o.kind ≠ .pki)
    (hkind' : o'.kind ≠ .pki) (h : KeepsClear s b o o') (h' : KeepsClear s b o' o) :
    let both := Program.interleave storeWorld turns (o.pass s) (o'.pass s) b
    both.firstResult = (o.passAlone s b).result ∧ both.firstEvents = (o.passAlone s b).events ∧
      both.secondResult = (o'.passAlone s b).result ∧
      both.secondEvents = (o'.passAlone s b).events ∧
      both.state = (o'.passAlone s (o.passAlone s b).state).state := by
  have hboth := Program.interleave_eq turns (o.pass s) (o'.pass s) b
    (independent_of_keepsClear hkind hkind' h h')
  intro both
  rw [show both = _ from hboth]
  exact ⟨rfl, rfl, rfl, rfl, rfl⟩

-- ---------------------------------------------------------------------------
-- A mount and a policy
-- ---------------------------------------------------------------------------

/-- Mounts a secrets engine, which is then listed with all others. -/
def valueMount : Object :=
  .secretMount
    { metadata := { name := some "kv", ns := some "team-a" }
      spec := { access := admin, mount := { type := "kv" } }
      status := none }

/-- A policy that names an auth method, whose accessor is listed with all auth methods. -/
def loginPolicy : Object :=
  .policy
    { metadata := { name := some "reader", ns := some "team-a" }
      spec := { access := admin, policy := "path \"a/$\x7bauth/oidc/@accessor\x7d\"" }
      status := none }

/-- A Vault with one auth method. -/
def oneMethod : Backends Store where
  vault :=
    { payloads := Dict.ofList [("sys/auth", Dict.ofList [("oidc/", Json.record
        [("accessor", .str "auth_oidc_1")])])] }
  cluster := {}
  clock := ⟨0, 0⟩

/-- The policy goes first, then each call comes after one of the other pass, and at last what is left of
the policy's. -/
def byTurns : List Side :=
  [.second, .first, .second, .first, .second, .first, .second, .first]

/-- A mount and a policy are made at the same time. -/
theorem passes_do_not_interfere_mount :
    valueMount.kind ≠ .pki ∧ loginPolicy.kind ≠ .pki ∧
      KeepsClear {} oneMethod valueMount loginPolicy ∧
      KeepsClear {} oneMethod loginPolicy valueMount ∧
      let both := Program.interleave storeWorld byTurns (valueMount.pass {}) (loginPolicy.pass {})
        oneMethod
      both.firstResult = some (.ok .created) ∧ both.firstEvents.length = 4 ∧
        both.secondResult = some (.ok .created) ∧ both.secondEvents.length = 5 ∧
        both.state.vault.payloads.keys =
          ["sys/auth", "sys/mounts", "sys/mounts/kv", "sys/policies/acl/reader"] := by
  have hkind : valueMount.kind ≠ .pki := by decide
  have hkind' : loginPolicy.kind ≠ .pki := by decide
  have hclear : KeepsClear {} oneMethod valueMount loginPolicy := by decide +kernel
  have hclear' : KeepsClear {} oneMethod loginPolicy valueMount := by decide +kernel
  obtain ⟨hresult, hevents, hresult', hevents', hstate⟩ :=
    passes_do_not_interfere byTurns hkind hkind' hclear hclear'
  refine ⟨hkind, hkind', hclear, hclear', ?_⟩
  intro both
  rw [hresult, hevents, hresult', hevents', hstate]
  decide +kernel

end Object

end VaultOperator
