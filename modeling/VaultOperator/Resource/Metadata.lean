import VaultOperator.Json.Reader
import VaultOperator.Time.Rfc3339

/-!
What the cluster keeps of every object beside its declaration and status.
-/

namespace VaultOperator

/-- The API group of all objects that are managed here, and its version. -/
def apiGroup : String := "vault.octopilot.io"

def apiVersionName : String := "v1alpha1"

def apiVersion : String := apiGroup ++ "/" ++ apiVersionName

/-- Guards the clean-up in Vault: the cluster keeps an object until its finalizers are gone. -/
def finalizer : String := "vault.octopilot.io/finalizer"

/-- The name under which patches and labels are made. -/
def managerName : String := "vault-config-operator"

structure Metadata where
  name : Option String := none
  generateName : Option String := none
  ns : Option String := none
  uid : Option String := none
  generation : Option Int := none
  finalizers : List String := []
  deleting : Bool := false
  deriving DecidableEq, Repr

namespace Metadata

/-- The name, or what a name was to be made from. -/
def nameAny (m : Metadata) : String :=
  (m.name.or m.generateName).getD ""

/-- The namespace; nothing where there is none. -/
def nsAny (m : Metadata) : String :=
  m.ns.getD ""

def hasFinalizer (m : Metadata) : Bool :=
  m.finalizers.contains finalizer

def time? (j : Json) : Option Instant :=
  j.str?.bind Instant.read?

def reader : Json.Reader Metadata := do
  let name ← Json.optional "name" Json.str?
  let generateName ← Json.optional "generateName" Json.str?
  let ns ← Json.optional "namespace" Json.str?
  let uid ← Json.optional "uid" Json.str?
  let generation ← Json.optional "generation" (Json.signed? 64)
  let finalizers ← Json.optional "finalizers" (Json.listOf Json.str?)
  let deletion ← Json.optional "deletionTimestamp" time?
  return {
    name, generateName, ns, uid, generation
    finalizers := finalizers.getD []
    deleting := deletion.isSome }

def ofJson? : Json → Option Metadata :=
  Json.object? reader

end Metadata

/-- An object of the cluster: what is known of it, what it declares and what came of it. -/
structure Resource (σ τ : Type) where
  metadata : Metadata
  spec : σ
  status : Option τ

namespace Resource

def ofJson? (spec? : Json → Option σ) (status? : Json → Option τ) (j : Json) :
    Option (Resource σ τ) :=
  Json.structure? (do
    let metadata ← Json.required "metadata" Metadata.ofJson?
    let spec ← Json.required "spec" spec?
    let status ← Json.optional "status" status?
    return { metadata, spec, status }) j

end Resource

end VaultOperator
