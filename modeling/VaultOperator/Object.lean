import VaultOperator.Database.Object
import VaultOperator.Ldap.Object
import VaultOperator.Mount.Object
import VaultOperator.Pki.Lifecycle
import VaultOperator.Policy.Object
import VaultOperator.RandomSecret.Object
import VaultOperator.Status.Update

/-!
Objects of all kinds, and one pass over any of them. Certificate authorities have a pass of their
own and record its progress; all other kinds share one.
-/

namespace VaultOperator

inductive Object where
  | policy (object : Policy)
  | secretMount (object : SecretMount)
  | authMount (object : AuthMount)
  | database (object : Database)
  | ldap (object : Ldap)
  | randomSecret (object : RandomSecret)
  | pki (object : Pki)

/-- How a pass over an object ended. -/
structure PassOutcome where
  result : Except ReconcileError SyncOutcome
  progress : Option CaProgress := none

namespace Object

def ofJson? (kind : Kind) (j : Json) : Option Object :=
  match kind with
  | .policy => policy <$> Resource.ofJson? Policy.Spec.ofJson? Status.ofJson? j
  | .secretMount => secretMount <$> Resource.ofJson? Mount.SecretSpec.ofJson? Status.ofJson? j
  | .authMount => authMount <$> Resource.ofJson? Mount.AuthSpec.ofJson? Status.ofJson? j
  | .database => database <$> Resource.ofJson? Database.Spec.ofJson? Status.ofJson? j
  | .ldap => ldap <$> Resource.ofJson? Ldap.Spec.ofJson? Status.ofJson? j
  | .randomSecret => randomSecret <$> RandomSecret.ofJson? j
  | .pki => pki <$> Pki.ofJson? j

def kind : Object → Kind
  | policy _ => .policy
  | secretMount _ => .secretMount
  | authMount _ => .authMount
  | database _ => .database
  | ldap _ => .ldap
  | randomSecret _ => .randomSecret
  | pki _ => .pki

def metadata : Object → Metadata
  | policy o => o.metadata
  | secretMount o => o.metadata
  | authMount o => o.metadata
  | database o => o.metadata
  | ldap o => o.metadata
  | randomSecret o => o.metadata
  | pki o => o.metadata

/-- The part of the status that all kinds have. -/
def status : Object → Option Status
  | policy o => o.status
  | secretMount o => o.status
  | authMount o => o.status
  | database o => o.status
  | ldap o => o.status
  | randomSecret o => o.status
  | pki o => o.status.map (·.common)

def specJson : Object → Json
  | policy o => o.spec.toJson
  | secretMount o => o.spec.toJson
  | authMount o => o.spec.toJson
  | database o => o.spec.toJson
  | ldap o => o.spec.toJson
  | randomSecret o => o.spec.toJson
  | pki o => o.spec.toJson

/-- The whole status; null where there is none. -/
def statusJson : Object → Json
  | pki o => Json.ofOption PkiStatus.toJson o.status
  | o => Json.ofOption Status.toJson o.status

def toVaultObject : Object → VaultObject
  | policy o => o.toVaultObject
  | secretMount o => o.toVaultObject
  | authMount o => o.toVaultObject
  | database o => Database.toVaultObject o
  | ldap o => Ldap.toVaultObject o
  | randomSecret o => RandomSecret.toVaultObject o
  | pki o => Pki.toVaultObject o

def ref (o : Object) : ObjectRef :=
  ⟨o.kind, o.metadata.nsAny, o.metadata.nameAny⟩

def sync (settings : Engine.Settings) : Object → Program PassOutcome
  | pki o => do
    let (result, progress) ← Pki.reconcile settings o
    return { result, progress := some progress }
  | o => do return { result := ← (Engine.reconcile settings o.toVaultObject).run }

def delete (settings : Engine.Settings) (o : Object) : Pass DeleteOutcome :=
  Engine.delete settings o.toVaultObject

def pkiStatusAfter (o : Pki) (outcome : PassOutcome) (now nextPass : Instant) : PkiStatus :=
  let progress := outcome.progress.getD (Pki.progress o)
  let common := Status.next (o.status.map (·.common)) o.metadata.generation outcome.result false
    now nextPass
  ⟨common.setCondition (Status.signedCondition progress.state now), progress⟩

/-- The status after a pass at `now`, when the next one is due at `nextPass`. -/
def statusAfter (o : Object) (outcome : PassOutcome) (now nextPass : Instant) : Json :=
  match o with
  | pki o => (pkiStatusAfter o outcome now nextPass).toJson
  | o =>
    (Status.next o.status o.metadata.generation outcome.result o.toVaultObject.recordsWriteTime now
      nextPass).toJson

end Object

end VaultOperator
