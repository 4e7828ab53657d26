import VaultOperator.Path.Builder
import VaultOperator.Path.Endpoint
import VaultOperator.RandomSecret.Spec

/-!
Where a generated secret is kept in Vault.
-/

namespace VaultOperator.RandomSecret

def secretName (r : RandomSecret) : String :=
  Path.effectiveName r.spec.name r.metadata.nameAny

def vaultPath (r : RandomSecret) : Except PathError String :=
  Path.build
    [.segment (Path.kvPath r.spec.path "" r.spec.kvV2), .name r.spec.name r.metadata.nameAny,
      .requireName]

def readPath (r : RandomSecret) : String :=
  Path.kvPath r.spec.path (secretName r) r.spec.kvV2

/-- All versions of a secret go away with its metadata. -/
def deletePath (r : RandomSecret) : String :=
  if r.spec.kvV2 then Path.kvMetadataPath r.spec.path (secretName r) else readPath r

end VaultOperator.RandomSecret
