import VaultOperator.Dict

/-!
Secrets of the cluster.
-/

namespace VaultOperator

abbrev SecretData := Dict ByteArray

/-- The object that a secret goes away with. -/
structure OwnerReference where
  apiVersion : String
  kind : String
  name : String
  uid : String
  deriving DecidableEq

/-- A secret as it is made: its owner controls it, and it cannot be changed. -/
structure Secret where
  name : String
  ns : Option String
  labels : Dict String
  owner : Option OwnerReference
  type : String := "Opaque"
  data : SecretData

end VaultOperator
