import VaultOperator.Kubernetes.Call
import VaultOperator.Time.Instant
import VaultOperator.Vault.Call

/-!
What a pass over an object asks of the world around it: the clock, the file of certificates, Vault
and the cluster.
-/

namespace VaultOperator

inductive Call where
  | clock
  | readCaFile (path : String)
  | vault (c : Vault.Call)
  | cluster (c : Kubernetes.Call)

namespace Call

@[reducible] def Answer : Call → Type
  | clock => Instant
  | readCaFile _ => Except String String
  | vault c => c.Answer
  | cluster c => c.Answer

def isVault : Call → Bool
  | vault _ => true
  | _ => false

end Call

end VaultOperator
