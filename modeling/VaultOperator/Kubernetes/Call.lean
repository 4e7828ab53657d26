import VaultOperator.Kind
import VaultOperator.Kubernetes.Error
import VaultOperator.Pki.Spec
import VaultOperator.RandomSecret.Spec
import VaultOperator.Store.Secret

/-!
What can be asked of the cluster.
-/

namespace VaultOperator.Kubernetes

inductive Call where
  | serviceAccountToken (ns serviceAccount : String) (audiences : List String) (ttlSeconds : Int)
  | getSecret (ns name : String)
  | createSecret (secret : Secret)
  /-- A secret that is not there counts as deleted. -/
  | deleteSecret (ns name : String)
  | getRandomSecret (ns name : String)
  | getPki (ns name : String)
  /-- Replaces the finalizers of an object. -/
  | patchFinalizers (object : ObjectRef) (finalizers : List String)
  /-- Merges into the status of an object. -/
  | patchStatus (object : ObjectRef) (status : Json)

namespace Call

/-- What an answer says: a look-up gives nothing where there is nothing. -/
@[reducible] def Answer : Call → Type
  | serviceAccountToken .. => Except StoreError String
  | getSecret .. => Except StoreError (Option SecretData)
  | createSecret _ => Except StoreError Unit
  | deleteSecret .. => Except StoreError Unit
  | getRandomSecret .. => Except StoreError (Option RandomSecret)
  | getPki .. => Except StoreError (Option Pki)
  | patchFinalizers .. => Except Error Unit
  | patchStatus .. => Except Error Unit

end Call

end VaultOperator.Kubernetes
