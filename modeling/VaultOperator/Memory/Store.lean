import VaultOperator.Kubernetes.Call

/-!
The secrets and objects of a cluster in memory, by `namespace/name`.
-/

namespace VaultOperator.Memory

structure Store where
  secrets : Dict SecretData := ∅
  randomSecrets : Dict RandomSecret := ∅
  authorities : Dict Pki := ∅
  /-- The calls that fail, by their names and what they are about. -/
  failures : Dict StoreError := ∅

namespace Store

def key (ns name : String) : String :=
  ns ++ "/" ++ name

def failureKey (operation key : String) : String :=
  operation ++ " " ++ key

def guarded (s : Store) (operation key : String) (answer : Except StoreError α × Store) :
    Except StoreError α × Store :=
  match s.failures.get? (failureKey operation key) with
  | some e => (.error e, s)
  | none => answer

def create (s : Store) (secret : Secret) : Except StoreError Unit × Store :=
  let ns := secret.ns.getD ""
  let key := key ns secret.name
  if s.secrets.contains key then (.error (.alreadyExists "Secret" ns secret.name), s)
  else (.ok (), { s with secrets := s.secrets.insert key secret.data })

/-- The token of a service account tells its name. Patches change nothing here. -/
def answer : (c : Kubernetes.Call) → Store → c.Answer × Store
  | .serviceAccountToken ns serviceAccount _ _, s =>
    s.guarded "token" (key ns serviceAccount) (.ok ("jwt-" ++ ns ++ "-" ++ serviceAccount), s)
  | .getSecret ns name, s =>
    s.guarded "get_secret" (key ns name) (.ok (s.secrets.get? (key ns name)), s)
  | .createSecret secret, s =>
    s.guarded "create_secret" (key (secret.ns.getD "") secret.name) (s.create secret)
  | .deleteSecret ns name, s =>
    s.guarded "delete_secret" (key ns name)
      (.ok (), { s with secrets := s.secrets.erase (key ns name) })
  | .getRandomSecret ns name, s =>
    s.guarded "get_random_secret" (key ns name) (.ok (s.randomSecrets.get? (key ns name)), s)
  | .getPki ns name, s =>
    s.guarded "get_pki_config" (key ns name) (.ok (s.authorities.get? (key ns name)), s)
  | .patchFinalizers .., s => (.ok (), s)
  | .patchStatus .., s => (.ok (), s)

end Store

end VaultOperator.Memory
