import VaultOperator.Json.Reader

/-!
Where a declaration says that a credential comes from.
-/

namespace VaultOperator.Credential

structure Reference where
  /-- A secret of the cluster, by name. -/
  secret : Option String := none
  /-- A secret in Vault, by path. -/
  vaultSecret : Option String := none
  /-- A generated secret, by the name of the object that declares it. -/
  randomSecret : Option String := none
  usernameKey : Option String := none
  passwordKey : Option String := none
  deriving DecidableEq, Repr

namespace Reference

/-- The names of the sources that are set, in the order of declaration. -/
def sourcesSet (r : Reference) : List String :=
  (if r.secret.isSome then ["secret"] else []) ++
    (if r.vaultSecret.isSome then ["vaultSecret"] else []) ++
    (if r.randomSecret.isSome then ["randomSecret"] else [])

def reader : Json.Reader Reference := do
  return {
    secret := ← Json.optional "secret" Json.str?
    vaultSecret := ← Json.optional "vaultSecret" Json.str?
    randomSecret := ← Json.optional "randomSecret" Json.str?
    usernameKey := ← Json.optional "usernameKey" Json.str?
    passwordKey := ← Json.optional "passwordKey" Json.str? }

def ofJson? : Json → Option Reference :=
  Json.structure? reader

def toJson (r : Reference) : Json :=
  Json.record
    [("secret", Json.ofOption .str r.secret), ("vaultSecret", Json.ofOption .str r.vaultSecret),
      ("randomSecret", Json.ofOption .str r.randomSecret),
      ("usernameKey", Json.ofOption .str r.usernameKey),
      ("passwordKey", Json.ofOption .str r.passwordKey)]

end Reference

end VaultOperator.Credential
