import VaultOperator.Credential.Source
import VaultOperator.Pass.Program
import VaultOperator.RandomSecret.Endpoint
import VaultOperator.Text.Utf8

/-!
Looking up credentials. Only the source that a reference names is asked, and an identity given
beside the reference goes before the one that is stored with the secret.
-/

namespace VaultOperator.Credential

abbrev Lookup := ExceptT Error Program

namespace Lookup

def attempt (wrap : ε → Error) (p : Program (Except ε α)) : Lookup α :=
  ExceptT.mk (p.bind fun
    | .ok a => .done (.ok a)
    | .error e => .done (.error (wrap e)))

def orFail (value : Option α) (e : Error) : Lookup α :=
  match value with
  | some a => pure a
  | none => throw e

end Lookup

def secretValue (data : SecretData) (key location : String) : Except Error String :=
  match data.get? key with
  | none => .error (.keyNotFound key location)
  | some bytes =>
    match Text.decode? bytes with
    | some text => .ok text
    | none => .error (.invalidEncoding key location)

/-- The text under a key of a payload: of a string, a number or a truth value. -/
def payloadValue (p : Payload) (key location : String) : Except Error String :=
  match p.get? key with
  | some (.str s) => .ok s
  | some (.int i) => .ok (toString i)
  | some (.float x) => .ok x.text
  | some (.bool b) => .ok (if b then "true" else "false")
  | _ => .error (.keyNotFound key location)

/-- The secret and then, where no identity was given, the identity. -/
def pair (identity? : Option String) (value : String → Except Error String)
    (usernameKey passwordKey : String) : Except Error Resolved := do
  let secret ← value passwordKey
  match identity? with
  | some identity => .ok ⟨identity, secret⟩
  | none => .ok ⟨← value usernameKey, secret⟩

def readSecret (session : Vault.Session) (path location : String) : Lookup Payload := do
  let found ← Lookup.attempt .vault (.vault (.read session path))
  Vault.unwrapKv <$> Lookup.orFail found (.notFound location)

def lookUp (ns : String) (session : Vault.Session) (r : Reference) (identity? : Option String)
    (defaults : Defaults) : Source → Lookup Resolved
  | .localSecret name => do
    let location := "secret " ++ ns ++ "/" ++ name
    let found ← Lookup.attempt .store (.cluster (.getSecret ns name))
    let data ← Lookup.orFail found (.notFound location)
    ExceptT.mk (.done (pair identity? (secretValue data · location)
      (r.usernameKey.getD defaults.usernameKey) (r.passwordKey.getD defaults.passwordKey)))
  | .remoteSecret path => do
    let location := "vault path " ++ path
    let payload ← readSecret session path location
    ExceptT.mk (.done (pair identity? (payloadValue payload · location)
      (r.usernameKey.getD defaults.usernameKey) (r.passwordKey.getD defaults.passwordKey)))
  | .generatedSecret name => do
    let owner := "RandomSecret " ++ ns ++ "/" ++ name
    let found ← Lookup.attempt .store (.cluster (.getRandomSecret ns name))
    let random ← Lookup.orFail found (.notFound owner)
    let path := RandomSecret.readPath random
    let location := "vault path " ++ path
    let identity ← Lookup.orFail identity? (.missingIdentity owner)
    let payload ← readSecret session path location
    let key := r.passwordKey.getD random.spec.secretKey
    let secret ← ExceptT.mk (.done (payloadValue payload key location))
    return ⟨identity, secret⟩

/-- The credential of a reference. Nothing comes of a reference without a source, where that is
allowed. An empty identity counts as none. -/
def resolve (ns : String) (session : Vault.Session) (r : Reference) (identity? : Option String)
    (defaults : Defaults) : Lookup (Option Resolved) := do
  match ← ExceptT.mk (.done (Source.ofReference r)) with
  | none => if defaults.implicit then return none else throw .noSource
  | some source =>
    let identity? := identity?.filter fun identity => !identity.isEmpty
    let resolved ← lookUp ns session r identity? defaults source
    ExceptT.lift (Program.tally (.credentialResolution source.label))
    return some resolved

end VaultOperator.Credential
