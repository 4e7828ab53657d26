import VaultOperator.Credential.Error
import VaultOperator.Credential.Reference
import VaultOperator.Text.Quoted
import VaultOperator.Validation

/-!
The one source that a reference names, and the credential that comes of it.
-/

namespace VaultOperator.Credential

inductive Source where
  | localSecret (name : String)
  | remoteSecret (path : String)
  | generatedSecret (name : String)
  deriving DecidableEq, Repr

namespace Source

/-- What a source is counted as. -/
def label : Source → String
  | localSecret _ => "local_secret"
  | remoteSecret _ => "remote_secret"
  | generatedSecret _ => "generated_secret"

def target : Source → String
  | localSecret name => name
  | remoteSecret path => path
  | generatedSecret name => name

/-- The source of a reference, if it names one; no reference may name more. -/
def ofReference (r : Reference) : Except Error (Option Source) :=
  match r.secret, r.vaultSecret, r.randomSecret with
  | none, none, none => .ok none
  | some name, none, none => .ok (some (localSecret name))
  | none, some path, none => .ok (some (remoteSecret path))
  | none, none, some name => .ok (some (generatedSecret name))
  | _, _, _ => .error (.ambiguous r.sourcesSet)

end Source

def validateReference (field : String) (r : Reference) : Except ValidationError Unit :=
  match Source.ofReference r with
  | .ok _ => .ok ()
  | .error e => .error (.invalid field e.message)

structure Defaults where
  usernameKey : String := "username"
  passwordKey : String := "password"
  /-- It is fine for a reference to name no source. -/
  implicit : Bool
  deriving DecidableEq, Repr

def Defaults.required : Defaults := { implicit := false }

def Defaults.optional : Defaults := { implicit := true }

structure Resolved where
  identity : String
  secret : String
  deriving DecidableEq, Repr

/-- The credential for people: the secret is not in it. -/
def Resolved.describe (c : Resolved) : String :=
  "ResolvedCredential \x7b identity: " ++ Text.quoted c.identity ++ ", secret: \"<redacted>\" \x7d"

end VaultOperator.Credential
