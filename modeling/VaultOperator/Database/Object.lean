import VaultOperator.Credential.Resolver
import VaultOperator.Database.Spec
import VaultOperator.Resource.VaultObject

/-!
Database connections, at `<path>/config/<name>`. Vault does not show the password, nests what it
shows and calls one key otherwise.
-/

namespace VaultOperator

abbrev Database := Resource Database.Spec Status

namespace Database

/-- The keys that are nested stand under this one. -/
def detailsKey : String := "connection_details"

/-- What Vault calls a key, and what it is written as. -/
def observedRenames : List (String × String) :=
  [("root_credentials_rotate_statements", "root_rotation_statements")]

/-- Lifts the fields of `details` to the top, where those that stand there already win. -/
def liftDetails (observed : Payload) : Payload :=
  match observed.get? detailsKey with
  | some (.obj details) => (observed.erase detailsKey).orElse (Dict.ofList details)
  | _ => observed.erase detailsKey

/-- Moves a value to another key, unless there is one already. -/
def rename (p : Payload) (old new : String) : Payload :=
  match p.get? old with
  | some value => (p.erase old).insertIfAbsent new value
  | none => p

/-- What Vault shows, in the form that is written. -/
def flattenObserved (observed : Payload) : Payload :=
  observedRenames.foldl (fun p (old, new) => rename p old new) (liftDetails observed)

def vaultPath (d : Database) : Except PathError String :=
  Path.build
    [.segment d.spec.path, .segment "config", .name d.spec.name d.metadata.nameAny, .requireName]

def payload (d : Database) (v : InternalValues) : Payload :=
  let s := d.spec
  Dict.ofFields
    [("plugin_name", some (.str s.pluginName)), ("plugin_version", s.pluginVersion.map .str),
      ("connection_url", some (.str s.connectionUrl)),
      ("verify_connection", some (.bool s.verifyConnection)),
      ("allowed_roles", Json.texts? s.allowedRoles),
      ("root_rotation_statements", Json.texts? s.rootRotationStatements),
      ("password_policy", s.passwordPolicy.map .str),
      ("username_template", s.usernameTemplate.map .str),
      ("max_open_connections", s.maxOpenConnections.map .int),
      ("username", v.credential.map (.str ·.identity)),
      ("password", v.credential.map (.str ·.secret))]

def validate (d : Database) : Except ValidationError Unit := do
  Validation.requirePath (vaultPath d)
  Validation.requireNonEmpty "spec.pluginName" d.spec.pluginName
  Validation.requireNonEmpty "spec.connectionUrl" d.spec.connectionUrl
  Credential.validateReference "spec.rootCredentials" d.spec.rootCredentials

def prepare (d : Database) (session : Vault.Session) : Pass InternalValues := do
  let credential ← Pass.attempt .credential
    (Credential.resolve d.metadata.nsAny session d.spec.rootCredentials d.spec.username .required)
  return { credential }

def toVaultObject (d : Database) : VaultObject :=
  { ns := d.metadata.nsAny
    access := d.spec.access
    vaultPath := vaultPath d
    payload := payload d
    redactedKeys := ["password"]
    comparison := .desiredKeys
    normalize := flattenObserved
    validate := validate d
    prepare := prepare d }

end Database

end VaultOperator
