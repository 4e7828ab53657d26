import VaultOperator.Credential.Reference
import VaultOperator.Resource.Connection

/-!
The declaration of a database connection.
-/

namespace VaultOperator.Database

structure Spec where
  access : Access
  /-- Where the secrets engine is mounted. -/
  path : String
  name : Option String := none
  pluginName : String
  pluginVersion : Option String := none
  connectionUrl : String
  verifyConnection : Bool := true
  allowedRoles : List String := []
  rootRotationStatements : List String := []
  passwordPolicy : Option String := none
  usernameTemplate : Option String := none
  maxOpenConnections : Option Int := none
  /-- Goes before the identity that is stored with the credential. -/
  username : Option String := none
  rootCredentials : Credential.Reference
  deriving DecidableEq, Repr

namespace Spec

def reader : Json.Reader Spec := do
  return {
    access := ← Access.reader
    path := ← Json.required "path" Json.str?
    name := ← Json.optional "name" Json.str?
    pluginName := ← Json.required "pluginName" Json.str?
    pluginVersion := ← Json.optional "pluginVersion" Json.str?
    connectionUrl := ← Json.required "connectionUrl" Json.str?
    verifyConnection := ← Json.withDefault "verifyConnection" true Json.bool?
    allowedRoles := ← Json.withDefault "allowedRoles" [] (Json.listOf Json.str?)
    rootRotationStatements :=
      ← Json.withDefault "rootRotationStatements" [] (Json.listOf Json.str?)
    passwordPolicy := ← Json.optional "passwordPolicy" Json.str?
    usernameTemplate := ← Json.optional "usernameTemplate" Json.str?
    maxOpenConnections := ← Json.optional "maxOpenConnections" (Json.signed? 32)
    username := ← Json.optional "username" Json.str?
    rootCredentials := ← Json.required "rootCredentials" Credential.Reference.ofJson? }

def ofJson? : Json → Option Spec :=
  Json.structure? reader

def toJson (s : Spec) : Json :=
  Json.record (s.access.fields ++
    [("path", .str s.path), ("name", Json.ofOption .str s.name), ("pluginName", .str s.pluginName),
      ("pluginVersion", Json.ofOption .str s.pluginVersion),
      ("connectionUrl", .str s.connectionUrl), ("verifyConnection", .bool s.verifyConnection),
      ("allowedRoles", Json.ofStrings s.allowedRoles),
      ("rootRotationStatements", Json.ofStrings s.rootRotationStatements),
      ("passwordPolicy", Json.ofOption .str s.passwordPolicy),
      ("usernameTemplate", Json.ofOption .str s.usernameTemplate),
      ("maxOpenConnections", Json.ofOption .int s.maxOpenConnections),
      ("username", Json.ofOption .str s.username),
      ("rootCredentials", s.rootCredentials.toJson)])

end Spec

end VaultOperator.Database
