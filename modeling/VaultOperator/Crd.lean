import VaultOperator.Json.Basic
import VaultOperator.Kind
import VaultOperator.Resource.Metadata

/-!
How the kinds are declared to the cluster: their names, what is shown of their objects in a listing,
and which fields a declaration has.
-/

namespace VaultOperator

/-- A column in the listing of objects. All of them are texts. -/
structure Column where
  name : String
  jsonPath : String
  deriving DecidableEq, Repr

namespace Kind

def singular : Kind → String
  | policy => "policy"
  | secretMount => "secretenginemount"
  | authMount => "authenginemount"
  | database => "databasesecretengineconfig"
  | ldap => "ldapauthengineconfig"
  | randomSecret => "randomsecret"
  | pki => "pkisecretengineconfig"

def shortName : Kind → String
  | policy => "vpol"
  | secretMount => "vsem"
  | authMount => "vaem"
  | database => "vdbc"
  | ldap => "vldap"
  | randomSecret => "vrs"
  | pki => "vpki"

def definitionName (kind : Kind) : String :=
  kind.plural ++ "." ++ apiGroup

/-- The columns before the one that every kind ends with. -/
def ownColumns : Kind → List Column
  | policy => [⟨"Phase", ".status.phase"⟩]
  | secretMount | authMount => [⟨"Type", ".spec.type"⟩]
  | database => [⟨"Plugin", ".spec.pluginName"⟩]
  | ldap => [⟨"URL", ".spec.url"⟩]
  | randomSecret => [⟨"Last Update", ".status.lastVaultSecretUpdate"⟩]
  | pki => [⟨"Type", ".spec.type"⟩, ⟨"CA", ".status.caState.phase"⟩]

def columns (kind : Kind) : List Column :=
  kind.ownColumns ++ [⟨"Ready", ".status.conditions[?(@.type==\"Ready\")].status"⟩]

/-- The fields that a declaration has to have, beside the authentication. -/
def ownRequiredFields : Kind → List String
  | policy => ["policy"]
  | secretMount | authMount => ["type"]
  | database => ["path", "pluginName", "connectionUrl", "rootCredentials"]
  | ldap => ["url"]
  | randomSecret => ["path", "secretKey", "secretFormat"]
  | pki => ["path", "type", "commonName"]

def mountOptionalFields : List String :=
  ["path", "name", "description", "config", "local", "sealWrap", "options"]

/-- The fields that a declaration may have, beside the connection. -/
def ownOptionalFields : Kind → List String
  | policy => ["name"]
  | secretMount => "externalEntropyAccess" :: mountOptionalFields
  | authMount => mountOptionalFields
  | database =>
    ["name", "pluginVersion", "verifyConnection", "allowedRoles", "rootRotationStatements",
      "passwordPolicy", "usernameTemplate", "maxOpenConnections", "username"]
  | ldap =>
    ["path", "userDn", "userAttr", "groupDn", "groupFilter", "groupAttr", "upnDomain", "starttls",
      "insecureTls", "certificate", "bindDn", "bindCredentials"]
  | randomSecret => ["name", "kvSecretEngineV2", "refreshPeriod"]
  | pki =>
    ["privateKeyType", "altNames", "ipSans", "uriSans", "otherSans", "ttl", "format",
      "privateKeyFormat", "keyType", "keyBits", "excludeCnFromSans", "maxPathLength",
      "permittedDnsDomains", "ou", "organization", "country", "locality", "province",
      "streetAddress", "postalCode", "issuingCertificates", "crlDistributionPoints", "ocspServers",
      "internalSign", "externalSignSecret"]

def sortTexts (l : List String) : List String :=
  (Dict.ofList (l.map (·, ()))).keys

def requiredFields (kind : Kind) : List String :=
  sortTexts ("authentication" :: kind.ownRequiredFields)

def fields (kind : Kind) : List String :=
  sortTexts ("connection" :: "authentication" :: kind.ownRequiredFields ++ kind.ownOptionalFields)

def toJson (kind : Kind) : Json :=
  let columnToJson (c : Column) :=
    Json.record
      [("name", .str c.name), ("type", .str "string"), ("jsonPath", .str c.jsonPath)]
  Json.record
    [("name", .str kind.definitionName), ("group", .str apiGroup),
      ("names", Json.record
        [("categories", .arr []), ("kind", .str kind.name), ("plural", .str kind.plural),
          ("shortNames", Json.ofStrings [kind.shortName]), ("singular", .str kind.singular)]),
      ("scope", .str "Namespaced"), ("version", .str apiVersionName),
      ("columns", .arr (kind.columns.map columnToJson)),
      ("subresources", Json.record [("status", Json.emptyObject)]),
      ("spec_properties", Json.ofStrings kind.fields),
      ("spec_required", Json.ofStrings kind.requiredFields)]

end Kind

end VaultOperator
