import VaultOperator.Mount.Spec
import VaultOperator.Path.Endpoint
import VaultOperator.Resource.VaultObject

/-!
Mounts of secrets engines and auth methods. A mount is made with all of its definition; later on
only its tuning is read and written. Whether it is there is told by the table that lists it.
-/

namespace VaultOperator

abbrev SecretMount := Resource Mount.SecretSpec Status

abbrev AuthMount := Resource Mount.AuthSpec Status

namespace Mount

open VaultOperator.Path (MountTable)

def tunableKeys : List String :=
  ["description", "default_lease_ttl", "max_lease_ttl", "force_no_cache",
    "audit_non_hmac_request_keys", "audit_non_hmac_response_keys", "listing_visibility",
    "passthrough_request_headers", "allowed_response_headers", "options"]

/-- A lifetime in seconds, which is how Vault shows it. -/
def ttlValue (ttl : String) : Json :=
  match Duration.parse ttl with
  | .ok seconds => .int seconds
  | .error _ => .str ttl

def Tuning.payloadFields (t : Tuning) : List (String × Option Json) :=
  [("default_lease_ttl", t.defaultLeaseTtl.map ttlValue),
    ("max_lease_ttl", t.maxLeaseTtl.map ttlValue),
    ("force_no_cache", t.forceNoCache.map .bool),
    ("audit_non_hmac_request_keys", Json.texts? t.auditNonHmacRequestKeys),
    ("audit_non_hmac_response_keys", Json.texts? t.auditNonHmacResponseKeys),
    ("listing_visibility", t.listingVisibility.map .str),
    ("passthrough_request_headers", Json.texts? t.passthroughRequestHeaders),
    ("allowed_response_headers", Json.texts? t.allowedResponseHeaders)]

namespace Definition

def optionsValue? (d : Definition) : Option Json :=
  if d.options.isEmpty then none else some (Json.ofDict (d.options.map .str))

def payloadFields (d : Definition) : List (String × Option Json) :=
  [("type", some (.str d.type)), ("description", d.description.map .str),
    ("config", some (Json.ofDict (Dict.ofFields d.config.payloadFields))),
    ("local", some (.bool d.isLocal)), ("seal_wrap", some (.bool d.sealWrap)),
    ("options", d.optionsValue?)]

def payload (d : Definition) : Payload :=
  Dict.ofFields d.payloadFields

def tunePayload (d : Definition) : Payload :=
  Dict.ofFields (d.config.payloadFields ++
    [("description", d.description.map .str), ("options", d.optionsValue?)])

def vaultPath (d : Definition) (table : MountTable) (objectName : String) :
    Except PathError String :=
  Path.build [.segment (table.mountPath d.path ""), .name d.name objectName, .requireName]

def tunePath (d : Definition) (table : MountTable) (objectName : String) : String :=
  table.tunePath d.path (Path.effectiveName d.name objectName)

def tableKey (d : Definition) (objectName : String) : String :=
  Path.tableKey d.path (Path.effectiveName d.name objectName)

def readObserved (d : Definition) (table : MountTable) (objectName : String)
    (session : Vault.Session) : Pass (Option Payload) := do
  let listing ← Pass.read session table.path
  if listing.any (·.contains (d.tableKey objectName)) then
    Pass.read session (d.tunePath table objectName)
  else return none

def validate (d : Definition) (table : MountTable) (objectName : String) :
    Except ValidationError Unit := do
  Validation.requirePath (d.vaultPath table objectName)
  Validation.requireNonEmpty "spec.type" d.type
  Validation.optionalDuration "spec.config.defaultLeaseTtl" d.config.defaultLeaseTtl
  Validation.optionalDuration "spec.config.maxLeaseTtl" d.config.maxLeaseTtl

def toVaultObject (d : Definition) (table : MountTable) (metadata : Metadata) (access : Access)
    (payload : Payload) : VaultObject :=
  { ns := metadata.nsAny
    access := access
    vaultPath := d.vaultPath table metadata.nameAny
    payload := fun _ => payload
    readPath := d.tunePath table metadata.nameAny
    updateRequest := fun _ => ⟨d.tunePath table metadata.nameAny, d.tunePayload⟩
    desired := fun _ => d.tunePayload
    comparison := .keys tunableKeys
    validate := d.validate table metadata.nameAny
    readObserved := d.readObserved table metadata.nameAny }

end Definition

def SecretSpec.payload (s : SecretSpec) : Payload :=
  s.mount.payload.insert "external_entropy_access" (.bool s.externalEntropyAccess)

end Mount

def SecretMount.toVaultObject (m : SecretMount) : VaultObject :=
  m.spec.mount.toVaultObject .secret m.metadata m.spec.access m.spec.payload

def AuthMount.toVaultObject (m : AuthMount) : VaultObject :=
  m.spec.mount.toVaultObject .auth m.metadata m.spec.access m.spec.mount.payload

end VaultOperator
