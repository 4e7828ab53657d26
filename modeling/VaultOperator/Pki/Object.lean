import VaultOperator.Path.Endpoint
import VaultOperator.Pki.Spec
import VaultOperator.Resource.VaultObject

/-!
Certificate authorities: what Vault is told of them, and which declarations are valid.
-/

namespace VaultOperator.Pki

def caState (p : Pki) : CaState :=
  (p.status.map (·.progress.state)).getD .notGenerated

def progress (p : Pki) : CaProgress :=
  (p.status.map (·.progress)).getD {}

namespace Spec

def subjectFields (s : Spec) : List (String × Option Json) :=
  [("common_name", some (.str s.commonName)), ("alt_names", Json.joined? s.altNames),
    ("ip_sans", Json.joined? s.ipSans), ("uri_sans", Json.joined? s.uriSans),
    ("other_sans", Json.joined? s.otherSans), ("ttl", s.ttl.map .str),
    ("format", s.format.map .str), ("exclude_cn_from_sans", some (.bool s.excludeCnFromSans)),
    ("max_path_length", s.maxPathLength.map .int),
    ("permitted_dns_domains", Json.joined? s.permittedDnsDomains), ("ou", s.ou.map .str),
    ("organization", s.organization.map .str), ("country", s.country.map .str),
    ("locality", s.locality.map .str), ("province", s.province.map .str),
    ("street_address", s.streetAddress.map .str), ("postal_code", s.postalCode.map .str)]

def generatePayload (s : Spec) : Payload :=
  Dict.ofFields (s.subjectFields ++
    [("private_key_format", s.privateKeyFormat.map .str), ("key_type", s.keyType.map .str),
      ("key_bits", s.keyBits.map .int)])

/-- The request to sign; the subject is taken from it and not from `csr`. -/
def signPayload (s : Spec) (csr : String) : Payload :=
  Dict.ofFields (("csr", some (.str csr)) :: s.subjectFields ++
    [("use_csr_values", some (.bool false))])

/-- The addresses put into certificates, if any are declared. -/
def urlsPayload? (s : Spec) : Option Payload :=
  if s.issuingCertificates.isEmpty && s.crlDistributionPoints.isEmpty && s.ocspServers.isEmpty then
    none
  else
    some (Dict.ofList
      [("issuing_certificates", Json.ofStrings s.issuingCertificates),
        ("crl_distribution_points", Json.ofStrings s.crlDistributionPoints),
        ("ocsp_servers", Json.ofStrings s.ocspServers)])

/-- An intermediate authority is signed in exactly one way, and a root in none. -/
def checkSigning (s : Spec) : Except ValidationError Unit :=
  match s.type, s.internalSign, s.externalSign with
  | .root, none, none => .ok ()
  | .root, _, _ =>
    .error (.invalid "spec.type"
      "a root CA is self-signed and cannot set internalSign or externalSignSecret")
  | .intermediate, some _, none => .ok ()
  | .intermediate, none, some _ => .ok ()
  | .intermediate, _, _ =>
    .error (.invalid "spec.type"
      "an intermediate CA needs exactly one of internalSign or externalSignSecret")

end Spec

/-- Type and key mode cannot change once the authority was made. -/
def checkImmutable (p : Pki) : Except ValidationError Unit := do
  let progress := progress p
  match progress.observedType with
  | some was =>
    if was ≠ p.spec.type then
      throw (.immutable "spec.type" was.name p.spec.type.name)
  | none => pure ()
  match progress.observedKeyMode with
  | some was =>
    if was ≠ p.spec.keyMode then
      throw (.immutable "spec.privateKeyType" was.name p.spec.keyMode.name)
  | none => pure ()

def vaultPath (p : Pki) : Except PathError String :=
  Path.build [.segment p.spec.path]

def validate (p : Pki) : Except ValidationError Unit := do
  Validation.requirePath (vaultPath p)
  Validation.requireNonEmpty "spec.commonName" p.spec.commonName
  Validation.optionalDuration "spec.ttl" p.spec.ttl
  p.spec.checkSigning
  checkImmutable p

/-- The mount of the authority; empty where the declared path is. -/
def mount (p : Pki) : String :=
  match vaultPath p with
  | .ok path => path
  | .error _ => ""

def toVaultObject (p : Pki) : VaultObject :=
  { ns := p.metadata.nsAny
    access := p.spec.access
    vaultPath := vaultPath p
    payload := fun _ => p.spec.generatePayload
    path := mount p
    deletePath := Path.PkiOperation.deleteRoot.path (mount p)
    validate := validate p }

end VaultOperator.Pki
