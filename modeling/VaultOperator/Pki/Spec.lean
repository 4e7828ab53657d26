import VaultOperator.Pki.State
import VaultOperator.Resource.Connection
import VaultOperator.Resource.Metadata
import VaultOperator.Status.Basic

/-!
The declaration of a certificate authority.
-/

namespace VaultOperator.Pki

structure Signer where
  name : String
  ns : Option String := none
  deriving DecidableEq, Repr

/-- A secret that a certificate signed elsewhere is put into. -/
structure SignedSecret where
  name : String
  key : String := "tls.crt"
  deriving DecidableEq, Repr

structure Spec where
  access : Access
  /-- Where the secrets engine is mounted. -/
  path : String
  type : CaType
  keyMode : KeyMode := .internal
  commonName : String
  altNames : List String := []
  ipSans : List String := []
  uriSans : List String := []
  otherSans : List String := []
  ttl : Option String := none
  format : Option String := none
  privateKeyFormat : Option String := none
  keyType : Option String := none
  keyBits : Option Int := none
  excludeCnFromSans : Bool := false
  maxPathLength : Option Int := none
  permittedDnsDomains : List String := []
  ou : Option String := none
  organization : Option String := none
  country : Option String := none
  locality : Option String := none
  province : Option String := none
  streetAddress : Option String := none
  postalCode : Option String := none
  issuingCertificates : List String := []
  crlDistributionPoints : List String := []
  ocspServers : List String := []
  internalSign : Option Signer := none
  externalSign : Option SignedSecret := none
  deriving DecidableEq, Repr

namespace Signer

def reader : Json.Reader Signer := do
  return {
    name := ← Json.required "name" Json.str?
    ns := ← Json.optional "namespace" Json.str? }

def toJson (s : Signer) : Json :=
  Json.record [("name", .str s.name), ("namespace", Json.ofOption .str s.ns)]

end Signer

namespace SignedSecret

def reader : Json.Reader SignedSecret := do
  return {
    name := ← Json.required "name" Json.str?
    key := ← Json.withDefault "key" "tls.crt" Json.str? }

def toJson (s : SignedSecret) : Json :=
  Json.record [("name", .str s.name), ("key", .str s.key)]

end SignedSecret

namespace Spec

def reader : Json.Reader Spec := do
  let texts (name : String) := Json.withDefault name [] (Json.listOf Json.str?)
  let text (name : String) := Json.optional name Json.str?
  return {
    access := ← Access.reader
    path := ← Json.required "path" Json.str?
    type := ← Json.required "type" CaType.ofJson?
    keyMode := ← Json.withDefault "privateKeyType" .internal KeyMode.ofJson?
    commonName := ← Json.required "commonName" Json.str?
    altNames := ← texts "altNames"
    ipSans := ← texts "ipSans"
    uriSans := ← texts "uriSans"
    otherSans := ← texts "otherSans"
    ttl := ← text "ttl"
    format := ← text "format"
    privateKeyFormat := ← text "privateKeyFormat"
    keyType := ← text "keyType"
    keyBits := ← Json.optional "keyBits" (Json.signed? 32)
    excludeCnFromSans := ← Json.withDefault "excludeCnFromSans" false Json.bool?
    maxPathLength := ← Json.optional "maxPathLength" (Json.signed? 32)
    permittedDnsDomains := ← texts "permittedDnsDomains"
    ou := ← text "ou"
    organization := ← text "organization"
    country := ← text "country"
    locality := ← text "locality"
    province := ← text "province"
    streetAddress := ← text "streetAddress"
    postalCode := ← text "postalCode"
    issuingCertificates := ← texts "issuingCertificates"
    crlDistributionPoints := ← texts "crlDistributionPoints"
    ocspServers := ← texts "ocspServers"
    internalSign := ← Json.optional "internalSign" (Json.structure? Signer.reader)
    externalSign := ← Json.optional "externalSignSecret" (Json.structure? SignedSecret.reader) }

def ofJson? : Json → Option Spec :=
  Json.structure? reader

def toJson (s : Spec) : Json :=
  let text := Json.ofOption Json.str
  Json.record (s.access.fields ++
    [("path", .str s.path), ("type", s.type.toJson), ("privateKeyType", s.keyMode.toJson),
      ("commonName", .str s.commonName), ("altNames", Json.ofStrings s.altNames),
      ("ipSans", Json.ofStrings s.ipSans), ("uriSans", Json.ofStrings s.uriSans),
      ("otherSans", Json.ofStrings s.otherSans), ("ttl", text s.ttl), ("format", text s.format),
      ("privateKeyFormat", text s.privateKeyFormat), ("keyType", text s.keyType),
      ("keyBits", Json.ofOption .int s.keyBits), ("excludeCnFromSans", .bool s.excludeCnFromSans),
      ("maxPathLength", Json.ofOption .int s.maxPathLength),
      ("permittedDnsDomains", Json.ofStrings s.permittedDnsDomains), ("ou", text s.ou),
      ("organization", text s.organization), ("country", text s.country),
      ("locality", text s.locality), ("province", text s.province),
      ("streetAddress", text s.streetAddress), ("postalCode", text s.postalCode),
      ("issuingCertificates", Json.ofStrings s.issuingCertificates),
      ("crlDistributionPoints", Json.ofStrings s.crlDistributionPoints),
      ("ocspServers", Json.ofStrings s.ocspServers),
      ("internalSign", Json.ofOption Signer.toJson s.internalSign),
      ("externalSignSecret", Json.ofOption SignedSecret.toJson s.externalSign)])

end Spec

end Pki

abbrev Pki := Resource Pki.Spec PkiStatus

def Pki.ofJson? : Json → Option Pki :=
  Resource.ofJson? Pki.Spec.ofJson? PkiStatus.ofJson?

end VaultOperator
