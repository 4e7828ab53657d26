import VaultOperator.Credential.Reference
import VaultOperator.Resource.Connection

/-!
The declaration of an LDAP auth method's configuration.
-/

namespace VaultOperator.Ldap

structure Spec where
  access : Access
  /-- Where the auth method is mounted. -/
  path : String := "ldap"
  url : String
  userDn : Option String := none
  userAttr : Option String := none
  groupDn : Option String := none
  groupFilter : Option String := none
  groupAttr : Option String := none
  upnDomain : Option String := none
  starttls : Bool := false
  insecureTls : Bool := false
  certificate : Option String := none
  /-- Goes before the identity that is stored with the credential. -/
  bindDn : Option String := none
  bindCredentials : Credential.Reference := {}
  deriving DecidableEq, Repr

namespace Spec

def reader : Json.Reader Spec := do
  return {
    access := ← Access.reader
    path := ← Json.withDefault "path" "ldap" Json.str?
    url := ← Json.required "url" Json.str?
    userDn := ← Json.optional "userDn" Json.str?
    userAttr := ← Json.optional "userAttr" Json.str?
    groupDn := ← Json.optional "groupDn" Json.str?
    groupFilter := ← Json.optional "groupFilter" Json.str?
    groupAttr := ← Json.optional "groupAttr" Json.str?
    upnDomain := ← Json.optional "upnDomain" Json.str?
    starttls := ← Json.withDefault "starttls" false Json.bool?
    insecureTls := ← Json.withDefault "insecureTls" false Json.bool?
    certificate := ← Json.optional "certificate" Json.str?
    bindDn := ← Json.optional "bindDn" Json.str?
    bindCredentials := ← Json.withDefault "bindCredentials" {} Credential.Reference.ofJson? }

def ofJson? : Json → Option Spec :=
  Json.structure? reader

def toJson (s : Spec) : Json :=
  Json.record (s.access.fields ++
    [("path", .str s.path), ("url", .str s.url), ("userDn", Json.ofOption .str s.userDn),
      ("userAttr", Json.ofOption .str s.userAttr), ("groupDn", Json.ofOption .str s.groupDn),
      ("groupFilter", Json.ofOption .str s.groupFilter),
      ("groupAttr", Json.ofOption .str s.groupAttr), ("upnDomain", Json.ofOption .str s.upnDomain),
      ("starttls", .bool s.starttls), ("insecureTls", .bool s.insecureTls),
      ("certificate", Json.ofOption .str s.certificate), ("bindDn", Json.ofOption .str s.bindDn),
      ("bindCredentials", s.bindCredentials.toJson)])

end Spec

end VaultOperator.Ldap
