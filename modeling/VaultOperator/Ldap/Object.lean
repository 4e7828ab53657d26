import VaultOperator.Credential.Resolver
import VaultOperator.Ldap.Spec
import VaultOperator.Resource.VaultObject

/-!
Configurations of LDAP auth methods, at `auth/<path>/config`. Without a credential the method binds
as `bindDn`, or as nobody. A configuration goes away with its mount and is not deleted by itself.
-/

namespace VaultOperator

abbrev Ldap := Resource Ldap.Spec Status

namespace Ldap

def vaultPath (l : Ldap) : Except PathError String :=
  Path.build [.segment "auth", .segment l.spec.path, .segment "config"]

def payload (l : Ldap) (v : InternalValues) : Payload :=
  let s := l.spec
  Dict.ofFields
    [("url", some (.str s.url)), ("userdn", s.userDn.map .str), ("userattr", s.userAttr.map .str),
      ("groupdn", s.groupDn.map .str), ("groupfilter", s.groupFilter.map .str),
      ("groupattr", s.groupAttr.map .str), ("upndomain", s.upnDomain.map .str),
      ("starttls", some (.bool s.starttls)), ("insecure_tls", some (.bool s.insecureTls)),
      ("certificate", s.certificate.map .str),
      ("binddn", ((v.credential.map (·.identity)).or s.bindDn).map .str),
      ("bindpass", v.credential.map (.str ·.secret))]

def validate (l : Ldap) : Except ValidationError Unit := do
  Validation.requirePath (vaultPath l)
  Validation.requireNonEmpty "spec.url" l.spec.url
  Credential.validateReference "spec.bindCredentials" l.spec.bindCredentials

def prepare (l : Ldap) (session : Vault.Session) : Pass InternalValues := do
  let credential ← Pass.attempt .credential
    (Credential.resolve l.metadata.nsAny session l.spec.bindCredentials l.spec.bindDn .optional)
  return { credential }

def toVaultObject (l : Ldap) : VaultObject :=
  { ns := l.metadata.nsAny
    access := l.spec.access
    vaultPath := vaultPath l
    payload := payload l
    redactedKeys := ["bindpass"]
    comparison := .desiredKeys
    isDeletable := false
    validate := validate l
    prepare := prepare l }

end Ldap

end VaultOperator
