/-!
The kinds of objects that are managed.
-/

namespace VaultOperator

inductive Kind where
  | policy
  | secretMount
  | authMount
  | database
  | ldap
  | randomSecret
  | pki
  deriving DecidableEq, Repr

namespace Kind

def all : List Kind :=
  [.policy, .secretMount, .authMount, .database, .ldap, .randomSecret, .pki]

def name : Kind → String
  | policy => "Policy"
  | secretMount => "SecretEngineMount"
  | authMount => "AuthEngineMount"
  | database => "DatabaseSecretEngineConfig"
  | ldap => "LdapAuthEngineConfig"
  | randomSecret => "RandomSecret"
  | pki => "PkiSecretEngineConfig"

def ofName? (name : String) : Option Kind :=
  all.find? (·.name == name)

/-- What the objects of a kind are listed under. -/
def plural : Kind → String
  | policy => "policies"
  | secretMount => "secretenginemounts"
  | authMount => "authenginemounts"
  | database => "databasesecretengineconfigs"
  | ldap => "ldapauthengineconfigs"
  | randomSecret => "randomsecrets"
  | pki => "pkisecretengineconfigs"

end Kind

/-- Where an object is found in the cluster. -/
structure ObjectRef where
  kind : Kind
  ns : String
  name : String
  deriving DecidableEq, Repr

end VaultOperator
