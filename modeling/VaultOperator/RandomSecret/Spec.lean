import VaultOperator.Resource.Connection
import VaultOperator.Resource.Metadata
import VaultOperator.Status.Basic

/-!
The declaration of a secret that Vault makes up by a password policy.
-/

namespace VaultOperator.RandomSecret

structure Spec where
  access : Access
  /-- Where the key/value secrets engine is mounted. -/
  path : String
  name : Option String := none
  secretKey : String
  passwordPolicy : String
  /-- The secrets engine keeps versions. -/
  kvV2 : Bool := false
  /-- The value is made anew after this duration. -/
  refreshPeriod : Option String := none
  deriving DecidableEq, Repr

namespace Spec

/-- The policy stands in a structure of its own. -/
def formatReader : Json.Reader String :=
  Json.required "passwordPolicyName" Json.str?

def reader : Json.Reader Spec := do
  return {
    access := ← Access.reader
    path := ← Json.required "path" Json.str?
    name := ← Json.optional "name" Json.str?
    secretKey := ← Json.required "secretKey" Json.str?
    passwordPolicy := ← Json.required "secretFormat" (Json.structure? formatReader)
    kvV2 := ← Json.withDefault "kvSecretEngineV2" false Json.bool?
    refreshPeriod := ← Json.optional "refreshPeriod" Json.str? }

def ofJson? : Json → Option Spec :=
  Json.structure? reader

def toJson (s : Spec) : Json :=
  Json.record (s.access.fields ++
    [("path", .str s.path), ("name", Json.ofOption .str s.name), ("secretKey", .str s.secretKey),
      ("secretFormat", Json.record [("passwordPolicyName", .str s.passwordPolicy)]),
      ("kvSecretEngineV2", .bool s.kvV2),
      ("refreshPeriod", Json.ofOption .str s.refreshPeriod)])

end Spec

end RandomSecret

abbrev RandomSecret := Resource RandomSecret.Spec Status

def RandomSecret.ofJson? : Json → Option RandomSecret :=
  Resource.ofJson? RandomSecret.Spec.ofJson? Status.ofJson?

end VaultOperator
