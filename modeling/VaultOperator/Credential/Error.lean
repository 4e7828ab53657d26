import VaultOperator.Kubernetes.Error
import VaultOperator.Vault.Error

/-!
Why a credential cannot be had.
-/

namespace VaultOperator.Credential

inductive Error where
  | ambiguous (sources : List String)
  | noSource
  | notFound (what : String)
  | keyNotFound (key location : String)
  | invalidEncoding (key location : String)
  | missingIdentity (location : String)
  | store (cause : StoreError)
  | vault (cause : Vault.Error)
  deriving DecidableEq, Repr

namespace Error

def message : Error → String
  | ambiguous sources => "multiple credential sources set: " ++ ", ".intercalate sources
  | noSource => "no credential source set and this kind has no implicit default"
  | notFound what => what ++ " not found"
  | keyNotFound key location => "key '" ++ key ++ "' not found in " ++ location
  | invalidEncoding key location => "key '" ++ key ++ "' in " ++ location ++ " is not valid UTF-8"
  | missingIdentity location =>
    "no identity for credential from " ++ location ++ "; set it explicitly on the resource"
  | store cause => cause.message
  | vault cause => cause.message

/-- The store and Vault answered, but what was asked for is not there. -/
def isNotFound : Error → Bool
  | notFound _ | keyNotFound .. | invalidEncoding .. | missingIdentity _ => true
  | _ => false

def isAmbiguous : Error → Bool
  | ambiguous _ => true
  | _ => false

/-- Nothing but another declaration helps. -/
def isMisconfigured : Error → Bool
  | ambiguous _ | noSource => true
  | _ => false

end Error

end VaultOperator.Credential
