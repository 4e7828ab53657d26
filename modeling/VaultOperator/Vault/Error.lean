import VaultOperator.Json.Parser
import VaultOperator.Text.Blank

/-!
What can go wrong between the operator and Vault.
-/

namespace VaultOperator.Vault

inductive Error where
  | notFound (path : String)
  | permissionDenied (path message : String)
  | api (status : Nat) (path message : String)
  | unavailable (status : Nat) (path message : String)
  /-- No answer came at all. -/
  | transport (path cause : String)
  | decode (path message : String)
  | invalidTarget (message : String)
  | missingToken (path : String)
  deriving DecidableEq, Repr

namespace Error

def message : Error → String
  | notFound path => "nothing found at " ++ path
  | permissionDenied path message => "permission denied for " ++ path ++ ": " ++ message
  | api status path message =>
    "vault returned " ++ toString status ++ " for " ++ path ++ ": " ++ message
  | unavailable status path message =>
    "vault unavailable (" ++ toString status ++ ") for " ++ path ++ ": " ++ message
  | transport path cause => "request to " ++ path ++ " failed: " ++ cause
  | decode path message => "unexpected response from " ++ path ++ ": " ++ message
  | invalidTarget message => "invalid vault connection: " ++ message
  | missingToken path => "login at " ++ path ++ " returned no client token"

/-- What an error is counted as. -/
def label : Error → String
  | notFound _ => "not_found"
  | permissionDenied .. => "permission_denied"
  | api .. => "api"
  | unavailable .. => "unavailable"
  | transport .. => "transport"
  | decode .. => "decode"
  | invalidTarget _ => "invalid_target"
  | missingToken _ => "missing_token"

def isNotFound : Error → Bool
  | notFound _ => true
  | _ => false

/-- The texts in the list `errors` of a response, or the response itself if there are none. -/
def responseMessage (body : String) : String :=
  let listed := do
    let errors ← (← Json.parse? body).get? "errors"
    let texts := (← errors.items?).filterMap Json.str?
    let message := "; ".intercalate texts
    if message.isEmpty then none else some message
  listed.getD (Text.trim body)

/-- The error that a response stands for which does not tell of success. -/
def ofStatus (status : Nat) (path body : String) : Error :=
  if status = 404 then .notFound path
  else if status = 401 ∨ status = 403 then .permissionDenied path (responseMessage body)
  else if status = 429 ∨ (500 ≤ status ∧ status ≤ 599) then
    .unavailable status path (responseMessage body)
  else .api status path (responseMessage body)

end Error

end VaultOperator.Vault
