import VaultOperator.Json.Basic
import VaultOperator.Text.Quoted

/-!
Logging in to Vault, and the payloads of its key/value secrets.
-/

namespace VaultOperator.Vault

/-- A Vault server and how to trust it. -/
structure Target where
  address : String
  ns : Option String := none
  caPem : Option String := none
  skipVerify : Bool := false
  deriving DecidableEq, Repr

/-- The token of a service account, to be exchanged for one of Vault. -/
structure LoginRequest where
  mount : String
  role : String
  jwt : String
  ns : Option String := none
  deriving DecidableEq, Repr

def describeOptional : Option String → String
  | none => "None"
  | some s => "Some(" ++ Text.quoted s ++ ")"

/-- The request for people: the token is not in it. -/
def LoginRequest.describe (r : LoginRequest) : String :=
  "LoginRequest \x7b mount: " ++ Text.quoted r.mount ++ ", role: " ++ Text.quoted r.role ++
    ", namespace: " ++ describeOptional r.ns ++ ", .. \x7d"

structure Session where
  target : Target
  token : String
  deriving DecidableEq, Repr

/-- The values of a secret. The second version of the engine answers with them under `data`, beside
their `metadata`. -/
def unwrapKv (p : Payload) : Payload :=
  match p.get? "data", p.get? "metadata" with
  | some (.obj data), some (.obj _) => Dict.ofList data
  | _, _ => p

/-- What the second version of the key/value engine is given. -/
def wrapKv (p : Payload) : Payload :=
  (∅ : Payload).insert "data" (Json.ofDict p)

end VaultOperator.Vault
