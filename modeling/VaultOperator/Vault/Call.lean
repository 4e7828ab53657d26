import VaultOperator.Vault.Error
import VaultOperator.Vault.Session

/-!
What can be asked of Vault. A call is data, and so is its answer.
-/

namespace VaultOperator.Vault

inductive Call where
  | login (target : Target) (request : LoginRequest)
  | read (session : Session) (path : String)
  | write (session : Session) (path : String) (body : Payload)
  | delete (session : Session) (path : String)

namespace Call

/-- What an answer says: a login gives a token, and a read nothing where there is nothing. -/
@[reducible] def Answer : Call → Type
  | login .. => Except Error String
  | read .. => Except Error (Option Payload)
  | write .. => Except Error (Option Payload)
  | delete .. => Except Error Unit

end Call

end VaultOperator.Vault
