import VaultOperator.Duration
import VaultOperator.Path.Builder

/-!
The checks of a declaration that need neither Vault nor the cluster.
-/

namespace VaultOperator

inductive ValidationError where
  | invalid (field message : String)
  | immutable (field was now : String)
  | path (cause : PathError)
  deriving DecidableEq, Repr

def ValidationError.message : ValidationError → String
  | .invalid field message => field ++ ": " ++ message
  | .immutable field was now =>
    field ++ " is immutable after creation (was '" ++ was ++ "', now '" ++ now ++ "')"
  | .path cause => "invalid path: " ++ cause.message

namespace Validation

def requireNonEmpty (field value : String) : Except ValidationError Unit :=
  if Text.isBlankText value then .error (.invalid field "must not be empty") else .ok ()

def optionalDuration (field : String) : Option String → Except ValidationError Unit
  | none => .ok ()
  | some value =>
    match Duration.parse value with
    | .ok _ => .ok ()
    | .error e => .error (.invalid field e.message)

def requirePath (path : Except PathError String) : Except ValidationError Unit :=
  match path with
  | .ok _ => .ok ()
  | .error e => .error (.path e)

end Validation

end VaultOperator
