import VaultOperator.Path.Basic

/-!
Paths put together from raw segments and a name.
-/

namespace VaultOperator

inductive PathError where
  | missingParameter (name : String)
  | empty
  deriving DecidableEq, Repr

def PathError.message : PathError → String
  | .missingParameter name => "Missing required parameter: " ++ name
  | .empty => "Path is empty after cleansing"

namespace Path

inductive Step where
  | segment (raw : String)
  | name (override? : Option String) (objectName : String)
  | requireName
  deriving DecidableEq, Repr

def Step.raw? : Step → Option String
  | .segment raw => some raw
  | .name override? objectName => some (effectiveName override? objectName)
  | .requireName => none

/-- The step names the object with more than blanks. -/
def Step.setsName : Step → Bool
  | .name override? objectName => !Text.isBlankText (effectiveName override? objectName)
  | _ => false

/-- The path of all steps in order. If a name is required, some step has to set one. -/
def build (steps : List Step) : Except PathError String :=
  if steps.contains .requireName && !steps.any Step.setsName then
    .error (.missingParameter "name")
  else
    let path := join (steps.filterMap Step.raw?)
    if path.isEmpty then .error .empty else .ok path

end Path

end VaultOperator
