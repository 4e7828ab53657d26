import VaultOperator.Credential.Source
import VaultOperator.Pass.Program
import VaultOperator.Path.Builder
import VaultOperator.Resource.Equivalence
import VaultOperator.Resource.Metadata

/-!
An object as the engine sees it: where it stands in Vault, what it should hold there, and how that
is compared with what is found.
-/

namespace VaultOperator

/-- What a pass finds out before it can tell what is desired. -/
structure InternalValues where
  credential : Option Credential.Resolved := none
  generated : Option String := none
  rendered : Dict String := ∅
  deriving DecidableEq, Repr

namespace InternalValues

def describeRendered (d : Dict String) : String :=
  let texts := d.entries.map fun e => Text.quoted e.1 ++ ": " ++ Text.quoted e.2
  "\x7b" ++ ", ".intercalate texts ++ "\x7d"

/-- The values for people: no secret is in it. -/
def describe (v : InternalValues) : String :=
  let credential := match v.credential with
    | some c => "Some(" ++ c.describe ++ ")"
    | none => "None"
  let generated := if v.generated.isSome then "Some(\"<redacted>\")" else "None"
  "InternalValues \x7b credential: " ++ credential ++ ", generated: " ++ generated ++
    ", rendered: " ++ describeRendered v.rendered ++ " \x7d"

end InternalValues

structure WriteRequest where
  path : String
  body : Payload
  deriving Inhabited

structure VaultObject where
  ns : String
  access : Access
  vaultPath : Except PathError String
  payload : InternalValues → Payload
  /-- Empty where no path can be built. -/
  path : String :=
    match vaultPath with
    | .ok path => path
    | .error _ => ""
  readPath : String := path
  deletePath : String := path
  createRequest : InternalValues → WriteRequest := fun v => ⟨path, payload v⟩
  updateRequest : InternalValues → WriteRequest := createRequest
  desired : InternalValues → Payload := payload
  /-- Keys that Vault does not show. -/
  redactedKeys : List String := []
  comparison : Comparison := .exact
  /-- Brings what Vault answers into the form that is written. -/
  normalize : Payload → Payload := fun observed => observed
  /-- What is observed is what is desired. -/
  isEquivalent : InternalValues → Payload → Program Bool := fun v observed =>
    pure (comparison.isEquivalent (desired v) (normalize observed) redactedKeys)
  isDeletable : Bool := true
  validate : Except ValidationError Unit := Validation.requirePath vaultPath
  /-- The time of each write is kept in the status. -/
  recordsWriteTime : Bool := false
  prepare : Vault.Session → Pass InternalValues := fun _ => pure {}
  readObserved : Vault.Session → Pass (Option Payload) := fun session =>
    Pass.read session readPath
  /-- Finds out what only a write needs. -/
  prepareWrite : Vault.Session → InternalValues → Pass InternalValues := fun _ v => pure v

end VaultOperator
