import VaultOperator.Json.Basic

/-!
When what Vault answers counts as what was declared. A key that is absent and one with an empty
value are not the same.
-/

namespace VaultOperator

inductive Comparison where
  /-- Both sides have the same keys with the same values. -/
  | exact
  /-- All that is desired is observed. -/
  | desiredKeys
  /-- All that is desired under one of these keys is observed. -/
  | keys (keys : List String)
  deriving DecidableEq, Repr

namespace Comparison

/-- A payload without what Vault never shows. -/
def redact (p : Payload) (redacted : List String) : Payload :=
  ⟨p.entries.filter fun e => !redacted.contains e.1, p.sorted.filter _⟩

/-- The key has this value. -/
def holds (observed : Payload) (key : String) (value : Json) : Bool :=
  match observed.get? key with
  | some found => found.same value
  | none => false

def isEquivalent (desired observed : Payload) (redacted : List String) : Comparison → Bool
  | .exact => Dict.same (redact desired redacted) (redact observed redacted)
  | .desiredKeys =>
    (redact desired redacted).entries.all fun e => holds (redact observed redacted) e.1 e.2
  | .keys listed =>
    listed.all fun key =>
      match (redact desired redacted).get? key with
      | some value => holds (redact observed redacted) key value
      | none => true

end Comparison

end VaultOperator
