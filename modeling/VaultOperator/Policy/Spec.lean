import VaultOperator.Resource.Connection

/-!
The declaration of an access policy.
-/

namespace VaultOperator.Policy

structure Spec where
  access : Access
  name : Option String := none
  /-- The text of the policy; `${auth/<mount>/@accessor}` stands for the accessor of a mount. -/
  policy : String
  deriving DecidableEq, Repr

namespace Spec

def reader : Json.Reader Spec := do
  return {
    access := ← Access.reader
    name := ← Json.optional "name" Json.str?
    policy := ← Json.required "policy" Json.str? }

def ofJson? : Json → Option Spec :=
  Json.structure? reader

def toJson (s : Spec) : Json :=
  Json.record (s.access.fields ++
    [("name", Json.ofOption .str s.name), ("policy", .str s.policy)])

end Spec

end VaultOperator.Policy
