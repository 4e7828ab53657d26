import VaultOperator.Policy.Accessor
import VaultOperator.Policy.Spec
import VaultOperator.Path.Endpoint
import VaultOperator.Resource.VaultObject

/-!
Access policies, at `sys/policies/acl/<name>`.
-/

namespace VaultOperator

abbrev Policy := Resource Policy.Spec Status

namespace Policy

def bodyKey : String := "policy"

def vaultPath (p : Policy) : Except PathError String :=
  Path.build
    [.segment "sys/policies/acl", .name p.spec.name p.metadata.nameAny, .requireName]

def payload (p : Policy) (v : InternalValues) : Payload :=
  (∅ : Payload).insert bodyKey (.str ((v.rendered.get? bodyKey).getD p.spec.policy))

def validate (p : Policy) : Except ValidationError Unit := do
  Validation.requirePath (vaultPath p)
  Validation.requireNonEmpty "spec.policy" p.spec.policy

/-- Renders the policy. The listing of auth methods is read only if there is a placeholder. -/
def prepare (p : Policy) (session : Vault.Session) : Pass InternalValues := do
  if (referencedMounts p.spec.policy).isEmpty then return {}
  let table ← Pass.read session Path.MountTable.auth.path
  match renderAccessors p.spec.policy (table.getD ∅) with
  | .ok rendered => return { rendered := (∅ : Dict String).insert bodyKey rendered }
  | .error mount =>
    throw (.awaiting
      ("auth mount '" ++ mount ++ "' referenced by the policy does not exist"))

def toVaultObject (p : Policy) : VaultObject :=
  { ns := p.metadata.nsAny
    access := p.spec.access
    vaultPath := vaultPath p
    payload := payload p
    comparison := .keys [bodyKey]
    validate := validate p
    prepare := prepare p }

end Policy

end VaultOperator
