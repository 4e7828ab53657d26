import VaultOperator.Pki.Spec
import VaultOperator.Store.Secret
import VaultOperator.Text.Utf8
import VaultOperator.Kind

/-!
The companion secret of an authority, which keeps what Vault hands out only once.
-/

namespace VaultOperator.Pki

/-- What is kept of the answer to a generation. -/
def exportFields : List String :=
  ["certificate", "issuing_ca", "serial_number", "private_key", "private_key_type", "csr",
    "expiration"]

def exportName (p : Pki) : String :=
  p.metadata.nameAny ++ "-ca-export"

/-- Texts that are not empty, and numbers. -/
def exportText? : Json → Option String
  | .str s => if s.isEmpty then none else some s
  | value => value.numberText?

def exportData (response : Payload) : SecretData :=
  Dict.ofList (exportFields.filterMap fun field =>
    ((response.get? field).bind exportText?).map fun text => (field, Text.encode text))

/-- An authority owns its secret if it has both a name and an identity. -/
def owner? (p : Pki) : Option OwnerReference := do
  some ⟨apiVersion, Kind.pki.name, ← p.metadata.name, ← p.metadata.uid⟩

def exportSecret (p : Pki) (response : Payload) : Secret :=
  { name := exportName p
    ns := p.metadata.ns
    labels := Dict.ofList
      [("app.kubernetes.io/managed-by", managerName), (apiGroup ++ "/pki", p.metadata.nameAny)]
    owner := owner? p
    data := exportData response }

end VaultOperator.Pki
