import VaultOperator.Json.Reader
import VaultOperator.Store.Secret
import VaultOperator.Text.Base64

/-!
Secrets and requests for tokens as the API of the cluster writes them.
-/

namespace VaultOperator.Kubernetes

/-- Bytes stand in JSON as base64. -/
def bytesToJson (bytes : ByteArray) : Json :=
  .str (Text.encodeBase64 bytes)

/-- Null stands for no bytes. -/
def bytes? : Json → Option ByteArray
  | .null => some .empty
  | .str text => Text.decodeBase64? text
  | _ => none

def ownerToJson (o : OwnerReference) : Json :=
  Json.record
    [("apiVersion", .str o.apiVersion), ("controller", .bool true), ("kind", .str o.kind),
      ("name", .str o.name), ("uid", .str o.uid)]

def secretToJson (s : Secret) : Json :=
  let metadata :=
    [("name", some (.str s.name)), ("namespace", s.ns.map .str),
      ("labels", some (Json.ofDict (s.labels.map .str))),
      ("ownerReferences", s.owner.map fun owner => .arr [ownerToJson owner])]
  Json.record
    [("apiVersion", .str "v1"), ("kind", .str "Secret"), ("immutable", .bool true),
      ("type", .str s.type), ("metadata", Json.ofDict (Dict.ofFields metadata)),
      ("data", Json.ofDict (s.data.map bytesToJson))]

def secretData? (j : Json) : Option SecretData :=
  Json.object? (do
    let data ← Json.optional "data" (Json.dictOf bytes?)
    return data.getD ∅) j

def tokenRequest (audiences : List String) (ttlSeconds : Int) : Json :=
  Json.record
    [("apiVersion", .str "authentication.k8s.io/v1"), ("kind", .str "TokenRequest"),
      ("metadata", Json.emptyObject),
      ("spec", Json.record
        [("audiences", Json.ofStrings audiences), ("expirationSeconds", .int ttlSeconds)])]

def tokenStatusReader : Json.Reader String := do
  return (← Json.optional "token" Json.str?).getD ""

/-- The token in the answer to a request for one; nothing where the answer holds none. -/
def issuedToken? (j : Json) : Option (Option String) :=
  Json.object? (do
    let token ← Json.optional "status" (Json.object? tokenStatusReader)
    return token.filter fun token => !token.isEmpty) j

end VaultOperator.Kubernetes
