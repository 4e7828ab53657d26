import VaultOperator.Json.Basic
import VaultOperator.Kind
import VaultOperator.Kubernetes.Error
import VaultOperator.Resource.Metadata

/-!
Requests to the API of the cluster, and where its resources are found.
-/

namespace VaultOperator.Kubernetes

inductive Method where
  | get
  | post
  | patch
  | delete
  deriving DecidableEq, Repr

def Method.name : Method → String
  | .get => "GET"
  | .post => "POST"
  | .patch => "PATCH"
  | .delete => "DELETE"

structure Request where
  method : Method
  path : String
  query : String := ""
  body : Option Json := none

def secretsPath (ns : String) : String :=
  "/api/v1/namespaces/" ++ ns ++ "/secrets"

def serviceAccountsPath (ns : String) : String :=
  "/api/v1/namespaces/" ++ ns ++ "/serviceaccounts"

def objectsPath (kind : Kind) (ns : String) : String :=
  "/apis/" ++ apiVersion ++ "/namespaces/" ++ ns ++ "/" ++ kind.plural

def itemPath (collection name : String) : String :=
  collection ++ "/" ++ name

def objectPath (o : ObjectRef) : String :=
  itemPath (objectsPath o.kind o.ns) o.name

/-- Characters that may stand in the path of an address as they are. -/
def isPathChar (c : Char) : Bool :=
  ' ' < c && c ≠ '<' && c ≠ '>' && c ≠ '\x60'

namespace Request

/-- The path of a request has to hold characters of paths only. -/
def checked (r : Request) : Except Error Request :=
  if r.path.toList.all isPathChar then .ok r
  else .error (.client "Failed to build request: failed to build request: invalid uri character")

/-- A request about one item, which has to have a name. -/
def ofItem (method : Method) (collection name : String) (rest query : String := "")
    (body : Option Json := none) : Except Error Request :=
  if name.isEmpty then
    .error (.client
      "Failed to build request: failed to validate request: A non-empty name is required")
  else checked { method, path := itemPath collection name ++ rest, query, body }

end Request

end VaultOperator.Kubernetes
