import VaultOperator.Kubernetes.Call
import VaultOperator.Kubernetes.Manifest
import VaultOperator.Kubernetes.Request
import VaultOperator.Object

/-!
The calls to the cluster over its API: each is one request and a way to read its reply.
-/

namespace VaultOperator.Kubernetes

/-- What the API replies: a resource or an error. -/
abbrev Reply := Except Error Json

/-- A request, and what is learned from the reply to it. A request that cannot be made is not
sent. -/
structure Exchange (α : Type) where
  request : Except Error Request
  read : Reply → α

namespace Exchange

def perform (e : Exchange α) (send : Request → σ → Reply × σ) (state : σ) : α × σ :=
  match e.request with
  | .error cause => (e.read (.error cause), state)
  | .ok request =>
    let (reply, state) := send request state
    (e.read reply, state)

end Exchange

def decode (read : Json → Option α) : Reply → Except Error α
  | .error e => .error e
  | .ok j =>
    match read j with
    | some a => .ok a
    | none => .error (.client "Error deserializing response")

/-- Nothing is there where the API says so. -/
def found (read : Json → Option α) (reply : Reply) : Except StoreError (Option α) :=
  match decode read reply with
  | .ok a => .ok (some a)
  | .error e => if e.isNotFound then .ok none else .error (.kubernetes e)

def Error.isConflict : Error → Bool
  | .api 409 _ _ => true
  | _ => false

def created (secret : Secret) (reply : Reply) : Except StoreError Unit :=
  match decode secretData? reply with
  | .ok _ => .ok ()
  | .error e =>
    if e.isConflict then .error (.alreadyExists "Secret" (secret.ns.getD "") secret.name)
    else .error (.kubernetes e)

def deleted : Reply → Except StoreError Unit
  | .ok _ => .ok ()
  | .error e => if e.isNotFound then .ok () else .error (.kubernetes e)

def issued (ns serviceAccount : String) (reply : Reply) : Except StoreError String :=
  match decode issuedToken? reply with
  | .ok (some token) => .ok token
  | .ok none => .error (.missingToken ns serviceAccount)
  | .error e => .error (.kubernetes e)

/-- The reply to a patch is the whole object. -/
def patched (o : ObjectRef) (reply : Reply) : Except Error Unit :=
  (decode (Object.ofJson? o.kind) reply).map fun _ => ()

def exchange : (c : Call) → Exchange c.Answer
  | .serviceAccountToken ns serviceAccount audiences ttlSeconds =>
    { request := Request.ofItem .post (serviceAccountsPath ns) serviceAccount "/token" ""
        (some (tokenRequest audiences ttlSeconds))
      read := issued ns serviceAccount }
  | .getSecret ns name =>
    { request := Request.ofItem .get (secretsPath ns) name
      read := found secretData? }
  | .createSecret secret =>
    { request := Request.checked
        { method := .post
          path := secretsPath (secret.ns.getD "")
          body := some (secretToJson secret) }
      read := created secret }
  | .deleteSecret ns name =>
    { request := Request.ofItem .delete (secretsPath ns) name "" "" (some Json.emptyObject)
      read := deleted }
  | .getRandomSecret ns name =>
    { request := Request.ofItem .get (objectsPath .randomSecret ns) name
      read := found RandomSecret.ofJson? }
  | .getPki ns name =>
    { request := Request.ofItem .get (objectsPath .pki ns) name
      read := found Pki.ofJson? }
  | .patchFinalizers o finalizers =>
    { request := Request.ofItem .patch (objectsPath o.kind o.ns) o.name "" ""
        (some (Json.record
          [("metadata", Json.record [("finalizers", Json.ofStrings finalizers)])]))
      read := patched o }
  | .patchStatus o status =>
    { request := Request.ofItem .patch (objectsPath o.kind o.ns) o.name "/status"
        ("fieldManager=" ++ managerName) (some (Json.record [("status", status)]))
      read := patched o }

end VaultOperator.Kubernetes
