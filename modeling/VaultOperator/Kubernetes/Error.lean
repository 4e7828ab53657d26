import VaultOperator.Text.Quoted

/-!
What can go wrong between the operator and the cluster.
-/

namespace VaultOperator

namespace Kubernetes

inductive Error where
  /-- The cluster refused. -/
  | api (code : Nat) (message reason : String)
  /-- The request could not be made or its answer not be read. -/
  | client (message : String)
  deriving DecidableEq, Repr

def Error.message : Error → String
  | .api code message reason =>
    "ApiError: " ++ message ++ ": " ++ reason ++ " (ErrorResponse \x7b status: \"Failure\", message: " ++
      Text.quoted message ++ ", reason: " ++ Text.quoted reason ++ ", code: " ++ toString code ++
      " \x7d)"
  | .client message => message

def Error.isNotFound : Error → Bool
  | .api 404 _ _ => true
  | _ => false

end Kubernetes

/-- What can go wrong with the objects that a pass reads and writes beside its own. -/
inductive StoreError where
  | alreadyExists (kind ns name : String)
  | missingToken (ns name : String)
  | kubernetes (cause : Kubernetes.Error)
  | encode (message : String)
  deriving DecidableEq, Repr

def StoreError.message : StoreError → String
  | .alreadyExists kind ns name => kind ++ " " ++ ns ++ "/" ++ name ++ " already exists"
  | .missingToken ns name =>
    "service account " ++ ns ++ "/" ++ name ++ " was issued no token"
  | .kubernetes cause => "kubernetes API error: " ++ cause.message
  | .encode message => "failed to encode request: " ++ message

end VaultOperator
