import VaultOperator.Credential.Error
import VaultOperator.Status.Basic
import VaultOperator.Validation

/-!
Why a pass over an object failed, and what is done about it.
-/

namespace VaultOperator

inductive ReconcileError where
  | validation (cause : ValidationError)
  | credential (cause : Credential.Error)
  | remote (cause : Vault.Error)
  | store (cause : StoreError)
  | kubernetes (cause : Kubernetes.Error)
  /-- Somebody else has to do something first. -/
  | awaiting (message : String)
  deriving DecidableEq, Repr

inductive RetryPolicy where
  | awaitSpecChange
  | poll
  | backoff
  deriving DecidableEq, Repr

def RetryPolicy.name : RetryPolicy → String
  | .awaitSpecChange => "AwaitSpecChange"
  | .poll => "Poll"
  | .backoff => "Backoff"

namespace ReconcileError

def message : ReconcileError → String
  | validation cause => "validation failed: " ++ cause.message
  | credential cause => "credential resolution failed: " ++ cause.message
  | remote cause => "vault request failed: " ++ cause.message
  | store cause => "kubernetes store request failed: " ++ cause.message
  | kubernetes cause => "kubernetes API request failed: " ++ cause.message
  | awaiting message => "awaiting external input: " ++ message

/-- One word for the cause, shown in conditions and counters. -/
def reason : ReconcileError → String
  | validation _ => "ValidationFailed"
  | credential (.ambiguous _) => "CredentialAmbiguous"
  | credential (.vault _) => "RemoteError"
  | credential (.store _) => "KubernetesError"
  | credential _ => "CredentialNotFound"
  | remote _ => "RemoteError"
  | store _ => "KubernetesError"
  | kubernetes _ => "KubernetesError"
  | awaiting _ => "AwaitingExternalInput"

def retryPolicy : ReconcileError → RetryPolicy
  | validation _ => .awaitSpecChange
  | credential cause => if cause.isMisconfigured then .awaitSpecChange else .backoff
  | awaiting _ => .poll
  | _ => .backoff

def phase (e : ReconcileError) : Phase :=
  if e.retryPolicy = .awaitSpecChange then .unvalidated else .prepared

def isRetryable (e : ReconcileError) : Bool :=
  e.retryPolicy != .awaitSpecChange

end ReconcileError

inductive SyncOutcome where
  | created
  | updated
  | unchanged
  deriving DecidableEq, Repr

namespace SyncOutcome

def name : SyncOutcome → String
  | created => "created"
  | updated => "updated"
  | unchanged => "unchanged"

def ofName? : String → Option SyncOutcome
  | "created" => some created
  | "updated" => some updated
  | "unchanged" => some unchanged
  | _ => none

def wrote : SyncOutcome → Bool
  | unchanged => false
  | _ => true

end SyncOutcome

inductive DeleteOutcome where
  | deleted
  | alreadyAbsent
  | skipped
  deriving DecidableEq, Repr

def DeleteOutcome.name : DeleteOutcome → String
  | .deleted => "Deleted"
  | .alreadyAbsent => "AlreadyAbsent"
  | .skipped => "Skipped"

end VaultOperator
