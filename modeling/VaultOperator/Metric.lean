import VaultOperator.Dict

/-!
The counters of the operator, under the names they are scraped by.
-/

namespace VaultOperator

inductive Metric where
  | reconciliation (kind : String)
  | reconciliationError (kind reason : String)
  | reconciliationDuration (kind : String)
  | syncOutcome (kind outcome : String)
  /-- A request to Vault; its duration is counted with it. -/
  | vaultOperation (operation : String)
  | vaultOperationError (operation error : String)
  | credentialResolution (source : String)
  | pkiTransition (phase : String)
  | requeue (reason : String)
  deriving DecidableEq, Repr

namespace Metric

/-- A counter with its labels, which stand in the order of their names. -/
def series (name : String) (labels : List (String × String)) : String :=
  let texts := labels.map fun (label, value) => label ++ "=\"" ++ value ++ "\""
  "vault_config_" ++ name ++ "\x7b" ++ ",".intercalate texts ++ "\x7d"

def counters : Metric → List String
  | reconciliation kind => [series "reconciliations_total" [("kind", kind)]]
  | reconciliationError kind reason =>
    [series "reconciliation_errors_total" [("kind", kind), ("reason", reason)]]
  | reconciliationDuration kind =>
    [series "reconciliation_duration_seconds_count" [("kind", kind)]]
  | syncOutcome kind outcome =>
    [series "sync_outcomes_total" [("kind", kind), ("outcome", outcome)]]
  | vaultOperation operation =>
    [series "vault_operations_total" [("operation", operation)],
      series "vault_operation_duration_seconds_count" [("operation", operation)]]
  | vaultOperationError operation error =>
    [series "vault_operation_errors_total" [("error", error), ("operation", operation)]]
  | credentialResolution source =>
    [series "credential_resolutions_total" [("source", source)]]
  | pkiTransition phase => [series "pki_transitions_total" [("phase", phase)]]
  | requeue reason => [series "requeues_total" [("reason", reason)]]

def totals (metrics : List Metric) : Dict Nat :=
  (metrics.flatMap counters).foldl (fun d c => d.insert c ((d.get? c).getD 0 + 1)) ∅

end Metric

end VaultOperator
