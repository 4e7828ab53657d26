/-!
The endpoints that the cluster watches the operator through: its metrics, that it lives, and whether
it is ready.
-/

namespace VaultOperator

inductive Probe where
  | metrics
  | alive
  | ready
  deriving DecidableEq, Repr

namespace Probe

def ofPath? : String → Option Probe
  | "/metrics" => some metrics
  | "/healthz" => some alive
  | "/readyz" => some ready
  | _ => none

/-- The HTTP status of a probe. The operator is ready from the time it serves until it stops. -/
def status (isReady : Bool) : Probe → Nat
  | ready => if isReady then 200 else 503
  | _ => 200

/-- The path of a request target without its query and fragment. -/
def pathOf (target : String) : String :=
  String.ofList (target.toList.takeWhile fun c => c ≠ '?' ∧ c ≠ '#')

/-- The HTTP status of a request. Probes are only looked at. -/
def respond (isReady : Bool) (method target : String) : Nat :=
  match ofPath? (pathOf target) with
  | none => 404
  | some probe => if method = "GET" ∨ method = "HEAD" then probe.status isReady else 405

end Probe

end VaultOperator
