import VaultOperator.Pass.Program

/-!
Passes that failed, and when the object is seen again.
-/

namespace VaultOperator.Watch

/-- When an object is seen again. -/
inductive Action where
  | awaitChange
  | requeue (nanos : Nat)
  deriving DecidableEq, Repr

def Action.requeueSeconds (seconds : Nat) : Action :=
  .requeue (seconds * Instant.nanosPerSecond)

structure Failure where
  kind : String
  ns : String
  name : String
  cause : ReconcileError
  retryAfterSeconds : Nat
  deriving DecidableEq, Repr

namespace Failure

def message (f : Failure) : String :=
  f.kind ++ " " ++ f.ns ++ "/" ++ f.name ++ ": " ++ f.cause.message

def requeueReason : RetryPolicy → String
  | .awaitSpecChange => "validation"
  | .poll => "awaiting-input"
  | .backoff => "error-backoff"

/-- What comes after a failure. The time of the next attempt is told to people where it is one of a
row, so the calendar has to hold it. -/
def followUp (f : Failure) : Program Action := do
  Program.tally (.reconciliationError f.kind f.cause.reason)
  if f.cause.retryPolicy = .backoff ∧ f.retryAfterSeconds ≤ Instant.maxSpanSeconds then
    let now ← Program.ask .clock
    if (now.addSeconds? f.retryAfterSeconds).isNone then
      Program.abort
  Program.tally (.requeue (requeueReason f.cause.retryPolicy))
  return Action.requeueSeconds f.retryAfterSeconds

end Failure

end VaultOperator.Watch
