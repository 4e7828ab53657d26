import VaultOperator.Engine.Error
import VaultOperator.Time.Rfc3339

/-!
How passes change the status of an object, and when a pass can be left out.
-/

namespace VaultOperator.Status

def conditionOf (type : String) (ok : Bool) (reason message : String) (now : Instant) :
    Condition :=
  { type
    status := if ok then "True" else "False"
    lastTransitionTime := some now.write
    reason := some reason
    message := some message }

def validated (now : Instant) : Condition :=
  conditionOf "Validated" true "Validated" "Spec is valid" now

def invalidated (e : ReconcileError) (now : Instant) : Condition :=
  conditionOf "Validated" false e.reason e.message now

def ready (outcome : SyncOutcome) (now : Instant) : Condition :=
  conditionOf "Ready" true "Synced" ("Vault configuration in sync (" ++ outcome.name ++ ")") now

def unready (e : ReconcileError) (now : Instant) : Condition :=
  conditionOf "Ready" false e.reason e.message now

def blocked (e : ReconcileError) (now : Instant) : Condition :=
  conditionOf "Ready" false e.reason ("Deletion blocked: " ++ e.message) now

def signedCondition (state : CaState) (now : Instant) : Condition :=
  conditionOf "Signed" state.isSigned state.phase.name ("CA is " ++ state.phase.name) now

/-- The status after a pass that saw the given generation of the declaration. -/
def next (previous : Option Status) (generation : Option Int)
    (result : Except ReconcileError SyncOutcome) (recordsWriteTime : Bool)
    (now nextPass : Instant) : Status :=
  let s : Status :=
    { previous.getD {} with
      observedGeneration := generation
      lastReconcileTime := some now.write
      nextReconcileTime := some nextPass.write }
  match result with
  | .ok outcome =>
    let s := (s.setCondition (validated now)).setCondition (ready outcome now)
    { s with
      phase := some .synced
      lastVaultSecretUpdate :=
        if recordsWriteTime && outcome.wrote then some now.write else s.lastVaultSecretUpdate }
  | .error e =>
    let validity := if e.phase = .unvalidated then invalidated e now else validated now
    { (s.setCondition validity).setCondition (unready e now) with phase := some e.phase }

/-- The status of an object that could not be deleted from Vault. -/
def deleting (previous : Option Status) (e : ReconcileError) (now : Instant) : Status :=
  { (previous.getD {}).setCondition (blocked e now) with
    phase := some .deleting
    lastReconcileTime := some now.write }

/-- Passes may come this much, in nanoseconds, before they are due. -/
def toleranceNanos : Int := 2 * Instant.nanosPerSecond

/-- The nanoseconds until the next pass is due, if the declaration has been seen and it is not due
yet. -/
def skipRemaining? (generation : Option Int) (status : Option Status) (now : Instant) :
    Option Nat := do
  let status ← status
  let generation ← generation
  if status.observedGeneration = some generation then
    let due ← status.nextReconcileTime.bind Instant.read?
    let remaining := due.nanosSince now
    if toleranceNanos < remaining then some remaining.toNat else none
  else none

end VaultOperator.Status
