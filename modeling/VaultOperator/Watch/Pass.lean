import VaultOperator.Backoff
import VaultOperator.Finalizer
import VaultOperator.Object
import VaultOperator.Watch.Failure

/-!
What is done when an object is seen. One that is being deleted is removed from Vault before its
finalizer is; one without the finalizer gets it and waits to be seen again; all others get a pass
unless their last one is still good.
-/

namespace VaultOperator.Watch

/-- A program that may fail, and that keeps the failures counted so far. -/
abbrev Watching := ExceptT Failure (StateT Backoff.Table Program)

namespace Watching

def lift (p : Program α) : Watching α :=
  ExceptT.mk fun table => p.bind fun a => .done (.ok a, table)

def nextBackoff (key : String) : Watching Nat :=
  ExceptT.mk fun table =>
    let (seconds, table) := table.fail key
    .done (.ok seconds.toNat, table)

def resetBackoff (key : String) : Watching Unit :=
  ExceptT.mk fun table => .done (.ok (), table.reset key)

end Watching

def key (o : Object) : String :=
  Backoff.resourceKey o.kind.name o.metadata.nsAny o.metadata.nameAny

def fail (o : Object) (cause : ReconcileError) (seconds : Nat) : Watching α :=
  throw
    { kind := o.kind.name
      ns := o.metadata.nsAny
      name := o.metadata.nameAny
      cause
      retryAfterSeconds := seconds }

def failureDelay (c : Config) (o : Object) (e : ReconcileError) : Watching Nat :=
  match e.retryPolicy with
  | .awaitSpecChange => return c.validationSeconds.toNat
  | .poll => return c.awaitingInputSeconds.toNat
  | .backoff => Watching.nextBackoff (key o)

def mustSucceed (o : Object) (answer : Except Kubernetes.Error Unit) : Watching Unit := do
  match answer with
  | .ok () => return ()
  | .error e => fail o (.kubernetes e) (← Watching.nextBackoff (key o))

def addFinalizer (o : Object) : Program (Except Kubernetes.Error Unit) :=
  match withFinalizer o.metadata.finalizers with
  | some finalizers => .cluster (.patchFinalizers o.ref finalizers)
  | none => .done (.ok ())

/-- Takes the finalizer off. It is fine for the object to be gone. -/
def removeFinalizer (o : Object) : Program (Except Kubernetes.Error Unit) :=
  match withoutFinalizer o.metadata.finalizers with
  | none => .done (.ok ())
  | some finalizers => do
    match ← Program.cluster (.patchFinalizers o.ref finalizers) with
    | .ok () => return .ok ()
    | .error e => return if e.isNotFound then .ok () else .error e

/-- Removes an object from Vault and lets it go. Where it cannot be removed its status says why. -/
def cleanUp (c : Config) (settings : Engine.Settings) (o : Object) : Watching Action := do
  match ← Watching.lift (o.delete settings).run with
  | .ok _ =>
    mustSucceed o (← Watching.lift (removeFinalizer o))
    Watching.resetBackoff (key o)
    return .awaitChange
  | .error e =>
    let now ← Watching.lift (.ask .clock)
    let _ ← Watching.lift
      (.cluster (.patchStatus o.ref (Status.deleting o.status e now).toJson))
    fail o e (← failureDelay c o e)

/-- The time after a delay; the present time where there is no telling how long it is. -/
def scheduleAfter (seconds : Nat) : Program Instant := do
  let now ← Program.ask .clock
  if Instant.maxSpanSeconds < seconds then return now
  match now.addSeconds? seconds with
  | some later => return later
  | none => .abort

def syncAndRecord (c : Config) (settings : Engine.Settings) (o : Object) : Watching Action := do
  let kind := o.kind.name
  Watching.lift (.tally (.reconciliation kind))
  let outcome ← Watching.lift (o.sync settings)
  let delay ← match outcome.result with
    | .ok _ => pure c.resyncSeconds.toNat
    | .error e => failureDelay c o e
  let now ← Watching.lift (.ask .clock)
  let nextPass ← Watching.lift (scheduleAfter delay)
  let patched ← Watching.lift
    (.cluster (.patchStatus o.ref (o.statusAfter outcome now nextPass)))
  Watching.lift (.tally (.reconciliationDuration kind))
  match outcome.result with
  | .ok sync =>
    Watching.lift (.tally (.syncOutcome kind sync.name))
    Watching.resetBackoff (key o)
    mustSucceed o patched
    Watching.lift (.tally (.requeue "resync"))
    return .requeueSeconds delay
  | .error e =>
    if e.retryPolicy = .poll then
      Watching.lift (.tally (.requeue "awaiting-input"))
      return .requeueSeconds delay
    else fail o e delay

def run (c : Config) (settings : Engine.Settings) (o : Object) : Watching Action := do
  if o.metadata.deleting then
    if o.metadata.hasFinalizer then cleanUp c settings o else return .awaitChange
  else if o.metadata.hasFinalizer then
    let now ← Watching.lift (.ask .clock)
    match Status.skipRemaining? o.metadata.generation o.status now with
    | some nanos => return .requeue nanos
    | none => syncAndRecord c settings o
  else
    mustSucceed o (← Watching.lift (addFinalizer o))
    return .awaitChange

/-- The pass over an object from the failures counted so far, with the settings of the operator. -/
def reconcile (c : Config) (o : Object) (table : Backoff.Table) :
    Program (Except Failure Action × Backoff.Table) :=
  (run c { defaults := c.vault, tokenTtlSeconds := c.tokenTtlSeconds } o).run table

end VaultOperator.Watch
