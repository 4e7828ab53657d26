import VaultOperator.RandomSecret.Endpoint
import VaultOperator.Resource.VaultObject

/-!
Generated secrets. A value that is there is left alone until its refresh period is over, and Vault
is asked for a new one only when it is about to be written.
-/

namespace VaultOperator.RandomSecret

/-- The period since the last update is over at `now`. Without a period that never is; without a
last update it always is. None where the end of the period lies past the calendar. -/
def refreshDue? (period? lastUpdate? : Option String) (now : Instant) : Option Bool :=
  match period?.map Duration.parse with
  | some (.ok period) =>
    match lastUpdate?.bind Instant.read? with
    | none => some true
    | some last =>
      if Instant.maxSpanSeconds < period then some false
      else (last.addSeconds? period).map fun due => due.le now
  | _ => some false

def lastUpdate? (r : RandomSecret) : Option String :=
  r.status.bind (·.lastVaultSecretUpdate)

def payload (r : RandomSecret) (v : InternalValues) : Payload :=
  match v.generated with
  | some value => (∅ : Payload).insert r.spec.secretKey (.str value)
  | none => ∅

def createRequest (r : RandomSecret) (v : InternalValues) : WriteRequest :=
  ⟨readPath r, if r.spec.kvV2 then Vault.wrapKv (payload r v) else payload r v⟩

/-- Vault holds a value that is not empty. -/
def isPresent (r : RandomSecret) (observed : Payload) : Bool :=
  ((Vault.unwrapKv observed).text? r.spec.secretKey).any fun value => !value.isEmpty

def isEquivalent (r : RandomSecret) (observed : Payload) : Program Bool :=
  if isPresent r observed then do
    let now ← Program.ask .clock
    match refreshDue? r.spec.refreshPeriod (lastUpdate? r) now with
    | some due => return !due
    | none => .abort
  else return false

def validate (r : RandomSecret) : Except ValidationError Unit := do
  Validation.requirePath (vaultPath r)
  Validation.requireNonEmpty "spec.path" r.spec.path
  Validation.requireNonEmpty "spec.secretKey" r.spec.secretKey
  Validation.requireNonEmpty "spec.secretFormat.passwordPolicyName" r.spec.passwordPolicy
  Validation.optionalDuration "spec.refreshPeriod" r.spec.refreshPeriod

/-- Has Vault make a value. -/
def prepareWrite (r : RandomSecret) (session : Vault.Session) (v : InternalValues) :
    Pass InternalValues := do
  let answer ← Pass.read session (Path.passwordPolicyGenerate r.spec.passwordPolicy)
  match answer.bind (·.text? "password") with
  | some value => return { v with generated := some value }
  | none =>
    throw (.awaiting ("password policy '" ++ r.spec.passwordPolicy ++ "' returned no password"))

def toVaultObject (r : RandomSecret) : VaultObject :=
  { ns := r.metadata.nsAny
    access := r.spec.access
    vaultPath := vaultPath r
    payload := payload r
    readPath := readPath r
    deletePath := deletePath r
    createRequest := createRequest r
    normalize := Vault.unwrapKv
    isEquivalent := fun _ observed => isEquivalent r observed
    validate := validate r
    recordsWriteTime := true
    prepareWrite := prepareWrite r }

end VaultOperator.RandomSecret
