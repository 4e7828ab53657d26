import VaultOperator.Engine.Login
import VaultOperator.Resource.VaultObject

/-!
One pass over an object: it is checked without asking anybody, then looked up in Vault, and written
only if something else is found there than is desired. Nothing is asked after a write.
-/

namespace VaultOperator.Engine

def write (session : Vault.Session) (object : VaultObject) (v : InternalValues)
    (request : InternalValues → WriteRequest) : Pass Unit := do
  let v ← object.prepareWrite session v
  let request := request v
  let _ ← Pass.write session request.path request.body

def reconcile (s : Settings) (object : VaultObject) : Pass SyncOutcome := do
  Pass.check object.validate
  let session ← login s object.ns object.access
  let v ← object.prepare session
  match ← object.readObserved session with
  | none =>
    write session object v object.createRequest
    return .created
  | some observed =>
    if ← ExceptT.lift (object.isEquivalent v observed) then return .unchanged
    write session object v object.updateRequest
    return .updated

/-- Brings one path of Vault to a desired payload. -/
def syncPath (session : Vault.Session) (path : String) (desired : Payload)
    (comparison : Comparison) : Pass SyncOutcome := do
  match ← Pass.read session path with
  | none =>
    let _ ← Pass.write session path desired
    return .created
  | some observed =>
    if comparison.isEquivalent desired observed [] then return .unchanged
    let _ ← Pass.write session path desired
    return .updated

/-- What a deletion comes to: it is fine for nothing to be there. -/
def deleteOutcome : Except Vault.Error Unit → Except ReconcileError DeleteOutcome
  | .ok () => .ok .deleted
  | .error e => if e.isNotFound then .ok .alreadyAbsent else .error (.remote e)

def delete (s : Settings) (object : VaultObject) : Pass DeleteOutcome := do
  if !object.isDeletable then return .skipped
  let session ← login s object.ns object.access
  ExceptT.mk ((Program.vault (.delete session object.deletePath)).bind fun answer =>
    .done (deleteOutcome answer))

end VaultOperator.Engine
