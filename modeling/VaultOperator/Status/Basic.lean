import VaultOperator.Json.Reader
import VaultOperator.Pki.State

/-!
What is shown to people of an object: its conditions, and when it was looked at.
-/

namespace VaultOperator

structure Condition where
  type : String
  status : String
  lastTransitionTime : Option String := none
  reason : Option String := none
  message : Option String := none
  deriving DecidableEq, Repr

namespace Condition

def isTrue (c : Condition) : Bool :=
  c.status == "True"

def toJson (c : Condition) : Json :=
  Json.record
    [("type", .str c.type), ("status", .str c.status),
      ("lastTransitionTime", Json.ofOption .str c.lastTransitionTime),
      ("reason", Json.ofOption .str c.reason), ("message", Json.ofOption .str c.message)]

def reader : Json.Reader Condition := do
  return {
    type := ← Json.required "type" Json.str?
    status := ← Json.required "status" Json.str?
    lastTransitionTime := ← Json.optional "lastTransitionTime" Json.str?
    reason := ← Json.optional "reason" Json.str?
    message := ← Json.optional "message" Json.str? }

def ofJson? : Json → Option Condition :=
  Json.structure? reader

end Condition

/-- Where the last pass over an object ended. -/
inductive Phase where
  | unvalidated
  | prepared
  | synced
  | deleting
  deriving DecidableEq, Repr

def Phase.name : Phase → String
  | .unvalidated => "Unvalidated"
  | .prepared => "Prepared"
  | .synced => "Synced"
  | .deleting => "Deleting"

def Phase.ofName? : String → Option Phase
  | "Unvalidated" => some .unvalidated
  | "Prepared" => some .prepared
  | "Synced" => some .synced
  | "Deleting" => some .deleting
  | _ => none

structure Status where
  conditions : List Condition := []
  phase : Option Phase := none
  observedGeneration : Option Int := none
  lastReconcileTime : Option String := none
  /-- Before this time nothing is done unless the declaration changes. -/
  nextReconcileTime : Option String := none
  lastVaultSecretUpdate : Option String := none
  deriving DecidableEq, Repr

namespace Status

def condition? (s : Status) (type : String) : Option Condition :=
  s.conditions.find? (·.type == type)

/-- Puts a condition in the place of the first one of its type, or at the end. The time stays as
long as the status does. -/
def placeCondition (new : Condition) : List Condition → List Condition
  | [] => [new]
  | old :: rest =>
    if old.type = new.type then
      (if old.status = new.status then
        { new with lastTransitionTime := old.lastTransitionTime }
      else new) :: rest
    else old :: placeCondition new rest

def setCondition (s : Status) (c : Condition) : Status :=
  { s with conditions := placeCondition c s.conditions }

def isReady (s : Status) : Bool :=
  (s.condition? "Ready").any Condition.isTrue

def fields (s : Status) : List (String × Json) :=
  [("conditions", .arr (s.conditions.map Condition.toJson)),
    ("phase", Json.ofOption (.str ·.name) s.phase),
    ("observedGeneration", Json.ofOption .int s.observedGeneration),
    ("lastReconcileTime", Json.ofOption .str s.lastReconcileTime),
    ("nextReconcileTime", Json.ofOption .str s.nextReconcileTime)] ++
  (s.lastVaultSecretUpdate.map fun t => ("lastVaultSecretUpdate", .str t)).toList

/-- The time of a secret's last update is left out where there is none. -/
def toJson (s : Status) : Json :=
  Json.record s.fields

def reader : Json.Reader Status := do
  return {
    conditions := ← Json.withDefault "conditions" [] (Json.listOf Condition.ofJson?)
    phase := ← Json.optional "phase" (Json.oneOf Phase.ofName?)
    observedGeneration := ← Json.optional "observedGeneration" (Json.signed? 64)
    lastReconcileTime := ← Json.optional "lastReconcileTime" Json.str?
    nextReconcileTime := ← Json.optional "nextReconcileTime" Json.str?
    lastVaultSecretUpdate := ← Json.optional "lastVaultSecretUpdate" Json.str? }

def ofJson? : Json → Option Status :=
  Json.structure? reader

end Status

/-- The status of a certificate authority: the common one, and its progress. -/
structure PkiStatus where
  common : Status := {}
  progress : CaProgress := {}
  deriving DecidableEq, Repr

namespace PkiStatus

def toJson (s : PkiStatus) : Json :=
  Json.record (s.common.fields ++
    [("caState", s.progress.state.toJson),
      ("observedType", Json.ofOption CaType.toJson s.progress.observedType),
      ("observedPrivateKeyType", Json.ofOption KeyMode.toJson s.progress.observedKeyMode)])

def reader : Json.Reader PkiStatus := do
  let common ← Status.reader
  let state ← Json.withDefault "caState" .notGenerated CaState.ofJson?
  let observedType ← Json.optional "observedType" CaType.ofJson?
  let observedKeyMode ← Json.optional "observedPrivateKeyType" KeyMode.ofJson?
  return ⟨common, ⟨state, observedType, observedKeyMode⟩⟩

def ofJson? : Json → Option PkiStatus :=
  Json.object? reader

end PkiStatus

end VaultOperator
