import VaultOperator.Json.Reader
import VaultOperator.Pki.Basic

/-!
How far a certificate authority has come.
-/

namespace VaultOperator

def CaType.toJson (type : CaType) : Json :=
  .str type.name

def CaType.ofJson? : Json → Option CaType :=
  Json.oneOf CaType.ofName?

def KeyMode.toJson (mode : KeyMode) : Json :=
  .str mode.name

def KeyMode.ofJson? : Json → Option KeyMode :=
  Json.oneOf KeyMode.ofName?

/-- `generated` and `exported` both say that there is a key; after `exported` its private half was
handed out. -/
inductive CaState where
  | notGenerated
  | generated
  | exported
  | awaitingSignature (isExported : Bool)
  | signed (isExported : Bool)
  deriving DecidableEq, Repr

instance : Inhabited CaState := ⟨.notGenerated⟩

namespace CaState

def isGenerated : CaState → Bool
  | .notGenerated => false
  | _ => true

def isExported : CaState → Bool
  | .exported | .awaitingSignature true | .signed true => true
  | _ => false

def isSigned : CaState → Bool
  | .signed _ => true
  | _ => false

def ofGeneration (isExported : Bool) : CaState :=
  if isExported then .exported else .generated

def awaitSignature (s : CaState) : CaState :=
  .awaitingSignature s.isExported

def sign (s : CaState) : CaState :=
  .signed s.isExported

/-- The name of a state without its flag. -/
inductive Phase where
  | notGenerated
  | generated
  | exported
  | awaitingSignature
  | signed
  deriving DecidableEq, Repr

def Phase.name : Phase → String
  | .notGenerated => "NotGenerated"
  | .generated => "Generated"
  | .exported => "Exported"
  | .awaitingSignature => "AwaitingSignature"
  | .signed => "Signed"

def Phase.ofName? : String → Option Phase
  | "NotGenerated" => some .notGenerated
  | "Generated" => some .generated
  | "Exported" => some .exported
  | "AwaitingSignature" => some .awaitingSignature
  | "Signed" => some .signed
  | _ => none

def phase : CaState → Phase
  | .notGenerated => .notGenerated
  | .generated => .generated
  | .exported => .exported
  | .awaitingSignature _ => .awaitingSignature
  | .signed _ => .signed

/-- The state that a phase and a flag stand for. Where they contradict each other a key that is
exported in either is, and one that was not made is not. -/
def ofRecord : Phase → Bool → CaState
  | .notGenerated, _ => .notGenerated
  | .generated, isExported => ofGeneration isExported
  | .exported, _ => .exported
  | .awaitingSignature, isExported => .awaitingSignature isExported
  | .signed, isExported => .signed isExported

def toJson (s : CaState) : Json :=
  Json.record [("phase", .str s.phase.name), ("exported", .bool s.isExported)]

def reader : Json.Reader CaState := do
  let phase ← Json.withDefault "phase" .notGenerated (Json.oneOf Phase.ofName?)
  let isExported ← Json.withDefault "exported" false Json.bool?
  return ofRecord phase isExported

def ofJson? : Json → Option CaState :=
  Json.structure? reader

end CaState

/-- What is recorded of an authority between passes. -/
structure CaProgress where
  state : CaState := .notGenerated
  observedType : Option CaType := none
  observedKeyMode : Option KeyMode := none
  deriving DecidableEq, Repr

end VaultOperator
