/-!
What distinguishes certificate authorities: their type and where their key is kept.
-/

namespace VaultOperator

inductive CaType where
  | root
  | intermediate
  deriving DecidableEq, Repr

def CaType.name : CaType → String
  | .root => "root"
  | .intermediate => "intermediate"

def CaType.ofName? : String → Option CaType
  | "root" => some .root
  | "intermediate" => some .intermediate
  | _ => none

/-- An internal key never leaves Vault; an exported one is handed out when it is made. -/
inductive KeyMode where
  | internal
  | exported
  deriving DecidableEq, Repr

def KeyMode.name : KeyMode → String
  | .internal => "internal"
  | .exported => "exported"

def KeyMode.ofName? : String → Option KeyMode
  | "internal" => some .internal
  | "exported" => some .exported
  | _ => none

end VaultOperator
