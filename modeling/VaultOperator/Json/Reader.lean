import VaultOperator.Json.Basic

/-!
Reading structures from JSON. A structure is an object of its fields, or the list of their values
in the order of declaration. Fields that are not known are passed over.
-/

namespace VaultOperator.Json

/-- The fields that are not read yet. -/
inductive Fields where
  | named (fields : Dict Json)
  | listed (items : List Json)

abbrev Reader := StateT Fields Option

/-- One field; `missing` is its value where it is not given. -/
def field (name : String) (missing : Option α) (read : Json → Option α) : Reader α := fun
  | .named fields =>
    match fields.get? name with
    | none => missing.map (·, .named fields)
    | some value => (read value).map (·, .named fields)
  | .listed [] => missing.map (·, .listed [])
  | .listed (value :: rest) => (read value).map (·, .listed rest)

def required (name : String) (read : Json → Option α) : Reader α :=
  field name none read

def withDefault (name : String) (default : α) (read : Json → Option α) : Reader α :=
  field name (some default) read

/-- Null stands for no value. -/
def nullable (read : Json → Option α) : Json → Option (Option α)
  | .null => some none
  | value => (read value).map some

def optional (name : String) (read : Json → Option α) : Reader (Option α) :=
  field name (some none) (nullable read)

def listOf (read : Json → Option α) : Json → Option (List α)
  | .arr items => items.mapM read
  | _ => none

def dictOf (read : Json → Option α) : Json → Option (Dict α)
  | .obj fields => (fields.mapM fun e => (read e.2).map (e.1, ·)).map Dict.ofList
  | _ => none

/-- A whole number that a given number of bits with a sign holds. -/
def signed? (bits : Nat) (j : Json) : Option Int :=
  let bound : Int := Nat.pow 2 (bits - 1)
  j.int?.filter fun i => -bound ≤ i && i < bound

/-- One of a few names, alone or as the only field of an object with no value. -/
def oneOf (ofName? : String → Option α) : Json → Option α
  | .str name => ofName? name
  | .obj [(name, .null)] => ofName? name
  | _ => none

def structure? (reader : Reader α) : Json → Option α
  | .obj fields => (reader (.named (Dict.ofList fields))).map (·.1)
  | .arr items =>
    match reader (.listed items) with
    | some (value, .listed []) => some value
    | _ => none
  | _ => none

/-- A structure whose fields stand among those of another: it cannot be a list. -/
def object? (reader : Reader α) : Json → Option α
  | .obj fields => (reader (.named (Dict.ofList fields))).map (·.1)
  | _ => none

end VaultOperator.Json
