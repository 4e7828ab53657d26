import VaultOperator.Decimal.Shortest
import VaultOperator.Dict

/-!
JSON values. Whole numbers and doubles are different values even where they are equal as numbers.
-/

namespace VaultOperator

inductive Json where
  | null
  | bool (value : Bool)
  | int (value : Int)
  | float (value : Double)
  | str (value : String)
  | arr (items : List Json)
  | obj (fields : List (String × Json))

instance : Inhabited Json := ⟨.null⟩

/-- The top level of what is read from and written to Vault. -/
abbrev Payload := Dict Json

namespace Json

def ofDict (d : Dict Json) : Json :=
  .obj d.entries

def emptyObject : Json :=
  .obj []

def ofOption (f : α → Json) : Option α → Json
  | none => .null
  | some a => f a

def ofStrings (l : List String) : Json :=
  .arr (l.map .str)

/-- A list of texts; none for an empty one. -/
def texts? (l : List String) : Option Json :=
  if l.isEmpty then none else some (ofStrings l)

/-- Texts as one, with commas between them; none for an empty list. -/
def joined? (l : List String) : Option Json :=
  if l.isEmpty then none else some (.str (",".intercalate l))

def record (l : List (String × Json)) : Json :=
  ofDict (Dict.ofList l)

def fields? : Json → Option (Dict Json)
  | .obj fields => some (Dict.ofList fields)
  | _ => none

def items? : Json → Option (List Json)
  | .arr items => some items
  | _ => none

def str? : Json → Option String
  | .str s => some s
  | _ => none

def bool? : Json → Option Bool
  | .bool b => some b
  | _ => none

def int? : Json → Option Int
  | .int i => some i
  | _ => none

def isNull : Json → Bool
  | .null => true
  | _ => false

def get? (j : Json) (key : String) : Option Json :=
  j.fields?.bind (·.get? key)

def numberText? : Json → Option String
  | .int i => some (toString i)
  | .float x => some x.text
  | _ => none

mutual

/-- Equal as JSON values. A whole number never equals a double; the two zeros among the doubles
are equal. -/
def same : Json → Json → Bool
  | .null, .null => true
  | .bool a, .bool b => a == b
  | .int a, .int b => a == b
  | .float a, .float b => a.same b
  | .str a, .str b => a == b
  | .arr a, .arr b => sameItems a b
  | .obj a, .obj b => sameFields a b
  | _, _ => false

def sameItems : List Json → List Json → Bool
  | [], [] => true
  | a :: as, b :: bs => same a b && sameItems as bs
  | _, _ => false

def sameFields : List (String × Json) → List (String × Json) → Bool
  | [], [] => true
  | (k, a) :: as, (l, b) :: bs => k == l && same a b && sameFields as bs
  | _, _ => false

end

end Json

namespace Dict

/-- The text under a key; nothing if another kind of value is there. -/
def text? (p : Payload) (key : String) : Option String :=
  (p.get? key).bind Json.str?

def same (a b : Payload) : Bool :=
  Json.sameFields a.entries b.entries

def ofFields (fields : List (String × Option Json)) : Payload :=
  ofList (fields.filterMap fun e => e.2.map (e.1, ·))

end Dict

end VaultOperator
