import VaultOperator.Json.Basic
import VaultOperator.Text.Digit

/-!
Reading JSON text. A text holds one value, at most 127 containers inside each other; of fields
with one name the last counts.
-/

namespace VaultOperator.Json

/-- A number while it is read: what its digits say and how many places they are shifted by. -/
structure Scanned where
  significand : Nat
  exponent : Int

/-- Significands are kept in 64 bits. -/
def maxSignificand : Nat := UInt64.size - 1

def skipBlanks (cs : List Char) : List Char :=
  cs.dropWhile fun c => c == ' ' || c == '\n' || c == '\t' || c == '\x0d'

/-- Digits before the point. From the first on that does not fit the significand they only count
as places; the flag says whether there was one. -/
def scanWhole (n : Scanned) (full : Bool) : List Char → Scanned × Bool × List Char
  | [] => (n, full, [])
  | c :: cs =>
    match Text.digit? c with
    | none => (n, full, c :: cs)
    | some d =>
      if full ∨ maxSignificand < n.significand * 10 + d then
        scanWhole ⟨n.significand, n.exponent + 1⟩ true cs
      else scanWhole ⟨n.significand * 10 + d, n.exponent⟩ false cs

/-- Digits after the point. From the first on that does not fit the significand they are left
out. -/
def scanPlaces (n : Scanned) (full : Bool) : List Char → Scanned × List Char
  | [] => (n, [])
  | c :: cs =>
    match Text.digit? c with
    | none => (n, c :: cs)
    | some d =>
      if full ∨ maxSignificand < n.significand * 10 + d then scanPlaces n true cs
      else scanPlaces ⟨n.significand * 10 + d, n.exponent - 1⟩ false cs

def scanExponent (value : Nat) : List Char → Nat × List Char
  | [] => (value, [])
  | c :: cs =>
    match Text.digit? c with
    | none => (value, c :: cs)
    | some d => scanExponent (value * 10 + d) cs

def startsWithDigit : List Char → Bool
  | c :: _ => (Text.digit? c).isSome
  | [] => false

/-- The part of a number after its whole digits: point, places and exponent. The flag says
whether there was such a part. -/
def scanRest (n : Scanned) (cs : List Char) : Option (Scanned × Bool × List Char) := do
  let (n, hasPoint, cs) ← match cs with
    | '.' :: cs =>
      if startsWithDigit cs then
        let (n, cs) := scanPlaces n false cs
        some (n, true, cs)
      else none
    | cs => some (n, false, cs)
  let exponent (sign : Int) (cs : List Char) : Option (Scanned × Bool × List Char) :=
    if startsWithDigit cs then
      let (e, cs) := scanExponent 0 cs
      some (⟨n.significand, n.exponent + sign * e⟩, true, cs)
    else none
  match cs with
  | 'e' :: '+' :: cs | 'E' :: '+' :: cs => exponent 1 cs
  | 'e' :: '-' :: cs | 'E' :: '-' :: cs => exponent (-1) cs
  | 'e' :: cs | 'E' :: cs => exponent 1 cs
  | cs => some (n, hasPoint, cs)

/-- A number without its sign. Whole numbers that fit 64 bits are kept as they are, minus zero
and all others become doubles. -/
def scanNumber (negative : Bool) (cs : List Char) : Option (Json × List Char) := do
  let ok := match cs with
    | '0' :: cs => !startsWithDigit cs
    | cs => startsWithDigit cs
  if !ok then none
  let (whole, full, cs) := scanWhole ⟨0, 0⟩ false cs
  let (n, isFraction, cs) ← scanRest whole cs
  let signed (x : Double) : Double := if negative then x.neg else x
  if isFraction || full then
    let x ← Double.ofDecimal? n.significand n.exponent
    some (.float (signed x), cs)
  else if !negative then some (.int n.significand, cs)
  else if n.significand = 0 ∨ Int64.size / 2 < n.significand then
    let x ← Double.ofDecimal? n.significand 0
    some (.float (signed x), cs)
  else some (.int (-n.significand), cs)

def hexValue? (c : Char) : Option Nat :=
  if '0' ≤ c ∧ c ≤ '9' then some (c.toNat - '0'.toNat)
  else if 'a' ≤ c ∧ c ≤ 'f' then some (c.toNat - 'a'.toNat + 10)
  else if 'A' ≤ c ∧ c ≤ 'F' then some (c.toNat - 'A'.toNat + 10)
  else none

def hexUnit? (a b c d : Char) : Option Nat := do
  some ((((← hexValue? a) * 16 + (← hexValue? b)) * 16 + (← hexValue? c)) * 16 + (← hexValue? d))

def isHighSurrogate (u : Nat) : Bool := 0xD800 ≤ u && u < 0xDC00

def isLowSurrogate (u : Nat) : Bool := 0xDC00 ≤ u && u < 0xE000

def escaped? : Char → Option Char
  | '"' => some '"'
  | '\\' => some '\\'
  | '/' => some '/'
  | 'b' => some '\x08'
  | 'f' => some '\x0c'
  | 'n' => some '\n'
  | 'r' => some '\x0d'
  | 't' => some '\t'
  | _ => none

/-- The characters of a string up to its closing quote, in reverse before `read`. -/
def scanString (read : List Char) : List Char → Option (String × List Char)
  | [] => none
  | '"' :: cs => some (String.ofList read.reverse, cs)
  | '\\' :: 'u' :: a :: b :: c :: d :: '\\' :: 'u' :: e :: f :: g :: h :: cs => do
    let unit ← hexUnit? a b c d
    if isHighSurrogate unit then
      let low ← hexUnit? e f g h
      if isLowSurrogate low then
        let code := 0x10000 + (unit - 0xD800) * 0x400 + (low - 0xDC00)
        scanString (Char.ofNat code :: read) cs
      else none
    else if isLowSurrogate unit then none
    else scanString (Char.ofNat unit :: read) ('\\' :: 'u' :: e :: f :: g :: h :: cs)
  | '\\' :: 'u' :: a :: b :: c :: d :: cs => do
    let unit ← hexUnit? a b c d
    if isHighSurrogate unit || isLowSurrogate unit then none
    else scanString (Char.ofNat unit :: read) cs
  | '\\' :: c :: cs => (escaped? c).bind fun c => scanString (c :: read) cs
  | c :: cs => if c.toNat < 0x20 then none else scanString (c :: read) cs

/-- The value that a text starts with. `fuel` bounds the number of values and separators read,
`depth` the containers around them. -/
def parseValue (fuel depth : Nat) (cs : List Char) : Option (Json × List Char) :=
  match fuel with
  | 0 => none
  | fuel + 1 =>
    match skipBlanks cs with
    | 'n' :: 'u' :: 'l' :: 'l' :: cs => some (.null, cs)
    | 't' :: 'r' :: 'u' :: 'e' :: cs => some (.bool true, cs)
    | 'f' :: 'a' :: 'l' :: 's' :: 'e' :: cs => some (.bool false, cs)
    | '"' :: cs => (scanString [] cs).map fun (s, cs) => (.str s, cs)
    | '-' :: cs => scanNumber true cs
    | '[' :: cs =>
      match depth with
      | 0 => none
      | depth + 1 =>
        match skipBlanks cs with
        | ']' :: cs => some (.arr [], cs)
        | cs => parseItems fuel depth [] cs
    | '{' :: cs =>
      match depth with
      | 0 => none
      | depth + 1 =>
        match skipBlanks cs with
        | '}' :: cs => some (.obj [], cs)
        | cs => parseFields fuel depth ∅ cs
    | cs => scanNumber false cs
where
  /-- Items up to the closing bracket; those already read stand in reverse in `items`. -/
  parseItems (fuel depth : Nat) (items : List Json) (cs : List Char) :
      Option (Json × List Char) :=
    match fuel with
    | 0 => none
    | fuel + 1 => do
      let (item, cs) ← parseValue fuel depth cs
      match skipBlanks cs with
      | ',' :: cs => parseItems fuel depth (item :: items) cs
      | ']' :: cs => some (.arr (item :: items).reverse, cs)
      | _ => none
  parseFields (fuel depth : Nat) (fields : Dict Json) (cs : List Char) :
      Option (Json × List Char) :=
    match fuel with
    | 0 => none
    | fuel + 1 =>
      match skipBlanks cs with
      | '"' :: cs => do
        let (key, cs) ← scanString [] cs
        match skipBlanks cs with
        | ':' :: cs =>
          let (value, cs) ← parseValue fuel depth cs
          let fields := fields.insert key value
          match skipBlanks cs with
          | ',' :: cs => parseFields fuel depth fields cs
          | '}' :: cs => some (ofDict fields, cs)
          | _ => none
        | _ => none
      | _ => none

/-- The greatest number of containers inside each other. -/
def maxDepth : Nat := 127

/-- The value a text holds, or nothing if the text is no JSON. -/
def parse? (text : String) : Option Json :=
  let cs := text.toList
  match parseValue (2 * cs.length + 2) maxDepth cs with
  | some (value, rest) => if (skipBlanks rest).isEmpty then some value else none
  | none => none

end VaultOperator.Json
