import VaultOperator.Text.Blank
import VaultOperator.Text.Digit

/-!
Durations as `30s`, `5m`, `1h30m` or `7d`: one or more numbers, each with its unit.
-/

namespace VaultOperator.Duration

inductive Unit where
  | second
  | minute
  | hour
  | day
  deriving DecidableEq, Repr

def Unit.seconds : Unit → Nat
  | .second => 1
  | .minute => 60
  | .hour => 3600
  | .day => 86400

/-- No letter but the ASCII capitals has one of these as its small form. -/
def Unit.ofChar? : Char → Option Unit
  | 's' | 'S' => some .second
  | 'm' | 'M' => some .minute
  | 'h' | 'H' => some .hour
  | 'd' | 'D' => some .day
  | _ => none

/-- A number as it is written, with its unit. -/
structure Part where
  digits : List Char
  unit : Unit
  deriving DecidableEq, Repr

/-- Every error shows the text it is about. -/
inductive Error where
  | empty
  | format (text : String)
  | number (text : String) (cause : Text.NumberError)
  | overflow (text : String)
  | zero (text : String)
  deriving DecidableEq, Repr

def Error.message : Error → String
  | .empty => "Duration string cannot be empty"
  | .format text =>
    "Invalid duration format '" ++ text ++
      "'. Expected <number><unit>[...] (e.g., '30s', '1h30m', '7d')"
  | .number text cause => "Invalid duration number in '" ++ text ++ "': " ++ cause.message
  | .overflow text => "Duration '" ++ text ++ "' overflows"
  | .zero text => "Duration must be greater than 0, got '" ++ text ++ "'"

/-- Cuts a text into parts; `digits` are those read since the last unit. Digits of all scripts
are taken here. -/
def parts? (digits : List Char) : List Char → Option (List Part)
  | [] => if digits.isEmpty then some [] else none
  | c :: cs =>
    if Text.isDecimalDigit c then parts? (digits ++ [c]) cs
    else
      match Unit.ofChar? c with
      | some unit => if digits.isEmpty then none else (parts? [] cs).map (⟨digits, unit⟩ :: ·)
      | none => none

def maxSeconds : Nat := UInt64.size - 1

/-- Adds the parts to `total` from the left, each number, product and sum in range. -/
def sum (text : String) (total : Nat) : List Part → Except Error Nat
  | [] => .ok total
  | part :: rest =>
    match Text.readUnsigned maxSeconds part.digits with
    | .error cause => .error (.number text cause)
    | .ok n =>
      let total := total + n * part.unit.seconds
      if total ≤ maxSeconds then sum text total rest else .error (.overflow text)

/-- The seconds of a duration, at least one. -/
def parse (raw : String) : Except Error Nat :=
  let text := Text.trim raw
  if text.isEmpty then .error .empty
  else
    match parts? [] text.toList with
    | none => .error (.format text)
    | some parts =>
      match sum text 0 parts with
      | .error e => .error e
      | .ok 0 => .error (.zero text)
      | .ok seconds => .ok seconds

end VaultOperator.Duration
