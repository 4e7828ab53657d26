/-!
Decimal digits and the reading of whole numbers in a given range.
-/

namespace VaultOperator.Text

/-- Code points of the zeros of the Unicode decimal digits (category Nd); each starts a run of
ten. -/
def decimalZeros : List Nat :=
  [0x0030, 0x0660, 0x06f0, 0x07c0, 0x0966, 0x09e6, 0x0a66, 0x0ae6, 0x0b66, 0x0be6, 0x0c66, 0x0ce6,
   0x0d66, 0x0de6, 0x0e50, 0x0ed0, 0x0f20, 0x1040, 0x1090, 0x17e0, 0x1810, 0x1946, 0x19d0, 0x1a80,
   0x1a90, 0x1b50, 0x1bb0, 0x1c40, 0x1c50, 0xa620, 0xa8d0, 0xa900, 0xa9d0, 0xa9f0, 0xaa50, 0xabf0,
   0xff10, 0x104a0, 0x10d30, 0x10d40, 0x11066, 0x110f0, 0x11136, 0x111d0, 0x112f0, 0x11450,
   0x114d0, 0x11650, 0x116c0, 0x116d0, 0x116da, 0x11730, 0x118e0, 0x11950, 0x11bf0, 0x11c50,
   0x11d50, 0x11da0, 0x11f50, 0x16a60, 0x16ac0, 0x16b50, 0x1ccf0, 0x1d7ce, 0x1d7d8, 0x1d7e2,
   0x1d7ec, 0x1d7f6, 0x1e140, 0x1e2f0, 0x1e4f0, 0x1e5f1, 0x1e950, 0x1fbf0]

def isDecimalDigit (c : Char) : Bool :=
  decimalZeros.any fun first => first ≤ c.toNat && c.toNat < first + 10

def digit? (c : Char) : Option Nat :=
  if '0' ≤ c ∧ c ≤ '9' then some (c.toNat - '0'.toNat) else none

/-- Why a text is no number of the wanted range. -/
inductive NumberError where
  | empty
  | invalidDigit
  | tooLarge
  | tooSmall
  deriving DecidableEq, Repr

def NumberError.message : NumberError → String
  | .empty => "cannot parse integer from empty string"
  | .invalidDigit => "invalid digit found in string"
  | .tooLarge => "number too large to fit in target type"
  | .tooSmall => "number too small to fit in target type"

/-- Reads digits from the left on to `value`, stopping at the first character that is no ASCII
digit or that takes the number past `limit`. -/
def readDigits (limit : Nat) (past : NumberError) (value : Nat) :
    List Char → Except NumberError Nat
  | [] => .ok value
  | c :: cs =>
    match digit? c with
    | none => .error .invalidDigit
    | some d =>
      if value * 10 + d ≤ limit then readDigits limit past (value * 10 + d) cs else .error past

/-- A number from zero to `high`, with an optional plus sign. -/
def readUnsigned (high : Nat) : List Char → Except NumberError Nat
  | [] => .error .empty
  | '+' :: c :: cs => readDigits high .tooLarge 0 (c :: cs)
  | cs => readDigits high .tooLarge 0 cs

/-- A number from `-low` to `high`, with an optional sign. -/
def readSigned (low high : Nat) : List Char → Except NumberError Int
  | [] => .error .empty
  | '-' :: c :: cs => (readDigits low .tooSmall 0 (c :: cs)).map fun n => -(n : Int)
  | '+' :: c :: cs => (readDigits high .tooLarge 0 (c :: cs)).map fun n => (n : Int)
  | cs => (readDigits high .tooLarge 0 cs).map fun n => (n : Int)

end VaultOperator.Text
