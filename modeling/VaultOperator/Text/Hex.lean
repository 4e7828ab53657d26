/-!
Bytes as hexadecimal digits, two for each.
-/

namespace VaultOperator.Text

def hexDigit (n : Nat) : Char :=
  if n < 10 then Char.ofNat ('0'.toNat + n) else Char.ofNat ('a'.toNat + n - 10)

def hexValue? (c : Char) : Option Nat :=
  if '0' ≤ c ∧ c ≤ '9' then some (c.toNat - '0'.toNat)
  else if 'a' ≤ c ∧ c ≤ 'f' then some (c.toNat - 'a'.toNat + 10)
  else none

def hexOf (b : UInt8) : List Char :=
  [hexDigit (b.toNat / 16), hexDigit (b.toNat % 16)]

def decodeHexChars : List Char → Option (List UInt8)
  | [] => some []
  | [_] => none
  | a :: b :: rest => do
    let byte := (← hexValue? a) * 16 + (← hexValue? b)
    some (UInt8.ofNat byte :: (← decodeHexChars rest))

def encodeHex (bytes : ByteArray) : String :=
  String.ofList (bytes.data.toList.flatMap hexOf)

def decodeHex? (text : String) : Option ByteArray :=
  (decodeHexChars text.toList).map fun bytes => ⟨bytes.toArray⟩

end VaultOperator.Text
