/-!
Bytes as text. A faulty byte sequence is either refused or replaced by U+FFFD.
-/

namespace VaultOperator.Text

def isContinuation (b : UInt8) : Bool :=
  0x80 ≤ b && b ≤ 0xBF

/-- The bounds of the second byte after a lead byte of three. -/
def secondOfThree (lead second : UInt8) : Bool :=
  if lead = 0xE0 then 0xA0 ≤ second && second ≤ 0xBF
  else if lead = 0xED then 0x80 ≤ second && second ≤ 0x9F
  else isContinuation second

/-- The bounds of the second byte after a lead byte of four. -/
def secondOfFour (lead second : UInt8) : Bool :=
  if lead = 0xF0 then 0x90 ≤ second && second ≤ 0xBF
  else if lead = 0xF4 then 0x80 ≤ second && second ≤ 0x8F
  else isContinuation second

def replacement : Char := '\ufffd'

def payloadBits (b : UInt8) : Nat :=
  b.toNat % 64

/-- Every longest start of a character that does not go on as it has to is replaced. -/
def decodeLossyBytes : List UInt8 → List Char
  | [] => []
  | a :: rest =>
    if a < 0x80 then Char.ofNat a.toNat :: decodeLossyBytes rest
    else if 0xC2 ≤ a ∧ a ≤ 0xDF then
      match rest with
      | b :: rest' =>
        if isContinuation b then
          Char.ofNat (a.toNat % 32 * 64 + payloadBits b) :: decodeLossyBytes rest'
        else replacement :: decodeLossyBytes (b :: rest')
      | [] => [replacement]
    else if 0xE0 ≤ a ∧ a ≤ 0xEF then
      match rest with
      | b :: c :: rest' =>
        if secondOfThree a b then
          if isContinuation c then
            Char.ofNat ((a.toNat % 16 * 64 + payloadBits b) * 64 + payloadBits c) ::
              decodeLossyBytes rest'
          else replacement :: decodeLossyBytes (c :: rest')
        else replacement :: decodeLossyBytes (b :: c :: rest')
      | [b] => if secondOfThree a b then [replacement] else replacement :: decodeLossyBytes [b]
      | [] => [replacement]
    else if 0xF0 ≤ a ∧ a ≤ 0xF4 then
      match rest with
      | b :: c :: d :: rest' =>
        if secondOfFour a b then
          if isContinuation c then
            if isContinuation d then
              Char.ofNat
                  (((a.toNat % 8 * 64 + payloadBits b) * 64 + payloadBits c) * 64 +
                    payloadBits d) ::
                decodeLossyBytes rest'
            else replacement :: decodeLossyBytes (d :: rest')
          else replacement :: decodeLossyBytes (c :: d :: rest')
        else replacement :: decodeLossyBytes (b :: c :: d :: rest')
      | [b, c] =>
        if secondOfFour a b then
          if isContinuation c then [replacement] else replacement :: decodeLossyBytes [c]
        else replacement :: decodeLossyBytes [b, c]
      | [b] => if secondOfFour a b then [replacement] else replacement :: decodeLossyBytes [b]
      | [] => [replacement]
    else replacement :: decodeLossyBytes rest

def decodeLossy (bytes : ByteArray) : String :=
  String.ofList (decodeLossyBytes bytes.data.toList)

/-- The text that the bytes are the UTF-8 form of. -/
def decode? (bytes : ByteArray) : Option String :=
  String.fromUTF8? bytes

def encode (s : String) : ByteArray :=
  s.toUTF8

theorem decode?_encode (s : String) : decode? (encode s) = some s := by
  simpa [decode?, encode, String.fromUTF8?, String.fromUTF8] using s.isValidUTF8

end VaultOperator.Text
