import VaultOperator.Text.Digit
import VaultOperator.Time.Instant

/-!
Instants as text (RFC 3339). They are written in UTC as `+00:00`, with as few of 0, 3, 6 or 9
places as are exact; other offsets, a small `t` or `z` and a space for `T` are read as well.
-/

namespace VaultOperator.Time

/-- The last `width` digits of a number. -/
def padded (width n : Nat) : String :=
  let digits := toString n
  String.ofList (List.replicate (width - digits.length) '0') ++ digits

/-- Years outside of 0 to 9999 carry a sign. -/
def writeYear (year : Int) : String :=
  if 0 ≤ year ∧ year ≤ 9999 then padded 4 year.toNat
  else if year < 0 then "-" ++ padded 4 (-year).toNat
  else "+" ++ padded 4 year.toNat

def writeFraction (nanos : Nat) : String :=
  if nanos = 0 then ""
  else if nanos % 1000000 = 0 then "." ++ padded 3 (nanos / 1000000)
  else if nanos % 1000 = 0 then "." ++ padded 6 (nanos / 1000)
  else "." ++ padded 9 nanos

/-- Up to nine digits; any number of them, but one at least, has to stand there. -/
def readDigitsUpTo : Nat → Nat → List Char → Nat × Nat × List Char
  | 0, value, cs => (0, value, cs)
  | room + 1, value, cs =>
    match cs with
    | [] => (room + 1, value, [])
    | c :: rest =>
      match Text.digit? c with
      | some d => readDigitsUpTo room (value * 10 + d) rest
      | none => (room + 1, value, c :: rest)

def readFixed (width : Nat) (cs : List Char) : Option (Nat × List Char) :=
  match readDigitsUpTo width 0 cs with
  | (0, value, rest) => some (value, rest)
  | _ => none

def readChar (c : Char) : List Char → Option (List Char)
  | d :: rest => if c = d then some rest else none
  | [] => none

def dropDigits (cs : List Char) : List Char :=
  cs.dropWhile fun c => (Text.digit? c).isSome

/-- A fraction of a second in nanoseconds; digits after the ninth do not count. -/
def readFraction : List Char → Option (Nat × List Char)
  | '.' :: cs =>
    match readDigitsUpTo 9 0 cs with
    | (room, value, rest) =>
      if room = 9 then none else some (value * Nat.pow 10 room, dropDigits rest)
  | cs => some (0, cs)

/-- The greatest offset from UTC, in seconds. -/
def maxOffset : Nat := (23 * 60 + 59) * 60

/-- An offset from UTC in seconds. The minus sign may also be the mathematical one. -/
def readOffset : List Char → Option (Int × List Char)
  | 'Z' :: cs | 'z' :: cs => some (0, cs)
  | sign :: cs => do
    let factor : Int ←
      if sign = '+' then some 1 else if sign = '-' ∨ sign = '\u2212' then some (-1) else none
    let (hours, cs) ← readFixed 2 cs
    let cs ← readChar ':' cs
    let (minutes, cs) ← readFixed 2 cs
    let seconds := (hours * 60 + minutes) * 60
    if minutes ≤ 59 ∧ seconds ≤ maxOffset then some (factor * seconds, cs) else none
  | [] => none

/-- The letter between date and time of day. -/
def isTimeMark (c : Char) : Bool :=
  c == 'T' || c == 't' || c == ' '

end Time

namespace Instant

def write (t : Instant) : String :=
  let date := Time.Date.ofDays (t.second / secondsPerDay)
  let ofDay := (t.second % secondsPerDay).toNat
  let isLeap := nanosPerSecond ≤ t.nano
  let second := ofDay % 60 + (if isLeap then 1 else 0)
  let nanos := if isLeap then t.nano - nanosPerSecond else t.nano
  Time.writeYear date.year ++ "-" ++ Time.padded 2 date.month ++ "-" ++ Time.padded 2 date.day ++
    "T" ++ Time.padded 2 (ofDay / 3600) ++ ":" ++ Time.padded 2 (ofDay / 60 % 60) ++ ":" ++
    Time.padded 2 second ++ Time.writeFraction nanos ++ "+00:00"

open Time in
def readChars (cs : List Char) : Option Instant := do
  let (year, cs) ← readFixed 4 cs
  let cs ← readChar '-' cs
  let (month, cs) ← readFixed 2 cs
  let cs ← readChar '-' cs
  let (day, cs) ← readFixed 2 cs
  let cs ← match cs with
    | c :: cs => if isTimeMark c then some cs else none
    | [] => none
  let (hour, cs) ← readFixed 2 cs
  let cs ← readChar ':' cs
  let (minute, cs) ← readFixed 2 cs
  let cs ← readChar ':' cs
  let (second, cs) ← readFixed 2 cs
  let (nanos, cs) ← readFraction cs
  let (offset, cs) ← readOffset cs
  let date : Date := ⟨year, month, day⟩
  if cs.isEmpty && date.valid && hour ≤ 23 && minute ≤ 59 && second ≤ 60 then
    let isLeap := second == 60
    let ofDay : Int := (hour * 60 + minute) * 60 + (if isLeap then 59 else second : Nat)
    some ⟨date.toDays * secondsPerDay + ofDay - offset,
      if isLeap then nanos + nanosPerSecond else nanos⟩
  else none

def read? (text : String) : Option Instant :=
  readChars text.toList

end Instant

end VaultOperator
