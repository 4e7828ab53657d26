import VaultOperator.Time.Calendar

/-!
Points in time to the nanosecond, in UTC. A leap second is the second before it, with a billion
nanoseconds or more.
-/

namespace VaultOperator

/-- Seconds since the beginning of 1970, and nanoseconds. -/
structure Instant where
  second : Int
  nano : Nat
  deriving DecidableEq, Repr

namespace Instant

def secondsPerDay : Int := 86400

def nanosPerSecond : Nat := 1000000000

def daySecond (t : Instant) : Int :=
  t.second % secondsPerDay

def le (a b : Instant) : Bool :=
  a.second < b.second || (a.second == b.second && a.nano ≤ b.nano)

/-- The last second of the year 262142, with which the calendar ends. -/
def lastSecond : Int :=
  ((Time.Date.toDays ⟨262142, 12, 31⟩) + 1) * secondsPerDay - 1

/-- The instant some seconds later; none past the end of the calendar. A leap second is left by
any step. -/
def addSeconds? (t : Instant) (seconds : Nat) : Option Instant :=
  let later : Instant :=
    if seconds = 0 then t else ⟨t.second + seconds, t.nano % nanosPerSecond⟩
  if lastSecond < later.second then none else some later

/-- A time span in nanoseconds: from `b` to `a`. A leap second between them counts where the later
time of day lies behind it. -/
def nanosSince (a b : Instant) : Int :=
  let adjust : Int :=
    if b.daySecond < a.daySecond ∧ nanosPerSecond ≤ b.nano then 1
    else if a.daySecond < b.daySecond ∧ nanosPerSecond ≤ a.nano then -1
    else 0
  (a.second - b.second + adjust) * nanosPerSecond + ((a.nano : Int) - b.nano)

/-- The longest span, in seconds, that a date can be moved by at all. -/
def maxSpanSeconds : Nat := 9223372036854775

end Instant

end VaultOperator
