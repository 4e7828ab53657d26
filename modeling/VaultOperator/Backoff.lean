import VaultOperator.Dict

/-!
Delays after failures: whole minutes in the Fibonacci sequence, up to a greatest delay.
-/

namespace VaultOperator

/-- The failures of one resource in a row. -/
structure Backoff where
  previousMinutes : UInt64
  currentMinutes : UInt64
  maxMinutes : UInt64
  failures : UInt32
  deriving DecidableEq, Repr

namespace Backoff

def new (minMinutes maxMinutes : UInt64) : Backoff :=
  { previousMinutes := 0
    currentMinutes := min minMinutes maxMinutes
    maxMinutes := maxMinutes
    failures := 0 }

/-- The seconds to wait after the next failure. -/
def delay (b : Backoff) : UInt64 :=
  b.currentMinutes * 60

def advance (b : Backoff) : Backoff :=
  { b with
    previousMinutes := b.currentMinutes
    currentMinutes := min (b.previousMinutes + b.currentMinutes) b.maxMinutes
    failures := b.failures + 1 }

structure Table where
  minMinutes : UInt64
  maxMinutes : UInt64
  states : Dict Backoff

def Table.new (minMinutes maxMinutes : UInt64) : Table :=
  ⟨minMinutes, maxMinutes, ∅⟩

def Table.state (t : Table) (key : String) : Backoff :=
  (t.states.get? key).getD (Backoff.new t.minMinutes t.maxMinutes)

def Table.fail (t : Table) (key : String) : UInt64 × Table :=
  let state := t.state key
  (state.delay, { t with states := t.states.insert key state.advance })

def Table.reset (t : Table) (key : String) : Table :=
  { t with states := t.states.erase key }

def resourceKey (kind ns name : String) : String :=
  kind ++ "/" ++ ns ++ "/" ++ name

end Backoff

end VaultOperator
