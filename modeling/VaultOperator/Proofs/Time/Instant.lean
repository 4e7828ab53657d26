import VaultOperator.Proofs.Time.Calendar
import VaultOperator.Time.Instant

/-!
# Instants in order

Instants follow one another as the clock shows them, and keep their order when they are moved by the
same time (`Instant.addSeconds?_le`).
-/

namespace VaultOperator.Instant

open Time

def year (t : Instant) : Int :=
  (Date.ofDays (t.second / secondsPerDay)).year

/-- What the clock of a machine shows: no leap second, and a year of four digits. -/
structure IsOrdinary (t : Instant) : Prop where
  nano_lt : t.nano < nanosPerSecond
  year_le : 0 ≤ t.year ∧ t.year ≤ 9999

instance (t : Instant) : Decidable t.IsOrdinary :=
  decidable_of_iff (t.nano < nanosPerSecond ∧ 0 ≤ t.year ∧ t.year ≤ 9999)
    ⟨fun h => ⟨h.1, h.2⟩, fun h => ⟨h.1, h.2⟩⟩

variable {a b c : Instant}

theorem le_iff : a.le b ↔ a.second < b.second ∨ a.second = b.second ∧ a.nano ≤ b.nano := by
  simp [le]

theorem le_refl (a : Instant) : a.le a :=
  le_iff.2 (.inr ⟨rfl, Nat.le_refl _⟩)

theorem le_trans (h : a.le b) (h' : b.le c) : a.le c := by
  rw [le_iff] at *
  omega

/-- What is added to an instant of the clock is added to its seconds. -/
theorem addSeconds?_eq (h : a.nano < nanosPerSecond) (seconds : Nat) :
    a.addSeconds? seconds =
      if lastSecond < a.second + seconds then none else some ⟨a.second + seconds, a.nano⟩ := by
  have hmoved : (if seconds = 0 then a else ⟨a.second + seconds, a.nano % nanosPerSecond⟩) =
      (⟨a.second + seconds, a.nano⟩ : Instant) := by
    split
    · next hzero =>
      subst hzero
      simp
    · rw [Nat.mod_eq_of_lt h]
  rw [addSeconds?, hmoved]

theorem addSeconds?_le (ha : a.nano < nanosPerSecond) (hb : b.nano < nanosPerSecond) (h : a.le b)
    (hlater : b.addSeconds? seconds = some later) :
    ∃ earlier, a.addSeconds? seconds = some earlier ∧ earlier.le later := by
  rw [le_iff] at h
  rw [addSeconds?_eq hb] at hlater
  obtain ⟨hinside, hlater⟩ := Option.ite_none_left_eq_some.1 hlater
  obtain rfl := Option.some.inj hlater
  refine ⟨⟨a.second + seconds, a.nano⟩, ?_, le_iff.2 ?_⟩
  · rw [addSeconds?_eq ha, if_neg (by omega)]
  · dsimp only
    omega

end VaultOperator.Instant
