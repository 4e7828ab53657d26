import VaultOperator.Proofs.Time.Rfc3339

/-!
# The range of dates

A date may be moved by less than the calendar has left behind it (`LeavesCalendar`), which for the
instants that can be read is more than for those that a clock shows: an offset may take the former
almost a day past the year 9999 (`second_le_of_read?`, `IsOrdinary.second_le`).
-/

namespace VaultOperator

namespace Time

/-- No date of a year with four digits is later than its last one. -/
theorem Date.toDays_le {d : Date} (hvalid : d.valid) (hyear : d.year ≤ 9999) :
    d.toDays ≤ 2932896 := by
  have hlast := Instant.daysInMonth_le d.year d.month
  simp only [Date.valid, Bool.and_eq_true, decide_eq_true_eq] at hvalid
  unfold Date.toDays
  simp only [cycleDays, epochDays]
  split <;> omega

/-- Days of years from 0 on are not far from its beginning. -/
theorem Date.toDays_ge {d : Date} (hyear : 0 ≤ d.year) : -epochDays - cycleDays ≤ d.toDays := by
  unfold Date.toDays
  simp only [cycleDays, epochDays]
  split <;> omega

theorem digit?_le (h : Text.digit? c = some d) : d ≤ 9 := by
  obtain ⟨hdigit, rfl⟩ := Text.digit?_eq_some_iff.1 h
  have hc : c.toNat ≤ '9'.toNat := (Text.isDigit_iff.1 hdigit).2
  exact Nat.sub_le_sub_right hc _

theorem readDigitsUpTo_lt (room value : Nat) (cs : List Char) :
    (readDigitsUpTo room value cs).2.1 < (value + 1) * 10 ^ room := by
  have hstays (room value : Nat) : value < (value + 1) * 10 ^ room :=
    Nat.lt_of_lt_of_le value.lt_succ_self (Nat.le_mul_of_pos_right _ (Nat.pow_pos (by decide)))
  fun_induction readDigitsUpTo room value cs with
  | case1 | case2 | case4 => exact hstays _ _
  | case3 room value c cs d hd ih =>
    have hroom : value * 10 + d + 1 ≤ (value + 1) * 10 := by
      have hdigit := digit?_le hd
      omega
    calc (readDigitsUpTo room (value * 10 + d) cs).2.1
        < (value * 10 + d + 1) * 10 ^ room := ih
      _ ≤ (value + 1) * 10 * 10 ^ room := Nat.mul_le_mul_right _ hroom
      _ = (value + 1) * 10 ^ (room + 1) := by rw [Nat.mul_assoc, Nat.pow_succ, Nat.mul_comm 10]

theorem readFixed_lt (h : readFixed width cs = some (n, rest)) : n < 10 ^ width := by
  have hlt := readDigitsUpTo_lt width 0 cs
  unfold readFixed at h
  split at h
  · next hread =>
    obtain ⟨rfl, rfl⟩ := Prod.mk.inj (Option.some.inj h)
    rwa [hread, Nat.zero_add, Nat.one_mul] at hlt
  · cases h

theorem readOffset_bounds (h : readOffset cs = some (offset, rest)) :
    -(maxOffset : Int) ≤ offset ∧ offset ≤ maxOffset := by
  have hzero : -(maxOffset : Int) ≤ 0 ∧ (0 : Int) ≤ maxOffset := by decide
  unfold readOffset at h
  split at h
  case h_1 | h_2 => cases h; exact hzero
  case h_4 => cases h
  case h_3 =>
    split at h
    case' isFalse => split at h
    case isFalse.isFalse => cases h
    all_goals
      simp only [Option.bind_eq_bind, Option.bind_some, Option.bind_eq_some_iff, Prod.exists] at h
      obtain ⟨hours, _, -, _, -, minutes, _, -, h⟩ := h
      obtain ⟨⟨-, hinside⟩, h⟩ := Option.ite_none_right_eq_some.1 h
      cases h
      omega

end Time

namespace Instant

open Time

variable {t : Instant} {seconds : Nat}

/-- Moving `t` by so many seconds leaves the calendar, and it is not more than a date can be moved
by at all. -/
def LeavesCalendar (t : Instant) (seconds : Nat) : Prop :=
  seconds ≤ maxSpanSeconds ∧ lastSecond < t.second + seconds

instance (t : Instant) (seconds : Nat) : Decidable (t.LeavesCalendar seconds) :=
  inferInstanceAs (Decidable (_ ∧ _))

theorem addSeconds?_eq_none_iff :
    t.addSeconds? seconds = none ↔ lastSecond < t.second + seconds := by
  have hsecond : (if seconds = 0 then t else ⟨t.second + seconds, t.nano % nanosPerSecond⟩).second =
      t.second + seconds := by
    split
    · next hzero => simp [hzero]
    · rfl
  rw [addSeconds?]
  simp [hsecond]

theorem leavesCalendar_iff : t.LeavesCalendar seconds ↔
    ¬ maxSpanSeconds < seconds ∧ t.addSeconds? seconds = none := by
  rw [LeavesCalendar, addSeconds?_eq_none_iff, Nat.not_lt]

theorem lastSecond_eq : lastSecond = 8210266876799 := by decide +kernel

theorem second_le_of_day {date : Date} {ofDay : Int} (hvalid : date.valid)
    (hyear : date.year ≤ 9999) (hday : ofDay < 86400) :
    date.toDays * secondsPerDay + ofDay ≤ 253402300799 := by
  have hdays := Date.toDays_le hvalid hyear
  simp only [secondsPerDay]
  omega

theorem IsOrdinary.second_le (h : t.IsOrdinary) : t.second ≤ 253402300799 := by
  have hvalid := Date.valid_ofDays (t.second / secondsPerDay)
  have hday : t.second % secondsPerDay < 86400 := Int.emod_lt_of_pos _ (by decide)
  have hsplit := Int.mul_ediv_add_emod t.second secondsPerDay
  have hle := second_le_of_day hvalid h.year_le.2 hday
  rw [Date.toDays_ofDays] at hle
  rw [Int.mul_comm] at hsplit
  omega

/-- The last second that the clock of a machine shows. -/
def lastOrdinary : Instant := ⟨253402300799, 0⟩

theorem isOrdinary_lastOrdinary : lastOrdinary.IsOrdinary := by decide +kernel

/-- What can be read is a time of a day of a year with four digits, at some offset. -/
theorem day_of_read? (h : read? text = some t) :
    ∃ date : Date, ∃ ofDay offset : Int, date.valid ∧ (0 ≤ date.year ∧ date.year ≤ 9999) ∧
      (0 ≤ ofDay ∧ ofDay < 86400) ∧ (-(maxOffset : Int) ≤ offset ∧ offset ≤ maxOffset) ∧
      t.second = date.toDays * secondsPerDay + ofDay - offset := by
  unfold read? readChars at h
  -- one part after the other; simp goes into the steps that are still to come each time
  obtain ⟨⟨year, _⟩, hyear, h⟩ := Option.bind_eq_some_iff.1 h
  obtain ⟨_, -, h⟩ := Option.bind_eq_some_iff.1 h
  obtain ⟨⟨month, _⟩, -, h⟩ := Option.bind_eq_some_iff.1 h
  obtain ⟨_, -, h⟩ := Option.bind_eq_some_iff.1 h
  obtain ⟨⟨day, _⟩, -, h⟩ := Option.bind_eq_some_iff.1 h
  dsimp only at h
  split at h
  · split at h
    · obtain ⟨_, -, h⟩ := Option.bind_eq_some_iff.1 h
      obtain ⟨⟨hour, _⟩, -, h⟩ := Option.bind_eq_some_iff.1 h
      obtain ⟨_, -, h⟩ := Option.bind_eq_some_iff.1 h
      obtain ⟨⟨minute, _⟩, -, h⟩ := Option.bind_eq_some_iff.1 h
      obtain ⟨_, -, h⟩ := Option.bind_eq_some_iff.1 h
      obtain ⟨⟨second, _⟩, -, h⟩ := Option.bind_eq_some_iff.1 h
      obtain ⟨⟨nanos, _⟩, -, h⟩ := Option.bind_eq_some_iff.1 h
      obtain ⟨⟨offset, _⟩, hoffset, h⟩ := Option.bind_eq_some_iff.1 h
      obtain ⟨hinside, h⟩ := Option.ite_none_right_eq_some.1 h
      cases h
      simp only [Bool.and_eq_true, decide_eq_true_eq] at hinside
      obtain ⟨⟨⟨⟨-, hvalid⟩, hhour⟩, hminute⟩, hsecond⟩ := hinside
      have hyear := readFixed_lt hyear
      refine ⟨_, _, offset, hvalid, by dsimp only; omega, ?_, readOffset_bounds hoffset, rfl⟩
      split
      · omega
      · next hplain =>
        rw [beq_iff_eq] at hplain
        omega
    · cases h
  · cases h

/-- What can be read is at most as late as the last second of the year 9999 with the offset that is
farthest behind. -/
theorem second_le_of_read? (h : read? text = some t) : t.second ≤ 253402387139 := by
  obtain ⟨date, ofDay, offset, hvalid, hyear, hday, hoffset, hsecond⟩ := day_of_read? h
  have hle := second_le_of_day hvalid hyear.2 hday.2
  simp only [maxOffset] at hoffset
  omega

/-- All that can be added to what was read is less than the longest span. -/
theorem le_maxSpan_of_read? (h : read? text = some t) (hlater : t.addSeconds? seconds = some later) :
    seconds ≤ maxSpanSeconds := by
  obtain ⟨date, ofDay, offset, -, hyear, hday, hoffset, hsecond⟩ := day_of_read? h
  have hdays := Date.toDays_ge hyear.1
  have hinside : ¬ lastSecond < t.second + seconds := fun hpast => by
    rw [addSeconds?_eq_none_iff.2 hpast] at hlater
    cases hlater
  rw [lastSecond_eq] at hinside
  simp only [maxOffset, epochDays, cycleDays, secondsPerDay, maxSpanSeconds] at *
  omega

theorem read?_latest :
    read? "9999-12-31T23:59:60-23:59" = some ⟨253402387139, nanosPerSecond⟩ := by
  decide +kernel

end Instant

end VaultOperator
