import Mathlib.Algebra.Group.Nat.Defs
import VaultOperator.Proofs.Text.Number
import VaultOperator.Proofs.Time.Instant
import VaultOperator.Time.Rfc3339

/-!
# Instants are read back from their text

Numbers are written with as many digits as are read again (`readFixed_padded`), and so is the
fraction of a second. An instant of a year that has four digits is read back as it was written
(`Instant.read?_write`).
-/

namespace VaultOperator

namespace Time

theorem some_bind (a : α) (f : α → Option β) : (some a >>= f) = f a :=
  rfl

/-- Digits are taken as long as there is room for them. -/
theorem readDigitsUpTo_digits {ds : List Char} (h : ∀ c ∈ ds, c.isDigit) (room value : Nat)
    (rest : List Char) :
    readDigitsUpTo (ds.length + room) value (ds ++ rest) =
      readDigitsUpTo room (Nat.ofDigitChars 10 ds value) rest := by
  induction ds generalizing value with
  | nil => simp [Nat.ofDigitChars]
  | cons c ds ih =>
    obtain ⟨hc, hds⟩ := List.forall_mem_cons.1 h
    have hlength : (c :: ds).length + room = (ds.length + room) + 1 := by
      rw [List.length_cons]
      omega
    rw [hlength, List.cons_append, readDigitsUpTo, Text.digit?_of_isDigit hc]
    show readDigitsUpTo (ds.length + room) (value * 10 + _) _ = _
    rw [ih hds, Nat.ofDigitChars_cons, Nat.mul_comm value]

theorem toList_padded (width n : Nat) :
    (padded width n).toList =
      List.replicate (width - (Nat.toDigits 10 n).length) '0' ++ Nat.toDigits 10 n := by
  have hdigits : (toString n).toList = Nat.toDigits 10 n := Nat.toList_repr
  rw [padded, String.toList_append, String.toList_ofList, ← String.length_toList, hdigits]

theorem ofDigitChars_zeros (k : Nat) : Nat.ofDigitChars 10 (List.replicate k '0') 0 = 0 := by
  induction k with
  | zero => rfl
  | succ k ih =>
    rw [List.replicate_succ, Nat.ofDigitChars_cons]
    exact ih

theorem isDigit_padded (width n : Nat) : ∀ c ∈ (padded width n).toList, c.isDigit := by
  intro c hc
  rw [toList_padded] at hc
  rcases List.mem_append.1 hc with hc | hc
  · rw [List.eq_of_mem_replicate hc]
    rfl
  · exact Nat.isDigit_of_mem_toDigits (by decide) (by decide) hc

section
variable {width n : Nat}

theorem length_padded (hwidth : 0 < width) (h : n < 10 ^ width) :
    (padded width n).toList.length = width := by
  have hlength := (Nat.length_toDigits_le_iff (by decide) hwidth).2 h
  rw [toList_padded, List.length_append, List.length_replicate]
  omega

theorem ofDigitChars_padded : Nat.ofDigitChars 10 (padded width n).toList 0 = n := by
  rw [toList_padded, Nat.ofDigitChars_append, ofDigitChars_zeros]
  exact Nat.ofDigitChars_toDigits (by decide) (by decide)

theorem readDigitsUpTo_padded (hwidth : 0 < width) (h : n < 10 ^ width) (room : Nat)
    (rest : List Char) :
    readDigitsUpTo (width + room) 0 ((padded width n).toList ++ rest) =
      readDigitsUpTo room n rest := by
  have hread := readDigitsUpTo_digits (isDigit_padded width n) room 0 rest
  rwa [length_padded hwidth h, ofDigitChars_padded] at hread

theorem readFixed_padded (hwidth : 0 < width) (h : n < 10 ^ width) (rest : List Char) :
    readFixed width ((padded width n).toList ++ rest) = some (n, rest) := by
  have hread := readDigitsUpTo_padded hwidth h 0 rest
  rw [Nat.add_zero] at hread
  rw [readFixed, hread]
  rfl

theorem readFixed_bind (hwidth : 0 < width) (h : n < 10 ^ width) (rest : List Char)
    (f : Nat × List Char → Option α) :
    (readFixed width ((padded width n).toList ++ rest) >>= f) = f (n, rest) := by
  rw [readFixed_padded hwidth h, some_bind]

/-- A fraction with fewer than nine places is one with zeros behind them. -/
theorem readFraction_padded (hwidth : 0 < width) (h : n < 10 ^ width) (room : Nat)
    (hplaces : width + room = 9) (rest : List Char) :
    readFraction ('.' :: ((padded width n).toList ++ '+' :: rest)) =
      some (n * Nat.pow 10 room, '+' :: rest) := by
  have hread := readDigitsUpTo_padded hwidth h room ('+' :: rest)
  rw [hplaces] at hread
  have hstop : readDigitsUpTo room n ('+' :: rest) = (room, n, '+' :: rest) := by
    cases room <;> rfl
  have hsome : room ≠ 9 := by omega
  rw [readFraction, hread, hstop]
  show (if room = 9 then none else some (n * Nat.pow 10 room, dropDigits ('+' :: rest))) = _
  rw [if_neg hsome]
  rfl

end

theorem readFraction_write {nanos : Nat} (h : nanos < Instant.nanosPerSecond) (rest : List Char) :
    readFraction ((writeFraction nanos).toList ++ '+' :: rest) = some (nanos, '+' :: rest) := by
  have hpoint (width n : Nat) : ("." ++ padded width n).toList ++ '+' :: rest =
      '.' :: ((padded width n).toList ++ '+' :: rest) := by
    rw [String.toList_append]
    rfl
  simp only [Instant.nanosPerSecond] at h
  unfold writeFraction
  split
  · next hzero =>
    subst hzero
    rfl
  split
  · next hmillis =>
    rw [hpoint, readFraction_padded (by decide) (by omega) 6 (by decide)]
    have hnanos : nanos / 1000000 * Nat.pow 10 6 = nanos := by
      show nanos / 1000000 * 1000000 = nanos
      omega
    rw [hnanos]
  split
  · next hmicros =>
    rw [hpoint, readFraction_padded (by decide) (by omega) 3 (by decide)]
    have hnanos : nanos / 1000 * Nat.pow 10 3 = nanos := by
      show nanos / 1000 * 1000 = nanos
      omega
    rw [hnanos]
  · rw [hpoint, readFraction_padded (by decide) h 0 (by decide)]
    simp

end Time

namespace Instant

open Time

theorem daysInMonth_le (year : Int) (month : Nat) : daysInMonth year month ≤ 31 := by
  unfold daysInMonth
  split
  · split <;> decide
  all_goals decide

theorem readChar_bind (c : Char) (rest : List Char) (f : List Char → Option α) :
    (readChar c (c :: rest) >>= f) = f rest := by
  rw [readChar, if_pos rfl, some_bind]

/-- An instant of a year with four digits as it is written, part by part. -/
def chars (date : Date) (ofDay nanos : Nat) : List Char :=
  (padded 4 date.year.toNat).toList ++ '-' :: ((padded 2 date.month).toList ++
    '-' :: ((padded 2 date.day).toList ++ 'T' :: ((padded 2 (ofDay / 3600)).toList ++
      ':' :: ((padded 2 (ofDay / 60 % 60)).toList ++ ':' :: ((padded 2 (ofDay % 60)).toList ++
        ((writeFraction nanos).toList ++ '+' :: ['0', '0', ':', '0', '0']))))))

theorem write_chars {t : Instant} (h : t.IsOrdinary) :
    t.write.toList = chars (Date.ofDays (t.second / secondsPerDay))
      (t.second % secondsPerDay).toNat t.nano := by
  have hnano : ¬ nanosPerSecond ≤ t.nano := Nat.not_le.2 h.nano_lt
  have hyear : writeYear (Date.ofDays (t.second / secondsPerDay)).year =
      padded 4 (Date.ofDays (t.second / secondsPerDay)).year.toNat := if_pos h.year_le
  simp only [write, hnano, if_false, Nat.add_zero]
  rw [hyear]
  simp [String.toList_append, chars]

theorem readChars_chars {date : Date} {ofDay nanos : Nat} (hvalid : date.valid)
    (hyear : 0 ≤ date.year ∧ date.year ≤ 9999) (hofDay : ofDay < 86400)
    (hnanos : nanos < nanosPerSecond) :
    readChars (chars date ofDay nanos) =
      some ⟨date.toDays * secondsPerDay + ofDay, nanos⟩ := by
  have hdate := hvalid
  simp only [Date.valid, Bool.and_eq_true, decide_eq_true_eq] at hdate
  have hmonth : date.month < 10 ^ 2 := by omega
  have hday : date.day < 10 ^ 2 := by
    have hlast := daysInMonth_le date.year date.month
    omega
  have hsame : (⟨(date.year.toNat : Int), date.month, date.day⟩ : Date) = date := by
    rw [Int.toNat_of_nonneg hyear.1]
  have hmark : isTimeMark 'T' = true := rfl
  have hoffset : readOffset ['+', '0', '0', ':', '0', '0'] = some (0, []) := by decide
  have hinside : ([] : List Char).isEmpty && date.valid && decide (ofDay / 3600 ≤ 23) &&
      decide (ofDay / 60 % 60 ≤ 59) && decide (ofDay % 60 ≤ 60) := by
    simp only [List.isEmpty_nil, hvalid, Bool.true_and, Bool.and_eq_true, decide_eq_true_eq]
    omega
  have hplain : (ofDay % 60 == 60) = false := by
    rw [beq_eq_false_iff_ne]
    omega
  have hparts : ((ofDay / 3600 : Nat) * 60 + (ofDay / 60 % 60 : Nat)) * 60 + (ofDay % 60 : Nat) =
      (ofDay : Int) := by
    omega
  -- every part is read as it was written, and what is behind it is left to the next step; simp goes
  -- into the steps that are still to come, where nothing can be read yet
  rw [chars, readChars, readFixed_bind (by decide) (by omega)]
  dsimp only
  rw [readChar_bind, readFixed_bind (by decide) hmonth]
  dsimp only
  rw [readChar_bind, readFixed_bind (by decide) hday]
  dsimp only
  rw [if_pos hmark, some_bind, readFixed_bind (by decide) (by omega)]
  dsimp only
  rw [readChar_bind, readFixed_bind (by decide) (by omega)]
  dsimp only
  rw [readChar_bind, readFixed_bind (by decide) (by omega)]
  dsimp only
  rw [readFraction_write hnanos, some_bind]
  dsimp only
  rw [hoffset, some_bind]
  dsimp only
  rw [hsame, if_pos hinside, hplain, if_neg Bool.false_ne_true, if_neg Bool.false_ne_true, hparts,
    Int.sub_zero]

/-- What is written is read back. -/
theorem read?_write {t : Instant} (h : t.IsOrdinary) : read? t.write = some t := by
  have hofDay : 0 ≤ t.second % secondsPerDay ∧ t.second % secondsPerDay < 86400 := by
    simp only [secondsPerDay]
    omega
  have hsecond : t.second / secondsPerDay * secondsPerDay +
      ((t.second % secondsPerDay).toNat : Int) = t.second := by
    rw [Int.toNat_of_nonneg hofDay.1]
    exact Int.ediv_mul_add_emod ..
  rw [read?, write_chars h, readChars_chars (Date.valid_ofDays _) h.year_le (by omega) h.nano_lt,
    Date.toDays_ofDays, hsecond]

end Instant

end VaultOperator
