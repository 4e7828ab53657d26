import VaultOperator.Time.Calendar

/-!
# Days and dates

Every day has a date, which is a valid one (`Date.valid_ofDays`) and tells the day
(`Date.toDays_ofDays`).
-/

namespace VaultOperator.Time

/-- A day by the parts of its cycle of 400 years. Years begin in March, and the last one of four has
366 days, but for the last one of a century that does not end the cycle. -/
structure IsSplit (days cycle century quad year day : Int) : Prop where
  century_le : 0 ≤ century ∧ century ≤ 3
  quad_le : 0 ≤ quad ∧ quad ≤ 24
  year_le : 0 ≤ year ∧ year ≤ 3
  day_le : 0 ≤ day ∧ day ≤ 365
  isLeap : day = 365 → year = 3 ∧ (quad = 24 → century = 3)
  days_eq : days + epochDays =
    cycle * cycleDays + century * 36524 + quad * 1461 + year * 365 + day

/-- The date of a day that is given by its parts. -/
def dateOf (year day : Int) : Date :=
  let month := (5 * day + 2) / 153
  let ofMonth := (day - (153 * month + 2) / 5 + 1).toNat
  if month < 10 then ⟨year, (month + 3).toNat, ofMonth⟩ else ⟨year + 1, (month - 9).toNat, ofMonth⟩

theorem exists_split (days : Int) :
    ∃ cycle century quad year day, IsSplit days cycle century quad year day ∧
      Date.ofDays days = dateOf (cycle * 400 + century * 100 + quad * 4 + year) day := by
  let shifted := days + epochDays
  let dayOfCycle := shifted % cycleDays
  let century := min (dayOfCycle / 36524) 3
  let dayOfCentury := dayOfCycle - century * 36524
  let quad := dayOfCentury / 1461
  let dayOfQuad := dayOfCentury - quad * 1461
  let year := min (dayOfQuad / 365) 3
  have hcycle : shifted = shifted / cycleDays * cycleDays + dayOfCycle := by
    rw [Int.mul_comm]
    exact (Int.mul_ediv_add_emod shifted cycleDays).symm
  have hday : 0 ≤ dayOfCycle ∧ dayOfCycle ≤ 146096 := by
    simp only [dayOfCycle, cycleDays]
    omega
  refine ⟨shifted / cycleDays, century, quad, year, dayOfQuad - year * 365, ?_, rfl⟩
  constructor <;> simp only [year, dayOfQuad, quad, dayOfCentury, century] <;> omega

/-- A month that begins on or before a day of the year, and ends on or after it. -/
theorem month_bounds {day : Int} (h : 0 ≤ day ∧ day ≤ 365) :
    0 ≤ (5 * day + 2) / 153 ∧ (5 * day + 2) / 153 ≤ 11 ∧
      (153 * ((5 * day + 2) / 153) + 2) / 5 ≤ day := by
  omega

section
variable {days cycle century quad year day : Int}

theorem IsSplit.toDays (h : IsSplit days cycle century quad year day) :
    (dateOf (cycle * 400 + century * 100 + quad * 4 + year) day).toDays = days := by
  obtain ⟨hcentury, hquad, hyear, hday, -, hdays⟩ := h
  have hofCycle : (cycle * 400 + century * 100 + quad * 4 + year) % 400 =
    century * 100 + quad * 4 + year := by omega
  have hcycle : (cycle * 400 + century * 100 + quad * 4 + year) / 400 = cycle := by omega
  have hmonth := month_bounds hday
  simp only [epochDays, cycleDays] at hdays
  unfold dateOf Date.toDays
  generalize (5 * day + 2) / 153 = month at *
  dsimp only
  split
  · dsimp only
    rw [if_neg (by omega), if_neg (by omega), hofCycle, hcycle]
    simp only [epochDays, cycleDays]
    omega
  · dsimp only
    rw [if_pos (by omega), if_pos (by omega), Int.add_sub_cancel, hofCycle, hcycle]
    simp only [epochDays, cycleDays]
    omega

/-- The last day of February is the last day of the year. -/
theorem IsSplit.isLeapYear (h : IsSplit days cycle century quad year 365) :
    isLeapYear (cycle * 400 + century * 100 + quad * 4 + year + 1) := by
  obtain ⟨hcentury, hquad, -, -, hleap, -⟩ := h
  obtain ⟨rfl, hlast⟩ := hleap rfl
  have hfour : (cycle * 400 + century * 100 + quad * 4 + 3 + 1) % 4 = 0 := by omega
  rw [Time.isLeapYear, hfour, beq_self_eq_true, Bool.true_and, Bool.or_eq_true]
  rcases Int.lt_or_le quad 24 with hquad | hquad
  · left
    rw [bne_iff_ne]
    omega
  · right
    have hlast := hlast (by omega)
    rw [beq_iff_eq]
    omega

theorem IsSplit.valid (h : IsSplit days cycle century quad year day) :
    (dateOf (cycle * 400 + century * 100 + quad * 4 + year) day).valid := by
  obtain ⟨hfirst, hlast, hbegins⟩ := month_bounds h.day_le
  have hday := h.day_le
  unfold dateOf
  generalize hmonth : (5 * day + 2) / 153 = month at *
  have hcases : month = 0 ∨ month = 1 ∨ month = 2 ∨ month = 3 ∨ month = 4 ∨ month = 5 ∨ month = 6 ∨
      month = 7 ∨ month = 8 ∨ month = 9 ∨ month = 10 ∨ month = 11 := by omega
  rcases hcases with rfl | rfl | rfl | rfl | rfl | rfl | rfl | rfl | rfl | rfl | rfl | rfl
  case inr.inr.inr.inr.inr.inr.inr.inr.inr.inr.inr =>
    -- February, the last month
    rcases Int.lt_or_le day 365 with hless | hleap
    · simp [Date.valid, daysInMonth]
      split <;> omega
    · obtain rfl : day = 365 := by omega
      simp [Date.valid, daysInMonth, h.isLeapYear]
  all_goals
    simp [Date.valid, daysInMonth]
    omega

end

theorem Date.toDays_ofDays (days : Int) : (ofDays days).toDays = days := by
  obtain ⟨_, _, _, _, _, hsplit, hdate⟩ := exists_split days
  rw [hdate, hsplit.toDays]

theorem Date.valid_ofDays (days : Int) : (ofDays days).valid := by
  obtain ⟨_, _, _, _, _, hsplit, hdate⟩ := exists_split days
  rw [hdate, hsplit.valid]

end VaultOperator.Time
