import AlertAdmission.Time.Calendar
import Mathlib.Tactic.IntervalCases

/-!
Days are counted and dated in step: the date of a day is a day of the calendar, and counting to it
gives the day back (`Date.toDays_ofDays`).
-/

namespace AlertAdmission.Date

/-- The year that a day of an era is in, both counted from none. -/
def yearOfEra (day : Nat) : Nat := (day - day / 1460 + day / 36524 - day / 146096) / 365

/-- The number of days of an era before a year. -/
def daysBefore (year : Nat) : Nat := 365 * year + year / 4 - year / 100

/-- Centuries, then spans of four years, then years: only the last year of a span has a day more,
and only in an era's last century does the last span have it. -/
theorem yearOfEra_eq {day century span year rest : Nat} (inEra : century < 4)
    (inCentury : span < 25) (inSpan : year < 4)
    (inYear : rest < 365 ∨ (year = 3 ∧ rest = 365 ∧ (span < 24 ∨ century = 3)))
    (parts : day = 36524 * century + 1461 * span + 365 * year + rest) :
    yearOfEra day = 100 * century + 4 * span + year := by
  have centuries : day / 36524 = century + if day = 146096 then 1 else 0 := by
    split <;> omega
  have eras : day / 146096 = if day = 146096 then 1 else 0 := by
    split <;> omega
  have spans : day / 1460 =
      25 * century + span + (24 * century + span + 365 * year + rest) / 1460 := by
    omega
  rw [yearOfEra, centuries, eras, spans, parts]
  split <;> omega

theorem daysBefore_eq {century span year : Nat} (inCentury : span < 25) (inSpan : year < 4) :
    daysBefore (100 * century + 4 * span + year) = 36524 * century + 1461 * span + 365 * year := by
  unfold daysBefore
  omega

/-- A day of an era is in its year, the last day of which is a leap day. -/
theorem yearOfEra_spec {day : Nat} (inEra : day < 146097) :
    yearOfEra day < 400 ∧ daysBefore (yearOfEra day) ≤ day ∧
      (day < daysBefore (yearOfEra day) + 365 ∨ day = daysBefore (yearOfEra day) + 365 ∧
        (yearOfEra day + 1) % 4 = 0 ∧
        ((yearOfEra day + 1) % 100 ≠ 0 ∨ (yearOfEra day + 1) % 400 = 0)) := by
  obtain ⟨century, inEra', start, rest⟩ :
      ∃ century < 4, 36524 * century ≤ day ∧ (day < 36524 * (century + 1) ∨ century = 3) :=
    ⟨min (day / 36524) 3, by omega, by omega, by omega⟩
  obtain ⟨inCentury, left⟩ : (day - 36524 * century) / 1461 < 25 ∧
      (day - 36524 * century) % 1461 < 1461 := by omega
  generalize span_eq : (day - 36524 * century) / 1461 = span at inCentury
  generalize left_eq : (day - 36524 * century) % 1461 = inSpan at left
  obtain ⟨year, inSpan', before, after⟩ :
      ∃ year < 4, 365 * year ≤ inSpan ∧ (inSpan < 365 * (year + 1) ∨ year = 3) :=
    ⟨min (inSpan / 365) 3, by omega, by omega, by omega⟩
  have parts : day = 36524 * century + 1461 * span + 365 * year + (inSpan - 365 * year) := by
    omega
  have inYear : inSpan - 365 * year < 365 ∨
      (year = 3 ∧ inSpan - 365 * year = 365 ∧ (span < 24 ∨ century = 3)) := by
    omega
  rw [yearOfEra_eq inEra' inCentury inSpan' inYear parts, daysBefore_eq inCentury inSpan']
  omega

/-- The year of a date, counted from its March, and the days that it is after the first of March. -/
theorem ofDays_spec (days : Int) : ∃ (era : Int) (year day month : Nat),
    days + 719468 = era * 146097 + (daysBefore year + day : Nat) ∧ year < 400 ∧
      (day < 365 ∨ day = 365 ∧ isLeapYear (era * 400 + year + 1) = true) ∧
      month = (5 * day + 2) / 153 ∧
      ofDays days = ⟨if month < 10 then era * 400 + year else era * 400 + year + 1,
        if month < 10 then month + 3 else month - 9, day - (153 * month + 2) / 5 + 1⟩ := by
  have inEra : ((days + 719468) % 146097).toNat < 146097 := by omega
  obtain ⟨below, after, leap⟩ := yearOfEra_spec inEra
  have inYear : ((days + 719468) % 146097).toNat -
      daysBefore (yearOfEra ((days + 719468) % 146097).toNat) ≤ 365 := by omega
  refine ⟨(days + 719468) / 146097, yearOfEra ((days + 719468) % 146097).toNat,
    ((days + 719468) % 146097).toNat - daysBefore (yearOfEra ((days + 719468) % 146097).toNat),
    _, ?_, below, ?_, rfl, ?_⟩
  · rw [Nat.add_sub_cancel' after]
    omega
  · rcases leap with short | ⟨last, fourth, century⟩
    · left
      omega
    · right
      refine ⟨by omega, ?_⟩
      simp only [isLeapYear, Bool.and_eq_true, Bool.or_eq_true, beq_iff_eq, bne_iff_ne]
      omega
  · unfold ofDays
    dsimp only
    rw [← yearOfEra, ← daysBefore]
    generalize ((days + 719468) % 146097).toNat -
      daysBefore (yearOfEra ((days + 719468) % 146097).toNat) = day at inYear
    by_cases spring : (5 * day + 2) / 153 < 10
    · rw [if_pos spring, if_pos spring, if_neg (by omega)]
    · rw [if_neg spring, if_neg spring, if_pos (by omega)]

theorem toDays_ofDays (days : Int) : toDays (ofDays days) = days := by
  obtain ⟨era, year, day, month, count, below, inYear, isMonth, date⟩ := ofDays_spec days
  have inEra : (era * 400 + year) / 400 = era ∧ (era * 400 + year) % 400 = year := by omega
  have counted : ((153 * month + 2) / 5 + (day - (153 * month + 2) / 5 + 1) - 1 : Nat) = day := by
    omega
  rw [date]
  unfold toDays
  unfold daysBefore at count
  dsimp only
  by_cases spring : month < 10
  · have fromMarch : (month + 3 + 9) % 12 = month := by omega
    rw [if_pos spring, if_pos spring, if_neg (by omega), fromMarch, counted, inEra.1, inEra.2]
    omega
  · have fromMarch : (month - 9 + 9) % 12 = month := by omega
    rw [if_neg spring, if_neg spring, if_pos (by omega), Int.add_sub_cancel, fromMarch, counted,
      inEra.1, inEra.2]
    omega

theorem isValid_ofDays (days : Int) : isValid (ofDays days) = true := by
  obtain ⟨era, year, day, month, count, below, inYear, isMonth, date⟩ := ofDays_spec days
  have inRange : month < 12 := by omega
  rw [date]
  simp only [isValid, Bool.and_eq_true, decide_eq_true_eq]
  refine ⟨by omega, ?_⟩
  by_cases february : month = 11
  · subst february
    rcases inYear with short | ⟨last, leap⟩
    · have least (year : Int) : 28 ≤ daysInMonth year 2 := by
        have days : daysInMonth year 2 = if isLeapYear year then 29 else 28 := rfl
        rw [days]
        split <;> omega
      exact Nat.le_trans (by omega) (least _)
    · have longest : daysInMonth (era * 400 + year + 1) 2 = 29 := if_pos leap
      exact Nat.le_trans (by omega) (Nat.le_of_eq longest.symm)
  · interval_cases month <;> norm_num [daysInMonth] <;> omega

end AlertAdmission.Date
