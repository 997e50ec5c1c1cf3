import BessEmulator.CivilDates

/-!
# The reference calendar

An hour of the reference year names the month, the day and the hour of the
timestamp it comes from, as far as that year has them; from one hour to the
next it moves on by one, but for the end of the year and the end of February.
-/
namespace BessReference

open Calendar Gregorian Bess BessCivil

theorem isLeapYear_iff (year : Nat) : isLeapYear year = true ↔ IsLeap year := by
  simp only [isLeapYear, IsLeap, Bool.and_eq_true, Bool.or_eq_true, Bool.not_eq_true',
    decide_eq_true_eq, decide_eq_false_iff_not]
  omega

/-- The day a date of any year has in the reference year. -/
def refDay (year : Nat) (d : Date) : Nat :=
  DAYS_BEFORE_MONTH.getD (d.month.toNat - 1) 0 + d.day.toNat - 1
    + if 2 < d.month ∧ IsLeap year then 1 else 0

/-- The hour of the day a timestamp falls in. -/
def hourOf (t : Int) : Nat := (t % 86400 / 3600).toNat

theorem hourOf_lt (t : Int) : hourOf t < 24 := by
  rw [hourOf]
  omega

theorem referenceDay_eq {t : Int} {d : Date} (h : civilFromDays (t / 86400) = fields d) (year : Nat) :
    referenceDayAndSecond t year = (refDay year d, t % 86400) := by
  have hmonth : (2 < d.month.toNat ∧ isLeapYear year = true) = (2 < d.month ∧ IsLeap year) := by
    rw [isLeapYear_iff]
    have : 2 < d.month.toNat ↔ 2 < d.month := by omega
    rw [this]
  simp only [referenceDayAndSecond, monthDay_of_fields h, hmonth, refDay]
  split <;> rfl

theorem referenceHour_eq {t : Int} {d : Date} (h : civilFromDays (t / 86400) = fields d)
    (year : Nat) : referenceHour t year = refDay year d * 24 + hourOf t := by
  have hsecs : 0 ≤ t % 86400 := Int.emod_nonneg t (by decide)
  rw [referenceHour, referenceDay_eq h]
  simp only [Int.tdiv_eq_ediv_of_nonneg hsecs]
  rfl

/-- The table in terms of the calendar. -/
theorem daysBefore_eq {month : Int} (h0 : 1 ≤ month) (h1 : month ≤ 12) :
    ((DAYS_BEFORE_MONTH.getD (month.toNat - 1) 0 : Nat) : Int) =
      if month ≤ 2 then monthStart month - monthStart 1 else monthStart month + 59 := by
  have hcases : month = 1 ∨ month = 2 ∨ month = 3 ∨ month = 4 ∨ month = 5 ∨ month = 6 ∨
      month = 7 ∨ month = 8 ∨ month = 9 ∨ month = 10 ∨ month = 11 ∨ month = 12 := by
    omega
  rcases hcases with rfl | rfl | rfl | rfl | rfl | rfl | rfl | rfl | rfl | rfl | rfl | rfl <;> rfl

/-- A date's day in its own year counts from the first of January. -/
theorem refDay_own {year : Nat} {d : Date} (h : d.year = year) :
    d.number = (newYear year).number + refDay year d := by
  have hday := d.day_pos
  have htable := daysBefore_eq d.month_pos d.month_le
  have hyear := yearStart_succ year
  have hfeb : monthStart 2 = 337 := rfl
  have hjan : monthStart 1 = 306 := rfl
  have hlength : monthLength year 2 = if IsLeap year then 29 else 28 := if_pos rfl
  have hnew : (newYear year).number = yearStart (year - 1) + 306 := by
    change yearStart ((year : Int) - 1) + monthStart 1 + 1 - 1 = _
    rw [hjan]
    ring
  rw [hnew, Date.number, Date.marchYear, h, refDay]
  by_cases hmarch : d.month ≤ 2
  · rw [if_pos hmarch] at htable ⊢
    rw [if_neg (by omega)]
    omega
  · rw [if_neg hmarch] at htable ⊢
    by_cases hleap : IsLeap year
    · rw [if_pos hleap] at hlength
      rw [if_pos ⟨not_le.mp hmarch, hleap⟩]
      omega
    · rw [if_neg hleap] at hlength
      rw [if_neg fun hboth => hleap hboth.2]
      omega

/-- What an hour of the reference year names: a date of that year and an hour. -/
def Names (year : Nat) (hour : Nat) (month day : Int) (hourOfDay : Nat) : Prop :=
  civilFromDays (daysFromCivil year 1 1 + (hour / 24 : Nat)) = ((year : Int), month, day) ∧
    hour % 24 = hourOfDay

theorem names_own {year : Nat} {d : Date} (h : d.year = year) {n : Nat} (hn : n < 24) :
    Names year (refDay year d * 24 + n) d.month d.day n := by
  have hdiv : (refDay year d * 24 + n) / 24 = refDay year d := by omega
  have hnew : daysFromCivil year 1 1 = (newYear year).number - EPOCH :=
    daysFromCivil_date (newYear year)
  have hday : daysFromCivil year 1 1 + refDay year d = d.number - EPOCH := by
    rw [hnew, refDay_own h]
    ring
  refine ⟨?_, by omega⟩
  rw [hdiv, hday, civilFromDays_number, fields, h]

/-- The same day of another year, if that year has it. -/
def inYear (year : Int) (d : Date) (h : d.day ≤ monthLength year d.month) : Date :=
  ⟨year, d.month, d.day, d.month_pos, d.month_le, d.day_pos, h⟩

theorem names_day {year : Nat} {d : Date} (h : d.day ≤ monthLength year d.month) {n : Nat}
    (hn : n < 24) : Names year (refDay year d * 24 + n) d.month d.day n :=
  names_own (d := inYear year d h) rfl hn

/-- Every year has every day but one. -/
theorem day_le_year {year : Int} {d : Date} (h : IsLeap year ∨ ¬(d.month = 2 ∧ d.day = 29)) :
    d.day ≤ monthLength year d.month := by
  have hle := d.day_le
  by_cases hfeb : d.month = 2
  · have hlast := d.february_le hfeb
    rw [monthLength, if_pos hfeb]
    split
    · exact hlast
    · rename_i hcommon
      have hnot := h.resolve_left hcommon
      omega
  · rw [monthLength, if_neg hfeb] at hle ⊢
    exact hle

/-- The hours of a year. -/
def hoursOf (year : Nat) : Nat := if IsLeap year then 8784 else 8760

theorem refDay_lt (year : Nat) (d : Date) : refDay year d * 24 + 24 ≤ hoursOf year := by
  have hday := day_le_month d
  have htable : DAYS_BEFORE_MONTH.getD (d.month.toNat - 1) 0 ≤ 334 := by
    have hall : ∀ n ≤ 11, DAYS_BEFORE_MONTH.getD n 0 ≤ 334 := by decide
    exact hall _ (by have := d.month_le; omega)
  rw [refDay, hoursOf]
  by_cases hleap : IsLeap year
  · rw [if_pos hleap]
    split <;> omega
  · rw [if_neg hleap, if_neg fun hboth => hleap hboth.2]
    omega

/-- The end of February, of either length. -/
def EndsFebruary (d : Date) : Prop := d.month = 2 ∧ d.day = monthLength d.year 2

def EndsYear (d : Date) : Prop := d.month = 12 ∧ d.day = 31

theorem refDay_newYear (year : Nat) (d : Date) (h : EndsYear d) : refDay year d.next = 0 := by
  obtain ⟨hmonth, hday⟩ := h
  have hlength : monthLength d.year 12 = 31 := rfl
  have hnext : d.next = newYear (d.year + 1) := by
    rw [Date.next, dif_neg (by rw [hmonth, hlength]; omega), dif_neg (by omega)]
  rw [hnext]
  rfl

theorem refDay_lastDay (year : Nat) (d : Date) (h : EndsYear d) :
    refDay year d * 24 + 24 = hoursOf year := by
  obtain ⟨hmonth, hday⟩ := h
  rw [refDay, hoursOf, hmonth, hday]
  by_cases hleap : IsLeap year
  · rw [if_pos hleap, if_pos ⟨by decide, hleap⟩]
    rfl
  · rw [if_neg hleap, if_neg fun hboth => hleap hboth.2]
    rfl

/-- Into March: a leap day of the reference year is passed over, one it does
not have was counted as the first of March. -/
theorem refDay_march (year : Nat) (d : Date) (h : EndsFebruary d) :
    refDay year d.next + (if IsLeap d.year then 1 else 0) =
      refDay year d + 1 + if IsLeap year then 1 else 0 := by
  obtain ⟨hmonth, hday⟩ := h
  have hlast : d.day.toNat = if IsLeap d.year then 29 else 28 := by
    rw [hday, monthLength, if_pos rfl]
    split <;> rfl
  have hnext : d.next.month = 3 ∧ d.next.day = 1 := by
    rw [Date.next, dif_neg (by rw [hday, hmonth]; exact lt_irrefl _), dif_pos (by omega)]
    exact ⟨by simp only [hmonth]; norm_num, rfl⟩
  have hmarch : DAYS_BEFORE_MONTH.getD ((3 : Int).toNat - 1) 0 = 59 := rfl
  have hfeb : DAYS_BEFORE_MONTH.getD ((2 : Int).toNat - 1) 0 = 31 := rfl
  rw [refDay, refDay, hnext.1, hnext.2, hmonth, hlast, hmarch, hfeb]
  split_ifs <;> simp_all

/-- Any other day is followed by the next. -/
theorem refDay_next (year : Nat) (d : Date) (hfeb : ¬ EndsFebruary d) (hdec : ¬ EndsYear d) :
    refDay year d.next = refDay year d + 1 := by
  have hpos := d.day_pos
  rw [Date.next]
  split
  · simp only [refDay]
    omega
  · rename_i hlast
    have hday : d.day = monthLength d.year d.month := le_antisymm d.day_le (not_lt.mp hlast)
    have hmonth : d.month ≠ 2 := fun h => hfeb ⟨h, by rw [hday, h]⟩
    split
    · rename_i hlt
      have h0 := d.month_pos
      have hsucc := monthStart_succ d.year h0 hlt hmonth
      have hnext := daysBefore_eq (by omega : 1 ≤ d.month + 1) hlt
      have htable := daysBefore_eq h0 d.month_le
      have hleap : (2 < d.month + 1 ∧ IsLeap year) = (2 < d.month ∧ IsLeap year) := by
        have : 2 < d.month + 1 ↔ 2 < d.month := by omega
        rw [this]
      simp only [refDay, hleap]
      split_ifs at htable hnext <;> omega
    · rename_i hge
      have h12 : d.month = 12 := le_antisymm d.month_le (not_lt.mp hge)
      have hlength : monthLength d.year 12 = 31 := rfl
      exact absurd ⟨h12, by rw [hday, h12, hlength]⟩ hdec

theorem fields_next {days : Int} {d : Date} (h : civilFromDays days = fields d) :
    civilFromDays (days + 1) = fields d.next := by
  obtain ⟨d', hd, hnext⟩ := consecutive_fields days
  rw [hnext, fields_injective (hd.symm.trans h)]

/-- An hour on within a day. -/
theorem hour_step {t : Int} {d : Date} (h : civilFromDays (t / 86400) = fields d) (year : Nat)
    (hhour : hourOf t ≠ 23) : referenceHour (t + 3600) year = referenceHour t year + 1 := by
  have hlt := hourOf_lt t
  rw [hourOf] at hhour hlt
  have hday : (t + 3600) / 86400 = t / 86400 := by omega
  rw [referenceHour_eq (d := d) (by rw [hday]; exact h), referenceHour_eq h, hourOf, hourOf]
  omega

/-- An hour on over midnight. -/
theorem hour_midnight {t : Int} {d : Date} (h : civilFromDays (t / 86400) = fields d) (year : Nat)
    (hhour : hourOf t = 23) :
    referenceHour (t + 3600) year = refDay year d.next * 24 ∧
      referenceHour t year = refDay year d * 24 + 23 := by
  have hnext := fields_next h
  rw [hourOf] at hhour
  have hday : t / 86400 + 1 = (t + 3600) / 86400 := by omega
  rw [hday] at hnext
  rw [referenceHour_eq hnext, referenceHour_eq h, hourOf, hourOf]
  omega

theorem hour_floor (t : Int) (year : Nat) :
    ⌊(referencePositionH t year : ℝ)⌋ = referenceHour t year := by
  have hsecs : 0 ≤ t % 86400 := Int.emod_nonneg t (by decide)
  obtain ⟨n, hn⟩ : ∃ n, referenceDayAndSecond t year = (n, t % 86400) := ⟨_, rfl⟩
  have hhour : (referenceHour t year : Int) = n * 24 + t % 86400 / 3600 := by
    rw [referenceHour, hn]
    simp only [Int.tdiv_eq_ediv_of_nonneg hsecs]
    omega
  have hlow : (t % 86400 / 3600) * 3600 ≤ t % 86400 := Int.ediv_mul_le _ (by decide)
  have hhigh : t % 86400 < (t % 86400 / 3600 + 1) * 3600 := by omega
  have hposition : (referencePositionH t year : ℝ) = (n * 24 : Nat) + (t % 86400 : Int) / 3600.0 := by
    rw [referencePositionH, hn]
    simp only [Scalar.ofInt_real]
  rw [hposition, hhour, Int.floor_eq_iff]
  have hlow' : ((t % 86400 / 3600 : Int) : ℝ) * 3600 ≤ (t % 86400 : Int) := by exact_mod_cast hlow
  have hhigh' : ((t % 86400 : Int) : ℝ) < ((t % 86400 / 3600 : Int) + 1) * 3600 := by
    exact_mod_cast hhigh
  have hdiv : ((t % 86400 : Int) : ℝ) / 3600.0 * 3600 = (t % 86400 : Int) := by
    norm_num
  push_cast
  constructor
  · linarith
  · linarith

/-- Where timestamps land in a reference year, and how they move on. -/
structure ReferenceCalendar (year : Nat) : Prop where
  floor : ∀ t, ⌊(referencePositionH t year : ℝ)⌋ = referenceHour t year
  lt : ∀ t, referenceHour t year < hoursOf year
  names : ∀ t d, civilFromDays (t / 86400) = fields d →
    (IsLeap year ∨ ¬(d.month = 2 ∧ d.day = 29)) →
      Names year (referenceHour t year) d.month d.day (hourOf t)
  leapDay : ∀ t d, civilFromDays (t / 86400) = fields d → ¬IsLeap year →
    d.month = 2 → d.day = 29 → Names year (referenceHour t year) 3 1 (hourOf t)
  last : ∀ t d, civilFromDays (t / 86400) = fields d → EndsYear d → hourOf t = 23 →
    referenceHour t year + 1 = hoursOf year
  wraps : ∀ t d, civilFromDays (t / 86400) = fields d → EndsYear d → hourOf t = 23 →
    referenceHour (t + 3600) year = 0
  skips : ∀ t d, civilFromDays (t / 86400) = fields d → EndsFebruary d → hourOf t = 23 →
    ¬IsLeap d.year → IsLeap year → referenceHour (t + 3600) year = referenceHour t year + 1 + 24
  repeats : ∀ t d, civilFromDays (t / 86400) = fields d → EndsFebruary d → hourOf t = 23 →
    IsLeap d.year → ¬IsLeap year → referenceHour (t + 3600) year + 24 = referenceHour t year + 1
  advances : ∀ t d, civilFromDays (t / 86400) = fields d →
    ¬(EndsYear d ∧ hourOf t = 23) →
    ¬(EndsFebruary d ∧ hourOf t = 23 ∧ ¬(IsLeap d.year ↔ IsLeap year)) →
      referenceHour (t + 3600) year = referenceHour t year + 1

/-- The reference calendar, for every reference year and every timestamp. -/
theorem reference_calendar (year : Nat) : ReferenceCalendar year where
  floor t := hour_floor t year
  lt t := by
    obtain ⟨d, h, -⟩ := consecutive_fields (t / 86400)
    have hlt := refDay_lt year d
    have hhour := hourOf_lt t
    rw [referenceHour_eq h]
    omega
  names t d h hday := by
    rw [referenceHour_eq h]
    exact names_day (day_le_year hday) (hourOf_lt t)
  leapDay t d h hcommon hmonth hday := by
    obtain ⟨march, hmarch⟩ : ∃ x : Date, x = ⟨year, 3, 1, by decide, by decide, by decide,
      monthLength_pos year 3⟩ := ⟨_, rfl⟩
    have hsame : refDay year d = refDay year march := by
      rw [refDay, refDay, if_neg fun hboth => hcommon hboth.2,
        if_neg fun hboth => hcommon hboth.2, hmonth, hday, hmarch]
      rfl
    have hnames := names_own (d := march) (by rw [hmarch]) (hourOf_lt t)
    rw [referenceHour_eq h, hsame]
    rwa [hmarch] at hnames ⊢
  last t d h hends hhour := by
    have hlast := refDay_lastDay year d hends
    rw [referenceHour_eq h, hhour]
    omega
  wraps t d h hends hhour := by rw [(hour_midnight h year hhour).1, refDay_newYear year d hends]
  skips t d h hends hhour hcommon hleap := by
    obtain ⟨hnext, hnow⟩ := hour_midnight h year hhour
    have hmarch := refDay_march year d hends
    rw [if_neg hcommon, if_pos hleap] at hmarch
    omega
  repeats t d h hends hhour hleap hcommon := by
    obtain ⟨hnext, hnow⟩ := hour_midnight h year hhour
    have hmarch := refDay_march year d hends
    rw [if_pos hleap, if_neg hcommon] at hmarch
    omega
  advances t d h hyear hfeb := by
    by_cases hhour : hourOf t = 23
    · obtain ⟨hnext, hnow⟩ := hour_midnight h year hhour
      have hdec : ¬EndsYear d := fun hends => hyear ⟨hends, hhour⟩
      by_cases hends : EndsFebruary d
      · have hsame : IsLeap d.year ↔ IsLeap year := by
          by_contra hne
          exact hfeb ⟨hends, hhour, hne⟩
        have hmarch := refDay_march year d hends
        simp only [hsame] at hmarch
        omega
      · have hday := refDay_next year d hends hdec
        omega
    · exact hour_step h year hhour

end BessReference
