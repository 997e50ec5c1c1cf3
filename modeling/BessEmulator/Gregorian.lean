import Mathlib.Tactic

/-!
# The proleptic Gregorian calendar

Dates carry their own validity and have a successor; each has a number, the
days since the first of March of the year 0. A day of the era, counted by
centuries, four-year cycles and years that start in March, is a date and a
number at once.
-/
namespace Gregorian

def IsLeap (year : Int) : Prop := year % 4 = 0 ∧ (year % 100 = 0 → year % 400 = 0)

instance : DecidablePred IsLeap := fun year =>
  inferInstanceAs (Decidable (year % 4 = 0 ∧ (year % 100 = 0 → year % 400 = 0)))

def monthLength (year month : Int) : Int :=
  if month = 2 then (if IsLeap year then 29 else 28)
  else if month = 4 ∨ month = 6 ∨ month = 9 ∨ month = 11 then 30
  else 31

@[ext] structure Date where
  year : Int
  month : Int
  day : Int
  month_pos : 1 ≤ month
  month_le : month ≤ 12
  day_pos : 1 ≤ day
  day_le : day ≤ monthLength year month

theorem monthLength_pos (year month : Int) : 1 ≤ monthLength year month := by
  rw [monthLength]
  split_ifs <;> decide

/-- The first of January. -/
def newYear (year : Int) : Date :=
  ⟨year, 1, 1, le_refl 1, by decide, le_refl 1, monthLength_pos year 1⟩

namespace Date

/-- The date of the day after. -/
def next (d : Date) : Date :=
  if hday : d.day < monthLength d.year d.month then
    ⟨d.year, d.month, d.day + 1, d.month_pos, d.month_le, by have := d.day_pos; omega, hday⟩
  else if hmonth : d.month < 12 then
    ⟨d.year, d.month + 1, 1, by have := d.month_pos; omega, hmonth, le_refl 1, monthLength_pos _ _⟩
  else newYear (d.year + 1)

end Date

/-- The day the year that starts in March starts on. -/
def yearStart (year : Int) : Int := 365 * year + year / 4 - year / 100 + year / 400

/-- The day of that year a month starts on. -/
def monthStart (month : Int) : Int := (153 * ((month + 9) % 12) + 2) / 5

/-- A month other than February ends where the next of the year would start. -/
theorem month_end (year : Int) {month : Int} (h0 : 1 ≤ month) (h1 : month ≤ 12) (hfeb : month ≠ 2) :
    monthStart month + monthLength year month = (153 * ((month + 9) % 12 + 1) + 2) / 5 := by
  have hcases : month = 1 ∨ month = 3 ∨ month = 4 ∨ month = 5 ∨ month = 6 ∨ month = 7 ∨
      month = 8 ∨ month = 9 ∨ month = 10 ∨ month = 11 ∨ month = 12 := by omega
  rcases hcases with rfl | rfl | rfl | rfl | rfl | rfl | rfl | rfl | rfl | rfl | rfl <;> rfl

/-- Within the year that starts in March, months follow each other by their lengths. -/
theorem monthStart_succ (year : Int) {month : Int} (h0 : 1 ≤ month) (h1 : month < 12)
    (hfeb : month ≠ 2) : monthStart (month + 1) = monthStart month + monthLength year month := by
  have hshift : (month + 1 + 9) % 12 = (month + 9) % 12 + 1 := by omega
  rw [month_end year h0 h1.le hfeb, monthStart, hshift]

/-- The end of February is the end of the year. -/
theorem yearStart_succ (year : Int) :
    yearStart year = yearStart (year - 1) + monthStart 2 + monthLength year 2 := by
  have hfeb : monthStart 2 = 337 := rfl
  rw [hfeb, yearStart, yearStart, monthLength, if_pos rfl]
  split
  · rename_i h
    obtain ⟨h4, h400⟩ := h
    omega
  · rename_i h
    rw [IsLeap, Decidable.not_and_iff_not_or_not, Classical.not_imp] at h
    omega

namespace Date

/-- The year a date falls in where years start in March. -/
def marchYear (d : Date) : Int := if d.month ≤ 2 then d.year - 1 else d.year

/-- Days since the first of March of the year 0. -/
def number (d : Date) : Int := yearStart d.marchYear + monthStart d.month + d.day - 1

/-- The day of the year that starts in March. -/
def marchDay (d : Date) : Int := monthStart d.month + d.day - 1

theorem monthStart_le (d : Date) : monthStart d.month ≤ d.marchDay := by
  have := d.day_pos
  rw [marchDay]
  omega

theorem february_le (d : Date) (hfeb : d.month = 2) : d.day ≤ 29 := by
  have hle := d.day_le
  rw [hfeb, monthLength, if_pos rfl] at hle
  split at hle <;> omega

theorem marchDay_lt (d : Date) : d.marchDay < (153 * ((d.month + 9) % 12 + 1) + 2) / 5 := by
  have h0 := d.month_pos
  have h1 := d.month_le
  have hle := d.day_le
  rw [marchDay]
  by_cases hfeb : d.month = 2
  · have hstart : monthStart 2 = 337 := rfl
    have hlast := d.february_le hfeb
    rw [hfeb, hstart]
    omega
  · rw [← month_end d.year h0 h1 hfeb]
    omega

theorem marchDay_le (d : Date) : d.marchDay ≤ 365 := by
  have h0 := d.month_pos
  have h1 := d.month_le
  have hlt := d.marchDay_lt
  by_cases hfeb : d.month = 2
  · have hstart : monthStart 2 = 337 := rfl
    have hlast := d.february_le hfeb
    rw [marchDay, hfeb, hstart]
    omega
  · omega

/-- Only a leap day is the last of its year. -/
theorem marchDay_last (d : Date) (h : d.marchDay = 365) : IsLeap (d.marchYear + 1) := by
  have h0 := d.month_pos
  have h1 := d.month_le
  have hlt := d.marchDay_lt
  have hle := d.day_le
  have hfeb : d.month = 2 := by omega
  have hstart : monthStart 2 = 337 := rfl
  have hday : d.day = 29 := by
    rw [marchDay, hfeb, hstart] at h
    omega
  have hyear : d.marchYear + 1 = d.year := by
    rw [marchYear, hfeb]
    norm_num
  rw [hyear]
  by_contra hcommon
  rw [hfeb, hday, monthLength, if_pos rfl, if_neg hcommon] at hle
  omega

/-- Numbers follow the days. -/
theorem number_next (d : Date) : d.next.number = d.number + 1 := by
  rw [next]
  split
  · simp only [number, marchYear]
    ring
  · rename_i hday
    have hlast : d.day = monthLength d.year d.month := le_antisymm d.day_le (not_lt.mp hday)
    split
    · rename_i hmonth
      by_cases hfeb : d.month = 2
      · have hyear := yearStart_succ d.year
        have hmarch : monthStart 3 = 0 := rfl
        simp only [number, marchYear, hlast, hfeb]
        norm_num [hmarch]
        omega
      · have hsucc := monthStart_succ d.year d.month_pos hmonth hfeb
        have hyear : d.month + 1 ≤ 2 ↔ d.month ≤ 2 := by omega
        simp only [number, marchYear, hlast, hsucc, hyear]
        ring
    · rename_i hmonth
      have hdec : d.month = 12 := le_antisymm d.month_le (not_lt.mp hmonth)
      have hstart : monthStart 1 = monthStart 12 + 31 := rfl
      have hlength : monthLength d.year 12 = 31 := rfl
      simp only [number, marchYear, hlast, hdec, hstart, hlength, newYear]
      norm_num
      ring

/-- So many days lie between two dates, counted one by one. -/
def Apart (a b : Date) (n : Int) : Prop := next^[n.toNat] a = next^[(-n).toNat] b

theorem number_iterate (d : Date) (n : Nat) : (next^[n] d).number = d.number + n := by
  induction n with
  | zero => simp
  | succ n ih =>
    rw [Function.iterate_succ_apply', number_next, ih]
    push_cast
    ring

theorem number_of_apart {a b : Date} {n : Int} (h : a.Apart b n) : b.number = a.number + n := by
  have hnumber := congrArg number h
  rw [number_iterate, number_iterate] at hnumber
  omega

end Date

/-- A day of the calendar by its era of four centuries: the century, the
four-year cycle in it, the year in that, which starts in March, and the day of
the year. The last day of a year is there only when a leap day ends it. -/
structure EraDay where
  era : Int
  century : Int
  cycle : Int
  year : Int
  day : Int
  century_mem : 0 ≤ century ∧ century < 4
  cycle_mem : 0 ≤ cycle ∧ cycle < 25
  year_mem : 0 ≤ year ∧ year < 4
  day_mem : 0 ≤ day ∧ day ≤ 365
  leap : day = 365 → year = 3 ∧ (cycle = 24 → century = 3)

namespace EraDay

def yearOfEra (e : EraDay) : Int := 100 * e.century + 4 * e.cycle + e.year

def dayOfEra (e : EraDay) : Int := 36524 * e.century + 1461 * e.cycle + 365 * e.year + e.day

def number (e : EraDay) : Int := e.era * 146097 + e.dayOfEra

/-- Months from March on. -/
def monthIndex (e : EraDay) : Int := (5 * e.day + 2) / 153

theorem dayOfEra_mem (e : EraDay) : 0 ≤ e.dayOfEra ∧ e.dayOfEra < 146097 := by
  obtain ⟨_, c, q, y, d, ⟨_, _⟩, ⟨_, _⟩, ⟨_, _⟩, ⟨_, _⟩, _⟩ := e
  simp only [dayOfEra]
  omega

theorem monthIndex_mem (e : EraDay) : 0 ≤ e.monthIndex ∧ e.monthIndex ≤ 11 := by
  have := e.day_mem
  simp only [monthIndex]
  omega

/-- The year of the era from its day: a cycle is a day longer than four common
years, a century a day shorter than its cycles. -/
theorem yearOfEra_eq (e : EraDay) :
    (e.dayOfEra - e.dayOfEra / 1460 + e.dayOfEra / 36524 - e.dayOfEra / 146096) / 365 =
      e.yearOfEra := by
  obtain ⟨_, c, q, y, d, ⟨_, _⟩, ⟨_, _⟩, ⟨_, _⟩, ⟨_, _⟩, _⟩ := e
  simp only [dayOfEra, yearOfEra]
  by_cases hlast : d = 365 ∧ q = 24
  · -- the last day of the era
    have hc : c = 3 := by omega
    have hy : y = 3 := by omega
    obtain ⟨rfl, rfl⟩ := hlast
    subst hc hy
    norm_num
  · have hcentury : (36524 * c + 1461 * q + 365 * y + d) / 36524 = c := by omega
    have hera : (36524 * c + 1461 * q + 365 * y + d) / 146096 = 0 := by omega
    rw [hcentury, hera]
    by_cases hover : 1460 ≤ 24 * c + q + 365 * y + d
    · have hcycle : (36524 * c + 1461 * q + 365 * y + d) / 1460 = 25 * c + q + 1 := by omega
      rw [hcycle]
      omega
    · have hcycle : (36524 * c + 1461 * q + 365 * y + d) / 1460 = 25 * c + q := by omega
      rw [hcycle]
      omega

theorem dayOfYear_eq (e : EraDay) :
    e.dayOfEra - (365 * e.yearOfEra + e.yearOfEra / 4 - e.yearOfEra / 100) = e.day := by
  obtain ⟨_, c, q, y, d, ⟨_, _⟩, ⟨_, _⟩, ⟨_, _⟩, ⟨_, _⟩, _⟩ := e
  simp only [dayOfEra, yearOfEra]
  omega

/-- Every number is of a day of some era. -/
theorem exists_number (z : Int) : ∃ e : EraDay, e.number = z := by
  obtain ⟨n, hn⟩ : ∃ n, n = z % 146097 := ⟨_, rfl⟩
  obtain ⟨c, hc⟩ : ∃ c, c = min (n / 36524) 3 := ⟨_, rfl⟩
  obtain ⟨q, hq⟩ : ∃ q, q = (n - 36524 * c) / 1461 := ⟨_, rfl⟩
  obtain ⟨y, hy⟩ : ∃ y, y = min ((n - 36524 * c - 1461 * q) / 365) 3 := ⟨_, rfl⟩
  refine ⟨⟨z / 146097, c, q, y, n - 36524 * c - 1461 * q - 365 * y, ?_, ?_, ?_, ?_, ?_⟩, ?_⟩
  · omega
  · omega
  · omega
  · omega
  · omega
  · simp only [number, dayOfEra]
    omega

def yearNumber (e : EraDay) : Int := e.yearOfEra + e.era * 400 + if e.monthIndex < 10 then 0 else 1

def month (e : EraDay) : Int := if e.monthIndex < 10 then e.monthIndex + 3 else e.monthIndex - 9

def dayOfMonth (e : EraDay) : Int := e.day - (153 * e.monthIndex + 2) / 5 + 1

theorem month_cases (e : EraDay) :
    e.monthIndex < 10 ∧ e.month = e.monthIndex + 3 ∨
      10 ≤ e.monthIndex ∧ e.month = e.monthIndex - 9 := by
  rw [month]
  split
  · exact .inl ⟨‹_›, rfl⟩
  · exact .inr ⟨not_lt.mp ‹_›, rfl⟩

theorem monthStart_month (e : EraDay) : monthStart e.month = (153 * e.monthIndex + 2) / 5 := by
  have hmem := e.monthIndex_mem
  have hmonth : (e.month + 9) % 12 = e.monthIndex := by
    rcases e.month_cases with h | h <;> omega
  rw [monthStart, hmonth]

/-- The next month starts later. -/
theorem day_lt (e : EraDay) : e.day < (153 * (e.monthIndex + 1) + 2) / 5 := by
  simp only [monthIndex]
  omega

/-- A year with a last day ends in the February of a leap year. -/
theorem isLeap_of_day (e : EraDay) (h : e.day = 365) : IsLeap (e.yearOfEra + e.era * 400 + 1) := by
  have hc := e.century_mem
  have hq := e.cycle_mem
  have hleap := e.leap h
  simp only [IsLeap, yearOfEra]
  omega

theorem dayOfMonth_le (e : EraDay) : e.dayOfMonth ≤ monthLength e.yearNumber e.month := by
  have hmem := e.monthIndex_mem
  have hlt := e.day_lt
  have hcases := e.month_cases
  rw [dayOfMonth]
  by_cases hfeb : e.month = 2
  · have hidx : e.monthIndex = 11 := by omega
    have hyear : e.yearNumber = e.yearOfEra + e.era * 400 + 1 := by
      rw [yearNumber, hidx]
      norm_num
    have hday := e.day_mem
    have hleap := e.isLeap_of_day
    rw [hfeb, hyear, monthLength, if_pos rfl, hidx]
    split
    · omega
    · rename_i hcommon
      have hlast : e.day ≠ 365 := fun h => hcommon (hleap h)
      omega
  · have hindex : (e.month + 9) % 12 = e.monthIndex := by omega
    have hend := month_end e.yearNumber (by omega : 1 ≤ e.month) (by omega) hfeb
    rw [hindex, e.monthStart_month] at hend
    omega

def date (e : EraDay) : Date where
  year := e.yearNumber
  month := e.month
  day := e.dayOfMonth
  month_pos := by have := e.monthIndex_mem; have := e.month_cases; omega
  month_le := by have := e.monthIndex_mem; have := e.month_cases; omega
  day_pos := by have := e.day_mem; simp only [dayOfMonth, monthIndex]; omega
  day_le := e.dayOfMonth_le

theorem marchYear_date (e : EraDay) : e.date.marchYear = e.yearOfEra + e.era * 400 := by
  have := e.monthIndex_mem
  simp only [Date.marchYear, date, yearNumber, month]
  split_ifs <;> omega

theorem monthStart_date (e : EraDay) : monthStart e.date.month + e.date.day - 1 = e.day := by
  change monthStart e.month + e.dayOfMonth - 1 = e.day
  rw [e.monthStart_month, dayOfMonth]
  ring

theorem number_date (e : EraDay) : e.date.number = e.number := by
  have hday := e.monthStart_date
  rw [Date.number, marchYear_date, yearStart]
  obtain ⟨_, c, q, y, d, ⟨_, _⟩, ⟨_, _⟩, ⟨_, _⟩, ⟨_, _⟩, _⟩ := e
  simp only [number, dayOfEra, yearOfEra] at *
  omega

/-- The day of the era of a date. -/
def ofDate (d : Date) : EraDay where
  era := d.marchYear / 400
  century := d.marchYear % 400 / 100
  cycle := d.marchYear % 400 % 100 / 4
  year := d.marchYear % 400 % 4
  day := d.marchDay
  century_mem := by omega
  cycle_mem := by omega
  year_mem := by omega
  day_mem := by
    have hlow := d.monthStart_le
    have hle := d.marchDay_le
    rw [monthStart] at hlow
    omega
  leap := fun h => by
    have hleap := d.marchDay_last h
    rw [IsLeap] at hleap
    omega

theorem date_ofDate (d : Date) : (ofDate d).date = d := by
  have h0 := d.month_pos
  have h1 := d.month_le
  have hlow := d.monthStart_le
  have hlt := d.marchDay_lt
  have hidx : (ofDate d).monthIndex = (d.month + 9) % 12 := by
    change (5 * d.marchDay + 2) / 153 = _
    rw [monthStart] at hlow
    omega
  have hyear : (ofDate d).yearOfEra + (ofDate d).era * 400 = d.marchYear := by
    simp only [yearOfEra, ofDate]
    omega
  apply Date.ext
  · change (ofDate d).yearNumber = d.year
    rw [yearNumber, hyear, hidx, Date.marchYear]
    split_ifs <;> omega
  · change (ofDate d).month = d.month
    rw [month, hidx]
    split_ifs <;> omega
  · change d.marchDay - (153 * (ofDate d).monthIndex + 2) / 5 + 1 = d.day
    rw [hidx, Date.marchDay, monthStart]
    omega

end EraDay

end Gregorian
