import BessEmulator.Calendar
import BessEmulator.Gregorian
import BessEmulator.ReferenceYear

/-!
# Civil dates

The four copies of the era arithmetic are one calendar: each reads the date a
day of the era has, or its number.
-/
namespace BessCivil

open Calendar Gregorian Bess

/-- Days from the first of March of the year 0 to 1970-01-01. -/
def EPOCH : Int := 719468

/-- The fields of a date, as the functions return them. -/
def fields (d : Date) : Int × Int × Int := (d.year, d.month, d.day)

section

variable (e : EraDay)

theorem number_shift : e.number - EPOCH + 719468 = e.number := by
  rw [EPOCH]
  ring

theorem era_eq : e.number / 146097 = e.era := by
  have := e.dayOfEra_mem
  simp only [EraDay.number]
  omega

theorem dayOfEra_eq : e.number - e.era * 146097 = e.dayOfEra := by
  simp only [EraDay.number]
  ring

theorem yearOfEra_mem : 0 ≤ e.yearOfEra ∧ e.yearOfEra < 400 := by
  obtain ⟨_, c, q, y, d, ⟨_, _⟩, ⟨_, _⟩, ⟨_, _⟩, ⟨_, _⟩, _⟩ := e
  simp only [EraDay.yearOfEra]
  omega

theorem yearOfEra_tdiv :
    (e.dayOfEra - e.dayOfEra.tdiv 1460 + e.dayOfEra.tdiv 36524 - e.dayOfEra.tdiv 146096).tdiv 365 =
      e.yearOfEra := by
  have hmem := e.dayOfEra_mem
  have hyear := yearOfEra_mem e
  have heq := e.yearOfEra_eq
  rw [Int.tdiv_eq_ediv_of_nonneg hmem.1, Int.tdiv_eq_ediv_of_nonneg hmem.1,
    Int.tdiv_eq_ediv_of_nonneg hmem.1, Int.tdiv_eq_ediv_of_nonneg (by omega)]
  exact heq

theorem dayOfYear_tdiv :
    e.dayOfEra - (365 * e.yearOfEra + e.yearOfEra.tdiv 4 - e.yearOfEra.tdiv 100) = e.day := by
  have hmem := yearOfEra_mem e
  rw [Int.tdiv_eq_ediv_of_nonneg hmem.1, Int.tdiv_eq_ediv_of_nonneg hmem.1]
  exact e.dayOfYear_eq

theorem monthIndex_tdiv : (5 * e.day + 2).tdiv 153 = e.monthIndex := by
  have := e.day_mem
  rw [Int.tdiv_eq_ediv_of_nonneg (by omega), EraDay.monthIndex]

theorem dayOfMonth_tdiv :
    e.day - (153 * e.monthIndex + 2).tdiv 5 + 1 = e.dayOfMonth := by
  have := e.monthIndex_mem
  rw [Int.tdiv_eq_ediv_of_nonneg (by omega), EraDay.dayOfMonth]

theorem civilFromDays_era : civilFromDays (e.number - EPOCH) = fields e.date := by
  have hmonth : (if e.monthIndex < 10 then e.monthIndex + 3 else e.monthIndex - 9) = e.month := rfl
  have hyear : (if e.month ≤ 2 then (1 : Int) else 0) = if e.monthIndex < 10 then 0 else 1 := by
    have := e.monthIndex_mem
    have := e.month_cases
    split_ifs <;> omega
  simp only [civilFromDays, number_shift, era_eq, dayOfEra_eq, yearOfEra_tdiv, dayOfYear_tdiv,
    monthIndex_tdiv, dayOfMonth_tdiv]
  rw [hmonth, hyear]
  rfl

theorem monthDay_era :
    monthDayFromUnixDays (e.number - EPOCH) = (e.date.month.toNat, e.date.day.toNat) := by
  simp only [monthDayFromUnixDays, number_shift, era_eq, dayOfEra_eq, yearOfEra_tdiv,
    dayOfYear_tdiv, monthIndex_tdiv, dayOfMonth_tdiv]
  rfl

/-- The viewer reads the same date, and the time of day. -/
theorem civilFromUnix_era {t : Int} (h : t / 86400 = e.number - EPOCH) :
    civilFromUnix t = (asI32 e.date.year, asU32 e.date.month, asU32 e.date.day,
      asU32 (t % 86400 / 3600), asU32 (t % 86400 / 60 % 60), asU32 (t % 86400 % 60)) := by
  have hmonth : (if e.monthIndex < 10 then e.monthIndex + 3 else e.monthIndex - 9) = e.month := rfl
  have hyear : (if e.month ≤ 2 then e.yearOfEra + e.era * 400 + 1 else e.yearOfEra + e.era * 400) =
      e.yearNumber := by
    have := e.monthIndex_mem
    have := e.month_cases
    rw [EraDay.yearNumber]
    split_ifs <;> omega
  have hsecs : 0 ≤ t % 86400 := Int.emod_nonneg t (by decide)
  have hmins : 0 ≤ t % 86400 / 60 := Int.ediv_nonneg hsecs (by decide)
  simp only [civilFromUnix, h, number_shift, era_eq, dayOfEra_eq, yearOfEra_tdiv, dayOfYear_tdiv,
    monthIndex_tdiv, dayOfMonth_tdiv, hmonth, hyear, Int.tdiv_eq_ediv_of_nonneg hsecs,
    Int.tmod_eq_emod_of_nonneg hsecs, Int.tmod_eq_emod_of_nonneg hmins]
  rfl

end

/-- The terms of a date's number, era by era. -/
theorem number_era (d : Date) :
    d.marchYear / 400 * 146097 + ((d.marchYear - d.marchYear / 400 * 400) * 365
      + (d.marchYear - d.marchYear / 400 * 400) / 4 - (d.marchYear - d.marchYear / 400 * 400) / 100
      + (monthStart d.month + d.day - 1)) = d.number := by
  rw [Date.number, yearStart]
  omega

theorem daysFromCivil_date (d : Date) :
    daysFromCivil d.year d.month d.day = d.number - EPOCH := by
  have hnumber := number_era d
  have hmonth := d.month_pos
  have hyear : (if d.month ≤ 2 then d.year - 1 else d.year) = d.marchYear := rfl
  have hyoe : 0 ≤ d.marchYear - d.marchYear / 400 * 400 := by omega
  have hstart : (153 * (d.month + 9).tmod 12 + 2).tdiv 5 = monthStart d.month := by
    rw [Int.tmod_eq_emod_of_nonneg (by omega), Int.tdiv_eq_ediv_of_nonneg (by omega), monthStart]
  simp only [daysFromCivil, hyear, hstart, Int.tdiv_eq_ediv_of_nonneg hyoe, EPOCH]
  omega

/-- The viewer's era, by a division that rounds towards zero. -/
theorem tdiv_era (y : Int) : (if 0 ≤ y then y else y - 399).tdiv 400 = y / 400 := by
  split
  · exact Int.tdiv_eq_ediv_of_nonneg ‹_›
  · rw [← Int.neg_neg (y - 399), Int.neg_tdiv, Int.tdiv_eq_ediv_of_nonneg (by omega)]
    omega

/-- The viewer's timestamp is the day's and the time of day, whatever the fields. -/
theorem unixFromCivil_eq (year : Int) (month day hour minute second : Nat) :
    unixFromCivil year month day hour minute second =
      daysFromCivil year month day * 86400 + hour * 3600 + minute * 60 + second := by
  have hyear : year - (if month ≤ 2 then 1 else 0) =
      if (month : Int) ≤ 2 then year - 1 else year := by
    split_ifs <;> omega
  simp only [unixFromCivil, hyear, tdiv_era, daysFromCivil]

structure TimeOfDay where
  hour : Nat
  minute : Nat
  second : Nat
  hour_lt : hour < 24
  minute_lt : minute < 60
  second_lt : second < 60

namespace TimeOfDay

def seconds (c : TimeOfDay) : Int := c.hour * 3600 + c.minute * 60 + c.second

theorem seconds_mem (c : TimeOfDay) : 0 ≤ c.seconds ∧ c.seconds < 86400 := by
  have := c.hour_lt
  have := c.minute_lt
  have := c.second_lt
  rw [seconds]
  omega

theorem exists_seconds {n : Int} (h0 : 0 ≤ n) (h1 : n < 86400) : ∃ c : TimeOfDay, c.seconds = n := by
  refine ⟨⟨(n / 3600).toNat, (n / 60 % 60).toNat, (n % 60).toNat, ?_, ?_, ?_⟩, ?_⟩
  · omega
  · omega
  · omega
  · simp only [seconds]
    omega

end TimeOfDay

/-- A year the viewer's fields can hold. -/
def FitsI32 (year : Int) : Prop := -2147483648 ≤ year ∧ year < 2147483648

/-- A date and a time as the viewer's fields. -/
def reading (d : Date) (c : TimeOfDay) : Int × Nat × Nat × Nat × Nat × Nat :=
  (d.year, d.month.toNat, d.day.toNat, c.hour, c.minute, c.second)

/-- The timestamp of six fields. -/
def unixOf (r : Int × Nat × Nat × Nat × Nat × Nat) : Int :=
  unixFromCivil r.1 r.2.1 r.2.2.1 r.2.2.2.1 r.2.2.2.2.1 r.2.2.2.2.2

theorem asI32_of_fits {year : Int} (h : FitsI32 year) : asI32 year = year := by
  obtain ⟨hlow, hhigh⟩ := h
  rw [asI32, Int.bmod_eq_of_le (by omega) (by omega)]

theorem asU32_of_lt {n : Int} (h0 : 0 ≤ n) (h1 : n < 4294967296) : asU32 n = n.toNat := by
  rw [asU32, Int.emod_eq_of_lt h0 h1]

theorem day_le_month (d : Date) : d.day ≤ 31 := by
  have hle := d.day_le
  rw [monthLength] at hle
  split_ifs at hle <;> omega

theorem exists_fields (days : Int) :
    ∃ e : EraDay, e.number - EPOCH = days ∧ civilFromDays days = fields e.date := by
  obtain ⟨e, he⟩ := EraDay.exists_number (days + EPOCH)
  have hdays : e.number - EPOCH = days := by omega
  exact ⟨e, hdays, by rw [← hdays, civilFromDays_era]⟩

theorem civilFromDays_number (d : Date) : civilFromDays (d.number - EPOCH) = fields d := by
  have hd := EraDay.date_ofDate d
  rw [← hd, EraDay.number_date, civilFromDays_era]

theorem fields_injective {d d' : Date} (h : fields d = fields d') : d = d' := by
  simp only [fields, Prod.mk.injEq] at h
  exact Date.ext h.1 h.2.1 h.2.2

theorem number_injective {a b : Date} (h : a.number = b.number) : a = b :=
  fields_injective (by rw [← civilFromDays_number, h, civilFromDays_number])

theorem apart_iff {a b : Date} {n : Int} : a.Apart b n ↔ b.number = a.number + n := by
  constructor
  · exact Date.number_of_apart
  · intro h
    refine number_injective ?_
    rw [Date.number_iterate, Date.number_iterate, h]
    omega

/-- The day a date's fields come from. -/
theorem number_of_fields {days : Int} {d : Date} (h : civilFromDays days = fields d) :
    d.number - EPOCH = days := by
  obtain ⟨e, hdays, he⟩ := exists_fields days
  have hd : e.date = d := fields_injective (he.symm.trans h)
  rw [← hd, EraDay.number_date, hdays]

/-- The next day is the next date. -/
theorem consecutive_fields (days : Int) : ∃ d : Date, civilFromDays days = fields d ∧
    civilFromDays (days + 1) = fields d.next := by
  obtain ⟨e, hdays, he⟩ := exists_fields days
  have hnext := Date.number_next e.date
  rw [EraDay.number_date] at hnext
  refine ⟨e.date, he, ?_⟩
  rw [← civilFromDays_number, hnext, ← hdays]
  congr 1
  ring

theorem monthDay_of_fields {days : Int} {d : Date} (h : civilFromDays days = fields d) :
    monthDayFromUnixDays days = (d.month.toNat, d.day.toNat) := by
  have hd := EraDay.date_ofDate d
  rw [← number_of_fields h, ← hd, EraDay.number_date, monthDay_era]

theorem civilFromUnix_reading {d : Date} {c : TimeOfDay} (hyear : FitsI32 d.year) {t : Int}
    (hday : t / 86400 = d.number - EPOCH) (htime : t % 86400 = c.seconds) :
    civilFromUnix t = reading d c := by
  have hd := EraDay.date_ofDate d
  have hera : t / 86400 = (EraDay.ofDate d).number - EPOCH := by
    rw [hday, ← EraDay.number_date, hd]
  have hm0 := d.month_pos
  have hm1 := d.month_le
  have hd0 := d.day_pos
  have hd1 := day_le_month d
  have hc := c.seconds_mem
  have hh := c.hour_lt
  have hmin := c.minute_lt
  have hs := c.second_lt
  rw [civilFromUnix_era _ hera, hd, htime, asI32_of_fits hyear, asU32_of_lt (by omega) (by omega),
    asU32_of_lt (by omega) (by omega), asU32_of_lt (by omega) (by omega),
    asU32_of_lt (by omega) (by omega), asU32_of_lt (by omega) (by omega)]
  rw [TimeOfDay.seconds] at *
  simp only [reading, Prod.mk.injEq, true_and]
  omega

theorem unixOf_reading (d : Date) (c : TimeOfDay) :
    unixOf (reading d c) = (d.number - EPOCH) * 86400 + c.seconds := by
  have hm : (d.month.toNat : Int) = d.month := Int.toNat_of_nonneg (by have := d.month_pos; omega)
  have hd : (d.day.toNat : Int) = d.day := Int.toNat_of_nonneg (by have := d.day_pos; omega)
  simp only [unixOf, reading]
  rw [unixFromCivil_eq, hm, hd, daysFromCivil_date, TimeOfDay.seconds]
  ring

/-- What the four copies agree on. -/
structure OneCalendar : Prop where
  epoch : civilFromDays 0 = (1970, 1, 1)
  consecutive : ∀ days, ∃ d : Date, civilFromDays days = fields d ∧
    civilFromDays (days + 1) = fields d.next
  fromDays : ∀ days year month day, civilFromDays days = (year, month, day) →
    daysFromCivil year month day = days
  fromDate : ∀ d : Date, civilFromDays (daysFromCivil d.year d.month d.day) = fields d
  monthDay : ∀ days d, civilFromDays days = fields d →
    monthDayFromUnixDays days = (d.month.toNat, d.day.toNat)
  viewer : ∀ t d, civilFromDays (t / 86400) = fields d → FitsI32 d.year →
    ∃ c : TimeOfDay, c.seconds = t % 86400 ∧ civilFromUnix t = reading d c
  viewerDays : ∀ d c, unixOf (reading d c) = daysFromCivil d.year d.month d.day * 86400 + c.seconds
  viewerUnix : ∀ t d, civilFromDays (t / 86400) = fields d → FitsI32 d.year →
    unixOf (civilFromUnix t) = t
  viewerCivil : ∀ d c, FitsI32 d.year → civilFromUnix (unixOf (reading d c)) = reading d c

/-- Every copy of the calendar takes a day count to its date and back, and the copies agree. -/
theorem one_calendar : OneCalendar where
  epoch := by decide
  consecutive := consecutive_fields
  fromDays days year month day h := by
    obtain ⟨e, hdays, he⟩ := exists_fields days
    have hparts := h.symm.trans he
    simp only [fields, Prod.mk.injEq] at hparts
    obtain ⟨rfl, rfl, rfl⟩ := hparts
    rw [daysFromCivil_date, EraDay.number_date, hdays]
  fromDate d := by rw [daysFromCivil_date, civilFromDays_number]
  monthDay _ _ h := monthDay_of_fields h
  viewer t d h hyear := by
    obtain ⟨c, hc⟩ := TimeOfDay.exists_seconds (Int.emod_nonneg t (by decide))
      (Int.emod_lt_of_pos t (by decide))
    exact ⟨c, hc, civilFromUnix_reading hyear (number_of_fields h).symm hc.symm⟩
  viewerDays d c := by rw [unixOf_reading, daysFromCivil_date]
  viewerUnix t d h hyear := by
    obtain ⟨c, hc⟩ := TimeOfDay.exists_seconds (Int.emod_nonneg t (by decide))
      (Int.emod_lt_of_pos t (by decide))
    rw [civilFromUnix_reading hyear (number_of_fields h).symm hc.symm, unixOf_reading,
      number_of_fields h, hc]
    omega
  viewerCivil d c hyear := by
    have hc := c.seconds_mem
    have hunix := unixOf_reading d c
    exact civilFromUnix_reading hyear (by omega) (by omega)

end BessCivil
