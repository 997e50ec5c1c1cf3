import BessEmulator.CivilDates

/-!
# Date fields that roll over

A month past December is one of a later year, and a day past its month's end
one of a later month. The viewer's timestamp puts its month into the March-based
year by one comparison, so it carries January and February of the next year and
nothing after.
-/
namespace BessCivil

open Calendar Gregorian

/-- The year a month falls in, counted on past December. -/
def rolledYear (year : Int) (month : Nat) : Int := year + ((month : Int) - 1) / 12

/-- The month of that year. -/
def rolledMonth (month : Nat) : Int := ((month : Int) - 1) % 12 + 1

theorem rolledMonth_mem (month : Nat) : 1 ≤ rolledMonth month ∧ rolledMonth month ≤ 12 := by
  rw [rolledMonth]
  omega

/-- The first of a month. -/
def firstOfMonth (year : Int) (month : Nat) : Date where
  year := rolledYear year month
  month := rolledMonth month
  day := 1
  month_pos := (rolledMonth_mem month).1
  month_le := (rolledMonth_mem month).2
  day_pos := Int.le_refl 1
  day_le := monthLength_pos _ _

/-- How many days it has. -/
def rolledLength (year : Int) (month : Nat) : Int :=
  monthLength (rolledYear year month) (rolledMonth month)

/-- Twelve months on is the next year's month. -/
def MonthsRoll (year : Int) (month day hour minute second : Nat) : Prop :=
  unixFromCivil year (month + 12) day hour minute second =
    unixFromCivil (year + 1) month day hour minute second

/-- A day past the month's end is the following month's. -/
def DaysRoll (year : Int) (month day hour minute second : Nat) : Prop :=
  rolledLength year month < day →
    unixFromCivil year month day hour minute second =
      unixFromCivil (rolledYear year (month + 1)) (rolledMonth (month + 1)).toNat
        (day - (rolledLength year month).toNat) hour minute second

/-- The timestamp is that of the date so many days after the first of the month. -/
def DateRolls (year : Int) (month day hour minute second : Nat) : Prop :=
  ∃ d : Date, (firstOfMonth year month).Apart d ((day : Int) - 1) ∧
    unixFromCivil year month day hour minute second =
      (d.number - EPOCH) * 86400 + hour * 3600 + minute * 60 + second

theorem yearStart_lt {a b : Int} (h : a < b) : yearStart a < yearStart b := by
  rw [yearStart, yearStart]
  omega

theorem yearStart_inj {a b : Int} : yearStart a = yearStart b ↔ a = b := by
  constructor
  · intro h
    obtain hlt | heq | hgt := lt_trichotomy a b
    · have := yearStart_lt hlt
      omega
    · exact heq
    · have := yearStart_lt hgt
      omega
  · exact congrArg yearStart

/-- The March-based year the viewer puts a month into. -/
def marchYear (year : Int) (month : Nat) : Int := if (month : Int) ≤ 2 then year - 1 else year

/-- The day of a month, wherever the viewer puts it. -/
theorem daysFromCivil_eq (year : Int) (month day : Nat) :
    daysFromCivil year month day =
      yearStart (marchYear year month) + monthStart month + day - 1 - EPOCH := by
  have hyear : (if (month : Int) ≤ 2 then year - 1 else year) = marchYear year month := rfl
  have hstart : (153 * ((month : Int) + 9).tmod 12 + 2).tdiv 5 = monthStart month := by
    rw [Int.tmod_eq_emod_of_nonneg (by omega), Int.tdiv_eq_ediv_of_nonneg (by omega), monthStart]
  have hyoe : 0 ≤ marchYear year month - marchYear year month / 400 * 400 := by omega
  simp only [daysFromCivil, hyear, hstart, Int.tdiv_eq_ediv_of_nonneg hyoe, yearStart, EPOCH]
  omega

/-- The first of a month stands in the March-based year its January's month count gives. -/
theorem number_firstOfMonth (year : Int) (month : Nat) :
    (firstOfMonth year month).number = yearStart (year + ((month : Int) - 3) / 12) + monthStart month := by
  have hyear : (firstOfMonth year month).marchYear = year + ((month : Int) - 3) / 12 := by
    simp only [Date.marchYear, firstOfMonth, rolledYear, rolledMonth]
    split_ifs <;> omega
  have hmonth : monthStart (firstOfMonth year month).month = monthStart month := by
    simp only [monthStart, firstOfMonth, rolledMonth]
    congr 3
    omega
  have hday : (firstOfMonth year month).day = 1 := rfl
  rw [Date.number, hyear, hmonth, hday]
  ring

/-- The two years agree up to the February of the next. -/
theorem marchYear_rolled (year : Int) {month : Nat} (h : 1 ≤ month) :
    marchYear year month = year + ((month : Int) - 3) / 12 ↔ month ≤ 14 := by
  rw [marchYear]
  split_ifs <;> omega

/-- The last of a month. -/
def lastOfMonth (year : Int) (month : Nat) : Date where
  year := rolledYear year month
  month := rolledMonth month
  day := rolledLength year month
  month_pos := (rolledMonth_mem month).1
  month_le := (rolledMonth_mem month).2
  day_pos := monthLength_pos _ _
  day_le := Int.le_refl _

theorem next_lastOfMonth (year : Int) (month : Nat) :
    (lastOfMonth year month).next = firstOfMonth year (month + 1) := by
  have hday : ¬(lastOfMonth year month).day < monthLength (lastOfMonth year month).year
      (lastOfMonth year month).month := lt_irrefl (rolledLength year month)
  rw [Date.next, dif_neg hday]
  split
  · rename_i hmonth
    simp only [lastOfMonth, rolledMonth] at hmonth
    refine Date.ext ?_ ?_ rfl
    · simp only [lastOfMonth, firstOfMonth, rolledYear]
      omega
    · simp only [lastOfMonth, firstOfMonth, rolledMonth]
      omega
  · rename_i hmonth
    simp only [lastOfMonth, rolledMonth] at hmonth
    refine Date.ext ?_ ?_ rfl
    · simp only [lastOfMonth, firstOfMonth, newYear, rolledYear]
      omega
    · simp only [firstOfMonth, newYear, rolledMonth]
      omega

/-- The next month starts where this one ends. -/
theorem number_nextMonth (year : Int) (month : Nat) :
    (firstOfMonth year (month + 1)).number =
      (firstOfMonth year month).number + rolledLength year month := by
  have hnext := Date.number_next (lastOfMonth year month)
  have hlast : (lastOfMonth year month).number + 1 =
      (firstOfMonth year month).number + rolledLength year month := by
    have hmarch : (lastOfMonth year month).marchYear = (firstOfMonth year month).marchYear := rfl
    have hmonth : (lastOfMonth year month).month = (firstOfMonth year month).month := rfl
    have hday : (lastOfMonth year month).day = rolledLength year month := rfl
    have hfirst : (firstOfMonth year month).day = 1 := rfl
    rw [Date.number, Date.number, hmarch, hmonth, hday, hfirst]
    ring
  rw [← next_lastOfMonth, hnext, hlast]

/-- How far from the date it should be the viewer puts a month. -/
def slip (year : Int) (month : Nat) : Int :=
  yearStart (marchYear year month) - yearStart (year + ((month : Int) - 3) / 12)

theorem slip_eq_zero (year : Int) {month : Nat} (h : 1 ≤ month) : slip year month = 0 ↔ month ≤ 14 := by
  rw [slip, sub_eq_zero, yearStart_inj, marchYear_rolled year h]

theorem unixFromCivil_slip (year : Int) (month day hour minute second : Nat) :
    unixFromCivil year month day hour minute second =
      ((firstOfMonth year month).number - EPOCH + (day - 1) + slip year month) * 86400 +
        hour * 3600 + minute * 60 + second := by
  rw [unixFromCivil_eq, daysFromCivil_eq, number_firstOfMonth, slip]
  ring

theorem dateRolls_iff (year : Int) {month : Nat} (h : 1 ≤ month) (day hour minute second : Nat) :
    DateRolls year month day hour minute second ↔ month ≤ 14 := by
  rw [← slip_eq_zero year h, DateRolls, unixFromCivil_slip]
  constructor
  · rintro ⟨d, happart, hunix⟩
    have hnumber := Date.number_of_apart happart
    omega
  · intro hslip
    obtain ⟨d, hd⟩ := EraDay.exists_number ((firstOfMonth year month).number + (day - 1))
    have hnumber : d.date.number = (firstOfMonth year month).number + (day - 1) := by
      rw [EraDay.number_date, hd]
    refine ⟨d.date, apart_iff.mpr hnumber, ?_⟩
    rw [hnumber, hslip]
    ring

theorem daysRoll_iff (year : Int) {month day : Nat} (h : 1 ≤ month)
    (hpast : rolledLength year month < day) (hour minute second : Nat) :
    DaysRoll year month day hour minute second ↔ month ≤ 14 := by
  have hrange := rolledMonth_mem (month + 1)
  have hmonth : 1 ≤ (rolledMonth (month + 1)).toNat := by omega
  have hlength : 1 ≤ rolledLength year month := monthLength_pos _ _
  -- the following month is named by its own year, so it is where it should be
  have hslip : slip (rolledYear year (month + 1)) (rolledMonth (month + 1)).toNat = 0 :=
    (slip_eq_zero _ hmonth).mpr (by omega)
  have hfirst : firstOfMonth (rolledYear year (month + 1)) (rolledMonth (month + 1)).toNat =
      firstOfMonth year (month + 1) := by
    refine Date.ext ?_ ?_ rfl
    · simp only [firstOfMonth, rolledYear] at *
      omega
    · simp only [firstOfMonth, rolledMonth] at *
      omega
  have hnext := number_nextMonth year month
  rw [← slip_eq_zero year h, DaysRoll, unixFromCivil_slip, unixFromCivil_slip, hslip,
    hfirst, hnext]
  constructor
  · intro hroll
    have := hroll hpast
    omega
  · intro hslip _
    rw [hslip]
    omega

theorem monthsRoll_iff (year : Int) {month : Nat} (h : 1 ≤ month) (day hour minute second : Nat) :
    MonthsRoll year month day hour minute second ↔ month ≤ 2 := by
  have hmarch : marchYear year (month + 12) = marchYear (year + 1) month ↔ month ≤ 2 := by
    rw [marchYear, marchYear]
    push_cast
    split_ifs <;> omega
  have hmonth : monthStart ((month + 12 : Nat) : Int) = monthStart month := by
    rw [monthStart, monthStart]
    omega
  rw [← hmarch, ← yearStart_inj, MonthsRoll, unixFromCivil_eq, unixFromCivil_eq, daysFromCivil_eq,
    daysFromCivil_eq, hmonth]
  omega

/-- What the clock's notes say of its six fields. -/
structure RollsOver (year : Int) (month day hour minute second : Nat) : Prop where
  months : MonthsRoll year month day hour minute second
  days : DaysRoll year month day hour minute second
  date : DateRolls year month day hour minute second

/-- March of the next year, asked for as month 15, is this year's. -/
theorem fifteenth_month_stays : ¬MonthsRoll 2026 3 1 0 0 0 ∧
    unixFromCivil 2026 15 1 0 0 0 = unixFromCivil 2026 3 1 0 0 0 := by
  constructor
  · rw [MonthsRoll]
    decide
  · decide

/-- Months roll over up to the February of the next year, and days with them. -/
theorem date_fields_roll (year : Int) (month day hour minute second : Nat) (h : 1 ≤ month) :
    (RollsOver year month day hour minute second ↔ month ≤ 2) ∧
      (MonthsRoll year month day hour minute second ↔ month + 12 ≤ 14) ∧
      (rolledLength year month < day → (DaysRoll year month day hour minute second ↔ month ≤ 14)) ∧
      (DateRolls year month day hour minute second ↔ month ≤ 14) := by
  have hmonths := monthsRoll_iff year h day hour minute second
  have hdate := dateRolls_iff year h day hour minute second
  have hdays : rolledLength year month < day →
      (DaysRoll year month day hour minute second ↔ month ≤ 14) :=
    fun hpast => daysRoll_iff year h hpast hour minute second
  refine ⟨⟨fun hrolls => hmonths.mp hrolls.months, fun hle => ⟨hmonths.mpr hle, fun hpast => ?_, ?_⟩⟩,
    ?_, hdays, hdate⟩
  · exact (hdays hpast).mpr (by omega) hpast
  · exact hdate.mpr (by omega)
  · rw [hmonths]
    omega

/-- 30 February at six is 2 March at six, and as month 14 it is the next year's; 32 March runs over
into April, though as month 15 it is still this year's. -/
theorem date_fields_roll_february :
    RollsOver 2026 2 30 6 0 0 ∧ DaysRoll 2026 3 32 0 0 0 ∧ DateRolls 2026 3 32 0 0 0 ∧
      ¬MonthsRoll 2026 3 32 0 0 0 := by
  obtain ⟨hfebruary, -⟩ := date_fields_roll 2026 2 30 6 0 0 (by decide)
  obtain ⟨-, hmonths, hdays, hdate⟩ := date_fields_roll 2026 3 32 0 0 0 (by decide)
  exact ⟨hfebruary.mpr (by decide), (hdays (by decide)).mpr (by decide), hdate.mpr (by decide),
    fun h => absurd (hmonths.mp h) (by decide)⟩

end BessCivil
