import BessEmulator.Scalar

/-!
# Where an instant lands in a reference year

A timestamp keeps its month, day and time of day and borrows the reference
year's calendar. The quotients round towards zero, those of `div_euclid`
towards minus infinity.
-/
namespace Bess

/-- Days elapsed before the first of each month in a common year. -/
def DAYS_BEFORE_MONTH : List Nat := [0, 31, 59, 90, 120, 151, 181, 212, 243, 273, 304, 334]

def isLeapYear (year : Nat) : Bool := year % 4 = 0 && (!(year % 100 = 0) || year % 400 = 0)

/-- Month and day of month of a count of days since 1970-01-01. -/
def monthDayFromUnixDays (days : Int) : Nat × Nat :=
  let z := days + 719468
  let era := z / 146097
  let dayOfEra := z - era * 146097
  let yearOfEra :=
    (dayOfEra - dayOfEra.tdiv 1460 + dayOfEra.tdiv 36524 - dayOfEra.tdiv 146096).tdiv 365
  let dayOfYear := dayOfEra - (365 * yearOfEra + yearOfEra.tdiv 4 - yearOfEra.tdiv 100)
  let monthShifted := (5 * dayOfYear + 2).tdiv 153
  let day := dayOfYear - (153 * monthShifted + 2).tdiv 5 + 1
  let month := if monthShifted < 10 then monthShifted + 3 else monthShifted - 9
  (month.toNat, day.toNat)

def referenceDayAndSecond (unixTimeS : Int) (year : Nat) : Nat × Int :=
  let (month, day) := monthDayFromUnixDays (unixTimeS / 86400)
  let dayOfYear := DAYS_BEFORE_MONTH.getD (month - 1) 0 + day - 1
  (if 2 < month ∧ isLeapYear year then dayOfYear + 1 else dayOfYear, unixTimeS % 86400)

/-- Position inside the reference year, in fractional hours since it began. -/
def referencePositionH {F : Type} [Scalar F] (unixTimeS : Int) (year : Nat) : F :=
  let (dayOfYear, secondOfDay) := referenceDayAndSecond unixTimeS year
  ((dayOfYear * 24 : Nat) : F) + Scalar.ofInt secondOfDay / 3600.0

/-- The whole hour of the reference year a timestamp falls in. -/
def referenceHour (unixTimeS : Int) (year : Nat) : Nat :=
  let (dayOfYear, secondOfDay) := referenceDayAndSecond unixTimeS year
  dayOfYear * 24 + (secondOfDay.tdiv 3600).toNat

end Bess
