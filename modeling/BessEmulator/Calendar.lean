import Mathlib.Data.Int.Notation

/-!
# Proleptic Gregorian days

Day arithmetic between civil dates and days since 1970-01-01, and the viewer's
copy of it on whole timestamps. The quotients round towards zero, those of
`div_euclid` towards minus infinity.
-/
namespace Calendar

/-- Days since 1970-01-01 of a civil date. -/
def daysFromCivil (year month day : Int) : Int :=
  let y := if month ≤ 2 then year - 1 else year
  let era := y / 400
  let yoe := y - era * 400
  let mp := (month + 9).tmod 12
  let doy := (153 * mp + 2).tdiv 5 + day - 1
  let doe := yoe * 365 + yoe.tdiv 4 - yoe.tdiv 100 + doy
  era * 146097 + doe - 719468

/-- Civil date of a day count since 1970-01-01. -/
def civilFromDays (days : Int) : Int × Int × Int :=
  let z := days + 719468
  let era := z / 146097
  let doe := z - era * 146097
  let yoe := (doe - doe.tdiv 1460 + doe.tdiv 36524 - doe.tdiv 146096).tdiv 365
  let doy := doe - (365 * yoe + yoe.tdiv 4 - yoe.tdiv 100)
  let mp := (5 * doy + 2).tdiv 153
  let day := doy - (153 * mp + 2).tdiv 5 + 1
  let month := if mp < 10 then mp + 3 else mp - 9
  let year := yoe + era * 400 + (if month ≤ 2 then 1 else 0)
  (year, month, day)

/-- `as i32`. -/
def asI32 (x : Int) : Int := Int.bmod x 4294967296

/-- `as u32`. -/
def asU32 (x : Int) : Nat := (x % 4294967296).toNat

/-- Civil date and time of a Unix timestamp. -/
def civilFromUnix (unixTimeS : Int) : Int × Nat × Nat × Nat × Nat × Nat :=
  let days := unixTimeS / 86400
  let secs := unixTimeS % 86400
  let z := days + 719468
  let era := z / 146097
  let doe := z - era * 146097
  let yoe := (doe - doe.tdiv 1460 + doe.tdiv 36524 - doe.tdiv 146096).tdiv 365
  let y := yoe + era * 400
  let doy := doe - (365 * yoe + yoe.tdiv 4 - yoe.tdiv 100)
  let mp := (5 * doy + 2).tdiv 153
  let d := doy - (153 * mp + 2).tdiv 5 + 1
  let m := if mp < 10 then mp + 3 else mp - 9
  let year := asI32 (if m ≤ 2 then y + 1 else y)
  (year, asU32 m, asU32 d, asU32 (secs.tdiv 3600), asU32 ((secs.tdiv 60).tmod 60),
    asU32 (secs.tmod 60))

/-- Unix timestamp of a civil date and time; what is out of range rolls over. -/
def unixFromCivil (year : Int) (month day hour minute second : Nat) : Int :=
  let y := year - (if month ≤ 2 then 1 else 0)
  let era := (if 0 ≤ y then y else y - 399).tdiv 400
  let yoe := y - era * 400
  let mp := ((month : Int) + 9).tmod 12
  let doy := (153 * mp + 2).tdiv 5 + day - 1
  let doe := yoe * 365 + yoe.tdiv 4 - yoe.tdiv 100 + doy
  let days := era * 146097 + doe - 719468
  days * 86400 + hour * 3600 + minute * 60 + second

end Calendar
