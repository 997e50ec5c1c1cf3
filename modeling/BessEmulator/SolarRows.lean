import BessEmulator.Calendar
import BessEmulator.Scalar
import BessEmulator.Utf8
import Mathlib.Data.List.DropRight

/-!
# The solar product

The weather compiler's reader of hourly solar sums: each row's energy, from
the previous row's end to its own, goes to the UTC hours it overlaps.
-/
namespace Bess

/-- `char::is_whitespace`. -/
def isWhitespace (c : Char) : Bool :=
  let n := c.toNat
  decide (9 ≤ n ∧ n ≤ 13) || decide (8192 ≤ n ∧ n ≤ 8202) ||
    [32, 133, 160, 5760, 8232, 8233, 8239, 8287, 12288].contains n

/-- `str::trim`. -/
def trim (text : List Char) : List Char := (text.dropWhile isWhitespace).rdropWhile isWhitespace

/-- `str::lines`: a line ends at a newline, with a carriage return before it or
without; what follows the last newline is a line if it has characters. -/
def lines (text : List Char) : List (List Char) :=
  let parts := text.splitOn '\n'
  let ended := parts.dropLast.map fun line =>
    if line.getLast? = some '\r' then line.dropLast else line
  ended ++ parts.getLast?.toList.filter fun line => !line.isEmpty

/-- What the reader of a row comes to; `none` where a slice panics. -/
abbrev Read := ExceptT String Option

def badStamp (stamp : List Char) : String := s!"unparseable timestamp {String.ofList stamp}"

/-- `stamp[lo..hi].parse()`. -/
def stampNumber (stamp : List Char) (lo hi : Nat) : Read Int :=
  match Utf8.slice (Utf8.bytes stamp) lo hi with
  | none => ExceptT.mk none
  | some digits =>
    match Utf8.parseI64 digits with
    | none => throw (badStamp stamp)
    | some n => pure n

/-- Seconds since 2024-01-01 00:00 UTC of a `YYYYMMDDHH:MM` stamp. -/
def secondsFromYearStart (stamp : List Char) : Read Int := do
  let year ← stampNumber stamp 0 4
  let month ← stampNumber stamp 4 6
  let day ← stampNumber stamp 6 8
  let hour ← stampNumber stamp 8 10
  let minute ← stampNumber stamp 11 13
  let days := Calendar.daysFromCivil year month day - Calendar.daysFromCivil 2024 1 1
  return days * 86400 + hour * 3600 + minute * 60

/-- The stamps that can matter: the year, and a day of slack on each side. -/
def stampMatters (stamp : List Char) : Bool :=
  decide ((Utf8.bytes stamp).length = 13) &&
    ["2024", "20231230", "20231231", "20250101"].any fun start => start.toList.isPrefixOf stamp

def HOURS_2024 : Nat := 8784

/-- Seconds of the year. -/
def spanS : Int := HOURS_2024 * 3600

section

variable {F : Type} [Scalar F]

/-- DWD missing-value marker. -/
def MISSING : F := -999.0

/-- A reading, unless it is no number or the missing marker; `parse` is `str::parse::<f64>`. -/
def parseValue (parse : List Char → Option F) (field : List Char) : Option F :=
  (parse field).bind fun value =>
    if Scalar.abs (value - MISSING) < 0.5 then none else some value

/-- A row of the solar product, its stamp parsed. -/
structure SolarRow (F : Type) where
  stamp : List Char
  endS : Int
  /-- `FG_LBERG`, in J/cm2; `none` where it is missing. -/
  fg : Option F

/-- The row a line holds, if it holds one that can matter. -/
def solarRow (parse : List Char → Option F) (line : List Char) : Read (Option (SolarRow F)) :=
  let fields := (line.splitOn ';').map trim
  let stamp := fields.getD 1 []
  if fields.length < 9 || !stampMatters stamp then pure none
  else do
    let endS ← secondsFromYearStart stamp
    return some ⟨stamp, endS, parseValue parse (fields.getD 5 [])⟩

/-- The hour buckets as the rows so far have filled them. -/
structure SolarBuckets (F : Type) where
  energyJm2 : List F
  coveredS : List Int
  prevEnd : Option Int

def SolarBuckets.empty : SolarBuckets F :=
  ⟨List.replicate HOURS_2024 0, List.replicate HOURS_2024 0, none⟩

/-- How much of a row's interval an hour bucket overlaps. -/
def overlapS (startS endS : Int) (bucket : Nat) : Int :=
  let bucketStart := (bucket : Int) * 3600
  max (min endS (bucketStart + 3600) - max startS bucketStart) 0

def SolarBuckets.addTo (intervalJm2 : F) (startS endS : Int) (b : SolarBuckets F) (bucket : Nat) :
    SolarBuckets F :=
  let overlap := overlapS startS endS bucket
  { b with
    energyJm2 := b.energyJm2.modify bucket fun e =>
      e + intervalJm2 * Scalar.ofInt overlap / Scalar.ofInt (endS - startS)
    coveredS := b.coveredS.modify bucket fun s => s + overlap }

/-- Where a row's interval starts: at the previous row's end, if that is not too far off. -/
def rowStart (prevEnd : Option Int) (row : SolarRow F) : Except String Int :=
  match prevEnd with
  | none => .ok (row.endS - 3600)
  | some prev =>
    let duration := row.endS - prev
    if 1800 ≤ duration ∧ duration ≤ 5400 then .ok prev
    else .error (s!"solar series gap: interval ending {String.ofList row.stamp} is " ++
      s!"{duration} s long")

def SolarBuckets.add (b : SolarBuckets F) (row : SolarRow F) : Except String (SolarBuckets F) := do
  let startS ← rowStart b.prevEnd row
  let b := { b with prevEnd := some row.endS }
  if row.endS ≤ 0 ∨ spanS ≤ startS then return b
  match row.fg with
  | none => throw s!"missing FG_LBERG in interval ending {String.ofList row.stamp}"
  | some fg =>
    let intervalJm2 := fg * 10000.0
    let firstBucket := ((max startS 0).tdiv 3600).toNat
    let lastBucket := min ((min row.endS spanS - 1).tdiv 3600).toNat (HOURS_2024 - 1)
    return (List.range' firstBucket (lastBucket + 1 - firstBucket)).foldl
      (addTo intervalJm2 startS row.endS) b

/-- The means in W/m2, if every bucket is covered whole. -/
def SolarBuckets.means (b : SolarBuckets F) : Except String (List F) :=
  match b.coveredS.zipIdx.find? fun s => s.1 ≠ 3600 with
  | some (s, bucket) => .error s!"solar coverage hole: UTC hour bucket {bucket} covered {s} s of 3600"
  | none => .ok (b.energyJm2.map fun e => e / 3600.0)

/-- Distributes interval sums onto the UTC hour buckets. -/
def distribute (rows : List (SolarRow F)) : Except String (List F) := do
  let b ← rows.foldlM SolarBuckets.add .empty
  b.means

def distributeLine (parse : List Char → Option F) (b : SolarBuckets F) (line : List Char) :
    Read (SolarBuckets F) := do
  match ← solarRow parse line with
  | none => return b
  | some row => ExceptT.mk (some (b.add row))

/-- `distribute_solar` on the text of its file. -/
def distributeSolar (parse : List Char → Option F) (text : List Char) : Read (List F) := do
  let b ← ((lines text).drop 1).foldlM (distributeLine parse) .empty
  ExceptT.mk (some b.means)

/-- The row that a line holds, where reading it neither panics nor fails. -/
def rowOf (parse : List Char → Option F) (line : List Char) : Option (SolarRow F) :=
  match (solarRow parse line).run with
  | some (.ok row) => row
  | _ => none

/-- The rows that a text's lines hold. -/
def solarRows (parse : List Char → Option F) (text : List Char) : List (SolarRow F) :=
  ((lines text).drop 1).filterMap (rowOf parse)

end

end Bess
