import BessEmulator.SmardBlocks
import BessEmulator.StudySeries
import BessEmulator.Viewer
import BessEmulator.WeatherYear

/-!
# Where to look

The moments of the compiled year worth a look: the viewer's stops, and the week
around the warmest day that the annual pass traces. Both are found in the dataset and
mapped onto the run's calendar by date.
-/
namespace Bess

variable {F : Type} [Scalar F]

/-- 2024-01-01 00:00:00 UTC, the first hour of the reference year. -/
def REFERENCE_YEAR_START : Int := 1704067200

namespace Viewer

/-- The hour the plant opens at when a day is picked. -/
def OPENING_HOUR : Nat := 9

/-- A moment worth jumping to, and what the button says. -/
structure Stop where
  label : String
  month : Nat
  day : Nat
  hour : Nat
  deriving DecidableEq, Repr

/-- Which end of the range a stop is looking for. -/
inductive Extreme where
  | highest | lowest
  deriving DecidableEq, Repr

/-- One hour of the search for the most precipitation. -/
def keepHour (y : WeatherYear F) (accept : HourSample F → Bool) (best : Option (Nat × F)) (hour : Nat) :
    Option (Option (Nat × F)) := do
  let sample ← y.hour hour
  if decide (sample.precipMm ≤ 0.05) || !accept sample then return best
  if best.all fun (_, mm) => decide (mm < sample.precipMm) then return some (hour, sample.precipMm)
  return best

/-- The hour with the most precipitation among those the filter accepts; the outer answer is
none where an hour cannot be read. -/
def wettestHour (y : WeatherYear F) (accept : HourSample F → Bool) : Option (Option Nat) := do
  let best ← (List.range y.len).foldlM (keepHour y accept) none
  return best.map Prod.fst

/-- The days the series has in full, with what each sums to. -/
def dayTotals (hourly : List F) : List (Nat × F) :=
  (List.range (hourly.length / 24)).map fun day =>
    (day, ((hourly.drop (24 * day)).take 24).foldl (fun total v => total + v) 0)

/-- Whether a total is further out than the one held. -/
def better (want : Extreme) (best : Option (Nat × F)) (total : F) : Bool :=
  match best, want with
  | none, _ => true
  | some (_, b), .highest => decide (b < total)
  | some (_, b), .lowest => decide (total < b)

/-- The day whose total is the most extreme. -/
def extremeDay (hourly : List F) (want : Extreme) : Option Nat :=
  if hourly.length < 24 then none
  else
    ((dayTotals hourly).foldl (fun best p => if better want best p.2 then some p else best) none).map Prod.fst

/-- A day of the reference year, opened mid-morning. -/
def fromDay (label : String) (dayIndex : Nat) : Stop :=
  let (_, month, day, _) := Calendar.civilFromUnix (REFERENCE_YEAR_START + (dayIndex : Int) * 86400)
  ⟨label, month, day, OPENING_HOUR⟩

/-- An hour of the reference year, opened just before it. -/
def fromHour (label : String) (hourIndex : Nat) : Stop :=
  let start := hourIndex - 1
  let (_, month, day, hour, _) := Calendar.civilFromUnix (REFERENCE_YEAR_START + (start : Int) * 3600)
  ⟨label, month, day, hour⟩

/-- The stops of a compiled year, in the order they are offered. -/
def stops (y : WeatherYear F) : Option (List Stop) := do
  let warmest := (extremeDay y.tempC .highest).map (fromDay "Warmest day")
  let coldest := (extremeDay y.tempC .lowest).map (fromDay "Coldest day")
  let sunniest := (extremeDay y.ghiWm2 .highest).map (fromDay "Sunniest day")
  let rain := (← wettestHour y fun _ => true).map (fromHour "Heaviest rain")
  let snow := (← wettestHour y fun s => s.precipForm = .snow).map (fromHour "Snowfall")
  return warmest.toList ++ coldest.toList ++ sunniest.toList ++ rain.toList ++ snow.toList

/-- Where a stop's button restarts the plant: the stop's date in the plant's year. -/
def Stop.target (stop : Stop) (nowUnixS : Int) : Int :=
  Calendar.unixFromCivil (Calendar.civilFromUnix nowUnixS).1 stop.month stop.day stop.hour 0 0

/-- A click on a stop. -/
def Session.pick (site : Site F) (s : Session F) (stop : Stop) : Session F :=
  s.apply site (.restartAt (stop.target s.run.unixTimeS))

end Viewer

/-- Days either side of the warmest day that the trace covers. -/
def TRACE_HALF_WIDTH_DAYS : Int := 3

/-- The warmest day of the dataset by its mean; the first one without a day. -/
def warmestDay (temps : List F) : Nat :=
  let means := (Viewer.dayTotals temps).map fun p => (p.1, p.2 / 24.0)
  let warmest := means.foldl (fun (warmest : Option (Nat × F)) p =>
    if warmest.all fun (_, mean) => decide (mean < p.2) then some p else warmest) none
  (warmest.map Prod.fst).getD 0

/-- The window the trace covers and its label: the warmest day of the replayed year with three
days either side, as far as the run goes. -/
def hotWeek (w : HistoricalWeather F) (spec : RunSpec) : (Int × Int) × String :=
  let target := monthDayFromUnixDays (REFERENCE_YEAR_START / 86400 + (warmestDay w.year.tempC : Int))
  let visited := (List.range spec.days).find? fun (day : Nat) =>
    monthDayFromUnixDays ((spec.startUnixS + (day : Int) * 86400) / 86400) = target
  let centre := spec.startUnixS + ((visited.getD 0 : Nat) : Int) * 86400
  let half := TRACE_HALF_WIDTH_DAYS * 86400
  ((max (centre - half) spec.startUnixS,
      min (centre + 86400 + half) (spec.startUnixS + (spec.days : Int) * 86400)),
    "The week around the warmest day of the replayed year, " ++ Smard.padded 2 target.2 ++ "-" ++
      Smard.padded 2 target.1)

end Bess
