import BessEmulator.EventLog
import BessEmulator.ReferenceYear
import BessEmulator.State
import BessEmulator.WeatherArtifact

/-!
# Replayed weather

An artifact loaded as a weather year, and the driver that reads it at a
timestamp: what the physics consumes interpolated between the hours, the hour
itself as observed. Where the code would index out of range there is no answer.
-/
namespace Bess

/-- Precipitation form. -/
inductive PrecipForm where
  | noPrecip | rain | snow | mixed | unknown
  deriving DecidableEq, Repr

/-- Decodes a raw DWD `WRTR` code. -/
def PrecipForm.fromCode (code : UInt8) : PrecipForm :=
  match code.toNat with
  | 0 => .noPrecip
  | 1 | 6 => .rain
  | 7 => .snow
  | 8 => .mixed
  | _ => .unknown

/-- All observed quantities for one hour bucket. -/
structure HourSample (F : Type) where
  tempC : F
  relHumidityPct : F
  ghiWm2 : F
  precipMm : F
  precipForm : PrecipForm
  windMs : F
  windDirDeg : F
  cloudOkta : UInt8

/-- One compiled weather year, hourly resolution. -/
structure WeatherYear (F : Type) where
  year : UInt16
  stationId : UInt16
  fills : WeatherCodec.FillCounts
  tempC : List F
  relHumidityPct : List F
  ghiWm2 : List F
  precipMm : List F
  precipForm : List PrecipForm
  windMs : List F
  windDirDeg : List F
  cloudOkta : List UInt8

namespace WeatherYear

variable {F : Type} [Scalar F]

/-- A stored tenth. -/
def tenth (q : Int16) : F := Scalar.ofInt q.toInt / 10.0

def ofData (data : WeatherCodec.ArtifactData) : WeatherYear F where
  year := data.year
  stationId := data.stationId
  fills := data.fills
  tempC := data.tempCX10.map tenth
  relHumidityPct := data.rhPctX10.map tenth
  ghiWm2 := data.ghiWm2X10.map tenth
  precipMm := data.precipMmX10.map tenth
  precipForm := data.precipForm.map PrecipForm.fromCode
  windMs := data.windMsX10.map tenth
  windDirDeg := data.windDirDeg.map fun q => Scalar.ofInt q.toInt
  cloudOkta := data.cloudOkta

/-- The year bundled with a release: `none` when the bytes do not hash to the
pin or do not decode. -/
def bundled (raw : List UInt8) (pin : UInt64) : Option (WeatherYear F) :=
  if fnvFold fnvOffset raw = pin then
    match WeatherCodec.decode raw with
    | some (.ok data) => some (ofData data)
    | _ => none
  else none

def len (y : WeatherYear F) : Nat := y.tempC.length

/-- All quantities for an hour bucket. -/
def hour (y : WeatherYear F) (idx : Nat) : Option (HourSample F) := do
  return {
    tempC := ← y.tempC[idx]?
    relHumidityPct := ← y.relHumidityPct[idx]?
    ghiWm2 := ← y.ghiWm2[idx]?
    precipMm := ← y.precipMm[idx]?
    precipForm := ← y.precipForm[idx]?
    windMs := ← y.windMs[idx]?
    windDirDeg := ← y.windDirDeg[idx]?
    cloudOkta := ← y.cloudOkta[idx]? }

end WeatherYear

section

variable {F : Type} [Scalar F]

/-- `f64::rem_euclid`. -/
def remEuclid (x m : F) : F :=
  let r := x - Scalar.ofInt (Scalar.trunc (x / m)) * m
  if r < 0 then r + Scalar.abs m else r

/-- Linear interpolation over an hourly series, wrapping at the year end. -/
def interpolate (series : List F) (positionH : F) : Option F := do
  let len := series.length
  let position := remEuclid positionH (len : F)
  let idx := min (Scalar.trunc position).toNat (len - 1)
  let frac := Scalar.clamp (position - (idx : F)) 0 1
  let a ← series[idx]?
  let b ← series[(idx + 1) % len]?
  return a + (b - a) * frac

/-- 50 Hz plus a wander of 10 mHz on a 10 minute period. -/
def syntheticGridFrequencyHz (sin : F → F) (unixTimeS : Int) : F :=
  let secondOfDay : F := Scalar.ofInt (unixTimeS % 86400)
  50.0 + 0.01 * sin (6.283185307179586 * secondOfDay / 600.0)

/-- Replay driver over a compiled observation year. -/
structure HistoricalWeather (F : Type) where
  year : WeatherYear F

namespace HistoricalWeather

/-- Position of a timestamp inside the reference year, in fractional hours. -/
def positionH (w : HistoricalWeather F) (unixTimeS : Int) : F :=
  referencePositionH unixTimeS w.year.year.toNat

/-- Inputs for a given UTC timestamp. -/
def inputsAt (sin : F → F) (w : HistoricalWeather F) (unixTimeS : Int) : Option (Inputs F) := do
  let positionH := w.positionH unixTimeS
  let ambientC ← interpolate w.year.tempC positionH
  let irradianceWm2 ← interpolate w.year.ghiWm2 (positionH - 0.5)
  return {
    weather := { ambientC := ambientC, irradianceWm2 := irradianceWm2 }
    gridFrequencyHz := syntheticGridFrequencyHz sin unixTimeS }

/-- The whole observation bucket a timestamp falls in. -/
def hourAt (w : HistoricalWeather F) (unixTimeS : Int) : Option (HourSample F) :=
  let hours := (Scalar.trunc (w.positionH unixTimeS)).toNat
  w.year.hour (min hours (w.year.len - 1))

end HistoricalWeather

end

end Bess
