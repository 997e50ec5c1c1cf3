import BessEmulator.LongestRun
import BessEmulator.SolarRows
import BessEmulator.WeatherArtifact

/-!
# The weather compiler

From the text of the station's product files to the bytes of the artifact:
hourly observations are read, short gaps are filled from their neighbours, and
what is quantized is encoded. `none` stands where the code panics.
-/
namespace Bess

/-- Longest observation gap a physics-consumed series may bridge. -/
def MAX_PHYSICS_GAP_H : Nat := 24

/-- Longest observation gap a scenery-only series may bridge. -/
def MAX_SCENERY_GAP_H : Nat := 72

/-- Cumulative days before each month of the (leap) reference year. -/
def LEAP_DAYS_BEFORE_MONTH : List Nat := [0, 31, 60, 91, 121, 152, 182, 213, 244, 274, 305, 335]

/-- `stamp[lo..hi].parse::<usize>()`. -/
def stampUsize (stamp : List Char) (lo hi : Nat) : Read Nat :=
  match Utf8.slice (Utf8.bytes stamp) lo hi with
  | none => ExceptT.mk none
  | some (45 :: _) => throw (badStamp stamp)
  | some digits =>
    match Utf8.parseI64 digits with
    | none => throw (badStamp stamp)
    | some n => pure n.toNat

/-- Hour bucket index of a `YYYYMMDDHH` stamp. -/
def hourIndex (stamp : List Char) : Read Nat := do
  let month ← stampUsize stamp 4 6
  let day ← stampUsize stamp 6 8
  let hour ← stampUsize stamp 8 10
  if ¬(1 ≤ month ∧ month ≤ 12) ∨ day = 0 ∨ 23 < hour then throw (badStamp stamp)
  let idx := (LEAP_DAYS_BEFORE_MONTH.getD (month - 1) 0 + day - 1) * 24 + hour
  if HOURS_2024 ≤ idx then throw (badStamp stamp)
  return idx

section

variable {F : Type} [Scalar F]

/-- A series of hourly observations, `none` where one is missing. -/
abbrev Series (F : Type) := List (Option F)

/-- The hour a line is stamped with, if the line is one of the year's rows. -/
def rowHour (line : List Char) (colA colB : Nat) : Read (Option (Nat × List (List Char))) :=
  let fields := (line.splitOn ';').map trim
  if fields.length ≤ max colA colB then pure none
  else
    match fields[1]? with
    | none => ExceptT.mk none
    | some stamp =>
      if !("2024".toList.isPrefixOf stamp) || decide ((Utf8.bytes stamp).length ≠ 10) then pure none
      else do
        let idx ← hourIndex stamp
        return some (idx, fields)

/-- One row read into the two series. -/
def readLine (parse : List Char → Option F) (colA colB : Nat) (s : Series F × Series F)
    (line : List Char) : Read (Series F × Series F) := do
  match ← rowHour line colA colB with
  | none => return s
  | some (idx, fields) =>
    return (s.1.set idx (parseValue parse (fields.getD colA [])),
      s.2.set idx (parseValue parse (fields.getD colB [])))

/-- `parse_two_columns` on the text of its file. -/
def parseTwoColumns (parse : List Char → Option F) (text : List Char) (colA colB : Nat) :
    Read (Series F × Series F) :=
  ((lines text).drop 1).foldlM (readLine parse colA colB)
    (List.replicate HOURS_2024 none, List.replicate HOURS_2024 none)

/-- Length and start index of the longest missing run. -/
def longestGap (series : Series F) : Nat × Nat :=
  let s := LongestRun.scan Option.isNone series
  (s.longest, s.start)

def checkLongestGap (series : Series F) (maxGap : Nat) (name : String) : Except String Unit :=
  let longest := (longestGap series).1
  if maxGap < longest then
    .error (s!"{name}: longest gap {longest} h exceeds {maxGap} h; " ++
      "use a fallback station (design decision D1)")
  else .ok ()

/-- The hours observed. -/
def known (series : Series F) : List Nat :=
  (List.range series.length).filter fun i => (series.getD i none).isSome

/-- The last of the known hours before an hour, and the first that is not. -/
def neighbours (known : List Nat) (i : Nat) : Option Nat × Option Nat :=
  let next := Bisect.partitionPoint (fun k => decide (k < i)) known
  (if next = 0 then none else known[next - 1]?, known[next]?)

/-- The observation at an hour. -/
def expectKnown (series : Series F) (i : Nat) : Option F := series.getD i none

/-- Between the observations on either side, in proportion; at an edge, the nearest. -/
def linearFill (series : Series F) (i : Nat) : Option Nat × Option Nat → Option (Option F)
  | (some prev, some nxt) => do
    let span : F := (nxt - prev : Nat)
    let t : F := (i - prev : Nat) / span
    let a ← expectKnown series prev
    let b ← expectKnown series nxt
    return some (a * (1 - t) + b * t)
  | (some prev, none) => (expectKnown series prev).map some
  | (none, some nxt) => (expectKnown series nxt).map some
  | (none, none) => none

/-- What stands at the nearest observation, the earlier one of two as near. -/
def nearestFill (series : Series F) (i : Nat) : Option Nat × Option Nat → Option (Option F)
  | (some prev, some nxt) => series[if i - prev ≤ nxt - i then prev else nxt]?
  | (some prev, none) => series[prev]?
  | (none, some nxt) => series[nxt]?
  | (none, none) => none

/-- One pass of the filling loop, which writes into the series it reads. -/
def fillHour (value : Series F → Nat → Option Nat × Option Nat → Option (Option F))
    (known : List Nat) (s : Series F × UInt16) (i : Nat) : Option (Series F × UInt16) := do
  if (← s.1[i]?).isSome then return s
  let v ← value s.1 i (neighbours known i)
  return (s.1.set i v, s.2 + 1)

/-- The body of the two fills: the filled series and how many hours were filled. -/
def fillWith (value : Series F → Nat → Option Nat × Option Nat → Option (Option F))
    (series : Series F) (maxGap : Nat) (name : String) : Read (Series F × UInt16) := do
  ExceptT.mk (some (checkLongestGap series maxGap name))
  if (known series).isEmpty then throw s!"{name}: no observations at all"
  ExceptT.mk (((List.range series.length).foldlM (fillHour value (known series)) (series, 0)).map .ok)

def fillLinear (series : Series F) (maxGap : Nat) (name : String) : Read (Series F × UInt16) :=
  fillWith linearFill series maxGap name

def fillNearest (series : Series F) (maxGap : Nat) (name : String) : Read (Series F × UInt16) :=
  fillWith nearestFill series maxGap name

/-- Missing precipitation amounts become "no precipitation". -/
def fillZero (series : Series F) : Series F × UInt16 :=
  series.foldl (fun s slot =>
    if slot.isNone then (s.1 ++ [some 0], s.2 + 1) else (s.1 ++ [slot], s.2)) ([], 0)

/-- Missing form: code 0 in a dry hour, code 4 in a wet one. -/
def fillPrecipForm (form mm : Series F) : Option (Series F × UInt16) :=
  ((form.zip mm).foldlM (fun s (x : Option F × Option F) =>
    if x.1.isNone then do
      let amount ← x.2
      return (s.1 ++ [some (if 0 < amount then 4.0 else 0)], s.2 + 1)
    else some (s.1 ++ [x.1], s.2)) ([], 0)).map
      fun s => (s.1 ++ form.drop mm.length, s.2)

/-- `as i32`, which saturates. -/
def toI32 (x : F) : Int := max (-2147483648) (min (Scalar.trunc x) 2147483647)

/-- `as i64`, which saturates. -/
def toI64 (x : F) : Int :=
  max (-9223372036854775808) (min (Scalar.trunc x) 9223372036854775807)

variable (display : F → String)

def quantizeX10 (series : List F) (lo hi : Int) (name : String) : Except String (List Int16) :=
  series.mapM fun v =>
    let q := toI32 (Scalar.round (v * 10.0))
    if q < lo ∨ hi < q then .error s!"{name}: value {display v} outside [{lo}, {hi}] x0.1"
    else .ok (Int16.ofInt q)

def quantizeX1 (series : List F) (lo hi : Int) (name : String) : Except String (List Int16) :=
  series.mapM fun v =>
    let q := toI32 (Scalar.round v)
    if q < lo ∨ hi < q then .error s!"{name}: value {display v} outside [{lo}, {hi}]"
    else .ok (Int16.ofInt q)

def quantizeCode (series : List F) (name : String) : Except String (List UInt8) :=
  series.mapM fun v =>
    let q := toI64 (Scalar.round v)
    if ¬(0 ≤ q ∧ q ≤ 255) then .error s!"{name}: code {display v} outside u8"
    else .ok (UInt8.ofNat q.toNat)

def STATION_ID : UInt16 := 3015

/-- The texts of the five product files. -/
structure Products where
  tu : List Char
  ff : List Char
  n : List Char
  rr : List Char
  st : List Char

/-- Every slot's value; `none` where one is still missing. -/
def unwrapAll (series : Series F) : Read (List F) := ExceptT.mk ((series.mapM id).map .ok)

/-- What the artifact is made of. -/
def compileData (parse : List Char → Option F) (products : Products) :
    Read WeatherCodec.ArtifactData := do
  let (temp, rh) ← parseTwoColumns parse products.tu 3 4
  let (temp, filledTemp) ← fillLinear temp MAX_PHYSICS_GAP_H "temperature"
  let (rh, filledRh) ← fillLinear rh MAX_PHYSICS_GAP_H "humidity"
  let (windMs, windDir) ← parseTwoColumns parse products.ff 3 4
  let (windMs, filledWindMs) ← fillLinear windMs MAX_SCENERY_GAP_H "wind speed"
  let (windDir, filledWindDir) ← fillNearest windDir MAX_SCENERY_GAP_H "wind direction"
  let (cloud, _) ← parseTwoColumns parse products.n 4 4
  let (cloud, filledCloud) ← fillNearest cloud MAX_SCENERY_GAP_H "cloud cover"
  let (precipMm, precipForm) ← parseTwoColumns parse products.rr 3 5
  let (precipMm, filledPrecipMm) := fillZero precipMm
  let (precipForm, filledPrecipForm) ← ExceptT.mk ((fillPrecipForm precipForm precipMm).map .ok)
  let ghi ← distributeSolar parse products.st
  let temp ← unwrapAll temp
  let rh ← unwrapAll rh
  let windMs ← unwrapAll windMs
  let windDir ← unwrapAll windDir
  let cloud ← unwrapAll cloud
  let precipMm ← unwrapAll precipMm
  let precipForm ← unwrapAll precipForm
  let tempCX10 ← ExceptT.mk (some (quantizeX10 display temp (-500) 500 "temperature"))
  let rhPctX10 ← ExceptT.mk (some (quantizeX10 display rh 0 1000 "humidity"))
  let ghiWm2X10 ← ExceptT.mk (some (quantizeX10 display ghi 0 15000 "irradiance"))
  let precipMmX10 ← ExceptT.mk (some (quantizeX10 display precipMm 0 1000 "precipitation"))
  let windMsX10 ← ExceptT.mk (some (quantizeX10 display windMs 0 600 "wind speed"))
  let windDirDeg ← ExceptT.mk (some (quantizeX1 display windDir 0 360 "wind direction"))
  let precipForm ← ExceptT.mk (some (quantizeCode display precipForm "precipitation form"))
  let cloudOkta ← ExceptT.mk (some (quantizeCode display cloud "cloud cover"))
  return {
    stationId := STATION_ID
    year := 2024
    fills := {
      temp := filledTemp
      relHumidity := filledRh
      ghi := 0
      precipMm := filledPrecipMm
      precipForm := filledPrecipForm
      windMs := filledWindMs
      windDir := filledWindDir
      cloud := filledCloud }
    tempCX10 := tempCX10
    rhPctX10 := rhPctX10
    ghiWm2X10 := ghiWm2X10
    precipMmX10 := precipMmX10
    windMsX10 := windMsX10
    windDirDeg := windDirDeg
    precipForm := precipForm
    cloudOkta := cloudOkta }

/-- The bytes written to the artifact's file. -/
def compileWeather (parse : List Char → Option F) (products : Products) : Read (List UInt8) := do
  let data ← compileData display parse products
  ExceptT.mk (some (WeatherCodec.encode data))

end

end Bess
