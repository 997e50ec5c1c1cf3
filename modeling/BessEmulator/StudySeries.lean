import BessEmulator.PlantTask
import BessEmulator.ReferenceYear
import Mathlib.Data.List.ModifyLast

/-!
# The annual pass

The year driven tick by tick, what the study series collects from it on the
way, and the energy figures of the annual record closed at its end. The tallies,
the alarm and the period figures of the same pass are read beside it.
-/
namespace Bess

section

variable {F : Type} [Scalar F]

/-- Rounded to a fixed number of decimals. -/
def roundTo (value : F) (decimals : Nat) : F :=
  let scale : F := powTen (decimals : Int)
  Scalar.round (value * scale) / scale

/-- Least and greatest of some readings; none without a reading. -/
def minMax : List F → Option F × Option F
  | [] => (none, none)
  | t :: ts => (some (ts.foldl min t), some (ts.foldl max t))

/-- Least and greatest cell temperature on site; zeros without a rack. -/
def SiteState.cellTempMinMaxC (s : SiteState F) : F × F :=
  let (coldest, warmest) := minMax (s.racks.map fun r => r.cellTempC)
  (coldest.getD 0.0, warmest.getD 0.0)

def SiteState.containers (s : SiteState F) : List (ContainerState F) :=
  s.blocks.flatMap fun b => b.containers

structure RunRecord where
  siteId : String
  engineVersion : String
  seed : UInt64
  startUnixS : Int
  days : Nat
  ticks : Nat
  deriving DecidableEq, Repr

structure Month (F : Type) where
  month : Nat
  days : F
  importMwh : F
  exportMwh : F
  roundTripEfficiency : F
  storedDeltaMwh : F
  roundTripEfficiencyEndpointCorrected : F
  auxMwh : F
  auxShareOfImport : F
  hvacMwh : F
  ambientMeanC : F
  coolingDuty : F
  heatingDuty : F

/-- One sample of a trace; the air temperatures are infinite without a container. -/
structure Sample (F : Type) where
  unixS : Int
  ambientC : F
  irradianceWm2 : F
  airMinC : Option F
  airMaxC : Option F
  cellMinC : F
  cellMaxC : F
  cooling1 : Nat
  cooling2 : Nat
  heating : Nat
  poiMw : F
  auxKw : F

structure Trace (F : Type) where
  label : String
  intervalS : Nat
  samples : List (Sample F)

structure StudySeries (F : Type) where
  run : RunRecord
  months : List (Month F)
  hotWeek : Trace F

def sample (state : SiteState F) (unixS : Int) : Sample F :=
  let air := minMax (state.containers.map fun c => c.airTempC)
  let cell := state.cellTempMinMaxC
  let running := fun mode => state.containers.countP fun c => c.hvac.mode = mode
  { unixS := unixS
    ambientC := roundTo state.weather.ambientC 1
    irradianceWm2 := roundTo state.weather.irradianceWm2 0
    airMinC := air.1.map fun t => roundTo t 1
    airMaxC := air.2.map fun t => roundTo t 1
    cellMinC := roundTo cell.1 1
    cellMaxC := roundTo cell.2 1
    cooling1 := running .cool1
    cooling2 := running .cool2
    heating := running .heat
    poiMw := roundTo (state.substation.poiActivePowerW / 1.0e6) 2
    auxKw := roundTo (state.aux.totalW / 1.0e3) 1 }

/-- Meter readings at a month boundary. -/
structure Meters (F : Type) where
  importWh : F
  exportWh : F
  auxWh : F
  hvacWh : F
  stationServiceWh : F
  storedWh : F

def Meters.zero : Meters F := ⟨0, 0, 0, 0, 0, 0⟩

structure MonthAccumulator (F : Type) where
  month : Nat
  closed : Meters F
  ambientSum : F
  ticks : F
  coolingTicks : F
  heatingTicks : F

def MonthAccumulator.fresh (month : Nat) : MonthAccumulator F := ⟨month, Meters.zero, 0, 0, 0, 0⟩

structure Collector (F : Type) where
  /-- One entry per month the run passes through, in order. -/
  months : List (MonthAccumulator F)
  intervalS : Nat
  window : Int × Int
  label : String
  samples : List (Sample F)
  containers : F
  openedAt : Meters F

def difference (now then' : Meters F) : Meters F where
  importWh := now.importWh - then'.importWh
  exportWh := now.exportWh - then'.exportWh
  auxWh := now.auxWh - then'.auxWh
  hvacWh := now.hvacWh - then'.hvacWh
  stationServiceWh := now.stationServiceWh - then'.stationServiceWh
  storedWh := now.storedWh - then'.storedWh

/-- What the meters read, the stored energy with them. -/
def Simulation.meters (sim : Simulation F) : Meters F where
  importWh := sim.state.substation.importWh
  exportWh := sim.state.substation.exportWh
  auxWh := sim.state.energy.auxWh
  hvacWh := sim.state.energy.auxItems.hvacWh
  stationServiceWh := sim.state.substation.stationServiceWh
  storedWh := sim.storedEnergyWh

/-- Index of the month a Unix second falls in, 0 for January. -/
def monthIndex (unixS : Int) : Nat := (monthDayFromUnixDays (unixS / 86400)).1 - 1

/-- One tick of a month. -/
def MonthAccumulator.count (acc : MonthAccumulator F) (state : SiteState F) : MonthAccumulator F :=
  state.containers.foldl
    (fun acc c =>
      match c.hvac.mode with
      | .cool1 | .cool2 => { acc with coolingTicks := acc.coolingTicks + 1 }
      | .heat => { acc with heatingTicks := acc.heatingTicks + 1 }
      | .off => acc)
    { acc with ambientSum := acc.ambientSum + state.weather.ambientC, ticks := acc.ticks + 1 }

def MonthAccumulator.close (now openedAt : Meters F) (acc : MonthAccumulator F) : MonthAccumulator F :=
  { acc with closed := difference now openedAt }

namespace Collector

def new (containers : Nat) (window : Int × Int) (intervalS : Nat) (label : String) : Collector F where
  months := []
  intervalS := intervalS
  window := window
  label := label
  samples := []
  containers := (containers : F)
  openedAt := Meters.zero

/-- A month begins: the meters are banked, and the one before it closed against them. -/
def turn (c : Collector F) (sim : Simulation F) (index : Nat) : Collector F :=
  if c.months.getLast?.map (fun m => m.month) = some index then c
  else
    { c with
      months := c.months.modifyLast (MonthAccumulator.close sim.meters c.openedAt) ++ [.fresh index]
      openedAt := sim.meters }

/-- Read one tick. -/
def observe (c : Collector F) (sim : Simulation F) (unixS : Int) : Collector F :=
  let c := c.turn sim (monthIndex unixS)
  let c := { c with months := c.months.modifyLast fun acc => acc.count sim.state }
  if c.window.1 ≤ unixS ∧ unixS ≤ c.window.2 ∧ (unixS - c.window.1) % (c.intervalS : Int) = 0 then
    { c with samples := c.samples ++ [sample sim.state unixS] }
  else c

/-- The books as `finish` closes them. -/
def close (c : Collector F) (sim : Simulation F) : List (MonthAccumulator F) :=
  c.months.modifyLast (MonthAccumulator.close sim.meters c.openedAt)

/-- Ticks in a day. -/
def DAY_TICKS : Nat := 86400

/-- A bucket as it is published. -/
def month (containers : F) (acc : MonthAccumulator F) : Month F :=
  let containerTicks := acc.ticks * containers
  let imported := max acc.closed.importWh 1.0
  { month := acc.month + 1
    days := roundTo (acc.ticks / (DAY_TICKS : F)) 2
    importMwh := roundTo (acc.closed.importWh / 1.0e6) 1
    exportMwh := roundTo (acc.closed.exportWh / 1.0e6) 1
    roundTripEfficiency := roundTo (acc.closed.exportWh / imported) 4
    storedDeltaMwh := roundTo (acc.closed.storedWh / 1.0e6) 1
    roundTripEfficiencyEndpointCorrected :=
      roundTo ((acc.closed.exportWh + acc.closed.storedWh) / imported) 4
    auxMwh := roundTo (acc.closed.auxWh / 1.0e6) 1
    auxShareOfImport := roundTo ((acc.closed.auxWh - acc.closed.stationServiceWh) / imported) 5
    hvacMwh := roundTo (acc.closed.hvacWh / 1.0e6) 1
    ambientMeanC := roundTo (acc.ambientSum / acc.ticks) 1
    coolingDuty := roundTo (acc.coolingTicks / containerTicks) 5
    heatingDuty := roundTo (acc.heatingTicks / containerTicks) 5 }

/-- Close the books and hand over the series; a bucket shorter than a day is left out. -/
def finish (c : Collector F) (sim : Simulation F) (run : RunRecord) : StudySeries F where
  run := run
  months := ((c.close sim).filter fun acc => decide ((DAY_TICKS : F) ≤ acc.ticks)).map (month c.containers)
  hotWeek := { label := c.label, intervalS := c.intervalS, samples := c.samples }

end Collector

structure EnergyKpis (F : Type) where
  importMwh : F
  exportMwh : F
  roundTripEfficiency : F
  roundTripEfficiencyExcludingAux : F
  equivalentFullCycles : F
  storedDeltaMwh : F
  auxShareOfImport : F
  auxShareOfExport : F
  balanceResidualShare : F

structure LossKpis (F : Type) where
  batteryMwh : F
  pcsMwh : F
  transformerMwh : F
  auxHvacMwh : F
  auxBmsMwh : F
  auxPcsStandbyMwh : F
  auxControlsMwh : F
  auxLightingAndSafetyMwh : F

structure RunSpec where
  seed : UInt64
  startUnixS : Int
  days : Nat
  deriving DecidableEq, Repr

/-- One tick of the pass: the plant steps, and the collector reads it. -/
def passTick (ref : Reference F) (p : Simulation F × Collector F) : Simulation F × Collector F :=
  let sim := p.1.step (ref.inputsAt p.1.state.unixTimeS)
  (sim, p.2.observe sim sim.state.unixTimeS)

def passTicks (ref : Reference F) (n : Nat) (p : Simulation F × Collector F) : Simulation F × Collector F :=
  (passTick ref)^[n] p

/-- Sampling interval of the published trace, s. -/
def TRACE_INTERVAL_S : Nat := 900

/-- The plant and the collector an annual pass starts from; the window is the warmest week's. -/
def RunSpec.start (spec : RunSpec) (ref : Reference F) (window : Int × Int) (label : String) :
    Simulation F × Collector F :=
  let cfg : PlantConfig F := .gw01
  (Simulation.new cfg (ref.models cfg) spec.seed spec.startUnixS,
    .new (cfg.blocks * cfg.containersPerBlock) window TRACE_INTERVAL_S label)

def RunSpec.ticks (spec : RunSpec) : Nat := spec.days * 86400 / TICK_SECONDS

end

end Bess
