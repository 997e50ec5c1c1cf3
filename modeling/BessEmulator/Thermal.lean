import BessEmulator.Sweep
import BessEmulator.Traits

/-!
# The container's thermal model

Cells and air as two nodes under a thermostat ladder with minimum run and off
times.
-/
namespace Bess

open Sweep

variable {F : Type} [Scalar F]

structure LumpedThermal (F : Type) where
  airHeatCapacityJPerK : F
  rackHeatCapacityJPerK : F
  rackToAirWPerK : F
  uaWPerK : F
  solAirCoefficientM2KPerW : F
  unitCoolingThermalW : F
  cool1OnC : F
  cool1OffC : F
  cool2OnC : F
  cool2OffC : F
  cop : F
  heatingThermalW : F
  heatOnC : F
  heatOffC : F
  unitFanW : F
  standbyW : F
  minRunS : F
  minOffS : F

namespace LumpedThermal

def default : LumpedThermal F where
  airHeatCapacityJPerK := 2.8e6
  rackHeatCapacityJPerK := 2.33e6
  rackToAirWPerK := 900.0
  uaWPerK := 500.0
  solAirCoefficientM2KPerW := 0.026
  unitCoolingThermalW := 56.0e3
  cool1OnC := 26.0
  cool1OffC := 23.5
  cool2OnC := 29.0
  cool2OffC := 26.5
  cop := 3.0
  heatingThermalW := 13.0e3
  heatOnC := 10.0
  heatOffC := 15.0
  unitFanW := 1200.0
  standbyW := 200.0
  minRunS := 180.0
  minOffS := 180.0

def solarApertureM2 (m : LumpedThermal F) : F := m.uaWPerK * m.solAirCoefficientM2KPerW

def coolingUnits : HvacMode → F
  | .cool1 => 1.0
  | .cool2 => 2.0
  | .off | .heat => 0.0

def coolingStart (m : LumpedThermal F) (airC : F) (compressorFree : Bool) : HvacMode :=
  if !compressorFree then .off else if m.cool2OnC ≤ airC then .cool2 else .cool1

def nextMode (m : LumpedThermal F) (mode : HvacMode) (airC : F) (compressorFree : Bool) :
    HvacMode :=
  -- stepping up while a compressor already runs never waits
  if 0.0 < (coolingUnits mode : F) ∧ m.cool2OnC ≤ airC then .cool2
  else
    match mode with
    | .cool2 => if airC ≤ m.cool2OffC ∧ compressorFree then .cool1 else .cool2
    | .cool1 => if airC ≤ m.cool1OffC ∧ compressorFree then .off else .cool1
    | .heat =>
      if m.cool1OnC ≤ airC then m.coolingStart airC compressorFree
      else if m.heatOffC ≤ airC then .off
      else .heat
    | .off =>
      if airC ≤ m.heatOnC then .heat
      else if m.cool1OnC ≤ airC then m.coolingStart airC compressorFree
      else .off

def nextHoldS (m : LumpedThermal F) (old new : HvacMode) (holdS dtS : F) : F :=
  let wasCooling := decide (0.0 < (coolingUnits old : F))
  let isCooling := decide (0.0 < (coolingUnits new : F))
  if isCooling && decide (new ≠ old) then m.minRunS
  else if wasCooling && !isCooling then m.minOffS
  else max (holdS - dtS) 0.0

def modeThermalW (m : LumpedThermal F) : HvacMode → F
  | .heat => -m.heatingThermalW
  | mode => coolingUnits mode * m.unitCoolingThermalW

def modeElectricalW (m : LumpedThermal F) (mode : HvacMode) : F :=
  let coolingW := coolingUnits mode * (m.unitCoolingThermalW / m.cop + m.unitFanW)
  let heatingW :=
    match mode with
    | .heat => m.heatingThermalW + m.unitFanW
    | _ => 0.0
  m.standbyW + coolingW + heatingW

/-- One rack against the bulk air, with the next rack's heat to come. -/
def stepCells (m : LumpedThermal F) (airC dtS : F) (p : List F × F) (rack : RackState F) :
    (List F × F) × RackState F :=
  match p.1 with
  | [] => (p, rack)
  | heatW :: rest =>
    let toAirW := m.rackToAirWPerK * (rack.cellTempC - (airC + rack.tempOffsetC))
    ((rest, p.2 + toAirW),
      { rack with
        cellTempC := rack.cellTempC + dtS * (heatW - toAirW) / m.rackHeatCapacityJPerK })

def stepContainer (m : LumpedThermal F) (c : ContainerState F) (rackHeatW : List F)
    (weather : Weather F) (dtS : F) : ContainerState F × ThermalFlows F :=
  let airC := c.airTempC
  let compressorFree := decide (c.hvac.compressorHoldS ≤ 0.0)
  -- a failed unit stops; its controls stay energized
  let mode := if c.hvac.failed then .off else m.nextMode c.hvac.mode airC compressorFree
  let hvacThermalW := m.modeThermalW mode
  let (p, racks) := sweep (m.stepCells airC dtS) (rackHeatW, 0) c.racks
  let envelopeGainW :=
    m.uaWPerK * (weather.ambientC - airC) + m.solarApertureM2 * weather.irradianceWm2
  ({ airTempC := airC + dtS * (p.2 + envelopeGainW - hvacThermalW) / m.airHeatCapacityJPerK
     hvac :=
       { mode := mode
         compressorHoldS := m.nextHoldS c.hvac.mode mode c.hvac.compressorHoldS dtS
         electricalW := m.modeElectricalW mode
         thermalW := hvacThermalW
         failed := c.hvac.failed }
     racks := racks },
    { cellsToAirW := p.2
      envelopeGainW := envelopeGainW
      hvacThermalW := hvacThermalW
      hvacElectricalW := m.modeElectricalW mode })

/-- The thermal model moves a rack's temperature and nothing else of it. -/
theorem stepCells_keeps {γ : Type} (m : LumpedThermal F) (g : RackState F → γ)
    (hg : ∀ r t, g { r with cellTempC := t } = g r) (airC dtS : F) (p : List F × F)
    (rack : RackState F) : g (m.stepCells airC dtS p rack).2 = g rack := by
  rw [stepCells]
  split
  · rfl
  · exact hg _ _

theorem stepContainer_keeps {γ : Type} (m : LumpedThermal F) (g : RackState F → γ)
    (hg : ∀ r t, g { r with cellTempC := t } = g r) (c : ContainerState F) (heat : List F)
    (w : Weather F) (dtS : F) :
    (m.stepContainer c heat w dtS).1.racks.map g = c.racks.map g :=
  sweep_map (fun p r => m.stepCells_keeps g hg _ _ p r) _ _

def thermalModel (m : LumpedThermal F) : ThermalModel F where
  stepContainer := m.stepContainer
  stepContainer_alarmBits c heat w dt :=
    m.stepContainer_keeps RackState.alarmBits (fun _ _ => rfl) c heat w dt

end LumpedThermal

end Bess
