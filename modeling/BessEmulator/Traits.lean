import BessEmulator.Alarms

/-!
# Layer interfaces

One structure per layer trait. A method that takes `&mut` returns the value
it leaves behind. The kernel alone stores alarm words: a model reads them,
and the models that step a rack carry the proof that they write none.
-/
namespace Bess

structure RackStepResult (F : Type) where
  pDcW : F
  heatW : F

structure PowerLimits (F : Type) where
  maxChargeW : F
  maxDischargeW : F

structure BmsFlows (F : Type) where
  bledWh : F
  heatW : F

structure ThermalFlows (F : Type) where
  cellsToAirW : F
  envelopeGainW : F
  hvacThermalW : F
  hvacElectricalW : F

structure AuxDemand (F : Type) where
  hvacW : F
  racks : Nat
  pcsNotConverting : Nat

section

variable {F : Type} [Scalar F]

def PowerLimits.zero : PowerLimits F := ⟨0, 0⟩

def PowerLimits.add (a b : PowerLimits F) : PowerLimits F :=
  ⟨a.maxChargeW + b.maxChargeW, a.maxDischargeW + b.maxDischargeW⟩

end

structure CellModel (F : Type) where
  stepRack : RackState F → RackConfig F → F → F → RackState F × RackStepResult F
  storedEnergyWh : RackState F → RackConfig F → F
  stepRack_alarmBits : ∀ r cfg p dt, (stepRack r cfg p dt).1.alarmBits = r.alarmBits

structure BmsLogic (F : Type) where
  rackLimits : RackState F → RackConfig F → PowerLimits F
  stepBms : RackState F → RackConfig F → F → RackState F × BmsFlows F
  rackAlarms : RackState F → RackConfig F → BitVec 32
  stepBms_alarmBits : ∀ r cfg dt, (stepBms r cfg dt).1.alarmBits = r.alarmBits

structure ThermalModel (F : Type) where
  stepContainer : ContainerState F → List F → Weather F → F → ContainerState F × ThermalFlows F
  stepContainer_alarmBits : ∀ c heat w dt,
    (stepContainer c heat w dt).1.racks.map RackState.alarmBits = c.racks.map RackState.alarmBits

structure PcsModel (F : Type) where
  acCapabilityW : PowerLimits F → PowerLimits F
  dcRequestW : F → PowerLimits F → F
  finalize : PcsState F → F → PcsState F × F

structure EmsStrategy (F : Type) where
  siteTargetW : Int → SiteState F → F

structure AuxiliaryModel (F : Type) where
  stepSite : AuxDemand F → AuxPower F

structure GridInterface (F : Type) where
  step : SubstationState F → F → F → F → F → SubstationState F

structure Models (F : Type) where
  cell : CellModel F
  bms : BmsLogic F
  thermal : ThermalModel F
  pcs : PcsModel F
  ems : EmsStrategy F
  aux : AuxiliaryModel F
  grid : GridInterface F

theorem ThermalModel.stepContainer_length {F : Type} (t : ThermalModel F) (c : ContainerState F)
    (heat : List F) (w : Weather F) (dt : F) :
    (t.stepContainer c heat w dt).1.racks.length = c.racks.length := by
  have h := congrArg List.length (t.stepContainer_alarmBits c heat w dt)
  simpa using h

end Bess
