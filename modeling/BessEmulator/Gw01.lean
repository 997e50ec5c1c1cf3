import BessEmulator.Bms
import BessEmulator.Pcs
import BessEmulator.Thermal

/-!
# The GW-01 model bundle

The house load, the substation, and the reference models put together. The
EMS stays a parameter: its plan comes out of a price series compiled into the
program as a binary table.
-/
namespace Bess

variable {F : Type} [Scalar F]

structure InventoryAux (F : Type) where
  bmsPerRackW : F
  pcsStandbyW : F
  controlsW : F
  lightingAndSafetyW : F

def InventoryAux.gw01 : InventoryAux F := ⟨71.8, 339.8, 15.0e3, 10.0e3⟩

def InventoryAux.stepSite (m : InventoryAux F) (demand : AuxDemand F) : AuxPower F where
  hvacW := demand.hvacW
  bmsW := m.bmsPerRackW * (demand.racks : F)
  pcsStandbyW := m.pcsStandbyW * (demand.pcsNotConverting : F)
  controlsW := m.controlsW
  lightingAndSafetyW := m.lightingAndSafetyW

def InventoryAux.auxiliaryModel (m : InventoryAux F) : AuxiliaryModel F := ⟨m.stepSite⟩

structure SimpleGrid (F : Type) where
  siteRatedW : F
  noLoadLossW : F
  loadLossAtRatedW : F
  poiNominalKv : F

namespace SimpleGrid

def new (siteRatedW : F) : SimpleGrid F := ⟨siteRatedW, 100.0e3, 600.0e3, 110.0⟩

/-- No current crosses an open breaker: the house load moves to the station-service feed. -/
def stepOpen (sub : SubstationState F) (auxW dtS : F) : SubstationState F :=
  { sub with
    poiActivePowerW := 0
    transformerLossW := 0
    auxPowerW := auxW
    stationServiceWh := sub.stationServiceWh + auxW * dtS / 3600 }

/-- Energy through the point of interconnection, by its sign. -/
def meter (sub : SubstationState F) (wh : F) : SubstationState F :=
  if 0 ≤ wh then { sub with exportWh := sub.exportWh + wh }
  else { sub with importWh := sub.importWh - wh }

def stepClosed (m : SimpleGrid F) (sub : SubstationState F) (pAcTotalW auxW dtS : F) :
    SubstationState F :=
  let loading := pAcTotalW / m.siteRatedW
  let transformerLossW := m.noLoadLossW + m.loadLossAtRatedW * loading * loading
  let poiW := pAcTotalW - transformerLossW - auxW
  meter
    { sub with
      transformerLossW := transformerLossW
      auxPowerW := auxW
      poiActivePowerW := poiW } (poiW * dtS / 3600)

def step (m : SimpleGrid F) (sub : SubstationState F) (pAcTotalW auxW frequencyHz dtS : F) :
    SubstationState F :=
  let sub :=
    { sub with
      frequencyHz := frequencyHz
      poiVoltageKv := m.poiNominalKv
      poiReactivePowerVar := 0 }
  match sub.hvBreaker with
  | .opened => stepOpen sub auxW dtS
  | .closed => m.stepClosed sub pAcTotalW auxW dtS

def gridInterface (m : SimpleGrid F) : GridInterface F := ⟨m.step⟩

end SimpleGrid

def gw01Models (cfg : PlantConfig F) (ems : EmsStrategy F) : Models F where
  cell := (Ecm1Rc.lfp314ahRack : Ecm1Rc F).cellModel
  bms := (BasicBms.default : BasicBms F).bmsLogic
  thermal := (LumpedThermal.default : LumpedThermal F).thermalModel
  pcs := (CurvePcs.cecUtilityReference cfg.pcsRatedW).pcsModel
  ems := ems
  aux := (InventoryAux.gw01 : InventoryAux F).auxiliaryModel
  grid := (SimpleGrid.new cfg.grid.siteRatedW).gridInterface

end Bess
