import BessEmulator.Scalar

/-!
# The state tree

The plant's configuration and the tree every surface projects, field for
field. Left out: the site's geographic position and the fields no modelled
function reads. Counters the source keeps in machine words (`tick`, the log's
count, the closed periods) are naturals: none comes near its width.
-/
namespace Bess

structure RackConfig (F : Type) where
  cellsSeries : Nat
  cellCapacityAh : F
  cellNominalV : F
  maxCurrentA : F
  socMin : F
  socMax : F

structure GridConfig (F : Type) where
  poiNominalKv : F
  siteRatedW : F

structure PlantConfig (F : Type) where
  siteId : String
  blocks : Nat
  containersPerBlock : Nat
  racksPerContainer : Nat
  rack : RackConfig F
  pcsRatedW : F
  grid : GridConfig F
  initialSoc : F

section

variable {F : Type} [Scalar F]

def RackConfig.nominalV (cfg : RackConfig F) : F := cfg.cellNominalV * (cfg.cellsSeries : F)

def PlantConfig.racksPerBlock (cfg : PlantConfig F) : Nat :=
  cfg.containersPerBlock * cfg.racksPerContainer

def PlantConfig.totalRacks (cfg : PlantConfig F) : Nat := cfg.blocks * cfg.racksPerBlock

/-- The reference site: 20 blocks of one 5 MW converter and two containers each. -/
def PlantConfig.gw01 : PlantConfig F where
  siteId := "GW-01"
  blocks := 20
  containersPerBlock := 2
  racksPerContainer := 12
  rack :=
    { cellsSeries := 416
      cellCapacityAh := 314.0
      cellNominalV := 3.2
      maxCurrentA := 314.0
      socMin := 0.05
      socMax := 0.95 }
  pcsRatedW := 5.0e6
  grid := { poiNominalKv := 110.0, siteRatedW := 100.0e6 }
  initialSoc := 0.5

end

/-- Simulation tick length in seconds. -/
def TICK_SECONDS : Nat := 1

inductive Severity where
  | warning | trip
  deriving DecidableEq, Repr

inductive AlarmNode where
  | site
  | block (block : Nat)
  | rack (block container rack : Nat)
  deriving DecidableEq, Repr

inductive ResetScope where
  | site
  | block (block : Nat)
  | rack (block container rack : Nat)
  deriving DecidableEq, Repr

inductive PcsOpState where
  | standby | run | fault
  deriving DecidableEq, Repr

inductive BlockMode where
  | inService | maintenance
  deriving DecidableEq, Repr

inductive FaultAction where
  | hvacFailure (block container : Nat)
  | hvacRepair (block container : Nat)
  | pcsTrip (block : Nat)
  | protectionTrip
  | rackSelfDischarge (block container rack : Nat) (excessPpmPerDay : UInt32)
  | rackIsolate (block container rack : Nat)
  | rackRestore (block container rack : Nat)
  | blockMaintenanceEnter (block : Nat)
  | blockMaintenanceExit (block : Nat)
  | alarmReset (scope : ResetScope)
  deriving DecidableEq, Repr

inductive Event where
  | pcsStateChanged (block : Nat) (fromState toState : PcsOpState)
  | alarmRaised (node : AlarmNode) (bit : Nat) (severity : Severity)
  | alarmCleared (node : AlarmNode) (bit : Nat) (severity : Severity)
  | faultApplied (action : FaultAction)
  deriving DecidableEq, Repr

structure RackState (F : Type) where
  inService : Bool
  soc : F
  soh : F
  voltageV : F
  currentA : F
  cellTempC : F
  polarizationV : F
  resistanceScale : F
  tempOffsetC : F
  alarmBits : BitVec 32
  cellDsoc : F
  cellDvV : F
  balancingActive : Bool
  selfDischargeExcessPerS : F

inductive HvacMode where
  | off | cool1 | cool2 | heat
  deriving DecidableEq, Repr

structure HvacState (F : Type) where
  mode : HvacMode
  compressorHoldS : F
  electricalW : F
  thermalW : F
  failed : Bool

structure ContainerState (F : Type) where
  airTempC : F
  hvac : HvacState F
  racks : List (RackState F)

structure PcsState (F : Type) where
  opState : PcsOpState
  pAcSetpointW : F
  pAcW : F
  pDcW : F
  lossW : F

structure BlockState (F : Type) where
  mode : BlockMode
  pcs : PcsState F
  containers : List (ContainerState F)
  alarmBits : BitVec 32
  setpointMissS : F

/-- Every rack of a block, container by container. -/
def BlockState.racks {F : Type} (b : BlockState F) : List (RackState F) :=
  b.containers.flatMap ContainerState.racks

structure AuxPower (F : Type) where
  hvacW : F
  bmsW : F
  pcsStandbyW : F
  controlsW : F
  lightingAndSafetyW : F

structure AuxEnergy (F : Type) where
  hvacWh : F
  bmsWh : F
  pcsStandbyWh : F
  controlsWh : F
  lightingAndSafetyWh : F

structure EnergyAccounting (F : Type) where
  batteryLossWh : F
  pcsLossWh : F
  transformerLossWh : F
  auxWh : F
  auxItems : AuxEnergy F

section

variable {F : Type} [Scalar F]

def AuxPower.zero : AuxPower F := ⟨0, 0, 0, 0, 0⟩

def AuxPower.totalW (p : AuxPower F) : F :=
  p.hvacW + p.bmsW + p.pcsStandbyW + p.controlsW + p.lightingAndSafetyW

def AuxEnergy.zero : AuxEnergy F := ⟨0, 0, 0, 0, 0⟩

def AuxEnergy.accumulate (e : AuxEnergy F) (power : AuxPower F) (hours : F) : AuxEnergy F where
  hvacWh := e.hvacWh + power.hvacW * hours
  bmsWh := e.bmsWh + power.bmsW * hours
  pcsStandbyWh := e.pcsStandbyWh + power.pcsStandbyW * hours
  controlsWh := e.controlsWh + power.controlsW * hours
  lightingAndSafetyWh := e.lightingAndSafetyWh + power.lightingAndSafetyW * hours

def AuxEnergy.totalWh (e : AuxEnergy F) : F :=
  e.hvacWh + e.bmsWh + e.pcsStandbyWh + e.controlsWh + e.lightingAndSafetyWh

def EnergyAccounting.zero : EnergyAccounting F := ⟨0, 0, 0, 0, AuxEnergy.zero⟩

end

structure RevenueMeter (F : Type) where
  importWh : F
  exportWh : F
  periodStartS : Int
  periodImportWh : F
  periodExportWh : F
  periodsClosed : Nat
  lastImportWh : F
  lastExportWh : F

/-- Settlement period length, s. -/
def RevenueMeter.PERIOD_S : Int := 900

section

variable {F : Type} [Scalar F]

def RevenueMeter.new (startUnixS : Int) : RevenueMeter F := ⟨0, 0, startUnixS, 0, 0, 0, 0, 0⟩

/-- Energy goes to the open period by its sign, before the period may close. -/
def RevenueMeter.book (m : RevenueMeter F) (wh : F) : RevenueMeter F :=
  if 0 ≤ wh then
    { m with exportWh := m.exportWh + wh, periodExportWh := m.periodExportWh + wh }
  else
    { m with importWh := m.importWh - wh, periodImportWh := m.periodImportWh - wh }

def RevenueMeter.observe (m : RevenueMeter F) (poiW dtS : F) (nowS : Int) : RevenueMeter F :=
  let m := m.book (poiW * dtS / 3600)
  if nowS % RevenueMeter.PERIOD_S = 0 then
    { m with
      lastImportWh := m.periodImportWh
      lastExportWh := m.periodExportWh
      periodImportWh := 0
      periodExportWh := 0
      periodsClosed := m.periodsClosed + 1
      periodStartS := nowS }
  else m

end

structure ScenarioId where
  name : String
  contentHash : UInt64
  deriving DecidableEq, Repr

/-- Run identity. -/
structure SiteMeta where
  siteId : String
  seed : UInt64
  startUnixS : Int
  scenario : Option ScenarioId
  deriving DecidableEq, Repr

/-- The xoshiro256++ generator the tree carries. -/
structure Rng where
  s0 : UInt64
  s1 : UInt64
  s2 : UInt64
  s3 : UInt64
  deriving DecidableEq, Repr

structure Weather (F : Type) where
  ambientC : F
  irradianceWm2 : F

structure Inputs (F : Type) where
  weather : Weather F
  gridFrequencyHz : F

inductive EmsMode where
  | followPlan | external
  deriving DecidableEq, Repr

structure EmsState (F : Type) where
  mode : EmsMode
  siteSetpointW : F
  externalSetpointW : F
  availableDischargeW : F
  availableChargeW : F
  blocksReleased : Nat
  nextReleaseS : F

inductive BreakerState where
  | opened | closed
  deriving DecidableEq, Repr

structure SubstationState (F : Type) where
  hvBreaker : BreakerState
  poiActivePowerW : F
  poiReactivePowerVar : F
  poiVoltageKv : F
  frequencyHz : F
  transformerLossW : F
  auxPowerW : F
  importWh : F
  exportWh : F
  stationServiceWh : F
  revenue : RevenueMeter F

structure EventLog where
  count : Nat
  digest : UInt64
  deriving DecidableEq, Repr

structure SiteState (F : Type) where
  siteMeta : SiteMeta
  tick : Nat
  rng : Rng
  weather : Weather F
  ems : EmsState F
  substation : SubstationState F
  aux : AuxPower F
  energy : EnergyAccounting F
  blocks : List (BlockState F)
  alarmBits : BitVec 32
  eventLog : EventLog
  pendingEvents : List Event

def SiteState.unixTimeS {F : Type} (s : SiteState F) : Int := s.siteMeta.startUnixS + (s.tick : Int)

/-- Every rack on site. -/
def SiteState.racks {F : Type} (s : SiteState F) : List (RackState F) :=
  s.blocks.flatMap BlockState.racks

end Bess
