import BessEmulator.EventLog
import BessEmulator.Sweep
import BessEmulator.Traits

/-!
# The tick loop

One tick of the plant as the kernel runs it: the return sequencer, the block
loop with its working buffers, the substation, the alarm words. The buffers
are indexed as the source indexes them; an index past the end panics there
and reads a default here, which no reachable plant does (`Tick.lean`).
-/
namespace Bess

open Sweep

variable {F : Type} [Scalar F]

structure ReturnPolicy (F : Type) where
  spacingS : F

def ReturnPolicy.default : ReturnPolicy F := ⟨30.0⟩

/-- Whether a block takes a share of the target and counts towards availability. -/
def dispatchable (block : BlockState F) (index : Nat) (ems : EmsState F) (connected : Bool) : Bool :=
  connected && decide (block.mode = .inService) && decide (block.pcs.opState ≠ .fault)
    && decide (index < ems.blocksReleased)

def startOver (ems : EmsState F) : EmsState F := { ems with blocksReleased := 0, nextReleaseS := 0 }

def shareW (blocks : List (BlockState F)) (ems : EmsState F) (connected : Bool) (targetW : F) : F :=
  let active := (blocks.zipIdx.filter fun p => dispatchable p.1 p.2 ems connected).length
  if active = 0 then 0 else targetW / (active : F)

def release (ems : EmsState F) (blocks : Nat) (policy : ReturnPolicy F) (dtS : F) : EmsState F :=
  if ems.blocksReleased ≥ blocks then ems
  else
    let ems :=
      if ems.nextReleaseS ≤ 0 then
        { ems with blocksReleased := ems.blocksReleased + 1, nextReleaseS := policy.spacingS }
      else ems
    if ems.blocksReleased < blocks then { ems with nextReleaseS := ems.nextReleaseS - dtS }
    else { ems with nextReleaseS := 0 }

/-- The return moves its own two fields. -/
theorem release_rest (ems : EmsState F) (blocks : Nat) (policy : ReturnPolicy F) (dtS : F) :
    (release ems blocks policy dtS).mode = ems.mode ∧
      (release ems blocks policy dtS).externalSetpointW = ems.externalSetpointW ∧
      (release ems blocks policy dtS).siteSetpointW = ems.siteSetpointW := by
  simp only [release]
  split
  · exact ⟨rfl, rfl, rfl⟩
  · split <;> split <;> exact ⟨rfl, rfl, rfl⟩

/-- The edge event of one bit, if it moved. -/
def changeOf (node : AlarmNode) (old new : BitVec 32) (bit : Nat) : Option Event :=
  if hasBit (old ^^^ new) bit then
    if hasBit new bit then some (.alarmRaised node bit (Severity.ofBit bit))
    else some (.alarmCleared node bit (Severity.ofBit bit))
  else none

/-- One raise or clear per differing bit of the published sixteen, lowest first. -/
def pushChanges (events : List Event) (node : AlarmNode) (old new : BitVec 32) : List Event :=
  if old ^^^ new = 0#32 then events
  else events ++ (List.range 16).filterMap (changeOf node old new)

/-- The hottest container's air, from minus infinity up; none without a container. -/
def airMaxC (block : BlockState F) : Option F :=
  (block.containers.map ContainerState.airTempC).foldl
    (fun m t => some (match m with | none => t | some x => max x t)) none

def evaluateBlock (block : BlockState F) (cfg : PlantConfig F) (th : BlockSiteThresholds F)
    (dtS : F) : BitVec 32 × F :=
  let word := block.alarmBits
  let miss := Scalar.abs (block.pcs.pAcSetpointW - block.pcs.pAcW) / cfg.pcsRatedW
  let missS := if th.setpointMiss.raiseAt ≤ miss then block.setpointMissS + dtS else 0
  let notMet :=
    if hasBit word BlockBit.SETPOINT_NOT_MET then decide (th.setpointMiss.clearAt < miss)
    else decide (th.setpointDeadbandS ≤ missS)
  let hot :=
    match airMaxC block with
    | none => false
    | some t => rising (hasBit word BlockBit.CONTAINER_OVER_TEMP) t th.containerAirC
  let hvacFailed := block.containers.any fun c => c.hvac.failed
  let pcsFault := decide (block.pcs.opState = .fault)
  let maintenance := decide (block.mode = .maintenance)
  let next := withBit word BlockBit.SETPOINT_NOT_MET notMet
  let next := withBit next BlockBit.CONTAINER_OVER_TEMP hot
  let next := withBit next BlockBit.HVAC_FAILURE hvacFailed
  let next := withBit next BlockBit.MAINTENANCE maintenance
  let next := withBit next BlockBit.PCS_FAULT pcsFault
  (next, missS)

def deliveredW (blocks : List (BlockState F)) : F :=
  blocks.foldl (fun acc b => acc + b.pcs.pAcW) 0

def evaluateSite (state : SiteState F) (cfg : PlantConfig F) (th : BlockSiteThresholds F) :
    BitVec 32 :=
  let word := state.alarmBits
  let setpointW := state.ems.siteSetpointW
  let delivered := deliveredW state.blocks
  let shortfall :=
    max (if 0 ≤ setpointW then setpointW - delivered else delivered - setpointW) 0
      / cfg.grid.siteRatedW
  let limited := rising (hasBit word SiteBit.POWER_LIMITED) shortfall th.siteShortfall
  let breakerOpen := decide (state.substation.hvBreaker = .opened)
  let partialAvailability :=
    (state.blocks.zipIdx.any fun p => !dispatchable p.1 p.2 state.ems (!breakerOpen))
      || state.racks.any fun r => !r.inService
  let next := withBit word SiteBit.POWER_LIMITED limited
  let next := withBit next SiteBit.PARTIAL_AVAILABILITY partialAvailability
  withBit next SiteBit.HV_BREAKER_OPEN breakerOpen

structure TickContext (F : Type) where
  models : Models F
  cfg : PlantConfig F
  thresholds : BlockSiteThresholds F
  shareW : F
  weather : Weather F
  dtS : F

structure BlockOutcome (F : Type) where
  pAcW : F
  hvacW : F
  batteryHeatW : F
  acCapability : PowerLimits F

/-- Working buffers, reused across blocks and ticks. -/
structure Scratch (F : Type) where
  rackLimits : List (PowerLimits F)
  bmsHeat : List F
  rackHeat : List F

/-- What the BMS pass threads through a block. -/
structure LimitPass (F : Type) where
  i : Nat
  rackLimits : List (PowerLimits F)
  bmsHeat : List F
  blockLimits : PowerLimits F
  inService : Nat

def limitRack (ctx : TickContext F) (p : LimitPass F) (rack : RackState F) :
    LimitPass F × RackState F :=
  let (rack, flows) := ctx.models.bms.stepBms rack ctx.cfg.rack ctx.dtS
  let lim := ctx.models.bms.rackLimits rack ctx.cfg.rack
  ({ i := p.i + 1
     rackLimits := p.rackLimits.set p.i lim
     bmsHeat := p.bmsHeat.set p.i flows.heatW
     blockLimits := p.blockLimits.add lim
     inService := p.inService + if rack.inService then 1 else 0 }, rack)

def limitContainer (ctx : TickContext F) (p : LimitPass F) (c : ContainerState F) :
    LimitPass F × ContainerState F :=
  let (p, racks) := sweep (limitRack ctx) p c.racks
  (p, { c with racks := racks })

/-- What the rack loop threads through a container. -/
structure RackPass (F : Type) where
  i : Nat
  slot : Nat
  rackHeat : List F
  pDcW : F
  batteryHeatW : F

def deliverRack (ctx : TickContext F) (rackLimits : List (PowerLimits F)) (bmsHeat : List F)
    (perRackW : F) (p : RackPass F) (rack : RackState F) : RackPass F × RackState F :=
  let lim := rackLimits.getD p.i PowerLimits.zero
  let bleedW := bmsHeat.getD p.i 0
  let requestW :=
    if rack.inService then Scalar.clamp perRackW (-lim.maxChargeW) lim.maxDischargeW else 0
  let (rack, res) := ctx.models.cell.stepRack rack ctx.cfg.rack requestW ctx.dtS
  ({ i := p.i + 1
     slot := p.slot + 1
     rackHeat := p.rackHeat.set p.slot (res.heatW + bleedW)
     pDcW := p.pDcW + res.pDcW
     batteryHeatW := p.batteryHeatW + (res.heatW + bleedW) }, rack)

def rackNode (block container rack : Nat) : AlarmNode := .rack block container rack

def wordRack (models : Models F) (cfg : PlantConfig F) (r : RackState F) : RackState F :=
  { r with alarmBits := models.bms.rackAlarms r cfg.rack }

def evaluateRack (models : Models F) (cfg : PlantConfig F) (blockIdx containerIdx : Nat)
    (events : List Event) (rack : RackState F × Nat) : List Event × RackState F :=
  let word := models.bms.rackAlarms rack.1 cfg.rack
  (pushChanges events (rackNode blockIdx containerIdx rack.2) rack.1.alarmBits word,
    wordRack models cfg rack.1)

/-- Evaluate and store the rack words of one container, pushing what changed. -/
def evaluateRacks (models : Models F) (cfg : PlantConfig F) (c : ContainerState F)
    (blockIdx containerIdx : Nat) (events : List Event) : ContainerState F × List Event :=
  let (events, racks) :=
    sweep (evaluateRack models cfg blockIdx containerIdx) events c.racks.zipIdx
  ({ c with racks := racks }, events)

/-- What the container loop threads through a block. -/
structure ContainerPass (F : Type) where
  i : Nat
  rackHeat : List F
  pDcW : F
  batteryHeatW : F
  hvacW : F
  events : List Event

def deliverContainer (ctx : TickContext F) (rackLimits : List (PowerLimits F)) (bmsHeat : List F)
    (perRackW : F) (blockIdx : Nat) (p : ContainerPass F) (c : ContainerState F × Nat) :
    ContainerPass F × ContainerState F :=
  let (r, racks) :=
    sweep (deliverRack ctx rackLimits bmsHeat perRackW)
      ⟨p.i, 0, p.rackHeat, p.pDcW, p.batteryHeatW⟩ c.1.racks
  let container := { c.1 with racks := racks }
  let (container, flows) :=
    ctx.models.thermal.stepContainer container (r.rackHeat.take racks.length) ctx.weather ctx.dtS
  -- rack words last, so they read this tick's temperatures
  let (container, events) :=
    evaluateRacks ctx.models ctx.cfg container blockIdx c.2 p.events
  (⟨r.i, r.rackHeat, r.pDcW, r.batteryHeatW, p.hvacW + flows.hvacElectricalW, events⟩, container)

/-- The transition a PCS reports, if it made one. -/
def pcsEvents (blockIdx : Nat) (before after : PcsOpState) : List Event :=
  if after ≠ before then [.pcsStateChanged blockIdx before after] else []

def stepBlock (ctx : TickContext F) (scratch : Scratch F) (block : BlockState F) (blockIdx : Nat)
    (inSet : Bool) (events : List Event) :
    Scratch F × BlockState F × List Event × BlockOutcome F :=
  let (lp, containers) :=
    sweep (limitContainer ctx) ⟨0, scratch.rackLimits, scratch.bmsHeat, PowerLimits.zero, 0⟩
      block.containers
  let acCapability :=
    if inSet then ctx.models.pcs.acCapabilityW lp.blockLimits else PowerLimits.zero
  let blockTargetW := if inSet then ctx.shareW else 0
  let dcRequestW := ctx.models.pcs.dcRequestW blockTargetW lp.blockLimits
  let perRackW := if lp.inService = 0 then 0 else dcRequestW / (lp.inService : F)
  let (cp, containers) :=
    sweep (deliverContainer ctx lp.rackLimits lp.bmsHeat perRackW blockIdx)
      ⟨0, scratch.rackHeat, 0, 0, 0, events⟩ containers.zipIdx
  let opStateBefore := block.pcs.opState
  let (pcs, pAcW) :=
    ctx.models.pcs.finalize { block.pcs with pAcSetpointW := blockTargetW } cp.pDcW
  let block := { block with containers := containers, pcs := pcs }
  let (word, missS) := evaluateBlock block ctx.cfg ctx.thresholds ctx.dtS
  let events := cp.events ++ pcsEvents blockIdx opStateBefore pcs.opState
  let events := pushChanges events (.block blockIdx) block.alarmBits word
  (⟨lp.rackLimits, lp.bmsHeat, cp.rackHeat⟩,
    { block with alarmBits := word, setpointMissS := missS }, events,
    ⟨pAcW, cp.hvacW, cp.batteryHeatW, acCapability⟩)

structure Simulation (F : Type) where
  cfg : PlantConfig F
  models : Models F
  state : SiteState F
  events : List Event
  thresholds : BlockSiteThresholds F
  returnPolicy : ReturnPolicy F
  scratch : Scratch F

def Simulation.fromState (cfg : PlantConfig F) (models : Models F) (state : SiteState F) :
    Simulation F where
  cfg := cfg
  models := models
  state := state
  events := []
  thresholds := BlockSiteThresholds.default
  returnPolicy := ReturnPolicy.default
  scratch :=
    { rackLimits := List.replicate cfg.racksPerBlock PowerLimits.zero
      bmsHeat := List.replicate cfg.racksPerBlock 0
      rackHeat := List.replicate cfg.racksPerContainer 0 }

/-- The target the EMS asks for, before the site rating clamps it. -/
def rawTargetW (models : Models F) (state : SiteState F) : F :=
  if state.substation.hvBreaker = .closed then
    match state.ems.mode with
    | .external => state.ems.externalSetpointW
    | .followPlan => models.ems.siteTargetW state.unixTimeS state
  else 0

/-- What a simulation keeps beside its tree, its buffers and its last events. -/
structure Plant (F : Type) where
  cfg : PlantConfig F
  models : Models F
  thresholds : BlockSiteThresholds F
  returnPolicy : ReturnPolicy F

def Simulation.plant (sim : Simulation F) : Plant F :=
  ⟨sim.cfg, sim.models, sim.thresholds, sim.returnPolicy⟩

/-- One tick is one second. -/
def tickS : F := (TICK_SECONDS : F)

def connectedOf (s : SiteState F) : Bool := decide (s.substation.hvBreaker = .closed)

/-- The tree under the tick's weather, its pending events taken out. -/
def openTick (s : SiteState F) (inputs : Inputs F) : SiteState F :=
  { s with pendingEvents := [], weather := inputs.weather }

def Plant.targetW (pl : Plant F) (s : SiteState F) (inputs : Inputs F) : F :=
  Scalar.clamp (rawTargetW pl.models (openTick s inputs)) (-pl.cfg.grid.siteRatedW)
    pl.cfg.grid.siteRatedW

/-- The EMS once it has a target and the return has advanced. -/
def Plant.emsTick (pl : Plant F) (s : SiteState F) (inputs : Inputs F) : EmsState F :=
  let ems := { s.ems with siteSetpointW := pl.targetW s inputs }
  if connectedOf s then release ems s.blocks.length pl.returnPolicy tickS else ems

def Plant.ctx (pl : Plant F) (s : SiteState F) (inputs : Inputs F) : TickContext F where
  models := pl.models
  cfg := pl.cfg
  thresholds := pl.thresholds
  shareW := shareW s.blocks (pl.emsTick s inputs) (connectedOf s) (pl.targetW s inputs)
  weather := inputs.weather
  dtS := tickS

/-- What the block loop threads through a site. -/
structure SitePass (F : Type) where
  scratch : Scratch F
  events : List Event
  pAcW : F
  hvacW : F
  avail : PowerLimits F
  energy : EnergyAccounting F

def stepSiteBlock (ctx : TickContext F) (ems : EmsState F) (connected : Bool) (p : SitePass F)
    (b : BlockState F × Nat) : SitePass F × BlockState F :=
  let wh := ctx.dtS / 3600
  let inSet := dispatchable b.1 b.2 ems connected
  let (scratch, block, events, outcome) := stepBlock ctx p.scratch b.1 b.2 inSet p.events
  ({ scratch := scratch
     events := events
     pAcW := p.pAcW + outcome.pAcW
     hvacW := p.hvacW + outcome.hvacW
     avail := p.avail.add outcome.acCapability
     energy :=
       { p.energy with
         batteryLossWh := p.energy.batteryLossWh + outcome.batteryHeatW * wh
         pcsLossWh := p.energy.pcsLossWh + block.pcs.lossW * wh } }, block)

/-- Energized and not converting. -/
def pcsNotConverting (blocks : List (BlockState F)) : Nat :=
  (blocks.filter fun b => decide (b.pcs.opState ≠ .run) && decide (b.mode = .inService)).length

/-- Site word, then every event of the tick into the log. -/
def closeTickAlarms (cfg : PlantConfig F) (th : BlockSiteThresholds F) (state : SiteState F)
    (events : List Event) : SiteState F × List Event :=
  let word := evaluateSite state cfg th
  let events := pushChanges events .site state.alarmBits word
  ({ state with alarmBits := word, eventLog := state.eventLog.recordAll events }, events)

/-- The house load and the substation, once every block has been stepped. -/
def settleSite (cfg : PlantConfig F) (models : Models F) (state : SiteState F) (pAcSiteW hvacW : F)
    (frequencyHz dtS : F) : SiteState F :=
  let wh := dtS / 3600
  let aux := models.aux.stepSite
    { hvacW := hvacW, racks := cfg.totalRacks, pcsNotConverting := pcsNotConverting state.blocks }
  let substation := models.grid.step state.substation pAcSiteW aux.totalW frequencyHz dtS
  let substation :=
    { substation with
      revenue := substation.revenue.observe substation.poiActivePowerW dtS
        (state.unixTimeS + (TICK_SECONDS : Int)) }
  { state with
    aux := aux
    substation := substation
    energy :=
      { state.energy with
        auxItems := state.energy.auxItems.accumulate aux wh
        transformerLossWh := state.energy.transformerLossWh + substation.transformerLossW * wh
        auxWh := state.energy.auxWh + substation.auxPowerW * wh } }

/-- Advance the plant by one tick; `events` holds what the tick hands out. -/
def Simulation.step (sim : Simulation F) (inputs : Inputs F) : Simulation F :=
  let pl := sim.plant
  let state := openTick sim.state inputs
  let ems := pl.emsTick sim.state inputs
  let ctx := pl.ctx sim.state inputs
  -- what a command left between ticks goes out first
  let (p, blocks) :=
    sweep (stepSiteBlock ctx ems (connectedOf sim.state))
      ⟨sim.scratch, sim.state.pendingEvents, 0, 0, PowerLimits.zero, state.energy⟩
      state.blocks.zipIdx
  let ems :=
    { ems with
      availableDischargeW := p.avail.maxDischargeW
      availableChargeW := p.avail.maxChargeW }
  let state := { state with ems := ems, blocks := blocks, energy := p.energy }
  let state := settleSite pl.cfg pl.models state p.pAcW p.hvacW inputs.gridFrequencyHz ctx.dtS
  let (state, events) := closeTickAlarms pl.cfg pl.thresholds state p.events
  { sim with
    state := { state with tick := state.tick + 1 }
    events := events
    scratch := p.scratch }

/-- The control surfaces' one path to the setpoint. -/
def Simulation.setExternalSetpointW (sim : Simulation F) (setpointW : Option F) : Simulation F :=
  let ems :=
    match setpointW with
    | some p => { sim.state.ems with mode := .external, externalSetpointW := p }
    | none => { sim.state.ems with mode := .followPlan, externalSetpointW := 0 }
  { sim with state := { sim.state with ems := ems } }

/-- Chemical energy stored across all racks, Wh. -/
def Simulation.storedEnergyWh (sim : Simulation F) : F :=
  sim.state.racks.foldl (fun acc r => acc + sim.models.cell.storedEnergyWh r sim.cfg.rack) 0

end Bess
