import BessEmulator.Init

/-!
# A tick as a function of the tree

The same tick without its working buffers: every rack's part as one record,
every container's and block's part from those. `step_eq` says the kernel's
step computes exactly this on a tree of the configured shape, whatever the
buffers held before.
-/
namespace Bess

open Sweep

variable {F : Type} [Scalar F]

/-- The events of one word's change, on their own. -/
def changes (node : AlarmNode) (old new : BitVec 32) : List Event :=
  (List.range 16).filterMap (changeOf node old new)

theorem changes_self {node : AlarmNode} {old new : BitVec 32} (h : old ^^^ new = 0#32) :
    changes node old new = [] := by
  rw [changes]
  rw [List.filterMap_eq_nil_iff]
  intro bit _
  rw [changeOf, h, hasBit_zero]
  rfl

theorem pushChanges_eq (events : List Event) (node : AlarmNode) (old new : BitVec 32) :
    pushChanges events node old new = events ++ changes node old new := by
  rw [pushChanges]
  by_cases h : old ^^^ new = 0#32
  · rw [if_pos h, changes_self h, List.append_nil]
  · rw [if_neg h]
    rfl

/-- A rack once its BMS has run, with what the BMS let go. -/
def bmsTick (ctx : TickContext F) (r : RackState F) : RackState F × BmsFlows F :=
  ctx.models.bms.stepBms r ctx.cfg.rack ctx.dtS

def limitsOf (ctx : TickContext F) (r : RackState F) : PowerLimits F :=
  ctx.models.bms.rackLimits (bmsTick ctx r).1 ctx.cfg.rack

/-- The power one rack is asked for. -/
def requestOf (ctx : TickContext F) (perRackW : F) (r : RackState F) : F :=
  if (bmsTick ctx r).1.inService then
    Scalar.clamp perRackW (-(limitsOf ctx r).maxChargeW) (limitsOf ctx r).maxDischargeW
  else 0

/-- A rack once it has delivered, with what it delivered. -/
def cellTick (ctx : TickContext F) (perRackW : F) (r : RackState F) :
    RackState F × RackStepResult F :=
  ctx.models.cell.stepRack (bmsTick ctx r).1 ctx.cfg.rack (requestOf ctx perRackW r) ctx.dtS

/-- Cell losses and balancing bleed of one rack. -/
def heatOf (ctx : TickContext F) (perRackW : F) (r : RackState F) : F :=
  (cellTick ctx perRackW r).2.heatW + (bmsTick ctx r).2.heatW

def dcOf (ctx : TickContext F) (perRackW : F) (r : RackState F) : F :=
  (cellTick ctx perRackW r).2.pDcW

/-- A container whose racks have delivered, before its air moves. -/
def deliveredContainer (ctx : TickContext F) (perRackW : F) (c : ContainerState F) :
    ContainerState F :=
  { c with racks := c.racks.map fun r => (cellTick ctx perRackW r).1 }

def thermalTick (ctx : TickContext F) (perRackW : F) (c : ContainerState F) :
    ContainerState F × ThermalFlows F :=
  ctx.models.thermal.stepContainer (deliveredContainer ctx perRackW c)
    (c.racks.map (heatOf ctx perRackW)) ctx.weather ctx.dtS

def rackEvents (models : Models F) (cfg : PlantConfig F) (block container : Nat)
    (r : RackState F × Nat) : List Event :=
  changes (rackNode block container r.2) r.1.alarmBits (models.bms.rackAlarms r.1 cfg.rack)

def containerTick (ctx : TickContext F) (perRackW : F) (c : ContainerState F) : ContainerState F :=
  { (thermalTick ctx perRackW c).1 with
    racks := (thermalTick ctx perRackW c).1.racks.map (wordRack ctx.models ctx.cfg) }

def containerEvents (ctx : TickContext F) (perRackW : F) (block : Nat)
    (c : ContainerState F × Nat) : List Event :=
  (thermalTick ctx perRackW c.1).1.racks.zipIdx.flatMap (rackEvents ctx.models ctx.cfg block c.2)

def blockLimits (ctx : TickContext F) (b : BlockState F) : PowerLimits F :=
  (b.racks.map (limitsOf ctx)).foldl PowerLimits.add PowerLimits.zero

def inServiceCount (ctx : TickContext F) (b : BlockState F) : Nat :=
  (b.racks.filter fun r => (bmsTick ctx r).1.inService).length

def capabilityOf (ctx : TickContext F) (inSet : Bool) (b : BlockState F) : PowerLimits F :=
  if inSet then ctx.models.pcs.acCapabilityW (blockLimits ctx b) else PowerLimits.zero

def targetOf (ctx : TickContext F) (inSet : Bool) : F := if inSet then ctx.shareW else 0

/-- Each in-service rack's even part of the block's request. -/
def perRackOf (ctx : TickContext F) (inSet : Bool) (b : BlockState F) : F :=
  if inServiceCount ctx b = 0 then 0
  else
    ctx.models.pcs.dcRequestW (targetOf ctx inSet) (blockLimits ctx b)
      / (inServiceCount ctx b : F)

def sumOver {α : Type} (f : α → F) (xs : List α) : F := xs.foldl (fun acc x => acc + f x) 0

def blockDcW (ctx : TickContext F) (inSet : Bool) (b : BlockState F) : F :=
  sumOver (dcOf ctx (perRackOf ctx inSet b)) b.racks

def blockHeatW (ctx : TickContext F) (inSet : Bool) (b : BlockState F) : F :=
  sumOver (heatOf ctx (perRackOf ctx inSet b)) b.racks

def blockHvacW (ctx : TickContext F) (inSet : Bool) (b : BlockState F) : F :=
  sumOver (fun c => (thermalTick ctx (perRackOf ctx inSet b) c).2.hvacElectricalW) b.containers

/-- The block's PCS after conversion, with its AC power. -/
def pcsTick (ctx : TickContext F) (inSet : Bool) (b : BlockState F) : PcsState F × F :=
  ctx.models.pcs.finalize { b.pcs with pAcSetpointW := targetOf ctx inSet } (blockDcW ctx inSet b)

/-- A block that has converted and delivered, before its word is evaluated. -/
def deliveredBlock (ctx : TickContext F) (inSet : Bool) (b : BlockState F) : BlockState F :=
  { b with
    containers := b.containers.map (containerTick ctx (perRackOf ctx inSet b))
    pcs := (pcsTick ctx inSet b).1 }

def blockTick (ctx : TickContext F) (inSet : Bool) (b : BlockState F) : BlockState F :=
  let (word, missS) := evaluateBlock (deliveredBlock ctx inSet b) ctx.cfg ctx.thresholds ctx.dtS
  { deliveredBlock ctx inSet b with alarmBits := word, setpointMissS := missS }

@[simp] theorem blockTick_mode (ctx : TickContext F) (inSet : Bool) (b : BlockState F) :
    (blockTick ctx inSet b).mode = b.mode := rfl

@[simp] theorem blockTick_pcs (ctx : TickContext F) (inSet : Bool) (b : BlockState F) :
    (blockTick ctx inSet b).pcs = (pcsTick ctx inSet b).1 := rfl

@[simp] theorem blockTick_containers (ctx : TickContext F) (inSet : Bool) (b : BlockState F) :
    (blockTick ctx inSet b).containers =
      b.containers.map (containerTick ctx (perRackOf ctx inSet b)) := rfl

theorem blockTick_alarmBits (ctx : TickContext F) (inSet : Bool) (b : BlockState F) :
    (blockTick ctx inSet b).alarmBits =
      (evaluateBlock (deliveredBlock ctx inSet b) ctx.cfg ctx.thresholds ctx.dtS).1 := rfl

def blockEvents (ctx : TickContext F) (inSet : Bool) (block : Nat) (b : BlockState F) :
    List Event :=
  b.containers.zipIdx.flatMap (containerEvents ctx (perRackOf ctx inSet b) block)
    ++ pcsEvents block b.pcs.opState (pcsTick ctx inSet b).1.opState
    ++ changes (.block block) b.alarmBits (blockTick ctx inSet b).alarmBits

def blockOutcome (ctx : TickContext F) (inSet : Bool) (b : BlockState F) : BlockOutcome F where
  pAcW := (pcsTick ctx inSet b).2
  hvacW := blockHvacW ctx inSet b
  batteryHeatW := blockHeatW ctx inSet b
  acCapability := capabilityOf ctx inSet b

/-- The BMS pass over nested slices is one loop over the block's racks. -/
theorem limit_containers (ctx : TickContext F) (p : LimitPass F) (cs : List (ContainerState F)) :
    sweep (limitContainer ctx) p cs =
      ((sweep (limitRack ctx) p (cs.flatMap ContainerState.racks)).1,
        cs.map fun c => { c with racks := c.racks.map fun r => (bmsTick ctx r).1 }) := by
  induction cs generalizing p with
  | nil => rfl
  | cons c cs ih =>
    have hr : (sweep (limitRack ctx) p c.racks).2 = c.racks.map fun r => (bmsTick ctx r).1 :=
      sweep_eq_map (f := limitRack ctx) (fun _ _ => rfl) p c.racks
    rw [sweep_cons, ih, List.flatMap_cons, sweep_append]
    simp only [limitContainer, hr, List.map_cons]

/-- What the BMS pass leaves in its buffers and accumulators. -/
theorem limit_racks (ctx : TickContext F) (p : LimitPass F) (rs : List (RackState F)) :
    (sweep (limitRack ctx) p rs).1 =
      { i := p.i + rs.length
        rackLimits := fill p.rackLimits p.i (rs.map (limitsOf ctx))
        bmsHeat := fill p.bmsHeat p.i (rs.map fun r => (bmsTick ctx r).2.heatW)
        blockLimits := (rs.map (limitsOf ctx)).foldl PowerLimits.add p.blockLimits
        inService := p.inService + (rs.filter fun r => (bmsTick ctx r).1.inService).length } := by
  induction rs generalizing p with
  | nil => rfl
  | cons r rs ih =>
    rw [sweep_cons, ih]
    simp only [limitRack, List.map_cons, List.foldl_cons, fill_cons, List.length_cons,
      LimitPass.mk.injEq]
    refine ⟨by omega, rfl, rfl, rfl, ?_⟩
    rw [List.filter_cons]
    cases h : (bmsTick ctx r).1.inService with
    | true =>
      rw [bmsTick] at h
      simp only [h, if_true, List.length_cons]
      omega
    | false =>
      rw [bmsTick] at h
      simp [h]

/-- Reading the slots the BMS pass wrote, each rack gets its own limits and bleed. -/
theorem deliver_racks (ctx : TickContext F) (limits : List (PowerLimits F)) (heat : List F)
    (perRackW : F) (rs : List (RackState F)) (p : RackPass F) (tl : List (PowerLimits F))
    (th : List F) (hl : limits.drop p.i = rs.map (limitsOf ctx) ++ tl)
    (hh : heat.drop p.i = (rs.map fun r => (bmsTick ctx r).2.heatW) ++ th) :
    sweep (deliverRack ctx limits heat perRackW) p (rs.map fun r => (bmsTick ctx r).1) =
      ({ i := p.i + rs.length
         slot := p.slot + rs.length
         rackHeat := fill p.rackHeat p.slot (rs.map (heatOf ctx perRackW))
         pDcW := rs.foldl (fun acc r => acc + dcOf ctx perRackW r) p.pDcW
         batteryHeatW := rs.foldl (fun acc r => acc + heatOf ctx perRackW r) p.batteryHeatW },
        rs.map fun r => (cellTick ctx perRackW r).1) := by
  induction rs generalizing p with
  | nil => rfl
  | cons r rs ih =>
    rw [List.map_cons, List.cons_append] at hl hh
    have hstep : deliverRack ctx limits heat perRackW p (bmsTick ctx r).1 =
        (⟨p.i + 1, p.slot + 1, p.rackHeat.set p.slot (heatOf ctx perRackW r),
          p.pDcW + dcOf ctx perRackW r, p.batteryHeatW + heatOf ctx perRackW r⟩,
          (cellTick ctx perRackW r).1) := by
      simp only [deliverRack, getD_of_drop hl, getD_of_drop hh]
      rfl
    rw [List.map_cons, sweep_cons, hstep, ih _ (drop_succ_of_drop hl) (drop_succ_of_drop hh)]
    simp only [List.length_cons, List.map_cons, fill_cons, List.foldl_cons, Prod.mk.injEq,
      RackPass.mk.injEq, and_true]
    omega

omit [Scalar F] in
theorem evaluate_racks (models : Models F) (cfg : PlantConfig F) (block container : Nat)
    (rs : List (RackState F)) (n : Nat) (events : List Event) :
    sweep (evaluateRack models cfg block container) events (rs.zipIdx n) =
      (events ++ (rs.zipIdx n).flatMap (rackEvents models cfg block container),
        rs.map (wordRack models cfg)) := by
  induction rs generalizing n events with
  | nil => simp
  | cons r rs ih =>
    rw [List.zipIdx_cons, sweep_cons, ih]
    simp only [evaluateRack, pushChanges_eq, rackEvents, List.flatMap_cons, List.append_assoc,
      List.map_cons]

omit [Scalar F] in
theorem evaluateRacks_eq (models : Models F) (cfg : PlantConfig F) (c : ContainerState F)
    (block container : Nat) (events : List Event) :
    evaluateRacks models cfg c block container events =
      ({ c with racks := c.racks.map (wordRack models cfg) },
        events ++ c.racks.zipIdx.flatMap (rackEvents models cfg block container)) := by
  rw [evaluateRacks]
  rw [evaluate_racks]

theorem deliver_container (ctx : TickContext F) (limits : List (PowerLimits F)) (heat : List F)
    (perRackW : F) (block idx : Nat) (c : ContainerState F) (p : ContainerPass F)
    (tl : List (PowerLimits F)) (th : List F)
    (hl : limits.drop p.i = c.racks.map (limitsOf ctx) ++ tl)
    (hh : heat.drop p.i = (c.racks.map fun r => (bmsTick ctx r).2.heatW) ++ th)
    (hroom : c.racks.length ≤ p.rackHeat.length) :
    deliverContainer ctx limits heat perRackW block p
        ({ c with racks := c.racks.map fun r => (bmsTick ctx r).1 }, idx) =
      ({ i := p.i + c.racks.length
         rackHeat := fill p.rackHeat 0 (c.racks.map (heatOf ctx perRackW))
         pDcW := c.racks.foldl (fun acc r => acc + dcOf ctx perRackW r) p.pDcW
         batteryHeatW := c.racks.foldl (fun acc r => acc + heatOf ctx perRackW r) p.batteryHeatW
         hvacW := p.hvacW + (thermalTick ctx perRackW c).2.hvacElectricalW
         events := p.events ++ containerEvents ctx perRackW block (c, idx) },
        containerTick ctx perRackW c) := by
  have hheat : (fill p.rackHeat 0 (c.racks.map (heatOf ctx perRackW))).take
      (c.racks.map fun r => (cellTick ctx perRackW r).1).length =
        c.racks.map (heatOf ctx perRackW) := by
    have hlen : (c.racks.map fun r => (cellTick ctx perRackW r).1).length =
        (c.racks.map (heatOf ctx perRackW)).length := by simp
    rw [hlen]
    exact fill_zero_take _ _ (by simpa using hroom)
  have hr := deliver_racks ctx limits heat perRackW c.racks
    ⟨p.i, 0, p.rackHeat, p.pDcW, p.batteryHeatW⟩ tl th hl hh
  rw [deliverContainer]
  simp only [hr, hheat, evaluateRacks_eq]
  rfl

/-- The container loop, from any point of the block on. -/
theorem deliver_containers (ctx : TickContext F) (limits : List (PowerLimits F)) (heat : List F)
    (perRackW : F) (block : Nat) (cs : List (ContainerState F)) (n : Nat) (p : ContainerPass F)
    (tl : List (PowerLimits F)) (th : List F)
    (hl : limits.drop p.i = (cs.flatMap ContainerState.racks).map (limitsOf ctx) ++ tl)
    (hh : heat.drop p.i =
      ((cs.flatMap ContainerState.racks).map fun r => (bmsTick ctx r).2.heatW) ++ th)
    (hroom : ∀ c ∈ cs, c.racks.length ≤ p.rackHeat.length) :
    ∃ rackHeat : List F, rackHeat.length = p.rackHeat.length ∧
      sweep (deliverContainer ctx limits heat perRackW block) p
          ((cs.map fun c => { c with racks := c.racks.map fun r => (bmsTick ctx r).1 }).zipIdx n) =
        ({ i := p.i + (cs.flatMap ContainerState.racks).length
           rackHeat := rackHeat
           pDcW := (cs.flatMap ContainerState.racks).foldl
             (fun acc r => acc + dcOf ctx perRackW r) p.pDcW
           batteryHeatW := (cs.flatMap ContainerState.racks).foldl
             (fun acc r => acc + heatOf ctx perRackW r) p.batteryHeatW
           hvacW := cs.foldl
             (fun acc c => acc + (thermalTick ctx perRackW c).2.hvacElectricalW) p.hvacW
           events := p.events ++ (cs.zipIdx n).flatMap (containerEvents ctx perRackW block) },
          cs.map (containerTick ctx perRackW)) := by
  induction cs generalizing n p with
  | nil => exact ⟨p.rackHeat, rfl, by simp⟩
  | cons c cs ih =>
    rw [List.flatMap_cons, List.map_append, List.append_assoc] at hl hh
    have hc := deliver_container ctx limits heat perRackW block n c p _ _ hl hh
      (hroom c List.mem_cons_self)
    have drop_run : ∀ {α : Type} {buf vs rest : List α} {i : Nat},
        buf.drop i = vs ++ rest → buf.drop (i + vs.length) = rest := by
      intro α buf vs rest i h
      rw [← List.drop_drop, h, List.drop_left]
    have hl' := drop_run hl
    have hh' := drop_run hh
    rw [List.length_map] at hl' hh'
    rw [List.map_cons, List.zipIdx_cons, sweep_cons, hc]
    obtain ⟨rackHeat, hlen, hih⟩ := ih (n + 1)
      { i := p.i + c.racks.length
        rackHeat := fill p.rackHeat 0 (c.racks.map (heatOf ctx perRackW))
        pDcW := c.racks.foldl (fun acc r => acc + dcOf ctx perRackW r) p.pDcW
        batteryHeatW := c.racks.foldl (fun acc r => acc + heatOf ctx perRackW r) p.batteryHeatW
        hvacW := p.hvacW + (thermalTick ctx perRackW c).2.hvacElectricalW
        events := p.events ++ containerEvents ctx perRackW block (c, n) } hl' hh' (by
          intro c' hc'
          rw [fill_length]
          exact hroom c' (List.mem_cons_of_mem _ hc'))
    refine ⟨rackHeat, by rw [hlen, fill_length], ?_⟩
    rw [hih]
    simp only [List.flatMap_cons, List.length_append, List.foldl_append, List.foldl_cons,
      List.zipIdx_cons, List.map_cons, List.append_assoc, Nat.add_assoc]

/-- Buffers of the size the configuration asks for. -/
structure Roomy (cfg : PlantConfig F) (scratch : Scratch F) : Prop where
  rackLimits : scratch.rackLimits.length = cfg.racksPerBlock
  bmsHeat : scratch.bmsHeat.length = cfg.racksPerBlock
  rackHeat : scratch.rackHeat.length = cfg.racksPerContainer

/-- One block: whatever the buffers held, the outcome is the tree's alone. -/
theorem stepBlock_eq (ctx : TickContext F) (scratch : Scratch F) (b : BlockState F) (block : Nat)
    (inSet : Bool) (events : List Event) (hs : Roomy ctx.cfg scratch) (hb : BlockShaped ctx.cfg b) :
    ∃ scratch', Roomy ctx.cfg scratch' ∧
      stepBlock ctx scratch b block inSet events =
        (scratch', blockTick ctx inSet b, events ++ blockEvents ctx inSet block b,
          blockOutcome ctx inSet b) := by
  have hn := hb.racks_length
  have hlim := limit_containers ctx ⟨0, scratch.rackLimits, scratch.bmsHeat, PowerLimits.zero, 0⟩
    b.containers
  have hrs := limit_racks ctx ⟨0, scratch.rackLimits, scratch.bmsHeat, PowerLimits.zero, 0⟩ b.racks
  rw [BlockState.racks] at hrs hn
  rw [hrs] at hlim
  obtain ⟨tl, htl⟩ := fill_drop scratch.rackLimits 0
    ((b.containers.flatMap ContainerState.racks).map (limitsOf ctx))
    (by rw [List.length_map, hs.rackLimits, hn]; omega)
  obtain ⟨th, hth⟩ := fill_drop scratch.bmsHeat 0
    ((b.containers.flatMap ContainerState.racks).map fun r => (bmsTick ctx r).2.heatW)
    (by rw [List.length_map, hs.bmsHeat, hn]; omega)
  obtain ⟨rackHeat, hlen, hcp⟩ := deliver_containers ctx _ _ (perRackOf ctx inSet b) block
    b.containers 0 ⟨0, scratch.rackHeat, 0, 0, 0, events⟩ tl th htl hth
    (fun c hc => by rw [hb.racks c hc, hs.rackHeat])
  refine ⟨⟨fill scratch.rackLimits 0 ((b.containers.flatMap ContainerState.racks).map (limitsOf ctx)),
      fill scratch.bmsHeat 0
        ((b.containers.flatMap ContainerState.racks).map fun r => (bmsTick ctx r).2.heatW),
      rackHeat⟩, ⟨?_, ?_, ?_⟩, ?_⟩
  · rw [fill_length, hs.rackLimits]
  · rw [fill_length, hs.bmsHeat]
  · rw [hlen, hs.rackHeat]
  · have hper : (if (b.racks.filter fun r => (bmsTick ctx r).1.inService).length = 0 then (0 : F)
        else ctx.models.pcs.dcRequestW (if inSet then ctx.shareW else 0)
          ((b.racks.map (limitsOf ctx)).foldl PowerLimits.add PowerLimits.zero)
            / ((b.racks.filter fun r => (bmsTick ctx r).1.inService).length : F)) =
        perRackOf ctx inSet b := rfl
    rw [BlockState.racks] at hper
    rw [stepBlock]
    simp only [hlim, Nat.zero_add, hper, hcp, pushChanges_eq, List.append_assoc]
    simp only [blockEvents, List.append_assoc]
    rfl

def Plant.inSet (pl : Plant F) (s : SiteState F) (inputs : Inputs F) (b : BlockState F × Nat) :
    Bool :=
  dispatchable b.1 b.2 (pl.emsTick s inputs) (connectedOf s)

def Plant.nextBlock (pl : Plant F) (s : SiteState F) (inputs : Inputs F) (b : BlockState F × Nat) :
    BlockState F :=
  blockTick (pl.ctx s inputs) (pl.inSet s inputs b) b.1

def Plant.outcome (pl : Plant F) (s : SiteState F) (inputs : Inputs F) (b : BlockState F × Nat) :
    BlockOutcome F :=
  blockOutcome (pl.ctx s inputs) (pl.inSet s inputs b) b.1

def Plant.blockEvents (pl : Plant F) (s : SiteState F) (inputs : Inputs F)
    (b : BlockState F × Nat) : List Event :=
  Bess.blockEvents (pl.ctx s inputs) (pl.inSet s inputs b) b.2 b.1

def Plant.availOf (pl : Plant F) (s : SiteState F) (inputs : Inputs F) : PowerLimits F :=
  s.blocks.zipIdx.foldl (fun acc b => acc.add (pl.outcome s inputs b).acCapability) PowerLimits.zero

/-- The books after the block loop. -/
def Plant.bookBlock (pl : Plant F) (s : SiteState F) (inputs : Inputs F) (e : EnergyAccounting F)
    (b : BlockState F × Nat) : EnergyAccounting F :=
  { e with
    batteryLossWh := e.batteryLossWh + (pl.outcome s inputs b).batteryHeatW * (tickS / 3600)
    pcsLossWh := e.pcsLossWh + (pl.nextBlock s inputs b).pcs.lossW * (tickS / 3600) }

/-- The tree once every block has been stepped. -/
def Plant.steppedSite (pl : Plant F) (s : SiteState F) (inputs : Inputs F) : SiteState F :=
  { openTick s inputs with
    ems :=
      { pl.emsTick s inputs with
        availableDischargeW := (pl.availOf s inputs).maxDischargeW
        availableChargeW := (pl.availOf s inputs).maxChargeW }
    blocks := s.blocks.zipIdx.map (pl.nextBlock s inputs)
    energy := s.blocks.zipIdx.foldl (pl.bookBlock s inputs) s.energy }

def Plant.settledSite (pl : Plant F) (s : SiteState F) (inputs : Inputs F) : SiteState F :=
  settleSite pl.cfg pl.models (pl.steppedSite s inputs)
    (sumOver (fun b => (pl.outcome s inputs b).pAcW) s.blocks.zipIdx)
    (sumOver (fun b => (pl.outcome s inputs b).hvacW) s.blocks.zipIdx)
    inputs.gridFrequencyHz tickS

def Plant.siteWord (pl : Plant F) (s : SiteState F) (inputs : Inputs F) : BitVec 32 :=
  evaluateSite (pl.settledSite s inputs) pl.cfg pl.thresholds

/-- The events of one tick past those that were pending. -/
def Plant.newEvents (pl : Plant F) (s : SiteState F) (inputs : Inputs F) : List Event :=
  s.blocks.zipIdx.flatMap (pl.blockEvents s inputs)
    ++ changes .site s.alarmBits (pl.siteWord s inputs)

def Plant.tickEvents (pl : Plant F) (s : SiteState F) (inputs : Inputs F) : List Event :=
  s.pendingEvents ++ pl.newEvents s inputs

def Plant.siteTick (pl : Plant F) (s : SiteState F) (inputs : Inputs F) : SiteState F :=
  { pl.settledSite s inputs with
    alarmBits := pl.siteWord s inputs
    eventLog := s.eventLog.recordAll (pl.tickEvents s inputs)
    tick := s.tick + 1 }

/-- AC power of all blocks. -/
def Plant.siteAcW (pl : Plant F) (s : SiteState F) (inputs : Inputs F) : F :=
  sumOver (fun b => (pl.outcome s inputs b).pAcW) s.blocks.zipIdx

def Plant.auxPower (pl : Plant F) (s : SiteState F) (inputs : Inputs F) : AuxPower F :=
  pl.models.aux.stepSite
    { hvacW := sumOver (fun b => (pl.outcome s inputs b).hvacW) s.blocks.zipIdx
      racks := pl.cfg.totalRacks
      pcsNotConverting := pcsNotConverting (s.blocks.zipIdx.map (pl.nextBlock s inputs)) }

/-- The substation as the grid model leaves it, before the fiscal meter reads it. -/
def Plant.gridTick (pl : Plant F) (s : SiteState F) (inputs : Inputs F) : SubstationState F :=
  pl.models.grid.step s.substation (pl.siteAcW s inputs) (pl.auxPower s inputs).totalW
    inputs.gridFrequencyHz tickS

section

variable (pl : Plant F) (s : SiteState F) (inputs : Inputs F)

theorem siteTick_blocks :
    (pl.siteTick s inputs).blocks = s.blocks.zipIdx.map (pl.nextBlock s inputs) := rfl

/-- A block handed out is one of those found, stepped. -/
theorem exists_block_before {b : BlockState F} (hb : b ∈ (pl.siteTick s inputs).blocks) :
    ∃ b₀ ∈ s.blocks.zipIdx, pl.nextBlock s inputs b₀ = b := by
  rw [siteTick_blocks] at hb
  exact List.mem_map.mp hb

/-- So is a container, under its block's part of the request. -/
theorem exists_container_before {b : BlockState F} (hb : b ∈ (pl.siteTick s inputs).blocks)
    {c : ContainerState F} (hc : c ∈ b.containers) :
    ∃ b₀ ∈ s.blocks.zipIdx, ∃ c₀ ∈ b₀.1.containers,
      containerTick (pl.ctx s inputs)
        (perRackOf (pl.ctx s inputs) (pl.inSet s inputs b₀) b₀.1) c₀ = c := by
  obtain ⟨b₀, hb₀, rfl⟩ := exists_block_before pl s inputs hb
  rw [Plant.nextBlock, blockTick_containers] at hc
  exact ⟨b₀, hb₀, List.mem_map.mp hc⟩

theorem siteTick_blocksReleased :
    (pl.siteTick s inputs).ems.blocksReleased = (pl.emsTick s inputs).blocksReleased := rfl

theorem siteTick_available :
    (pl.siteTick s inputs).ems.availableDischargeW = (pl.availOf s inputs).maxDischargeW ∧
      (pl.siteTick s inputs).ems.availableChargeW = (pl.availOf s inputs).maxChargeW := ⟨rfl, rfl⟩

theorem siteTick_substation :
    (pl.siteTick s inputs).substation =
      { pl.gridTick s inputs with
        revenue := (pl.gridTick s inputs).revenue.observe (pl.gridTick s inputs).poiActivePowerW
          tickS (s.unixTimeS + (TICK_SECONDS : Int)) } := rfl

theorem siteTick_energy :
    (pl.siteTick s inputs).energy =
      { s.blocks.zipIdx.foldl (pl.bookBlock s inputs) s.energy with
        auxItems := (s.blocks.zipIdx.foldl (pl.bookBlock s inputs) s.energy).auxItems.accumulate
          (pl.auxPower s inputs) (tickS / 3600)
        transformerLossWh :=
          (s.blocks.zipIdx.foldl (pl.bookBlock s inputs) s.energy).transformerLossWh
            + (pl.gridTick s inputs).transformerLossW * (tickS / 3600)
        auxWh := (s.blocks.zipIdx.foldl (pl.bookBlock s inputs) s.energy).auxWh
          + (pl.gridTick s inputs).auxPowerW * (tickS / 3600) } := rfl

/-- The block loop books the batteries and the converters, nothing else. -/
theorem bookBlocks_frame (bs : List (BlockState F × Nat)) (e : EnergyAccounting F) :
    (bs.foldl (pl.bookBlock s inputs) e).auxWh = e.auxWh ∧
      (bs.foldl (pl.bookBlock s inputs) e).auxItems = e.auxItems ∧
      (bs.foldl (pl.bookBlock s inputs) e).transformerLossWh = e.transformerLossWh := by
  induction bs generalizing e with
  | nil => exact ⟨rfl, rfl, rfl⟩
  | cons b bs ih => exact ih _

end

theorem site_blocks (pl : Plant F) (s : SiteState F) (inputs : Inputs F)
    (bs : List (BlockState F)) (n : Nat) (p : SitePass F) (hs : Roomy pl.cfg p.scratch)
    (hb : ∀ b ∈ bs, BlockShaped pl.cfg b) :
    ∃ scratch, Roomy pl.cfg scratch ∧
      sweep (stepSiteBlock (pl.ctx s inputs) (pl.emsTick s inputs) (connectedOf s)) p (bs.zipIdx n) =
        ({ scratch := scratch
           events := p.events ++ (bs.zipIdx n).flatMap (pl.blockEvents s inputs)
           pAcW := (bs.zipIdx n).foldl (fun acc b => acc + (pl.outcome s inputs b).pAcW) p.pAcW
           hvacW := (bs.zipIdx n).foldl (fun acc b => acc + (pl.outcome s inputs b).hvacW) p.hvacW
           avail := (bs.zipIdx n).foldl
             (fun acc b => acc.add (pl.outcome s inputs b).acCapability) p.avail
           energy := (bs.zipIdx n).foldl (pl.bookBlock s inputs) p.energy },
          (bs.zipIdx n).map (pl.nextBlock s inputs)) := by
  induction bs generalizing n p with
  | nil => exact ⟨p.scratch, hs, by simp⟩
  | cons b bs ih =>
    obtain ⟨scratch₁, hs₁, hb₁⟩ := stepBlock_eq (pl.ctx s inputs) p.scratch b n
      (pl.inSet s inputs (b, n)) p.events hs (hb b List.mem_cons_self)
    have hstep : stepSiteBlock (pl.ctx s inputs) (pl.emsTick s inputs) (connectedOf s) p (b, n) =
        ({ scratch := scratch₁
           events := p.events ++ pl.blockEvents s inputs (b, n)
           pAcW := p.pAcW + (pl.outcome s inputs (b, n)).pAcW
           hvacW := p.hvacW + (pl.outcome s inputs (b, n)).hvacW
           avail := p.avail.add (pl.outcome s inputs (b, n)).acCapability
           energy := pl.bookBlock s inputs p.energy (b, n) }, pl.nextBlock s inputs (b, n)) := by
      rw [Plant.inSet] at hb₁
      simp only [stepSiteBlock, hb₁]
      rfl
    obtain ⟨scratch, hs', hih⟩ := ih (n + 1)
      { scratch := scratch₁
        events := p.events ++ pl.blockEvents s inputs (b, n)
        pAcW := p.pAcW + (pl.outcome s inputs (b, n)).pAcW
        hvacW := p.hvacW + (pl.outcome s inputs (b, n)).hvacW
        avail := p.avail.add (pl.outcome s inputs (b, n)).acCapability
        energy := pl.bookBlock s inputs p.energy (b, n) } hs₁
      fun b' hb' => hb b' (List.mem_cons_of_mem _ hb')
    refine ⟨scratch, hs', ?_⟩
    rw [List.zipIdx_cons, sweep_cons, hstep, hih]
    simp only [List.flatMap_cons, List.append_assoc, List.foldl_cons, List.map_cons]

/-- The kernel's step is the tick of the tree, whatever its buffers held. -/
theorem step_eq (sim : Simulation F) (inputs : Inputs F) (hs : Roomy sim.cfg sim.scratch)
    (hb : Shaped sim.cfg sim.state) :
    ∃ scratch, Roomy sim.cfg scratch ∧
      sim.step inputs =
        { sim with
          state := sim.plant.siteTick sim.state inputs
          events := sim.plant.tickEvents sim.state inputs
          scratch := scratch } := by
  obtain ⟨scratch, hs', hp⟩ := site_blocks sim.plant sim.state inputs sim.state.blocks 0
    ⟨sim.scratch, sim.state.pendingEvents, 0, 0, PowerLimits.zero, sim.state.energy⟩ hs hb.blocks
  refine ⟨scratch, hs', ?_⟩
  have hblocks : (openTick sim.state inputs).blocks = sim.state.blocks := rfl
  have henergy : (openTick sim.state inputs).energy = sim.state.energy := rfl
  rw [Simulation.step]
  simp only [hblocks, henergy, hp, closeTickAlarms, pushChanges_eq, List.append_assoc]
  rfl

end Bess
