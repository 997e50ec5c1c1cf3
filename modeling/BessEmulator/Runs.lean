import BessEmulator.Tick

/-!
# Runs

Every command as a few edits of the tree, and the induction over runs that
follows: what the edits and the tick keep holds in every reachable state.
-/
namespace Bess

open Sweep

variable {F : Type} [Scalar F]

/-- What a command may do to one rack. -/
inductive RackEdit : (RackState F → RackState F) → Prop where
  | service (inService : Bool) : RackEdit fun r => { r with inService := inService }
  | excess (ppmPerDay : UInt32) :
    RackEdit fun r => { r with selfDischargeExcessPerS := excessPerS ppmPerDay }
  | unlatch : RackEdit RackState.unlatch

/-- What a command may do to one block beside its containers. -/
inductive BlockEdit : (BlockState F → BlockState F) → Prop where
  | mode (mode : BlockMode) : BlockEdit fun b => { b with mode := mode }
  | fault : BlockEdit fun b => b.toOpState .fault
  | unlatch : BlockEdit BlockState.unlatch

def ContainerState.setHvacFailed (c : ContainerState F) (failed : Bool) : ContainerState F :=
  { c with hvac := { c.hvac with failed := failed } }

/-- The tree of a protection trip, its events aside. -/
def SiteState.tripped (s : SiteState F) : SiteState F :=
  { s with
    alarmBits := withBit s.alarmBits SiteBit.PROTECTION_TRIP true
    substation := { s.substation with hvBreaker := .opened }
    ems := startOver s.ems
    blocks := s.blocks.map fun b => b.toOpState .fault }

/-- The tree of a site reset, once its blocks are reset. -/
def SiteState.closed (s : SiteState F) : SiteState F :=
  (resetSite ⟨s, [], []⟩).state

/-- A site reset lowers the latches, closes the breaker, and starts a tripped site's return over. -/
theorem SiteState.closed_eq (s : SiteState F) :
    s.closed =
      { s with
        alarmBits := s.alarmBits &&& ~~~TRIP_MASK
        substation := { s.substation with hvBreaker := .closed }
        ems := if s.substation.hvBreaker = .opened then startOver s.ems else s.ems } := by
  cases hb : s.substation.hvBreaker with
  | opened => simp [SiteState.closed, resetSite, hb]
  | closed =>
    have hsub : s.substation = { s.substation with hvBreaker := .closed } := by rw [← hb]
    rw [← hsub]
    simp [SiteState.closed, resetSite, hb]

omit [Scalar F] in
theorem unlatch_containers (b : BlockState F) : b.unlatch.containers = b.containers := by
  rw [BlockState.unlatch]
  split <;> rfl

omit [Scalar F] in
/-- What is done to a block beside its containers leaves them alone. -/
theorem BlockEdit.containers {f : BlockState F → BlockState F} (he : BlockEdit f)
    (b : BlockState F) : (f b).containers = b.containers := by
  cases he with
  | mode mode => rfl
  | fault => rfl
  | unlatch => exact unlatch_containers b

def SiteState.withSetpoint (s : SiteState F) (setpointW : Option F) : SiteState F :=
  { s with ems :=
      match setpointW with
      | some p => { s.ems with mode := .external, externalSetpointW := p }
      | none => { s.ems with mode := .followPlan, externalSetpointW := 0 } }

def SiteState.withPending (s : SiteState F) (events : List Event) : SiteState F :=
  { s with pendingEvents := events }

/-- A property no fault and no reset can break. -/
structure KeptByActions (P : SiteState F → Prop) : Prop where
  rack : ∀ {s f} b c r, RackEdit f → P s → P (s.modifyRack b c r f)
  hvac : ∀ {s} b c failed, P s →
    P (s.modifyBlock b fun b => b.modifyContainer c fun c => c.setHvacFailed failed)
  block : ∀ {s f} b, BlockEdit f → P s → P (s.modifyBlock b f)
  tripped : ∀ {s}, P s → P s.tripped
  closed : ∀ {s}, P s → P s.closed
  pending : ∀ {s} events, P s → P (s.withPending events)

/-- A property no edit of the tree can break, an operator's setpoint included. -/
structure KeptByEdits (P : SiteState F → Prop) : Prop extends KeptByActions P where
  setpoint : ∀ {s} w, P s → P (s.withSetpoint w)

omit [Scalar F] in
theorem toOpState_self {b : BlockState F} {op : PcsOpState} (h : b.pcs.opState = op) :
    b.toOpState op = b := by
  subst h
  rfl

/-- The loop of a protection trip: every PCS in fault, each change reported. -/
def faultEvent (b : BlockState F × Nat) : List Event :=
  pcsEvents b.2 b.1.pcs.opState .fault

omit [Scalar F] in
theorem sweep_faultBlock (events : List Event) (bs : List (BlockState F)) (n : Nat) :
    sweep faultBlock events (bs.zipIdx n) =
      (events ++ (bs.zipIdx n).flatMap faultEvent, bs.map fun b => b.toOpState .fault) := by
  induction bs generalizing events n with
  | nil => simp
  | cons b bs ih =>
    rw [List.zipIdx_cons, sweep_cons, ih]
    by_cases h : b.pcs.opState = .fault
    · simp [faultBlock, faultEvent, pcsEvents, h, toOpState_self h]
    · simp [faultBlock, faultEvent, pcsEvents, h, Ne.symm h]

def tripRaised : Event :=
  .alarmRaised .site SiteBit.PROTECTION_TRIP (Severity.ofBit SiteBit.PROTECTION_TRIP)

/-- A trip of a site that is not tripped. -/
theorem tripProtection_eq {s : SiteState F} (h : hasBit s.alarmBits SiteBit.PROTECTION_TRIP = false) :
    tripProtection s =
      (s.tripped.withPending
        (s.pendingEvents ++ [tripRaised] ++ s.blocks.zipIdx.flatMap faultEvent), true) := by
  rw [tripProtection]
  simp only [h, Bool.false_eq_true, if_false, sweep_faultBlock]
  rfl

/-- What a fault does to one rack. -/
inductive RackFault : (RackState F → RackState F) → Prop where
  | service (inService : Bool) : RackFault fun r => { r with inService := inService }
  | excess (ppmPerDay : UInt32) :
    RackFault fun r => { r with selfDischargeExcessPerS := excessPerS ppmPerDay }

/-- What a fault does to one block beside its containers. -/
inductive BlockFault : (BlockState F → BlockState F) → Prop where
  | mode (mode : BlockMode) : BlockFault fun b => { b with mode := mode }
  | fault : BlockFault fun b => b.toOpState .fault

theorem RackFault.edit {f : RackState F → RackState F} (h : RackFault f) : RackEdit f := by
  cases h with
  | service on => exact .service on
  | excess ppm => exact .excess ppm

omit [Scalar F] in
theorem BlockFault.edit {f : BlockState F → BlockState F} (h : BlockFault f) : BlockEdit f := by
  cases h with
  | mode mode => exact .mode mode
  | fault => exact .fault

/-- A property the faults cannot break, trips and resets aside. -/
structure KeptByFaults (P : SiteState F → Prop) : Prop where
  rack : ∀ {s f} b c r, RackFault f → P s → P (s.modifyRack b c r f)
  hvac : ∀ {s} b c failed, P s →
    P (s.modifyBlock b fun b => b.modifyContainer c fun c => c.setHvacFailed failed)
  block : ∀ {s f} b, BlockFault f → P s → P (s.modifyBlock b f)
  pending : ∀ {s} events, P s → P (s.withPending events)

/-- Nor the resets. -/
structure KeptByResets (P : SiteState F → Prop) : Prop extends KeptByFaults P where
  unlatchRack : ∀ {s} b c r, P s → P (s.modifyRack b c r RackState.unlatch)
  unlatchBlock : ∀ {s} b, P s → P (s.modifyBlock b BlockState.unlatch)
  closed : ∀ {s}, P s → P s.closed

/-- A property that reads no more of the blocks than their number. -/
theorem keptByResets_of_count {P : SiteState F → Prop}
    (hblocks : ∀ {s : SiteState F} bs, bs.length = s.blocks.length → P s → P { s with blocks := bs })
    (hpending : ∀ {s} events, P s → P (s.withPending events)) (hclosed : ∀ {s}, P s → P s.closed) :
    KeptByResets P where
  rack _ _ _ _ h := hblocks _ (List.length_modify ..) h
  hvac _ _ _ h := hblocks _ (List.length_modify ..) h
  block _ _ h := hblocks _ (List.length_modify ..) h
  pending events h := hpending events h
  unlatchRack _ _ _ h := hblocks _ (List.length_modify ..) h
  unlatchBlock _ h := hblocks _ (List.length_modify ..) h
  closed h := hclosed h

theorem KeptByActions.resets {P : SiteState F → Prop} (hP : KeptByActions P) : KeptByResets P where
  rack b c r he h := hP.rack b c r he.edit h
  hvac b c failed h := hP.hvac b c failed h
  block b he h := hP.block b he.edit h
  pending es h := hP.pending es h
  unlatchRack b c r h := hP.rack b c r .unlatch h
  unlatchBlock b h := hP.block b .unlatch h
  closed h := hP.closed h

/-- What reads no field an edit writes. -/
def Unwritten {α : Type} (f : SiteState F → α) : Prop :=
  ∀ (s : SiteState F) blocks bits breaker ems events,
    f { s with
      blocks := blocks
      alarmBits := bits
      substation := { s.substation with hvBreaker := breaker }
      ems := ems
      pendingEvents := events } = f s

/-- No edit moves it. -/
theorem Unwritten.kept {α : Type} {f : SiteState F → α} (hf : Unwritten f) (v : α) :
    KeptByEdits fun s => f s = v where
  rack b c r _ h := (hf _ _ _ _ _ _).trans h
  hvac b c failed h := (hf _ _ _ _ _ _).trans h
  block b _ h := (hf _ _ _ _ _ _).trans h
  tripped h := (hf _ _ _ _ _ _).trans h
  closed h := by
    rw [SiteState.closed_eq]
    exact (hf _ _ _ _ _ _).trans h
  setpoint w h := (hf _ _ _ _ _ _).trans h
  pending events h := (hf _ _ _ _ _ _).trans h

section

variable {P : SiteState F → Prop}

theorem kept_resetRack (hP : KeptByResets P) (models : Models F) (cfg : PlantConfig F) (block : Nat)
    (p : ResetPass F) (addr : Nat × Nat) (h : P p.state) :
    P (resetRack models cfg block p addr).state := by
  rw [resetRack]
  cases p.state.rack? block addr.1 addr.2 with
  | none => exact h
  | some r => exact hP.unlatchRack block addr.1 addr.2 h

theorem kept_resetBlock (hP : KeptByResets P) (models : Models F) (cfg : PlantConfig F)
    (p : ResetPass F) (block : Nat) (h : P p.state) :
    P (resetBlock models cfg p block).state := by
  rw [resetBlock]
  cases p.state.blocks[block]? with
  | none => exact h
  | some b =>
    have hfold : ∀ (addrs : List (Nat × Nat)) (q : ResetPass F), P q.state →
        P (addrs.foldl (resetRack models cfg block) q).state := by
      intro addrs
      induction addrs with
      | nil => intro q hq; exact hq
      | cons a as ih => intro q hq; exact ih _ (kept_resetRack hP models cfg block q a hq)
    exact hfold _ _ (hP.unlatchBlock block h)

theorem kept_resetScope (hP : KeptByResets P) (models : Models F) (cfg : PlantConfig F)
    (p : ResetPass F) (scope : ResetScope) (h : P p.state) :
    P (resetScope models cfg p scope).state := by
  cases scope with
  | site =>
    have hfold : ∀ (bs : List Nat) (q : ResetPass F), P q.state →
        P (bs.foldl (resetBlock models cfg) q).state := by
      intro bs
      induction bs with
      | nil => intro q hq; exact hq
      | cons b bs ih => intro q hq; exact ih _ (kept_resetBlock hP models cfg q b hq)
    exact hP.closed (hfold _ p h)
  | block b => exact kept_resetBlock hP models cfg p b h
  | rack b c r => exact kept_resetRack hP models cfg b p (c, r) h

theorem kept_resetAlarms (hP : KeptByResets P) (models : Models F) (cfg : PlantConfig F)
    {s : SiteState F} (scope : ResetScope) (h : P s) : P (resetAlarms models cfg s scope).2 := by
  rw [resetAlarms]
  split
  · exact hP.pending _ (kept_resetScope hP models cfg ⟨s, [], []⟩ scope h)
  · exact h

theorem kept_setHvacFailed (hP : KeptByFaults P) {s : SiteState F} (b c : Nat) (failed : Bool)
    (h : P s) : P (setHvacFailed s b c failed).2 := by
  rw [setHvacFailed]
  split
  · exact h
  · exact hP.hvac b c failed h

theorem kept_setRackInService (hP : KeptByFaults P) {s : SiteState F} (b c r : Nat) (on : Bool)
    (h : P s) : P (setRackInService s b c r on).2 := by
  rw [setRackInService]
  split
  · exact h
  · exact hP.rack b c r (.service on) h

theorem kept_setBlockMode (hP : KeptByFaults P) {s : SiteState F} (b : Nat) (mode : BlockMode)
    (h : P s) : P (setBlockMode s b mode).2 := by
  rw [setBlockMode]
  split
  · exact h
  · exact hP.block b (.mode mode) h

theorem kept_tripPcs (hP : KeptByFaults P) {s : SiteState F} (b : Nat) (h : P s) :
    P (tripPcs s b).2 := by
  rw [tripPcs]
  split
  · exact h
  · split
    · exact h
    · exact hP.pending _ (hP.block b .fault h)

theorem kept_selfDischargeTo (hP : KeptByFaults P) {s : SiteState F} (b c r : Nat) (ppm : UInt32)
    (h : P s) : P (selfDischargeTo s b c r ppm).2 := by
  rw [selfDischargeTo]
  split
  · exact h
  · exact hP.rack b c r (.excess ppm) h

theorem kept_tripProtection (hP : KeptByFaults P) {s : SiteState F} (htrip : P s.tripped)
    (h : P s) : P (tripProtection s).1 := by
  cases ht : hasBit s.alarmBits SiteBit.PROTECTION_TRIP with
  | true =>
    rw [tripProtection]
    rw [if_pos ht]
    exact h
  | false =>
    rw [tripProtection_eq ht]
    exact hP.pending _ htrip

/-- An action keeps what the faults keep, and what the trip or the reset does
if it is one. -/
theorem kept_dispatch_of (hP : KeptByFaults P) (models : Models F) (cfg : PlantConfig F)
    {s : SiteState F} (action : FaultAction) (htrip : action = .protectionTrip → P s.tripped)
    (hreset : ∀ scope, action = .alarmReset scope → P (resetAlarms models cfg s scope).2)
    (h : P s) : P (dispatch models cfg s action).2 := by
  cases action with
  | hvacFailure b c => exact kept_setHvacFailed hP b c true h
  | hvacRepair b c => exact kept_setHvacFailed hP b c false h
  | pcsTrip b => exact kept_tripPcs hP b h
  | protectionTrip => exact kept_tripProtection hP (htrip rfl) h
  | rackSelfDischarge b c r ppm => exact kept_selfDischargeTo hP b c r ppm h
  | rackIsolate b c r => exact kept_setRackInService hP b c r false h
  | rackRestore b c r => exact kept_setRackInService hP b c r true h
  | blockMaintenanceEnter b => exact kept_setBlockMode hP b .maintenance h
  | blockMaintenanceExit b => exact kept_setBlockMode hP b .inService h
  | alarmReset scope =>
    rw [dispatch_reset]
    exact hreset scope rfl

theorem kept_applyAction_of (hP : KeptByFaults P) (models : Models F) (cfg : PlantConfig F)
    {s : SiteState F} (action : FaultAction) (htrip : action = .protectionTrip → P s.tripped)
    (hreset : ∀ scope, action = .alarmReset scope → P (resetAlarms models cfg s scope).2)
    (h : P s) : P (applyAction models cfg s action).2 := by
  have hleft := kept_dispatch_of hP models cfg action htrip hreset h
  rw [applyAction]
  cases hd : dispatch models cfg s action with
  | mk answer after =>
    rw [hd] at hleft
    cases answer with
    | error e => exact hleft
    | ok changed => exact hP.pending _ hleft

theorem kept_applyAction (hP : KeptByActions P) (models : Models F) (cfg : PlantConfig F)
    {s : SiteState F} (action : FaultAction) (h : P s) : P (applyAction models cfg s action).2 :=
  kept_applyAction_of hP.resets.toKeptByFaults models cfg action (fun _ => hP.tripped h)
    (fun scope _ => kept_resetAlarms hP.resets models cfg scope h) h

end

/-- The protection trip, by either door. -/
def Command.trips : Command F → Bool
  | .tripProtection => true
  | .apply action => decide (action = .protectionTrip)
  | .setHvacFailed .. => false
  | .setRackInService .. => false
  | .setBlockMode .. => false
  | .tripPcs _ => false
  | .resetAlarms _ => false
  | .setExternalSetpointW _ => false

/-- A reset of that scope, by either door. -/
def Command.Resets (scope : ResetScope) : Command F → Prop
  | .resetAlarms sc => sc = scope
  | .apply action => action = .alarmReset scope
  | .setHvacFailed .. => False
  | .setRackInService .. => False
  | .setBlockMode .. => False
  | .tripPcs _ => False
  | .tripProtection => False
  | .setExternalSetpointW _ => False

omit [Scalar F] in
theorem Command.Resets.cases {scope : ResetScope} {c : Command F} (h : c.Resets scope) :
    c = .resetAlarms scope ∨ c = .apply (.alarmReset scope) := by
  cases c with
  | resetAlarms sc => exact .inl (congrArg _ h)
  | apply action => exact .inr (congrArg _ h)
  | setHvacFailed b c failed => exact h.elim
  | setRackInService b c r on => exact h.elim
  | setBlockMode b mode => exact h.elim
  | tripPcs b => exact h.elim
  | tripProtection => exact h.elim
  | setExternalSetpointW w => exact h.elim

section

variable {P : SiteState F → Prop}

/-- Every command keeps what the faults keep, given what its trip or its reset does. -/
theorem kept_command_of (hP : KeptByFaults P) (hset : ∀ {s} w, P s → P (s.withSetpoint w))
    (sim : Simulation F) (c : Command F) (htrip : c.trips = true → P sim.state.tripped)
    (hreset : ∀ scope, c.Resets scope → P (resetAlarms sim.models sim.cfg sim.state scope).2)
    (h : P sim.state) : P (sim.command c).state := by
  cases c with
  | setHvacFailed b c failed => exact kept_setHvacFailed hP b c failed h
  | setRackInService b c r on => exact kept_setRackInService hP b c r on h
  | setBlockMode b mode => exact kept_setBlockMode hP b mode h
  | tripPcs b => exact kept_tripPcs hP b h
  | tripProtection => exact kept_tripProtection hP (htrip rfl) h
  | resetAlarms scope => exact hreset scope rfl
  | apply action =>
    exact kept_applyAction_of hP sim.models sim.cfg action (fun ha => htrip (by rw [ha]; rfl))
      (fun scope ha => hreset scope ha) h
  | setExternalSetpointW w => exact hset w h

/-- What the edits keep, every command keeps. -/
theorem kept_command (hP : KeptByEdits P) (sim : Simulation F) (c : Command F) (h : P sim.state) :
    P (sim.command c).state :=
  kept_command_of hP.resets.toKeptByFaults (fun w => hP.setpoint w) sim c (fun _ => hP.tripped h)
    (fun scope _ => kept_resetAlarms hP.resets sim.models sim.cfg scope h) h

end

/-- A command moves nothing of a simulation but its tree. -/
theorem command_eq (sim : Simulation F) (c : Command F) :
    sim.command c = { sim with state := (sim.command c).state } := by
  cases c with
  | setHvacFailed b c failed => rfl
  | setRackInService b c r on => rfl
  | setBlockMode b mode => rfl
  | tripPcs b => rfl
  | tripProtection => rfl
  | resetAlarms scope => rfl
  | apply action => rfl
  | setExternalSetpointW w => rfl

omit [Scalar F] in
theorem block_exists {cfg : PlantConfig F} {s : SiteState F} (h : Shaped cfg s) {b : Nat}
    (hb : b < cfg.blocks) : (s.blocks[b]?).isSome := by
  rw [← h.count] at hb
  rw [List.getElem?_eq_getElem hb]
  rfl

omit [Scalar F] in
theorem container_exists {cfg : PlantConfig F} {s : SiteState F} (h : Shaped cfg s) {b c : Nat}
    (hb : b < cfg.blocks) (hc : c < cfg.containersPerBlock) : (s.container? b c).isSome := by
  obtain ⟨block, hblock⟩ := Option.isSome_iff_exists.mp (block_exists h hb)
  have hshape := h.blocks block (List.mem_of_getElem? hblock)
  rw [SiteState.container?, hblock, Option.bind_some, List.getElem?_eq_getElem
    (by rw [hshape.containers]; exact hc)]
  rfl

omit [Scalar F] in
theorem rack_exists {cfg : PlantConfig F} {s : SiteState F} (h : Shaped cfg s) {b c r : Nat}
    (hb : b < cfg.blocks) (hc : c < cfg.containersPerBlock) (hr : r < cfg.racksPerContainer) :
    (s.rack? b c r).isSome := by
  obtain ⟨container, hcontainer⟩ := Option.isSome_iff_exists.mp (container_exists h hb hc)
  obtain ⟨block, hblock, hmem⟩ := Option.bind_eq_some_iff.mp hcontainer
  have hshape := h.blocks block (List.mem_of_getElem? hblock)
  have hracks := hshape.racks container (List.mem_of_getElem? hmem)
  rw [SiteState.rack?, hcontainer, Option.bind_some, List.getElem?_eq_getElem
    (by rw [hracks]; exact hr)]
  rfl

omit [Scalar F] in
theorem shaped_blocks {cfg : PlantConfig F} {s : SiteState F} (h : Shaped cfg s) (i : Nat)
    {f : BlockState F → BlockState F} (hf : ∀ b, BlockShaped cfg b → BlockShaped cfg (f b)) :
    Shaped cfg (s.modifyBlock i f) where
  count := by rw [SiteState.modifyBlock, List.length_modify, h.count]
  blocks := forall_modify h.blocks hf

omit [Scalar F] in
theorem blockShaped_modify {cfg : PlantConfig F} {b : BlockState F} (h : BlockShaped cfg b)
    (i : Nat) {f : ContainerState F → ContainerState F}
    (hf : ∀ c, (f c).racks.length = c.racks.length) : BlockShaped cfg (b.modifyContainer i f) where
  containers := by rw [BlockState.modifyContainer, List.length_modify, h.containers]
  racks := forall_modify h.racks fun c hc => by rw [hf, hc]

omit [Scalar F] in
theorem blockShaped_of_containers {cfg : PlantConfig F} {b b' : BlockState F}
    (h : BlockShaped cfg b) (he : b'.containers = b.containers) : BlockShaped cfg b' where
  containers := by rw [he, h.containers]
  racks := by rw [he]; exact h.racks

theorem shaped_kept (cfg : PlantConfig F) : KeptByEdits (Shaped cfg) where
  rack b c r _ h := shaped_blocks h b fun _ hb => blockShaped_modify hb c fun _ => by
    rw [ContainerState.modifyRack, List.length_modify]
  hvac b c failed h := shaped_blocks h b fun _ hb => blockShaped_modify hb c fun _ => rfl
  block b he h := shaped_blocks h b fun b hb => blockShaped_of_containers hb (he.containers b)
  tripped h :=
    { count := by rw [SiteState.tripped, List.length_map, h.count]
      blocks := by
        intro b hb
        obtain ⟨b₀, hb₀, rfl⟩ := List.mem_map.mp hb
        exact blockShaped_of_containers (h.blocks b₀ hb₀) rfl }
  closed h := by
    rw [SiteState.closed_eq]
    exact ⟨h.count, h.blocks⟩
  setpoint w h := ⟨h.count, h.blocks⟩
  pending events h := ⟨h.count, h.blocks⟩

theorem blockShaped_tick (ctx : TickContext F) {b : BlockState F} (inSet : Bool)
    (h : BlockShaped ctx.cfg b) : BlockShaped ctx.cfg (blockTick ctx inSet b) where
  containers := by
    change (b.containers.map _).length = _
    rw [List.length_map, h.containers]
  racks := by
    intro c hc
    obtain ⟨c₀, hc₀, rfl⟩ := List.mem_map.mp (show c ∈ b.containers.map _ from hc)
    rw [containerTick, List.length_map, thermalTick, ThermalModel.stepContainer_length,
      deliveredContainer, List.length_map, h.racks c₀ hc₀]

theorem shaped_tick (pl : Plant F) {s : SiteState F} (inputs : Inputs F) (h : Shaped pl.cfg s) :
    Shaped pl.cfg (pl.siteTick s inputs) where
  count := by
    rw [siteTick_blocks, List.length_map, List.length_zipIdx, h.count]
  blocks := by
    intro b hb
    obtain ⟨b₀, hb₀, rfl⟩ := exists_block_before pl s inputs hb
    exact blockShaped_tick (pl.ctx s inputs) _ (h.blocks b₀.1 (List.fst_mem_of_mem_zipIdx hb₀))

/-- A simulation whose buffers and tree have the configured size. -/
structure Sound (sim : Simulation F) : Prop where
  room : Roomy sim.cfg sim.scratch
  shape : Shaped sim.cfg sim.state

theorem sound_fromState {cfg : PlantConfig F} {models : Models F} {s : SiteState F}
    (h : Shaped cfg s) : Sound (Simulation.fromState cfg models s) where
  room := by constructor <;> simp [Simulation.fromState]
  shape := h

theorem sound_new (cfg : PlantConfig F) (models : Models F) (seed : UInt64) (t : Int) :
    Sound (Simulation.new cfg models seed t) := sound_fromState (shaped_new cfg seed t)

theorem sound_command {sim : Simulation F} (h : Sound sim) (c : Command F) :
    Sound (sim.command c) := by
  rw [command_eq]
  exact ⟨h.room, kept_command (shaped_kept sim.cfg) sim c h.shape⟩

theorem sound_step {sim : Simulation F} (h : Sound sim) (inputs : Inputs F) :
    Sound (sim.step inputs) := by
  obtain ⟨scratch, hs, he⟩ := step_eq sim inputs h.room h.shape
  rw [he]
  exact ⟨hs, shaped_tick sim.plant inputs h.shape⟩

theorem sound_move {sim : Simulation F} (h : Sound sim) (m : Move F) : Sound (sim.move m) := by
  cases m with
  | command c => exact sound_command h c
  | step inputs => exact sound_step h inputs

theorem sound_run {sim : Simulation F} (h : Sound sim) (moves : List (Move F)) :
    Sound (sim.run moves) :=
  Simulation.run_invariant (P := Sound) (fun _ m h => sound_move h m) sim moves h

theorem step_state {sim : Simulation F} (h : Sound sim) (inputs : Inputs F) :
    (sim.step inputs).state = sim.plant.siteTick sim.state inputs := by
  obtain ⟨scratch, _, he⟩ := step_eq sim inputs h.room h.shape
  rw [he]

theorem step_events {sim : Simulation F} (h : Sound sim) (inputs : Inputs F) :
    (sim.step inputs).events = sim.plant.tickEvents sim.state inputs := by
  obtain ⟨scratch, _, he⟩ := step_eq sim inputs h.room h.shape
  rw [he]

theorem step_plant {sim : Simulation F} (h : Sound sim) (inputs : Inputs F) :
    (sim.step inputs).plant = sim.plant := by
  obtain ⟨scratch, _, he⟩ := step_eq sim inputs h.room h.shape
  rw [he]
  rfl

theorem command_plant (sim : Simulation F) (c : Command F) : (sim.command c).plant = sim.plant := by
  rw [command_eq]
  rfl

theorem move_plant {sim : Simulation F} (h : Sound sim) (m : Move F) :
    (sim.move m).plant = sim.plant := by
  cases m with
  | command c => exact command_plant sim c
  | step inputs => exact step_plant h inputs

theorem run_plant {sim : Simulation F} (h : Sound sim) (moves : List (Move F)) :
    (sim.run moves).plant = sim.plant := by
  induction moves generalizing sim with
  | nil => rfl
  | cons m ms ih => rw [Simulation.run_cons, ih (sound_move h m), move_plant h m]

/-- A step at the end of a run is a tick of the plant the run set out with. -/
theorem run_step_state {sim : Simulation F} (h : Sound sim) (moves : List (Move F))
    (inputs : Inputs F) :
    ((sim.run moves).step inputs).state = sim.plant.siteTick (sim.run moves).state inputs := by
  rw [step_state (sound_run h moves), run_plant h moves]

/-- The induction over runs: what the edits keep, and the tick keeps on a tree
of the configured shape, holds in every state reached. -/
theorem run_kept {P : SiteState F → Prop} {sim : Simulation F} (hs : Sound sim)
    (hP : KeptByEdits P)
    (ht : ∀ s inputs, Shaped sim.cfg s → P s → P (sim.plant.siteTick s inputs))
    (moves : List (Move F)) (h : P sim.state) : P (sim.run moves).state := by
  induction moves generalizing sim with
  | nil => exact h
  | cons m ms ih =>
    have hpl := move_plant hs m
    have hcfg : (sim.move m).cfg = sim.cfg := congrArg Plant.cfg hpl
    refine ih (sound_move hs m) ?_ ?_
    · rw [hpl, hcfg]
      exact ht
    · cases m with
      | command c => exact kept_command hP sim c h
      | step inputs =>
        change P (sim.step inputs).state
        rw [step_state hs inputs]
        exact ht sim.state inputs hs.shape h

end Bess
