import BessEmulator.Kernel

/-!
# The between-ticks door

Physical changes an operator, a test or the scenario player makes to the
plant. A call hands back its answer and the tree it leaves, whatever the
answer; one naming a node the site does not have is refused before anything
changes. What an accepted one says waits in `pendingEvents` and goes out with
the next tick.
-/
namespace Bess

variable {F : Type} [Scalar F]

inductive CommandError where
  | noSuchNode (node : AlarmNode)
  | noSuchContainer (block container : Nat)
  deriving DecidableEq, Repr

inductive ResetError where
  | noSuchNode (scope : ResetScope)
  deriving DecidableEq, Repr

inductive FaultError where
  | command (e : CommandError)
  | reset (e : ResetError)
  deriving DecidableEq, Repr

/-- A call's answer, and the tree it leaves. -/
abbrev Reply (ε α F : Type) := Except ε α × SiteState F

def SiteState.container? (s : SiteState F) (block container : Nat) : Option (ContainerState F) :=
  s.blocks[block]?.bind fun b => b.containers[container]?

def SiteState.rack? (s : SiteState F) (block container rack : Nat) : Option (RackState F) :=
  (s.container? block container).bind fun c => c.racks[rack]?

def SiteState.modifyBlock (s : SiteState F) (block : Nat) (f : BlockState F → BlockState F) :
    SiteState F :=
  { s with blocks := s.blocks.modify block f }

def BlockState.modifyContainer (b : BlockState F) (container : Nat)
    (f : ContainerState F → ContainerState F) : BlockState F :=
  { b with containers := b.containers.modify container f }

def ContainerState.modifyRack (c : ContainerState F) (rack : Nat) (f : RackState F → RackState F) :
    ContainerState F :=
  { c with racks := c.racks.modify rack f }

def SiteState.modifyRack (s : SiteState F) (block container rack : Nat)
    (f : RackState F → RackState F) : SiteState F :=
  s.modifyBlock block fun b => b.modifyContainer container fun c => c.modifyRack rack f

def setHvacFailed (s : SiteState F) (block container : Nat) (failed : Bool) :
    Reply CommandError Unit F :=
  match s.container? block container with
  | none => (.error (.noSuchContainer block container), s)
  | some _ => (.ok (), s.modifyBlock block fun b => b.modifyContainer container fun c =>
      { c with hvac := { c.hvac with failed := failed } })

def setRackInService (s : SiteState F) (block container rack : Nat) (inService : Bool) :
    Reply CommandError Unit F :=
  match s.rack? block container rack with
  | none => (.error (.noSuchNode (.rack block container rack)), s)
  | some _ =>
    (.ok (), s.modifyRack block container rack fun r => { r with inService := inService })

def setBlockMode (s : SiteState F) (block : Nat) (mode : BlockMode) :
    Reply CommandError Unit F :=
  match s.blocks[block]? with
  | none => (.error (.noSuchNode (.block block)), s)
  | some _ => (.ok (), s.modifyBlock block fun b => { b with mode := mode })

def BlockState.toOpState (b : BlockState F) (op : PcsOpState) : BlockState F :=
  { b with pcs := { b.pcs with opState := op } }

/-- Trip one block's PCS; `false` when it was already in fault. -/
def tripPcs (s : SiteState F) (block : Nat) : Reply CommandError Bool F :=
  match s.blocks[block]? with
  | none => (.error (.noSuchNode (.block block)), s)
  | some b =>
    if b.pcs.opState = .fault then (.ok false, s)
    else
      let s := s.modifyBlock block fun b => b.toOpState .fault
      (.ok true, { s with
        pendingEvents := s.pendingEvents ++ [.pcsStateChanged block b.pcs.opState .fault] })

/-- One block of the loop of `tripProtection`. -/
def faultBlock (events : List Event) (b : BlockState F × Nat) : List Event × BlockState F :=
  if b.1.pcs.opState ≠ .fault then
    (events ++ [.pcsStateChanged b.2 b.1.pcs.opState .fault], b.1.toOpState .fault)
  else (events, b.1)

/-- Protection trips the site; `false`, changing nothing, on a tripped one. -/
def tripProtection (s : SiteState F) : SiteState F × Bool :=
  if hasBit s.alarmBits SiteBit.PROTECTION_TRIP then (s, false)
  else
    let raised : Event := .alarmRaised .site SiteBit.PROTECTION_TRIP
      (Severity.ofBit SiteBit.PROTECTION_TRIP)
    let (events, blocks) := Sweep.sweep faultBlock (s.pendingEvents ++ [raised]) s.blocks.zipIdx
    ({ s with
      alarmBits := withBit s.alarmBits SiteBit.PROTECTION_TRIP true
      substation := { s.substation with hvBreaker := .opened }
      ems := startOver s.ems
      blocks := blocks
      pendingEvents := events }, true)

/-- What a reset carries along: the tree, its events, the bits still caused. -/
structure ResetPass (F : Type) where
  state : SiteState F
  events : List Event
  still : List (AlarmNode × Nat)

def RackState.unlatch (r : RackState F) : RackState F :=
  { r with alarmBits := r.alarmBits &&& ~~~TRIP_MASK }

def resetRack (models : Models F) (cfg : PlantConfig F) (block : Nat) (p : ResetPass F)
    (addr : Nat × Nat) : ResetPass F :=
  match p.state.rack? block addr.1 addr.2 with
  | none => p
  | some r =>
    let node := rackNode block addr.1 addr.2
    let old := r.alarmBits
    let again := models.bms.rackAlarms r.unlatch cfg.rack &&& old &&& TRIP_MASK
    { state := p.state.modifyRack block addr.1 addr.2 RackState.unlatch
      events := pushChanges p.events node old r.unlatch.alarmBits
      still := p.still ++
        (((List.range' 8 8).filter fun bit => hasBit again bit).map fun bit => (node, bit)) }

/-- Container and rack index of every rack of a block, in order. -/
def BlockState.rackAddrs (b : BlockState F) : List (Nat × Nat) :=
  b.containers.zipIdx.flatMap fun c => (List.range c.1.racks.length).map fun r => (c.2, r)

/-- A PCS in fault goes back to standby; the block's latched bits clear. -/
def BlockState.unlatch (b : BlockState F) : BlockState F :=
  let b := if b.pcs.opState = .fault then b.toOpState .standby else b
  { b with alarmBits := b.alarmBits &&& ~~~TRIP_MASK }

def resetBlock (models : Models F) (cfg : PlantConfig F) (p : ResetPass F) (block : Nat) :
    ResetPass F :=
  match p.state.blocks[block]? with
  | none => p
  | some b =>
    let events :=
      if b.pcs.opState = .fault then p.events ++ [.pcsStateChanged block .fault .standby]
      else p.events
    let events := pushChanges events (.block block) b.alarmBits b.unlatch.alarmBits
    let state := p.state.modifyBlock block BlockState.unlatch
    b.rackAddrs.foldl (resetRack models cfg block) ⟨state, events, p.still⟩

/-- The site's own word, and the close button of a tripped site. -/
def resetSite (p : ResetPass F) : ResetPass F :=
  let s := p.state
  let word := s.alarmBits &&& ~~~TRIP_MASK
  let events := pushChanges p.events .site s.alarmBits word
  let s := { s with alarmBits := word }
  let s :=
    if s.substation.hvBreaker = .opened then
      { s with
        substation := { s.substation with hvBreaker := .closed }
        ems := startOver s.ems }
    else s
  { p with state := s, events := events }

def checkScope (s : SiteState F) : ResetScope → Bool
  | .site => true
  | .block b => decide (b < s.blocks.length)
  | .rack b c r => (s.rack? b c r).isSome

/-- The whole reset, on a scope the site has. -/
def resetScope (models : Models F) (cfg : PlantConfig F) (p : ResetPass F) :
    ResetScope → ResetPass F
  | .site => resetSite ((List.range p.state.blocks.length).foldl (resetBlock models cfg) p)
  | .block b => resetBlock models cfg p b
  | .rack b c r => resetRack models cfg b p (c, r)

/-- Clear the latched bits in scope; returns those whose cause is still present. -/
def resetAlarms (models : Models F) (cfg : PlantConfig F) (s : SiteState F) (scope : ResetScope) :
    Reply ResetError (List (AlarmNode × Nat)) F :=
  if checkScope s scope then
    let p := resetScope models cfg ⟨s, [], []⟩ scope
    (.ok p.still, { p.state with pendingEvents := p.state.pendingEvents ++ p.events })
  else (.error (.noSuchNode scope), s)

/-- Seconds in a day, for the self-discharge rate's unit. -/
def DAY_S : F := 86400.0

def excessPerS (ppmPerDay : UInt32) : F := (ppmPerDay.toNat : F) * 1.0e-6 / DAY_S

def hvacTo (s : SiteState F) (block container : Nat) (failed : Bool) : Reply CommandError Bool F :=
  let was := (s.container? block container).map fun c => c.hvac.failed
  (setHvacFailed s block container failed).map (Except.map fun _ => decide (was ≠ some failed)) id

def rackTo (s : SiteState F) (block container rack : Nat) (inService : Bool) :
    Reply CommandError Bool F :=
  let was := (s.rack? block container rack).map RackState.inService
  (setRackInService s block container rack inService).map
    (Except.map fun _ => decide (was ≠ some inService)) id

def modeTo (s : SiteState F) (block : Nat) (mode : BlockMode) : Reply CommandError Bool F :=
  let was := s.blocks[block]?.map BlockState.mode
  (setBlockMode s block mode).map (Except.map fun _ => decide (was ≠ some mode)) id

def selfDischargeTo (s : SiteState F) (block container rack : Nat) (ppmPerDay : UInt32) :
    Reply CommandError Bool F :=
  match s.rack? block container rack with
  | none => (.error (.noSuchNode (.rack block container rack)), s)
  | some r =>
    let rate : F := excessPerS ppmPerDay
    (.ok (!Scalar.sameBits r.selfDischargeExcessPerS rate),
      s.modifyRack block container rack fun r => { r with selfDischargeExcessPerS := rate })

/-- A command's reply at the door. -/
def Reply.command (reply : Reply CommandError Bool F) : Reply FaultError Bool F :=
  reply.map (Except.mapError .command) id

def dispatch (models : Models F) (cfg : PlantConfig F) (s : SiteState F) :
    FaultAction → Reply FaultError Bool F
  | .hvacFailure b c => (hvacTo s b c true).command
  | .hvacRepair b c => (hvacTo s b c false).command
  | .pcsTrip b => (tripPcs s b).command
  | .protectionTrip => (.ok (tripProtection s).2, (tripProtection s).1)
  | .rackSelfDischarge b c r ppm => (selfDischargeTo s b c r ppm).command
  | .rackIsolate b c r => (rackTo s b c r false).command
  | .rackRestore b c r => (rackTo s b c r true).command
  | .blockMaintenanceEnter b => (modeTo s b .maintenance).command
  | .blockMaintenanceExit b => (modeTo s b .inService).command
  | .alarmReset scope =>
    match resetAlarms models cfg s scope with
    | (.error e, after) => (.error (.reset e), after)
    | (.ok _, after) => (.ok (decide (s.pendingEvents.length < after.pendingEvents.length)), after)

/-- A reset by the door leaves what the reset leaves. -/
theorem dispatch_reset (models : Models F) (cfg : PlantConfig F) (s : SiteState F) (scope : ResetScope) :
    (dispatch models cfg s (.alarmReset scope)).2 = (resetAlarms models cfg s scope).2 := by
  rw [dispatch]
  cases resetAlarms models cfg s scope with
  | mk answer after => cases answer <;> rfl

/-- Apply a fault action between ticks, its mark ahead of what it left pending. -/
def applyAction (models : Models F) (cfg : PlantConfig F) (s : SiteState F) (action : FaultAction) :
    Reply FaultError Bool F :=
  let mark := s.pendingEvents.length
  match dispatch models cfg s action with
  | (.error e, s) => (.error e, s)
  | (.ok changed, s) =>
    (.ok changed, { s with pendingEvents := s.pendingEvents.insertIdx mark (.faultApplied action) })

def Simulation.apply (sim : Simulation F) (action : FaultAction) :
    Except FaultError Bool × Simulation F :=
  (applyAction sim.models sim.cfg sim.state action).map id fun s => { sim with state := s }

/-- What can happen to a plant between two ticks. -/
inductive Command (F : Type) where
  | setHvacFailed (block container : Nat) (failed : Bool)
  | setRackInService (block container rack : Nat) (inService : Bool)
  | setBlockMode (block : Nat) (mode : BlockMode)
  | tripPcs (block : Nat)
  | tripProtection
  | resetAlarms (scope : ResetScope)
  | apply (action : FaultAction)
  | setExternalSetpointW (setpointW : Option F)

def Simulation.command (sim : Simulation F) : Command F → Simulation F
  | .setHvacFailed b c failed => { sim with state := (setHvacFailed sim.state b c failed).2 }
  | .setRackInService b c r inService =>
    { sim with state := (setRackInService sim.state b c r inService).2 }
  | .setBlockMode b mode => { sim with state := (setBlockMode sim.state b mode).2 }
  | .tripPcs b => { sim with state := (tripPcs sim.state b).2 }
  | .tripProtection => { sim with state := (tripProtection sim.state).1 }
  | .resetAlarms scope => { sim with state := (resetAlarms sim.models sim.cfg sim.state scope).2 }
  | .apply action => { sim with state := (applyAction sim.models sim.cfg sim.state action).2 }
  | .setExternalSetpointW setpointW => sim.setExternalSetpointW setpointW

/-- One move of a plant under operation. -/
inductive Move (F : Type) where
  | command (c : Command F)
  | step (inputs : Inputs F)

def Simulation.move (sim : Simulation F) : Move F → Simulation F
  | .command c => sim.command c
  | .step inputs => sim.step inputs

def Simulation.run (sim : Simulation F) (moves : List (Move F)) : Simulation F :=
  moves.foldl Simulation.move sim

@[simp] theorem Simulation.run_nil (sim : Simulation F) : sim.run [] = sim := rfl

@[simp] theorem Simulation.run_cons (sim : Simulation F) (m : Move F) (ms : List (Move F)) :
    sim.run (m :: ms) = (sim.move m).run ms := rfl

theorem Simulation.run_append (sim : Simulation F) (as bs : List (Move F)) :
    sim.run (as ++ bs) = (sim.run as).run bs := List.foldl_append

/-- What every move preserves, every run preserves. -/
theorem Simulation.run_invariant {P : Simulation F → Prop} (h : ∀ sim m, P sim → P (sim.move m))
    (sim : Simulation F) (moves : List (Move F)) (h0 : P sim) : P (sim.run moves) := by
  induction moves generalizing sim with
  | nil => exact h0
  | cons m ms ih => exact ih _ (h sim m h0)

end Bess
