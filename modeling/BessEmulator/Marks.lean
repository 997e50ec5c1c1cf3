import BessEmulator.Accepted
import BessEmulator.PictureCommands
import BessEmulator.Taps

/-!
# The marks of a played schedule

An accepted action leaves one mark, and nothing else leaves any: a tick's
marks are those of the operator since the last tick, then those of the
schedule's entries at this tick, in its order. The data faults of the schedule
pass through the same cursor and leave nothing.
-/
namespace BessMarks

open Bess BessCheckpoint BessAccepted BessDoor BessReplay

def markOf : Event → Option FaultAction
  | .faultApplied action => some action
  | .alarmRaised .. => none
  | .alarmCleared .. => none
  | .pcsStateChanged .. => none

def marks (events : List Event) : List FaultAction := events.filterMap markOf

@[simp] theorem marks_nil : marks [] = [] := rfl

@[simp] theorem marks_append (as bs : List Event) : marks (as ++ bs) = marks as ++ marks bs := by
  simp [marks]

theorem marks_flatMap {α : Type} {f : α → List Event} (h : ∀ x, marks (f x) = []) (xs : List α) :
    marks (xs.flatMap f) = [] := by
  induction xs with
  | nil => rfl
  | cons x xs ih => simp [h, ih]

@[simp] theorem marks_changes (node : AlarmNode) (old new : BitVec 32) :
    marks (changes node old new) = [] := by
  rw [marks, changes, List.filterMap_filterMap, List.filterMap_eq_nil_iff]
  intro bit _
  rw [changeOf]
  split
  · split <;> rfl
  · rfl

@[simp] theorem marks_pcsEvents (block : Nat) (old new : PcsOpState) :
    marks (pcsEvents block old new) = [] := by
  rw [pcsEvents]
  split <;> rfl

variable {F : Type} [Scalar F]

/-- A tick leaves no mark of its own. -/
theorem marks_newEvents (pl : Plant F) (s : SiteState F) (inputs : Inputs F) :
    marks (pl.newEvents s inputs) = [] := by
  have hrack : ∀ (b c : Nat) (r : RackState F × Nat),
      marks (rackEvents pl.models pl.cfg b c r) = [] := fun b c r => marks_changes _ _ _
  have hcontainer : ∀ (ctx : TickContext F) (p : F) (b : Nat) (c : ContainerState F × Nat),
      ctx.models = pl.models → ctx.cfg = pl.cfg → marks (containerEvents ctx p b c) = [] := by
    intro ctx p b c hm hc
    rw [containerEvents, hm, hc]
    exact marks_flatMap (hrack b c.2) _
  have hblock : ∀ b : BlockState F × Nat, marks (pl.blockEvents s inputs b) = [] := by
    intro b
    rw [Plant.blockEvents, blockEvents, marks_append, marks_append, marks_pcsEvents, marks_changes,
      marks_flatMap fun c => hcontainer _ _ _ c rfl rfl]
    rfl
  rw [Plant.newEvents, marks_append, marks_flatMap hblock, marks_changes]
  rfl

theorem marks_pushChanges (events : List Event) (node : AlarmNode) (old new : BitVec 32) :
    marks (pushChanges events node old new) = marks events := by
  rw [pushChanges_eq, marks_append, marks_changes, List.append_nil]

omit [Scalar F] in
theorem marks_resetRack (models : Models F) (cfg : PlantConfig F) (block : Nat) (p : ResetPass F)
    (addr : Nat × Nat) : marks (resetRack models cfg block p addr).events = marks p.events := by
  rw [resetRack]
  split
  · rfl
  · exact marks_pushChanges _ _ _ _

omit [Scalar F] in
theorem marks_resetBlock (models : Models F) (cfg : PlantConfig F) (p : ResetPass F) (block : Nat) :
    marks (resetBlock models cfg p block).events = marks p.events := by
  have hracks : ∀ (addrs : List (Nat × Nat)) (q : ResetPass F),
      marks (addrs.foldl (resetRack models cfg block) q).events = marks q.events := by
    intro addrs
    induction addrs with
    | nil => intro q; rfl
    | cons a as ih => intro q; rw [List.foldl_cons, ih, marks_resetRack]
  rw [resetBlock]
  split
  · rfl
  · simp only [hracks, marks_pushChanges]
    split
    · simp [marks, markOf]
    · rfl

theorem marks_resetScope (models : Models F) (cfg : PlantConfig F) (p : ResetPass F)
    (scope : ResetScope) : marks (resetScope models cfg p scope).events = marks p.events := by
  have hblocks : ∀ (bs : List Nat) (q : ResetPass F),
      marks (bs.foldl (resetBlock models cfg) q).events = marks q.events := by
    intro bs
    induction bs with
    | nil => intro q; rfl
    | cons b bs ih => intro q; rw [List.foldl_cons, ih, marks_resetBlock]
  cases scope with
  | site => exact (marks_pushChanges _ _ _ _).trans (hblocks _ p)
  | block b => exact marks_resetBlock models cfg p b
  | rack b c r => exact marks_resetRack models cfg b p (c, r)

theorem marks_resetAlarms (models : Models F) (cfg : PlantConfig F) (s : SiteState F)
    (scope : ResetScope) :
    marks (resetAlarms models cfg s scope).2.pendingEvents = marks s.pendingEvents := by
  rw [resetAlarms]
  split
  · have hr := resetting_scope models cfg scope (⟨Tells.refl s, rfl, rfl⟩ : Resetting s ⟨s, [], []⟩)
    rw [marks_append, hr.pending, marks_resetScope]
    exact List.append_nil _
  · rfl

omit [Scalar F] in
theorem marks_setHvacFailed (s : SiteState F) (b c : Nat) (failed : Bool) :
    marks (setHvacFailed s b c failed).2.pendingEvents = marks s.pendingEvents := by
  rw [setHvacFailed]
  split <;> rfl

omit [Scalar F] in
theorem marks_setRackInService (s : SiteState F) (b c r : Nat) (on : Bool) :
    marks (setRackInService s b c r on).2.pendingEvents = marks s.pendingEvents := by
  rw [setRackInService]
  split <;> rfl

omit [Scalar F] in
theorem marks_setBlockMode (s : SiteState F) (b : Nat) (mode : BlockMode) :
    marks (setBlockMode s b mode).2.pendingEvents = marks s.pendingEvents := by
  rw [setBlockMode]
  split <;> rfl

theorem marks_selfDischargeTo (s : SiteState F) (b c r : Nat) (ppm : UInt32) :
    marks (selfDischargeTo s b c r ppm).2.pendingEvents = marks s.pendingEvents := by
  rw [selfDischargeTo]
  split <;> rfl

omit [Scalar F] in
theorem marks_tripPcs (s : SiteState F) (b : Nat) :
    marks (tripPcs s b).2.pendingEvents = marks s.pendingEvents := by
  rw [tripPcs]
  split
  · rfl
  · split
    · rfl
    · simp [SiteState.modifyBlock, marks, markOf]

theorem marks_tripProtection (s : SiteState F) :
    marks (tripProtection s).1.pendingEvents = marks s.pendingEvents := by
  cases ht : hasBit s.alarmBits SiteBit.PROTECTION_TRIP with
  | true => simp [tripProtection, ht]
  | false =>
    have hfaults := marks_flatMap (f := faultEvent) (fun b => marks_pcsEvents b.2 _ _) s.blocks.zipIdx
    have hsaid : marks (tripRaised :: s.blocks.zipIdx.flatMap faultEvent) = [] := hfaults
    rw [tripProtection_eq ht]
    simp [SiteState.withPending, hsaid]

/-- A command writes what it writes, and leaves no mark. -/
theorem marks_dispatch (models : Models F) (cfg : PlantConfig F) (s : SiteState F)
    (action : FaultAction) :
    marks (dispatch models cfg s action).2.pendingEvents = marks s.pendingEvents := by
  cases action with
  | hvacFailure b c => exact marks_setHvacFailed s b c true
  | hvacRepair b c => exact marks_setHvacFailed s b c false
  | pcsTrip b => exact marks_tripPcs s b
  | protectionTrip => exact marks_tripProtection s
  | rackSelfDischarge b c r ppm => exact marks_selfDischargeTo s b c r ppm
  | rackIsolate b c r => exact marks_setRackInService s b c r false
  | rackRestore b c r => exact marks_setRackInService s b c r true
  | blockMaintenanceEnter b => exact marks_setBlockMode s b .maintenance
  | blockMaintenanceExit b => exact marks_setBlockMode s b .inService
  | alarmReset scope =>
    rw [dispatch_reset]
    exact marks_resetAlarms models cfg s scope

/-- An accepted action's mark comes after the marks already there. -/
theorem marks_applyAction {models : Models F} {cfg : PlantConfig F} {s after : SiteState F}
    {action : FaultAction} {changed : Bool}
    (hd : dispatch models cfg s action = (.ok changed, after)) :
    marks (applyAction models cfg s action).2.pendingEvents = marks s.pendingEvents ++ [action] := by
  obtain ⟨es, hes, -⟩ := (spoke_dispatch models cfg s action).said
  have hquiet := marks_dispatch models cfg s action
  rw [hd] at hes hquiet
  have hnone : marks es = [] := by
    rw [hes, marks_append] at hquiet
    exact List.append_right_eq_self.mp hquiet
  have hpend : after.pendingEvents.insertIdx s.pendingEvents.length (.faultApplied action) =
      s.pendingEvents ++ .faultApplied action :: es := by
    rw [hes, insertIdx_length_append]
  rw [applyAction, hd]
  simp only [hpend, marks_append]
  have hmark : marks (.faultApplied action :: es) = action :: marks es := rfl
  rw [hmark, hnone]

/-- Whether a plant of this configuration has the node an action names. -/
def accepts (cfg : PlantConfig F) (action : FaultAction) : Bool :=
  match Target.of action with
  | .site => true
  | .block b => decide (b < cfg.blocks)
  | .pcs b => decide (b < cfg.blocks)
  | .hvac b c => decide (b < cfg.blocks ∧ c < cfg.containersPerBlock)
  | .rack b c r =>
    decide (b < cfg.blocks ∧ c < cfg.containersPerBlock ∧ r < cfg.racksPerContainer)

omit [Scalar F] in
theorem accepts_iff (cfg : PlantConfig F) (action : FaultAction) :
    accepts cfg action = true ↔ (Target.of action).Exists cfg := by
  rw [accepts]
  cases Target.of action <;> simp [Target.Exists]

section

variable {cfg : PlantConfig F} {s : SiteState F} (h : Shaped cfg s)
include h

omit [Scalar F] in
theorem block_below {b : Nat} (hb : (s.blocks[b]?).isSome) : b < cfg.blocks := by
  rw [← h.count]
  simpa using hb

omit [Scalar F] in
theorem container_below {b c : Nat} (hc : (s.container? b c).isSome) :
    b < cfg.blocks ∧ c < cfg.containersPerBlock := by
  obtain ⟨x, hx⟩ := Option.isSome_iff_exists.mp hc
  obtain ⟨block, hblock, hx⟩ := Option.bind_eq_some_iff.mp hx
  have hshape := h.blocks block (List.mem_of_getElem? hblock)
  refine ⟨block_below h (by simp [hblock]), ?_⟩
  rw [← hshape.containers]
  exact (List.getElem?_eq_some_iff.mp hx).1

omit [Scalar F] in
theorem rack_below {b c r : Nat} (hr : (s.rack? b c r).isSome) :
    b < cfg.blocks ∧ c < cfg.containersPerBlock ∧ r < cfg.racksPerContainer := by
  obtain ⟨x, hx⟩ := Option.isSome_iff_exists.mp hr
  obtain ⟨container, hcontainer, hx⟩ := Option.bind_eq_some_iff.mp hx
  obtain ⟨block, hblock, hmem⟩ := Option.bind_eq_some_iff.mp hcontainer
  have hshape := h.blocks block (List.mem_of_getElem? hblock)
  have hracks := hshape.racks container (List.mem_of_getElem? hmem)
  obtain ⟨hb, hc⟩ := container_below h (b := b) (c := c) (by simp [hcontainer])
  refine ⟨hb, hc, ?_⟩
  rw [← hracks]
  exact (List.getElem?_eq_some_iff.mp hx).1

omit [Scalar F] in
theorem accepts_node (action : FaultAction) : accepts cfg action = true ↔ NodeExists s action := by
  rw [accepts_iff]
  refine ⟨node_exists h, fun hn => ?_⟩
  cases action with
  | hvacFailure b c => exact container_below h hn
  | hvacRepair b c => exact container_below h hn
  | pcsTrip b => exact block_below h hn
  | protectionTrip => trivial
  | rackSelfDischarge b c r ppm => exact rack_below h hn
  | rackIsolate b c r => exact rack_below h hn
  | rackRestore b c r => exact rack_below h hn
  | blockMaintenanceEnter b => exact block_below h hn
  | blockMaintenanceExit b => exact block_below h hn
  | alarmReset scope =>
    cases scope with
    | site => trivial
    | block b => exact block_below h hn
    | rack b c r => exact rack_below h hn

end

/-- The marks a command leaves. -/
def spoken (cfg : PlantConfig F) : Command F → List FaultAction
  | .apply action => if accepts cfg action then [action] else []
  | .setHvacFailed .. => []
  | .setRackInService .. => []
  | .setBlockMode .. => []
  | .tripPcs _ => []
  | .tripProtection => []
  | .resetAlarms _ => []
  | .setExternalSetpointW _ => []

theorem marks_command {sim : Simulation F} (hs : Sound sim) (c : Command F) :
    marks (sim.command c).state.pendingEvents =
      marks sim.state.pendingEvents ++ spoken sim.cfg c := by
  cases c with
  | apply action =>
    have hnode := accepts_node hs.shape action
    rw [spoken, Simulation.command]
    by_cases ha : accepts sim.cfg action = true
    · obtain ⟨changed, after, hd⟩ := dispatch_accepts sim.models sim.cfg (hnode.mp ha)
      rw [if_pos ha]
      exact marks_applyAction hd
    · have hd := dispatch_refuses sim.models sim.cfg fun hn => ha (hnode.mpr hn)
      rw [if_neg ha, applyAction, hd]
      exact (List.append_nil _).symm
  | setHvacFailed b c failed =>
    exact (marks_setHvacFailed sim.state b c failed).trans (List.append_nil _).symm
  | setRackInService b c r on =>
    exact (marks_setRackInService sim.state b c r on).trans (List.append_nil _).symm
  | setBlockMode b mode =>
    exact (marks_setBlockMode sim.state b mode).trans (List.append_nil _).symm
  | tripPcs b => exact (marks_tripPcs sim.state b).trans (List.append_nil _).symm
  | tripProtection => exact (marks_tripProtection sim.state).trans (List.append_nil _).symm
  | resetAlarms scope =>
    exact (marks_resetAlarms sim.models sim.cfg sim.state scope).trans (List.append_nil _).symm
  | setExternalSetpointW w => exact (List.append_nil _).symm

end BessMarks
