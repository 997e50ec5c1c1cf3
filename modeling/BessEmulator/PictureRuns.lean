import BessEmulator.PictureCommands

/-!
# The log of a run

A tick hands out what was pending and then the moves its own blocks, racks
and site word made. Over a run the log, replayed from a dark site, is the
alarm picture.
-/
namespace BessReplay

open Bess EdgeLog Sweep

variable {F : Type}

/-- Every word keeps to the published sixteen bits. -/
def LowTree (s : SiteState F) : Prop := ∀ node, LowWord (wordOf s node)

def rackWord (c : ContainerState F) (r : Nat) : BitVec 32 :=
  (c.racks[r]?.map RackState.alarmBits).getD 0#32

def containerWord (b : BlockState F) (c r : Nat) : BitVec 32 :=
  (b.containers[c]?.map fun x => rackWord x r).getD 0#32

theorem wordOf_rack (s : SiteState F) (b c r : Nat) :
    wordOf s (.rack b c r) = (s.blocks[b]?.map fun x => containerWord x c r).getD 0#32 := by
  simp only [wordOf, SiteState.rack?, SiteState.container?, containerWord, rackWord]
  cases s.blocks[b]? with
  | none => rfl
  | some x =>
    simp only [Option.bind_some, Option.map_some, Option.getD_some]
    cases x.containers[c]? <;> rfl

theorem lowTree_block {s : SiteState F} (h : LowTree s) {k : Nat} {b : BlockState F}
    (hb : s.blocks[k]? = some b) : LowWord b.alarmBits := by
  have hw := h (.block k)
  simp only [wordOf, hb, Option.map_some, Option.getD_some] at hw
  exact hw

theorem lowTree_rack {s : SiteState F} (h : LowTree s) {b c r : Nat} {x : RackState F}
    (hx : s.rack? b c r = some x) : LowWord x.alarmBits := by
  have hw := h (.rack b c r)
  simp only [wordOf, hx, Option.map_some, Option.getD_some] at hw
  exact hw

/-- An edit that leaves every word but the site's alone. -/
theorem lowTree_site {s s' : SiteState F} (h : LowTree s) (hsite : LowWord s'.alarmBits)
    (hblock : ∀ j, wordOf s' (.block j) = wordOf s (.block j))
    (hrack : ∀ j c r, wordOf s' (.rack j c r) = wordOf s (.rack j c r)) : LowTree s' := by
  intro n
  cases n with
  | site => exact hsite
  | block j => rw [hblock]; exact h _
  | rack j c r => rw [hrack]; exact h _

theorem lowTree_blockEdit {s : SiteState F} {f : BlockState F → BlockState F} (b : Nat)
    (hf : BlockEdit f) (h : LowTree s) : LowTree (s.modifyBlock b f) := by
  have hkeep : ∀ x : BlockState F, LowWord x.alarmBits → LowWord (f x).alarmBits := by
    intro x hx
    cases hf with
    | mode m => exact hx
    | fault => exact hx
    | unlatch =>
      rw [unlatch_alarmBits]
      exact lowWord_reset hx
  have hcont : ∀ x : BlockState F, (f x).containers = x.containers := by
    intro x
    cases hf with
    | mode m => rfl
    | fault => rfl
    | unlatch => exact unlatch_containers x
  intro n
  cases n with
  | site => exact h .site
  | block j =>
    simp only [wordOf, blocks_modifyBlock]
    cases hx : s.blocks[j]? with
    | none => exact lowWord_zero
    | some x =>
      have hlow := lowTree_block h hx
      simp only [Option.map_some, Option.getD_some]
      split
      · exact hkeep x hlow
      · exact hlow
  | rack j d q =>
    have hw := h (.rack j d q)
    simp only [wordOf] at hw ⊢
    rw [rack_modifyBlock s b hcont]
    exact hw

variable [Scalar F]

/-- The frame contracts of the models: through a tick no model writes a word. -/
theorem thermalTick_alarmBits (ctx : TickContext F) (perRackW : F) (c : ContainerState F) :
    (thermalTick ctx perRackW c).1.racks.map RackState.alarmBits =
      c.racks.map RackState.alarmBits := by
  rw [thermalTick, ThermalModel.stepContainer_alarmBits, deliveredContainer, List.map_map]
  apply List.map_congr_left
  intro r _
  rw [Function.comp_apply, cellTick, CellModel.stepRack_alarmBits, bmsTick,
    BmsLogic.stepBms_alarmBits]

theorem rackWord_thermal (ctx : TickContext F) (perRackW : F) (c : ContainerState F) (r : Nat) :
    rackWord (thermalTick ctx perRackW c).1 r = rackWord c r := by
  simp only [rackWord]
  rw [← List.getElem?_map, ← List.getElem?_map, thermalTick_alarmBits]

theorem containerEvents_bits (ctx : TickContext F) (perRackW : F) (block idx : Nat)
    (c : ContainerState F) (r bit : Nat)
    (hold : LowWord (rackWord c r)) (hnew : LowWord (rackWord (containerTick ctx perRackW c) r)) :
    Path (hasBit (rackWord c r) bit)
      ((containerEvents ctx perRackW block (c, idx)).filterMap (bitMove (.rack block idx r) bit))
      (hasBit (rackWord (containerTick ctx perRackW c) r) bit) := by
  have hoff : ∀ (x : RackState F) (i : Nat), i ≠ r →
      (rackEvents ctx.models ctx.cfg block idx (x, i)).filterMap
        (bitMove (.rack block idx r) bit) = [] := by
    intro x i hi
    apply changes_other_node
    intro he
    cases he
    exact hi rfl
  rw [containerEvents, filterMap_zipIdx_single _ _ r hoff]
  simp only [Nat.zero_le, if_true, Nat.sub_zero]
  rw [← rackWord_thermal ctx perRackW c r] at hold ⊢
  simp only [rackWord] at hold hnew ⊢
  simp only [containerTick, List.getElem?_map] at hnew ⊢
  cases hx : (thermalTick ctx perRackW c).1.racks[r]? with
  | none => exact rfl
  | some x =>
    rw [hx] at hold hnew
    apply changes_path
    intro i hi
    exact (hold i hi).trans (hnew i hi).symm

theorem containerEvents_silent (ctx : TickContext F) (perRackW : F) (block : Nat)
    (c : ContainerState F × Nat) (node : AlarmNode) (bit : Nat)
    (hn : ∀ r, AlarmNode.rack block c.2 r ≠ node) :
    (containerEvents ctx perRackW block c).filterMap (bitMove node bit) = [] := by
  rw [containerEvents, List.filterMap_flatMap, List.flatMap_eq_nil_iff]
  intro x _
  exact changes_other_node (hn x.2) _ _ _

theorem containerEvents_ops (ctx : TickContext F) (perRackW : F) (block : Nat)
    (c : ContainerState F × Nat) (k : Nat) :
    (containerEvents ctx perRackW block c).filterMap (opMove k) = [] := by
  rw [containerEvents, List.filterMap_flatMap, List.flatMap_eq_nil_iff]
  intro x _
  exact changes_ops _ _ _ _

/-- A block says nothing of what is not its own. -/
theorem blockEvents_silent (ctx : TickContext F) (inSet : Bool) (block : Nat) (b : BlockState F)
    (node : AlarmNode) (bit : Nat) (hb : AlarmNode.block block ≠ node)
    (hr : ∀ c r, AlarmNode.rack block c r ≠ node) :
    (blockEvents ctx inSet block b).filterMap (bitMove node bit) = [] := by
  rw [blockEvents, List.filterMap_append, List.filterMap_append, pcsEvents_bits,
    changes_other_node hb, List.append_nil, List.append_nil, List.filterMap_flatMap,
    List.flatMap_eq_nil_iff]
  intro c _
  exact containerEvents_silent ctx _ block c node bit (hr c.2)

theorem blockEvents_ops (ctx : TickContext F) (inSet : Bool) (block : Nat) (b : BlockState F)
    (k : Nat) : (blockEvents ctx inSet block b).filterMap (opMove k) =
      (pcsEvents block b.pcs.opState (blockTick ctx inSet b).pcs.opState).filterMap (opMove k) := by
  have hnil : (b.containers.zipIdx.flatMap
      (containerEvents ctx (perRackOf ctx inSet b) block)).filterMap (opMove k) = [] := by
    rw [List.filterMap_flatMap, List.flatMap_eq_nil_iff]
    intro c _
    exact containerEvents_ops ctx _ block c k
  rw [blockEvents, List.filterMap_append, List.filterMap_append, changes_ops, hnil,
    List.nil_append, List.append_nil]
  rfl

theorem blockEvents_word (ctx : TickContext F) (inSet : Bool) (block : Nat) (b : BlockState F)
    (bit : Nat) (hold : LowWord b.alarmBits) (hnew : LowWord (blockTick ctx inSet b).alarmBits) :
    Path (hasBit b.alarmBits bit)
      ((blockEvents ctx inSet block b).filterMap (bitMove (.block block) bit))
      (hasBit (blockTick ctx inSet b).alarmBits bit) := by
  have hnil : (b.containers.zipIdx.flatMap
      (containerEvents ctx (perRackOf ctx inSet b) block)).filterMap
        (bitMove (.block block) bit) = [] := by
    rw [List.filterMap_flatMap, List.flatMap_eq_nil_iff]
    intro c _
    exact containerEvents_silent ctx _ block c _ bit fun r he => by cases he
  rw [blockEvents, List.filterMap_append, List.filterMap_append, hnil, pcsEvents_bits,
    List.nil_append, List.nil_append]
  apply changes_path
  intro i hi
  exact (hold i hi).trans (hnew i hi).symm

theorem blockEvents_rack (ctx : TickContext F) (inSet : Bool) (block : Nat) (b : BlockState F)
    (c r bit : Nat) (hold : LowWord (containerWord b c r))
    (hnew : LowWord (containerWord (blockTick ctx inSet b) c r)) :
    Path (hasBit (containerWord b c r) bit)
      ((blockEvents ctx inSet block b).filterMap (bitMove (.rack block c r) bit))
      (hasBit (containerWord (blockTick ctx inSet b) c r) bit) := by
  have hoff : ∀ (x : ContainerState F) (i : Nat), i ≠ c →
      (containerEvents ctx (perRackOf ctx inSet b) block (x, i)).filterMap
        (bitMove (.rack block c r) bit) = [] := by
    intro x i hi
    apply containerEvents_silent
    intro q he
    cases he
    exact hi rfl
  have hblk : AlarmNode.block block ≠ .rack block c r := fun he => by cases he
  rw [blockEvents, List.filterMap_append, List.filterMap_append, pcsEvents_bits,
    changes_other_node hblk, List.append_nil, List.append_nil, filterMap_zipIdx_single _ _ c hoff]
  simp only [Nat.zero_le, if_true, Nat.sub_zero]
  have hnext : (blockTick ctx inSet b).containers =
      b.containers.map (containerTick ctx (perRackOf ctx inSet b)) := rfl
  simp only [containerWord] at hold hnew ⊢
  rw [hnext, List.getElem?_map] at hnew ⊢
  cases hx : b.containers[c]? with
  | none => exact rfl
  | some x =>
    rw [hx] at hold hnew
    exact containerEvents_bits ctx _ block c x r bit hold hnew

theorem nextBlock_at (pl : Plant F) (s : SiteState F) (inputs : Inputs F) (k : Nat) :
    (pl.siteTick s inputs).blocks[k]? =
      s.blocks[k]?.map fun b => pl.nextBlock s inputs (b, k) := by
  rw [siteTick_blocks, List.getElem?_map, List.getElem?_zipIdx, Nat.zero_add]
  cases s.blocks[k]? <;> rfl

/-- A tick's events about the nodes of one block are those of that block's loop. -/
theorem newEvents_at (pl : Plant F) (s : SiteState F) (inputs : Inputs F) {node : AlarmNode}
    {k : Nat} (hsite : AlarmNode.site ≠ node) (hblock : ∀ i, i ≠ k → AlarmNode.block i ≠ node)
    (hrack : ∀ i c r, i ≠ k → AlarmNode.rack i c r ≠ node) (bit : Nat) :
    (pl.newEvents s inputs).filterMap (bitMove node bit) =
      match s.blocks[k]? with
      | none => []
      | some x => (pl.blockEvents s inputs (x, k)).filterMap (bitMove node bit) := by
  have hoff : ∀ (x : BlockState F) (i : Nat), i ≠ k →
      (pl.blockEvents s inputs (x, i)).filterMap (bitMove node bit) = [] := by
    intro x i hi
    exact blockEvents_silent _ _ i x node bit (hblock i hi) fun c r => hrack i c r hi
  rw [Plant.newEvents, List.filterMap_append, changes_other_node hsite, List.append_nil,
    filterMap_zipIdx_single _ _ k hoff]
  simp only [Nat.zero_le, if_true, Nat.sub_zero]
  cases s.blocks[k]? <;> rfl

/-- So are its PCS transitions. -/
theorem newEvents_ops (pl : Plant F) (s : SiteState F) (inputs : Inputs F) (k : Nat) :
    (pl.newEvents s inputs).filterMap (opMove k) =
      match s.blocks[k]? with
      | none => []
      | some x => (pl.blockEvents s inputs (x, k)).filterMap (opMove k) := by
  have hoff : ∀ (x : BlockState F) (i : Nat), i ≠ k →
      (pl.blockEvents s inputs (x, i)).filterMap (opMove k) = [] := by
    intro x i hi
    rw [Plant.blockEvents, blockEvents_ops]
    exact pcsEvents_other hi _ _
  rw [Plant.newEvents, List.filterMap_append, changes_ops, List.append_nil,
    filterMap_zipIdx_single _ _ k hoff]
  simp only [Nat.zero_le, if_true, Nat.sub_zero]
  cases s.blocks[k]? <;> rfl

/-- The site's own events come after every block's. -/
theorem newEvents_site (pl : Plant F) (s : SiteState F) (inputs : Inputs F) (bit : Nat) :
    (pl.newEvents s inputs).filterMap (bitMove .site bit) =
      (changes .site s.alarmBits (pl.siteWord s inputs)).filterMap (bitMove .site bit) := by
  have hnil : (s.blocks.zipIdx.flatMap (pl.blockEvents s inputs)).filterMap
      (bitMove .site bit) = [] := by
    rw [List.filterMap_flatMap, List.flatMap_eq_nil_iff]
    intro b _
    apply blockEvents_silent
    · exact fun he => by cases he
    · exact fun c r he => by cases he
  rw [Plant.newEvents, List.filterMap_append, hnil, List.nil_append]

/-- What one tick hands out beyond the pending events tells how the tree moved. -/
theorem tells_tick (pl : Plant F) (s : SiteState F) (inputs : Inputs F) (hold : LowTree s)
    (hnew : LowTree (pl.siteTick s inputs)) :
    Tells s (pl.newEvents s inputs) (pl.siteTick s inputs) where
  bits n bit := by
    have hold := hold n
    have hnew := hnew n
    cases n with
    | site =>
      rw [newEvents_site]
      exact changes_path .site _ _ bit fun i hi => (hold i hi).trans (hnew i hi).symm
    | block k =>
      rw [newEvents_at pl s inputs (fun he => by cases he) (fun i hi he => by cases he; exact hi rfl)
        (fun i c r hi he => by cases he)]
      simp only [wordOf, nextBlock_at] at hold hnew ⊢
      cases hx : s.blocks[k]? with
      | none => exact rfl
      | some x =>
        rw [hx] at hold hnew
        exact blockEvents_word (pl.ctx s inputs) _ k x bit hold hnew
    | rack k c r =>
      rw [newEvents_at pl s inputs (fun he => by cases he) (fun i hi he => by cases he)
        (fun i c r hi he => by cases he; exact hi rfl)]
      rw [wordOf_rack] at hold hnew ⊢
      rw [wordOf_rack]
      rw [nextBlock_at] at hnew ⊢
      cases hx : s.blocks[k]? with
      | none => exact rfl
      | some x =>
        rw [hx] at hold hnew
        exact blockEvents_rack (pl.ctx s inputs) _ k x c r bit hold hnew
  ops k := by
    rw [newEvents_ops]
    simp only [opOf, nextBlock_at]
    cases s.blocks[k]? with
    | none => exact rfl
    | some x =>
      simp only [Plant.blockEvents, blockEvents_ops]
      exact pcsEvents_path k _ _

theorem lowTree_rackEdit {s : SiteState F} {f : RackState F → RackState F} (b c r : Nat)
    (hf : RackEdit f) (h : LowTree s) : LowTree (s.modifyRack b c r f) := by
  have hkeep : ∀ x : RackState F, LowWord x.alarmBits → LowWord (f x).alarmBits := by
    intro x hx
    cases hf with
    | service on => exact hx
    | excess ppm => exact hx
    | unlatch => exact lowWord_reset hx
  intro n
  cases n with
  | site => exact h .site
  | block j =>
    have hw : wordOf (s.modifyRack b c r f) (.block j) = wordOf s (.block j) :=
      blockWord_modifyBlock s b j (Or.inr fun _ => rfl)
    rw [hw]
    exact h (.block j)
  | rack j d q =>
    simp only [wordOf, rack_modifyRack]
    cases hx : s.rack? j d q with
    | none => exact lowWord_zero
    | some x =>
      have hlow := lowTree_rack h hx
      simp only [Option.map_some, Option.getD_some]
      split
      · exact hkeep x hlow
      · exact hlow

theorem lowTree_kept : KeptByEdits fun s : SiteState F => LowTree s where
  rack b c r hf h := lowTree_rackEdit b c r hf h
  hvac := by
    intro s b c failed h n
    cases n with
    | site => exact h .site
    | block j =>
      have hw : wordOf (s.modifyBlock b fun b => b.modifyContainer c fun c => c.setHvacFailed failed)
          (.block j) = wordOf s (.block j) := blockWord_modifyBlock s b j (Or.inr fun _ => rfl)
      rw [hw]
      exact h _
    | rack j d q =>
      have hw := h (.rack j d q)
      simp only [wordOf, rack_modifyContainer] at hw ⊢
      have hsame : ((s.container? j d).bind fun x =>
          (if b = j ∧ c = d then x.setHvacFailed failed else x).racks[q]?) = s.rack? j d q := by
        unfold SiteState.rack?
        cases s.container? j d with
        | none => rfl
        | some x =>
          simp only [Option.bind_some]
          split <;> rfl
      rw [hsame]
      exact hw
  block b hf h := lowTree_blockEdit b hf h
  tripped := by
    intro s h
    refine lowTree_site h (lowWord_withBit (h .site) _ _ (by decide)) (fun j => ?_) fun j c r => ?_
    · simp only [wordOf, SiteState.tripped, List.getElem?_map]
      cases s.blocks[j]? <;> rfl
    · simp only [wordOf, SiteState.rack?, SiteState.container?, SiteState.tripped,
        List.getElem?_map]
      cases s.blocks[j]? <;> rfl
  closed := by
    intro s h
    rw [SiteState.closed_eq]
    exact lowTree_site h (lowWord_reset (h .site)) (fun _ => rfl) fun _ _ _ => rfl
  setpoint := by
    intro s w h
    exact lowTree_site h (h .site) (fun _ => rfl) fun _ _ _ => rfl
  pending := by
    intro s es h
    exact lowTree_site h (h .site) (fun _ => rfl) fun _ _ _ => rfl

theorem lowWord_evaluateBlock {b : BlockState F} (h : LowWord b.alarmBits) (cfg : PlantConfig F)
    (th : BlockSiteThresholds F) (dtS : F) : LowWord (evaluateBlock b cfg th dtS).1 := by
  rw [evaluateBlock]
  repeat apply lowWord_withBit _ _ _ (by decide)
  exact h

theorem lowWord_evaluateSite {s : SiteState F} (h : LowWord s.alarmBits) (cfg : PlantConfig F)
    (th : BlockSiteThresholds F) : LowWord (evaluateSite s cfg th) := by
  rw [evaluateSite]
  repeat apply lowWord_withBit _ _ _ (by decide)
  exact h

/-- The BMS keeps its words to the published sixteen bits. -/
def LowRacks (models : Models F) (cfg : PlantConfig F) : Prop :=
  ∀ r : RackState F, LowWord r.alarmBits → LowWord (models.bms.rackAlarms r cfg.rack)

theorem lowWord_containerTick (ctx : TickContext F) (hb : LowRacks ctx.models ctx.cfg)
    (perRackW : F) {c : ContainerState F} (h : ∀ r, LowWord (rackWord c r)) (r : Nat) :
    LowWord (rackWord (containerTick ctx perRackW c) r) := by
  have hr := h r
  rw [← rackWord_thermal ctx perRackW] at hr
  rw [rackWord] at hr ⊢
  simp only [containerTick, List.getElem?_map]
  cases hx : (thermalTick ctx perRackW c).1.racks[r]? with
  | none => exact lowWord_zero
  | some x =>
    rw [hx] at hr
    exact hb x hr

theorem lowTree_tick (pl : Plant F) (hb : LowRacks pl.models pl.cfg) {s : SiteState F}
    (inputs : Inputs F) (h : LowTree s) : LowTree (pl.siteTick s inputs) := by
  intro n
  cases n with
  | site =>
    have hs : LowWord (pl.settledSite s inputs).alarmBits := h .site
    exact lowWord_evaluateSite hs pl.cfg pl.thresholds
  | block k =>
    simp only [wordOf, nextBlock_at]
    cases hx : s.blocks[k]? with
    | none => exact lowWord_zero
    | some x =>
      have hx' : LowWord x.alarmBits := lowTree_block h hx
      have hd : LowWord (deliveredBlock (pl.ctx s inputs) (pl.inSet s inputs (x, k)) x).alarmBits :=
        hx'
      simp only [Option.map_some, Option.getD_some, Plant.nextBlock, blockTick_alarmBits]
      exact lowWord_evaluateBlock hd _ _ _
  | rack k c r =>
    have hrack : ∀ r, LowWord (wordOf s (.rack k c r)) := fun r => h (.rack k c r)
    simp only [wordOf_rack] at hrack ⊢
    rw [nextBlock_at]
    cases hx : s.blocks[k]? with
    | none => exact lowWord_zero
    | some x =>
      simp only [hx, Option.map_some, Option.getD_some] at hrack ⊢
      simp only [containerWord] at hrack ⊢
      have hnext : (pl.nextBlock s inputs (x, k)).containers =
          x.containers.map (containerTick (pl.ctx s inputs)
            (perRackOf (pl.ctx s inputs) (pl.inSet s inputs (x, k)) x)) := rfl
      rw [hnext, List.getElem?_map]
      cases hc : x.containers[c]? with
      | none => exact lowWord_zero
      | some y =>
        simp only [hc, Option.map_some, Option.getD_some] at hrack ⊢
        exact lowWord_containerTick (pl.ctx s inputs) hb _ hrack r

/-- Every event the steps of a run hand out, in order. -/
def handedOut : Simulation F → List (Move F) → List Event
  | _, [] => []
  | sim, .command c :: ms => handedOut (sim.command c) ms
  | sim, .step inputs :: ms => (sim.step inputs).events ++ handedOut (sim.step inputs) ms

/-- The log so far: everything handed out, then what waits for the next tick. -/
def logOf (sim : Simulation F) (moves : List (Move F)) : List Event :=
  handedOut sim moves ++ (sim.run moves).state.pendingEvents

/-- Along a run, the pending events and everything handed out after them tell
how the tree moved. -/
theorem tells_run {sim : Simulation F} (hs : Sound sim) (hb : LowRacks sim.models sim.cfg)
    (hl : LowTree sim.state) (moves : List (Move F)) (start : SiteState F) (past : List Event)
    (ht : Tells start (past ++ sim.state.pendingEvents) sim.state)
    (hc : sim.state.eventLog.count = past.length) :
    Tells start (past ++ logOf sim moves) (sim.run moves).state ∧
      (sim.run moves).state.eventLog.count = (past ++ handedOut sim moves).length := by
  induction moves generalizing sim past with
  | nil => exact ⟨ht, by rw [handedOut, List.append_nil]; exact hc⟩
  | cons m ms ih =>
    have hpl := move_plant hs m
    have hb' : LowRacks (sim.move m).models (sim.move m).cfg := by
      rw [show (sim.move m).models = sim.models from congrArg Plant.models hpl,
        show (sim.move m).cfg = sim.cfg from congrArg Plant.cfg hpl]
      exact hb
    cases m with
    | command c =>
      obtain ⟨⟨es, hes, hsaid⟩, hlog⟩ := spoke_command sim c
      refine ih (sound_command hs c) hb' (kept_command lowTree_kept sim c hl) past ?_ ?_
      · rw [hes, ← List.append_assoc]
        exact ht.trans hsaid
      · rw [hlog, hc]
    | step inputs =>
      have hst := step_state hs inputs
      have hev := step_events hs inputs
      have hlow := lowTree_tick sim.plant hb inputs hl
      have hnew := tells_tick sim.plant sim.state inputs hl hlow
      have hlow' : LowTree (sim.step inputs).state := by
        rw [hst]
        exact hlow
      have hih := ih (sound_step hs inputs) hb' hlow' (past ++ (sim.step inputs).events) ?_ ?_
      · rw [List.append_assoc] at hih
        simp only [logOf, handedOut, ← List.append_assoc] at hih ⊢
        exact hih
      · have hpend : (sim.step inputs).state.pendingEvents = [] := by rw [hst]; rfl
        rw [hpend, List.append_nil, hev, hst, Plant.tickEvents, ← List.append_assoc]
        exact ht.trans hnew
      · rw [hst, hev, List.length_append, ← hc]
        exact EventLog.recordAll_count _ _

end BessReplay
