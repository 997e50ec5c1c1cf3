import BessEmulator.Trip
import BessEmulator.Words

/-!
# Latched means latched

A trip bit of a rack, the site's protection bit and the fault of a PCS, once
set, outlive every tick and every command but a reset of their own node or of
what it is part of.
-/
namespace BessLatch

open Bess BessReplay BessTrip

variable {F : Type} [Scalar F]

/-- The nodes a reset reaches. -/
def Covers : ResetScope → AlarmNode → Prop
  | .site, _ => True
  | .block b, .block k => b = k
  | .block b, .rack k _ _ => b = k
  | .block _, .site => False
  | .rack b c r, .rack k d q => b = k ∧ c = d ∧ r = q
  | .rack .., .block _ => False
  | .rack .., .site => False

omit [Scalar F] in
theorem covers_block {b c r : Nat} {node : AlarmNode} (h : Covers (.rack b c r) node) :
    Covers (.block b) node := by
  cases node with
  | site => exact h
  | block k => exact h.elim
  | rack k d q => exact h.1

section

variable {P : SiteState F → Prop} {node : AlarmNode}

/-- A reset that does not reach a node keeps what unlatching elsewhere keeps. -/
structure KeptElsewhere (node : AlarmNode) (P : SiteState F → Prop) : Prop where
  rack : ∀ s b c r, ¬ Covers (.rack b c r) node → P s → P (s.modifyRack b c r RackState.unlatch)
  block : ∀ s b, ¬ Covers (.block b) node → P s → P (s.modifyBlock b BlockState.unlatch)

omit [Scalar F] in
theorem elsewhere_rack (h : KeptElsewhere node P) (models : Models F) (cfg : PlantConfig F)
    (b : Nat) (p : ResetPass F) (addr : Nat × Nat) (hout : ¬ Covers (.rack b addr.1 addr.2) node)
    (hp : P p.state) : P (resetRack models cfg b p addr).state := by
  rw [resetRack]
  cases p.state.rack? b addr.1 addr.2 with
  | none => exact hp
  | some r => exact h.rack _ b addr.1 addr.2 hout hp

omit [Scalar F] in
theorem elsewhere_block (h : KeptElsewhere node P) (models : Models F) (cfg : PlantConfig F)
    (p : ResetPass F) (b : Nat) (hout : ¬ Covers (.block b) node) (hp : P p.state) :
    P (resetBlock models cfg p b).state := by
  rw [resetBlock]
  cases p.state.blocks[b]? with
  | none => exact hp
  | some blk =>
    have hfold : ∀ (addrs : List (Nat × Nat)) (q : ResetPass F), P q.state →
        P (addrs.foldl (resetRack models cfg b) q).state := by
      intro addrs
      induction addrs with
      | nil => intro q hq; exact hq
      | cons a as ih =>
        intro q hq
        exact ih _ (elsewhere_rack h models cfg b q a (mt covers_block hout) hq)
    exact hfold _ _ (h.block _ b hout hp)

theorem elsewhere_scope (h : KeptElsewhere node P) (models : Models F) (cfg : PlantConfig F)
    (p : ResetPass F) {scope : ResetScope} (hout : ¬ Covers scope node) (hp : P p.state) :
    P (resetScope models cfg p scope).state := by
  cases scope with
  | site => exact absurd trivial hout
  | block b => exact elsewhere_block h models cfg p b hout hp
  | rack b c r => exact elsewhere_rack h models cfg b p (c, r) hout hp

/-- What faults, setpoints, trips and resets elsewhere keep, every command
keeps that does not reset the node. -/
theorem kept_uncovered (hf : KeptByFaults P) (hset : ∀ {s} w, P s → P (s.withSetpoint w))
    (htrip : ∀ s, P s → P s.tripped) (hout : KeptElsewhere node P) (sim : Simulation F)
    (c : Command F) (hc : ∀ scope, c.Resets scope → ¬ Covers scope node) (h : P sim.state) :
    P (sim.command c).state := by
  refine kept_command_of hf hset sim c (fun _ => htrip _ h) (fun scope hs => ?_) h
  rw [resetAlarms]
  split
  · exact hf.pending _ (elsewhere_scope hout sim.models sim.cfg ⟨sim.state, [], []⟩ (hc scope hs) h)
  · exact h

end

section

variable {node : AlarmNode}

/-- A latched bit of a word that no reset reaches. -/
theorem bit_command {bit : Nat} (sim : Simulation F) (c : Command F)
    (hc : ∀ scope, c.Resets scope → ¬ Covers scope node)
    (h : hasBit (wordOf sim.state node) bit = true) :
    hasBit (wordOf (sim.command c).state node) bit = true := by
  refine kept_uncovered (word_faults node fun w => hasBit w bit = true) ?_ ?_ ⟨?_, ?_⟩ sim c hc h
  · intro s w hw
    rwa [word_setpoint]
  · intro s hw
    rw [word_tripped]
    split
    · rw [hasBit_withBit _ _ _ _ (by decide), hw]
      split <;> rfl
    · exact hw
  · intro s b c r hout hw
    rw [word_unlatchRack, if_neg]
    · exact hw
    · rintro rfl
      exact hout ⟨rfl, rfl, rfl⟩
  · intro s b hout hw
    rw [word_unlatchBlock, if_neg]
    · exact hw
    · rintro rfl
      exact hout rfl

omit [Scalar F] in
theorem ops_modifyContainer (s : SiteState F) (b c : Nat)
    (f : ContainerState F → ContainerState F) (k : Nat) :
    opOf (s.modifyBlock b fun b => b.modifyContainer c f) k = opOf s k := by
  apply opOf_modifyBlock
  exact Or.inr fun _ => rfl

theorem fault_faults (k : Nat) : KeptByFaults fun s : SiteState F => opOf s k = .fault where
  rack b c r _ h := by rwa [SiteState.modifyRack, ops_modifyContainer]
  hvac b c failed h := by rwa [ops_modifyContainer]
  block {s f} b hf h := by
    cases hf with
    | mode mode =>
      rw [opOf_modifyBlock]
      · exact h
      · exact Or.inr fun _ => rfl
    | fault =>
      simp only [opOf, blocks_modifyBlock] at h ⊢
      cases hb : s.blocks[k]? with
      | none => rw [hb] at h; exact h
      | some x =>
        rw [hb] at h
        simp only [Option.map_some, Option.getD_some] at h ⊢
        split
        · rfl
        · exact h
  pending es h := h

theorem fault_command {k : Nat} (sim : Simulation F) (c : Command F)
    (hc : ∀ scope, c.Resets scope → ¬ Covers scope (.block k)) (h : opOf sim.state k = .fault) :
    opOf (sim.command c).state k = .fault := by
  refine kept_uncovered (fault_faults k) (fun _ hs => hs) ?_ ⟨?_, ?_⟩ sim c hc h
  · intro s hs
    simp only [opOf, SiteState.tripped, List.getElem?_map] at hs ⊢
    cases hb : s.blocks[k]? with
    | none => rw [hb] at hs; exact hs
    | some x => rfl
  · intro s b c r _ hs
    rwa [SiteState.modifyRack, ops_modifyContainer]
  · intro s b hout hs
    rwa [opOf_modifyBlock s b k (Or.inl hout)]

end

section

variable {pl : Plant F} {ems : EmsStrategy F} (hpl : pl.models = gw01Models pl.cfg ems)
  (s : SiteState F) (inputs : Inputs F)

/-- The three latches of a rack. -/
def rackTrips : List Nat := [RackBit.OVER_TEMP_TRIP, RackBit.IMBALANCE_TRIP, RackBit.UNDER_TEMP_TRIP]

/-- The BMS evaluates a latch as itself or its cause. -/
theorem rackAlarms_latched (m : BasicBms F) (cfg : RackConfig F) {bit : Nat} (hbit : bit ∈ rackTrips)
    {x : RackState F} (h : hasBit x.alarmBits bit = true) :
    hasBit (m.rackAlarms x cfg) bit = true := by
  apply RackAlarmThresholds.hasBit_evaluate
  simp only [rackTrips, List.mem_cons, List.not_mem_nil, or_false] at hbit
  rcases hbit with rfl | rfl | rfl <;> simp [RackAlarmThresholds.bits, h]

include hpl in
theorem rack_latched {b c r bit : Nat} (hbit : bit ∈ rackTrips)
    (h : hasBit (wordOf s (.rack b c r)) bit = true) :
    hasBit (wordOf (pl.siteTick s inputs) (.rack b c r)) bit = true := by
  have hsome := rack_tick_isSome pl s inputs b c r
  simp only [wordOf] at h ⊢
  cases hx : (pl.siteTick s inputs).rack? b c r with
  | none =>
    have hnone : s.rack? b c r = none := by simpa [hx] using hsome
    rwa [hnone] at h
  | some x =>
    obtain ⟨x₀, hx₀, hword⟩ := rack_tick pl s inputs hx
    simp only [hx₀, Option.map_some, Option.getD_some] at h ⊢
    rw [hword, hpl]
    exact rackAlarms_latched BasicBms.default _ hbit h

theorem site_latched (h : hasBit (wordOf s .site) SiteBit.PROTECTION_TRIP = true) :
    hasBit (wordOf (pl.siteTick s inputs) .site) SiteBit.PROTECTION_TRIP = true :=
  (evaluateSite_trip _ _ _).trans h

include hpl in
/-- Converting, with power still flowing or without, leaves a fault. -/
theorem fault_latched {k : Nat} (h : opOf s k = .fault) :
    opOf (pl.siteTick s inputs) k = .fault := by
  simp only [opOf, nextBlock_at] at h ⊢
  cases hb : s.blocks[k]? with
  | none => rw [hb] at h; exact h
  | some b =>
    rw [hb] at h
    have hop : b.pcs.opState = .fault := h
    simp only [Option.map_some, Option.getD_some, Plant.nextBlock, blockTick_pcs, pcsTick]
    rw [show (pl.ctx s inputs).models = gw01Models pl.cfg ems from hpl]
    change opStateAfter b.pcs.opState _ = .fault
    rw [hop, opStateAfter]
    rfl

end

/-- No reset among the moves reaches the node. -/
def Spares (moves : List (Move F)) (node : AlarmNode) : Prop :=
  ∀ c, Move.command c ∈ moves → ∀ scope, c.Resets scope → ¬ Covers scope node

omit [Scalar F] in
theorem Spares.tail {m : Move F} {moves : List (Move F)} {node : AlarmNode}
    (h : Spares (m :: moves) node) : Spares moves node :=
  fun c hc => h c (List.mem_cons_of_mem _ hc)

/-- What latches on a node lasts through every run that spares it. -/
theorem spared_run {node : AlarmNode} {P : SiteState F → Prop} {cfg : PlantConfig F}
    {ems : EmsStrategy F}
    (hcommand : ∀ (sim : Simulation F) c, (∀ scope, c.Resets scope → ¬ Covers scope node) →
      P sim.state → P (sim.command c).state)
    (htick : ∀ (pl : Plant F) s inputs, pl.models = gw01Models cfg ems → pl.cfg = cfg → P s →
      P (pl.siteTick s inputs))
    {sim : Simulation F} (hs : Sound sim) (hm : sim.models = gw01Models cfg ems)
    (hcfg : sim.cfg = cfg) (moves : List (Move F)) (hspare : Spares moves node)
    (h : P sim.state) : P (sim.run moves).state := by
  induction moves generalizing sim with
  | nil => exact h
  | cons m ms ih =>
    have hpl := move_plant hs m
    refine ih (sound_move hs m) ((congrArg Plant.models hpl).trans hm)
      ((congrArg Plant.cfg hpl).trans hcfg) hspare.tail ?_
    cases m with
    | command c => exact hcommand sim c (hspare c List.mem_cons_self) h
    | step inputs =>
      change P (sim.step inputs).state
      rw [step_state hs inputs]
      exact htick sim.plant _ inputs hm hcfg h

/-- Everything latched that the moves spare is latched after them. -/
structure Latches (sim : Simulation F) (moves : List (Move F)) : Prop where
  rack : ∀ b c r bit, bit ∈ rackTrips → Spares moves (.rack b c r) →
    hasBit (wordOf sim.state (.rack b c r)) bit = true →
      hasBit (wordOf (sim.run moves).state (.rack b c r)) bit = true
  protection : Spares moves .site → hasBit (wordOf sim.state .site) SiteBit.PROTECTION_TRIP = true →
    hasBit (wordOf (sim.run moves).state .site) SiteBit.PROTECTION_TRIP = true
  pcs : ∀ k, Spares moves (.block k) → opOf sim.state k = .fault →
    opOf (sim.run moves).state k = .fault

/-- Latched means latched. From any state the plant reaches, through any steps and commands. -/
theorem latched_means_latched (cfg : PlantConfig F) (ems : EmsStrategy F) (seed : UInt64) (t : Int)
    (before after : List (Move F)) :
    Latches ((Simulation.new cfg (gw01Models cfg ems) seed t).run before) after := by
  have hs := sound_run (sound_new cfg (gw01Models cfg ems) seed t) before
  have hpl := run_plant (sound_new cfg (gw01Models cfg ems) seed t) before
  have hm := congrArg Plant.models hpl
  have hcfg := congrArg Plant.cfg hpl
  refine ⟨fun b c r bit hbit hspare h => ?_, fun hspare h => ?_, fun k hspare h => ?_⟩
  · refine spared_run (P := fun s => hasBit (wordOf s (.rack b c r)) bit = true)
      (fun sim c hc => bit_command sim c hc) ?_ hs hm hcfg after hspare h
    rintro pl s inputs hm rfl hb
    exact rack_latched hm s inputs hbit hb
  · refine spared_run (P := fun s => hasBit (wordOf s .site) SiteBit.PROTECTION_TRIP = true)
      (fun sim c hc => bit_command sim c hc) ?_ hs hm hcfg after hspare h
    rintro pl s inputs hm rfl hb
    exact site_latched s inputs hb
  · refine spared_run (P := fun s => opOf s k = .fault)
      (fun sim c hc => fault_command sim c hc) ?_ hs hm hcfg after hspare h
    rintro pl s inputs hm rfl hb
    exact fault_latched hm s inputs hb

/-- A tripped site through a block reset, a rack reset and two ticks. -/
theorem latched_means_latched_gw01 :
    let sim : Simulation ℝ :=
      (Simulation.new PlantConfig.gw01 (gw01Models PlantConfig.gw01 ⟨fun _ _ => 0⟩) 42 0).run
        [.command .tripProtection]
    let moves : List (Move ℝ) :=
      [.command (.resetAlarms (.block 0)), .step ⟨⟨12, 0⟩, 50⟩,
        .command (.apply (.alarmReset (.rack 0 0 0))), .step ⟨⟨12, 0⟩, 50⟩]
    hasBit (wordOf (sim.run moves).state .site) SiteBit.PROTECTION_TRIP = true := by
  intro sim moves
  have hspare : Spares moves .site := by
    intro c hc scope hscope hcov
    simp only [moves, List.mem_cons, List.not_mem_nil, or_false, false_or, reduceCtorEq,
      Move.command.injEq] at hc
    rcases hc with rfl | rfl
    · cases hscope
      exact hcov
    · cases hscope
      exact hcov
  exact (latched_means_latched PlantConfig.gw01 ⟨fun _ _ => 0⟩ 42 0 [.command .tripProtection]
    moves).protection hspare rfl

end BessLatch
