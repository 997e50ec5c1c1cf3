import BessEmulator.Hysteresis
import BessEmulator.Racks
import BessEmulator.Replay
import BessEmulator.Words

/-!
# Every warning from its history

The trees a run hands out, tick by tick, are all a warning bit ever saw: it is
set exactly when its quantity reached the raise edge on one of them and stayed
past the clear edge on every later one. The setpoint bit asks for as many
readings in a row as its deadband covers.
-/
namespace BessHistory

open Bess BessReplay Hysteresis

/-- A step shows the tree it hands out, a command nothing. -/
noncomputable def shown (sim : Simulation ℝ) : Move ℝ → Option (SiteState ℝ)
  | .command _ => none
  | .step inputs => some (sim.step inputs).state

noncomputable def history (sim : Simulation ℝ) (moves : List (Move ℝ)) : List (SiteState ℝ) :=
  readings Simulation.move shown sim moves

/-- The last `n` readings all reached the raise edge, or did before readings
that all stayed past the clear edge; a tree without the node has no reading. -/
def Climbed (n : Nat) (q : SiteState ℝ → Option ℝ) (band : Band ℝ) : List (SiteState ℝ) → Prop :=
  Latched n (fun s => ∃ x ∈ q s, band.raiseAt ≤ x) (fun s => ∃ x ∈ q s, band.clearAt < x)

def Fell (n : Nat) (q : SiteState ℝ → Option ℝ) (band : Band ℝ) : List (SiteState ℝ) → Prop :=
  Latched n (fun s => ∃ x ∈ q s, x ≤ band.raiseAt) (fun s => ∃ x ∈ q s, x < band.clearAt)

def rackReading (b c r : Nat) (f : RackState ℝ → ℝ) (s : SiteState ℝ) : Option ℝ :=
  (s.rack? b c r).map f

noncomputable def derateFactor (r : RackState ℝ) : ℝ :=
  min (BasicBms.default.chargeTemp.factor r.cellTempC)
    (BasicBms.default.dischargeTemp.factor r.cellTempC)

noncomputable def airReading (k : Nat) (s : SiteState ℝ) : Option ℝ := s.blocks[k]?.bind airMaxC

/-- The part of the converter's rating by which a block misses its setpoint. -/
noncomputable def missOf (cfg : PlantConfig ℝ) (b : BlockState ℝ) : ℝ :=
  |b.pcs.pAcSetpointW - b.pcs.pAcW| / cfg.pcsRatedW

noncomputable def missReading (cfg : PlantConfig ℝ) (k : Nat) (s : SiteState ℝ) : Option ℝ :=
  s.blocks[k]?.map (missOf cfg)

/-- The part of the site's rating that is asked for and not delivered. -/
noncomputable def shortfall (cfg : PlantConfig ℝ) (s : SiteState ℝ) : ℝ :=
  max (if 0 ≤ s.ems.siteSetpointW then s.ems.siteSetpointW - deliveredW s.blocks
    else deliveredW s.blocks - s.ems.siteSetpointW) 0 / cfg.grid.siteRatedW

section

variable {pl : Plant ℝ} {node : AlarmNode} {bit : Nat} {raised held : SiteState ℝ → Prop}

/-- A tick sets the bit by the tree it hands out: by one edge if it was clear,
by the other if it was set. -/
structure Follows (pl : Plant ℝ) (node : AlarmNode) (bit : Nat) (raised held : SiteState ℝ → Prop) :
    Prop where
  warning : bit < 8
  edges : ∀ s, raised s → held s
  set : ∀ s inputs, hasBit (wordOf s node) bit = true →
    (hasBit (wordOf (pl.siteTick s inputs) node) bit = true ↔ held (pl.siteTick s inputs))
  clear : ∀ s inputs, ¬ hasBit (wordOf s node) bit = true →
    (hasBit (wordOf (pl.siteTick s inputs) node) bit = true ↔ raised (pl.siteTick s inputs))

theorem command_warning (hb : bit < 8) (sim : Simulation ℝ) (c : Command ℝ) :
    hasBit (wordOf (sim.command c).state node) bit = hasBit (wordOf sim.state node) bit :=
  kept_command (warning_kept node hb _) sim c rfl

theorem follows_run (h : Follows pl node bit raised held) {sim : Simulation ℝ} (hs : Sound sim)
    (hpl : sim.plant = pl) (h0 : hasBit (wordOf sim.state node) bit = false)
    (moves : List (Move ℝ)) :
    hasBit (wordOf (sim.run moves).state node) bit = true ↔
      Latched 1 raised held (history sim moves) := by
  have hstep : ∀ (hist : List (SiteState ℝ)) (sim : Simulation ℝ) (m : Move ℝ),
      (Sound sim ∧ sim.plant = pl ∧
        (hasBit (wordOf sim.state node) bit = true ↔ Latched 1 raised held hist)) →
      Sound (sim.move m) ∧ (sim.move m).plant = pl ∧
        (hasBit (wordOf (sim.move m).state node) bit = true ↔
          Latched 1 raised held (hist ++ (shown sim m).toList)) := by
    rintro hist sim m ⟨hs, rfl, hbit⟩
    refine ⟨sound_move hs m, move_plant hs m, ?_⟩
    cases m with
    | command c =>
      rw [shown, Option.toList_none, List.append_nil, Simulation.move,
        command_warning h.warning]
      exact hbit
    | step inputs =>
      rw [shown, Option.toList_some, Simulation.move, step_state hs]
      refine latched_next h.edges hbit (h.set _ _) fun hclear => ?_
      rw [h.clear _ _ hclear, ends_one]
  exact (history_run Simulation.move shown hstep ⟨hs, hpl, by rw [h0]; simp⟩ moves).2.2

/-- A bit evaluated as an edge function of one reading follows it. -/
theorem follows_edge (edge : Bool → ℝ → Bool) {raise hold : ℝ → Prop}
    (hedge : ∀ x, raise x → hold x) (hset : ∀ x, edge true x = true ↔ hold x)
    (hclear : ∀ x, edge false x = true ↔ raise x) {q : SiteState ℝ → Option ℝ} (hb : bit < 8)
    (hlaw : ∀ s inputs, hasBit (wordOf (pl.siteTick s inputs) node) bit =
      (q (pl.siteTick s inputs)).elim false (edge (hasBit (wordOf s node) bit))) :
    Follows pl node bit (fun s => ∃ x ∈ q s, raise x) (fun s => ∃ x ∈ q s, hold x) where
  warning := hb
  edges := fun _ ⟨x, hx, h⟩ => ⟨x, hx, hedge x h⟩
  set s inputs hon := by
    rw [hlaw, hon]
    cases q (pl.siteTick s inputs) with
    | none => simp
    | some x => simp [hset]
  clear s inputs hoff := by
    rw [hlaw, Bool.eq_false_iff.mpr hoff]
    cases q (pl.siteTick s inputs) with
    | none => simp
    | some x => simp [hclear]

theorem rising_set (band : Band ℝ) (x : ℝ) : rising true x band = true ↔ band.clearAt < x := by
  simp [rising]

theorem rising_clear (band : Band ℝ) (x : ℝ) : rising false x band = true ↔ band.raiseAt ≤ x := by
  simp [rising]

theorem falling_set (band : Band ℝ) (x : ℝ) : falling true x band = true ↔ x < band.clearAt := by
  simp [falling]

theorem falling_clear (band : Band ℝ) (x : ℝ) :
    falling false x band = true ↔ x ≤ band.raiseAt := by
  simp [falling]

end

section

variable (cfg : PlantConfig ℝ) (ems : EmsStrategy ℝ)

/-- A rack bit as the reference BMS evaluates it. -/
theorem rack_law {bit : Nat} (edge : Bool → ℝ → Bool) {f : RackState ℝ → ℝ}
    (hbits : ∀ x : RackState ℝ, (bit, edge (hasBit x.alarmBits bit) (f x)) ∈
      RackAlarmThresholds.default.bits x cfg.rack (derateFactor x))
    (hf : ∀ x w, f { x with alarmBits := w } = f x) (b c r : Nat) (s : SiteState ℝ)
    (inputs : Inputs ℝ) :
    hasBit (wordOf ((gw01Plant cfg ems).siteTick s inputs) (.rack b c r)) bit =
      (rackReading b c r f ((gw01Plant cfg ems).siteTick s inputs)).elim false
        (edge (hasBit (wordOf s (.rack b c r)) bit)) := by
  simp only [wordOf, rackReading]
  cases hx : ((gw01Plant cfg ems).siteTick s inputs).rack? b c r with
  | none => simp
  | some x =>
    obtain ⟨x₀, hx₀, hword⟩ := rack_tick _ s inputs hx
    have hread := RackAlarmThresholds.hasBit_evaluate _ _ _ _
      (hbits { x with alarmBits := x₀.alarmBits })
    simp only [Option.map_some, Option.getD_some, Option.elim_some, hx₀, hword]
    rw [← hf x x₀.alarmBits]
    exact hread

theorem evaluateBlock_notMet (b : BlockState ℝ) (th : BlockSiteThresholds ℝ) (dtS : ℝ) :
    hasBit (evaluateBlock b cfg th dtS).1 BlockBit.SETPOINT_NOT_MET =
      if hasBit b.alarmBits BlockBit.SETPOINT_NOT_MET then
        decide (th.setpointMiss.clearAt < missOf cfg b)
      else decide (th.setpointDeadbandS ≤ (evaluateBlock b cfg th dtS).2) := by
  simp only [evaluateBlock, missOf, Scalar.abs_real]
  iterate 4 rw [hasBit_withBit_ne _ _ (by decide)]
  rw [hasBit_withBit_self _ _ _ (by decide)]
  rfl

theorem evaluateBlock_hot (b : BlockState ℝ) (th : BlockSiteThresholds ℝ) (dtS : ℝ) :
    hasBit (evaluateBlock b cfg th dtS).1 BlockBit.CONTAINER_OVER_TEMP =
      (airMaxC b).elim false fun t =>
        rising (hasBit b.alarmBits BlockBit.CONTAINER_OVER_TEMP) t th.containerAirC := by
  simp only [evaluateBlock]
  iterate 3 rw [hasBit_withBit_ne _ _ (by decide)]
  rw [hasBit_withBit_self _ _ _ (by decide)]
  cases airMaxC b <;> rfl

theorem evaluateSite_limited (s : SiteState ℝ) (th : BlockSiteThresholds ℝ) :
    hasBit (evaluateSite s cfg th) SiteBit.POWER_LIMITED =
      rising (hasBit s.alarmBits SiteBit.POWER_LIMITED) (shortfall cfg s) th.siteShortfall := by
  simp only [evaluateSite]
  iterate 2 rw [hasBit_withBit_ne _ _ (by decide)]
  rw [hasBit_withBit_self _ _ _ (by decide)]
  rfl

theorem air_law (k : Nat) (s : SiteState ℝ) (inputs : Inputs ℝ) :
    hasBit (wordOf ((gw01Plant cfg ems).siteTick s inputs) (.block k))
        BlockBit.CONTAINER_OVER_TEMP =
      (airReading k ((gw01Plant cfg ems).siteTick s inputs)).elim false fun t =>
        rising (hasBit (wordOf s (.block k)) BlockBit.CONTAINER_OVER_TEMP) t
          BlockSiteThresholds.default.containerAirC := by
  simp only [wordOf, airReading]
  cases hb : ((gw01Plant cfg ems).siteTick s inputs).blocks[k]? with
  | none => simp
  | some b =>
    obtain ⟨b₀, hb₀, hword, -⟩ := block_tick _ s inputs hb
    have hhot := evaluateBlock_hot cfg
      { b with alarmBits := b₀.alarmBits, setpointMissS := b₀.setpointMissS }
      BlockSiteThresholds.default tickS
    simp only [Option.map_some, Option.getD_some, Option.bind_some, hb₀, hword]
    exact hhot

theorem limited_law (s : SiteState ℝ) (inputs : Inputs ℝ) :
    hasBit (wordOf ((gw01Plant cfg ems).siteTick s inputs) .site) SiteBit.POWER_LIMITED =
      (some (shortfall cfg ((gw01Plant cfg ems).siteTick s inputs))).elim false fun x =>
        rising (hasBit (wordOf s .site) SiteBit.POWER_LIMITED) x
          BlockSiteThresholds.default.siteShortfall := by
  simp only [wordOf, site_tick]
  exact evaluateSite_limited cfg _ _

/-- Readings that cover the deadband, at one a second. -/
def DEADBAND_TICKS : Nat := 10

theorem deadband_ticks :
    (BlockSiteThresholds.default : BlockSiteThresholds ℝ).setpointDeadbandS =
      DEADBAND_TICKS * tickS := by
  norm_num [BlockSiteThresholds.default, DEADBAND_TICKS]

def Missed (k : Nat) (s : SiteState ℝ) : Prop :=
  ∃ x ∈ missReading cfg k s, BlockSiteThresholds.default.setpointMiss.raiseAt ≤ x

/-- The timer counts the misses at the end of the history. -/
def Timed (k : Nat) (hist : List (SiteState ℝ)) (s : SiteState ℝ) : Prop :=
  ∀ missS, s.blocks[k]?.map BlockState.setpointMissS = some missS →
    ∃ j : Nat, missS = (j : ℝ) ∧ ∀ i, Ends i (Missed cfg k) hist ↔ i ≤ j

theorem missS_kept (k : Nat) (v : Option ℝ) :
    KeptByEdits fun s : SiteState ℝ => s.blocks[k]?.map BlockState.setpointMissS = v where
  rack b c r _ h := by
    rw [SiteState.modifyRack, blocks_modifyBlock, Option.map_map, ← h]
    congr 1
    funext b
    simp only [Function.comp_apply]
    split <;> rfl
  hvac b c failed h := by
    rw [blocks_modifyBlock, Option.map_map, ← h]
    congr 1
    funext b
    simp only [Function.comp_apply]
    split <;> rfl
  block {s f} b he h := by
    have hf : ∀ b, (f b).setpointMissS = b.setpointMissS := by
      intro b
      cases he with
      | mode mode => rfl
      | fault => rfl
      | unlatch => rw [BlockState.unlatch]; split <;> rfl
    rw [blocks_modifyBlock, Option.map_map, ← h]
    congr 1
    funext b
    simp only [Function.comp_apply]
    split
    · exact hf b
    · rfl
  tripped {s} h := by
    rw [← h]
    simp only [SiteState.tripped, List.getElem?_map, Option.map_map]
    rfl
  closed {s} h := by
    rw [SiteState.closed_eq]
    exact h
  setpoint w h := h
  pending es h := h

theorem evaluateBlock_missS (b : BlockState ℝ) (th : BlockSiteThresholds ℝ) (dtS : ℝ) :
    (evaluateBlock b cfg th dtS).2 =
      if th.setpointMiss.raiseAt ≤ missOf cfg b then b.setpointMissS + dtS else 0 := by
  simp only [evaluateBlock, missOf, Scalar.abs_real]
  rfl

/-- One tick more, or the count starts over. -/
theorem timed_tick {k : Nat} {hist : List (SiteState ℝ)} {s : SiteState ℝ} (inputs : Inputs ℝ)
    (h : Timed cfg k hist s) :
    Timed cfg k (hist ++ [(gw01Plant cfg ems).siteTick s inputs])
      ((gw01Plant cfg ems).siteTick s inputs) := by
  intro missS hmissS
  obtain ⟨b, hb, rfl⟩ := Option.map_eq_some_iff.mp hmissS
  obtain ⟨b₀, hb₀, -, htimer⟩ := block_tick _ s inputs hb
  obtain ⟨j, hj, hends⟩ := h b₀.setpointMissS (by rw [hb₀]; rfl)
  have hread : Missed cfg k ((gw01Plant cfg ems).siteTick s inputs) ↔
      BlockSiteThresholds.default.setpointMiss.raiseAt ≤ missOf cfg b := by
    simp [Missed, missReading, hb]
  have htime := htimer.trans (evaluateBlock_missS cfg _ BlockSiteThresholds.default tickS)
  rw [show missOf cfg { b with alarmBits := b₀.alarmBits, setpointMissS := b₀.setpointMissS } =
    missOf cfg b from rfl] at htime
  by_cases hmiss : BlockSiteThresholds.default.setpointMiss.raiseAt ≤ missOf cfg b
  · rw [if_pos hmiss] at htime
    refine ⟨j + 1, by rw [htime, hj, tickS_real]; push_cast; ring, fun i => ?_⟩
    cases i with
    | zero => simp
    | succ i => rw [ends_snoc, hends, hread, and_iff_right hmiss, Nat.succ_le_succ_iff]
  · rw [if_neg hmiss] at htime
    refine ⟨0, by rw [htime, Nat.cast_zero], fun i => ?_⟩
    cases i with
    | zero => simp
    | succ i => simp [ends_snoc, hread, hmiss]

/-- A clear setpoint bit is set once the timer covers the deadband, a set one
stays while the miss is past its clear edge. -/
theorem notMet_tick {k : Nat} {hist : List (SiteState ℝ)} {s : SiteState ℝ} (inputs : Inputs ℝ)
    (h : Timed cfg k hist s)
    (hbit : hasBit (wordOf s (.block k)) BlockBit.SETPOINT_NOT_MET = true ↔
      Climbed DEADBAND_TICKS (missReading cfg k) BlockSiteThresholds.default.setpointMiss hist) :
    hasBit (wordOf ((gw01Plant cfg ems).siteTick s inputs) (.block k))
        BlockBit.SETPOINT_NOT_MET = true ↔
      Climbed DEADBAND_TICKS (missReading cfg k) BlockSiteThresholds.default.setpointMiss
        (hist ++ [(gw01Plant cfg ems).siteTick s inputs]) := by
  have hedges : ∀ s, Missed cfg k s →
      ∃ x ∈ missReading cfg k s, BlockSiteThresholds.default.setpointMiss.clearAt < x := by
    rintro s ⟨x, hx, hraise⟩
    refine ⟨x, hx, lt_of_lt_of_le ?_ hraise⟩
    norm_num [BlockSiteThresholds.default]
  have htimed := timed_tick cfg ems inputs h
  cases hb : ((gw01Plant cfg ems).siteTick s inputs).blocks[k]? with
  | none =>
    have hdark : hasBit (wordOf ((gw01Plant cfg ems).siteTick s inputs) (.block k))
        BlockBit.SETPOINT_NOT_MET = false := by simp [wordOf, hb]
    rw [hdark]
    refine latched_next hedges hbit (fun _ => ?_) fun _ => ?_
    · simp [missReading, hb]
    · rw [ends_snoc]
      simp [Missed, missReading, hb]
  | some b =>
    obtain ⟨b₀, hb₀, hword, htimer⟩ := block_tick _ s inputs hb
    obtain ⟨j, hj, hends⟩ := htimed b.setpointMissS (by rw [hb]; rfl)
    have hset := evaluateBlock_notMet cfg
      { b with alarmBits := b₀.alarmBits, setpointMissS := b₀.setpointMissS }
      BlockSiteThresholds.default tickS
    have hnew : hasBit (wordOf ((gw01Plant cfg ems).siteTick s inputs) (.block k))
        BlockBit.SETPOINT_NOT_MET =
          if hasBit (wordOf s (.block k)) BlockBit.SETPOINT_NOT_MET then
            decide (BlockSiteThresholds.default.setpointMiss.clearAt < missOf cfg b)
          else decide (BlockSiteThresholds.default.setpointDeadbandS ≤ b.setpointMissS) := by
      simp only [wordOf, hb, hb₀, Option.map_some, Option.getD_some]
      rw [hword, htimer]
      exact hset
    refine latched_next hedges hbit (fun hon => ?_) fun hoff => ?_
    · rw [hnew, if_pos hon]
      simp [missReading, hb]
    · rw [hnew, if_neg hoff, decide_eq_true_iff, deadband_ticks, tickS_real, mul_one, hj,
        Nat.cast_le]
      exact (hends DEADBAND_TICKS).symm

theorem notMet_run {sim : Simulation ℝ} (hs : Sound sim) (hpl : sim.plant = gw01Plant cfg ems)
    (k : Nat) (h0 : hasBit (wordOf sim.state (.block k)) BlockBit.SETPOINT_NOT_MET = false)
    (ht : Timed cfg k [] sim.state) (moves : List (Move ℝ)) :
    hasBit (wordOf (sim.run moves).state (.block k)) BlockBit.SETPOINT_NOT_MET = true ↔
      Climbed DEADBAND_TICKS (missReading cfg k) BlockSiteThresholds.default.setpointMiss
        (history sim moves) := by
  have hstep : ∀ (hist : List (SiteState ℝ)) (sim : Simulation ℝ) (m : Move ℝ),
      (Sound sim ∧ sim.plant = gw01Plant cfg ems ∧ Timed cfg k hist sim.state ∧
        (hasBit (wordOf sim.state (.block k)) BlockBit.SETPOINT_NOT_MET = true ↔
          Climbed DEADBAND_TICKS (missReading cfg k) BlockSiteThresholds.default.setpointMiss
            hist)) →
      Sound (sim.move m) ∧ (sim.move m).plant = gw01Plant cfg ems ∧
        Timed cfg k (hist ++ (shown sim m).toList) (sim.move m).state ∧
        (hasBit (wordOf (sim.move m).state (.block k)) BlockBit.SETPOINT_NOT_MET = true ↔
          Climbed DEADBAND_TICKS (missReading cfg k) BlockSiteThresholds.default.setpointMiss
            (hist ++ (shown sim m).toList)) := by
    rintro hist sim m ⟨hs, hpl, ht, hbit⟩
    refine ⟨sound_move hs m, (move_plant hs m).trans hpl, ?_⟩
    cases m with
    | command c =>
      rw [shown, Option.toList_none, List.append_nil, Simulation.move,
        command_warning (by decide)]
      refine ⟨fun missS hmissS => ht missS ?_, hbit⟩
      rw [← hmissS]
      exact (kept_command (missS_kept k _) sim c rfl).symm
    | step inputs =>
      rw [shown, Option.toList_some, Simulation.move, step_state hs, hpl]
      exact ⟨timed_tick cfg ems inputs ht, notMet_tick cfg ems inputs ht hbit⟩
  have hclear : hasBit (wordOf sim.state (.block k)) BlockBit.SETPOINT_NOT_MET = true ↔
      Climbed DEADBAND_TICKS (missReading cfg k) BlockSiteThresholds.default.setpointMiss [] := by
    rw [h0, DEADBAND_TICKS, Climbed]
    simp
  exact (history_run Simulation.move shown hstep ⟨hs, hpl, ht, hclear⟩ moves).2.2.2

end

/-- Nothing raised and no miss under way, as on a fresh site. -/
structure AllClear (s : SiteState ℝ) : Prop where
  words : ∀ node, wordOf s node = 0#32
  timers : ∀ b ∈ s.blocks, b.setpointMissS = 0

/-- Each bit with a band, as its history has it. -/
structure ToldByHistory (cfg : PlantConfig ℝ) (s : SiteState ℝ) (hist : List (SiteState ℝ)) :
    Prop where
  overTemp : ∀ b c r, hasBit (wordOf s (.rack b c r)) RackBit.OVER_TEMP_WARNING = true ↔
    Climbed 1 (rackReading b c r RackState.cellTempC) RackAlarmThresholds.default.overTemp hist
  underTemp : ∀ b c r, hasBit (wordOf s (.rack b c r)) RackBit.UNDER_TEMP_WARNING = true ↔
    Fell 1 (rackReading b c r RackState.cellTempC) RackAlarmThresholds.default.underTemp hist
  socHigh : ∀ b c r, hasBit (wordOf s (.rack b c r)) RackBit.SOC_HIGH = true ↔
    Climbed 1 (rackReading b c r RackState.soc)
      ⟨cfg.rack.socMax + RackAlarmThresholds.default.socMargin, cfg.rack.socMax⟩ hist
  socLow : ∀ b c r, hasBit (wordOf s (.rack b c r)) RackBit.SOC_LOW = true ↔
    Fell 1 (rackReading b c r RackState.soc)
      ⟨cfg.rack.socMin - RackAlarmThresholds.default.socMargin, cfg.rack.socMin⟩ hist
  imbalance : ∀ b c r, hasBit (wordOf s (.rack b c r)) RackBit.IMBALANCE_WARNING = true ↔
    Climbed 1 (rackReading b c r RackState.cellDvV) RackAlarmThresholds.default.imbalance hist
  derate : ∀ b c r, hasBit (wordOf s (.rack b c r)) RackBit.DERATE_ACTIVE = true ↔
    Fell 1 (rackReading b c r derateFactor) RackAlarmThresholds.default.derate hist
  containerOverTemp : ∀ k, hasBit (wordOf s (.block k)) BlockBit.CONTAINER_OVER_TEMP = true ↔
    Climbed 1 (airReading k) BlockSiteThresholds.default.containerAirC hist
  setpointNotMet : ∀ k, hasBit (wordOf s (.block k)) BlockBit.SETPOINT_NOT_MET = true ↔
    Climbed DEADBAND_TICKS (missReading cfg k) BlockSiteThresholds.default.setpointMiss hist
  powerLimited : hasBit (wordOf s .site) SiteBit.POWER_LIMITED = true ↔
    Climbed 1 (fun s => some (shortfall cfg s)) BlockSiteThresholds.default.siteShortfall hist

section

variable {cfg : PlantConfig ℝ} {ems : EmsStrategy ℝ} {sim : Simulation ℝ}

theorem climbed_run (hs : Sound sim) (hpl : sim.plant = gw01Plant cfg ems) (h0 : AllClear sim.state)
    {node : AlarmNode} {bit : Nat} {q : SiteState ℝ → Option ℝ} {band : Band ℝ} (hb : bit < 8)
    (hband : band.clearAt < band.raiseAt)
    (hlaw : ∀ s inputs, hasBit (wordOf ((gw01Plant cfg ems).siteTick s inputs) node) bit =
      (q ((gw01Plant cfg ems).siteTick s inputs)).elim false fun x =>
        rising (hasBit (wordOf s node) bit) x band) (moves : List (Move ℝ)) :
    hasBit (wordOf (sim.run moves).state node) bit = true ↔
      Climbed 1 q band (history sim moves) :=
  follows_run (follows_edge (fun on x => rising on x band)
    (fun _ h => lt_of_lt_of_le hband h) (rising_set band) (rising_clear band) hb hlaw) hs hpl
    (by rw [h0.words, hasBit_zero]) moves

theorem fell_run (hs : Sound sim) (hpl : sim.plant = gw01Plant cfg ems) (h0 : AllClear sim.state)
    {node : AlarmNode} {bit : Nat} {q : SiteState ℝ → Option ℝ} {band : Band ℝ} (hb : bit < 8)
    (hband : band.raiseAt < band.clearAt)
    (hlaw : ∀ s inputs, hasBit (wordOf ((gw01Plant cfg ems).siteTick s inputs) node) bit =
      (q ((gw01Plant cfg ems).siteTick s inputs)).elim false fun x =>
        falling (hasBit (wordOf s node) bit) x band) (moves : List (Move ℝ)) :
    hasBit (wordOf (sim.run moves).state node) bit = true ↔ Fell 1 q band (history sim moves) :=
  follows_run (follows_edge (fun on x => falling on x band)
    (fun _ h => lt_of_le_of_lt h hband) (falling_set band) (falling_clear band) hb hlaw) hs hpl
    (by rw [h0.words, hasBit_zero]) moves

theorem rack_climbed (hs : Sound sim) (hpl : sim.plant = gw01Plant cfg ems) (h0 : AllClear sim.state)
    {bit : Nat} {f : RackState ℝ → ℝ} {band : Band ℝ} (hb : bit < 8)
    (hband : band.clearAt < band.raiseAt) (hf : ∀ x w, f { x with alarmBits := w } = f x)
    (hbits : ∀ x : RackState ℝ, (bit, rising (hasBit x.alarmBits bit) (f x) band) ∈
      RackAlarmThresholds.default.bits x cfg.rack (derateFactor x)) (moves : List (Move ℝ))
    (b c r : Nat) :
    hasBit (wordOf (sim.run moves).state (.rack b c r)) bit = true ↔
      Climbed 1 (rackReading b c r f) band (history sim moves) :=
  climbed_run hs hpl h0 hb hband (rack_law cfg ems (fun on x => rising on x band) hbits hf b c r)
    moves

theorem rack_fell (hs : Sound sim) (hpl : sim.plant = gw01Plant cfg ems) (h0 : AllClear sim.state)
    {bit : Nat} {f : RackState ℝ → ℝ} {band : Band ℝ} (hb : bit < 8)
    (hband : band.raiseAt < band.clearAt) (hf : ∀ x w, f { x with alarmBits := w } = f x)
    (hbits : ∀ x : RackState ℝ, (bit, falling (hasBit x.alarmBits bit) (f x) band) ∈
      RackAlarmThresholds.default.bits x cfg.rack (derateFactor x)) (moves : List (Move ℝ))
    (b c r : Nat) :
    hasBit (wordOf (sim.run moves).state (.rack b c r)) bit = true ↔
      Fell 1 (rackReading b c r f) band (history sim moves) :=
  fell_run hs hpl h0 hb hband (rack_law cfg ems (fun on x => falling on x band) hbits hf b c r)
    moves

/-- Every hysteresis bit is a function of the measured history. Whatever the commands between
the ticks, a bit is set exactly when its quantity reached the raise edge on some tick, or for
the whole deadband ending there, and stayed past the clear edge on every tick since. -/
theorem bits_from_history (hs : Sound sim) (hpl : sim.plant = gw01Plant cfg ems)
    (h0 : AllClear sim.state) (moves : List (Move ℝ)) :
    ToldByHistory cfg (sim.run moves).state (history sim moves) where
  overTemp := rack_climbed hs hpl h0 (by decide) (by norm_num [RackAlarmThresholds.default])
    (fun _ _ => rfl) (fun x => by simp [RackAlarmThresholds.bits]) moves
  underTemp := rack_fell hs hpl h0 (by decide) (by norm_num [RackAlarmThresholds.default])
    (fun _ _ => rfl) (fun x => by simp [RackAlarmThresholds.bits]) moves
  socHigh := rack_climbed hs hpl h0 (by decide) (by norm_num [RackAlarmThresholds.default])
    (fun _ _ => rfl) (fun x => by simp [RackAlarmThresholds.bits]) moves
  socLow := rack_fell hs hpl h0 (by decide) (by norm_num [RackAlarmThresholds.default])
    (fun _ _ => rfl) (fun x => by simp [RackAlarmThresholds.bits]) moves
  imbalance := rack_climbed hs hpl h0 (by decide) (by norm_num [RackAlarmThresholds.default])
    (fun _ _ => rfl) (fun x => by simp [RackAlarmThresholds.bits]) moves
  derate := rack_fell hs hpl h0 (by decide) (by norm_num [RackAlarmThresholds.default])
    (fun _ _ => rfl) (fun x => by simp [RackAlarmThresholds.bits]) moves
  containerOverTemp k := climbed_run hs hpl h0 (by decide)
    (by norm_num [BlockSiteThresholds.default]) (air_law cfg ems k) moves
  setpointNotMet k := notMet_run cfg ems hs hpl k (by rw [h0.words, hasBit_zero])
    (fun missS hmissS => by
      obtain ⟨b, hb, rfl⟩ := Option.map_eq_some_iff.mp hmissS
      refine ⟨0, by rw [h0.timers b (List.mem_of_getElem? hb), Nat.cast_zero], fun i => ?_⟩
      cases i <;> simp) moves
  powerLimited := climbed_run hs hpl h0 (by decide) (by norm_num [BlockSiteThresholds.default])
    (limited_law cfg ems) moves

end

theorem allClear_new (cfg : PlantConfig ℝ) (seed : UInt64) (t : Int) :
    AllClear (SiteState.new cfg seed t) where
  words := congrFun (congrArg Picture.words (pictureOf_new cfg seed t))
  timers := forall_new_blocks cfg seed t fun _ => rfl

/-- A fresh plant, through a trip, a reset and two ticks. -/
theorem bits_from_history_gw01 :
    let sim : Simulation ℝ :=
      Simulation.new PlantConfig.gw01 (gw01Models PlantConfig.gw01 ⟨fun _ _ => 0⟩) 42 0
    let moves : List (Move ℝ) :=
      [.step ⟨⟨12, 0⟩, 50⟩, .command .tripProtection, .command (.resetAlarms .site),
        .step ⟨⟨12, 0⟩, 50⟩]
    ToldByHistory PlantConfig.gw01 (sim.run moves).state (history sim moves) :=
  bits_from_history (sound_new PlantConfig.gw01 _ 42 0) rfl (allClear_new PlantConfig.gw01 42 0) _

end BessHistory
