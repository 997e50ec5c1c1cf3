import BessEmulator.Gw01
import BessEmulator.Runs

/-!
# Invariants of racks

What every rack keeps through the edits and through its own part of a tick,
every rack of every reachable state keeps. The first instance: a rack of the
reference models stays electrically sane.
-/
namespace Bess

open Sweep

section

variable {F : Type}

def ForallRacks (Q : RackState F → Prop) (s : SiteState F) : Prop :=
  ∀ b ∈ s.blocks, ∀ c ∈ b.containers, ∀ r ∈ c.racks, Q r

def ForallContainers (Q : ContainerState F → Prop) (s : SiteState F) : Prop :=
  ∀ b ∈ s.blocks, ∀ c ∈ b.containers, Q c

variable [Scalar F]

/-- A property of containers that no command can break. -/
theorem forallContainers_kept {Q : ContainerState F → Prop}
    (hrack : ∀ f : RackState F → RackState F, RackEdit f → ∀ r c, Q c → Q (c.modifyRack r f))
    (hhvac : ∀ failed c, Q c → Q (c.setHvacFailed failed)) : KeptByEdits (ForallContainers Q) where
  rack b c r he h := forall_modify h fun _ hb => forall_modify hb (hrack _ he r)
  hvac b c failed h := forall_modify h fun _ hb => forall_modify hb (hhvac failed)
  block b he h := forall_modify h fun blk hb => by
    rw [he.containers]
    exact hb
  tripped h := by
    intro b hb
    obtain ⟨b₀, hb₀, rfl⟩ := List.mem_map.mp hb
    exact h b₀ hb₀
  closed h := by
    rw [SiteState.closed_eq]
    exact h
  setpoint w h := h
  pending es h := h

/-- A property of racks that no command can break. -/
theorem forallRacks_kept {Q : RackState F → Prop}
    (hQ : ∀ f : RackState F → RackState F, RackEdit f → ∀ r, Q r → Q (f r)) :
    KeptByEdits (ForallRacks Q) :=
  forallContainers_kept (fun f he _ _ hc => forall_modify hc (hQ f he)) fun _ _ hc => hc

/-- What each of a rack's three parts of a tick keeps. -/
structure KeptByTick (pl : Plant F) (Q : RackState F → Prop) : Prop where
  electrical : ∀ s inputs perRackW r, Q r → Q (cellTick (pl.ctx s inputs) perRackW r).1
  thermal : ∀ c heat w dtS, (∀ r ∈ c.racks, Q r) →
    ∀ r ∈ (pl.models.thermal.stepContainer c heat w dtS).1.racks, Q r
  word : ∀ r, Q r → Q (wordRack pl.models pl.cfg r)

/-- What the current makes of every rack, if the other two parts keep it. -/
theorem forallRacks_next {pl : Plant F} {P Q : RackState F → Prop} {s : SiteState F}
    {inputs : Inputs F} (helectrical : ∀ perRackW r, P r → Q (cellTick (pl.ctx s inputs) perRackW r).1)
    (hthermal : ∀ c heat w dtS, (∀ r ∈ c.racks, Q r) →
      ∀ r ∈ (pl.models.thermal.stepContainer c heat w dtS).1.racks, Q r)
    (hword : ∀ r, Q r → Q (wordRack pl.models pl.cfg r)) (h : ForallRacks P s) :
    ForallRacks Q (pl.siteTick s inputs) := by
  intro b hb c hc r hr
  obtain ⟨b₀, hb₀, c₀, hc₀, rfl⟩ := exists_container_before pl s inputs hb hc
  obtain ⟨r₁, hr₁, rfl⟩ := List.mem_map.mp hr
  apply hword
  refine hthermal _ _ _ _ ?_ r₁ hr₁
  intro r₂ hr₂
  obtain ⟨r₀, hr₀, rfl⟩ := List.mem_map.mp hr₂
  exact helectrical _ r₀ (h b₀.1 (List.fst_mem_of_mem_zipIdx hb₀) c₀ hc₀ r₀ hr₀)

theorem forallRacks_tick {pl : Plant F} {Q : RackState F → Prop} (hQ : KeptByTick pl Q)
    {s : SiteState F} (inputs : Inputs F) (h : ForallRacks Q s) :
    ForallRacks Q (pl.siteTick s inputs) :=
  forallRacks_next (hQ.electrical s inputs) hQ.thermal hQ.word h

/-- What holds of every rack at tick 0 and is kept by edits and ticks holds of
every rack of every reachable state. -/
theorem forallRacks_run {cfg : PlantConfig F} {models : Models F} (seed : UInt64) (t : Int)
    {Q : RackState F → Prop} (hnew : ∀ g, Q (RackState.new cfg g ()).2)
    (hedit : ∀ f : RackState F → RackState F, RackEdit f → ∀ r, Q r → Q (f r))
    (htick : KeptByTick (Simulation.new cfg models seed t).plant Q) (moves : List (Move F)) :
    ForallRacks Q ((Simulation.new cfg models seed t).run moves).state := by
  apply run_kept (sound_new cfg models seed t) (forallRacks_kept hedit)
  · intro s inputs _ h
    exact forallRacks_tick htick inputs h
  · exact forall_new_blocks cfg seed t (forall_new_containers cfg (forall_new_racks cfg hnew))

/-- The lumped thermal model keeps whatever does not read the cell temperature. -/
theorem lumpedThermal_keeps (m : LumpedThermal F) {Q : RackState F → Prop}
    (hQ : ∀ r t, Q r → Q { r with cellTempC := t }) (c : ContainerState F) (heat : List F)
    (w : Weather F) (dtS : F) (h : ∀ r ∈ c.racks, Q r) :
    ∀ r ∈ (m.thermalModel.stepContainer c heat w dtS).1.racks, Q r := by
  have hstep : ∀ p r, Q r → Q (m.stepCells c.airTempC dtS p r).2 := by
    intro p r hr
    rw [LumpedThermal.stepCells]
    split
    · exact hr
    · exact hQ _ _ hr
  exact sweep_forall hstep (heat, 0) c.racks h

end

/-- Ratings as a nameplate has them. -/
structure PlantConfig.Rated (cfg : PlantConfig ℝ) : Prop where
  capacity : 0 < cfg.rack.cellCapacityAh
  nominalV : 0 ≤ cfg.rack.nominalV
  maxCurrent : 0 ≤ cfg.rack.maxCurrentA
  pcs : 0 < cfg.pcsRatedW
  site : 0 < cfg.grid.siteRatedW

theorem rated_gw01 : PlantConfig.gw01.Rated := by
  constructor
  all_goals norm_num [PlantConfig.gw01, RackConfig.nominalV]

@[simp] theorem tickS_real : (tickS : ℝ) = 1 := by norm_num [tickS, TICK_SECONDS]

/-- The ranges every rack of the reference models stays in. -/
structure RackOk (r : RackState ℝ) : Prop where
  soc_nonneg : 0 ≤ r.soc
  soc_le : r.soc ≤ 1
  soh : r.soh = 1
  scale : 0 < r.resistanceScale
  spread : 0 ≤ r.cellDsoc
  excess : 0 ≤ r.selfDischargeExcessPerS

/-- The state is untouched outside what a rack's sanity reads. -/
theorem RackOk.of_eq {r r' : RackState ℝ} (h : RackOk r) (hsoc : r'.soc = r.soc)
    (hsoh : r'.soh = r.soh) (hscale : r'.resistanceScale = r.resistanceScale)
    (hspread : r'.cellDsoc = r.cellDsoc)
    (hexcess : r'.selfDischargeExcessPerS = r.selfDischargeExcessPerS) : RackOk r' where
  soc_nonneg := hsoc ▸ h.soc_nonneg
  soc_le := hsoc ▸ h.soc_le
  soh := hsoh ▸ h.soh
  scale := hscale ▸ h.scale
  spread := hspread ▸ h.spread
  excess := hexcess ▸ h.excess

theorem excessPerS_nonneg (ppm : UInt32) : (0 : ℝ) ≤ excessPerS ppm := by
  rw [excessPerS, DAY_S]
  positivity

theorem rackOk_edit {f : RackState ℝ → RackState ℝ} (he : RackEdit f) (r : RackState ℝ)
    (h : RackOk r) : RackOk (f r) := by
  cases he with
  | service on => exact h.of_eq rfl rfl rfl rfl rfl
  | excess ppm => exact ⟨h.soc_nonneg, h.soc_le, h.soh, h.scale, h.spread, excessPerS_nonneg ppm⟩
  | unlatch => exact h.of_eq rfl rfl rfl rfl rfl

theorem rackOk_new (cfg : PlantConfig ℝ) (g : Streams) : RackOk (RackState.new cfg g ()).2 where
  soc_nonneg := Scalar.le_clamp zero_le_one
  soc_le := Scalar.clamp_le zero_le_one
  soh := rfl
  scale := by
    have h := (uniform_mem (g.rng.uniform (-0.005 : ℝ) 0.005).2 0.97 1.03 (by norm_num)).1
    exact lt_of_lt_of_le (by norm_num) h
  spread := by
    have h := (uniform_mem g.spreadRng 0.002 0.006 (by norm_num)).1
    exact le_trans (by norm_num) h
  excess := le_refl 0

theorem capacityAh_eq {r : RackState ℝ} (h : r.soh = 1) (cfg : RackConfig ℝ) :
    capacityAh r cfg = cfg.cellCapacityAh := by
  rw [capacityAh, h, mul_one]

theorem RackOk.capacity {r : RackState ℝ} (h : RackOk r) {cfg : RackConfig ℝ}
    (hc : 0 < cfg.cellCapacityAh) : 0 < capacityAh r cfg := by
  rw [capacityAh_eq h.soh]
  exact hc

section

variable {r : RackState ℝ} {cfg : RackConfig ℝ} {dtS : ℝ}

theorem drift_mem (hcap : 0 < capacityAh r cfg) (hspread : 0 ≤ r.cellDsoc)
    (hleak : 0 ≤ r.selfDischargeExcessPerS) (hdt : 0 ≤ dtS) :
    0 ≤ Balancing.default.drift r cfg dtS ∧ Balancing.default.drift r cfg dtS ≤ 1 := by
  have habs : 0 ≤ |r.currentA| := abs_nonneg _
  have hthrough : 0 ≤ (1.0e-4 : ℝ) * (|r.currentA| * dtS / (3600.0 * capacityAh r cfg)) := by
    positivity
  have hrate : 0 ≤ ((0.018 : ℝ) / (30.0 * 86400.0) + r.selfDischargeExcessPerS) * dtS := by
    positivity
  have hone : (1.0 : ℝ) = 1 := by norm_num
  simp only [Balancing.drift, Balancing.default, Scalar.abs_real]
  rw [hone]
  refine ⟨le_min ?_ zero_le_one, min_le_right _ _⟩
  split
  · linarith
  · linarith

/-- What bleeding takes off the spread: something, and no more than there is. -/
theorem narrowed_mem (hcap : 0 < capacityAh r cfg) (hdt : 0 ≤ dtS) {d : ℝ} (hd : 0 ≤ d) :
    0 ≤ Balancing.default.narrowed r cfg d dtS ∧ Balancing.default.narrowed r cfg d dtS ≤ d := by
  have hbleed : (0 : ℝ) ≤ 0.24 * dtS / (3600.0 * capacityAh r cfg) := by positivity
  simp only [Balancing.narrowed, Balancing.default]
  exact ⟨le_min hbleed hd, min_le_right _ _⟩

/-- What bleeding leaves of the charge. -/
theorem bledSoc_mem (h0 : 0 ≤ r.soc) {n : ℝ} (hn : 0 ≤ n) :
    0 ≤ max (r.soc - Balancing.default.bleedingShare * n) 0 ∧
      max (r.soc - Balancing.default.bleedingShare * n) 0 ≤ r.soc := by
  have hs : (0 : ℝ) ≤ Balancing.default.bleedingShare := by norm_num [Balancing.default]
  have hshare := mul_nonneg hs hn
  exact ⟨le_max_right _ _, max_le (by linarith) h0⟩

end

theorem rackOk_balance {r : RackState ℝ} {cfg : RackConfig ℝ} (h : RackOk r)
    (hc : 0 < cfg.cellCapacityAh) : RackOk (Balancing.default.step r cfg 1).1 := by
  have hcap := h.capacity hc
  have hd := (drift_mem hcap h.spread h.excess zero_le_one).1
  obtain ⟨hn0, hn1⟩ := narrowed_mem hcap zero_le_one hd
  obtain ⟨hs0, hs1⟩ := bledSoc_mem h.soc_nonneg hn0
  rw [Balancing.step]
  simp only
  split
  · exact
      { soc_nonneg := hs0
        soc_le := hs1.trans h.soc_le
        soh := h.soh
        scale := h.scale
        spread := by simp only; linarith
        excess := h.excess }
  · exact
      { soc_nonneg := h.soc_nonneg
        soc_le := h.soc_le
        soh := h.soh
        scale := h.scale
        spread := hd
        excess := h.excess }

theorem rackOk_cell {r : RackState ℝ} (m : Ecm1Rc ℝ) (cfg : RackConfig ℝ) (p dtS : ℝ)
    (h : RackOk r) : RackOk (m.stepRack r cfg p dtS).1 := by
  rw [Ecm1Rc.stepRack]
  split
  · exact
      { soc_nonneg := Scalar.le_clamp zero_le_one
        soc_le := Scalar.clamp_le zero_le_one
        soh := h.soh
        scale := h.scale
        spread := h.spread
        excess := h.excess }
  · exact h.of_eq rfl rfl rfl rfl rfl

/-- Asked for nothing, a sane rack carries nothing. -/
theorem current_zero {r : RackState ℝ} {cfg : RackConfig ℝ} {m : Ecm1Rc ℝ} (h : RackOk r)
    (hm : 0 ≤ m.r0Ohm) (hc : 0 ≤ cfg.cellCapacityAh) (hi : 0 ≤ cfg.maxCurrentA) {dtS : ℝ}
    (hdt : 0 < dtS) : m.current r cfg 0 dtS = 0 := by
  have hr0 : 0 ≤ m.r0Ohm * r.resistanceScale := mul_nonneg hm h.scale.le
  have hpmax : (0 : ℝ) ≤ 0.999 * ((ocvRackV r.soc cfg - r.polarizationV)
      * (ocvRackV r.soc cfg - r.polarizationV) / (4.0 * (m.r0Ohm * r.resistanceScale))) := by
    have hsq := mul_self_nonneg (ocvRackV r.soc cfg - r.polarizationV)
    positivity
  have hroot : ∀ r0 e : ℝ, Ecm1Rc.currentFor r0 e 0 = 0 := by
    intro r0 e
    rw [Ecm1Rc.currentFor, Scalar.abs_real, abs_zero, if_pos Scalar.epsilon_pos]
  have hcap : capacityAh r cfg = cfg.cellCapacityAh := capacityAh_eq h.soh cfg
  have hd : 0 ≤ r.soc * capacityAh r cfg * 3600.0 / dtS := by
    have := h.soc_nonneg
    rw [hcap]
    positivity
  have hch : 0 ≤ (1.0 - r.soc) * capacityAh r cfg * 3600.0 / dtS := by
    have h1 : 0 ≤ 1.0 - r.soc := by
      have := h.soc_le
      norm_num
      linarith
    rw [hcap]
    positivity
  simp only [Ecm1Rc.current, min_eq_left hpmax, hroot]
  rw [Scalar.clamp_of_mem (by linarith) hi, Scalar.clamp_of_mem (by linarith) hd]

theorem stepRack_zero {r : RackState ℝ} {cfg : RackConfig ℝ} {m : Ecm1Rc ℝ} (h : RackOk r)
    (hm : 0 ≤ m.r0Ohm) (hc : 0 ≤ cfg.cellCapacityAh) (hi : 0 ≤ cfg.maxCurrentA) {dtS : ℝ}
    (hdt : 0 < dtS) : (m.stepRack r cfg 0 dtS).2.pDcW = 0 := by
  rw [Ecm1Rc.stepRack]
  split
  · rw [current_zero h hm hc hi hdt]
    simp [Ecm1Rc.carry]
  · rfl

/-- The reference plant of a configuration. -/
noncomputable def gw01Plant (cfg : PlantConfig ℝ) (ems : EmsStrategy ℝ) : Plant ℝ where
  cfg := cfg
  models := gw01Models cfg ems
  thresholds := BlockSiteThresholds.default
  returnPolicy := ReturnPolicy.default

/-- A rack as the BMS leaves it before the cells step. -/
theorem rackOk_bmsTick {cfg : PlantConfig ℝ} (hcfg : cfg.Rated) (ems : EmsStrategy ℝ)
    (s : SiteState ℝ) (inputs : Inputs ℝ) {r : RackState ℝ} (h : RackOk r) :
    RackOk (bmsTick ((gw01Plant cfg ems).ctx s inputs) r).1 := by
  have hb := rackOk_balance h hcfg.capacity
  rw [← tickS_real] at hb
  exact hb

theorem rackOk_tick {cfg : PlantConfig ℝ} (hcfg : cfg.Rated) (ems : EmsStrategy ℝ) :
    KeptByTick (gw01Plant cfg ems) RackOk where
  electrical s inputs perRackW r h := by
    apply rackOk_cell
    exact rackOk_bmsTick hcfg ems s inputs h
  thermal := lumpedThermal_keeps LumpedThermal.default fun r t h => h.of_eq rfl rfl rfl rfl rfl
  word r h := h.of_eq rfl rfl rfl rfl rfl

theorem rackOk_run {cfg : PlantConfig ℝ} (hcfg : cfg.Rated) (ems : EmsStrategy ℝ) (seed : UInt64)
    (t : Int) (moves : List (Move ℝ)) :
    ForallRacks RackOk ((Simulation.new cfg (gw01Models cfg ems) seed t).run moves).state :=
  forallRacks_run seed t (rackOk_new cfg) (fun _ he => rackOk_edit he) (rackOk_tick hcfg ems) moves

end Bess
