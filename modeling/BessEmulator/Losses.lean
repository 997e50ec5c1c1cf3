import BessEmulator.Dispatch
import BessEmulator.RackHeat
import BessEmulator.Traces

/-!
# The loss counters

Converter, transformer and house load only ever add to their counters. The
batteries' counter adds the racks' heat, and can fall only in a tick in which
some rack is asked for a little against its polarization.
-/
namespace BessLosses

open Bess BessTrip BessLedger BessCapability BessSoc

theorem sum_nonneg {α : Type} {f : α → ℝ} {xs : List α} (h : ∀ x ∈ xs, 0 ≤ f x) :
    0 ≤ (xs.map f).sum := by
  apply List.sum_nonneg
  intro y hy
  obtain ⟨x, hx, rfl⟩ := List.mem_map.mp hy
  exact h x hx

theorem sum_nonpos {α : Type} {f : α → ℝ} {xs : List α} (h : ∀ x ∈ xs, f x ≤ 0) :
    (xs.map f).sum ≤ 0 := by
  have hsum := List.sum_le_sum (f := f) (g := fun _ => 0) h
  simpa using hsum

theorem sum_neg {α : Type} {f : α → ℝ} {xs : List α} (h : ∀ x ∈ xs, f x ≤ 0)
    (hlt : ∃ x ∈ xs, f x < 0) : (xs.map f).sum < 0 := by
  have hsum := List.sum_lt_sum f (fun _ => 0) h hlt
  simpa using hsum

theorem sum_ge {α : Type} {f : α → ℝ} {c : ℝ} {xs : List α} (h : ∀ x ∈ xs, c ≤ f x) :
    (xs.length : ℝ) * c ≤ (xs.map f).sum := by
  induction xs with
  | nil => simp
  | cons x xs ih =>
    have hx := h x List.mem_cons_self
    have hxs := ih fun y hy => h y (List.mem_cons_of_mem _ hy)
    rw [List.map_cons, List.sum_cons, List.length_cons]
    push_cast
    linarith

/-- The counters beside the batteries', each no less than before. -/
structure Fed (e e' : EnergyAccounting ℝ) : Prop where
  pcsLossWh : e.pcsLossWh ≤ e'.pcsLossWh
  transformerLossWh : e.transformerLossWh ≤ e'.transformerLossWh
  auxWh : e.auxWh ≤ e'.auxWh
  hvacWh : e.auxItems.hvacWh ≤ e'.auxItems.hvacWh
  bmsWh : e.auxItems.bmsWh ≤ e'.auxItems.bmsWh
  pcsStandbyWh : e.auxItems.pcsStandbyWh ≤ e'.auxItems.pcsStandbyWh
  controlsWh : e.auxItems.controlsWh ≤ e'.auxItems.controlsWh
  lightingAndSafetyWh : e.auxItems.lightingAndSafetyWh ≤ e'.auxItems.lightingAndSafetyWh

/-- Every counter of the books, none less than before. -/
structure NeverDecreases (e e' : EnergyAccounting ℝ) : Prop extends Fed e e' where
  batteryLossWh : e.batteryLossWh ≤ e'.batteryLossWh

theorem Fed.refl (e : EnergyAccounting ℝ) : Fed e e := by
  constructor <;> exact le_refl _

/-- The thermostat draws power in every mode. -/
theorem modeElectricalW_nonneg (mode : HvacMode) :
    0 ≤ (LumpedThermal.default : LumpedThermal ℝ).modeElectricalW mode := by
  cases mode
  all_goals norm_num [LumpedThermal.modeElectricalW, LumpedThermal.default, LumpedThermal.coolingUnits]

/-- Every item of the house load is drawn, none fed back. -/
structure Drawn (p : AuxPower ℝ) : Prop where
  hvacW : 0 ≤ p.hvacW
  bmsW : 0 ≤ p.bmsW
  pcsStandbyW : 0 ≤ p.pcsStandbyW
  controlsW : 0 ≤ p.controlsW
  lightingAndSafetyW : 0 ≤ p.lightingAndSafetyW

theorem Drawn.totalW {p : AuxPower ℝ} (h : Drawn p) : 0 ≤ p.totalW := by
  rw [AuxPower.totalW]
  linarith [h.hvacW, h.bmsW, h.pcsStandbyW, h.controlsW, h.lightingAndSafetyW]

section

variable (ems : EmsStrategy ℝ) (s : SiteState ℝ) (inputs : Inputs ℝ)

theorem auxPower_drawn (cfg : PlantConfig ℝ) : Drawn ((gw01Plant cfg ems).auxPower s inputs) := by
  have hhvac : 0 ≤ sumOver (fun b => ((gw01Plant cfg ems).outcome s inputs b).hvacW)
      s.blocks.zipIdx := by
    rw [sumOver_eq]
    apply sum_nonneg
    intro b _
    have hb : ((gw01Plant cfg ems).outcome s inputs b).hvacW = blockHvacW
      ((gw01Plant cfg ems).ctx s inputs) ((gw01Plant cfg ems).inSet s inputs b) b.1 := rfl
    rw [hb, blockHvacW, sumOver_eq]
    exact sum_nonneg fun c _ => modeElectricalW_nonneg _
  constructor
  · exact hhvac
  · exact mul_nonneg (by norm_num [InventoryAux.gw01]) (Nat.cast_nonneg _)
  · exact mul_nonneg (by norm_num [InventoryAux.gw01]) (Nat.cast_nonneg _)
  · change (0 : ℝ) ≤ 15.0e3
    norm_num
  · change (0 : ℝ) ≤ 10.0e3
    norm_num

/-- Iron and copper, or nothing under an open breaker. -/
theorem simpleGrid_loss (siteRatedW : ℝ) (sub : SubstationState ℝ) (p aux f dtS : ℝ) :
    0 ≤ ((SimpleGrid.new siteRatedW).step sub p aux f dtS).transformerLossW := by
  rw [SimpleGrid.step]
  cases hb : sub.hvBreaker with
  | opened => exact le_refl 0
  | closed =>
    simp only [SimpleGrid.stepClosed, meter_transformerLossW]
    have hsq := mul_self_nonneg (p / (SimpleGrid.new siteRatedW).siteRatedW)
    have hno : (0 : ℝ) ≤ (SimpleGrid.new siteRatedW).noLoadLossW := by norm_num [SimpleGrid.new]
    have hl : (0 : ℝ) ≤ (SimpleGrid.new siteRatedW).loadLossAtRatedW := by norm_num [SimpleGrid.new]
    nlinarith [mul_nonneg hl hsq]

/-- A reachable tree of the reference site: its shape, and every rack in its window. -/
structure Kept (s : SiteState ℝ) : Prop where
  shape : Shaped (PlantConfig.gw01 : PlantConfig ℝ) s
  racks : ForallRacks Windowed s

theorem gw01_rack : (PlantConfig.gw01 : PlantConfig ℝ).rack = gw01Rack := rfl

/-- The reference site's plant. -/
noncomputable def site (ems : EmsStrategy ℝ) : Plant ℝ := gw01Plant PlantConfig.gw01 ems

theorem bmsTick_site (r : RackState ℝ) :
    bmsTick ((site ems).ctx s inputs) r = Balancing.default.step r gw01Rack 1 :=
  bmsTick_gw01 gw01_rack ems s inputs r

theorem cellTick_site (perRackW : ℝ) (r : RackState ℝ) :
    cellTick ((site ems).ctx s inputs) perRackW r =
      Ecm1Rc.lfp314ahRack.stepRack (bmsTick ((site ems).ctx s inputs) r).1 gw01Rack
        (requestOf ((site ems).ctx s inputs) perRackW r) 1 :=
  cellTick_gw01 gw01_rack ems s inputs perRackW r

section

variable {s} (h : Kept s)
include h

theorem kept_rack {b : BlockState ℝ × Nat} (hb : b ∈ s.blocks.zipIdx) {r : RackState ℝ}
    (hr : r ∈ b.1.racks) : Windowed r := by
  obtain ⟨c, hc, hrc⟩ := List.mem_flatMap.mp hr
  exact h.racks b.1 (List.fst_mem_of_mem_zipIdx hb) c hc r hrc

theorem kept_bms {b : BlockState ℝ × Nat} (hb : b ∈ s.blocks.zipIdx) {r : RackState ℝ}
    (hr : r ∈ b.1.racks) : Windowed (bmsTick ((site ems).ctx s inputs) r).1 := by
  rw [bmsTick_site]
  exact windowed_balance (kept_rack h hb hr)

theorem block_dc {b : BlockState ℝ × Nat} (hb : b ∈ s.blocks.zipIdx) :
    -12000000 ≤ blockDcW ((site ems).ctx s inputs) ((site ems).inSet s inputs b) b.1 := by
  have hlen : b.1.racks.length = 24 :=
    (h.shape.blocks b.1 (List.fst_mem_of_mem_zipIdx hb)).racks_length
  set perRackW := perRackOf ((site ems).ctx s inputs) ((site ems).inSet s inputs b) b.1 with hper
  have hrack : ∀ r ∈ b.1.racks, -500000 ≤ dcOf ((site ems).ctx s inputs) perRackW r := by
    intro r hr
    have hp := stepRack_power (kept_bms ems inputs h hb hr)
      (requestOf ((site ems).ctx s inputs) perRackW r)
    rw [dcOf, cellTick_site]
    exact (abs_le.mp hp).1
  have hsum := sum_ge hrack
  rw [hlen] at hsum
  rw [blockDcW, sumOver_eq, ← hper]
  norm_num at hsum ⊢
  linarith

theorem block_loss {b : BlockState ℝ × Nat} (hb : b ∈ s.blocks.zipIdx) :
    0 ≤ ((site ems).nextBlock s inputs b).pcs.lossW := by
  have hdc := block_dc ems inputs h hb
  have hloss : ((site ems).nextBlock s inputs b).pcs.lossW =
      blockDcW ((site ems).ctx s inputs) ((site ems).inSet s inputs b) b.1
        - (CurvePcs.cecUtilityReference 5.0e6).acOf
          (blockDcW ((site ems).ctx s inputs) ((site ems).inSet s inputs b) b.1) := rfl
  rw [hloss]
  apply acOf_loss
  · norm_num
  · norm_num
    linarith

end

/-- The block loop books the batteries' heat and the converters' loss, each for itself. -/
theorem bookBlocks_each (pl : Plant ℝ) (bs : List (BlockState ℝ × Nat)) (e : EnergyAccounting ℝ) :
    (bs.foldl (pl.bookBlock s inputs) e).batteryLossWh =
        e.batteryLossWh + (bs.map fun b => (pl.outcome s inputs b).batteryHeatW).sum / 3600 ∧
      (bs.foldl (pl.bookBlock s inputs) e).pcsLossWh =
        e.pcsLossWh + (bs.map fun b => (pl.nextBlock s inputs b).pcs.lossW).sum / 3600 := by
  induction bs generalizing e with
  | nil => simp
  | cons b bs ih =>
    obtain ⟨hb, hp⟩ := ih (pl.bookBlock s inputs e b)
    rw [List.foldl_cons, hb, hp]
    simp only [Plant.bookBlock, List.map_cons, List.sum_cons, tickS_real]
    constructor
    · ring
    · ring

theorem fed_tick {s : SiteState ℝ} (h : Kept s) :
    Fed s.energy ((site ems).siteTick s inputs).energy := by
  obtain ⟨haux, hitems, htl⟩ := bookBlocks_frame (site ems) s inputs s.blocks.zipIdx s.energy
  have hpcs := (bookBlocks_each s inputs (site ems) s.blocks.zipIdx s.energy).2
  have hloss : 0 ≤ (s.blocks.zipIdx.map fun b => ((site ems).nextBlock s inputs b).pcs.lossW).sum :=
    sum_nonneg fun b hb => block_loss ems inputs h hb
  have hdrawn := auxPower_drawn ems s inputs PlantConfig.gw01
  have hload : ((site ems).gridTick s inputs).auxPowerW = ((site ems).auxPower s inputs).totalW :=
    simpleGrid_aux _ _ _ _ _ _
  have hgrid : 0 ≤ ((site ems).gridTick s inputs).transformerLossW := simpleGrid_loss _ _ _ _ _ _
  have hwh : (0 : ℝ) ≤ tickS / 3600 := by
    rw [tickS_real]
    norm_num
  have hadd : ∀ {e w : ℝ}, 0 ≤ w → e ≤ e + w * (tickS / 3600) :=
    fun hw => le_add_of_nonneg_right (mul_nonneg hw hwh)
  rw [siteTick_energy]
  constructor
  · simp only [hpcs]
    linarith
  · simp only [htl]
    exact hadd hgrid
  · simp only [haux, hload]
    exact hadd hdrawn.totalW
  · simp only [hitems, AuxEnergy.accumulate]
    exact hadd hdrawn.hvacW
  · simp only [hitems, AuxEnergy.accumulate]
    exact hadd hdrawn.bmsW
  · simp only [hitems, AuxEnergy.accumulate]
    exact hadd hdrawn.pcsStandbyW
  · simp only [hitems, AuxEnergy.accumulate]
    exact hadd hdrawn.controlsW
  · simp only [hitems, AuxEnergy.accumulate]
    exact hadd hdrawn.lightingAndSafetyW

/-- The heat of every rack on site, each with its block's part of the request. -/
noncomputable def racksHeatW (pl : Plant ℝ) (s : SiteState ℝ) (inputs : Inputs ℝ) : ℝ :=
  (s.blocks.zipIdx.map fun b =>
    (b.1.racks.map (heatOf (pl.ctx s inputs)
      (perRackOf (pl.ctx s inputs) (pl.inSet s inputs b) b.1))).sum).sum

theorem battery_tick (s : SiteState ℝ) :
    ((site ems).siteTick s inputs).energy.batteryLossWh =
      s.energy.batteryLossWh + racksHeatW (site ems) s inputs / 3600 := by
  have hbooks := (bookBlocks_each s inputs (site ems) s.blocks.zipIdx s.energy).1
  have hblock : ∀ b ∈ s.blocks.zipIdx, ((site ems).outcome s inputs b).batteryHeatW =
      (b.1.racks.map (heatOf ((site ems).ctx s inputs)
        (perRackOf ((site ems).ctx s inputs) ((site ems).inSet s inputs b) b.1))).sum := by
    intro b _
    have hheat : ((site ems).outcome s inputs b).batteryHeatW =
        blockHeatW ((site ems).ctx s inputs) ((site ems).inSet s inputs b) b.1 := rfl
    rw [hheat, blockHeatW, sumOver_eq]
  rw [siteTick_energy]
  simp only [hbooks]
  rw [sum_congr hblock]
  rfl

/-- The batteries' counter keeps rising exactly while the racks' heat is not negative. -/
theorem neverDecreases_tick {s : SiteState ℝ} (h : Kept s) :
    NeverDecreases s.energy ((site ems).siteTick s inputs).energy ↔
      0 ≤ racksHeatW (site ems) s inputs := by
  have hbattery := battery_tick ems inputs s
  constructor
  · intro hn
    have := hn.batteryLossWh
    rw [hbattery] at this
    linarith
  · intro hheat
    refine ⟨fed_tick ems inputs h, ?_⟩
    rw [hbattery]
    linarith

end

/-- The BMS pass moves a rack's charge, never up, and its spread. -/
theorem balance_rest {r : RackState ℝ} (h : RackOk r) :
    (Balancing.default.step r gw01Rack 1).1.soc ≤ r.soc ∧
      (Balancing.default.step r gw01Rack 1).1.inService = r.inService ∧
      (Balancing.default.step r gw01Rack 1).1.polarizationV = r.polarizationV ∧
      seriesOhm (Balancing.default.step r gw01Rack 1).1 = seriesOhm r := by
  cases ha : Balancing.default.active r with
  | false =>
    rw [Balancing.step]
    simp [ha, seriesOhm]
  | true =>
    have hmem := bled_mem h
    refine ⟨?_, ?_⟩
    · rw [balance_soc h ha]
      norm_num [Balancing.default] at hmem ⊢
      linarith [hmem.1]
    · rw [Balancing.step]
      simp [ha, seriesOhm]

/-- A rack that does not bleed keeps its charge and gives up nothing. -/
theorem balance_idle {r : RackState ℝ} (ha : Balancing.default.active r = false) :
    (Balancing.default.step r gw01Rack 1).1.soc = r.soc ∧
      (Balancing.default.step r gw01Rack 1).2.heatW = 0 := by
  rw [Balancing.step]
  simp [ha]

/-- Bleeding only ever warms. -/
theorem bleed_nonneg {r : RackState ℝ} (h : Windowed r) :
    0 ≤ (Balancing.default.step r gw01Rack 1).2.heatW := by
  have hb := bleed_balance Balancing.default r gw01Rack (one_ne_zero : (1 : ℝ) ≠ 0)
  have hbled : 0 ≤ (Balancing.default.step r gw01Rack 1).2.bledWh := by
    cases ha : Balancing.default.active r with
    | false =>
      rw [Balancing.step]
      simp [ha]
    | true =>
      have hw := windowed_balance h
      have hle := (balance_rest h.ok).1
      have harea := (ocv_enclosed hw.ok.soc_nonneg hle h.ok.soc_le).low
      have hvolt := (ocvCellV_mem (Balancing.default.step r gw01Rack 1).1.soc).1
      have hpos : 0 ≤ ocvCellIntegralV r.soc
          - ocvCellIntegralV (Balancing.default.step r gw01Rack 1).1.soc :=
        le_trans (mul_nonneg (by linarith) (by linarith)) harea
      have heq : (Balancing.default.step r gw01Rack 1).2.bledWh =
          (ocvCellIntegralV r.soc - ocvCellIntegralV (Balancing.default.step r gw01Rack 1).1.soc)
            * capacityAh r gw01Rack * ((gw01Rack.cellsSeries : ℕ) : ℝ) := by
        rw [Balancing.step]
        simp only [ha, if_true]
      rw [heq, capacityAh_eq h.ok.soh, gw01Rack_capacity]
      positivity
  linarith

section

variable {ems : EmsStrategy ℝ} {s : SiteState ℝ} {inputs : Inputs ℝ}

/-- A rack in service, asked against its polarization in the tick to come. -/
def Reversed (pl : Plant ℝ) (s : SiteState ℝ) (inputs : Inputs ℝ) (b : BlockState ℝ × Nat)
    (r : RackState ℝ) : Prop :=
  (bmsTick (pl.ctx s inputs) r).1.inService = true ∧
    AgainstPolarization (bmsTick (pl.ctx s inputs) r).1
      (requestOf (pl.ctx s inputs)
        (perRackOf (pl.ctx s inputs) (pl.inSet s inputs b) b.1) r)

/-- Heat of one rack's cells in the tick to come. -/
noncomputable def cellHeatW (pl : Plant ℝ) (s : SiteState ℝ) (inputs : Inputs ℝ)
    (b : BlockState ℝ × Nat) (r : RackState ℝ) : ℝ :=
  (cellTick (pl.ctx s inputs) (perRackOf (pl.ctx s inputs) (pl.inSet s inputs b) b.1) r).2.heatW

theorem reversed_iff (h : Kept s) {b : BlockState ℝ × Nat} (hb : b ∈ s.blocks.zipIdx)
    {r : RackState ℝ} (hr : r ∈ b.1.racks) :
    cellHeatW (site ems) s inputs b r < 0 ↔ Reversed (site ems) s inputs b r := by
  have hw := kept_bms ems inputs h hb hr
  rw [cellHeatW, Reversed, cellTick_site]
  cases hin : (bmsTick ((site ems).ctx s inputs) r).1.inService with
  | true =>
    rw [heat_neg_iff hw hin]
    simp
  | false =>
    rw [Ecm1Rc.stepRack, if_neg (by simp [hin])]
    simp [Ecm1Rc.restRack]

/-- A rack of the tree in service, asked in the tick to come for a power strictly
between zero and `-ocv * v1 / r0`. -/
def Opposed (pl : Plant ℝ) (s : SiteState ℝ) (inputs : Inputs ℝ) (b : BlockState ℝ × Nat)
    (r : RackState ℝ) : Prop :=
  r.inService = true ∧
    AgainstPolarization r
      (requestOf (pl.ctx s inputs) (perRackOf (pl.ctx s inputs) (pl.inSet s inputs b) b.1) r)

/-- The bleeders lower the open-circuit voltage, and with it what a branch gives back. -/
theorem opposed_of_reversed {b : BlockState ℝ × Nat} {r : RackState ℝ} (hok : RackOk r)
    (h : Reversed (site ems) s inputs b r) : Opposed (site ems) s inputs b r := by
  obtain ⟨hin, hsmall, hagainst⟩ := h
  obtain ⟨hsoc, hservice, hpol, hohm⟩ := balance_rest hok
  rw [← bmsTick_site ems s inputs] at hsoc hservice hpol hohm
  refine ⟨hservice.symm.trans hin, hsmall, ?_⟩
  set p := requestOf ((site ems).ctx s inputs)
    (perRackOf ((site ems).ctx s inputs) ((site ems).inSet s inputs b) b.1) r
  set soc := (bmsTick ((site ems).ctx s inputs) r).1.soc
  rw [hpol, hohm] at hagainst
  have hocv : ocvRackV soc gw01Rack ≤ ocvRackV r.soc gw01Rack := by
    rw [gw01Rack_ocv, gw01Rack_ocv]
    linarith [ocvCellV_mono hsoc]
  have hpos := (ocv_mem soc).1
  have hsq : 0 ≤ seriesOhm r * (p * p) :=
    mul_nonneg (mul_nonneg (by norm_num [Ecm1Rc.lfp314ahRack]) hok.scale.le) (mul_self_nonneg p)
  have hneg : ocvRackV soc gw01Rack * (p * r.polarizationV) < 0 := by linarith
  have hside : p * r.polarizationV < 0 := neg_of_mul_neg_right hneg (by linarith)
  have hmore : ocvRackV r.soc gw01Rack * (p * r.polarizationV) ≤
      ocvRackV soc gw01Rack * (p * r.polarizationV) := mul_le_mul_of_nonpos_right hocv hside.le
  linarith

theorem reversed_of_opposed {b : BlockState ℝ × Nat} {r : RackState ℝ} (hok : RackOk r)
    (ha : Balancing.default.active r = false) (h : Opposed (site ems) s inputs b r) :
    Reversed (site ems) s inputs b r := by
  obtain ⟨hin, hsmall, hagainst⟩ := h
  obtain ⟨-, hservice, hpol, hohm⟩ := balance_rest hok
  have hsoc := (balance_idle ha).1
  rw [← bmsTick_site ems s inputs] at hsoc hservice hpol hohm
  refine ⟨hservice.trans hin, hsmall, ?_⟩
  rw [hsoc, hpol, hohm]
  exact hagainst

/-- No rack of the site opposed in the tick to come. -/
def NoneOpposed (pl : Plant ℝ) (s : SiteState ℝ) (inputs : Inputs ℝ) : Prop :=
  ∀ b ∈ s.blocks.zipIdx, ∀ r ∈ b.1.racks, ¬ Opposed pl s inputs b r

theorem heat_nonneg (h : Kept s) (hnone : NoneOpposed (site ems) s inputs) :
    0 ≤ racksHeatW (site ems) s inputs := by
  apply sum_nonneg
  intro b hb
  apply sum_nonneg
  intro r hr
  have hw := kept_rack h hb hr
  have hcell : 0 ≤ cellHeatW (site ems) s inputs b r := by
    by_contra hlt
    exact hnone b hb r hr (opposed_of_reversed hw.ok ((reversed_iff h hb hr).mp (not_le.mp hlt)))
  have hbleed := bleed_nonneg hw
  rw [← bmsTick_site ems s inputs] at hbleed
  exact add_nonneg hcell hbleed

/-- Every rack in service opposed, some rack in service and none bleeding. -/
structure AllOpposed (pl : Plant ℝ) (s : SiteState ℝ) (inputs : Inputs ℝ) : Prop where
  some : ∃ b ∈ s.blocks.zipIdx, ∃ r ∈ b.1.racks, r.inService = true
  idle : ∀ b ∈ s.blocks.zipIdx, ∀ r ∈ b.1.racks, Balancing.default.active r = false
  opposed : ∀ b ∈ s.blocks.zipIdx, ∀ r ∈ b.1.racks, r.inService = true → Opposed pl s inputs b r

theorem heat_of_opposed (h : Kept s) (hall : AllOpposed (site ems) s inputs)
    {b : BlockState ℝ × Nat} (hb : b ∈ s.blocks.zipIdx) {r : RackState ℝ} (hr : r ∈ b.1.racks) :
    let heat := heatOf ((site ems).ctx s inputs)
      (perRackOf ((site ems).ctx s inputs) ((site ems).inSet s inputs b) b.1) r
    heat ≤ 0 ∧ (r.inService = true → heat < 0) := by
  intro heat
  have hok := (kept_rack h hb hr).ok
  have hidle := hall.idle b hb r hr
  have hbleed := (balance_idle hidle).2
  rw [← bmsTick_site ems s inputs] at hbleed
  have hheat : heat = cellHeatW (site ems) s inputs b r := by
    rw [cellHeatW, ← add_zero (cellTick _ _ _).2.heatW, ← hbleed]
    rfl
  have hlt : r.inService = true → heat < 0 := by
    intro hin
    rw [hheat, reversed_iff h hb hr]
    exact reversed_of_opposed hok hidle (hall.opposed b hb r hr hin)
  refine ⟨?_, hlt⟩
  cases hin : r.inService with
  | true => exact (hlt hin).le
  | false =>
    have hservice := (balance_rest hok).2.1.trans hin
    rw [← bmsTick_site ems s inputs] at hservice
    rw [hheat, cellHeatW, cellTick_site, Ecm1Rc.stepRack, if_neg (by simp [hservice])]
    exact le_refl _

theorem heat_neg (h : Kept s) (hall : AllOpposed (site ems) s inputs) :
    racksHeatW (site ems) s inputs < 0 := by
  obtain ⟨b, hb, r, hr, hin⟩ := hall.some
  apply sum_neg
  · intro b' hb'
    exact sum_nonpos fun r' hr' => (heat_of_opposed h hall hb' hr').1
  · refine ⟨b, hb, ?_⟩
    apply sum_neg
    · exact fun r' hr' => (heat_of_opposed h hall hb hr').1
    · exact ⟨r, hr, (heat_of_opposed h hall hb hr).2 hin⟩

end

/-- A simulation of the reference site in a reachable state. -/
structure Running (ems : EmsStrategy ℝ) (sim : Simulation ℝ) : Prop where
  sound : Sound sim
  plant : sim.plant = site ems
  kept : Kept sim.state

theorem running_new (ems : EmsStrategy ℝ) (seed : UInt64) (t : Int) :
    Running ems (Simulation.new PlantConfig.gw01 (gw01Models PlantConfig.gw01 ems) seed t) where
  sound := sound_new _ _ seed t
  plant := rfl
  kept :=
    { shape := shaped_new _ seed t
      racks := forall_new_blocks _ seed t
        (forall_new_containers _ (forall_new_racks _ windowed_new)) }

theorem running_move {ems : EmsStrategy ℝ} (sim : Simulation ℝ) (m : Move ℝ) (h : Running ems sim) :
    Running ems (sim.move m) := by
  have hs := sound_move h.sound m
  have hpl := (move_plant h.sound m).trans h.plant
  have hcfg : (sim.move m).cfg = PlantConfig.gw01 := congrArg Plant.cfg hpl
  refine ⟨hs, hpl, ⟨by rw [← hcfg]; exact hs.shape, ?_⟩⟩
  cases m with
  | command c => exact kept_command (forallRacks_kept fun _ he => windowed_edit he) sim c h.kept.racks
  | step inputs =>
    change ForallRacks Windowed (sim.step inputs).state
    rw [step_state h.sound, h.plant]
    exact forallRacks_tick (windowed_tick rfl ems) inputs h.kept.racks

/-- No command writes the books. -/
theorem energy_unwritten : Unwritten (SiteState.energy : SiteState ℝ → EnergyAccounting ℝ) :=
  fun _ _ _ _ _ _ => rfl

/-- What a move asks of the racks: a command nothing, a tick none against its branch. -/
def AsksNoneOpposed (sim : Simulation ℝ) : Move ℝ → Prop
  | .command _ => True
  | .step inputs => NoneOpposed sim.plant sim.state inputs

/-- The books after a move against those before. -/
def Counts (R : EnergyAccounting ℝ → EnergyAccounting ℝ → Prop) (sim : Simulation ℝ) (m : Move ℝ) :
    Prop :=
  R sim.state.energy (sim.move m).state.energy

section

variable {ems : EmsStrategy ℝ} {sim : Simulation ℝ}

theorem counts_command (R : EnergyAccounting ℝ → EnergyAccounting ℝ → Prop) (c : Command ℝ) :
    Counts R sim (.command c) ↔ R sim.state.energy sim.state.energy := by
  have he : (sim.command c).state.energy = sim.state.energy :=
    kept_command (energy_unwritten.kept sim.state.energy) sim c rfl
  rw [Counts, Simulation.move, he]

theorem counts_step (R : EnergyAccounting ℝ → EnergyAccounting ℝ → Prop) (h : Running ems sim)
    (inputs : Inputs ℝ) :
    Counts R sim (.step inputs) ↔
      R sim.state.energy ((site ems).siteTick sim.state inputs).energy := by
  rw [Counts, Simulation.move, step_state h.sound, h.plant]

theorem fed_move (m : Move ℝ) (h : Running ems sim) : Counts Fed sim m := by
  cases m with
  | command c => exact (counts_command Fed c).mpr (Fed.refl _)
  | step inputs => exact (counts_step Fed h inputs).mpr (fed_tick ems inputs h.kept)

theorem neverDecreases_step (h : Running ems sim) (inputs : Inputs ℝ) :
    Counts NeverDecreases sim (.step inputs) ↔ 0 ≤ racksHeatW (site ems) sim.state inputs := by
  rw [counts_step NeverDecreases h, neverDecreases_tick ems inputs h.kept]

theorem neverDecreases_move (m : Move ℝ) (h : Running ems sim) (hm : AsksNoneOpposed sim m) :
    Counts NeverDecreases sim m := by
  cases m with
  | command c => exact (counts_command NeverDecreases c).mpr ⟨Fed.refl _, le_refl _⟩
  | step inputs =>
    rw [AsksNoneOpposed, h.plant] at hm
    exact (neverDecreases_step h inputs).mpr (heat_nonneg h.kept hm)

end

/-- The other side of the condition, in one tick from a reachable state. -/
structure Decides (pl : Plant ℝ) (s : SiteState ℝ) (inputs : Inputs ℝ) : Prop where
  rack : ∀ b ∈ s.blocks.zipIdx, ∀ r ∈ b.1.racks,
    (cellHeatW pl s inputs b r < 0 ↔ Reversed pl s inputs b r)
  falls : AllOpposed pl s inputs →
    (pl.siteTick s inputs).energy.batteryLossWh < s.energy.batteryLossWh

/-- Along every run of the reference site the converter, transformer and house
load counters never fall; and none falls along the runs in whose every tick no
rack in service is asked for a power strictly between zero and `-ocv * v1 / r0`.
A rack's cells book a negative heat exactly when asked for such a power, and the
batteries' counter falls where every rack in service is and none bleeds. -/
theorem counters_monotonic (ems : EmsStrategy ℝ) (seed : UInt64) (t : Int) (moves : List (Move ℝ)) :
    let sim := Simulation.new PlantConfig.gw01 (gw01Models PlantConfig.gw01 ems) seed t
    Traces.Always Simulation.move (Counts Fed) sim moves ∧
      (Traces.Always Simulation.move AsksNoneOpposed sim moves →
        Traces.Always Simulation.move (Counts NeverDecreases) sim moves) ∧
      ∀ inputs, Decides (sim.run moves).plant (sim.run moves).state inputs := by
  intro sim
  have hnew : Running ems sim := running_new ems seed t
  have hrun : Running ems (sim.run moves) := Traces.inv_run running_move hnew moves
  refine ⟨Traces.always_of_inv running_move (fun _ m h => fed_move m h) hnew moves,
    Traces.always_while (fun s m h hm => ⟨running_move s m h, neverDecreases_move m h hm⟩) hnew,
    fun inputs => ?_⟩
  rw [hrun.plant]
  refine ⟨fun b hb r hr => reversed_iff hrun.kept hb hr, fun hall => ?_⟩
  have hneg := heat_neg hrun.kept hall
  rw [battery_tick]
  linarith

end BessLosses
