import BessEmulator.Trip

/-!
# The energy ledger

What the racks release, tick by tick, against what the books say became of
it. Rack by rack the terminal power and the heat add up to the chemical power
and the bleed; converter, transformer, house load and meters each book their
part once.
-/
namespace BessLedger

open Bess BessTrip Sweep

theorem foldl_add {α : Type} (f : α → ℝ) (acc : ℝ) (xs : List α) :
    xs.foldl (fun a x => a + f x) acc = acc + (xs.map f).sum := by
  induction xs generalizing acc with
  | nil => simp
  | cons x xs ih =>
    rw [List.foldl_cons, ih, List.map_cons, List.sum_cons]
    ring

theorem sumOver_eq {α : Type} (f : α → ℝ) (xs : List α) : sumOver f xs = (xs.map f).sum := by
  rw [sumOver, foldl_add, zero_add]

theorem sum_congr {α : Type} {f g : α → ℝ} {xs : List α} (h : ∀ x ∈ xs, f x = g x) :
    (xs.map f).sum = (xs.map g).sum := congrArg List.sum (List.map_congr_left h)

/-- Chemical energy one rack-tick releases at the voltage it starts from. -/
noncomputable def chemicalWh (ctx : TickContext ℝ) (perRackW : ℝ) (r : RackState ℝ) : ℝ :=
  ocvRackV (bmsTick ctx r).1.soc ctx.cfg.rack * (cellTick ctx perRackW r).1.currentA * ctx.dtS
    / 3600

/-- What one rack-tick releases: the chemical term and the bleed. -/
noncomputable def rackTickWh (ctx : TickContext ℝ) (perRackW : ℝ) (r : RackState ℝ) : ℝ :=
  chemicalWh ctx perRackW r + (bmsTick ctx r).2.bledWh

/-- Terminal power and heat are all the chemical power there is. -/
theorem cell_balance (m : Ecm1Rc ℝ) (r : RackState ℝ) (cfg : RackConfig ℝ) (p dtS : ℝ) :
    (m.stepRack r cfg p dtS).2.pDcW + (m.stepRack r cfg p dtS).2.heatW =
      ocvRackV r.soc cfg * (m.stepRack r cfg p dtS).1.currentA := by
  rw [Ecm1Rc.stepRack]
  split
  · simp only [Ecm1Rc.carry]
    ring
  · simp [Ecm1Rc.restRack]

/-- The bleed resistors turn into heat what the spread gives up. -/
theorem bleed_balance (m : Balancing ℝ) (r : RackState ℝ) (cfg : RackConfig ℝ) {dtS : ℝ}
    (hdt : dtS ≠ 0) : (m.step r cfg dtS).2.heatW * dtS / 3600 = (m.step r cfg dtS).2.bledWh := by
  rw [Balancing.step]
  simp only
  split
  · simp only
    norm_num
    field_simp
  · simp

theorem rackTick_balance (cfg : PlantConfig ℝ) (ems : EmsStrategy ℝ) (s : SiteState ℝ)
    (inputs : Inputs ℝ) (perRackW : ℝ) (r : RackState ℝ) :
    (dcOf ((gw01Plant cfg ems).ctx s inputs) perRackW r
        + heatOf ((gw01Plant cfg ems).ctx s inputs) perRackW r) * (tickS / 3600) =
      rackTickWh ((gw01Plant cfg ems).ctx s inputs) perRackW r := by
  have hcell := cell_balance Ecm1Rc.lfp314ahRack
    (bmsTick ((gw01Plant cfg ems).ctx s inputs) r).1 cfg.rack
    (requestOf ((gw01Plant cfg ems).ctx s inputs) perRackW r) tickS
  have hbleed := bleed_balance Balancing.default r cfg.rack (show (tickS : ℝ) ≠ 0 by norm_num)
  have hc : (cellTick ((gw01Plant cfg ems).ctx s inputs) perRackW r).2.pDcW
      + (cellTick ((gw01Plant cfg ems).ctx s inputs) perRackW r).2.heatW =
      ocvRackV (bmsTick ((gw01Plant cfg ems).ctx s inputs) r).1.soc cfg.rack
        * (cellTick ((gw01Plant cfg ems).ctx s inputs) perRackW r).1.currentA := hcell
  have hb : (bmsTick ((gw01Plant cfg ems).ctx s inputs) r).2.heatW * tickS / 3600 =
      (bmsTick ((gw01Plant cfg ems).ctx s inputs) r).2.bledWh := hbleed
  have hchem : rackTickWh ((gw01Plant cfg ems).ctx s inputs) perRackW r =
      ocvRackV (bmsTick ((gw01Plant cfg ems).ctx s inputs) r).1.soc cfg.rack
        * (cellTick ((gw01Plant cfg ems).ctx s inputs) perRackW r).1.currentA * tickS / 3600
        + (bmsTick ((gw01Plant cfg ems).ctx s inputs) r).2.bledWh := rfl
  rw [hchem, ← hc, ← hb, dcOf, heatOf]
  ring

/-- Within the bounds of the cell model the SoC clamp never binds. -/
theorem soc_unclamped {r : RackState ℝ} {c : RackConfig ℝ} (m : Ecm1Rc ℝ) (h : RackOk r)
    (hc : 0 < c.cellCapacityAh) (p : ℝ) {dtS : ℝ} (hdt : 0 < dtS) :
    0 ≤ r.soc - m.current r c p dtS * dtS / (3600.0 * capacityAh r c) ∧
      r.soc - m.current r c p dtS * dtS / (3600.0 * capacityAh r c) ≤ 1 := by
  have hcap : 0 < capacityAh r c := by rw [capacityAh_eq h.soh]; exact hc
  have h0 := h.soc_nonneg
  have h1 : 0 ≤ 1.0 - r.soc := by
    have := h.soc_le
    norm_num
    linarith
  have hd : 0 ≤ r.soc * capacityAh r c * 3600.0 / dtS := by positivity
  have hch : 0 ≤ (1.0 - r.soc) * capacityAh r c * 3600.0 / dtS := by positivity
  have hband : -((1.0 - r.soc) * capacityAh r c * 3600.0 / dtS) ≤
      r.soc * capacityAh r c * 3600.0 / dtS := by linarith
  have hlo : -((1.0 - r.soc) * capacityAh r c * 3600.0 / dtS) ≤ m.current r c p dtS :=
    Scalar.le_clamp hband
  have hhi : m.current r c p dtS ≤ r.soc * capacityAh r c * 3600.0 / dtS := Scalar.clamp_le hband
  have hscale : 0 < dtS / (3600.0 * capacityAh r c) := by positivity
  have hhi' := mul_le_mul_of_nonneg_right hhi hscale.le
  have hlo' := mul_le_mul_of_nonneg_right hlo hscale.le
  have hid : r.soc * capacityAh r c * 3600.0 / dtS * (dtS / (3600.0 * capacityAh r c)) = r.soc := by
    field_simp
  have hid' : -((1.0 - r.soc) * capacityAh r c * 3600.0 / dtS)
      * (dtS / (3600.0 * capacityAh r c)) = -(1.0 - r.soc) := by
    field_simp
  rw [hid] at hhi'
  rw [hid'] at hlo'
  rw [mul_div_assoc]
  norm_num at hlo' hhi' ⊢
  constructor
  · linarith
  · linarith

/-- The charge a current carries away is the drop in SoC times the capacity. -/
theorem charge_drop (soc i dtS : ℝ) {cap : ℝ} (hcap : cap ≠ 0) :
    i * dtS / 3600 = (soc - (soc - i * dtS / (3600.0 * cap))) * cap := by
  have h36 : (3600.0 : ℝ) = 3600 := by norm_num
  rw [h36, sub_sub_cancel, div_mul_eq_div_div, div_mul_cancel₀ _ hcap]

/-- The chemical term less the drop in stored energy, per unit of charge. -/
theorem released_sub_stored (v a a' n : ℝ) {i dtS soc soc' cap : ℝ}
    (hdrop : i * dtS / 3600 = (soc - soc') * cap) :
    v * n * i * dtS / 3600 - (a * cap * n - a' * cap * n) =
      (v * (soc - soc') - (a - a')) * (cap * n) := by
  calc v * n * i * dtS / 3600 - (a * cap * n - a' * cap * n) =
        v * n * (i * dtS / 3600) - (a * cap * n - a' * cap * n) := by ring
    _ = _ := by
        rw [hdrop]
        ring

/-- One step of the cell model: the chemical term against the drop in stored energy. -/
theorem cell_linearization {r : RackState ℝ} {c : RackConfig ℝ} (m : Ecm1Rc ℝ) (h : RackOk r)
    (hc : 0 < c.cellCapacityAh) (p : ℝ) {dtS : ℝ} (hdt : 0 < dtS) :
    |ocvRackV r.soc c * (m.stepRack r c p dtS).1.currentA * dtS / 3600
        - (m.storedEnergyWh r c - m.storedEnergyWh (m.stepRack r c p dtS).1 c)| ≤
      OCV_SLOPE / 2 * (r.soc - (m.stepRack r c p dtS).1.soc) ^ 2 * c.cellCapacityAh
        * (c.cellsSeries : ℝ) := by
  rw [Ecm1Rc.stepRack]
  split
  · obtain ⟨h0, h1⟩ := soc_unclamped m h hc p hdt
    have hcap : capacityAh r c = c.cellCapacityAh := capacityAh_eq h.soh c
    set i := m.current r c p dtS with hi
    set soc' := r.soc - i * dtS / (3600.0 * capacityAh r c) with hsoc'
    have hsoc : (m.carry r c i dtS).1.soc = soc' := clamp_unit h0 h1
    have hsoh : (m.carry r c i dtS).1.soh = r.soh := rfl
    have hcur : (m.carry r c i dtS).1.currentA = i := rfl
    have hdrop : i * dtS / 3600 = (r.soc - soc') * c.cellCapacityAh := by
      rw [hsoc', hcap]
      exact charge_drop r.soc i dtS hc.ne'
    have hlin := ocv_linearization h.soc_nonneg h.soc_le h0 h1
    have hn : (0 : ℝ) ≤ c.cellCapacityAh * (c.cellsSeries : ℝ) :=
      mul_nonneg hc.le (Nat.cast_nonneg _)
    have heq : ocvRackV r.soc c * i * dtS / 3600
        - (m.storedEnergyWh r c - m.storedEnergyWh (m.carry r c i dtS).1 c) =
        (ocvCellV r.soc * (r.soc - soc') - (ocvCellIntegralV r.soc - ocvCellIntegralV soc'))
          * (c.cellCapacityAh * (c.cellsSeries : ℝ)) := by
      have hr := capacityAh_eq h.soh c
      have hr' := capacityAh_eq (hsoh.trans h.soh) c
      simp only [Ecm1Rc.storedEnergyWh, hr, hr', hsoc, ocvRackV]
      exact released_sub_stored _ _ _ _ hdrop
    rw [hcur, hsoc, heq, abs_mul, abs_of_nonneg hn]
    calc _ ≤ OCV_SLOPE / 2 * (r.soc - soc') ^ 2 * (c.cellCapacityAh * (c.cellsSeries : ℝ)) :=
          mul_le_mul_of_nonneg_right hlin hn
      _ = _ := (mul_assoc _ _ _).symm
  · have hkeep : m.storedEnergyWh (m.restRack r c dtS).1 c = m.storedEnergyWh r c := rfl
    have hsoc : (m.restRack r c dtS).1.soc = r.soc := rfl
    have hcur : (m.restRack r c dtS).1.currentA = 0 := rfl
    rw [hkeep, hsoc, hcur]
    simp

/-- What all racks release in one tick. -/
noncomputable def tickReleasedWh (pl : Plant ℝ) (s : SiteState ℝ) (inputs : Inputs ℝ) : ℝ :=
  (s.blocks.zipIdx.map fun b =>
    (b.1.racks.map (rackTickWh (pl.ctx s inputs)
      (perRackOf (pl.ctx s inputs) (pl.inSet s inputs b) b.1))).sum).sum

/-- Everything the books say became of it. -/
noncomputable def booksWh (s : SiteState ℝ) : ℝ :=
  s.energy.batteryLossWh + s.energy.pcsLossWh + s.energy.transformerLossWh + s.energy.auxWh
    + s.substation.exportWh - s.substation.importWh - s.substation.stationServiceWh

variable {cfg : PlantConfig ℝ} {ems : EmsStrategy ℝ}

/-- One block: what its racks release is its heat, its converter's loss and its AC power. -/
theorem block_balance (cfg : PlantConfig ℝ) (ems : EmsStrategy ℝ) (s : SiteState ℝ)
    (inputs : Inputs ℝ) (b : BlockState ℝ × Nat) :
    (b.1.racks.map (rackTickWh ((gw01Plant cfg ems).ctx s inputs)
        (perRackOf ((gw01Plant cfg ems).ctx s inputs)
          ((gw01Plant cfg ems).inSet s inputs b) b.1))).sum =
      (((gw01Plant cfg ems).outcome s inputs b).batteryHeatW
        + ((gw01Plant cfg ems).nextBlock s inputs b).pcs.lossW
        + ((gw01Plant cfg ems).outcome s inputs b).pAcW) * (tickS / 3600) := by
  set ctx := (gw01Plant cfg ems).ctx s inputs with hctx
  set inSet := (gw01Plant cfg ems).inSet s inputs b with hin
  have hpcs : ((gw01Plant cfg ems).nextBlock s inputs b).pcs.lossW
      + ((gw01Plant cfg ems).outcome s inputs b).pAcW = blockDcW ctx inSet b.1 :=
    sub_add_cancel _ _
  have hheat : ((gw01Plant cfg ems).outcome s inputs b).batteryHeatW = blockHeatW ctx inSet b.1 :=
    rfl
  have hrack := sum_congr fun r (_ : r ∈ b.1.racks) =>
    (rackTick_balance cfg ems s inputs (perRackOf ctx inSet b.1) r).symm
  rw [hrack, List.sum_map_mul_right, List.sum_map_add, ← sumOver_eq, ← sumOver_eq, add_assoc, hpcs,
    hheat, blockDcW, blockHeatW]
  ring

/-- The block loop's part of the books. -/
theorem bookBlocks_sum (pl : Plant ℝ) (s : SiteState ℝ) (inputs : Inputs ℝ)
    (bs : List (BlockState ℝ × Nat)) (e : EnergyAccounting ℝ) :
    (bs.foldl (pl.bookBlock s inputs) e).batteryLossWh
        + (bs.foldl (pl.bookBlock s inputs) e).pcsLossWh =
      e.batteryLossWh + e.pcsLossWh
        + (bs.map fun b => ((pl.outcome s inputs b).batteryHeatW
          + (pl.nextBlock s inputs b).pcs.lossW) * (tickS / 3600)).sum := by
  induction bs generalizing e with
  | nil => simp
  | cons b bs ih =>
    rw [List.foldl_cons, ih, List.map_cons, List.sum_cons]
    simp only [Plant.bookBlock]
    ring

/-- What the racks release is what the block loop books and what it hands to the site. -/
theorem tickReleased_eq (s : SiteState ℝ) (inputs : Inputs ℝ) :
    tickReleasedWh (gw01Plant cfg ems) s inputs =
      (s.blocks.zipIdx.map fun b =>
        (((gw01Plant cfg ems).outcome s inputs b).batteryHeatW
          + ((gw01Plant cfg ems).nextBlock s inputs b).pcs.lossW) * (tickS / 3600)).sum
        + (gw01Plant cfg ems).siteAcW s inputs * (tickS / 3600) := by
  have hblocks := sum_congr fun b (_ : b ∈ s.blocks.zipIdx) =>
    block_balance cfg ems s inputs b
  have hsplit : ∀ b : BlockState ℝ × Nat,
      (((gw01Plant cfg ems).outcome s inputs b).batteryHeatW
        + ((gw01Plant cfg ems).nextBlock s inputs b).pcs.lossW
        + ((gw01Plant cfg ems).outcome s inputs b).pAcW) * (tickS / 3600) =
      (((gw01Plant cfg ems).outcome s inputs b).batteryHeatW
        + ((gw01Plant cfg ems).nextBlock s inputs b).pcs.lossW) * (tickS / 3600)
        + ((gw01Plant cfg ems).outcome s inputs b).pAcW * (tickS / 3600) := fun b => by ring
  rw [tickReleasedWh, hblocks, sum_congr (fun b _ => hsplit b), List.sum_map_add,
    Plant.siteAcW, sumOver_eq, ← List.sum_map_mul_right]

/-- The site's own books: transformer, house load, and the meters. -/
noncomputable def siteBooksWh (s : SiteState ℝ) : ℝ :=
  s.energy.transformerLossWh + s.energy.auxWh + s.substation.exportWh - s.substation.importWh
    - s.substation.stationServiceWh

/-- Either way the power flows, export less import moves by the energy metered. -/
theorem meter_balance (sub : SubstationState ℝ) (wh : ℝ) :
    (SimpleGrid.meter sub wh).exportWh - (SimpleGrid.meter sub wh).importWh =
      sub.exportWh - sub.importWh + wh := by
  rw [SimpleGrid.meter]
  split
  · ring
  · simp only
    ring

@[simp] theorem meter_transformerLossW (sub : SubstationState ℝ) (wh : ℝ) :
    (SimpleGrid.meter sub wh).transformerLossW = sub.transformerLossW := by
  rw [SimpleGrid.meter]
  split <;> rfl

@[simp] theorem meter_auxPowerW (sub : SubstationState ℝ) (wh : ℝ) :
    (SimpleGrid.meter sub wh).auxPowerW = sub.auxPowerW := by
  rw [SimpleGrid.meter]
  split <;> rfl

@[simp] theorem meter_stationServiceWh (sub : SubstationState ℝ) (wh : ℝ) :
    (SimpleGrid.meter sub wh).stationServiceWh = sub.stationServiceWh := by
  rw [SimpleGrid.meter]
  split <;> rfl

/-- The substation passes on what it is given; under an open breaker it is given nothing. -/
theorem grid_balance (m : SimpleGrid ℝ) (sub : SubstationState ℝ) (p aux f dtS : ℝ)
    (hp : sub.hvBreaker = .opened → p = 0) :
    (m.step sub p aux f dtS).transformerLossW * (dtS / 3600)
        + (m.step sub p aux f dtS).auxPowerW * (dtS / 3600)
        + ((m.step sub p aux f dtS).exportWh - (m.step sub p aux f dtS).importWh)
        - (m.step sub p aux f dtS).stationServiceWh =
      sub.exportWh - sub.importWh - sub.stationServiceWh + p * (dtS / 3600) := by
  cases hb : sub.hvBreaker with
  | opened =>
    rw [simpleGrid_open p aux f dtS hb, hp hb]
    simp only [SimpleGrid.stepOpen]
    ring
  | closed =>
    rw [SimpleGrid.step]
    simp only [hb, SimpleGrid.stepClosed]
    rw [meter_balance, meter_transformerLossW, meter_auxPowerW, meter_stationServiceWh]
    ring

/-- Under an open breaker no block hands the site any power. -/
theorem siteAcW_open (hcfg : cfg.Rated) {s : SiteState ℝ} (inputs : Inputs ℝ)
    (hr : ForallRacks RackOk s) (ho : s.substation.hvBreaker = .opened) :
    (gw01Plant cfg ems).siteAcW s inputs = 0 := by
  apply sumOver_zero
  intro b hb
  rw [Plant.outcome, inSet_open _ inputs b ho]
  exact (pcsTick_zero ems s inputs hcfg (hr b.1 (List.fst_mem_of_mem_zipIdx hb))).2.1

theorem siteBooks_tick (hcfg : cfg.Rated) (ems : EmsStrategy ℝ) {s : SiteState ℝ} (inputs : Inputs ℝ)
    (hr : ForallRacks RackOk s) :
    siteBooksWh ((gw01Plant cfg ems).siteTick s inputs) =
      siteBooksWh s + (gw01Plant cfg ems).siteAcW s inputs * (tickS / 3600) := by
  have hgrid := grid_balance (SimpleGrid.new cfg.grid.siteRatedW) s.substation
    ((gw01Plant cfg ems).siteAcW s inputs) ((gw01Plant cfg ems).auxPower s inputs).totalW
    inputs.gridFrequencyHz tickS fun ho => siteAcW_open hcfg inputs hr ho
  have hg : (SimpleGrid.new cfg.grid.siteRatedW).step s.substation
      ((gw01Plant cfg ems).siteAcW s inputs) ((gw01Plant cfg ems).auxPower s inputs).totalW
      inputs.gridFrequencyHz tickS = (gw01Plant cfg ems).gridTick s inputs := rfl
  obtain ⟨haux, _, htl⟩ := bookBlocks_frame (gw01Plant cfg ems) s inputs s.blocks.zipIdx s.energy
  rw [hg] at hgrid
  rw [siteBooksWh, siteBooksWh, siteTick_energy, siteTick_substation]
  simp only [haux, htl]
  linarith

/-- One tick: the books grow by what the racks release. -/
theorem books_tick (hcfg : cfg.Rated) {s : SiteState ℝ} (inputs : Inputs ℝ)
    (hr : ForallRacks RackOk s) :
    booksWh ((gw01Plant cfg ems).siteTick s inputs) =
      booksWh s + tickReleasedWh (gw01Plant cfg ems) s inputs := by
  have hsite := siteBooks_tick hcfg ems inputs hr
  have hbooks := bookBlocks_sum (gw01Plant cfg ems) s inputs s.blocks.zipIdx s.energy
  have hsplit : ∀ s : SiteState ℝ,
      booksWh s = s.energy.batteryLossWh + s.energy.pcsLossWh + siteBooksWh s := fun s => by
    rw [booksWh, siteBooksWh]
    ring
  have hbat : ((gw01Plant cfg ems).siteTick s inputs).energy.batteryLossWh
      + ((gw01Plant cfg ems).siteTick s inputs).energy.pcsLossWh =
      (s.blocks.zipIdx.foldl ((gw01Plant cfg ems).bookBlock s inputs) s.energy).batteryLossWh
      + (s.blocks.zipIdx.foldl ((gw01Plant cfg ems).bookBlock s inputs) s.energy).pcsLossWh := rfl
  rw [hsplit, hsplit s, hsite, tickReleased_eq, hbat, hbooks]
  ring

/-- The metered house load is the sum of its items. -/
def Itemized (s : SiteState ℝ) : Prop := s.energy.auxWh = s.energy.auxItems.totalWh

theorem itemized_kept : KeptByEdits Itemized where
  rack _ _ _ _ h := h
  hvac _ _ _ h := h
  block _ _ h := h
  tripped h := h
  closed h := by
    rw [SiteState.closed_eq]
    exact h
  setpoint _ h := h
  pending _ h := h

/-- The substation carries the load it is given, whichever feed it comes from. -/
theorem simpleGrid_aux (m : SimpleGrid ℝ) (sub : SubstationState ℝ) (p aux f dtS : ℝ) :
    (m.step sub p aux f dtS).auxPowerW = aux := by
  rw [SimpleGrid.step]
  cases h : sub.hvBreaker with
  | opened => rfl
  | closed => exact meter_auxPowerW _ _

theorem accumulate_total (e : AuxEnergy ℝ) (power : AuxPower ℝ) (hours : ℝ) :
    (e.accumulate power hours).totalWh = e.totalWh + power.totalW * hours := by
  simp only [AuxEnergy.accumulate, AuxEnergy.totalWh, AuxPower.totalW]
  ring

theorem itemized_tick {s : SiteState ℝ} (inputs : Inputs ℝ) (h : Itemized s) :
    Itemized ((gw01Plant cfg ems).siteTick s inputs) := by
  obtain ⟨haux, hitems, _⟩ :=
    bookBlocks_frame (gw01Plant cfg ems) s inputs s.blocks.zipIdx s.energy
  have hload : ((gw01Plant cfg ems).gridTick s inputs).auxPowerW =
      ((gw01Plant cfg ems).auxPower s inputs).totalW := simpleGrid_aux _ _ _ _ _ _
  rw [Itemized, siteTick_energy]
  simp only [haux, hitems, hload, accumulate_total]
  rw [h]

/-- What all racks release over a run, tick by tick. -/
noncomputable def releasedWh : Simulation ℝ → List (Move ℝ) → ℝ
  | _, [] => 0
  | sim, .command c :: ms => releasedWh (sim.move (.command c)) ms
  | sim, .step inputs :: ms =>
    tickReleasedWh sim.plant sim.state inputs + releasedWh (sim.move (.step inputs)) ms

/-- No command touches the books. -/
theorem books_unwritten : Unwritten (booksWh : SiteState ℝ → ℝ) := fun _ _ _ _ _ _ => rfl

theorem books_run {sim : Simulation ℝ} (hcfg : cfg.Rated) (hs : Sound sim)
    (hpl : sim.plant = gw01Plant cfg ems) (hr : ForallRacks RackOk sim.state)
    (moves : List (Move ℝ)) :
    booksWh (sim.run moves).state = booksWh sim.state + releasedWh sim moves := by
  induction moves generalizing sim with
  | nil => simp [releasedWh, Simulation.run]
  | cons m ms ih =>
    have hr' : ForallRacks RackOk (sim.move m).state := by
      have hone := run_kept hs (forallRacks_kept fun _ he => rackOk_edit he)
        (fun s inputs _ h => by
          rw [hpl]
          exact forallRacks_tick (rackOk_tick hcfg ems) inputs h) [m] hr
      exact hone
    have hnext := ih (sound_move hs m) ((move_plant hs m).trans hpl) hr'
    rw [Simulation.run_cons, hnext]
    cases m with
    | command c =>
      have hkeep : booksWh (sim.move (.command c)).state = booksWh sim.state :=
        kept_command (books_unwritten.kept (booksWh sim.state)) sim c rfl
      rw [hkeep, releasedWh]
    | step inputs =>
      have htick : booksWh (sim.move (.step inputs)).state =
          booksWh sim.state + tickReleasedWh sim.plant sim.state inputs := by
        change booksWh (sim.step inputs).state = _
        rw [step_state hs inputs, hpl]
        exact books_tick hcfg inputs hr
      rw [htick, releasedWh]
      ring

/-- A rack-tick at the state it starts from: the chemical term against the drop
in stored energy across the cell step. -/
def Linearized (ctx : TickContext ℝ) (perRackW : ℝ) (r : RackState ℝ) : Prop :=
  |chemicalWh ctx perRackW r
      - (ctx.models.cell.storedEnergyWh (bmsTick ctx r).1 ctx.cfg.rack
        - ctx.models.cell.storedEnergyWh (cellTick ctx perRackW r).1 ctx.cfg.rack)| ≤
    OCV_SLOPE / 2 * ((bmsTick ctx r).1.soc - (cellTick ctx perRackW r).1.soc) ^ 2
      * ctx.cfg.rack.cellCapacityAh * (ctx.cfg.rack.cellsSeries : ℝ)

theorem linearized (hcfg : cfg.Rated) (s : SiteState ℝ) (inputs : Inputs ℝ) (perRackW : ℝ)
    {r : RackState ℝ} (h : RackOk r) : Linearized ((gw01Plant cfg ems).ctx s inputs) perRackW r := by
  have hb := rackOk_bmsTick hcfg ems s inputs h
  exact cell_linearization Ecm1Rc.lfp314ahRack hb hcfg.capacity
    (requestOf ((gw01Plant cfg ems).ctx s inputs) perRackW r) (by norm_num : (0 : ℝ) < tickS)

/-- The ledger of any run: what the racks released is what the books gained;
the metered house load is the sum of its items; and in every state reached a
rack-tick's chemical term is the drop in stored energy, to second order. -/
theorem energy_ledger (hcfg : cfg.Rated) (ems : EmsStrategy ℝ) (seed : UInt64) (t : Int)
    (moves : List (Move ℝ)) :
    booksWh ((Simulation.new cfg (gw01Models cfg ems) seed t).run moves).state
        - booksWh (Simulation.new cfg (gw01Models cfg ems) seed t).state =
      releasedWh (Simulation.new cfg (gw01Models cfg ems) seed t) moves ∧
    Itemized ((Simulation.new cfg (gw01Models cfg ems) seed t).run moves).state ∧
    ∀ inputs perRackW,
      ForallRacks (Linearized
        (((Simulation.new cfg (gw01Models cfg ems) seed t).run moves).plant.ctx
          ((Simulation.new cfg (gw01Models cfg ems) seed t).run moves).state inputs) perRackW)
        ((Simulation.new cfg (gw01Models cfg ems) seed t).run moves).state := by
  have hs := sound_new cfg (gw01Models cfg ems) seed t
  have hr := rackOk_run hcfg ems seed t
  refine ⟨?_, ?_, ?_⟩
  · rw [books_run hcfg hs rfl (hr []) moves]
    ring
  · apply run_kept hs itemized_kept
    · intro s inputs _ h
      exact itemized_tick inputs h
    · norm_num [Itemized, Simulation.new, Simulation.fromState, SiteState.new, AuxEnergy.totalWh,
        EnergyAccounting.zero, AuxEnergy.zero]
  · intro inputs perRackW b hb c hc r hrack
    rw [run_plant hs moves]
    exact linearized hcfg _ inputs perRackW (hr moves b hb c hc r hrack)

/-- The reference plant, one rack isolated, over two ticks. -/
theorem energy_ledger_gw01 :
    let sim : Simulation ℝ :=
      Simulation.new PlantConfig.gw01 (gw01Models PlantConfig.gw01 ⟨fun _ _ => 20.0e6⟩) 42 0
    let moves : List (Move ℝ) :=
      [.step ⟨⟨12, 0⟩, 50⟩, .command (.setRackInService 0 0 0 false), .step ⟨⟨12, 0⟩, 50⟩]
    booksWh (sim.run moves).state - booksWh sim.state = releasedWh sim moves :=
  (energy_ledger rated_gw01 ⟨fun _ _ => 20.0e6⟩ 42 0
    [.step ⟨⟨12, 0⟩, 50⟩, .command (.setRackInService 0 0 0 false), .step ⟨⟨12, 0⟩, 50⟩]).1

end BessLedger
