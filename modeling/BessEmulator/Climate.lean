import BessEmulator.Reversal

/-!
# Air and cells

The thermal part of a tick in closed form, and the bounds it carries from a
container's air and cells at one tick to those at the next, whatever the
current.
-/
namespace BessClimate

open Bess BessLedger BessLosses BessSoc Sweep

section

variable {F : Type} [Scalar F]

/-- What a rack gives to the air of its container. -/
def toAirW (m : LumpedThermal F) (airC : F) (r : RackState F) : F :=
  m.rackToAirWPerK * (r.cellTempC - (airC + r.tempOffsetC))

/-- Cell temperature after a tick of heat. -/
def warmed (m : LumpedThermal F) (airC dtS heatW : F) (r : RackState F) : F :=
  r.cellTempC + dtS * (heatW - toAirW m airC r) / m.rackHeatCapacityJPerK

/-- The loop over the cells, each rack meeting its own heat. -/
theorem sweep_cells (m : LumpedThermal F) (airC dtS : F) {α : Type} (heat : α → F)
    (rack : α → RackState F) (xs : List α) (acc : F) :
    sweep (m.stepCells airC dtS) (xs.map heat, acc) (xs.map rack) =
      (([], xs.foldl (fun a x => a + toAirW m airC (rack x)) acc),
        xs.map fun x => { rack x with cellTempC := warmed m airC dtS (heat x) (rack x) }) := by
  induction xs generalizing acc with
  | nil => rfl
  | cons x xs ih =>
    rw [List.map_cons, List.map_cons, sweep_cons]
    change ((sweep (m.stepCells airC dtS) (xs.map heat, acc + toAirW m airC (rack x))
        (xs.map rack)).1,
      _ :: (sweep (m.stepCells airC dtS) (xs.map heat, acc + toAirW m airC (rack x))
        (xs.map rack)).2) = _
    rw [ih]
    rfl

section

variable {ctx : TickContext F} {ems : EmsStrategy F} (hm : ctx.models = gw01Models ctx.cfg ems)
include hm

/-- Balancing and current leave a rack's temperature to the thermal model. -/
theorem cellTick_temp (perRackW : F) (r : RackState F) :
    (cellTick ctx perRackW r).1.cellTempC = r.cellTempC ∧
      (cellTick ctx perRackW r).1.tempOffsetC = r.tempOffsetC := by
  have hbms : (bmsTick ctx r).1.cellTempC = r.cellTempC ∧
      (bmsTick ctx r).1.tempOffsetC = r.tempOffsetC := by
    rw [bmsTick, hm]
    change (Balancing.default.step r ctx.cfg.rack ctx.dtS).1.cellTempC = _ ∧
      (Balancing.default.step r ctx.cfg.rack ctx.dtS).1.tempOffsetC = _
    simp only [Balancing.step]
    split <;> exact ⟨rfl, rfl⟩
  rw [cellTick, hm]
  change (Ecm1Rc.lfp314ahRack.stepRack _ _ _ _).1.cellTempC = _ ∧
    (Ecm1Rc.lfp314ahRack.stepRack _ _ _ _).1.tempOffsetC = _
  simp only [Ecm1Rc.stepRack]
  split <;> exact hbms

/-- Spread and bleeding are balancing's alone. -/
theorem cellTick_spread (perRackW : F) (r : RackState F) :
    (cellTick ctx perRackW r).1.cellDvV = (bmsTick ctx r).1.cellDvV ∧
      (cellTick ctx perRackW r).1.balancingActive = (bmsTick ctx r).1.balancingActive := by
  rw [cellTick, hm]
  change (Ecm1Rc.lfp314ahRack.stepRack _ _ _ _).1.cellDvV = _ ∧
    (Ecm1Rc.lfp314ahRack.stepRack _ _ _ _).1.balancingActive = _
  simp only [Ecm1Rc.stepRack]
  split <;> exact ⟨rfl, rfl⟩

theorem thermalTick_racks (perRackW : F) (c : ContainerState F) :
    (thermalTick ctx perRackW c).1.racks = c.racks.map fun r =>
      { (cellTick ctx perRackW r).1 with
        cellTempC := warmed LumpedThermal.default c.airTempC ctx.dtS (heatOf ctx perRackW r)
          (cellTick ctx perRackW r).1 } := by
  rw [thermalTick, hm]
  exact congrArg Prod.snd (sweep_cells LumpedThermal.default c.airTempC ctx.dtS _ _ c.racks 0)

theorem toAirW_delivered (perRackW : F) (airC : F) (r : RackState F) :
    toAirW LumpedThermal.default airC (cellTick ctx perRackW r).1 =
      toAirW LumpedThermal.default airC r := by
  obtain ⟨htemp, hoff⟩ := cellTick_temp hm perRackW r
  rw [toAirW, htemp, hoff, toAirW]

/-- The air takes what the cells give and the envelope lets in, less what the
unit takes out in some mode. -/
theorem thermalTick_air (perRackW : F) (c : ContainerState F) :
    ∃ mode, (thermalTick ctx perRackW c).1.airTempC =
      c.airTempC + ctx.dtS
        * (c.racks.foldl (fun a r => a + toAirW LumpedThermal.default c.airTempC r) 0
          + (LumpedThermal.default.uaWPerK * (ctx.weather.ambientC - c.airTempC)
            + LumpedThermal.default.solarApertureM2 * ctx.weather.irradianceWm2)
          - LumpedThermal.default.modeThermalW mode)
        / LumpedThermal.default.airHeatCapacityJPerK := by
  have hcells := congrArg (fun p => p.1.2) (sweep_cells LumpedThermal.default c.airTempC ctx.dtS
    (heatOf ctx perRackW) (fun r => (cellTick ctx perRackW r).1) c.racks 0)
  simp only [toAirW_delivered hm] at hcells
  rw [thermalTick, hm, ← hcells]
  exact ⟨_, rfl⟩

end

end

section

variable {ems : EmsStrategy ℝ} {s : SiteState ℝ} (inputs : Inputs ℝ)

/-- The bleeders of a rack draw a quarter ampere from each of its cells at most. -/
theorem bleed_le {r : RackState ℝ} (h : Windowed r) :
    (Balancing.default.step r gw01Rack 1).2.heatW ≤ 180 := by
  cases ha : Balancing.default.active r with
  | false =>
    rw [(balance_idle ha).2]
    norm_num
  | true =>
    have hb := bleed_balance Balancing.default r gw01Rack (one_ne_zero : (1 : ℝ) ≠ 0)
    have hsoc := balance_soc h.ok ha
    have hmem := bled_mem h.ok
    have hmost := bled_le h.ok
    have hw := windowed_balance h
    set soc := (Balancing.default.step r gw01Rack 1).1.soc with hset
    have hdrop : 0 ≤ r.soc - soc ∧ r.soc - soc ≤ 0.12 / (3600.0 * 314.0) := by
      rw [hsoc]
      norm_num [Balancing.default] at hmem hmost ⊢
      constructor
      · linarith [hmem.1]
      · linarith
    have harea := (ocv_enclosed hw.ok.soc_nonneg (sub_nonneg.mp hdrop.1) h.ok.soc_le).high
    have hvolt := ocvCellV_mem r.soc
    have heq : (Balancing.default.step r gw01Rack 1).2.bledWh =
        (ocvCellIntegralV r.soc - ocvCellIntegralV soc) * capacityAh r gw01Rack
          * ((gw01Rack.cellsSeries : ℕ) : ℝ) := by
      rw [hset, Balancing.step]
      simp only [ha, if_true]
    have hcells : ((gw01Rack.cellsSeries : ℕ) : ℝ) = 416 := by
      change ((416 : ℕ) : ℝ) = 416
      norm_num
    have hstep : ocvCellIntegralV r.soc - ocvCellIntegralV soc ≤ 3.45 * (0.12 / (3600.0 * 314.0)) :=
      harea.trans (mul_le_mul hvolt.2 hdrop.2 hdrop.1 (by norm_num))
    rw [heq, capacityAh_eq h.ok.soh, gw01Rack_capacity, hcells] at hb
    norm_num at hb hstep ⊢
    linarith

/-- Current of one rack in one tick. -/
noncomputable def tickA (ctx : TickContext ℝ) (perRackW : ℝ) (r : RackState ℝ) : ℝ :=
  if (bmsTick ctx r).1.inService then
    Ecm1Rc.lfp314ahRack.current (bmsTick ctx r).1 ctx.cfg.rack (requestOf ctx perRackW r) ctx.dtS
  else 0

/-- What the resistance, the RC branch and the bleeders turn into heat. -/
theorem heatOf_eq (perRackW : ℝ) (r : RackState ℝ) :
    heatOf ((site ems).ctx s inputs) perRackW r =
      seriesOhm (bmsTick ((site ems).ctx s inputs) r).1
          * tickA ((site ems).ctx s inputs) perRackW r ^ 2
        + (bmsTick ((site ems).ctx s inputs) r).1.polarizationV
          * tickA ((site ems).ctx s inputs) perRackW r
        + (bmsTick ((site ems).ctx s inputs) r).2.heatW := by
  have hcell : cellTick ((site ems).ctx s inputs) perRackW r =
      Ecm1Rc.lfp314ahRack.stepRack (bmsTick ((site ems).ctx s inputs) r).1
        ((site ems).ctx s inputs).cfg.rack
        (requestOf ((site ems).ctx s inputs) perRackW r) ((site ems).ctx s inputs).dtS := rfl
  rw [heatOf, tickA, hcell, Ecm1Rc.stepRack]
  split
  · rw [carry_heat]
    ring
  · simp [Ecm1Rc.restRack]

/-- A branch gives back less than half a kilowatt more than the resistance takes. -/
theorem branch_heat_ge {r : RackState ℝ} (h : Windowed r) (i : ℝ) :
    -350 ≤ seriesOhm r * i ^ 2 + r.polarizationV * i := by
  have hohm := seriesOhm_pos h
  have hscale := h.scale_le
  have hpos := h.ok.scale
  have hpol := abs_le.mp h.polarization
  rw [polarizationMax, gw01Rack_maxCurrent] at hpol
  have hsq : r.polarizationV ^ 2 ≤ 1400 * seriesOhm r := by
    norm_num [seriesOhm, Ecm1Rc.lfp314ahRack] at hpol hscale ⊢
    have hv : r.polarizationV ^ 2 ≤ (3 / 50 * r.resistanceScale * 314) ^ 2 :=
      sq_le_sq' (by linarith [hpol.1]) (by linarith [hpol.2])
    nlinarith
  have hvertex : -(r.polarizationV ^ 2) ≤
      4 * seriesOhm r * (seriesOhm r * i ^ 2 + r.polarizationV * i) := by
    nlinarith [sq_nonneg (2 * seriesOhm r * i + r.polarizationV)]
  by_contra hlt
  have hless := mul_lt_mul_of_pos_left (not_le.mp hlt) (by linarith : 0 < 4 * seriesOhm r)
  linarith

/-- Whatever a rack is asked for, its heat in one tick. -/
theorem heat_mem (h : Kept s) {b : BlockState ℝ × Nat} (hb : b ∈ s.blocks.zipIdx) {r : RackState ℝ}
    (hr : r ∈ b.1.racks) (perRackW : ℝ) :
    -350 ≤ heatOf ((site ems).ctx s inputs) perRackW r ∧
      heatOf ((site ems).ctx s inputs) perRackW r ≤ 35000 := by
  have hw := kept_bms ems inputs h hb hr
  have hbleed := bleed_nonneg (kept_rack h hb hr)
  have hbleed' := bleed_le (kept_rack h hb hr)
  rw [← bmsTick_site ems s inputs] at hbleed hbleed'
  have hcurrent : |tickA ((site ems).ctx s inputs) perRackW r| ≤ 314 := by
    rw [tickA]
    split
    · have hdt : ((site ems).ctx s inputs).dtS = 1 := tickS_real
      rw [hdt]
      exact (abs_current_le hw _).trans_eq gw01Rack_maxCurrent
    · norm_num
  rw [heatOf_eq]
  set i := tickA ((site ems).ctx s inputs) perRackW r
  have hlow := branch_heat_ge hw i
  set ohm := seriesOhm (bmsTick ((site ems).ctx s inputs) r).1
  have hohm : 0 < ohm := seriesOhm_pos hw
  have hohm' : ohm ≤ 0.2884 := seriesOhm_le hw
  have hpol : |(bmsTick ((site ems).ctx s inputs) r).1.polarizationV * i| ≤ 19.41 * 314 := by
    rw [abs_mul]
    exact mul_le_mul (abs_polarization_le hw) hcurrent (abs_nonneg i) (by norm_num)
  have hsq : i ^ 2 ≤ 314 ^ 2 := sq_le_sq' (abs_le.mp hcurrent).1 (abs_le.mp hcurrent).2
  have hohmic : ohm * i ^ 2 ≤ 0.2884 * 314 ^ 2 :=
    mul_le_mul hohm' hsq (sq_nonneg i) (by norm_num)
  have hp1 := (abs_le.mp hpol).2
  norm_num at hohmic hp1
  constructor
  · linarith
  · linarith

theorem heat_le (h : Kept s) {b : BlockState ℝ × Nat} (hb : b ∈ s.blocks.zipIdx) {r : RackState ℝ}
    (hr : r ∈ b.1.racks) (perRackW : ℝ) :
    |heatOf ((site ems).ctx s inputs) perRackW r| ≤ 35000 := by
  have hmem : -350 ≤ heatOf ((site ems).ctx s inputs) perRackW r ∧
      heatOf ((site ems).ctx s inputs) perRackW r ≤ 35000 := heat_mem inputs h hb hr perRackW
  rw [abs_le]
  constructor
  · linarith [hmem.1]
  · exact hmem.2

end

/-- A container of twelve racks whose air and cells are between bounds. -/
structure Climate (airLo airHi cellLo cellHi : ℝ) (c : ContainerState ℝ) : Prop where
  air_ge : airLo ≤ c.airTempC
  air_le : c.airTempC ≤ airHi
  twelve : c.racks.length = 12
  cell_ge : ∀ r ∈ c.racks, cellLo ≤ r.cellTempC
  cell_le : ∀ r ∈ c.racks, r.cellTempC ≤ cellHi
  offset : ∀ r ∈ c.racks, |r.tempOffsetC| ≤ 1.5

/-- Where the bounds lead in one second of the ambient temperature `ambientC`,
without sun: up to 35 kilowatts in a rack, two compressors against the air. -/
structure Leads (ambientC airLo airHi cellLo cellHi airLo' airHi' cellLo' cellHi' : ℝ) : Prop where
  air_ge : airLo' ≤ airLo
    + (10800 * (cellLo - airHi - 1.5) + 500 * (ambientC - airLo) - 112000) / 2800000
  air_le : airHi + (10800 * (cellHi - airLo + 1.5) + 500 * (ambientC - airHi) + 112000) / 2800000 ≤
    airHi'
  cell_ge : cellLo' ≤ cellLo + (-35000 - 900 * (cellLo - airLo + 1.5)) / 2330000
  cell_le : cellHi + (35000 - 900 * (cellHi - airHi - 1.5)) / 2330000 ≤ cellHi'

theorem modeThermalW_mem (mode : HvacMode) :
    -112000 ≤ (LumpedThermal.default : LumpedThermal ℝ).modeThermalW mode ∧
      (LumpedThermal.default : LumpedThermal ℝ).modeThermalW mode ≤ 112000 := by
  cases mode with
  | off => norm_num [LumpedThermal.modeThermalW, LumpedThermal.coolingUnits, LumpedThermal.default]
  | cool1 => norm_num [LumpedThermal.modeThermalW, LumpedThermal.coolingUnits, LumpedThermal.default]
  | cool2 => norm_num [LumpedThermal.modeThermalW, LumpedThermal.coolingUnits, LumpedThermal.default]
  | heat => norm_num [LumpedThermal.modeThermalW, LumpedThermal.default]

section

variable {a A t T a' A' t' T' ambientC : ℝ} {c : ContainerState ℝ} (h : Climate a A t T c)
include h

theorem toAirW_mem {r : RackState ℝ} (hr : r ∈ c.racks) :
    900 * (t - A - 1.5) ≤ toAirW LumpedThermal.default c.airTempC r ∧
      toAirW LumpedThermal.default c.airTempC r ≤ 900 * (T - a + 1.5) := by
  have hlo := h.cell_ge r hr
  have hhi := h.cell_le r hr
  have hoff := abs_le.mp (h.offset r hr)
  have ha := h.air_ge
  have hA := h.air_le
  norm_num [toAirW, LumpedThermal.default] at hoff ⊢
  constructor
  · linarith [hoff.2]
  · linarith [hoff.1]

theorem warmed_mem (hlead : Leads ambientC a A t T a' A' t' T') {r : RackState ℝ} (hr : r ∈ c.racks)
    {heatW : ℝ} (hheat : |heatW| ≤ 35000) :
    t' ≤ warmed LumpedThermal.default c.airTempC 1 heatW r ∧
      warmed LumpedThermal.default c.airTempC 1 heatW r ≤ T' := by
  have hlo := h.cell_ge r hr
  have hhi := h.cell_le r hr
  have hoff := abs_le.mp (h.offset r hr)
  have ha := h.air_ge
  have hA := h.air_le
  have hheat := abs_le.mp hheat
  have hge := hlead.cell_ge
  have hle := hlead.cell_le
  norm_num [warmed, toAirW, LumpedThermal.default] at hoff hge hle ⊢
  constructor
  · linarith [hoff.1, hheat.1]
  · linarith [hoff.2, hheat.2]

/-- Twelve racks together. -/
theorem toAirW_sum :
    10800 * (t - A - 1.5) ≤ (c.racks.map (toAirW LumpedThermal.default c.airTempC)).sum ∧
      (c.racks.map (toAirW LumpedThermal.default c.airTempC)).sum ≤ 10800 * (T - a + 1.5) := by
  have hlo := sum_ge fun r hr => (toAirW_mem h hr).1
  have hhi := List.sum_le_card_nsmul (c.racks.map (toAirW LumpedThermal.default c.airTempC))
    (900 * (T - a + 1.5)) (List.forall_mem_map.mpr fun r hr => (toAirW_mem h hr).2)
  rw [h.twelve] at hlo
  rw [List.length_map, h.twelve, nsmul_eq_mul] at hhi
  norm_num at hlo hhi ⊢
  constructor
  · linarith
  · linarith

section

variable (ems : EmsStrategy ℝ) (s : SiteState ℝ) {inputs : Inputs ℝ} (perRackW : ℝ)

theorem air_mem (hlead : Leads ambientC a A t T a' A' t' T')
    (hweather : inputs.weather = ⟨ambientC, 0⟩) :
    a' ≤ (thermalTick ((site ems).ctx s inputs) perRackW c).1.airTempC ∧
      (thermalTick ((site ems).ctx s inputs) perRackW c).1.airTempC ≤ A' := by
  have hm : ((site ems).ctx s inputs).models = gw01Models ((site ems).ctx s inputs).cfg ems := rfl
  have hdt : ((site ems).ctx s inputs).dtS = 1 := tickS_real
  have hw : ((site ems).ctx s inputs).weather = ⟨ambientC, 0⟩ := hweather
  obtain ⟨mode, hair⟩ := thermalTick_air hm perRackW c
  rw [hdt, hw, foldl_add, zero_add] at hair
  have hcells := toAirW_sum h
  have hunit := modeThermalW_mem mode
  have ha := h.air_ge
  have hA := h.air_le
  have hge := hlead.air_ge
  have hle := hlead.air_le
  rw [hair]
  norm_num [LumpedThermal.default, LumpedThermal.solarApertureM2] at hge hle hcells hunit ⊢
  constructor
  · linarith [hcells.1, hunit.2]
  · linarith [hcells.2, hunit.1]

omit h in
/-- A rack handed out is one of those found, warmed where it stands. -/
theorem exists_rack_before {y : RackState ℝ}
    (hy : y ∈ (containerTick ((site ems).ctx s inputs) perRackW c).racks) :
    ∃ r ∈ c.racks, y.cellTempC = warmed LumpedThermal.default c.airTempC 1
      (heatOf ((site ems).ctx s inputs) perRackW r) r ∧ y.tempOffsetC = r.tempOffsetC := by
  have hm : ((site ems).ctx s inputs).models = gw01Models ((site ems).ctx s inputs).cfg ems := rfl
  have hdt : ((site ems).ctx s inputs).dtS = 1 := tickS_real
  obtain ⟨z, hz, rfl⟩ := List.mem_map.mp hy
  rw [thermalTick_racks hm perRackW c, hdt] at hz
  obtain ⟨r, hr, rfl⟩ := List.mem_map.mp hz
  obtain ⟨htemp, hoff⟩ := cellTick_temp hm perRackW r
  refine ⟨r, hr, ?_, hoff⟩
  change warmed _ _ _ _ _ = _
  simp only [warmed, toAirW, htemp, hoff]

/-- One second of a container. -/
theorem climate_container (hlead : Leads ambientC a A t T a' A' t' T')
    (hweather : inputs.weather = ⟨ambientC, 0⟩)
    (hheat : ∀ r ∈ c.racks, |heatOf ((site ems).ctx s inputs) perRackW r| ≤ 35000) :
    Climate a' A' t' T' (containerTick ((site ems).ctx s inputs) perRackW c) where
  air_ge := (air_mem h ems s perRackW hlead hweather).1
  air_le := (air_mem h ems s perRackW hlead hweather).2
  twelve := by
    have hm : ((site ems).ctx s inputs).models = gw01Models ((site ems).ctx s inputs).cfg ems := rfl
    change (List.map _ _).length = 12
    rw [List.length_map, thermalTick_racks hm, List.length_map, h.twelve]
  cell_ge y hy := by
    obtain ⟨r, hr, htemp, -⟩ := exists_rack_before ems s perRackW hy
    rw [htemp]
    exact (warmed_mem h hlead hr (hheat r hr)).1
  cell_le y hy := by
    obtain ⟨r, hr, htemp, -⟩ := exists_rack_before ems s perRackW hy
    rw [htemp]
    exact (warmed_mem h hlead hr (hheat r hr)).2
  offset y hy := by
    obtain ⟨r, hr, -, hoff⟩ := exists_rack_before ems s perRackW hy
    rw [hoff]
    exact h.offset r hr

end

end

section

variable {a A t T a' A' t' T' ambientC : ℝ} {s : SiteState ℝ}

theorem climate_tick (hc : ForallContainers (Climate a A t T) s)
    (hlead : Leads ambientC a A t T a' A' t' T') (ems : EmsStrategy ℝ) (hk : Kept s)
    {inputs : Inputs ℝ} (hweather : inputs.weather = ⟨ambientC, 0⟩) :
    ForallContainers (Climate a' A' t' T') ((site ems).siteTick s inputs) := by
  intro b hb c hcb
  obtain ⟨b₀, hb₀, c₀, hc₀, rfl⟩ := exists_container_before _ _ _ hb hcb
  apply climate_container (hc b₀.1 (List.fst_mem_of_mem_zipIdx hb₀) c₀ hc₀) ems s _ hlead hweather
  intro r hr
  exact heat_le inputs hk hb₀ (List.mem_flatMap.mpr ⟨c₀, hc₀, hr⟩) _

/-- No command touches the air, a cell's temperature or its place. -/
theorem climate_kept (a A t T : ℝ) : KeptByEdits (ForallContainers (Climate a A t T)) := by
  apply forallContainers_kept
  · intro f he r c hc
    have hf : ∀ x, (f x).cellTempC = x.cellTempC ∧ (f x).tempOffsetC = x.tempOffsetC := by
      intro x
      cases he with
      | service on => exact ⟨rfl, rfl⟩
      | excess ppm => exact ⟨rfl, rfl⟩
      | unlatch => exact ⟨rfl, rfl⟩
    exact
      { air_ge := hc.air_ge
        air_le := hc.air_le
        twelve := (List.length_modify ..).trans hc.twelve
        cell_ge := forall_modify hc.cell_ge fun x hx => hx.trans_eq (hf x).1.symm
        cell_le := forall_modify hc.cell_le fun x hx => (hf x).1.trans_le hx
        offset := forall_modify hc.offset fun x hx => by rw [(hf x).2]; exact hx }
  · intro failed c hc
    exact ⟨hc.air_ge, hc.air_le, hc.twelve, hc.cell_ge, hc.cell_le, hc.offset⟩

/-- A new site is at twenty degrees throughout. -/
theorem climate_new (seed : UInt64) (t : Int) :
    ForallContainers (Climate 20 20 20 20) (SiteState.new PlantConfig.gw01 seed t) := by
  intro b hb c hc
  have hair := air_new seed t b hb c hc
  have hfresh := site_fresh seed t b hb c hc
  exact
    { air_ge := hair.ge
      air_le := hair.le
      twelve := ((shaped_new PlantConfig.gw01 seed t).blocks b hb).racks c hc
      cell_ge := fun r hr => (hfresh r hr).temp.ge
      cell_le := fun r hr => (hfresh r hr).temp.le
      offset := fun r hr => (hfresh r hr).offset }

end

end BessClimate
