import BessEmulator.Climate

/-!
# The thermal step conserves energy

Every flow is taken at the temperatures the tick began with, so what the cells
and the air gain is what the racks put in, the envelope let in and the unit
did not take out, for any list of racks.
-/
namespace BessHeat

open Bess BessClimate BessLedger Sweep

/-- Heat held by cells and air, from 0 °C. -/
noncomputable def storedJ (m : LumpedThermal ℝ) (c : ContainerState ℝ) : ℝ :=
  (c.racks.map fun r => m.rackHeatCapacityJPerK * r.cellTempC).sum
    + m.airHeatCapacityJPerK * c.airTempC

section

variable (m : LumpedThermal ℝ) {c : ContainerState ℝ} {heat : List ℝ} (w : Weather ℝ) (dtS : ℝ)

/-- The mode a step chooses: off on a failed unit. -/
noncomputable def chosen (c : ContainerState ℝ) : HvacMode :=
  if c.hvac.failed then .off
  else m.nextMode c.hvac.mode c.airTempC (decide (c.hvac.compressorHoldS ≤ 0.0))

/-- A sum over the racks is one over the racks with their heats. -/
theorem sum_racks (hlen : heat.length = c.racks.length) (f : RackState ℝ → ℝ) :
    (c.racks.map f).sum = ((heat.zip c.racks).map fun p => f p.2).sum := by
  conv_lhs => rw [← List.map_snd_zip hlen.ge, List.map_map]
  rfl

/-- The loop over the cells, with any heats, one for each rack. -/
theorem cells_swept (hlen : heat.length = c.racks.length) :
    sweep (m.stepCells c.airTempC dtS) (heat, 0) c.racks =
      (([], (c.racks.map (toAirW m c.airTempC)).sum),
        (heat.zip c.racks).map fun p =>
          { p.2 with cellTempC := warmed m c.airTempC dtS p.1 p.2 }) := by
  have hfst : (heat.zip c.racks).map Prod.fst = heat := List.map_fst_zip hlen.le
  have hsnd : (heat.zip c.racks).map Prod.snd = c.racks := List.map_snd_zip hlen.ge
  have hsweep := sweep_cells m c.airTempC dtS Prod.fst Prod.snd (heat.zip c.racks) 0
  have hsum : (heat.zip c.racks).foldl (fun a p => a + toAirW m c.airTempC p.2) 0 =
      (c.racks.map (toAirW m c.airTempC)).sum := by
    rw [foldl_add, zero_add, sum_racks hlen]
  rw [hfst, hsnd, hsum] at hsweep
  exact hsweep

/-- What the cells hold and give to the air is what they held and their own heat. -/
theorem cells_gain (hrack : m.rackHeatCapacityJPerK ≠ 0) (hlen : heat.length = c.racks.length) :
    (((heat.zip c.racks).map fun p =>
        ({ p.2 with cellTempC := warmed m c.airTempC dtS p.1 p.2 } : RackState ℝ)).map
          fun r => m.rackHeatCapacityJPerK * r.cellTempC).sum
        + dtS * (c.racks.map (toAirW m c.airTempC)).sum =
      (c.racks.map fun r => m.rackHeatCapacityJPerK * r.cellTempC).sum + dtS * heat.sum := by
  have hheat : heat.sum = ((heat.zip c.racks).map Prod.fst).sum := by
    rw [List.map_fst_zip hlen.le]
  rw [sum_racks hlen, sum_racks hlen, hheat, List.map_map, ← List.sum_map_mul_left, ← List.sum_map_mul_left,
    ← List.sum_map_add, ← List.sum_map_add]
  congr 1
  apply List.map_congr_left
  intro p _
  rw [Function.comp_apply, warmed]
  field_simp
  ring

end

/-- What a mode takes out of the air: nothing idle, a unit or both cooling, less than nothing heating. -/
noncomputable def takenW (m : LumpedThermal ℝ) : HvacMode → ℝ
  | .off => 0
  | .cool1 => m.unitCoolingThermalW
  | .cool2 => 2 * m.unitCoolingThermalW
  | .heat => -m.heatingThermalW

/-- What a mode draws: the controls in every mode, a compressor and a fan for each unit cooling, and
the heater what it gives with one fan. -/
noncomputable def drawnW (m : LumpedThermal ℝ) : HvacMode → ℝ
  | .off => m.standbyW
  | .cool1 => m.standbyW + (m.unitCoolingThermalW / m.cop + m.unitFanW)
  | .cool2 => m.standbyW + 2 * (m.unitCoolingThermalW / m.cop + m.unitFanW)
  | .heat => m.standbyW + (m.heatingThermalW + m.unitFanW)

theorem modeThermalW_eq (m : LumpedThermal ℝ) (mode : HvacMode) : m.modeThermalW mode = takenW m mode := by
  cases mode <;> simp only [LumpedThermal.modeThermalW, LumpedThermal.coolingUnits, takenW] <;> norm_num

theorem modeElectricalW_eq (m : LumpedThermal ℝ) (mode : HvacMode) :
    m.modeElectricalW mode = drawnW m mode := by
  cases mode <;> simp only [LumpedThermal.modeElectricalW, LumpedThermal.coolingUnits, drawnW] <;> norm_num

/-- A step against the flows it reports. -/
structure HeatBalanced (m : LumpedThermal ℝ) (c : ContainerState ℝ) (heat : List ℝ) (w : Weather ℝ)
    (dtS : ℝ) (c' : ContainerState ℝ) (flows : ThermalFlows ℝ) : Prop where
  balance : storedJ m c' - storedJ m c =
    dtS * (heat.sum + flows.envelopeGainW - flows.hvacThermalW)
  exchange : flows.cellsToAirW = (c.racks.map (toAirW m c.airTempC)).sum
  envelope : flows.envelopeGainW =
    m.uaWPerK * (w.ambientC - c.airTempC) + m.solarApertureM2 * w.irradianceWm2
  mode : c'.hvac.mode = chosen m c
  thermal : flows.hvacThermalW = takenW m c'.hvac.mode
  electrical : flows.hvacElectricalW = drawnW m c'.hvac.mode ∧ c'.hvac.electricalW = flows.hvacElectricalW
  standby : c.hvac.failed = true → flows.hvacElectricalW = m.standbyW

/-- The thermal step closes its balance, with one heat for each rack. -/
theorem thermal_balance {m : LumpedThermal ℝ} {c : ContainerState ℝ} {heat : List ℝ}
    (hrack : m.rackHeatCapacityJPerK ≠ 0) (hair : m.airHeatCapacityJPerK ≠ 0)
    (hlen : heat.length = c.racks.length) (w : Weather ℝ) (dtS : ℝ) :
    HeatBalanced m c heat w dtS (m.stepContainer c heat w dtS).1
      (m.stepContainer c heat w dtS).2 := by
  have hcells := cells_swept m dtS hlen
  have hgain := cells_gain m dtS hrack hlen
  constructor
  · simp only [storedJ, LumpedThermal.stepContainer, hcells]
    field_simp
    linarith
  · simp only [LumpedThermal.stepContainer, hcells]
  · rfl
  · rfl
  · exact modeThermalW_eq m _
  · exact ⟨modeElectricalW_eq m _, rfl⟩
  · intro hfailed
    simp only [LumpedThermal.stepContainer, hfailed, if_true, LumpedThermal.modeElectricalW,
      LumpedThermal.coolingUnits]
    norm_num

/-- A rack at work and a cooler one that rests, in the sun under the reference unit. -/
theorem thermal_balance_racks :
    let busy : RackState ℝ :=
      ⟨true, 0.5, 1.0, 1400.0, 150.0, 31.0, 0.8, 1.0, 0.5, 0#32, 0.004, 0.0, false, 0.0⟩
    let resting : RackState ℝ :=
      ⟨false, 0.7, 1.0, 1400.0, 0.0, 24.0, -0.5, 1.0, 0.0, 0#32, 0.0, 0.0, false, 0.0⟩
    let c : ContainerState ℝ := ⟨30.0, ⟨.off, 0.0, 0.0, 0.0, false⟩, [busy, resting]⟩
    HeatBalanced LumpedThermal.default c [6000.0, 40.0] ⟨31.0, 700.0⟩ 1.0
      (LumpedThermal.default.stepContainer c [6000.0, 40.0] ⟨31.0, 700.0⟩ 1.0).1
      (LumpedThermal.default.stepContainer c [6000.0, 40.0] ⟨31.0, 700.0⟩ 1.0).2 :=
  thermal_balance (by norm_num [LumpedThermal.default]) (by norm_num [LumpedThermal.default]) rfl
    ⟨31.0, 700.0⟩ 1.0

end BessHeat
