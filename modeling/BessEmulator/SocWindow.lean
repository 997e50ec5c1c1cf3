import BessEmulator.Parabola
import BessEmulator.Racks

/-!
# The state-of-charge window

The taper limits power while the cell integrates current. From the emf a rack
of the window keeps, a tick's current is at most a fixed multiple of the
margin left, and the margin outlasts it.
-/
namespace BessSoc

open Bess

noncomputable def gw01Rack : RackConfig ℝ := PlantConfig.gw01.rack

@[simp] theorem gw01Rack_capacity : gw01Rack.cellCapacityAh = 314 := by
  norm_num [gw01Rack, PlantConfig.gw01]

@[simp] theorem gw01Rack_maxCurrent : gw01Rack.maxCurrentA = 314 := by
  norm_num [gw01Rack, PlantConfig.gw01]

@[simp] theorem gw01Rack_socMin : gw01Rack.socMin = 0.05 := rfl

@[simp] theorem gw01Rack_socMax : gw01Rack.socMax = 0.95 := rfl

theorem natCast_real (n : ℕ) : (@Nat.cast ℝ Scalar.toNatCast n) = (n : ℝ) := rfl

theorem gw01Rack_ocv (soc : ℝ) : ocvRackV soc gw01Rack = ocvCellV soc * 416 := by
  rw [ocvRackV, natCast_real]
  norm_num [gw01Rack, PlantConfig.gw01]

theorem gw01Rack_rated : ratedRackW gw01Rack = 417996.8 := by
  rw [ratedRackW, RackConfig.nominalV, natCast_real]
  norm_num [gw01Rack, PlantConfig.gw01]

/-- Largest polarization of a rack: its RC resistance times the largest current. -/
noncomputable def polarizationMax (r : RackState ℝ) : ℝ :=
  Ecm1Rc.lfp314ahRack.r1Ohm * r.resistanceScale * gw01Rack.maxCurrentA

/-- What a rack of the reference plant keeps. -/
structure Windowed (r : RackState ℝ) : Prop where
  ok : RackOk r
  soc_ge : gw01Rack.socMin ≤ r.soc
  soc_le : r.soc ≤ gw01Rack.socMax
  scale_le : r.resistanceScale ≤ 1.03
  polarization : |r.polarizationV| ≤ polarizationMax r
  high : hasBit r.alarmBits RackBit.SOC_HIGH = false
  low : hasBit r.alarmBits RackBit.SOC_LOW = false

theorem clamp_le_max {x lo hi : ℝ} (h : lo ≤ 0) : Scalar.clamp x lo hi ≤ max x 0 := by
  rw [Scalar.clamp]
  split
  · exact h.trans (le_max_right _ _)
  · split
    · exact (le_of_lt ‹_›).trans (le_max_left _ _)
    · exact le_max_left _ _

theorem min_le_clamp {x lo hi : ℝ} (h : 0 ≤ hi) : min x 0 ≤ Scalar.clamp x lo hi := by
  rw [Scalar.clamp]
  split
  · exact (min_le_left _ _).trans (le_of_lt ‹_›)
  · split
    · exact (min_le_right _ _).trans h
    · exact min_le_left _ _

/-- Internal voltage of a rack. -/
noncomputable def emf (r : RackState ℝ) : ℝ := ocvRackV r.soc gw01Rack - r.polarizationV

theorem emf_ge {r : RackState ℝ} (h : Windowed r) : 1180 ≤ emf r := by
  have hocv := (ocvCellV_mem r.soc).1
  have hp := (abs_le.mp h.polarization).2
  have hscale := h.scale_le
  rw [polarizationMax, gw01Rack_maxCurrent] at hp
  rw [emf, gw01Rack_ocv]
  norm_num [Ecm1Rc.lfp314ahRack] at hp hscale hocv
  linarith

section

variable {r0 e p : ℝ} (hr : 0 < r0) (he : 0 < e)
include hr he

/-- Up to the peak the terminal-power root is met within twice the tangent. -/
theorem currentFor_le (hp : p ≤ 0.999 * (e * e / (4.0 * r0))) :
    Ecm1Rc.currentFor r0 e p ≤ 2 * max p 0 / e := by
  have hdisc : 4 * r0 * p ≤ e * e := by
    have h := mul_le_mul_of_nonneg_left hp (by positivity : 0 ≤ 4 * r0)
    have hid : 4 * r0 * (0.999 * (e * e / (4.0 * r0))) = 0.999 * (e * e) := by
      norm_num
      field_simp
    rw [hid] at h
    nlinarith [mul_pos he he]
  have hroot : (e - √(e * e - 4.0 * r0 * p)) / (2.0 * r0) = Parabola.small r0 e p := by
    norm_num [Parabola.small]
  rw [Ecm1Rc.currentFor]
  split
  · positivity
  · rw [Scalar.sqrt_real, hroot]
    rcases le_total 0 p with h0 | h0
    · rw [max_eq_left h0]
      exact Parabola.small_le_div hr he h0 hdisc
    · have hs := Parabola.small_nonpos hr he.le h0
      exact hs.trans (by positivity)

theorem le_currentFor : min p 0 / e ≤ Ecm1Rc.currentFor r0 e p := by
  have hroot : (e - √(e * e - 4.0 * r0 * p)) / (2.0 * r0) = Parabola.small r0 e p := by
    norm_num [Parabola.small]
  have hneg : min p 0 / e ≤ 0 := div_nonpos_of_nonpos_of_nonneg (min_le_right _ _) he.le
  rw [Ecm1Rc.currentFor]
  split
  · exact hneg
  · rw [Scalar.sqrt_real, hroot]
    rcases le_total 0 p with h0 | h0
    · exact hneg.trans (Parabola.small_nonneg hr he.le h0)
    · rw [min_eq_left h0]
      exact Parabola.div_le_small hr he h0

end

section

variable {r : RackState ℝ} (h : Windowed r) (p : ℝ)
include h

theorem scale_pos : 0 < Ecm1Rc.lfp314ahRack.r0Ohm * r.resistanceScale := by
  apply mul_pos _ h.ok.scale
  norm_num [Ecm1Rc.lfp314ahRack]

theorem emf_pos : 0 < emf r := lt_of_lt_of_le (by norm_num) (emf_ge h)

/-- The SoC bounds of the cell model, both sides of rest. -/
theorem socBounds_nonneg :
    0 ≤ r.soc * capacityAh r gw01Rack * 3600.0 / 1 ∧
      0 ≤ (1.0 - r.soc) * capacityAh r gw01Rack * 3600.0 / 1 := by
  have h0 := h.ok.soc_nonneg
  have h1 : 0 ≤ 1.0 - r.soc := by
    have := h.ok.soc_le
    norm_num
    linarith
  rw [capacityAh_eq h.ok.soh, gw01Rack_capacity]
  constructor
  · positivity
  · positivity

theorem current_le : Ecm1Rc.lfp314ahRack.current r gw01Rack p 1 ≤ 2 * max p 0 / emf r := by
  obtain ⟨_, hch⟩ := socBounds_nonneg h
  have he := emf_pos h
  have hnn : 0 ≤ 2 * max p 0 / emf r := by positivity
  set r0 := Ecm1Rc.lfp314ahRack.r0Ohm * r.resistanceScale with hr0
  have hroot := currentFor_le (scale_pos h) he
    (min_le_right p (0.999 * (emf r * emf r / (4.0 * r0))))
  have hmax : 2 * max (min p (0.999 * (emf r * emf r / (4.0 * r0)))) 0 / emf r ≤
      2 * max p 0 / emf r := by
    gcongr
    exact min_le_left _ _
  have hneg : -((1.0 - r.soc) * capacityAh r gw01Rack * 3600.0 / 1) ≤ 0 := neg_nonpos.mpr hch
  have hI : -gw01Rack.maxCurrentA ≤ 0 := by norm_num
  calc Ecm1Rc.lfp314ahRack.current r gw01Rack p 1 ≤ max _ 0 := clamp_le_max hneg
    _ ≤ 2 * max p 0 / emf r := by
        refine max_le ((clamp_le_max hI).trans ?_) hnn
        exact max_le (hroot.trans hmax) hnn

theorem le_current : min p 0 / emf r ≤ Ecm1Rc.lfp314ahRack.current r gw01Rack p 1 := by
  obtain ⟨hd, _⟩ := socBounds_nonneg h
  have he := emf_pos h
  have hnp : min p 0 / emf r ≤ 0 := div_nonpos_of_nonpos_of_nonneg (min_le_right _ _) he.le
  set r0 := Ecm1Rc.lfp314ahRack.r0Ohm * r.resistanceScale with hr0
  have hroot := le_currentFor (p := min p (0.999 * (emf r * emf r / (4.0 * r0)))) (scale_pos h) he
  have hpeak : 0 ≤ 0.999 * (emf r * emf r / (4.0 * r0)) := by
    have := scale_pos h
    positivity
  have hmin : min p 0 / emf r ≤ min (min p (0.999 * (emf r * emf r / (4.0 * r0)))) 0 / emf r := by
    have hle : min p 0 ≤ min (min p (0.999 * (emf r * emf r / (4.0 * r0)))) 0 :=
      le_min (le_min (min_le_left _ _) ((min_le_right _ _).trans hpeak)) (min_le_right _ _)
    gcongr
  have hI : 0 ≤ gw01Rack.maxCurrentA := by norm_num
  calc min p 0 / emf r ≤ min _ 0 := by
        refine le_min ((le_min (hmin.trans hroot) hnp).trans (min_le_clamp hI)) hnp
    _ ≤ Ecm1Rc.lfp314ahRack.current r gw01Rack p 1 := min_le_clamp hd

/-- No tick carries more than the rack's largest current. -/
theorem abs_current_le : |Ecm1Rc.lfp314ahRack.current r gw01Rack p 1| ≤ gw01Rack.maxCurrentA := by
  obtain ⟨hd, hch⟩ := socBounds_nonneg h
  have hI : -gw01Rack.maxCurrentA ≤ gw01Rack.maxCurrentA := by norm_num
  have hclamp := Scalar.abs_clamp_le
    (x := Scalar.clamp (Ecm1Rc.currentFor (Ecm1Rc.lfp314ahRack.r0Ohm * r.resistanceScale) (emf r)
      (min p (0.999 * (emf r * emf r / (4.0 * (Ecm1Rc.lfp314ahRack.r0Ohm * r.resistanceScale))))))
      (-gw01Rack.maxCurrentA) gw01Rack.maxCurrentA) (neg_nonpos.mpr hch) hd
  exact hclamp.trans (abs_le.mpr ⟨Scalar.le_clamp hI, Scalar.clamp_le hI⟩)

/-- Discharge limited to the margin above the window's floor. -/
theorem current_le_margin
    (hp : p ≤ ratedRackW gw01Rack * ((r.soc - gw01Rack.socMin) / 0.03)) :
    Ecm1Rc.lfp314ahRack.current r gw01Rack p 1 ≤ 24000 * (r.soc - gw01Rack.socMin) := by
  have he := emf_ge h
  have hm : 0 ≤ r.soc - gw01Rack.socMin := sub_nonneg.mpr h.soc_ge
  have hpos : max p 0 ≤ ratedRackW gw01Rack * ((r.soc - gw01Rack.socMin) / 0.03) := by
    refine max_le hp ?_
    rw [gw01Rack_rated]
    positivity
  have hle := current_le h p
  have hdiv : 2 * max p 0 / emf r ≤ 2 * max p 0 / 1180 := by gcongr
  rw [gw01Rack_rated] at hpos
  have hnum : 2 * max p 0 / 1180 ≤ 24000 * (r.soc - gw01Rack.socMin) := by
    rw [div_le_iff₀ (by norm_num)]
    generalize max p 0 = q at hpos ⊢
    norm_num at hpos hm ⊢
    linarith
  linarith

/-- Charge limited to the margin below the window's ceiling. -/
theorem margin_le_current
    (hp : -(ratedRackW gw01Rack * ((gw01Rack.socMax - r.soc) / 0.03)) ≤ p) :
    -(24000 * (gw01Rack.socMax - r.soc)) ≤ Ecm1Rc.lfp314ahRack.current r gw01Rack p 1 := by
  have he := emf_ge h
  have hm : 0 ≤ gw01Rack.socMax - r.soc := sub_nonneg.mpr h.soc_le
  have hneg : -(ratedRackW gw01Rack * ((gw01Rack.socMax - r.soc) / 0.03)) ≤ min p 0 := by
    refine le_min hp (neg_nonpos.mpr ?_)
    rw [gw01Rack_rated]
    positivity
  have hle := le_current h p
  have hdiv : min p 0 / 1180 ≤ min p 0 / emf r := by
    rw [div_le_div_iff₀ (by norm_num) (emf_pos h)]
    nlinarith [min_le_right p 0]
  rw [gw01Rack_rated] at hneg
  have hnum : -(24000 * (gw01Rack.socMax - r.soc)) ≤ min p 0 / 1180 := by
    rw [le_div_iff₀ (by norm_num)]
    generalize min p 0 = q at hneg ⊢
    norm_num at hneg hm ⊢
    linarith
  linarith

end

/-- The SoC a tick's current leaves, before the clamp. -/
noncomputable def drawn (r : RackState ℝ) (i : ℝ) : ℝ :=
  r.soc - i * 1 / (3600.0 * capacityAh r gw01Rack)

theorem drawn_mem {r : RackState ℝ} (h : Windowed r) {i : ℝ}
    (hhi : i ≤ 24000 * (r.soc - gw01Rack.socMin))
    (hlo : -(24000 * (gw01Rack.socMax - r.soc)) ≤ i) :
    gw01Rack.socMin ≤ drawn r i ∧ drawn r i ≤ gw01Rack.socMax := by
  have h0 : 0 ≤ r.soc - gw01Rack.socMin := sub_nonneg.mpr h.soc_ge
  have h1 : 0 ≤ gw01Rack.socMax - r.soc := sub_nonneg.mpr h.soc_le
  have hd : drawn r i = r.soc - i / 1130400 := by
    rw [drawn, capacityAh_eq h.ok.soh, gw01Rack_capacity]
    norm_num
  rw [hd]
  constructor
  · linarith
  · linarith

/-- One tick of the RC branch moves the polarization towards its target. -/
theorem relax_le {v target bound : ℝ} (hv : |v| ≤ bound) (ht : |target| ≤ bound) :
    |v + 1 / Ecm1Rc.lfp314ahRack.tau1S * (target - v)| ≤ bound := by
  obtain ⟨hv0, hv1⟩ := abs_le.mp hv
  obtain ⟨ht0, ht1⟩ := abs_le.mp ht
  have hid : v + 1 / Ecm1Rc.lfp314ahRack.tau1S * (target - v) = 29 / 30 * v + 1 / 30 * target := by
    norm_num [Ecm1Rc.lfp314ahRack]
    ring
  rw [hid, abs_le]
  constructor
  · linarith
  · linarith

theorem r1_nonneg {r : RackState ℝ} (h : Windowed r) :
    0 ≤ Ecm1Rc.lfp314ahRack.r1Ohm * r.resistanceScale := by
  apply mul_nonneg _ h.ok.scale.le
  norm_num [Ecm1Rc.lfp314ahRack]

/-- A rack in service, carrying a current its margins allow. -/
theorem windowed_carry {r : RackState ℝ} (h : Windowed r) {i : ℝ}
    (hhi : i ≤ 24000 * (r.soc - gw01Rack.socMin))
    (hlo : -(24000 * (gw01Rack.socMax - r.soc)) ≤ i) (hI : |i| ≤ gw01Rack.maxCurrentA) :
    Windowed (Ecm1Rc.lfp314ahRack.carry r gw01Rack i 1).1 ∧
      (Ecm1Rc.lfp314ahRack.carry r gw01Rack i 1).1.soc = drawn r i := by
  obtain ⟨hmin, hmax⟩ := drawn_mem h hhi hlo
  have h0 : 0 ≤ drawn r i := le_trans (by norm_num) hmin
  have h1 : drawn r i ≤ 1 := hmax.trans (by norm_num)
  have hsoc : (Ecm1Rc.lfp314ahRack.carry r gw01Rack i 1).1.soc = drawn r i := clamp_unit h0 h1
  have htarget : |i * (Ecm1Rc.lfp314ahRack.r1Ohm * r.resistanceScale)| ≤ polarizationMax r := by
    rw [abs_mul, abs_of_nonneg (r1_nonneg h), mul_comm]
    exact mul_le_mul_of_nonneg_left hI (r1_nonneg h)
  refine ⟨⟨⟨?_, ?_, h.ok.soh, h.ok.scale, h.ok.spread, h.ok.excess⟩, ?_, ?_, h.scale_le, ?_, h.high,
    h.low⟩, hsoc⟩
  · rw [hsoc]
    exact h0
  · rw [hsoc]
    exact h1
  · rw [hsoc]
    exact hmin
  · rw [hsoc]
    exact hmax
  · exact relax_le h.polarization htarget

/-- An isolated rack rests. -/
theorem windowed_rest {r : RackState ℝ} (h : Windowed r) :
    Windowed (Ecm1Rc.lfp314ahRack.restRack r gw01Rack 1).1 where
  ok := h.ok.of_eq rfl rfl rfl rfl rfl
  soc_ge := h.soc_ge
  soc_le := h.soc_le
  scale_le := h.scale_le
  polarization := by
    have hzero : |(0 : ℝ)| ≤ polarizationMax r := by
      rw [abs_zero]
      exact mul_nonneg (r1_nonneg h) (by norm_num)
    have hr := relax_le h.polarization hzero
    rw [zero_sub] at hr
    exact hr
  high := h.high
  low := h.low

theorem gw01Rack_rated_nonneg : 0 ≤ ratedRackW gw01Rack := by
  rw [gw01Rack_rated]
  norm_num

/-- Tapered and derated, a limit is at most the rating's share of the margin. -/
theorem taper_le {margin f : ℝ} (hm : 0 ≤ margin) (hf : f ≤ 1) :
    ratedRackW gw01Rack * (Scalar.clamp (margin / 0.03) 0 1 * f) ≤
      ratedRackW gw01Rack * (margin / 0.03) := by
  have hq : 0 ≤ margin / 0.03 := by positivity
  have hclamp : Scalar.clamp (margin / 0.03) 0 1 ≤ margin / 0.03 := by
    have hle : Scalar.clamp (margin / 0.03) 0 1 ≤ max (margin / 0.03) 0 := clamp_le_max (le_refl 0)
    rwa [max_eq_left hq] at hle
  have hc := (clamp_unit_mem (margin / 0.03)).1
  apply mul_le_mul_of_nonneg_left _ gw01Rack_rated_nonneg
  calc Scalar.clamp (margin / 0.03) 0 1 * f ≤ Scalar.clamp (margin / 0.03) 0 1 * 1 :=
        mul_le_mul_of_nonneg_left hf hc
    _ ≤ margin / 0.03 := by rwa [mul_one]

theorem rackLimits_le {r : RackState ℝ} (h : Windowed r) :
    (BasicBms.default.rackLimits r gw01Rack).maxDischargeW ≤
        ratedRackW gw01Rack * ((r.soc - gw01Rack.socMin) / 0.03) ∧
      (BasicBms.default.rackLimits r gw01Rack).maxChargeW ≤
        ratedRackW gw01Rack * ((gw01Rack.socMax - r.soc) / 0.03) := by
  have h0 : 0 ≤ r.soc - gw01Rack.socMin := sub_nonneg.mpr h.soc_ge
  have h1 : 0 ≤ gw01Rack.socMax - r.soc := sub_nonneg.mpr h.soc_le
  have hd := (BasicBms.default : BasicBms ℝ).dischargeTemp.factor_mem r.cellTempC
  have hc := (BasicBms.default : BasicBms ℝ).chargeTemp.factor_mem r.cellTempC
  rw [BasicBms.rackLimits]
  split
  · exact ⟨taper_le h0 hd.2, taper_le h1 hc.2⟩
  · have hr := gw01Rack_rated_nonneg
    constructor
    · exact mul_nonneg hr (by positivity)
    · exact mul_nonneg hr (by positivity)

theorem active_soc {r : RackState ℝ} (h : Balancing.default.active r = true) : 0.90 ≤ r.soc :=
  ((Balancing.active_iff _ r).mp h).1.2.1

/-- What one tick of bleeding takes off the spread of a rack. -/
noncomputable def bled (r : RackState ℝ) : ℝ :=
  Balancing.default.narrowed r gw01Rack (Balancing.default.drift r gw01Rack 1) 1

theorem bled_le {r : RackState ℝ} (h : RackOk r) : bled r ≤ 0.24 / (3600.0 * 314.0) := by
  refine (min_le_left _ _).trans ?_
  rw [capacityAh_eq h.soh, gw01Rack_capacity]
  norm_num [Balancing.default]

theorem bled_mem {r : RackState ℝ} (h : RackOk r) : 0 ≤ bled r ∧ bled r ≤ 0.01 := by
  have hcap : 0 < capacityAh r gw01Rack := h.capacity (by norm_num)
  have hdrift := (drift_mem hcap h.spread h.excess zero_le_one).1
  exact ⟨(narrowed_mem hcap zero_le_one hdrift).1, (bled_le h).trans (by norm_num)⟩

/-- A bleeding rack is far enough from empty for all it gives up. -/
theorem balance_soc {r : RackState ℝ} (h : RackOk r) (ha : Balancing.default.active r = true) :
    (Balancing.default.step r gw01Rack 1).1.soc =
      r.soc - Balancing.default.bleedingShare * bled r := by
  have hb := bled_mem h
  have hsoc := active_soc ha
  have hpos : 0 ≤ r.soc - Balancing.default.bleedingShare * bled r := by
    norm_num [Balancing.default] at hb hsoc ⊢
    linarith
  rw [Balancing.step]
  simp only [ha, if_true]
  exact max_eq_left hpos

theorem windowed_balance {r : RackState ℝ} (h : Windowed r) :
    Windowed (Balancing.default.step r gw01Rack 1).1 := by
  have hok := rackOk_balance h.ok (by norm_num : 0 < gw01Rack.cellCapacityAh)
  have hscale : (Balancing.default.step r gw01Rack 1).1.resistanceScale = r.resistanceScale := by
    rw [Balancing.step]
    simp only
    split <;> rfl
  have hpol : (Balancing.default.step r gw01Rack 1).1.polarizationV = r.polarizationV := by
    rw [Balancing.step]
    simp only
    split <;> rfl
  have hbits : (Balancing.default.step r gw01Rack 1).1.alarmBits = r.alarmBits :=
    BasicBms.default.bmsLogic.stepBms_alarmBits r gw01Rack 1
  have hsoc : gw01Rack.socMin ≤ (Balancing.default.step r gw01Rack 1).1.soc ∧
      (Balancing.default.step r gw01Rack 1).1.soc ≤ gw01Rack.socMax := by
    cases ha : Balancing.default.active r with
    | true =>
      have hb := bled_mem h.ok
      have h0 := active_soc ha
      have h1 := h.soc_le
      rw [balance_soc h.ok ha]
      norm_num [Balancing.default] at hb h0 h1 ⊢
      constructor
      · linarith
      · linarith
    | false =>
      have hkeep : (Balancing.default.step r gw01Rack 1).1.soc = r.soc := by
        rw [Balancing.step]
        simp only [ha, Bool.false_eq_true, if_false]
      rw [hkeep]
      exact ⟨h.soc_ge, h.soc_le⟩
  refine ⟨hok, hsoc.1, hsoc.2, ?_, ?_, ?_, ?_⟩
  · rw [hscale]
    exact h.scale_le
  · rw [hpol, polarizationMax, hscale]
    exact h.polarization
  · rw [hbits]
    exact h.high
  · rw [hbits]
    exact h.low

/-- No clamp of a rack-tick discards charge. -/
structure KeepsCharge (ctx : TickContext ℝ) (perRackW : ℝ) (r : RackState ℝ) : Prop where
  bled : Balancing.default.active r = true →
    (bmsTick ctx r).1.soc =
      r.soc - Balancing.default.bleedingShare
        * Balancing.default.narrowed r ctx.cfg.rack (Balancing.default.drift r ctx.cfg.rack ctx.dtS)
          ctx.dtS
  drawn : (bmsTick ctx r).1.inService = true →
    (cellTick ctx perRackW r).1.soc =
      (bmsTick ctx r).1.soc - (cellTick ctx perRackW r).1.currentA * ctx.dtS
        / (3600.0 * capacityAh (bmsTick ctx r).1 ctx.cfg.rack)

section

variable {cfg : PlantConfig ℝ} (hcfg : cfg.rack = gw01Rack) (ems : EmsStrategy ℝ)
  (s : SiteState ℝ) (inputs : Inputs ℝ)
include hcfg

theorem bmsTick_gw01 (r : RackState ℝ) :
    bmsTick ((gw01Plant cfg ems).ctx s inputs) r = Balancing.default.step r gw01Rack 1 := by
  have hstep : bmsTick ((gw01Plant cfg ems).ctx s inputs) r =
      Balancing.default.step r cfg.rack tickS := rfl
  rw [hstep, hcfg, tickS_real]

/-- The request the kernel makes of a rack is within its margins. -/
theorem request_mem {r : RackState ℝ} (h : Windowed r) (perRackW : ℝ) :
    let b := (bmsTick ((gw01Plant cfg ems).ctx s inputs) r).1
    let p := requestOf ((gw01Plant cfg ems).ctx s inputs) perRackW r
    p ≤ ratedRackW gw01Rack * ((b.soc - gw01Rack.socMin) / 0.03) ∧
      -(ratedRackW gw01Rack * ((gw01Rack.socMax - b.soc) / 0.03)) ≤ p := by
  have hb : Windowed (bmsTick ((gw01Plant cfg ems).ctx s inputs) r).1 := by
    rw [bmsTick_gw01 hcfg]
    exact windowed_balance h
  set b := (bmsTick ((gw01Plant cfg ems).ctx s inputs) r).1 with hbdef
  have hlim : limitsOf ((gw01Plant cfg ems).ctx s inputs) r =
      BasicBms.default.rackLimits b gw01Rack := by
    rw [← hcfg]
    rfl
  obtain ⟨hd, hc⟩ := rackLimits_le hb
  obtain ⟨hc0, hd0⟩ := BasicBms.default.rackLimits_mem b gw01Rack_rated_nonneg
  have hband : -(BasicBms.default.rackLimits b gw01Rack).maxChargeW ≤
      (BasicBms.default.rackLimits b gw01Rack).maxDischargeW := by linarith
  simp only [requestOf, ← hbdef, hlim]
  split
  · exact ⟨(Scalar.clamp_le hband).trans hd, (neg_le_neg hc).trans (Scalar.le_clamp hband)⟩
  · exact ⟨hd0.trans hd, (neg_nonpos.mpr hc0).trans' (neg_le_neg hc)⟩

theorem cellTick_gw01 (perRackW : ℝ) (r : RackState ℝ) :
    cellTick ((gw01Plant cfg ems).ctx s inputs) perRackW r =
      Ecm1Rc.lfp314ahRack.stepRack (bmsTick ((gw01Plant cfg ems).ctx s inputs) r).1 gw01Rack
        (requestOf ((gw01Plant cfg ems).ctx s inputs) perRackW r) 1 := by
  rw [← tickS_real, ← hcfg]
  rfl

theorem windowed_electrical {r : RackState ℝ} (h : Windowed r) (perRackW : ℝ) :
    Windowed (cellTick ((gw01Plant cfg ems).ctx s inputs) perRackW r).1 ∧
      KeepsCharge ((gw01Plant cfg ems).ctx s inputs) perRackW r := by
  obtain ⟨hhi, hlo⟩ := request_mem hcfg ems s inputs h perRackW
  have hcell := cellTick_gw01 hcfg ems s inputs perRackW r
  have hbms := bmsTick_gw01 hcfg ems s inputs r
  have hb : Windowed (bmsTick ((gw01Plant cfg ems).ctx s inputs) r).1 := by
    rw [hbms]
    exact windowed_balance h
  have hbled : Balancing.default.active r = true →
      (bmsTick ((gw01Plant cfg ems).ctx s inputs) r).1.soc =
        r.soc - Balancing.default.bleedingShare * bled r := by
    rw [hbms]
    exact balance_soc h.ok
  have hrack : ((gw01Plant cfg ems).ctx s inputs).cfg.rack = gw01Rack := hcfg
  have hdt : ((gw01Plant cfg ems).ctx s inputs).dtS = 1 := tickS_real
  set b := (bmsTick ((gw01Plant cfg ems).ctx s inputs) r).1 with hbdef
  set p := requestOf ((gw01Plant cfg ems).ctx s inputs) perRackW r with hp
  have hcarry := windowed_carry hb (current_le_margin hb p hhi) (margin_le_current hb p hlo)
    (abs_current_le hb p)
  cases hin : b.inService with
  | true =>
    have hstep : Ecm1Rc.lfp314ahRack.stepRack b gw01Rack p 1 =
        Ecm1Rc.lfp314ahRack.carry b gw01Rack (Ecm1Rc.lfp314ahRack.current b gw01Rack p 1) 1 := by
      rw [Ecm1Rc.stepRack, if_pos hin]
    rw [hcell, hstep]
    refine ⟨hcarry.1, ⟨?_, ?_⟩⟩
    · rw [hrack, hdt]
      exact hbled
    · intro _
      rw [hrack, hdt, hcell, hstep]
      exact hcarry.2
  | false =>
    have hstep : Ecm1Rc.lfp314ahRack.stepRack b gw01Rack p 1 =
        Ecm1Rc.lfp314ahRack.restRack b gw01Rack 1 := by
      rw [Ecm1Rc.stepRack, if_neg (by simp [hin])]
    rw [hcell, hstep]
    refine ⟨windowed_rest hb, ⟨?_, ?_⟩⟩
    · rw [hrack, hdt]
      exact hbled
    · intro hon
      rw [← hbdef, hin] at hon
      cases hon

/-- The word of a rack inside the window says neither high nor low. -/
theorem windowed_word {r : RackState ℝ} (h : Windowed r) :
    Windowed (wordRack (gw01Models cfg ems) cfg r) := by
  have hword : (wordRack (gw01Models cfg ems) cfg r).alarmBits =
      BasicBms.default.rackAlarms r gw01Rack := by
    rw [← hcfg]
    rfl
  have hhigh : rising (hasBit r.alarmBits RackBit.SOC_HIGH) r.soc
      ⟨gw01Rack.socMax + BasicBms.default.alarms.socMargin, gw01Rack.socMax⟩ = false := by
    have := h.soc_le
    rw [h.high, rising, if_neg (by decide), decide_eq_false_iff_not, not_le]
    norm_num [BasicBms.default, RackAlarmThresholds.default] at this ⊢
    linarith
  have hlow : falling (hasBit r.alarmBits RackBit.SOC_LOW) r.soc
      ⟨gw01Rack.socMin - BasicBms.default.alarms.socMargin, gw01Rack.socMin⟩ = false := by
    have := h.soc_ge
    rw [h.low, falling, if_neg (by decide), decide_eq_false_iff_not, not_le]
    norm_num [BasicBms.default, RackAlarmThresholds.default] at this ⊢
    linarith
  refine ⟨h.ok.of_eq rfl rfl rfl rfl rfl, h.soc_ge, h.soc_le, h.scale_le, h.polarization, ?_, ?_⟩
  · rw [hword, BasicBms.rackAlarms, ← hhigh]
    apply RackAlarmThresholds.hasBit_evaluate
    simp [RackAlarmThresholds.bits]
  · rw [hword, BasicBms.rackAlarms, ← hlow]
    apply RackAlarmThresholds.hasBit_evaluate
    simp [RackAlarmThresholds.bits]

theorem windowed_tick : KeptByTick (gw01Plant cfg ems) Windowed where
  electrical s inputs perRackW _ h := (windowed_electrical hcfg ems s inputs h perRackW).1
  thermal := lumpedThermal_keeps LumpedThermal.default fun _ _ h =>
    ⟨h.ok.of_eq rfl rfl rfl rfl rfl, h.soc_ge, h.soc_le, h.scale_le, h.polarization, h.high, h.low⟩
  word _ h := windowed_word hcfg ems h

end

theorem windowed_edit {f : RackState ℝ → RackState ℝ} (he : RackEdit f) (r : RackState ℝ)
    (h : Windowed r) : Windowed (f r) := by
  have hok := rackOk_edit he r h.ok
  cases he with
  | service on => exact ⟨hok, h.soc_ge, h.soc_le, h.scale_le, h.polarization, h.high, h.low⟩
  | excess ppm => exact ⟨hok, h.soc_ge, h.soc_le, h.scale_le, h.polarization, h.high, h.low⟩
  | unlatch =>
    have hbit : ∀ i, hasBit r.alarmBits i = false → hasBit r.unlatch.alarmBits i = false := by
      intro i hi
      rw [RackState.unlatch, hasBit_and_not_trip, hi, Bool.false_and]
    exact ⟨hok, h.soc_ge, h.soc_le, h.scale_le, h.polarization, hbit _ h.high, hbit _ h.low⟩

/-- The initial SoC is half, give or take the commissioning offset. -/
theorem near_half {u : ℝ} (h : -0.005 ≤ u ∧ u ≤ 0.005) : 0.05 ≤ 0.5 + u ∧ 0.5 + u ≤ 0.95 := by
  norm_num at h ⊢
  constructor
  · linarith
  · linarith

theorem windowed_new (g : Streams) :
    Windowed (RackState.new (PlantConfig.gw01 : PlantConfig ℝ) g ()).2 := by
  have hok := rackOk_new (PlantConfig.gw01 : PlantConfig ℝ) g
  have hu := uniform_mem g.rng (-0.005 : ℝ) 0.005 (by norm_num)
  have hs := (uniform_mem (g.rng.uniform (-0.005 : ℝ) 0.005).2 0.97 1.03 (by norm_num)).2
  have hinit : (PlantConfig.gw01 : PlantConfig ℝ).initialSoc = 0.5 := rfl
  obtain ⟨hmin, hmax⟩ := near_half hu
  have hsoc : (RackState.new (PlantConfig.gw01 : PlantConfig ℝ) g ()).2.soc =
      0.5 + (g.rng.uniform (-0.005 : ℝ) 0.005).1 := by
    apply clamp_unit
    · rw [hinit]
      exact le_trans (by norm_num) hmin
    · rw [hinit]
      exact hmax.trans (by norm_num)
  refine ⟨hok, ?_, ?_, hs, ?_, hasBit_zero _, hasBit_zero _⟩
  · rw [hsoc]
    exact hmin
  · rw [hsoc]
    exact hmax
  · have hzero : (RackState.new (PlantConfig.gw01 : PlantConfig ℝ) g ()).2.polarizationV = 0 := rfl
    rw [hzero, abs_zero, polarizationMax]
    apply mul_nonneg (mul_nonneg _ hok.scale.le)
    · norm_num
    · norm_num [Ecm1Rc.lfp314ahRack]

/-- What holds of every rack of every reachable state. -/
structure InWindow (cfg : RackConfig ℝ) (r : RackState ℝ) : Prop where
  soc_ge : cfg.socMin ≤ r.soc
  soc_le : r.soc ≤ cfg.socMax
  high : hasBit r.alarmBits RackBit.SOC_HIGH = false
  low : hasBit r.alarmBits RackBit.SOC_LOW = false
  polarization : |r.polarizationV| ≤
    Ecm1Rc.lfp314ahRack.r1Ohm * r.resistanceScale * cfg.maxCurrentA

/-- In every reachable state of the reference plant every rack is inside its
SoC window, with neither SoC alarm and a bounded polarization, and no clamp of
its next tick discards charge. -/
theorem soc_window (ems : EmsStrategy ℝ) (seed : UInt64) (t : Int) (moves : List (Move ℝ)) :
    let sim := (Simulation.new PlantConfig.gw01 (gw01Models PlantConfig.gw01 ems) seed t).run moves
    ForallRacks (InWindow sim.cfg.rack) sim.state ∧
      ∀ inputs perRackW,
        ForallRacks (KeepsCharge (sim.plant.ctx sim.state inputs) perRackW) sim.state := by
  intro sim
  have hpl : sim.plant = gw01Plant PlantConfig.gw01 ems :=
    run_plant (sound_new PlantConfig.gw01 (gw01Models PlantConfig.gw01 ems) seed t) moves
  have hcfg : sim.cfg = PlantConfig.gw01 := congrArg Plant.cfg hpl
  have hw : ForallRacks Windowed sim.state :=
    forallRacks_run seed t windowed_new (fun _ he => windowed_edit he) (windowed_tick rfl ems) moves
  constructor
  · intro b hb c hc r hr
    have h := hw b hb c hc r hr
    rw [hcfg]
    exact ⟨h.soc_ge, h.soc_le, h.high, h.low, h.polarization⟩
  · intro inputs perRackW b hb c hc r hr
    rw [hpl]
    exact (windowed_electrical rfl ems sim.state inputs (hw b hb c hc r hr) perRackW).2

end BessSoc
