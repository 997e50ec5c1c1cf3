import BessEmulator.Gw01
import BessEmulator.Parabola
import BessEmulator.Tick

/-!
# What a converter says it can deliver

Capability, request and conversion invert one loss parabola. They agree
wherever the racks can charge at all. A block whose racks cannot charge is
still credited with the no-load loss, which no conversion draws.
-/
namespace BessCapability

open Bess Parabola

/-- A loss curve whose turning points lie beyond the rating. -/
structure Sane (m : CurvePcs ℝ) : Prop where
  rated : 0 < m.ratedW
  noLoad : 0 < m.k0
  ohmic : 0 < m.k2
  charging : 2 * m.k2 ≤ 1 - m.k1
  noLoadCovered : 4 * m.k2 * m.k0 < (1 - m.k1) * (1 - m.k1)
  dischargeCovered : 4 * m.k2 * m.k0 ≤ (1 + m.k1) * (1 + m.k1)
  discharging : 0 < 1 + m.k1
  fullLoad : m.k0 < 1 - m.k1 - m.k2
  standby : 0 < m.standbyThresholdW

theorem sane_reference {ratedW : ℝ} (h : 0 < ratedW) : Sane (CurvePcs.cecUtilityReference ratedW) := by
  constructor
  all_goals norm_num [CurvePcs.cecUtilityReference]
  exact h

section

variable {m : CurvePcs ℝ}

/-- The quadratic coefficient in watts. -/
noncomputable def curvature (m : CurvePcs ℝ) : ℝ := m.k2 / m.ratedW

theorem curvature_pos (h : Sane m) : 0 < curvature m := div_pos h.ohmic h.rated

theorem curvature_rated (h : Sane m) : curvature m * m.ratedW = m.k2 :=
  div_mul_cancel₀ _ h.rated.ne'

theorem sqrt_max_zero (d : ℝ) : √(max d 0) = √d := by
  rcases le_total d 0 with h | h
  · rw [max_eq_right h, Real.sqrt_zero, Real.sqrt_eq_zero_of_nonpos h]
  · rw [max_eq_left h]

theorem chargeAcAbsW_eq (m : CurvePcs ℝ) (p : ℝ) :
    m.chargeAcAbsW p = small (curvature m) (1 - m.k1) (m.k0 * m.ratedW + p) := by
  simp only [CurvePcs.chargeAcAbsW, Scalar.sqrt_real, sqrt_max_zero, small, curvature]
  norm_num

theorem dischargeAcW_eq (m : CurvePcs ℝ) (p : ℝ) :
    m.dischargeAcW p = max (-small (curvature m) (1 + m.k1) (m.k0 * m.ratedW - p)) 0 := by
  simp only [CurvePcs.dischargeAcW, Scalar.sqrt_real, sqrt_max_zero, small, curvature]
  norm_num
  rw [← neg_div, neg_sub]
  ring_nf

theorem lossW_eq (h : Sane m) (x : ℝ) :
    m.lossW x = m.k0 * m.ratedW + m.k1 * x + curvature m * x * x := by
  have hr := h.rated.ne'
  simp only [CurvePcs.lossW, curvature]
  field_simp

/-- Charging, the racks get the target less its loss. -/
theorem neg_add_lossW (h : Sane m) (x : ℝ) :
    -x + m.lossW x = m.k0 * m.ratedW - value (curvature m) (1 - m.k1) x := by
  rw [lossW_eq h, value]
  ring

/-- Discharging, the racks give the target and its loss. -/
theorem add_lossW (h : Sane m) (x : ℝ) :
    x + m.lossW x = m.k0 * m.ratedW - value (curvature m) (1 + m.k1) (-x) := by
  rw [lossW_eq h, value]
  ring

end

section

variable {m : CurvePcs ℝ} (h : Sane m) {x : ℝ}
include h

theorem charging_side (hx : x ≤ m.ratedW) : 2 * curvature m * x ≤ 1 - m.k1 := by
  have hc := mul_le_mul_of_nonneg_left hx (curvature_pos h).le
  rw [curvature_rated h] at hc
  linarith [h.charging]

theorem noLoad_disc : 4 * curvature m * (m.k0 * m.ratedW) < (1 - m.k1) * (1 - m.k1) := by
  have he : 4 * curvature m * (m.k0 * m.ratedW) = 4 * (curvature m * m.ratedW) * m.k0 := by ring
  rw [he, curvature_rated h]
  exact h.noLoadCovered

/-- The AC power that only just covers the no-load loss. -/
theorem chargeAcAbsW_zero_pos : 0 < m.chargeAcAbsW 0 := by
  rw [chargeAcAbsW_eq, add_zero]
  apply small_pos (curvature_pos h)
  · linarith [h.charging, h.ohmic]
  · exact mul_pos h.noLoad h.rated

/-- Past the no-load loss and up to the rating, charging takes something. -/
theorem charge_dc_neg (hx : x ≤ m.ratedW) (h0 : m.chargeAcAbsW 0 < x) : -x + m.lossW x < 0 := by
  rw [chargeAcAbsW_eq, add_zero] at h0
  have := lt_value_of_small_lt (curvature_pos h) (charging_side h hx) (noLoad_disc h).le h0
  rw [neg_add_lossW h]
  linarith

theorem noLoad_lt_rated : m.chargeAcAbsW 0 < m.ratedW := by
  rw [chargeAcAbsW_eq, add_zero]
  by_contra hn
  have hle := value_le_of_le_small (curvature_pos h) (charging_side h (le_refl m.ratedW))
    (not_lt.mp hn)
  have hv : value (curvature m) (1 - m.k1) m.ratedW = (1 - m.k1 - m.k2) * m.ratedW := by
    rw [value, curvature_rated h]
    ring
  rw [hv] at hle
  have := mul_lt_mul_of_pos_right h.fullLoad h.rated
  linarith

/-- What charging at `x` sends the racks converts back to `x`. -/
theorem charge_back (hx : x ≤ m.ratedW) : m.chargeAcAbsW (-(-x + m.lossW x)) = x := by
  rw [chargeAcAbsW_eq, neg_add_lossW h]
  have he : m.k0 * m.ratedW + -(m.k0 * m.ratedW - value (curvature m) (1 - m.k1) x) =
      value (curvature m) (1 - m.k1) x := by ring
  rw [he, small_value (curvature_pos h) (charging_side h hx)]

/-- A target within the capability asks no more than the racks take. -/
theorem charge_within {p : ℝ} (hx : x ≤ m.ratedW) (hp : x ≤ m.chargeAcAbsW p) :
    -p ≤ -x + m.lossW x := by
  rw [chargeAcAbsW_eq] at hp
  have := value_le_of_le_small (curvature_pos h) (charging_side h hx) hp
  rw [neg_add_lossW h]
  linarith

theorem discharging_side (hx : 0 ≤ x) : 2 * curvature m * -x ≤ 1 + m.k1 := by
  have := mul_nonneg (curvature_pos h).le hx
  linarith [h.discharging]

theorem discharge_back (hx : 0 ≤ x) : m.dischargeAcW (x + m.lossW x) = x := by
  rw [dischargeAcW_eq, add_lossW h]
  rw [sub_sub_cancel, small_value (curvature_pos h) (discharging_side h hx), neg_neg]
  exact max_eq_left hx

theorem discharge_within {p : ℝ} (hx : 0 < x) (h0 : 0 ≤ p) (hp : x ≤ m.dischargeAcW p) :
    x + m.lossW x ≤ p := by
  rw [dischargeAcW_eq, le_max_iff] at hp
  have hle : x ≤ -small (curvature m) (1 + m.k1) (m.k0 * m.ratedW - p) := by
    rcases hp with hp | hp
    · exact hp
    · linarith
  have hdisc : 4 * curvature m * (m.k0 * m.ratedW - p) ≤ (1 + m.k1) * (1 + m.k1) := by
    have he : 4 * curvature m * (m.k0 * m.ratedW) = 4 * (curvature m * m.ratedW) * m.k0 := by ring
    rw [mul_sub, he, curvature_rated h]
    have := mul_nonneg (curvature_pos h).le h0
    linarith [h.dischargeCovered]
  have := le_value_of_small_le (curvature_pos h) (discharging_side h hx.le) hdisc
    (by linarith : small (curvature m) (1 + m.k1) (m.k0 * m.ratedW - p) ≤ -x)
  rw [add_lossW h]
  linarith

theorem discharge_dc_pos (hx : 0 < x) : 0 < x + m.lossW x := by
  have hk := mul_pos h.noLoad h.rated
  have hl := mul_pos h.discharging hx
  have hq := mul_nonneg (curvature_pos h).le (mul_self_nonneg x)
  rw [lossW_eq h]
  linarith

/-- Racks that cannot discharge cover no loss. -/
theorem dischargeAcW_zero : m.dischargeAcW 0 = 0 := by
  have hs := small_nonneg (curvature_pos h) h.discharging.le (mul_pos h.noLoad h.rated).le
  rw [dischargeAcW_eq, sub_zero]
  exact max_eq_right (by linarith)

end

section

variable {m : CurvePcs ℝ} (h : Sane m) {x y : ℝ}
include h

theorem dischargeAcW_mono (hxy : x ≤ y) : m.dischargeAcW x ≤ m.dischargeAcW y := by
  have hs := small_mono (b := 1 + m.k1) (curvature_pos h) (sub_le_sub_left hxy (m.k0 * m.ratedW))
  rw [dischargeAcW_eq, dischargeAcW_eq]
  exact max_le_max_right 0 (neg_le_neg hs)

theorem chargeAcAbsW_mono (hxy : x ≤ y) : m.chargeAcAbsW x ≤ m.chargeAcAbsW y := by
  rw [chargeAcAbsW_eq, chargeAcAbsW_eq]
  exact small_mono (curvature_pos h) (add_le_add_right hxy _)

omit h in
theorem dischargeAcW_nonneg : 0 ≤ m.dischargeAcW x := by
  rw [dischargeAcW_eq]
  exact le_max_right _ _

theorem chargeAcAbsW_nonneg (hx : 0 ≤ x) : 0 ≤ m.chargeAcAbsW x := by
  have hside : 0 ≤ 1 - m.k1 := by linarith [h.charging, h.ohmic]
  rw [chargeAcAbsW_eq]
  exact small_nonneg (curvature_pos h) hside
    (add_nonneg (mul_pos h.noLoad h.rated).le hx)

/-- What is delivered rises with what is converted. -/
theorem acOf_mono : Monotone m.acOf := by
  intro x y hxy
  rcases lt_trichotomy 0 y with hy | rfl | hy
  · rw [CurvePcs.acOf, CurvePcs.acOf, if_pos hy]
    split
    · exact dischargeAcW_mono h hxy
    · split
      · have hc := chargeAcAbsW_nonneg h (x := -x) (by linarith)
        exact (neg_nonpos.mpr hc).trans dischargeAcW_nonneg
      · exact dischargeAcW_nonneg
  · rw [m.acOf_zero, CurvePcs.acOf, if_neg (not_lt.mpr hxy)]
    split
    · exact neg_nonpos.mpr (chargeAcAbsW_nonneg h (by linarith))
    · exact le_refl 0
  · have hx := lt_of_le_of_lt hxy hy
    rw [CurvePcs.acOf, CurvePcs.acOf, if_neg hx.le.not_gt, if_pos hx, if_neg hy.le.not_gt,
      if_pos hy]
    exact neg_le_neg (chargeAcAbsW_mono h (neg_le_neg hxy))

end

/-- Commanding `p` and delivering exactly the DC power asked for converts to `p`. -/
def Delivers (m : CurvePcs ℝ) (limits : PowerLimits ℝ) (p : ℝ) : Prop :=
  ∀ pcs, (m.pcsModel.finalize pcs (m.pcsModel.dcRequestW p limits)).2 = p

/-- The reported capability is what the converter can do with these limits. -/
structure Deliverable (m : CurvePcs ℝ) (limits : PowerLimits ℝ) : Prop where
  discharge : m.standbyThresholdW ≤ (m.pcsModel.acCapabilityW limits).maxDischargeW →
    Delivers m limits (m.pcsModel.acCapabilityW limits).maxDischargeW
  charge : m.standbyThresholdW ≤ (m.pcsModel.acCapabilityW limits).maxChargeW →
    Delivers m limits (-(m.pcsModel.acCapabilityW limits).maxChargeW)
  idleDischarge : limits.maxDischargeW = 0 →
    (m.pcsModel.acCapabilityW limits).maxDischargeW = 0
  idleCharge : limits.maxChargeW = 0 → (m.pcsModel.acCapabilityW limits).maxChargeW = 0

section

variable {m : CurvePcs ℝ} (h : Sane m) (limits : PowerLimits ℝ) {x : ℝ}
include h

omit h in
theorem clamp_rated {p : ℝ} (hp : |p| ≤ m.ratedW) :
    Scalar.clamp p (-m.ratedW) m.ratedW = p :=
  Scalar.clamp_of_mem (abs_le.mp hp).1 (abs_le.mp hp).2

theorem delivers_discharge_unbound (hthr : m.standbyThresholdW ≤ x) (hx : x ≤ m.ratedW)
    (hlim : x + m.lossW x ≤ limits.maxDischargeW) : Delivers m limits x := by
  intro pcs
  have hpos : 0 < x := lt_of_lt_of_le h.standby hthr
  have habs : |x| = x := abs_of_pos hpos
  have hreq : m.dcRequestW x limits = x + m.lossW x := by
    simp only [CurvePcs.dcRequestW, clamp_rated (habs.le.trans hx), Scalar.abs_real, habs]
    rw [if_neg (not_lt.mpr hthr), if_pos hpos]
    exact min_eq_left hlim
  change m.acOf (m.dcRequestW x limits) = x
  rw [hreq, CurvePcs.acOf, if_pos (discharge_dc_pos h hpos)]
  exact discharge_back h hpos.le

theorem delivers_charge_unbound (hthr : m.standbyThresholdW ≤ x) (hx : x ≤ m.ratedW)
    (hneg : -x + m.lossW x < 0) (hlim : -limits.maxChargeW ≤ -x + m.lossW x) :
    Delivers m limits (-x) := by
  intro pcs
  have hpos : 0 < x := lt_of_lt_of_le h.standby hthr
  have habs : |-x| = x := by rw [abs_neg, abs_of_pos hpos]
  have hreq : m.dcRequestW (-x) limits = -x + m.lossW x := by
    simp only [CurvePcs.dcRequestW, clamp_rated (habs.le.trans hx), Scalar.abs_real, habs]
    rw [if_neg (not_lt.mpr hthr), if_neg (by linarith), min_eq_left hneg.le]
    exact max_eq_left hlim
  change m.acOf (m.dcRequestW (-x) limits) = -x
  rw [hreq, CurvePcs.acOf, if_neg (by linarith), if_pos hneg, charge_back h hx]

theorem delivers_discharge (h0 : 0 ≤ limits.maxDischargeW) (hthr : m.standbyThresholdW ≤ x)
    (hx : x ≤ m.ratedW) (hcap : x ≤ m.dischargeAcW limits.maxDischargeW) :
    Delivers m limits x :=
  delivers_discharge_unbound h limits hthr hx
    (discharge_within h (lt_of_lt_of_le h.standby hthr) h0 hcap)

theorem delivers_charge (hthr : m.standbyThresholdW ≤ x) (hx : x ≤ m.ratedW)
    (hnoLoad : m.chargeAcAbsW 0 < x) (hcap : x ≤ m.chargeAcAbsW limits.maxChargeW) :
    Delivers m limits (-x) :=
  delivers_charge_unbound h limits hthr hx (charge_dc_neg h hx hnoLoad) (charge_within h hx hcap)

/-- Racks that cannot charge are credited with the no-load loss. -/
theorem idle_charge_pos (hc : limits.maxChargeW = 0) :
    0 < (m.pcsModel.acCapabilityW limits).maxChargeW := by
  change 0 < min (m.chargeAcAbsW limits.maxChargeW) m.ratedW
  rw [hc]
  exact lt_min (chargeAcAbsW_zero_pos h) h.rated

theorem deliverable_of_charge (h0 : 0 ≤ limits.maxDischargeW) (hc : 0 < limits.maxChargeW) :
    Deliverable m limits where
  discharge hthr := delivers_discharge h limits h0 hthr (min_le_right _ _) (min_le_left _ _)
  charge hthr := by
    refine delivers_charge h limits hthr (min_le_right _ _) ?_ (min_le_left _ _)
    apply lt_min
    · rw [chargeAcAbsW_eq, chargeAcAbsW_eq, add_zero]
      exact small_lt (curvature_pos h) (noLoad_disc h) (by linarith)
    · exact noLoad_lt_rated h
  idleDischarge hd := by
    change min (m.dischargeAcW limits.maxDischargeW) m.ratedW = 0
    rw [hd, dischargeAcW_zero h]
    exact min_eq_left h.rated.le
  idleCharge hz := absurd hz hc.ne'

end

/-- For the reference converter of any rating: the reported availability is
deliverable exactly when the racks can charge at all. -/
theorem availability_deliverable {ratedW : ℝ} (hr : 0 < ratedW) (limits : PowerLimits ℝ)
    (hc : 0 ≤ limits.maxChargeW) (hd : 0 ≤ limits.maxDischargeW) :
    Deliverable (CurvePcs.cecUtilityReference ratedW) limits ↔ 0 < limits.maxChargeW := by
  have hs := sane_reference hr
  constructor
  · intro h
    by_contra hn
    have hz : limits.maxChargeW = 0 := le_antisymm (not_lt.mp hn) hc
    have hpos := idle_charge_pos hs limits hz
    rw [h.idleCharge hz] at hpos
    exact lt_irrefl 0 hpos
  · exact deliverable_of_charge hs limits hd

/-- The 5 MW converter over racks at half their range. -/
theorem availability_deliverable_gw01 :
    Deliverable (CurvePcs.cecUtilityReference (5.0e6 : ℝ)) ⟨3.0e6, 4.0e6⟩ :=
  (availability_deliverable (by norm_num) ⟨3.0e6, 4.0e6⟩ (by norm_num) (by norm_num)).mpr
    (by norm_num)

/-- The 5 MW converter over full racks: availability it cannot deliver. A block
of them counts at its site (`idle_block_counted`). -/
theorem full_racks_not_deliverable :
    ¬Deliverable (CurvePcs.cecUtilityReference (5.0e6 : ℝ)) ⟨0, 4.0e6⟩ := by
  intro h
  have hr : (0 : ℝ) < 5.0e6 := by norm_num
  have hpos := idle_charge_pos (sane_reference hr) (⟨0, 4.0e6⟩ : PowerLimits ℝ) rfl
  rw [h.idleCharge rfl] at hpos
  exact lt_irrefl 0 hpos

/-- Block limits are the sum over its racks; none can charge, none is had. -/
theorem blockLimits_idle (ctx : TickContext ℝ) (b : BlockState ℝ)
    (h : ∀ r ∈ b.racks, (limitsOf ctx r).maxChargeW = 0) : (blockLimits ctx b).maxChargeW = 0 := by
  have hfold : ∀ (rs : List (RackState ℝ)) (acc : PowerLimits ℝ),
      (∀ r ∈ rs, (limitsOf ctx r).maxChargeW = 0) →
        ((rs.map (limitsOf ctx)).foldl PowerLimits.add acc).maxChargeW = acc.maxChargeW := by
    intro rs
    induction rs with
    | nil => intro acc _; rfl
    | cons r rs ih =>
      intro acc hrs
      rw [List.map_cons, List.foldl_cons, ih _ fun r' hr' => hrs r' (List.mem_cons_of_mem _ hr')]
      rw [PowerLimits.add, hrs r List.mem_cons_self, add_zero]
  exact hfold b.racks PowerLimits.zero h

/-- A dispatchable block whose racks cannot charge still adds to the site's
available charge. -/
theorem idle_block_counted {cfg : PlantConfig ℝ} (hr : 0 < cfg.pcsRatedW) (ems : EmsStrategy ℝ)
    (s : SiteState ℝ) (inputs : Inputs ℝ) (pl : Plant ℝ) (hm : pl.models = gw01Models cfg ems)
    (b : BlockState ℝ × Nat) (hin : pl.inSet s inputs b = true)
    (h : ∀ r ∈ b.1.racks, (limitsOf (pl.ctx s inputs) r).maxChargeW = 0) :
    0 < (pl.outcome s inputs b).acCapability.maxChargeW := by
  have hcap : (pl.outcome s inputs b).acCapability =
      pl.models.pcs.acCapabilityW (blockLimits (pl.ctx s inputs) b.1) := by
    rw [Plant.outcome, hin]
    rfl
  rw [hcap, hm]
  exact idle_charge_pos (sane_reference hr) _ (blockLimits_idle _ _ h)

end BessCapability
