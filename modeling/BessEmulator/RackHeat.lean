import BessEmulator.Capability
import BessEmulator.SocWindow

/-!
# What conversion and delivery lose

The converter loses something at every power. A rack's heat is chemical less
terminal power, so beside the resistance it carries what the RC branch takes up
and gives back; it is negative exactly for a small request against the
polarization.
-/
namespace BessLosses

open Bess BessCapability BessSoc

section

variable {ratedW : ℝ}

/-- The loss curve has no root: a converter always loses something. -/
theorem lossW_nonneg (h : 0 < ratedW) (x : ℝ) :
    0 ≤ (CurvePcs.cecUtilityReference ratedW).lossW x := by
  have hcurve : ∀ q : ℝ, 0 ≤ (2.464096e-3 : ℝ) + -1.402627e-3 * q + 2.144562e-2 * q * q := by
    intro q
    norm_num
    nlinarith [sq_nonneg (q - 327 / 10000)]
  exact mul_nonneg (hcurve (x / ratedW)) h.le

theorem discharge_loss (h : 0 < ratedW) {p : ℝ} (hp : 0 < p) :
    0 ≤ p - (CurvePcs.cecUtilityReference ratedW).dischargeAcW p := by
  set m : CurvePcs ℝ := CurvePcs.cecUtilityReference ratedW with hm
  have hs : Sane m := sane_reference h
  have hdisc : 4 * curvature m * (m.k0 * m.ratedW - p) ≤ (1 + m.k1) * (1 + m.k1) := by
    have he : 4 * curvature m * (m.k0 * m.ratedW) = 4 * (curvature m * m.ratedW) * m.k0 := by ring
    rw [mul_sub, he, curvature_rated hs]
    have := mul_nonneg (curvature_pos hs).le hp.le
    linarith [hs.dischargeCovered]
  have hval := Parabola.value_small (curvature_pos hs) hdisc
  set x := -Parabola.small (curvature m) (1 + m.k1) (m.k0 * m.ratedW - p) with hx
  rw [← neg_neg (Parabola.small (curvature m) (1 + m.k1) (m.k0 * m.ratedW - p)), ← hx] at hval
  have hpx : p = x + m.lossW x := by
    have := add_lossW hs x
    rw [hval] at this
    linarith
  rw [dischargeAcW_eq, ← hx]
  rcases le_total x 0 with h0 | h0
  · rw [max_eq_right h0]
    linarith
  · rw [max_eq_left h0]
    have := lossW_nonneg h x
    rw [← hm] at this
    linarith

/-- Charging too, up to far beyond any rating: past that the curve turns. -/
theorem charge_loss (h : 0 < ratedW) {p : ℝ} (hp : p ≤ 11 * ratedW) :
    0 ≤ (CurvePcs.cecUtilityReference ratedW).chargeAcAbsW p - p := by
  set m : CurvePcs ℝ := CurvePcs.cecUtilityReference ratedW with hm
  have hs : Sane m := sane_reference h
  have hdisc : 4 * curvature m * (m.k0 * m.ratedW + p) ≤ (1 - m.k1) * (1 - m.k1) := by
    have hc : curvature m * p ≤ curvature m * (11 * m.ratedW) :=
      mul_le_mul_of_nonneg_left hp (curvature_pos hs).le
    have he : 4 * curvature m * (m.k0 * m.ratedW + p) =
        4 * (curvature m * m.ratedW) * m.k0 + 4 * (curvature m * p) := by ring
    have he' : curvature m * (11 * m.ratedW) = 11 * (curvature m * m.ratedW) := by ring
    rw [he', curvature_rated hs] at hc
    rw [he, curvature_rated hs]
    norm_num [hm, CurvePcs.cecUtilityReference] at hc ⊢
    linarith
  have hval := Parabola.value_small (curvature_pos hs) hdisc
  rw [chargeAcAbsW_eq]
  set x := Parabola.small (curvature m) (1 - m.k1) (m.k0 * m.ratedW + p) with hx
  have hpx := neg_add_lossW hs x
  rw [hval] at hpx
  have := lossW_nonneg h x
  rw [← hm] at this
  linarith

theorem acOf_loss (h : 0 < ratedW) {p : ℝ} (hp : -(11 * ratedW) ≤ p) :
    0 ≤ p - (CurvePcs.cecUtilityReference ratedW).acOf p := by
  rw [CurvePcs.acOf]
  split
  · exact discharge_loss h ‹_›
  · split
    · have := charge_loss h (p := -p) (by linarith)
      linarith
    · rw [sub_zero]
      exact not_lt.mp ‹_›

end

theorem clamp_lt_iff {x lo hi y : ℝ} (hlo : lo < y) (hhi : y ≤ hi) :
    Scalar.clamp x lo hi < y ↔ x < y := by
  rw [Scalar.clamp_eq (hlo.le.trans hhi), max_lt_iff, min_lt_iff]
  constructor
  · rintro ⟨-, hover | hx⟩
    · exact absurd hhi (not_le.mpr hover)
    · exact hx
  · intro hx
    exact ⟨hlo, .inr hx⟩

theorem lt_clamp_iff {x lo hi y : ℝ} (hlo : lo ≤ y) (hhi : y < hi) :
    y < Scalar.clamp x lo hi ↔ y < x := by
  rw [Scalar.clamp_eq (hlo.trans hhi.le), lt_max_iff, lt_min_iff]
  constructor
  · rintro (hunder | ⟨-, hx⟩)
    · exact absurd hlo (not_le.mpr hunder)
    · exact hx
  · intro hx
    exact .inr ⟨hhi, hx⟩

theorem ocv_mem (soc : ℝ) : 1206.4 ≤ ocvRackV soc gw01Rack ∧ ocvRackV soc gw01Rack ≤ 1435.2 := by
  have hocv := ocvCellV_mem soc
  rw [gw01Rack_ocv]
  norm_num at hocv ⊢
  constructor
  · linarith [hocv.1]
  · linarith [hocv.2]

/-- Products of equal signs have equal signs. -/
theorem mul_neg_congr {a b c d : ℝ} (hpos : 0 < a ↔ 0 < c) (hneg : a < 0 ↔ c < 0)
    (hpos' : 0 < b ↔ 0 < d) (hneg' : b < 0 ↔ d < 0) : a * b < 0 ↔ c * d < 0 := by
  rw [mul_neg_iff, mul_neg_iff, hpos, hneg, hpos', hneg']

/-- Cutting a request at the peak leaves it on its side of any power below it. -/
theorem request_side {p q y : ℝ} (hy : y < q) : (min p q < y ↔ p < y) ∧ (y < min p q ↔ y < p) := by
  constructor
  · rw [min_lt_iff]
    exact ⟨fun hlt => hlt.resolve_right (by linarith), .inl⟩
  · rw [lt_min_iff]
    exact ⟨fun hlt => hlt.1, fun hlt => ⟨hlt, hy⟩⟩

theorem request_small {p q : ℝ} (hq : (Scalar.epsilon : ℝ) ≤ q) :
    Scalar.epsilon ≤ |min p q| ↔ (Scalar.epsilon : ℝ) ≤ |p| := by
  rcases le_total p q with hp | hp
  · rw [min_eq_left hp]
  · rw [min_eq_right hp]
    constructor
    · intro _
      exact (hq.trans hp).trans (le_abs_self p)
    · intro _
      exact hq.trans (le_abs_self q)

theorem currentFor_eq (r0 e p : ℝ) :
    Ecm1Rc.currentFor r0 e p = if |p| < Scalar.epsilon then 0 else Parabola.small r0 e p := by
  rw [Ecm1Rc.currentFor, Scalar.abs_real, Scalar.sqrt_real]
  norm_num [Parabola.small]

theorem epsilon_le_one : (Scalar.epsilon : ℝ) ≤ 1 := by
  simp only [Scalar.epsilon]
  norm_num

/-- Series resistance of a rack. -/
noncomputable def seriesOhm (r : RackState ℝ) : ℝ := Ecm1Rc.lfp314ahRack.r0Ohm * r.resistanceScale

/-- A current of one tick: what the resistance takes and what the RC branch takes or gives. -/
theorem carry_heat (r : RackState ℝ) (cfg : RackConfig ℝ) (i dtS : ℝ) :
    (Ecm1Rc.lfp314ahRack.carry r cfg i dtS).2.heatW =
      seriesOhm r * i * i + r.polarizationV * i := by
  simp only [Ecm1Rc.carry, seriesOhm]
  ring

/-- The current at which the RC branch gives back exactly what the resistance takes. -/
noncomputable def balancedA (r : RackState ℝ) : ℝ := -r.polarizationV / seriesOhm r

/-- Asked for a power of the other sign than its polarization, and for less than
the branch gives back on its own: strictly between zero and `-ocv * v1 / r0`. -/
def AgainstPolarization (r : RackState ℝ) (p : ℝ) : Prop :=
  Scalar.epsilon ≤ |p| ∧ p * (seriesOhm r * p + ocvRackV r.soc gw01Rack * r.polarizationV) < 0

section

variable {r : RackState ℝ} (h : Windowed r)
include h

theorem seriesOhm_pos : 0 < seriesOhm r := scale_pos h

theorem seriesOhm_le : seriesOhm r ≤ 0.2884 := by
  have := h.scale_le
  rw [seriesOhm]
  norm_num [Ecm1Rc.lfp314ahRack] at this ⊢
  linarith

theorem abs_polarization_le : |r.polarizationV| ≤ 19.41 := by
  have hp := h.polarization
  have hscale := h.scale_le
  rw [polarizationMax, gw01Rack_maxCurrent] at hp
  norm_num [Ecm1Rc.lfp314ahRack] at hp hscale ⊢
  linarith

/-- The branch never balances more than a fraction of the largest current. -/
theorem abs_balancedA_le : |balancedA r| ≤ 68 := by
  have hp := h.polarization
  have hscale := h.ok.scale
  rw [polarizationMax, gw01Rack_maxCurrent] at hp
  rw [balancedA, abs_div, abs_neg, abs_of_pos (seriesOhm_pos h), div_le_iff₀ (seriesOhm_pos h), seriesOhm]
  norm_num [Ecm1Rc.lfp314ahRack] at hp ⊢
  linarith

theorem balanced_value : Parabola.value (seriesOhm r) (emf r) (balancedA r) =
    -(ocvRackV r.soc gw01Rack * r.polarizationV) / seriesOhm r := by
  have hne := (seriesOhm_pos h).ne'
  rw [Parabola.value, balancedA, emf]
  field_simp
  ring

theorem balanced_side : 2 * seriesOhm r * balancedA r < emf r := by
  have hp := abs_le.mp (abs_polarization_le h)
  have hocv := (ocv_mem r.soc).1
  have hid : 2 * seriesOhm r * balancedA r = -2 * r.polarizationV := by
    rw [balancedA, mul_assoc, mul_div_cancel₀ _ (seriesOhm_pos h).ne']
    ring
  rw [hid, emf]
  norm_num at hp hocv ⊢
  linarith [hp.1]

/-- The root is on the side of a current on which the power is of its power. -/
theorem small_lt_iff {x y : ℝ} (hx : 2 * seriesOhm r * x ≤ emf r)
    (hy : 4 * seriesOhm r * y ≤ emf r * emf r) :
    (Parabola.small (seriesOhm r) (emf r) y < x ↔ y < Parabola.value (seriesOhm r) (emf r) x) ∧
      (x < Parabola.small (seriesOhm r) (emf r) y ↔
        Parabola.value (seriesOhm r) (emf r) x < y) := by
  have hr := seriesOhm_pos h
  constructor
  · constructor
    · exact Parabola.lt_value_of_small_lt hr hx hy
    · intro hlt
      by_contra hn
      have := Parabola.value_le_of_le_small hr hx (not_lt.mp hn)
      linarith
  · constructor
    · intro hlt
      have hv := Parabola.value_lt hr (Parabola.small_le (b := emf r) (y := y) hr) hlt
      rwa [Parabola.value_small hr hy] at hv
    · intro hlt
      by_contra hn
      have := Parabola.le_value_of_small_le hr hx hy (not_lt.mp hn)
      linarith

/-- The bounds on a tick's current leave it on its side of any small current. -/
theorem current_side (p : ℝ) {x : ℝ} (hx : |x| ≤ 68) :
    let root := Ecm1Rc.currentFor (seriesOhm r) (emf r)
      (min p (0.999 * (emf r * emf r / (4.0 * seriesOhm r))))
    (Ecm1Rc.lfp314ahRack.current r gw01Rack p 1 < x ↔ root < x) ∧
      (x < Ecm1Rc.lfp314ahRack.current r gw01Rack p 1 ↔ x < root) := by
  intro root
  obtain ⟨hx0, hx1⟩ := abs_le.mp hx
  have hmin : (0.05 : ℝ) ≤ r.soc := h.soc_ge
  have hmax : r.soc ≤ (0.95 : ℝ) := h.soc_le
  have hd : 68 < r.soc * capacityAh r gw01Rack * 3600.0 / 1 := by
    rw [capacityAh_eq h.ok.soh, gw01Rack_capacity]
    norm_num at hmin ⊢
    linarith
  have hc : 68 < (1.0 - r.soc) * capacityAh r gw01Rack * 3600.0 / 1 := by
    rw [capacityAh_eq h.ok.soh, gw01Rack_capacity]
    norm_num at hmax ⊢
    linarith
  have hi : Ecm1Rc.lfp314ahRack.current r gw01Rack p 1 =
      Scalar.clamp (Scalar.clamp root (-gw01Rack.maxCurrentA) gw01Rack.maxCurrentA)
        (-((1.0 - r.soc) * capacityAh r gw01Rack * 3600.0 / 1))
        (r.soc * capacityAh r gw01Rack * 3600.0 / 1) := rfl
  have hI := gw01Rack_maxCurrent
  rw [hi]
  constructor
  · rw [clamp_lt_iff (by linarith) (by linarith), clamp_lt_iff (by linarith) (by linarith)]
  · rw [lt_clamp_iff (by linarith) (by linarith), lt_clamp_iff (by linarith) (by linarith)]

/-- The peak of a rack's terminal power, far above what any branch gives back. -/
theorem peak_ge : 1000000 ≤ 0.999 * (emf r * emf r / (4.0 * seriesOhm r)) := by
  have he := emf_ge h
  have hr := seriesOhm_pos h
  have hle := seriesOhm_le h
  have hsq : 1180 * 1180 ≤ emf r * emf r := mul_le_mul he he (by norm_num) (by linarith)
  have hdiv : 1180 * 1180 / (4.0 * 0.2884) ≤ emf r * emf r / (4.0 * seriesOhm r) := by gcongr
  norm_num at hdiv ⊢
  linarith

theorem balanced_power_le : |-(ocvRackV r.soc gw01Rack * r.polarizationV) / seriesOhm r| ≤ 100000 := by
  have hx := abs_balancedA_le h
  obtain ⟨hlo, hhi⟩ := ocv_mem r.soc
  have hid : -(ocvRackV r.soc gw01Rack * r.polarizationV) / seriesOhm r =
      ocvRackV r.soc gw01Rack * balancedA r := by
    rw [balancedA]
    ring
  rw [hid, abs_mul, abs_of_nonneg (by linarith : 0 ≤ ocvRackV r.soc gw01Rack)]
  calc ocvRackV r.soc gw01Rack * |balancedA r| ≤ 1435.2 * 68 :=
        mul_le_mul hhi hx (abs_nonneg _) (by norm_num)
    _ ≤ 100000 := by norm_num

/-- The peak is within reach of the root. -/
theorem peak_disc :
    4 * seriesOhm r * (0.999 * (emf r * emf r / (4.0 * seriesOhm r))) ≤ emf r * emf r := by
  have hr := (seriesOhm_pos h).ne'
  have hid : 4 * seriesOhm r * (0.999 * (emf r * emf r / (4.0 * seriesOhm r))) =
      0.999 * (emf r * emf r) := by
    norm_num
    field_simp
  rw [hid]
  nlinarith [mul_self_nonneg (emf r)]

/-- The root opposes the polarization exactly when the power asked for does. -/
theorem root_neg_iff (p : ℝ) {q : ℝ} (hpeak : 1000000 ≤ q)
    (hdisc : 4 * seriesOhm r * q ≤ emf r * emf r) :
    Ecm1Rc.currentFor (seriesOhm r) (emf r) (min p q)
        * (Ecm1Rc.currentFor (seriesOhm r) (emf r) (min p q) - balancedA r) < 0 ↔
      AgainstPolarization r p := by
  have hr := seriesOhm_pos h
  have hbal := abs_le.mp (balanced_power_le h)
  set y := -(ocvRackV r.soc gw01Rack * r.polarizationV) / seriesOhm r with hy
  have hsmall : Scalar.epsilon ≤ |min p q| ↔ (Scalar.epsilon : ℝ) ≤ |p| :=
    request_small (epsilon_le_one.trans (by linarith))
  rw [currentFor_eq]
  by_cases hp : |min p q| < Scalar.epsilon
  · rw [if_pos hp, zero_mul]
    simp only [lt_irrefl, false_iff]
    exact fun ha => absurd (hsmall.mpr ha.1) (not_le.mpr hp)
  · rw [if_neg hp]
    have hdisc' : 4 * seriesOhm r * min p q ≤ emf r * emf r :=
      (mul_le_mul_of_nonneg_left (min_le_right p q) (by positivity)).trans hdisc
    have hzero : Parabola.value (seriesOhm r) (emf r) 0 = 0 := by simp [Parabola.value]
    have hside0 := small_lt_iff h (x := 0) (by linarith [emf_pos h]) hdisc'
    have hsidex := small_lt_iff h (balanced_side h).le hdisc'
    rw [hzero] at hside0
    rw [balanced_value h, ← hy] at hsidex
    have hcut0 := request_side (p := p) (q := q) (y := 0) (by linarith)
    have hcuty := request_side (p := p) (q := q) (y := y) (by linarith)
    have hscale : seriesOhm r * p + ocvRackV r.soc gw01Rack * r.polarizationV =
        seriesOhm r * (p - y) := by
      rw [hy, mul_sub, mul_div_cancel₀ _ hr.ne']
      ring
    have hpos : 0 < p - y ↔ 0 < seriesOhm r * (p - y) := (mul_pos_iff_of_pos_left hr).symm
    have hneg : p - y < 0 ↔ seriesOhm r * (p - y) < 0 := ⟨mul_neg_of_pos_of_neg hr, fun hlt => neg_of_mul_neg_right hlt hr.le⟩
    have hiff : Parabola.small (seriesOhm r) (emf r) (min p q)
          * (Parabola.small (seriesOhm r) (emf r) (min p q) - balancedA r) < 0 ↔
        p * (seriesOhm r * p + ocvRackV r.soc gw01Rack * r.polarizationV) < 0 := by
      rw [hscale]
      apply mul_neg_congr
      · rw [hside0.2, hcut0.2]
      · rw [hside0.1, hcut0.1]
      · rw [sub_pos, hsidex.2, hcuty.2, ← hpos, sub_pos]
      · rw [sub_neg, hsidex.1, hcuty.1, ← hneg, sub_neg]
    rw [hiff, AgainstPolarization]
    exact ⟨fun hlt => ⟨hsmall.mp (not_lt.mp hp), hlt⟩, fun ha => ha.2⟩

/-- A rack in service books a negative heat exactly against its polarization. -/
theorem heat_neg_iff (hin : r.inService = true) (p : ℝ) :
    (Ecm1Rc.lfp314ahRack.stepRack r gw01Rack p 1).2.heatW < 0 ↔ AgainstPolarization r p := by
  have hr := seriesOhm_pos h
  set i := Ecm1Rc.lfp314ahRack.current r gw01Rack p 1 with hi
  have hheat : (Ecm1Rc.lfp314ahRack.stepRack r gw01Rack p 1).2.heatW =
      seriesOhm r * (i * (i - balancedA r)) := by
    rw [Ecm1Rc.stepRack, if_pos hin, carry_heat, ← hi, mul_sub, mul_sub]
    have hid : seriesOhm r * (i * balancedA r) = -r.polarizationV * i := by
      rw [balancedA]
      field_simp
    rw [hid]
    ring
  have hside0 := current_side h p (x := 0) (by norm_num)
  have hsidex := current_side h p (abs_balancedA_le h)
  rw [hheat, ← root_neg_iff h p (peak_ge h) (peak_disc h), mul_neg_iff]
  have hiff := mul_neg_congr hside0.2 hside0.1
    ((sub_pos.trans hsidex.2).trans sub_pos.symm) ((sub_neg.trans hsidex.1).trans sub_neg.symm)
  constructor
  · rintro (⟨_, hlt⟩ | ⟨hneg, _⟩)
    · exact hiff.mp hlt
    · linarith
  · exact fun hlt => .inl ⟨hr, hiff.mpr hlt⟩

end

/-- Terminal power of one rack, within what its current and voltages allow. -/
theorem stepRack_power {r : RackState ℝ} (h : Windowed r) (p : ℝ) :
    |(Ecm1Rc.lfp314ahRack.stepRack r gw01Rack p 1).2.pDcW| ≤ 500000 := by
  rw [Ecm1Rc.stepRack]
  split
  · have hi := abs_current_le h p
    set i := Ecm1Rc.lfp314ahRack.current r gw01Rack p 1 with hidef
    have hp : (Ecm1Rc.lfp314ahRack.carry r gw01Rack i 1).2.pDcW =
        (ocvRackV r.soc gw01Rack - r.polarizationV - seriesOhm r * i) * i := rfl
    rw [gw01Rack_maxCurrent] at hi
    obtain ⟨ho0, ho1⟩ := ocv_mem r.soc
    have hv := abs_le.mp (abs_polarization_le h)
    have hohm : |seriesOhm r * i| ≤ 0.2884 * 314 := by
      rw [abs_mul, abs_of_pos (seriesOhm_pos h)]
      exact mul_le_mul (seriesOhm_le h) hi (abs_nonneg _) (by norm_num)
    have hr := abs_le.mp hohm
    have he : |ocvRackV r.soc gw01Rack - r.polarizationV - seriesOhm r * i| ≤ 1546 := by
      norm_num at ho0 ho1 hv hr
      rw [abs_le]
      constructor
      · linarith [hv.2, hr.2]
      · linarith [hv.1, hr.1]
    rw [hp, abs_mul]
    calc |ocvRackV r.soc gw01Rack - r.polarizationV - seriesOhm r * i| * |i| ≤ 1546 * 314 :=
          mul_le_mul he hi (abs_nonneg _) (by norm_num)
      _ ≤ 500000 := by norm_num
  · simp [Ecm1Rc.restRack]

end BessLosses
