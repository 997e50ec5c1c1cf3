import BessEmulator.RackHeat

/-!
# The conversion round trip

A converter asked for an AC power its rating, its threshold and its racks
allow requests the DC power that converts back to it, loses something whatever
it is given, and delivers more for more.
-/
namespace BessConversion

open Bess BessCapability BessLosses

/-- The limits leave the request for a target alone. -/
def Unbound (m : CurvePcs ℝ) (limits : PowerLimits ℝ) (target : ℝ) : Prop :=
  (0 < target → target + m.lossW |target| ≤ limits.maxDischargeW) ∧
    (target < 0 → -limits.maxChargeW ≤ target + m.lossW |target|)

/-- Within the rating, over the threshold, and larger than its own loss where
the target supplies it. -/
structure InRange (m : CurvePcs ℝ) (target : ℝ) : Prop where
  rated : |target| ≤ m.ratedW
  standby : m.standbyThresholdW ≤ |target|
  charging : target < 0 → m.lossW |target| < |target|

theorem delivers_of_range {m : CurvePcs ℝ} (h : Sane m) {limits : PowerLimits ℝ} {target : ℝ}
    (ht : InRange m target) (hlim : Unbound m limits target) : Delivers m limits target := by
  obtain ⟨hrated, hstandby, hcharging⟩ := ht
  rcases lt_trichotomy target 0 with hneg | rfl | hpos
  · obtain ⟨x, rfl⟩ : ∃ x, target = -x := ⟨-target, (neg_neg target).symm⟩
    have habs : |-x| = x := by rw [abs_neg, abs_of_pos (by linarith)]
    have hloss := hcharging hneg
    have hdc := hlim.2 hneg
    rw [habs] at hrated hstandby hloss hdc
    exact delivers_charge_unbound h limits hstandby hrated (by linarith) hdc
  · rw [abs_zero] at hstandby
    linarith [h.standby]
  · have habs := abs_of_pos hpos
    have hdc := hlim.1 hpos
    rw [habs] at hrated hstandby hdc
    exact delivers_discharge_unbound h limits hstandby hrated hdc

/-- Request and conversion undo each other, and no conversion gains. -/
structure Inverts (m : CurvePcs ℝ) : Prop where
  roundTrip : ∀ limits target, InRange m target → Unbound m limits target →
    ∀ pcs, (m.finalize pcs (m.dcRequestW target limits)).2 = target ∧
      (m.finalize pcs (m.dcRequestW target limits)).1.pAcW = target
  curve : ∀ x, 0 ≤ m.lossW x
  loss : ∀ pcs p, |p| ≤ m.ratedW → 0 ≤ (m.finalize pcs p).1.lossW
  monotone : ∀ pcs, Monotone fun p => (m.finalize pcs p).2

/-- The loss parabola inverts exactly, for the reference coefficients at any rating. -/
theorem curve_inverts {ratedW : ℝ} (hr : 0 < ratedW) :
    Inverts (CurvePcs.cecUtilityReference ratedW) where
  roundTrip limits target ht hlim pcs :=
    have hback := delivers_of_range (sane_reference hr) ht hlim pcs
    ⟨hback, hback⟩
  curve := lossW_nonneg hr
  loss pcs p hp := by
    have hlow : -ratedW ≤ p := (abs_le.mp hp).1
    exact acOf_loss hr (by linarith)
  monotone pcs := acOf_mono (sane_reference hr)

/-- The 5 MW converter of the reference site. -/
theorem curve_inverts_gw01 : Inverts (CurvePcs.cecUtilityReference (5.0e6 : ℝ)) :=
  curve_inverts (by norm_num)

end BessConversion
