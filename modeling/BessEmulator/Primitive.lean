import Mathlib.MeasureTheory.Integral.IntervalIntegral.FundThmCalculus

/-!
# Primitives up to a square

A function that leaves every point of a stretch at the rate another gives
there, up to a square of the step. The rate is then continuous, and the
function is its integral.
-/
namespace Primitive

open Set Asymptotics Topology

/-- On `[a, b]` the function `G` leaves each point at the rate `f`, up to a square. -/
def LeavesAt (C a b : ℝ) (f G : ℝ → ℝ) : Prop :=
  ∀ x ∈ Icc a b, ∀ y ∈ Icc a b, |G y - G x - f x * (y - x)| ≤ C * (y - x) ^ 2

variable {C a b : ℝ} {f G : ℝ → ℝ}

theorem LeavesAt.hasDerivWithinAt (h : LeavesAt C a b f G) {x : ℝ} (hx : x ∈ Icc a b) :
    HasDerivWithinAt G (f x) (Icc a b) x := by
  rw [hasDerivWithinAt_iff_isLittleO]
  have hsq : (fun y => G y - G x - (y - x) • f x) =O[𝓝[Icc a b] x] fun y => ‖y - x‖ ^ 2 := by
    apply IsBigO.of_bound C
    filter_upwards [self_mem_nhdsWithin] with y hy
    have hb := h x hx y hy
    rw [smul_eq_mul, mul_comm, Real.norm_eq_abs, norm_pow, norm_norm, Real.norm_eq_abs, sq_abs]
    exact hb
  exact hsq.trans_isLittleO ((isLittleO_pow_sub_sub x one_lt_two).mono nhdsWithin_le_nhds)

/-- The rate moves by at most twice the constant: the two squares of a step there and back. -/
theorem LeavesAt.rate_sub (h : LeavesAt C a b f G) {x y : ℝ} (hx : x ∈ Icc a b)
    (hy : y ∈ Icc a b) : |f y - f x| ≤ 2 * C * |y - x| := by
  rcases eq_or_ne y x with rfl | hne
  · simp
  · have hpos : 0 < |y - x| := abs_pos.mpr (sub_ne_zero.mpr hne)
    have hthere := h x hx y hy
    have hback := h y hy x hx
    have hsum : |(f y - f x) * (y - x)| ≤ 2 * C * (y - x) ^ 2 := by
      rw [abs_le] at hthere hback ⊢
      constructor
      · nlinarith
      · nlinarith
    rw [abs_mul, ← sq_abs (y - x)] at hsum
    apply le_of_mul_le_mul_right _ hpos
    calc |f y - f x| * |y - x| ≤ 2 * C * |y - x| ^ 2 := hsum
      _ = 2 * C * |y - x| * |y - x| := by ring

theorem LeavesAt.continuousOn (h : LeavesAt C a b f G) : ContinuousOn f (Icc a b) := by
  apply LipschitzOnWith.continuousOn (K := Real.toNNReal (2 * C))
  apply LipschitzOnWith.of_dist_le_mul
  intro y hy x hx
  rw [Real.dist_eq, Real.dist_eq]
  have hb := h.rate_sub hx hy
  calc |f y - f x| ≤ 2 * C * |y - x| := hb
    _ ≤ Real.toNNReal (2 * C) * |y - x| :=
      mul_le_mul_of_nonneg_right (Real.le_coe_toNNReal _) (abs_nonneg _)

theorem LeavesAt.integral_of_le (h : LeavesAt C a b f G) {x y : ℝ} (hx : x ∈ Icc a b)
    (hy : y ∈ Icc a b) (hxy : x ≤ y) : ∫ s in x..y, f s = G y - G x := by
  have hsub : Icc x y ⊆ Icc a b := Icc_subset_Icc hx.1 hy.2
  apply intervalIntegral.integral_eq_sub_of_hasDerivAt_of_le hxy
  · intro s hs
    exact ((h.hasDerivWithinAt (hsub hs)).continuousWithinAt).mono hsub
  · intro s hs
    have hin : Icc a b ∈ 𝓝 s := Icc_mem_nhds (hx.1.trans_lt hs.1) (hs.2.trans_le hy.2)
    exact (h.hasDerivWithinAt (hsub ⟨hs.1.le, hs.2.le⟩)).hasDerivAt hin
  · exact (h.continuousOn.mono hsub).intervalIntegrable_of_Icc hxy

/-- Between any two points of the stretch the function grows by the rate's integral. -/
theorem LeavesAt.integral (h : LeavesAt C a b f G) {x y : ℝ} (hx : x ∈ Icc a b)
    (hy : y ∈ Icc a b) : ∫ s in x..y, f s = G y - G x := by
  rcases le_total x y with hxy | hyx
  · exact h.integral_of_le hx hy hxy
  · rw [intervalIntegral.integral_symm, h.integral_of_le hy hx hyx, neg_sub]

end Primitive
