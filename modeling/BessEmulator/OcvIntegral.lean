import BessEmulator.Cell
import BessEmulator.Primitive

/-!
# The integral of the open-circuit voltage

Two scans over one table: the voltage between its points, and the area under
it trapezoid by trapezoid. On the whole range the second is the integral of
the first, knots included, and off the range both stand still.
-/
namespace Bess

open Set Polyline Primitive

theorem clamp_unit_below {s : ℝ} (h : s ≤ 0) : Scalar.clamp s 0 1 = Scalar.clamp (0 : ℝ) 0 1 := by
  rw [clamp_unit (le_refl 0) zero_le_one, Scalar.clamp_eq zero_le_one,
    min_eq_right (h.trans zero_le_one), max_eq_left h]

theorem clamp_unit_above {s : ℝ} (h : 1 ≤ s) : Scalar.clamp s 0 1 = Scalar.clamp (1 : ℝ) 0 1 := by
  rw [clamp_unit zero_le_one (le_refl 1), Scalar.clamp_eq zero_le_one, min_eq_left h,
    max_eq_right zero_le_one]

theorem ocvCellV_congr {s t : ℝ} (h : Scalar.clamp s 0 1 = Scalar.clamp t 0 1) :
    ocvCellV s = ocvCellV t := by
  rw [ocvCellV_clamp s, h, ← ocvCellV_clamp]

theorem ocvCellIntegralV_congr {s t : ℝ} (h : Scalar.clamp s 0 1 = Scalar.clamp t 0 1) :
    ocvCellIntegralV s = ocvCellIntegralV t := by
  simp only [ocvCellIntegralV, h]

/-- The two scans agree at every pair of points: the integral leaves each at the voltage. -/
theorem ocv_leavesAt : LeavesAt (OCV_SLOPE / 2) 0 1 ocvCellV ocvCellIntegralV := by
  intro x hx y hy
  have h := ocv_linearization hx.1 hx.2 hy.1 hy.2
  have hflip : ocvCellIntegralV y - ocvCellIntegralV x - ocvCellV x * (y - x) =
      ocvCellV x * (x - y) - (ocvCellIntegralV x - ocvCellIntegralV y) := by ring
  have hsq : (y - x) ^ 2 = (x - y) ^ 2 := by ring
  rw [hflip, hsq]
  exact h

theorem ocvCellV_joins {s : ℝ} (h0 : 0 ≤ s) (h1 : s ≤ 1) : Joins OCV_LFP_V s (ocvCellV s) := by
  rw [ocvCellV_scan h0 h1]
  apply scan_joins
  · norm_num
    exact h0
  · simp only [last]
    norm_num
    exact h1

theorem ocvCellIntegralV_zero : ocvCellIntegralV (0 : ℝ) = 0 := by
  rw [ocvCellIntegralV_area (le_refl 0) zero_le_one]
  have h := area_start ocv_rising
  norm_num at h ⊢
  exact h

theorem ocvCellIntegralV_strictMono : StrictMonoOn ocvCellIntegralV (Icc (0 : ℝ) 1) := by
  intro x hx y hy hxy
  have henc := ocv_enclosed hx.1 hxy.le hy.2
  have hvolt := (ocvCellV_mem x).1
  have hpos : 0 < ocvCellV x * (y - x) := mul_pos (by linarith) (by linarith)
  linarith [henc.low]

/-- A curve that reads the line through `points` from `lo` to `hi`, and its integral from `lo`. -/
structure Integrated (points : List (ℝ × ℝ)) (lo hi : ℝ) (curve integral : ℝ → ℝ) : Prop where
  joins : ∀ s ∈ Icc lo hi, Joins points s (curve s)
  start : integral lo = 0
  between : ∀ x ∈ Icc lo hi, ∀ y ∈ Icc lo hi, x ≤ y →
    curve x * (y - x) ≤ integral y - integral x ∧ integral y - integral x ≤ curve y * (y - x)
  increasing : StrictMonoOn integral (Icc lo hi)
  derivative : ∀ s ∈ Icc lo hi, HasDerivWithinAt integral (curve s) (Icc lo hi) s
  area : ∀ x ∈ Icc lo hi, ∀ y ∈ Icc lo hi, ∫ s in x..y, curve s = integral y - integral x
  below : ∀ s ≤ lo, curve s = curve lo ∧ integral s = integral lo
  above : ∀ s ≥ hi, curve s = curve hi ∧ integral s = integral hi

/-- The cell's stored energy is the integral of its voltage. -/
theorem ocv_integrated : Integrated OCV_LFP_V 0 1 ocvCellV ocvCellIntegralV where
  joins := by
    intro s hs
    exact ocvCellV_joins hs.1 hs.2
  start := ocvCellIntegralV_zero
  between := by
    intro x hx y hy hxy
    have h := ocv_enclosed hx.1 hxy hy.2
    exact ⟨h.low, h.high⟩
  increasing := ocvCellIntegralV_strictMono
  derivative := by
    intro s hs
    exact ocv_leavesAt.hasDerivWithinAt hs
  area := by
    intro x hx y hy
    exact ocv_leavesAt.integral hx hy
  below := by
    intro s hs
    have h := clamp_unit_below hs
    exact ⟨ocvCellV_congr h, ocvCellIntegralV_congr h⟩
  above := by
    intro s hs
    have h := clamp_unit_above hs
    exact ⟨ocvCellV_congr h, ocvCellIntegralV_congr h⟩

end Bess
