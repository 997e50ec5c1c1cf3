import BessEmulator.Parts
import Mathlib.Analysis.Real.Sqrt
import Mathlib.Tactic

/-!
# The small root of a parabola

`b x - a x²` rises up to its turning point `b / 2a`; `small` is its inverse
on that side. A converter's loss curve and a rack's terminal power are both
inverted through it.
-/
namespace Parabola

/-- The small root of `b x - a x² = y`; the turning point where there is none. -/
noncomputable def small (a b y : ℝ) : ℝ := (b - √(b * b - 4 * a * y)) / (2 * a)

def value (a b x : ℝ) : ℝ := b * x - a * x * x

variable {a b x y : ℝ}

theorem disc_value (a b x : ℝ) :
    b * b - 4 * a * value a b x = (b - 2 * a * x) * (b - 2 * a * x) := by
  rw [value]
  ring

theorem small_value (ha : 0 < a) (hx : 2 * a * x ≤ b) : small a b (value a b x) = x := by
  rw [small, disc_value, Real.sqrt_mul_self (by linarith), sub_sub_cancel]
  exact mul_div_cancel_left₀ x (by positivity)

theorem value_small (ha : 0 < a) (hy : 4 * a * y ≤ b * b) : value a b (small a b y) = y := by
  have hs : √(b * b - 4 * a * y) * √(b * b - 4 * a * y) = b * b - 4 * a * y :=
    Real.mul_self_sqrt (by linarith)
  have hval : value a b (small a b y) =
      (b * b - √(b * b - 4 * a * y) * √(b * b - 4 * a * y)) / (4 * a) := by
    rw [value, small]
    field_simp
    ring
  rw [hval, hs, sub_sub_cancel]
  exact mul_div_cancel_left₀ y (by positivity)

/-- The small root is on the rising side. -/
theorem small_le (ha : 0 < a) : 2 * a * small a b y ≤ b := by
  rw [small, mul_div_cancel₀ _ (by positivity)]
  linarith [Real.sqrt_nonneg (b * b - 4 * a * y)]

theorem small_mono {y' : ℝ} (ha : 0 < a) (h : y ≤ y') : small a b y ≤ small a b y' := by
  have hd : b * b - 4 * a * y' ≤ b * b - 4 * a * y := by nlinarith
  have hs := Real.sqrt_le_sqrt hd
  simp only [small]
  gcongr

theorem small_lt {y' : ℝ} (ha : 0 < a) (hy : 4 * a * y < b * b) (h : y < y') :
    small a b y < small a b y' := by
  have hd : b * b - 4 * a * y' < b * b - 4 * a * y := by nlinarith
  have hs := (Real.sqrt_lt_sqrt_iff_of_pos (by linarith : 0 < b * b - 4 * a * y)).mpr hd
  simp only [small]
  gcongr

/-- Up to its turning point the parabola rises. -/
theorem value_lt {x' : ℝ} (ha : 0 < a) (hx : 2 * a * x' ≤ b) (h : x < x') :
    value a b x < value a b x' := by
  have hdiff : value a b x' - value a b x = (x' - x) * (b - a * (x + x')) := by
    rw [value, value]
    ring
  have hslope : 0 < b - a * (x + x') := by nlinarith
  have := mul_pos (sub_pos.mpr h) hslope
  linarith

/-- A point left of the small root stays below the value. -/
theorem value_le_of_le_small (ha : 0 < a) (hx : 2 * a * x ≤ b) (h : x ≤ small a b y) :
    value a b x ≤ y := by
  by_contra hy
  have hlt : small a b y < small a b (value a b x) := by
    rcases lt_or_ge (4 * a * y) (b * b) with hd | hd
    · exact small_lt ha hd (not_le.mp hy)
    · -- past the turning point there is no larger value
      have hsq := disc_value a b x
      nlinarith [mul_self_nonneg (b - 2 * a * x)]
  rw [small_value ha hx] at hlt
  linarith

/-- A point right of the small root, up to the turning point, is above the value. -/
theorem lt_value_of_small_lt (ha : 0 < a) (hx : 2 * a * x ≤ b) (hy : 4 * a * y ≤ b * b)
    (h : small a b y < x) : y < value a b x := by
  have hv := value_lt ha hx h
  rwa [value_small ha hy] at hv

theorem le_value_of_small_le (ha : 0 < a) (hx : 2 * a * x ≤ b) (hy : 4 * a * y ≤ b * b)
    (h : small a b y ≤ x) : y ≤ value a b x := by
  rcases h.lt_or_eq with hlt | heq
  · exact (lt_value_of_small_lt ha hx hy hlt).le
  · rw [← heq, value_small ha hy]

theorem small_zero (hb : 0 ≤ b) : small a b 0 = 0 := by
  rw [small, mul_zero, sub_zero, Real.sqrt_mul_self hb, sub_self, zero_div]

theorem small_nonneg (ha : 0 < a) (hb : 0 ≤ b) (hy : 0 ≤ y) : 0 ≤ small a b y := by
  have h := small_mono (b := b) ha hy
  rwa [small_zero hb] at h

theorem small_nonpos (ha : 0 < a) (hb : 0 ≤ b) (hy : y ≤ 0) : small a b y ≤ 0 := by
  have h := small_mono (b := b) ha hy
  rwa [small_zero hb] at h

theorem small_pos (ha : 0 < a) (hb : 0 < b) (hy : 0 < y) : 0 < small a b y := by
  have hd : 4 * a * 0 < b * b := by nlinarith
  have h := small_lt ha hd hy
  rwa [small_zero hb.le] at h

/-- A positive value is met within twice its tangent at the origin. -/
theorem small_le_div (ha : 0 < a) (hb : 0 < b) (h0 : 0 ≤ y) (hy : 4 * a * y ≤ b * b) :
    small a b y ≤ 2 * y / b := by
  have hs := small_nonneg ha hb.le h0
  have hv := value_small ha hy
  have hle := small_le (b := b) (y := y) ha
  rw [le_div_iff₀ hb]
  rw [value] at hv
  nlinarith [mul_le_mul_of_nonneg_left hle hs]

/-- A negative value is met no further out than its tangent at the origin. -/
theorem div_le_small (ha : 0 < a) (hb : 0 < b) (hy : y ≤ 0) : y / b ≤ small a b y := by
  have hd : 4 * a * y ≤ b * b := by nlinarith [mul_pos hb hb]
  have hv := value_small ha hd
  rw [div_le_iff₀ hb]
  rw [value] at hv
  nlinarith [mul_nonneg ha.le (mul_self_nonneg (small a b y))]

/-- Short of the small root the parabola takes a part of the value. -/
theorem value_part (ha : 0 < a) (hb : 0 ≤ b) (hy : 4 * a * y ≤ b * b)
    (h : Parts.IsPart x (small a b y)) : Parts.IsPart (value a b x) y := by
  have hroot := small_le (b := b) (y := y) ha
  rcases le_total 0 y with h0 | h0
  · obtain ⟨hx, hle⟩ := (Parts.part_of_nonneg (small_nonneg ha hb h0)).mp h
    have hside : 2 * a * x ≤ b := by nlinarith
    rw [Parts.part_of_nonneg h0]
    refine ⟨?_, value_le_of_le_small ha hside hle⟩
    rw [value]
    nlinarith [mul_nonneg ha.le hx]
  · obtain ⟨hle, hx⟩ := (Parts.part_of_nonpos (small_nonpos ha hb h0)).mp h
    have hside : 2 * a * x ≤ b := by nlinarith
    rw [Parts.part_of_nonpos h0]
    refine ⟨le_value_of_small_le ha hside hy hle, ?_⟩
    rw [value]
    nlinarith [mul_nonneg ha.le (mul_self_nonneg x)]

end Parabola
