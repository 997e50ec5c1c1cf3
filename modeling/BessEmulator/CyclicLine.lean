import Mathlib.Algebra.BigOperators.Group.Finset.Basic
import Mathlib.Algebra.Order.Floor.Ring
import Mathlib.Algebra.Order.Archimedean.Real.Basic
import Mathlib.Tactic

/-!
# The line through a sequence

A value for every whole number, joined by straight lines. A line through values
that come around again has the same sum over any whole turn, read on any grid.
-/
namespace CyclicLine

/-- Height of the line at `x`. -/
noncomputable def line (f : ℤ → ℝ) (x : ℝ) : ℝ := f ⌊x⌋ + (f (⌊x⌋ + 1) - f ⌊x⌋) * Int.fract x

variable {f : ℤ → ℝ}

/-- The line over one stretch, its far end included. -/
theorem line_stretch (f : ℤ → ℝ) (k : ℤ) {d : ℝ} (h0 : 0 ≤ d) (h1 : d ≤ 1) :
    line f (k + d) = f k + (f (k + 1) - f k) * d := by
  rcases h1.lt_or_eq with h1 | rfl
  · have hfloor : ⌊(k : ℝ) + d⌋ = k := by
      rw [Int.floor_eq_iff]
      constructor <;> linarith
    rw [line, hfloor, Int.fract, hfloor]
    ring
  · have hone : (k : ℝ) + 1 = ((k + 1 : ℤ) : ℝ) := by push_cast; ring
    rw [hone, line, Int.floor_intCast, Int.fract_intCast]
    ring

theorem line_whole (f : ℤ → ℝ) (k : ℤ) : line f k = f k := by
  have h := line_stretch f k (le_refl 0) zero_le_one
  rw [add_zero, mul_zero, add_zero] at h
  exact h

/-- Every place is on a stretch. -/
theorem exists_stretch (x : ℝ) : ∃ (k : ℤ) (d : ℝ), x = k + d ∧ 0 ≤ d ∧ d < 1 :=
  ⟨⌊x⌋, Int.fract x, (Int.floor_add_fract x).symm, Int.fract_nonneg x, Int.fract_lt_one x⟩

/-- The line stays between bounds of its values. -/
theorem line_between {lo hi : ℝ} (h : ∀ i, lo ≤ f i ∧ f i ≤ hi) (x : ℝ) :
    lo ≤ line f x ∧ line f x ≤ hi := by
  obtain ⟨k, d, rfl, h0, h1⟩ := exists_stretch x
  rw [line_stretch f k h0 h1.le]
  obtain ⟨hlo, hhi⟩ := h k
  obtain ⟨hlo', hhi'⟩ := h (k + 1)
  constructor <;> nlinarith

/-- From a whole number to a later place. -/
theorem line_rise_whole {slope : ℝ} (h : ∀ i, |f (i + 1) - f i| ≤ slope) (n : Nat) (k : ℤ) {d : ℝ}
    (h0 : 0 ≤ d) (h1 : d ≤ n + 1) : |line f (k + d) - f k| ≤ slope * d := by
  induction n generalizing k d with
  | zero =>
    rw [Nat.cast_zero, zero_add] at h1
    rw [line_stretch f k h0 h1, add_sub_cancel_left, abs_mul, abs_of_nonneg h0]
    exact mul_le_mul_of_nonneg_right (h k) h0
  | succ n ih =>
    by_cases hd : d ≤ 1
    · rw [line_stretch f k h0 hd, add_sub_cancel_left, abs_mul, abs_of_nonneg h0]
      exact mul_le_mul_of_nonneg_right (h k) h0
    · have hnext := ih (k + 1) (d := d - 1) (by linarith) (by push_cast at h1; linarith)
      have hplace : ((k + 1 : ℤ) : ℝ) + (d - 1) = k + d := by push_cast; ring
      rw [hplace] at hnext
      calc |line f (k + d) - f k|
          = |(line f (k + d) - f (k + 1)) + (f (k + 1) - f k)| := by ring_nf
        _ ≤ |line f (k + d) - f (k + 1)| + |f (k + 1) - f k| := abs_add_le _ _
        _ ≤ slope * (d - 1) + slope := add_le_add hnext (h k)
        _ = slope * d := by ring

/-- The line is no steeper than its steps. -/
theorem line_rise {slope : ℝ} (h : ∀ i, |f (i + 1) - f i| ≤ slope) {x y : ℝ} (hxy : x ≤ y) :
    |line f y - line f x| ≤ slope * (y - x) := by
  obtain ⟨k, d, rfl, h0, h1⟩ := exists_stretch x
  rw [line_stretch f k h0 h1.le]
  by_cases hy : y ≤ k + 1
  · have hplace : y = k + (y - k) := by ring
    rw [hplace, line_stretch f k (by linarith) (by linarith)]
    have hsplit : f k + (f (k + 1) - f k) * (y - k) - (f k + (f (k + 1) - f k) * d) =
        (f (k + 1) - f k) * (y - (k + d)) := by ring
    rw [hsplit, abs_mul, abs_of_nonneg (sub_nonneg.mpr hxy), ← hplace]
    exact mul_le_mul_of_nonneg_right (h k) (sub_nonneg.mpr hxy)
  · have hplace : y = ((k + 1 : ℤ) : ℝ) + (y - (k + 1)) := by push_cast; ring
    have hfar : |line f y - f (k + 1)| ≤ slope * (y - (k + 1)) := by
      have hrise := line_rise_whole h ⌈y - (k + 1)⌉₊ (k + 1) (d := y - (k + 1)) (by linarith)
        ((Nat.le_ceil _).trans (le_add_of_nonneg_right zero_le_one))
      rwa [← hplace] at hrise
    have hnear : |f (k + 1) - (f k + (f (k + 1) - f k) * d)| ≤ slope * (1 - d) := by
      have hsplit : f (k + 1) - (f k + (f (k + 1) - f k) * d) = (f (k + 1) - f k) * (1 - d) := by ring
      rw [hsplit, abs_mul, abs_of_nonneg (by linarith : 0 ≤ 1 - d)]
      exact mul_le_mul_of_nonneg_right (h k) (by linarith)
    calc |line f y - (f k + (f (k + 1) - f k) * d)|
        = |(line f y - f (k + 1)) + (f (k + 1) - (f k + (f (k + 1) - f k) * d))| := by ring_nf
      _ ≤ slope * (y - (k + 1)) + slope * (1 - d) := (abs_add_le _ _).trans (add_le_add hfar hnear)
      _ = slope * (y - (k + d)) := by ring

section

variable {n : Nat}

/-- A whole turn sums to the same from wherever it starts. -/
theorem sum_turn {g : ℤ → ℝ} (hg : ∀ i, g (i + n) = g i) (a : ℤ) :
    ∑ i ∈ Finset.range n, g (i + a) = ∑ i ∈ Finset.range n, g i := by
  have hstep : ∀ a : ℤ,
      ∑ i ∈ Finset.range n, g (i + (a + 1)) = ∑ i ∈ Finset.range n, g (i + a) := by
    intro a
    have hfirst := Finset.sum_range_succ' (fun i : Nat => g (i + a)) n
    have hlast := Finset.sum_range_succ (fun i : Nat => g (i + a)) n
    have hwrap : g ((n : ℤ) + a) = g ((0 : Nat) + a) := by
      rw [Nat.cast_zero, zero_add, add_comm, hg]
    have hshift : ∀ i : Nat, g ((i + 1 : Nat) + a) = g (i + (a + 1)) := by
      intro i
      congr 1
      push_cast
      ring
    simp only [hshift] at hfirst
    linarith
  induction a using Int.induction_on with
  | zero => simp
  | succ a ih => rw [hstep, ih]
  | pred a ih =>
    have h := hstep (-(a : ℤ) - 1)
    rw [sub_add_cancel] at h
    rw [← h, ih]

theorem line_turn (hf : ∀ i, f (i + n) = f i) (x : ℝ) : line f (x + n) = line f x := by
  obtain ⟨k, d, rfl, h0, h1⟩ := exists_stretch x
  have hplace : (k : ℝ) + d + n = ((k + n : ℤ) : ℝ) + d := by push_cast; ring
  have hnext : k + (n : ℤ) + 1 = k + 1 + n := by ring
  rw [hplace, line_stretch f (k + n) h0 h1.le, line_stretch f k h0 h1.le, hf, hnext, hf]

/-- Read on a grid of `m` places a stretch, the stretches of a turn. -/
theorem sum_grid {m : Nat} (hm : 0 < m) (n : Nat) :
    ∑ i ∈ Finset.range (n * m), line f ((i : ℝ) / m) =
      m * ∑ k ∈ Finset.range n, f k + (f n - f 0) * ((m - 1) / 2) := by
  have hm' : (m : ℝ) ≠ 0 := Nat.cast_ne_zero.mpr hm.ne'
  induction n with
  | zero => simp
  | succ n ih =>
    have hgauss : ∑ i ∈ Finset.range m, (i : ℝ) = m * ((m - 1) / 2) := by
      have htwice : ((∑ i ∈ Finset.range m, i : Nat) : ℝ) * 2 = ((m * (m - 1) : Nat) : ℝ) := by
        exact_mod_cast Finset.sum_range_id_mul_two m
      push_cast [Nat.cast_pred hm] at htwice
      linarith
    have hstretch : ∀ i ∈ Finset.range m, line f (((n * m + i : Nat) : ℝ) / m) =
        f n + (f (n + 1) - f n) / m * i := by
      intro i hi
      have hlt : (i : ℝ) ≤ m := Nat.cast_le.mpr (Finset.mem_range.mp hi).le
      have hplace : ((n * m + i : Nat) : ℝ) / m = ((n : ℤ) : ℝ) + i / m := by
        push_cast
        field_simp
      rw [hplace, line_stretch f n (by positivity) (div_le_one_of_le₀ hlt (Nat.cast_nonneg m))]
      ring
    rw [Nat.succ_mul, Finset.sum_range_add, ih, Finset.sum_congr rfl hstretch, Finset.sum_add_distrib,
      Finset.sum_const, Finset.card_range, nsmul_eq_mul, ← Finset.mul_sum, hgauss,
      Finset.sum_range_succ]
    push_cast
    field_simp
    ring

/-- Over a turn, a grid moved by some of its places sums to the values, times its places. -/
theorem sum_grid_turn (hf : ∀ i, f (i + n) = f i) {m : Nat} (hm : 0 < m) (a : ℤ) :
    ∑ i ∈ Finset.range (n * m), line f (((i : ℝ) + a) / m) = m * ∑ k ∈ Finset.range n, f k := by
  have hm' : (m : ℝ) ≠ 0 := Nat.cast_ne_zero.mpr hm.ne'
  have hg : ∀ i : ℤ, line f (((i + (n * m : Nat) : ℤ) : ℝ) / m) = line f ((i : ℝ) / m) := by
    intro i
    have hplace : ((i + (n * m : Nat) : ℤ) : ℝ) / m = (i : ℝ) / m + n := by
      push_cast
      field_simp
    rw [hplace, line_turn hf]
  have hturn := sum_turn (n := n * m) (g := fun i : ℤ => line f ((i : ℝ) / m)) hg a
  have hends : f n = f 0 := by
    have := hf 0
    rwa [zero_add] at this
  have hgrid := sum_grid (f := f) hm n
  rw [hends, sub_self, zero_mul, add_zero] at hgrid
  push_cast at hturn
  rw [hturn, hgrid]

end

end CyclicLine
