import Mathlib.Algebra.Order.BigOperators.Group.List
import Mathlib.Data.Sign.Basic
import Mathlib.Order.Interval.Set.UnorderedInterval
import Mathlib.Tactic

/-!
# Parts of an amount

A signed amount is a part of another when it is nothing, all or some of it, on
the same side of zero. Whatever rises through zero keeps parts, and parts of
amounts on one side add up.
-/
namespace Parts

section

variable {α : Type*} [Lattice α] [Zero α]

/-- `y` is nothing, all or some of `x`. -/
def IsPart (y x : α) : Prop := y ∈ Set.uIcc 0 x

theorem IsPart.refl (x : α) : IsPart x x := Set.right_mem_uIcc

theorem IsPart.zero (x : α) : IsPart 0 x := Set.left_mem_uIcc

end

section

variable {α : Type*} [LinearOrder α] [Zero α] {x y z : α}

theorem part_of_nonneg (hx : 0 ≤ x) : IsPart y x ↔ 0 ≤ y ∧ y ≤ x := by
  rw [IsPart, Set.uIcc_of_le hx, Set.mem_Icc]

theorem part_of_nonpos (hx : x ≤ 0) : IsPart y x ↔ x ≤ y ∧ y ≤ 0 := by
  rw [IsPart, Set.uIcc_of_ge hx, Set.mem_Icc]

theorem IsPart.trans (hzy : IsPart z y) (hyx : IsPart y x) : IsPart z x :=
  Set.uIcc_subset_uIcc_left hyx hzy

theorem IsPart.eq_zero (h : IsPart y 0) : y = 0 := by
  rw [part_of_nonneg le_rfl] at h
  exact le_antisymm h.2 h.1

theorem IsPart.sign_eq (h : IsPart y x) (hy : y ≠ 0) : SignType.sign y = SignType.sign x := by
  rcases le_total 0 x with hx | hx
  · obtain ⟨h0, hle⟩ := (part_of_nonneg hx).mp h
    have hpos := h0.lt_of_ne' hy
    rw [sign_pos hpos, sign_pos (hpos.trans_le hle)]
  · obtain ⟨hle, h0⟩ := (part_of_nonpos hx).mp h
    have hneg := h0.lt_of_ne hy
    rw [sign_neg hneg, sign_neg (hle.trans_lt hneg)]

end

section

variable {α : Type*} [AddCommGroup α] [LinearOrder α] [IsOrderedAddMonoid α] {x y : α}

theorem IsPart.abs_le (h : IsPart y x) : |y| ≤ |x| := by
  have hd := Set.abs_sub_left_of_mem_uIcc h
  rwa [sub_zero, sub_zero] at hd

/-- Parts of amounts on one side of zero add up to a part of their sum. -/
theorem part_sum {ι : Type*} {f g : ι → α} {xs : List ι}
    (hside : (∀ i ∈ xs, 0 ≤ g i) ∨ ∀ i ∈ xs, g i ≤ 0) (h : ∀ i ∈ xs, IsPart (f i) (g i)) :
    IsPart (xs.map f).sum (xs.map g).sum := by
  have hzero : (xs.map fun _ => (0 : α)).sum = 0 := by simp
  rcases hside with hpos | hneg
  · have hf : ∀ i ∈ xs, 0 ≤ f i ∧ f i ≤ g i := fun i hi =>
      (part_of_nonneg (hpos i hi)).mp (h i hi)
    have hsum := List.sum_le_sum hpos
    rw [hzero] at hsum
    rw [part_of_nonneg hsum, ← hzero]
    exact ⟨List.sum_le_sum fun i hi => (hf i hi).1, List.sum_le_sum fun i hi => (hf i hi).2⟩
  · have hf : ∀ i ∈ xs, g i ≤ f i ∧ f i ≤ 0 := fun i hi =>
      (part_of_nonpos (hneg i hi)).mp (h i hi)
    have hsum := List.sum_le_sum hneg
    rw [hzero] at hsum
    rw [part_of_nonpos hsum, ← hzero]
    exact ⟨List.sum_le_sum fun i hi => (hf i hi).1, List.sum_le_sum fun i hi => (hf i hi).2⟩

end

end Parts
