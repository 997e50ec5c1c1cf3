import Mathlib.Tactic

/-!
# Reversible word steps

The steps a shift-register generator is made of, over words of any width:
xor with one's own shift, multiplication by a unit, and rotation. None of
them loses a bit.
-/
namespace XorShift

variable {w : Nat}

/-- A word is told by its xor with `f` of it, when each bit of `f` reads bits of lower rank only. -/
theorem xor_injective (rank : Nat → Nat) {f : BitVec w → BitVec w}
    (hf : ∀ x y i, i < w → (∀ j, rank j < rank i → x.getLsbD j = y.getLsbD j) →
      (f x).getLsbD i = (f y).getLsbD i) :
    Function.Injective fun x => x ^^^ f x := by
  intro x y h
  have hbit : ∀ n i, rank i = n → x.getLsbD i = y.getLsbD i := by
    intro n
    induction n using Nat.strongRecOn with
    | ind n ih =>
      intro i hi
      by_cases hw : i < w
      · have hlow : (f x).getLsbD i = (f y).getLsbD i := by
          apply hf x y i hw
          intro j hj
          exact ih (rank j) (hi ▸ hj) j rfl
        have hxor := congrArg (fun v : BitVec w => v.getLsbD i) h
        simp only [BitVec.getLsbD_xor, hlow] at hxor
        exact Bool.xor_left_inj.mp hxor
      · rw [BitVec.getLsbD_of_ge x i (by omega), BitVec.getLsbD_of_ge y i (by omega)]
  apply BitVec.eq_of_getLsbD_eq
  intro i hi
  exact hbit (rank i) i rfl

/-- Bit by bit from the top. -/
theorem xor_shiftRight_injective {k : Nat} (hk : 0 < k) :
    Function.Injective fun x : BitVec w => x ^^^ (x >>> k) := by
  apply xor_injective fun i => w - i
  intro x y i hi hlow
  rw [BitVec.getLsbD_ushiftRight, BitVec.getLsbD_ushiftRight]
  apply hlow
  omega

/-- Bit by bit from the bottom. -/
theorem xor_shiftLeft_injective {k : Nat} (hk : 0 < k) :
    Function.Injective fun x : BitVec w => x ^^^ (x <<< k) := by
  apply xor_injective fun i => i
  intro x y i hi hlow
  rw [BitVec.getLsbD_shiftLeft, BitVec.getLsbD_shiftLeft]
  by_cases hki : i < k
  · simp [hki]
  · rw [hlow (i - k) (by omega)]

/-- An inverse takes the product back. -/
theorem mul_injective {c d : BitVec w} (h : c * d = 1#w) :
    Function.Injective fun x : BitVec w => x * c := by
  intro x y hxy
  have hback : x * c * d = y * c * d := congrArg (· * d) hxy
  rwa [BitVec.mul_assoc, BitVec.mul_assoc, h, BitVec.mul_one, BitVec.mul_one] at hback

/-- The word turned left by `k`. -/
def turn (k : Nat) (x : BitVec w) : BitVec w := x <<< k ||| x >>> (w - k)

theorem turn_back {k : Nat} (hk : k ≤ w) (x : BitVec w) : turn (w - k) (turn k x) = x := by
  apply BitVec.eq_of_getLsbD_eq
  intro i hi
  simp only [turn, BitVec.getLsbD_or, BitVec.getLsbD_ushiftRight, BitVec.getLsbD_shiftLeft]
  by_cases hlow : i < w - k
  · -- the bit went up by `k`
    have hback : w - (w - k) + i = k + i := by omega
    have hin : k + i < w := by omega
    have hover : w ≤ w - k + (k + i) := by omega
    simp [hlow, hback, hin, BitVec.getLsbD_of_ge x _ hover]
  · -- the bit came round to the bottom
    have hround : w - k + (i - (w - k)) = i := by omega
    have hsmall : i - (w - k) < k := by omega
    have hover : ¬w - (w - k) + i < w := by omega
    have hover' : w ≤ w - k + (w - (w - k) + i) := by omega
    simp [hi, hlow, hround, hsmall, hover, BitVec.getLsbD_of_ge x _ hover']

theorem turn_injective {k : Nat} (hk : k ≤ w) : Function.Injective (turn k : BitVec w → BitVec w) := by
  intro x y hxy
  rw [← turn_back hk x, ← turn_back hk y, hxy]

end XorShift
