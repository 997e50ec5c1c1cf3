import Mathlib.Analysis.Real.Sqrt
import Mathlib.Tactic

/-!
# The arithmetic of the plant

The source computes in `f64`. The model is written once over any type with
the operations it uses and no law about them, so a result that needs no
arithmetic holds of machine floats too. The results that read the floats as
exact numbers instantiate it at `ℝ`.
-/

/-- Halves and hours, named so that either numeral is one term in every module. -/
instance atLeastTwo_two : Nat.AtLeastTwo 2 := ⟨le_refl 2⟩

instance atLeastTwo_hour : Nat.AtLeastTwo 3600 := ⟨by decide⟩

/-- The operations the source performs on an `f64`. -/
class Scalar (F : Type) extends Zero F, One F, Add F, Sub F, Mul F, Div F, Neg F, NatCast F,
    OfScientific F, LE F, LT F, Max F, Min F where
  decLE : DecidableLE F
  decLT : DecidableLT F
  sqrt : F → F
  /-- Equality of `to_bits`. -/
  sameBits : F → F → Bool
  /-- `f64::round`: to the nearest whole number, halves away from zero. -/
  round : F → F
  /-- The whole part, towards zero; zero for a NaN. -/
  trunc : F → Int

attribute [reducible, instance] Scalar.decLE Scalar.decLT

noncomputable instance : Scalar ℝ where
  decLE := inferInstance
  decLT := inferInstance
  sqrt := Real.sqrt
  sameBits x y := decide (x = y)
  round x := if 0 ≤ x then (⌊x + 1 / 2⌋ : ℝ) else (⌈x - 1 / 2⌉ : ℝ)
  trunc x := if 0 ≤ x then ⌊x⌋ else ⌈x⌉

namespace Scalar

variable {F : Type} [Scalar F]

/-- `f64::clamp`. -/
def clamp (x lo hi : F) : F := if x < lo then lo else if hi < x then hi else x

/-- `f64::abs`. -/
def abs (x : F) : F := max x (-x)

/-- `as u32`, which saturates. -/
def toU32 (x : F) : UInt32 := UInt32.ofNat (min (trunc x).toNat 4294967295)

/-- `f64::from` a signed integer. -/
def ofInt : Int → F
  | .ofNat n => (n : F)
  | .negSucc n => -((n + 1 : Nat) : F)

/-- `f64::EPSILON`, two to the minus 52. -/
def epsilon : F := 1 / 4503599627370496

@[simp] theorem sqrt_real (x : ℝ) : sqrt x = Real.sqrt x := rfl

@[simp] theorem abs_real (x : ℝ) : abs x = |x| := rfl

theorem ofInt_real (n : Int) : (ofInt n : ℝ) = n := by
  cases n with
  | ofNat n => rfl
  | negSucc n => rw [ofInt, Int.cast_negSucc]

theorem epsilon_pos : (0 : ℝ) < epsilon := by
  rw [epsilon]
  norm_num

/-- A clamp to a band that is one. -/
theorem clamp_eq {x lo hi : ℝ} (h : lo ≤ hi) : clamp x lo hi = max lo (min hi x) := by
  rw [clamp]
  split
  · next hlow => rw [min_eq_right (hlow.le.trans h), max_eq_left hlow.le]
  · next hlow =>
    split
    · next hhigh => rw [min_eq_left hhigh.le, max_eq_right h]
    · next hhigh => rw [min_eq_right (not_lt.mp hhigh), max_eq_right (not_lt.mp hlow)]

theorem clamp_le {x lo hi : ℝ} (h : lo ≤ hi) : clamp x lo hi ≤ hi := by
  rw [clamp_eq h]
  exact max_le h (min_le_left _ _)

theorem le_clamp {x lo hi : ℝ} (h : lo ≤ hi) : lo ≤ clamp x lo hi := by
  rw [clamp_eq h]
  exact le_max_left _ _

theorem clamp_mono {x y lo hi : ℝ} (h : lo ≤ hi) (hxy : x ≤ y) :
    clamp x lo hi ≤ clamp y lo hi := by
  rw [clamp_eq h, clamp_eq h]
  exact max_le_max (le_refl lo) (min_le_min (le_refl hi) hxy)

/-- Two values come no further apart. -/
theorem clamp_sub_le {x y lo hi : ℝ} (h : lo ≤ hi) (hxy : x ≤ y) :
    clamp y lo hi - clamp x lo hi ≤ y - x := by
  rw [clamp_eq h, clamp_eq h]
  rcases le_total hi x with hx | hx
  · rw [min_eq_left hx, min_eq_left (hx.trans hxy)]
    linarith
  · rw [min_eq_right hx]
    rcases le_total lo x with hl | hl
    · rw [max_eq_right hl]
      have : max lo (min hi y) ≤ y := max_le (hl.trans hxy) (min_le_right _ _)
      linarith
    · rw [max_eq_left hl]
      have : max lo (min hi y) ≤ lo + (y - x) :=
        max_le (by linarith) ((min_le_right _ _).trans (by linarith))
      linarith

/-- A value already inside the band is left alone. -/
theorem clamp_of_mem {x lo hi : ℝ} (hlo : lo ≤ x) (hhi : x ≤ hi) : clamp x lo hi = x := by
  rw [clamp_eq (hlo.trans hhi), min_eq_right hhi, max_eq_right hlo]

/-- Clamping moves a value towards the band, never away from a point in it. -/
theorem abs_clamp_le {x lo hi : ℝ} (hlo : lo ≤ 0) (hhi : 0 ≤ hi) : |clamp x lo hi| ≤ |x| := by
  rw [clamp]
  split
  · rw [abs_of_nonpos hlo, abs_of_nonpos (by linarith)]
    linarith
  · split
    · rw [abs_of_nonneg hhi, abs_of_nonneg (by linarith)]
      linarith
    · exact le_refl _

theorem round_whole (n : Int) : round (n : ℝ) = (n : ℝ) := by
  change (if (0 : ℝ) ≤ n then ((⌊(n : ℝ) + 1 / 2⌋ : Int) : ℝ) else ((⌈(n : ℝ) - 1 / 2⌉ : Int) : ℝ))
    = n
  have hf : ⌊(n : ℝ) + 1 / 2⌋ = n := by
    rw [Int.floor_eq_iff]
    constructor <;> norm_num
  have hc : ⌈(n : ℝ) - 1 / 2⌉ = n := by
    rw [Int.ceil_eq_iff]
    constructor <;> norm_num
  rw [hf, hc]
  split <;> rfl

theorem trunc_whole (n : Int) : trunc (n : ℝ) = n := by
  change (if (0 : ℝ) ≤ n then ⌊(n : ℝ)⌋ else ⌈(n : ℝ)⌉) = n
  rw [Int.floor_intCast, Int.ceil_intCast]
  split <;> rfl

/-- Halves away from zero: from zero on, upwards. -/
theorem round_of_nonneg {x : ℝ} (h : 0 ≤ x) : round x = (⌊x + 1 / 2⌋ : ℝ) := if_pos h

/-- Within the range nothing saturates. -/
theorem toU32_whole {n : Nat} (h : n < 4294967296) : (toU32 (n : ℝ)).toNat = n := by
  have htrunc : trunc (n : ℝ) = n := trunc_whole n
  rw [toU32, htrunc, Int.toNat_natCast, min_eq_left (by omega), UInt32.toNat_ofNat_of_lt' h]

end Scalar
