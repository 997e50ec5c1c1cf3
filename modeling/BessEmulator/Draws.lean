import BessEmulator.Validate
import BessEmulator.XorShift

/-!
# Random draws

The generator never reaches the all-zero state it could not leave: the
seeding gives two neighbouring words that differ, and a step loses no state.
What is drawn is a whole number of 2^-53 below one, so a leak drawn from an
accepted range stays between the range's ends in the fault's unit.
-/
namespace Bess

open XorShift

theorem xor_shr_injective {k : UInt64} (hk : 0 < (k.toBitVec % 64).toNat) :
    Function.Injective fun x : UInt64 => x ^^^ (x >>> k) := by
  intro x y h
  have hbits := congrArg UInt64.toBitVec h
  simp only [UInt64.toBitVec_xor, UInt64.toBitVec_shiftRight, BitVec.ushiftRight_eq'] at hbits
  exact UInt64.toBitVec_inj.mp (xor_shiftRight_injective hk hbits)

theorem xor_shl_injective {k : UInt64} (hk : 0 < (k.toBitVec % 64).toNat) :
    Function.Injective fun x : UInt64 => x ^^^ (x <<< k) := by
  intro x y h
  have hbits := congrArg UInt64.toBitVec h
  simp only [UInt64.toBitVec_xor, UInt64.toBitVec_shiftLeft, BitVec.shiftLeft_eq'] at hbits
  exact UInt64.toBitVec_inj.mp (xor_shiftLeft_injective hk hbits)

theorem word_mul_injective {c d : UInt64} (h : c.toBitVec * d.toBitVec = 1#64) :
    Function.Injective fun x : UInt64 => x * c := by
  intro x y hxy
  have hbits := congrArg UInt64.toBitVec hxy
  simp only [UInt64.toBitVec_mul] at hbits
  exact UInt64.toBitVec_inj.mp (mul_injective h hbits)

theorem rotateLeft_45_injective : Function.Injective fun x => rotateLeft x 45 := by
  intro x y h
  have hbits := congrArg UInt64.toBitVec h
  exact UInt64.toBitVec_inj.mp (turn_injective (show 45 ≤ 64 by omega) hbits)

/-- The finalizer of splitmix64 loses nothing: two outputs agree at one state only. -/
theorem splitmix64_injective : Function.Injective fun state => (splitmix64 state).1 := by
  intro x y h
  have h31 := xor_shr_injective (by decide) h
  have hsecond : (0x94D049BB133111EB : UInt64).toBitVec * (0x319642B2D24D8EC3 : UInt64).toBitVec =
      1#64 := by decide
  have h27 := xor_shr_injective (by decide) (word_mul_injective hsecond h31)
  have hfirst : (0xBF58476D1CE4E5B9 : UInt64).toBitVec * (0x96DE1B173F119089 : UInt64).toBitVec =
      1#64 := by decide
  have h30 := xor_shr_injective (by decide) (word_mul_injective hfirst h27)
  exact (UInt64.add_left_inj _).mp h30

theorem xor_through (x p y : UInt64) : x ^^^ p ^^^ (p ^^^ y) = x ^^^ y := by
  rw [UInt64.xor_assoc, ← UInt64.xor_assoc p p y, UInt64.xor_self, UInt64.zero_xor]

/-- A step of the generator loses nothing. -/
theorem nextU64_injective : Function.Injective fun r : Rng => r.nextU64.2 := by
  rintro ⟨a0, a1, a2, a3⟩ ⟨b0, b1, b2, b3⟩ h
  simp only [Rng.nextU64, Rng.mk.injEq] at h
  obtain ⟨h0, h1, h2, h3⟩ := h
  have hlast : a3 ^^^ a1 = b3 ^^^ b1 := rotateLeft_45_injective h3
  have e0 : a0 = b0 := by
    rw [hlast] at h0
    exact (UInt64.xor_left_inj _).mp h0
  -- the second word's shift is told by the two that carry it
  have hshift : a1 ^^^ (a1 <<< 17) = b1 ^^^ (b1 <<< 17) := by
    rw [← xor_through a1 (a2 ^^^ a0), ← xor_through b1 (b2 ^^^ b0), h1, h2]
  have e1 : a1 = b1 := xor_shl_injective (by decide) hshift
  subst e0 e1
  have e2 : a2 = b2 := (UInt64.xor_left_inj _).mp ((UInt64.xor_right_inj _).mp h1)
  have e3 : a3 = b3 := (UInt64.xor_left_inj _).mp hlast
  rw [e2, e3]

/-- The state the generator could not leave. -/
def Rng.zero : Rng := ⟨0, 0, 0, 0⟩

theorem nextU64_zero : Rng.zero.nextU64.2 = Rng.zero := by decide

/-- Neighbouring words of a seeding differ. -/
theorem fromSeed_ne_zero (seed : UInt64) : Rng.fromSeed seed ≠ Rng.zero := by
  intro h
  simp only [Rng.fromSeed, Rng.zero, Rng.mk.injEq] at h
  have hstate : seed = (splitmix64 seed).2 := splitmix64_injective (h.1.trans h.2.1.symm)
  have hgap : (0 : UInt64) = 0x9E3779B97F4A7C15 := by
    apply (UInt64.add_right_inj seed).mp
    rw [UInt64.add_zero]
    exact hstate
  exact absurd hgap (by decide)

/-- The states of a generator seeded with `seed`, after any draws in any order. -/
inductive Drawn (seed : UInt64) : Rng → Prop
  | seeded : Drawn seed (Rng.fromSeed seed)
  | nextU64 {r : Rng} (h : Drawn seed r) : Drawn seed r.nextU64.2
  | nextF64 {r : Rng} (h : Drawn seed r) : Drawn seed (r.nextF64 : ℝ × Rng).2
  | uniform {r : Rng} (h : Drawn seed r) (lo hi : ℝ) : Drawn seed (r.uniform lo hi).2

theorem nextF64_snd (r : Rng) : (r.nextF64 : ℝ × Rng).2 = r.nextU64.2 := rfl

theorem uniform_snd (r : Rng) (lo hi : ℝ) : (r.uniform lo hi).2 = r.nextU64.2 := rfl

theorem nextU64_ne_zero {r : Rng} (h : r ≠ Rng.zero) : r.nextU64.2 ≠ Rng.zero := by
  intro hz
  exact h (nextU64_injective (hz.trans nextU64_zero.symm))

/-- No draw reaches the all-zero state. -/
theorem Drawn.ne_zero {seed : UInt64} {r : Rng} (h : Drawn seed r) : r ≠ Rng.zero := by
  induction h with
  | seeded => exact fromSeed_ne_zero seed
  | nextU64 _ ih => exact nextU64_ne_zero ih
  | nextF64 _ ih =>
    rw [nextF64_snd]
    exact nextU64_ne_zero ih
  | uniform _ lo hi ih =>
    rw [uniform_snd]
    exact nextU64_ne_zero ih

/-- An accepted range rises inside the rates a leak may have. -/
theorem checkRate_range {lo hi : ℝ} (h : checkRate (.range lo hi) = .ok ()) :
    0.1 ≤ lo ∧ lo < hi ∧ hi ≤ 100 := by
  simp only [checkRate] at h
  split at h
  · cases h
  · next hlo =>
    split at h
    · cases h
    · next hhi =>
      simp only [Bool.not_eq_true', Bool.not_eq_false, Bool.and_eq_true, decide_eq_true_eq,
        Bool.or_eq_true, not_or, not_le] at hlo hhi
      norm_num at hlo hhi ⊢
      exact ⟨hlo.1, hhi.2, hhi.1.2⟩

/-- The unit's whole number for a rate a leak may have. -/
theorem ppmPerDay_whole {v : ℝ} (h0 : 0 ≤ v) (h1 : v ≤ 100) :
    ((ppmPerDay v).toNat : ℝ) = Scalar.round (v * 1.0e4 / MONTH_DAYS) ∧
      (ppmPerDay v).toNat ≤ 33333 := by
  have hx0 : 0 ≤ v * 1.0e4 / MONTH_DAYS := by
    rw [MONTH_DAYS]
    positivity
  have hx1 : v * 1.0e4 / MONTH_DAYS + 1 / 2 < 33334 := by
    rw [MONTH_DAYS]
    norm_num
    linarith
  rw [ppmPerDay]
  generalize v * 1.0e4 / MONTH_DAYS = x at hx0 hx1
  obtain ⟨n, hn⟩ := Int.eq_ofNat_of_zero_le (Int.floor_nonneg.mpr (by linarith : 0 ≤ x + 1 / 2))
  have hround : Scalar.round x = (n : ℝ) := by
    rw [Scalar.round_of_nonneg hx0, hn, Int.cast_natCast]
  have hsmall : (n : Int) < 33334 := by
    rw [← hn, Int.floor_lt]
    exact_mod_cast hx1
  rw [hround, Scalar.toU32_whole (by omega)]
  exact ⟨rfl, by omega⟩

theorem ppmPerDay_mono {u v : ℝ} (h0 : 0 ≤ u) (huv : u ≤ v) (h1 : v ≤ 100) :
    ppmPerDay u ≤ ppmPerDay v := by
  have hu := (ppmPerDay_whole h0 (huv.trans h1)).1
  have hv := (ppmPerDay_whole (h0.trans huv) h1).1
  have hx : u * 1.0e4 / MONTH_DAYS ≤ v * 1.0e4 / MONTH_DAYS := by
    rw [MONTH_DAYS]
    norm_num
    linarith
  have hx0 : 0 ≤ u * 1.0e4 / MONTH_DAYS := by
    rw [MONTH_DAYS]
    positivity
  rw [Scalar.round_of_nonneg hx0] at hu
  rw [Scalar.round_of_nonneg (hx0.trans hx)] at hv
  have hfloor : (⌊u * 1.0e4 / MONTH_DAYS + 1 / 2⌋ : ℝ) ≤ ⌊v * 1.0e4 / MONTH_DAYS + 1 / 2⌋ := by
    exact_mod_cast Int.floor_mono (by linarith)
  have hle : ((ppmPerDay u).toNat : ℝ) ≤ (ppmPerDay v).toNat := by
    rw [hu, hv]
    exact hfloor
  rw [UInt32.le_iff_toNat_le]
  exact_mod_cast hle

/-- The rate event `index` of a run draws from a range. -/
noncomputable def drawnPct (seed : UInt64) (index : Nat) (lo hi : ℝ) : ℝ :=
  ((Rng.fromSeed (seed ^^^ SCENARIO_STREAM ^^^ UInt64.ofNat index)).uniform lo hi).1

theorem draw_range (b c r : Nat) (lo hi : ℝ) (seed : UInt64) (index : Nat) :
    draw (.selfDischarge b c r (.range lo hi)) seed index =
      .rackSelfDischarge b c r (ppmPerDay (drawnPct seed index lo hi)) := rfl

/-- A leak of `ppm`, drawn at the rate `pct` from the range `lo` to `hi`. -/
structure LeakWithin (lo hi pct : ℝ) (ppm : UInt32) : Prop where
  low : lo ≤ pct
  high : pct < hi
  atLeast : ppmPerDay lo ≤ ppm
  atMost : ppm ≤ ppmPerDay hi
  /-- Nothing saturates. -/
  whole : (ppm.toNat : ℝ) = Scalar.round (pct * 1.0e4 / MONTH_DAYS)
  small : ppm.toNat ≤ 33333

theorem drawnPct_leak {lo hi : ℝ} (h : checkRate (.range lo hi) = .ok ()) (seed : UInt64)
    (index : Nat) :
    LeakWithin lo hi (drawnPct seed index lo hi) (ppmPerDay (drawnPct seed index lo hi)) := by
  obtain ⟨hlo, hlt, hhi⟩ := checkRate_range h
  have hdraw := uniform_range (Rng.fromSeed (seed ^^^ SCENARIO_STREAM ^^^ UInt64.ofNat index)) hlt
  have hpos : 0 ≤ lo := by
    norm_num at hlo
    linarith
  rw [← drawnPct] at hdraw
  have hwhole := ppmPerDay_whole (hpos.trans hdraw.1) (hdraw.2.le.trans hhi)
  exact {
    low := hdraw.1
    high := hdraw.2
    atLeast := ppmPerDay_mono hpos hdraw.1 (hdraw.2.le.trans hhi)
    atMost := ppmPerDay_mono (hpos.trans hdraw.1) hdraw.2.le hhi
    whole := hwhole.1
    small := hwhole.2 }

/-- What holds of every draw of a run seeded with `seed`. -/
structure SoundDraws (seed : UInt64) : Prop where
  alive : ∀ r, Drawn seed r → r ≠ Rng.zero
  grid : ∀ r, Drawn seed r →
    ∃ k : Nat, k < 2 ^ 53 ∧ (r.nextF64 : ℝ × Rng).1 = (k : ℝ) / 2 ^ 53
  within : ∀ r, Drawn seed r → ∀ lo hi : ℝ, lo < hi →
    lo ≤ (r.uniform lo hi).1 ∧ (r.uniform lo hi).1 < hi
  leak : ∀ (b c r : Nat) (lo hi : ℝ) (index : Nat), checkRate (.range lo hi) = .ok () →
    ∃ ppm, draw (.selfDischarge b c r (.range lo hi)) seed index = .rackSelfDischarge b c r ppm ∧
      LeakWithin lo hi (drawnPct seed index lo hi) ppm

/-- Random draws stay sound, whatever the seed. -/
theorem draws_sound (seed : UInt64) : SoundDraws seed where
  alive := by
    intro r h
    exact h.ne_zero
  grid := by
    intro r _
    exact nextF64_grid r
  within := by
    intro r _ lo hi h
    exact uniform_range r h
  leak := by
    intro b c r lo hi index h
    exact ⟨_, draw_range b c r lo hi seed index, drawnPct_leak h seed index⟩

/-- There are ranges to accept. -/
example : checkRate (.range (1 : ℝ) 4) = .ok () := by
  norm_num [checkRate]

end Bess
