import BessEmulator.State

/-!
# The alarm vocabulary

Words, bands and the layout of the three words, with the little algebra of
single bits every later proof about words goes through.
-/
namespace Bess

namespace RackBit

def OVER_TEMP_WARNING : Nat := 0
def UNDER_TEMP_WARNING : Nat := 1
def SOC_HIGH : Nat := 2
def SOC_LOW : Nat := 3
def IMBALANCE_WARNING : Nat := 4
def DERATE_ACTIVE : Nat := 5
def ISOLATED : Nat := 6
def OVER_TEMP_TRIP : Nat := 8
def IMBALANCE_TRIP : Nat := 9
def UNDER_TEMP_TRIP : Nat := 10

end RackBit

namespace BlockBit

def SETPOINT_NOT_MET : Nat := 0
def CONTAINER_OVER_TEMP : Nat := 1
def HVAC_FAILURE : Nat := 2
def MAINTENANCE : Nat := 3
def PCS_FAULT : Nat := 8

end BlockBit

namespace SiteBit

def POWER_LIMITED : Nat := 0
def PARTIAL_AVAILABILITY : Nat := 1
def HV_BREAKER_OPEN : Nat := 2
def PROTECTION_TRIP : Nat := 8

end SiteBit

def Severity.ofBit (bit : Nat) : Severity := if bit < 8 then .warning else .trip

/-- Mask of the latched half of a word. -/
def TRIP_MASK : BitVec 32 := 0xff00#32

def withBit (word : BitVec 32) (bit : Nat) (on : Bool) : BitVec 32 :=
  if on then word ||| (1#32 <<< bit) else word &&& ~~~(1#32 <<< bit)

def hasBit (word : BitVec 32) (bit : Nat) : Bool := word &&& (1#32 <<< bit) != 0#32

/-- The word of one bit. -/
theorem getLsbD_one_shift (bit i : Nat) :
    (1#32 <<< bit).getLsbD i = (decide (i = bit) && decide (i < 32)) := by
  simp only [BitVec.getLsbD_shiftLeft, BitVec.getLsbD_one]
  by_cases hi : i = bit
  · subst hi; simp
  · have h : i < bit ∨ i - bit ≠ 0 := by omega
    rcases h with h | h <;> simp [hi, h]

theorem hasBit_eq (word : BitVec 32) (bit : Nat) : hasBit word bit = word.getLsbD bit := by
  rw [hasBit]
  by_cases hb : word.getLsbD bit = true
  · have hlt : bit < 32 := BitVec.lt_of_getLsbD hb
    rw [hb, bne_iff_ne]
    intro hz
    have h := congrArg (fun w : BitVec 32 => w.getLsbD bit) hz
    simp only [BitVec.getLsbD_and, getLsbD_one_shift, hb, hlt, BitVec.getLsbD_zero, decide_true,
      Bool.and_true, Bool.true_eq_false] at h
  · rw [Bool.not_eq_true] at hb
    rw [hb, bne_eq_false_iff_eq]
    apply BitVec.eq_of_getLsbD_eq
    intro i hi
    by_cases he : i = bit
    · subst he; simp [hb]
    · rw [BitVec.getLsbD_and, getLsbD_one_shift]; simp [he]

/-- Writing a bit moves no other. -/
theorem hasBit_withBit_ne (word : BitVec 32) {bit i : Nat} (on : Bool) (h : i ≠ bit) :
    hasBit (withBit word bit on) i = hasBit word i := by
  simp only [hasBit_eq, withBit]
  cases on with
  | true =>
    rw [if_pos rfl, BitVec.getLsbD_or, getLsbD_one_shift]
    simp [h]
  | false =>
    rw [if_neg (by decide), BitVec.getLsbD_and, BitVec.getLsbD_not, getLsbD_one_shift]
    by_cases hw : i < 32
    · simp [h, hw]
    · simp [h, BitVec.getLsbD_of_ge word i (by omega)]

theorem hasBit_withBit_self (word : BitVec 32) (bit : Nat) (on : Bool) (h : bit < 32) :
    hasBit (withBit word bit on) bit = on := by
  simp only [hasBit_eq, withBit]
  cases on with
  | true => simp [h]
  | false =>
    rw [if_neg (by decide), BitVec.getLsbD_and, BitVec.getLsbD_not, getLsbD_one_shift]
    simp [h]

/-- Setting a bit moves that bit and no other. -/
theorem hasBit_withBit (word : BitVec 32) (bit i : Nat) (on : Bool) (hb : bit < 32) :
    hasBit (withBit word bit on) i = if i = bit then on else hasBit word i := by
  by_cases hi : i = bit
  · subst hi
    rw [if_pos rfl, hasBit_withBit_self word i on hb]
  · rw [if_neg hi, hasBit_withBit_ne word on hi]

/-- Words are their bits. -/
theorem word_ext {v w : BitVec 32} (h : ∀ i, i < 32 → hasBit v i = hasBit w i) : v = w :=
  BitVec.eq_of_getLsbD_eq fun i hi => by simpa [hasBit_eq] using h i hi

@[simp] theorem hasBit_zero (i : Nat) : hasBit 0#32 i = false := by simp [hasBit_eq]

theorem hasBit_xor (v w : BitVec 32) (i : Nat) :
    hasBit (v ^^^ w) i = (hasBit v i != hasBit w i) := by
  simp [hasBit_eq]

/-- A reset keeps exactly the warning half and whatever lies above the words. -/
theorem hasBit_and_not_trip (w : BitVec 32) (i : Nat) :
    hasBit (w &&& ~~~TRIP_MASK) i = (hasBit w i && !(decide (8 ≤ i) && decide (i < 16))) := by
  simp only [hasBit_eq, BitVec.getLsbD_and, BitVec.getLsbD_not]
  by_cases hi : i < 32
  · have hm : TRIP_MASK.getLsbD i = (decide (8 ≤ i) && decide (i < 16)) := by
      interval_cases i <;> rfl
    rw [hm]
    simp [hi]
  · rw [BitVec.getLsbD_of_ge w i (by omega)]
    rfl

/-- The layout publishes sixteen bits: nothing above them is ever set. -/
def LowWord (w : BitVec 32) : Prop := ∀ i, 16 ≤ i → hasBit w i = false

theorem lowWord_zero : LowWord 0#32 := fun i _ => hasBit_zero i

theorem lowWord_withBit {w : BitVec 32} (h : LowWord w) (bit : Nat) (on : Bool) (hb : bit < 16) :
    LowWord (withBit w bit on) := by
  intro i hi
  rw [hasBit_withBit w bit i on (by omega), if_neg (by omega)]
  exact h i hi

theorem lowWord_reset {w : BitVec 32} (h : LowWord w) : LowWord (w &&& ~~~TRIP_MASK) := by
  intro i hi
  rw [hasBit_and_not_trip, h i hi, Bool.false_and]

structure Band (F : Type) where
  raiseAt : F
  clearAt : F

structure BlockSiteThresholds (F : Type) where
  setpointMiss : Band F
  setpointDeadbandS : F
  containerAirC : Band F
  siteShortfall : Band F

variable {F : Type} [Scalar F]

/-- Raises when `value` climbs to the band's raise edge, clears once it falls
to its clear edge. -/
def rising (raised : Bool) (value : F) (band : Band F) : Bool :=
  if raised then decide (band.clearAt < value) else decide (band.raiseAt ≤ value)

def falling (raised : Bool) (value : F) (band : Band F) : Bool :=
  if raised then decide (value < band.clearAt) else decide (value ≤ band.raiseAt)

def BlockSiteThresholds.default : BlockSiteThresholds F where
  setpointMiss := ⟨0.02, 0.01⟩
  setpointDeadbandS := 10.0
  containerAirC := ⟨40.0, 37.0⟩
  siteShortfall := ⟨0.02, 0.01⟩

end Bess
