import BessEmulator.Spacing
import BessEmulator.Thermal

/-!
# The dwell times of the HVAC unit

One countdown protects the compressors: a stage that starts or changes arms
the minimum run time, cooling that ends arms the minimum off time, and every
other tick counts down.
-/
namespace Bess

open Traces

section

variable {F : Type} [Scalar F]

/-- What a unit meets in one tick: the air its thermostat reads, whether it is
down, and the step's other arguments. -/
structure HvacTick (F : Type) where
  airC : F
  failed : Bool
  rackHeatW : List F
  weather : Weather F
  dtS : F

/-- One step of a container in that air, its unit failed or repaired beforehand. -/
def LumpedThermal.hvacTick (m : LumpedThermal F) (c : ContainerState F) (t : HvacTick F) :
    ContainerState F :=
  (m.stepContainer { c with airTempC := t.airC, hvac := { c.hvac with failed := t.failed } }
    t.rackHeatW t.weather t.dtS).1

def HvacMode.cools : HvacMode → Bool
  | .cool1 | .cool2 => true
  | .off | .heat => false

variable (m : LumpedThermal F) (c : ContainerState F) (t : HvacTick F)

theorem hvacTick_failed (h : t.failed = true) : (m.hvacTick c t).hvac.mode = .off := by
  simp [LumpedThermal.hvacTick, LumpedThermal.stepContainer, h]

theorem hvacTick_mode (h : t.failed = false) :
    (m.hvacTick c t).hvac.mode =
      m.nextMode c.hvac.mode t.airC (decide (c.hvac.compressorHoldS ≤ 0.0)) := by
  simp [LumpedThermal.hvacTick, LumpedThermal.stepContainer, h]

theorem hvacTick_hold :
    (m.hvacTick c t).hvac.compressorHoldS =
      m.nextHoldS c.hvac.mode (m.hvacTick c t).hvac.mode c.hvac.compressorHoldS t.dtS := rfl

def LumpedThermal.CoolingEnds : Prop :=
  c.hvac.mode.cools = true ∧ (m.hvacTick c t).hvac.mode.cools = false

def LumpedThermal.CoolingStarts : Prop :=
  c.hvac.mode.cools = false ∧ (m.hvacTick c t).hvac.mode.cools = true

/-- A change into a cooling stage, or between the two. -/
def LumpedThermal.StageChanges : Prop :=
  (m.hvacTick c t).hvac.mode.cools = true ∧ (m.hvacTick c t).hvac.mode ≠ c.hvac.mode

/-- A compressor released by the thermostat: one of two, or the only one. -/
def LumpedThermal.StepsDown : Prop :=
  t.failed = false ∧
    (c.hvac.mode = .cool2 ∧ (m.hvacTick c t).hvac.mode = .cool1 ∨
      c.hvac.mode = .cool1 ∧ (m.hvacTick c t).hvac.mode = .off)

end

section

variable (m : LumpedThermal ℝ) (airC : ℝ) (free : Bool)

theorem units_pos (mode : HvacMode) :
    (0.0 : ℝ) < LumpedThermal.coolingUnits mode ↔ mode.cools = true := by
  cases mode <;> norm_num [LumpedThermal.coolingUnits, HvacMode.cools]

theorem units_decide (mode : HvacMode) :
    decide ((0.0 : ℝ) < LumpedThermal.coolingUnits mode) = mode.cools := by
  rw [Bool.eq_iff_iff, decide_eq_true_iff, units_pos]

theorem nextMode_cool2 :
    m.nextMode .cool2 airC free =
      if m.cool2OnC ≤ airC then .cool2
      else if airC ≤ m.cool2OffC ∧ free = true then .cool1 else .cool2 := by
  simp only [LumpedThermal.nextMode, units_pos, HvacMode.cools, true_and]

theorem nextMode_cool1 :
    m.nextMode .cool1 airC free =
      if m.cool2OnC ≤ airC then .cool2
      else if airC ≤ m.cool1OffC ∧ free = true then .off else .cool1 := by
  simp only [LumpedThermal.nextMode, units_pos, HvacMode.cools, true_and]

theorem nextMode_off :
    m.nextMode .off airC free =
      if airC ≤ m.heatOnC then .heat
      else if m.cool1OnC ≤ airC then m.coolingStart airC free else .off := by
  simp [LumpedThermal.nextMode, units_pos, HvacMode.cools]

theorem nextMode_heat :
    m.nextMode .heat airC free =
      if m.cool1OnC ≤ airC then m.coolingStart airC free
      else if m.heatOffC ≤ airC then .off else .heat := by
  simp [LumpedThermal.nextMode, units_pos, HvacMode.cools]

theorem coolingStart_cools : (m.coolingStart airC free).cools = free := by
  cases free with
  | false => rfl
  | true =>
    simp only [LumpedThermal.coolingStart, Bool.not_true, Bool.false_eq_true, if_false]
    split <;> rfl

theorem coolingStart_heat : m.coolingStart airC free ≠ .heat := by
  rw [LumpedThermal.coolingStart]
  split_ifs <;> simp

/-- From rest the thermostat starts a compressor only if it is free. -/
theorem nextMode_start {mode : HvacMode} (hrest : mode.cools = false)
    (h : (m.nextMode mode airC free).cools = true) : free = true := by
  cases mode with
  | cool1 => cases hrest
  | cool2 => cases hrest
  | off =>
    rw [nextMode_off] at h
    split_ifs at h
    · cases h
    · rwa [coolingStart_cools] at h
    · cases h
  | heat =>
    rw [nextMode_heat] at h
    split_ifs at h
    · rwa [coolingStart_cools] at h
    · cases h
    · cases h

/-- A busy compressor keeps a cooling unit cooling. -/
theorem nextMode_busy {mode : HvacMode} (hcool : mode.cools = true) :
    (m.nextMode mode airC false).cools = true := by
  cases mode with
  | cool1 => rw [nextMode_cool1]; split_ifs <;> simp_all [HvacMode.cools]
  | cool2 => rw [nextMode_cool2]; split_ifs <;> simp_all [HvacMode.cools]
  | off => cases hcool
  | heat => cases hcool

theorem nextHoldS_eq (old new : HvacMode) (holdS dtS : ℝ) :
    m.nextHoldS old new holdS dtS =
      if new.cools = true ∧ new ≠ old then m.minRunS
      else if old.cools = true ∧ new.cools = false then m.minOffS
      else max (holdS - dtS) 0 := by
  have h0 : (0.0 : ℝ) = 0 := by norm_num
  simp only [LumpedThermal.nextHoldS, units_decide, Bool.and_eq_true, decide_eq_true_eq,
    Bool.not_eq_true']
  rw [h0]

end

section

variable (m : LumpedThermal ℝ) {c : ContainerState ℝ} {t : HvacTick ℝ}

theorem free_iff {holdS : ℝ} : decide (holdS ≤ 0.0) = true ↔ holdS ≤ 0 := by norm_num

/-- A stopped compressor starts only once the countdown has run out. -/
theorem start_free (h : m.CoolingStarts c t) : c.hvac.compressorHoldS ≤ 0 := by
  obtain ⟨hrest, hnew⟩ := h
  cases hf : t.failed with
  | true => rw [hvacTick_failed m c t hf] at hnew; cases hnew
  | false =>
    rw [hvacTick_mode m c t hf] at hnew
    exact free_iff.mp (nextMode_start m t.airC _ hrest hnew)

/-- So does a step down. -/
theorem down_free (h : m.StepsDown c t) : c.hvac.compressorHoldS ≤ 0 := by
  obtain ⟨hf, ⟨hold, hnew⟩ | ⟨hold, hnew⟩⟩ := h
  · rw [hvacTick_mode m c t hf, hold, nextMode_cool2] at hnew
    split_ifs at hnew with hhot hlow
    exact free_iff.mp hlow.2
  · rw [hvacTick_mode m c t hf, hold, nextMode_cool1] at hnew
    split_ifs at hnew with hhot hlow
    exact free_iff.mp hlow.2

/-- A change of stage arms the minimum run time. -/
theorem hold_change (h : m.StageChanges c t) :
    (m.hvacTick c t).hvac.compressorHoldS = m.minRunS := by
  rw [hvacTick_hold, nextHoldS_eq]
  exact if_pos h

/-- Cooling that ends arms the minimum off time. -/
theorem hold_end (h : m.CoolingEnds c t) :
    (m.hvacTick c t).hvac.compressorHoldS = m.minOffS := by
  obtain ⟨hold, hnew⟩ := h
  rw [hvacTick_hold, nextHoldS_eq, if_neg (by simp [hnew]), if_pos ⟨hold, hnew⟩]

/-- Every other tick counts down. -/
theorem hold_else (hc : ¬ m.StageChanges c t) (he : ¬ m.CoolingEnds c t) :
    (m.hvacTick c t).hvac.compressorHoldS = max (c.hvac.compressorHoldS - t.dtS) 0 := by
  rw [hvacTick_hold, nextHoldS_eq]
  exact (if_neg hc).trans (if_neg he)

theorem le_hold_else (hc : ¬ m.StageChanges c t) (he : ¬ m.CoolingEnds c t) :
    c.hvac.compressorHoldS - t.dtS ≤ (m.hvacTick c t).hvac.compressorHoldS := by
  rw [hold_else m hc he]
  exact le_max_left _ _

/-- The countdown stays at or above zero. -/
theorem hold_nonneg (hrun : 0 ≤ m.minRunS) (hoff : 0 ≤ m.minOffS) :
    0 ≤ (m.hvacTick c t).hvac.compressorHoldS := by
  rw [hvacTick_hold, nextHoldS_eq]
  split_ifs
  · exact hrun
  · exact hoff
  · exact le_max_right _ _

/-- After cooling ends the interval has passed, or it is still on the clock of
a unit at rest. -/
def OffFor (m : LumpedThermal ℝ) (e : ℝ) (c : ContainerState ℝ) : Prop :=
  m.minOffS ≤ e ∨ c.hvac.mode.cools = false ∧ m.minOffS ≤ c.hvac.compressorHoldS + e

theorem offFor_tick (hdt : 0 < t.dtS) {e : ℝ} (h : OffFor m e c) :
    OffFor m (e + t.dtS) (m.hvacTick c t) := by
  obtain h | ⟨hrest, hle⟩ := h
  · exact .inl (by linarith)
  · cases hnew : (m.hvacTick c t).hvac.mode.cools with
    | true =>
      have hfree := start_free m ⟨hrest, hnew⟩
      exact .inl (by linarith)
    | false =>
      have hcount := le_hold_else m (fun hc => Bool.false_ne_true (hnew.symm.trans hc.1))
        (fun he => Bool.false_ne_true (hrest.symm.trans he.1))
      exact .inr ⟨hnew, by linarith⟩

theorem off_spaced (c : ContainerState ℝ) {ticks : List (HvacTick ℝ)}
    (hdt : ∀ t ∈ ticks, 0 < t.dtS) :
    Between m.hvacTick m.CoolingEnds m.CoolingStarts
      (fun _ mid => m.minOffS ≤ spent HvacTick.dtS mid) c ticks := by
  refine spaced (OffFor m) hdt ?_ ?_ ?_ c
  · intro c t h
    exact .inr ⟨h.2, by rw [hold_end m h, add_zero]⟩
  · intro e c t ht h
    exact offFor_tick m ht h
  · rintro e c t (h | ⟨-, hle⟩) hstart
    · exact h
    · linarith [start_free m hstart]

/-- After a change of stage the interval has passed or is still on the clock,
as long as the unit cools. -/
def RanFor (m : LumpedThermal ℝ) (e : ℝ) (c : ContainerState ℝ) : Prop :=
  0 ≤ e ∧ (c.hvac.mode.cools = true → m.minRunS ≤ c.hvac.compressorHoldS + e)

theorem ranFor_tick (hdt : 0 < t.dtS) {e : ℝ} (h : RanFor m e c) :
    RanFor m (e + t.dtS) (m.hvacTick c t) := by
  obtain ⟨he, hle⟩ := h
  refine ⟨by linarith, fun hnew => ?_⟩
  by_cases hchange : m.StageChanges c t
  · rw [hold_change m hchange]
    linarith
  · have hsame : (m.hvacTick c t).hvac.mode = c.hvac.mode := by
      by_contra hne
      exact hchange ⟨hnew, hne⟩
    have hcount := le_hold_else m hchange fun hend =>
      Bool.false_ne_true (hend.2.symm.trans hnew)
    have := hle (hsame ▸ hnew)
    linarith

theorem run_spaced (c : ContainerState ℝ) {ticks : List (HvacTick ℝ)}
    (hdt : ∀ t ∈ ticks, 0 < t.dtS) :
    Between m.hvacTick m.StageChanges m.StepsDown
      (fun _ mid => m.minRunS ≤ spent HvacTick.dtS mid) c ticks := by
  refine spaced (RanFor m) hdt ?_ ?_ ?_ c
  · intro c t h
    exact ⟨le_refl 0, fun _ => by rw [hold_change m h, add_zero]⟩
  · intro e c t ht h
    exact ranFor_tick m ht h
  · rintro e c t ⟨-, hle⟩ hdown
    have hcool : c.hvac.mode.cools = true := by
      obtain ⟨-, ⟨hold, -⟩ | ⟨hold, -⟩⟩ := hdown <;> rw [hold] <;> rfl
    linarith [hle hcool, down_free m hdown]

/-- Heating on a tick: its band decides, whatever the countdown. -/
structure LumpedThermal.HeatsByBand (m : LumpedThermal ℝ) (c : ContainerState ℝ)
    (t : HvacTick ℝ) : Prop where
  starts : c.hvac.mode = .off → ((m.hvacTick c t).hvac.mode = .heat ↔ t.airC ≤ m.heatOnC)
  /-- Cooling demand ends heating as well; the bands leave that to `heatOffC`. -/
  stops : c.hvac.mode = .heat →
    ((m.hvacTick c t).hvac.mode ≠ .heat ↔ min m.heatOffC m.cool1OnC ≤ t.airC)
  cooling : c.hvac.mode.cools = true → (m.hvacTick c t).hvac.mode ≠ .heat
  undelayed : ∀ holdS,
    ((m.hvacTick { c with hvac := { c.hvac with compressorHoldS := holdS } } t).hvac.mode = .heat ↔
      (m.hvacTick c t).hvac.mode = .heat)

theorem nextMode_heats (mode : HvacMode) (airC : ℝ) (free : Bool) :
    m.nextMode mode airC free = .heat ↔
      mode = .off ∧ airC ≤ m.heatOnC ∨ mode = .heat ∧ airC < min m.heatOffC m.cool1OnC := by
  cases mode with
  | off => rw [nextMode_off]; split_ifs <;> simp_all [coolingStart_heat]
  | cool1 => rw [nextMode_cool1]; split_ifs <;> simp
  | cool2 => rw [nextMode_cool2]; split_ifs <;> simp
  | heat =>
    rw [nextMode_heat]
    split_ifs with hdemand hwarm
    · simp [coolingStart_heat, hdemand]
    · simp [hwarm]
    · simpa [hdemand, hwarm] using ⟨not_le.mp hwarm, not_le.mp hdemand⟩

theorem heatsByBand (hf : t.failed = false) : m.HeatsByBand c t where
  starts hoff := by
    rw [hvacTick_mode m c t hf, nextMode_heats]
    simp [hoff]
  stops hheat := by
    rw [hvacTick_mode m c t hf, ne_eq, nextMode_heats, hheat]
    simp only [reduceCtorEq, false_and, true_and, false_or, not_lt]
  cooling hcool := by
    rw [hvacTick_mode m c t hf, ne_eq, nextMode_heats]
    rintro (⟨h, -⟩ | ⟨h, -⟩) <;> rw [h] at hcool <;> cases hcool
  undelayed holdS := by
    rw [hvacTick_mode m _ t hf, hvacTick_mode m c t hf, nextMode_heats, nextMode_heats]

noncomputable def hvacAt (airC : ℝ) (dtS : ℝ) : HvacTick ℝ := ⟨airC, false, [], ⟨20.0, 0⟩, dtS⟩

noncomputable def idleContainer : ContainerState ℝ := ⟨30.0, ⟨.off, 0, 0, 0, false⟩, []⟩

/-- Whatever the air does, and however often the unit fails and is repaired: cooling starts at
least the minimum off time after it last ended; an unfailed unit steps down at least the minimum
run time after its last change of stage; the countdown never passes below zero; a failed unit is
off; and heating follows its band. -/
theorem hvac_dwell_times (m : LumpedThermal ℝ) {c : ContainerState ℝ}
    (hc : c.hvac.compressorHoldS = 0) {ticks : List (HvacTick ℝ)}
    (hdt : ∀ t ∈ ticks, 0 < t.dtS) :
    Between m.hvacTick m.CoolingEnds m.CoolingStarts
        (fun _ mid => m.minOffS ≤ spent HvacTick.dtS mid) c ticks ∧
      Between m.hvacTick m.StageChanges m.StepsDown
        (fun _ mid => m.minRunS ≤ spent HvacTick.dtS mid) c ticks ∧
      (0 ≤ m.minRunS → 0 ≤ m.minOffS →
        ∀ k, 0 ≤ ((ticks.take k).foldl m.hvacTick c).hvac.compressorHoldS) ∧
      Always m.hvacTick (fun c t => t.failed = true → (m.hvacTick c t).hvac.mode = .off) c ticks ∧
      Always m.hvacTick (fun c t => t.failed = false → m.HeatsByBand c t) c ticks := by
  refine ⟨off_spaced m c hdt, run_spaced m c hdt, fun hrun hoff k => ?_, ?_, ?_⟩
  · have hkept : ∀ (c : ContainerState ℝ) (t : HvacTick ℝ), 0 ≤ c.hvac.compressorHoldS →
        0 ≤ (m.hvacTick c t).hvac.compressorHoldS := fun _ _ _ => hold_nonneg m hrun hoff
    exact inv_run hkept hc.ge _
  · exact always_of_forall (hvacTick_failed m) c ticks
  · exact always_of_forall (fun _ _ => heatsByBand m) c ticks

/-- Cooling at full blast, a failure, and the repair into the heat. -/
noncomputable def failingSpells : List (HvacTick ℝ) :=
  [hvacAt 30.0 200.0, ⟨30.0, true, [], ⟨20.0, 0⟩, 60.0⟩, hvacAt 31.0 100.0, hvacAt 31.0 100.0, hvacAt 4.0 200.0]

/-- Through a failure and after it: every law at once, for a container that rests at first. -/
theorem hvac_dwell_times_failing :
    let m : LumpedThermal ℝ := LumpedThermal.default
    Between m.hvacTick m.CoolingEnds m.CoolingStarts
        (fun _ mid => 180 ≤ spent HvacTick.dtS mid) idleContainer failingSpells ∧
      Between m.hvacTick m.StageChanges m.StepsDown
        (fun _ mid => 180 ≤ spent HvacTick.dtS mid) idleContainer failingSpells ∧
      (∀ k, 0 ≤ ((failingSpells.take k).foldl m.hvacTick idleContainer).hvac.compressorHoldS) ∧
      Always m.hvacTick (fun c t => t.failed = true → (m.hvacTick c t).hvac.mode = .off) idleContainer
        failingSpells ∧
      Always m.hvacTick (fun c t => t.failed = false → m.HeatsByBand c t) idleContainer failingSpells := by
  intro m
  have hdt : ∀ t ∈ failingSpells, 0 < t.dtS := by
    intro t ht
    simp only [failingSpells, List.mem_cons, List.not_mem_nil, or_false] at ht
    rcases ht with rfl | rfl | rfl | rfl | rfl <;> norm_num [hvacAt]
  have hrun : m.minRunS = 180 := by norm_num [m, LumpedThermal.default]
  have hoff : m.minOffS = 180 := by norm_num [m, LumpedThermal.default]
  have hlaws := hvac_dwell_times m (c := idleContainer) rfl hdt
  rw [hrun, hoff] at hlaws
  obtain ⟨hspaced, hsteps, hhold, hfailed, hheats⟩ := hlaws
  exact ⟨hspaced, hsteps, hhold (by norm_num) (by norm_num), hfailed, hheats⟩

/-- A step from two compressors to one. -/
def LumpedThermal.SecondStops (m : LumpedThermal ℝ) (c : ContainerState ℝ) (t : HvacTick ℝ) :
    Prop :=
  c.hvac.mode = .cool2 ∧ (m.hvacTick c t).hvac.mode = .cool1

/-- From the start of the tick that stops it to the start of a later one. -/
def LumpedThermal.OutFor (m : LumpedThermal ℝ) (a : HvacTick ℝ) (mid : List (HvacTick ℝ)) : Prop :=
  m.minOffS ≤ spent HvacTick.dtS (a :: mid)

/-- No second compressor within its off time of the one before. -/
def LumpedThermal.SecondWaits (m : LumpedThermal ℝ) : ContainerState ℝ → List (HvacTick ℝ) → Prop :=
  Between m.hvacTick m.SecondStops (fun c t => (m.hvacTick c t).hvac.mode = .cool2) m.OutFor

/-- A tick that finds two compressors running, the countdown spent and the air
down to the lower edge of the second band. -/
def LumpedThermal.SecondIdle (m : LumpedThermal ℝ) (c : ContainerState ℝ) (t : HvacTick ℝ) : Prop :=
  c.hvac.mode = .cool2 ∧ c.hvac.compressorHoldS ≤ 0 ∧ t.airC ≤ m.cool2OffC

/-- After such a tick, no air at the upper edge within that time. -/
def LumpedThermal.AirWaits (m : LumpedThermal ℝ) : ContainerState ℝ → List (HvacTick ℝ) → Prop :=
  Between m.hvacTick m.SecondIdle (fun _ t => m.cool2OnC ≤ t.airC) m.OutFor

theorem secondStops_iff (hband : m.cool2OffC < m.cool2OnC) (hf : t.failed = false) :
    m.SecondStops c t ↔ m.SecondIdle c t := by
  refine and_congr_right fun hold => ?_
  rw [hvacTick_mode m c t hf, hold, nextMode_cool2]
  constructor
  · intro hnew
    split_ifs at hnew with hhot hlow
    exact ⟨free_iff.mp hlow.2, hlow.1⟩
  · rintro ⟨hfree, hlow⟩
    rw [if_neg (not_le.mpr (lt_of_le_of_lt hlow hband)), if_pos ⟨hlow, free_iff.mpr hfree⟩]

theorem SecondStops.changes (h : m.SecondStops c t) : m.StageChanges c t := by
  obtain ⟨hold, hnew⟩ := h
  rw [LumpedThermal.StageChanges, hnew, hold]
  exact ⟨rfl, by decide⟩

/-- Until the run time is spent the unit goes on cooling. -/
def CoolsFor (m : LumpedThermal ℝ) (e : ℝ) (c : ContainerState ℝ) : Prop :=
  m.minRunS ≤ e ∨ 0 ≤ e ∧ c.hvac.mode.cools = true ∧ m.minRunS ≤ c.hvac.compressorHoldS + e

theorem coolsFor_tick (hf : t.failed = false) (hdt : 0 < t.dtS) {e : ℝ} (h : CoolsFor m e c) :
    CoolsFor m (e + t.dtS) (m.hvacTick c t) := by
  obtain h | ⟨he, hcool, hle⟩ := h
  · exact .inl (by linarith)
  · cases hnew : (m.hvacTick c t).hvac.mode.cools with
    | false =>
      have hfree : c.hvac.compressorHoldS ≤ 0 := by
        by_contra hbusy
        have hkeep := nextMode_busy m t.airC hcool
        rw [hvacTick_mode m c t hf, Bool.eq_false_iff.mpr (mt free_iff.mp hbusy), hkeep] at hnew
        cases hnew
      exact .inl (by linarith)
    | true =>
      refine .inr ⟨by linarith, hnew, ?_⟩
      by_cases hchange : m.StageChanges c t
      · rw [hold_change m hchange]
        linarith
      · have hcount := le_hold_else m hchange fun hend =>
          Bool.false_ne_true (hend.2.symm.trans hnew)
        linarith

/-- Until then one compressor runs, while the air stays below the second band. -/
def OneFor (m : LumpedThermal ℝ) (e : ℝ) (c : ContainerState ℝ) : Prop :=
  m.minRunS ≤ e ∨ c.hvac.mode = .cool1 ∧ m.minRunS ≤ c.hvac.compressorHoldS + e

/-- In the air of one stage, a unit in it stays or steps down. -/
theorem mode_one (hf : t.failed = false) (hair : t.airC < m.cool2OnC)
    (hone : c.hvac.mode = .cool1) :
    (m.hvacTick c t).hvac.mode = .cool1 ∨
      (m.hvacTick c t).hvac.mode = .off ∧ c.hvac.compressorHoldS ≤ 0 := by
  rw [hvacTick_mode m c t hf, hone, nextMode_cool1, if_neg (not_le.mpr hair)]
  split_ifs with hlow
  · exact .inr ⟨rfl, free_iff.mp hlow.2⟩
  · exact .inl rfl

theorem oneFor_tick (hf : t.failed = false) (hdt : 0 < t.dtS) (hair : t.airC < m.cool2OnC) {e : ℝ}
    (h : OneFor m e c) : OneFor m (e + t.dtS) (m.hvacTick c t) := by
  obtain h | ⟨hone, hle⟩ := h
  · exact .inl (by linarith)
  · obtain hnew | ⟨-, hfree⟩ := mode_one m hf hair hone
    · have hcool : (m.hvacTick c t).hvac.mode.cools = true := by rw [hnew]; rfl
      have hcount := le_hold_else m (fun hc => hc.2 (hnew.trans hone.symm))
        (fun he => Bool.false_ne_true (he.2.symm.trans hcool))
      exact .inr ⟨hnew, by linarith⟩
    · exact .inl (by linarith)

/-- A cooling unit climbs at the second band at once. -/
theorem mode_climbs (hf : t.failed = false) (hair : m.cool2OnC ≤ t.airC)
    (hcool : c.hvac.mode.cools = true) : (m.hvacTick c t).hvac.mode = .cool2 := by
  rw [hvacTick_mode m c t hf]
  exact if_pos ⟨(units_pos _).mpr hcool, hair⟩

theorem spent_nonneg {ts : List (HvacTick ℝ)} (hdt : ∀ t ∈ ts, 0 < t.dtS) :
    0 ≤ spent HvacTick.dtS ts :=
  List.sum_nonneg fun _ hx => by
    obtain ⟨t, ht, rfl⟩ := List.mem_map.mp hx
    exact (hdt t ht).le

/-- A shorter stretch is out for less. -/
theorem OutFor.append {a : HvacTick ℝ} {before after : List (HvacTick ℝ)}
    (hdt : ∀ t ∈ after, 0 < t.dtS) (h : m.OutFor a before) : m.OutFor a (before ++ after) := by
  have hafter := spent_nonneg hdt
  rw [LumpedThermal.OutFor, spent_cons] at h ⊢
  rw [spent_append]
  linarith

variable {ticks : List (HvacTick ℝ)}

/-- In air at the second band the stopped compressor is back at once. -/
theorem air_of_second (hband : m.cool2OffC < m.cool2OnC) (hle : m.minOffS ≤ m.minRunS)
    (c : ContainerState ℝ) (hdt : ∀ t ∈ ticks, 0 < t.dtS) (hf : ∀ t ∈ ticks, t.failed = false)
    (hwait : m.SecondWaits c ticks) : m.AirWaits c ticks := by
  rintro pre a mid b post rfl hidle hair
  have hstop := (secondStops_iff m hband (hf a (by simp))).mpr hidle
  by_contra hshort
  have hout : a.dtS + spent HvacTick.dtS mid < m.minOffS := by
    rwa [LumpedThermal.OutFor, spent_cons, not_le] at hshort
  have hpos : 0 < a.dtS := hdt a (by simp)
  have hmid : ∀ t ∈ mid, t.failed = false ∧ 0 < t.dtS :=
    fun t ht => ⟨hf t (by simp [ht]), hdt t (by simp [ht])⟩
  have hchange := SecondStops.changes m hstop
  have hset : CoolsFor m 0 (m.hvacTick (pre.foldl m.hvacTick c) a) :=
    .inr ⟨le_refl 0, hchange.1, by rw [hold_change m hchange, add_zero]⟩
  -- the run time outlasts the stretch, so the unit still cools
  obtain hlong | ⟨-, hcool, -⟩ :=
    carried (CoolsFor m) hmid (fun e c t h => coolsFor_tick m h.1 h.2) hset
  · linarith
  · exact hshort (hwait pre a mid b post rfl hstop (mode_climbs m (hf b (by simp)) hair hcool))

/-- In air below it one compressor runs on until the interval has passed. -/
theorem second_of_air (hband : m.cool2OffC < m.cool2OnC) (hle : m.minOffS ≤ m.minRunS)
    (c : ContainerState ℝ) (hdt : ∀ t ∈ ticks, 0 < t.dtS) (hf : ∀ t ∈ ticks, t.failed = false)
    (hair : m.AirWaits c ticks) : m.SecondWaits c ticks := by
  rintro pre a mid b post rfl hstop htwo
  have hidle := (secondStops_iff m hband (hf a (by simp))).mp hstop
  by_contra hshort
  have hout : a.dtS + spent HvacTick.dtS mid < m.minOffS := by
    rwa [LumpedThermal.OutFor, spent_cons, not_le] at hshort
  have hpos : 0 < a.dtS := hdt a (by simp)
  have hcold : ∀ t ∈ mid, t.failed = false ∧ 0 < t.dtS ∧ t.airC < m.cool2OnC := by
    intro t ht
    refine ⟨hf t (by simp [ht]), hdt t (by simp [ht]), not_le.mp fun hhot => hshort ?_⟩
    obtain ⟨before, after, rfl⟩ := List.append_of_mem ht
    have hrest : ∀ u ∈ t :: after, 0 < u.dtS :=
      fun u hu => hdt u (by rcases List.mem_cons.mp hu with rfl | hu <;> simp_all)
    exact OutFor.append m hrest (hair pre a before t (after ++ b :: post) (by simp) hidle hhot)
  have hb : b.airC < m.cool2OnC :=
    not_le.mp fun hhot => hshort (hair pre a mid b post rfl hidle hhot)
  have hset : OneFor m 0 (m.hvacTick (pre.foldl m.hvacTick c) a) :=
    .inr ⟨hstop.2, by rw [hold_change m (SecondStops.changes m hstop), add_zero]⟩
  obtain hlong | ⟨hone, -⟩ :=
    carried (OneFor m) hcold (fun e c t h => oneFor_tick m h.1 h.2.1 h.2.2) hset
  · linarith
  · obtain h | ⟨h, -⟩ := mode_one m (hf b (by simp)) hb hone <;> rw [h] at htwo <;> cases htwo

end

/-- A unit's mode and its countdown. -/
def UnitAt (c : ContainerState ℝ) (mode : HvacMode) (holdS : ℝ) : Prop :=
  c.hvac.mode = mode ∧ c.hvac.compressorHoldS = holdS

theorem UnitAt.tick {c : ContainerState ℝ} {old : HvacMode} {holdS : ℝ} (h : UnitAt c old holdS)
    (airC dtS : ℝ) {new : HvacMode} {leftS : ℝ}
    (hmode : LumpedThermal.default.nextMode old airC (decide (holdS ≤ 0.0)) = new)
    (hhold : LumpedThermal.default.nextHoldS old new holdS dtS = leftS) :
    UnitAt (LumpedThermal.default.hvacTick c (hvacAt airC dtS)) new leftS := by
  obtain ⟨rfl, rfl⟩ := h
  have hnew := (hvacTick_mode _ c (hvacAt airC dtS) rfl).trans hmode
  exact ⟨hnew, by rw [hvacTick_hold, hnew]; exact hhold⟩

/-- Two hot spells leave both compressors running, their run time spent. -/
theorem hot_both : UnitAt (LumpedThermal.default.hvacTick
    (LumpedThermal.default.hvacTick idleContainer (hvacAt 30.0 200.0)) (hvacAt 30.0 200.0)) .cool2 0 := by
  have h0 : UnitAt idleContainer .off 0 := ⟨rfl, rfl⟩
  have h1 : UnitAt _ .cool2 LumpedThermal.default.minRunS := h0.tick 30.0 200.0
    (by norm_num [nextMode_off, LumpedThermal.coolingStart, LumpedThermal.default])
    (by rw [nextHoldS_eq]; exact if_pos ⟨rfl, by decide⟩)
  exact h1.tick 30.0 200.0 (by norm_num [nextMode_cool2, LumpedThermal.default])
    (by norm_num [nextHoldS_eq, HvacMode.cools, LumpedThermal.default])

/-- Then in mild air one of them stops, and in the heat it is back at once. -/
theorem mild_back (dtS : ℝ) {c : ContainerState ℝ} (h : UnitAt c .cool2 0) :
    UnitAt (LumpedThermal.default.hvacTick c (hvacAt 26.0 dtS)) .cool1 LumpedThermal.default.minRunS ∧
      UnitAt (LumpedThermal.default.hvacTick (LumpedThermal.default.hvacTick c (hvacAt 26.0 dtS))
        (hvacAt 30.0 1.0)) .cool2 LumpedThermal.default.minRunS := by
  have hone : UnitAt (LumpedThermal.default.hvacTick c (hvacAt 26.0 dtS)) .cool1
      LumpedThermal.default.minRunS := h.tick 26.0 dtS
    (by norm_num [nextMode_cool2, LumpedThermal.default])
    (by rw [nextHoldS_eq]; exact if_pos ⟨rfl, by decide⟩)
  refine ⟨hone, hone.tick 30.0 1.0 (by norm_num [nextMode_cool1, LumpedThermal.default]) ?_⟩
  rw [nextHoldS_eq]
  exact if_pos ⟨rfl, by decide⟩

/-- The second compressor waits the interval out exactly when the air does: the band alone, never
the countdown, keeps it from restarting beside its neighbour. -/
theorem second_compressor_waits {c : ContainerState ℝ} {ticks : List (HvacTick ℝ)}
    (hdt : ∀ t ∈ ticks, 0 < t.dtS) (hf : ∀ t ∈ ticks, t.failed = false) :
    LumpedThermal.default.SecondWaits c ticks ↔ LumpedThermal.default.AirWaits c ticks :=
  have hband : (LumpedThermal.default : LumpedThermal ℝ).cool2OffC <
      LumpedThermal.default.cool2OnC := by norm_num [LumpedThermal.default]
  have hle : (LumpedThermal.default : LumpedThermal ℝ).minOffS ≤ LumpedThermal.default.minRunS :=
    le_refl _
  ⟨air_of_second _ hband hle c hdt hf, second_of_air _ hband hle c hdt hf⟩

/-- A hot spell, the run time spent, a mild stretch, and the heat again. -/
noncomputable def mildStretch : List (HvacTick ℝ) :=
  [hvacAt 30.0 200.0, hvacAt 30.0 200.0, hvacAt 26.0 300.0, hvacAt 30.0 1.0]

/-- The second compressor stops, waits out the mild stretch, and is back. -/
theorem second_compressor_waits_mild :
    LumpedThermal.default.SecondWaits idleContainer mildStretch ∧
      ((mildStretch.take 3).foldl LumpedThermal.default.hvacTick idleContainer).hvac.mode = .cool1 ∧
      (mildStretch.foldl LumpedThermal.default.hvacTick idleContainer).hvac.mode = .cool2 := by
  have hrunning : ∀ t ∈ mildStretch, (0 < t.dtS ∧ t.failed = false) ∧
      (t.airC ≤ (LumpedThermal.default : LumpedThermal ℝ).cool2OffC →
        (LumpedThermal.default : LumpedThermal ℝ).minOffS ≤ t.dtS) := by
    intro t ht
    simp only [mildStretch, List.mem_cons, List.not_mem_nil, or_false] at ht
    rcases ht with rfl | rfl | rfl | rfl <;> norm_num [hvacAt, LumpedThermal.default]
  refine ⟨(second_compressor_waits (fun t ht => (hrunning t ht).1.1) fun t ht => (hrunning t ht).1.2).mpr ?_,
    ?_, ?_⟩
  · -- the mild tick is an interval long by itself
    rintro pre a mid b post hsplit hidle -
    have hmem : ∀ t ∈ a :: mid, t ∈ mildStretch := by
      intro t ht
      rw [hsplit]
      simp only [List.mem_append, List.mem_cons] at ht ⊢
      tauto
    have hmid : ∀ t ∈ mid, 0 < t.dtS := fun t ht => (hrunning t (hmem t (List.mem_cons_of_mem _ ht))).1.1
    have hlong := (hrunning a (hmem a List.mem_cons_self)).2 hidle.2.2
    have hspent := spent_nonneg hmid
    rw [LumpedThermal.OutFor, spent_cons]
    linarith
  · exact (mild_back 300.0 hot_both).1.1
  · exact (mild_back 300.0 hot_both).2.1

/-- A hot spell, the run time spent, a mild second, and the heat again. -/
noncomputable def hotSpells : List (HvacTick ℝ) :=
  [hvacAt 30.0 200.0, hvacAt 30.0 200.0, hvacAt 26.0 1.0, hvacAt 30.0 1.0]

theorem hotSpells_running : ∀ t ∈ hotSpells, 0 < t.dtS ∧ t.failed = false := by
  intro t ht
  simp only [hotSpells, List.mem_cons, List.not_mem_nil, or_false] at ht
  rcases ht with rfl | rfl | rfl | rfl <;> norm_num [hvacAt]

theorem second_compressor_back :
    (∀ t ∈ hotSpells, 0 < t.dtS ∧ t.failed = false) ∧
      ¬ LumpedThermal.default.SecondWaits idleContainer hotSpells := by
  refine ⟨hotSpells_running, fun h => ?_⟩
  obtain ⟨hone, htwo⟩ := mild_back 1.0 hot_both
  have hout := h [hvacAt 30.0 200.0, hvacAt 30.0 200.0] (hvacAt 26.0 1.0) [] (hvacAt 30.0 1.0) []
    rfl ⟨hot_both.1, hone.1⟩ htwo.1
  norm_num [LumpedThermal.OutFor, hvacAt, LumpedThermal.default] at hout

end Bess
