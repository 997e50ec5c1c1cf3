import BessEmulator.Cell

/-!
# The battery management system

A SoC window with a linear taper, derated by cell temperature from the cell
maker's tables; a cell spread that throughput and leakage widen and passive
balancing narrows; and the rack alarm word.
-/
namespace Bess

variable {F : Type} [Scalar F]

structure TempCurve (F : Type) where
  points : List (F × F)
  peak : F
  /-- The longest run of points at full rate; none when no run has length. -/
  full : Option (F × F)

/-- What the scan for the longest full-rate run carries. -/
structure FullRun (F : Type) where
  best : Option (F × F)
  start : Option F

def FullRun.extend (peak : F) (run : FullRun F) (p : F × F) : FullRun F :=
  if peak ≤ p.2 then
    let first := run.start.getD p.1
    let better :=
      decide (first < p.1) &&
        match run.best with
        | none => true
        | some b => decide (b.2 - b.1 < p.1 - first)
    { best := if better then some (first, p.1) else run.best, start := some first }
  else { run with start := none }

def longestFullRun (points : List (F × F)) (peak : F) : Option (F × F) :=
  (points.foldl (FullRun.extend peak) ⟨none, none⟩).best

def TempCurve.new (points : List (F × F)) : TempCurve F :=
  let peak := points.foldl (fun m p => max m p.2) 0
  { points := points, peak := peak, full := longestFullRun points peak }

/-- The rate between two points of the table. -/
def rateBetween (a b : F × F) (tempC : F) : F :=
  a.2 + (b.2 - a.2) * (tempC - a.1) / (b.1 - a.1)

def rateScan (tempC : F) : F × F → List (F × F) → F
  | a, [] => a.2
  | a, b :: rest => if tempC ≤ b.1 then rateBetween a b tempC else rateScan tempC b rest

def TempCurve.rateAt (c : TempCurve F) (tempC : F) : F :=
  match c.points with
  | [] => 0
  | first :: rest =>
    let last := rest.getLastD first
    if first.1 ≤ tempC ∧ tempC ≤ last.1 then rateScan tempC first rest else 0

/-- Inside the longest full-rate run. -/
def TempCurve.atFull (c : TempCurve F) (tempC : F) : Bool :=
  match c.full with
  | none => false
  | some f => decide (f.1 ≤ tempC) && decide (tempC ≤ f.2)

def TempCurve.factor (c : TempCurve F) (tempC : F) : F :=
  if c.peak ≤ 0 then 0
  else if c.atFull tempC then 1
  else Scalar.clamp (c.rateAt tempC / c.peak) 0 1

def EVE_MB31_CHARGE_P : List (F × F) :=
  [(0.0, 0.05), (5.0, 0.12), (10.0, 0.3), (15.0, 0.5), (20.0, 0.5), (25.0, 0.5), (45.0, 0.5),
    (50.0, 0.5), (55.0, 0.5), (60.0, 0.0)]

def EVE_MB31_DISCHARGE_P : List (F × F) :=
  [(-30.0, 0.0), (-20.0, 0.5), (-10.0, 0.5), (-5.0, 0.5), (0.0, 0.5), (5.0, 0.5), (45.0, 0.5),
    (50.0, 0.5), (55.0, 0.5), (60.0, 0.0)]

theorem TempCurve.factor_mem (c : TempCurve ℝ) (tempC : ℝ) :
    0 ≤ c.factor tempC ∧ c.factor tempC ≤ 1 := by
  rw [TempCurve.factor]
  split
  · exact ⟨le_refl 0, zero_le_one⟩
  · split
    · exact ⟨zero_le_one, le_refl 1⟩
    · exact clamp_unit_mem _

structure Balancing (F : Type) where
  growthPerThroughput : F
  growthPerS : F
  bleedCurrentA : F
  bleedingShare : F
  socMin : F
  dvStartV : F
  dvStopV : F
  maxDischargeA : F

def Balancing.default : Balancing F where
  growthPerThroughput := 1.0e-4
  growthPerS := 0.018 / (30.0 * 86400.0)
  bleedCurrentA := 0.24
  bleedingShare := 0.5
  socMin := 0.90
  dvStartV := 0.030
  dvStopV := 0.020
  maxDischargeA := 1.0

/-- The spread after one tick's drift. -/
def Balancing.drift (m : Balancing F) (rack : RackState F) (cfg : RackConfig F) (dtS : F) : F :=
  let throughput :=
    if rack.inService then
      rack.cellDsoc
        + m.growthPerThroughput
          * (Scalar.abs rack.currentA * dtS / (3600.0 * capacityAh rack cfg))
    else rack.cellDsoc
  min (throughput + (m.growthPerS + rack.selfDischargeExcessPerS) * dtS) 1.0

/-- Whether the bleeders run this tick, from the spread the last step left. -/
def Balancing.active (m : Balancing F) (rack : RackState F) : Bool :=
  let mayBleed :=
    rack.inService && decide (m.socMin ≤ rack.soc) && decide (rack.currentA ≤ m.maxDischargeA)
  if rack.balancingActive then mayBleed && decide (m.dvStopV < rack.cellDvV)
  else mayBleed && decide (m.dvStartV ≤ rack.cellDvV)

theorem Balancing.active_iff (m : Balancing F) (rack : RackState F) :
    m.active rack = true ↔
      (rack.inService = true ∧ m.socMin ≤ rack.soc ∧ rack.currentA ≤ m.maxDischargeA) ∧
        if rack.balancingActive then m.dvStopV < rack.cellDvV else m.dvStartV ≤ rack.cellDvV := by
  rw [Balancing.active]
  split <;> simp only [Bool.and_eq_true, decide_eq_true_eq, and_assoc]

/-- What one tick of bleeding takes off the spread. -/
def Balancing.narrowed (m : Balancing F) (rack : RackState F) (cfg : RackConfig F) (dsoc dtS : F) :
    F :=
  min (m.bleedCurrentA * dtS / (3600.0 * capacityAh rack cfg)) dsoc

/-- The voltage spread read off the curve. -/
def spreadV (soc dsoc : F) : F := ocvCellV (soc + dsoc / 2) - ocvCellV (soc - dsoc / 2)

def Balancing.step (m : Balancing F) (rack : RackState F) (cfg : RackConfig F) (dtS : F) :
    RackState F × BmsFlows F :=
  let dsoc := m.drift rack cfg dtS
  if m.active rack then
    let narrowed := m.narrowed rack cfg dsoc dtS
    let soc := max (rack.soc - m.bleedingShare * narrowed) 0
    let bledWh :=
      (ocvCellIntegralV rack.soc - ocvCellIntegralV soc) * capacityAh rack cfg
        * (cfg.cellsSeries : F)
    ({ rack with
        soc := soc
        cellDsoc := dsoc - narrowed
        balancingActive := true
        cellDvV := spreadV soc (dsoc - narrowed) },
      { bledWh := bledWh, heatW := bledWh * 3600.0 / dtS })
  else
    ({ rack with
        cellDsoc := dsoc
        balancingActive := false
        cellDvV := spreadV rack.soc dsoc },
      { bledWh := 0, heatW := 0 })

structure RackAlarmThresholds (F : Type) where
  overTemp : Band F
  overTempTripC : F
  underTemp : Band F
  underTempTripC : F
  socMargin : F
  imbalance : Band F
  imbalanceTripV : F
  derate : Band F

def RackAlarmThresholds.default : RackAlarmThresholds F where
  overTemp := ⟨50.0, 47.0⟩
  overTempTripC := 60.0
  underTemp := ⟨0.0, 2.0⟩
  underTempTripC := -30.0
  socMargin := 0.01
  imbalance := ⟨0.120, 0.100⟩
  imbalanceTripV := 0.500
  derate := ⟨0.98, 0.995⟩

/-- Every bit of the rack word with its next value, in the order written. -/
def RackAlarmThresholds.bits (th : RackAlarmThresholds F) (rack : RackState F) (cfg : RackConfig F)
    (derateFactor : F) : List (Nat × Bool) :=
  let w := rack.alarmBits
  let t := rack.cellTempC
  let socHigh : Band F := ⟨cfg.socMax + th.socMargin, cfg.socMax⟩
  let socLow : Band F := ⟨cfg.socMin - th.socMargin, cfg.socMin⟩
  let latched (bit : Nat) (now : Bool) : Bool := hasBit w bit || now
  [(RackBit.OVER_TEMP_WARNING, rising (hasBit w RackBit.OVER_TEMP_WARNING) t th.overTemp),
    (RackBit.UNDER_TEMP_WARNING, falling (hasBit w RackBit.UNDER_TEMP_WARNING) t th.underTemp),
    (RackBit.SOC_HIGH, rising (hasBit w RackBit.SOC_HIGH) rack.soc socHigh),
    (RackBit.SOC_LOW, falling (hasBit w RackBit.SOC_LOW) rack.soc socLow),
    (RackBit.IMBALANCE_WARNING,
      rising (hasBit w RackBit.IMBALANCE_WARNING) rack.cellDvV th.imbalance),
    (RackBit.DERATE_ACTIVE, falling (hasBit w RackBit.DERATE_ACTIVE) derateFactor th.derate),
    (RackBit.ISOLATED, !rack.inService),
    (RackBit.OVER_TEMP_TRIP, latched RackBit.OVER_TEMP_TRIP (decide (th.overTempTripC ≤ t))),
    (RackBit.IMBALANCE_TRIP,
      latched RackBit.IMBALANCE_TRIP (decide (th.imbalanceTripV ≤ rack.cellDvV))),
    (RackBit.UNDER_TEMP_TRIP, latched RackBit.UNDER_TEMP_TRIP (decide (t ≤ th.underTempTripC)))]

def RackAlarmThresholds.evaluate (th : RackAlarmThresholds F) (rack : RackState F)
    (cfg : RackConfig F) (derateFactor : F) : BitVec 32 :=
  (th.bits rack cfg derateFactor).foldl (fun next p => withBit next p.1 p.2) rack.alarmBits

/-- Writing bits below sixteen keeps a word low. -/
theorem lowWord_bits {w : BitVec 32} (h : LowWord w) (ps : List (Nat × Bool))
    (hp : ∀ p ∈ ps, p.1 < 16) : LowWord (ps.foldl (fun next p => withBit next p.1 p.2) w) := by
  induction ps generalizing w with
  | nil => exact h
  | cons p ps ih =>
    exact ih (lowWord_withBit h p.1 p.2 (hp p List.mem_cons_self))
      fun q hq => hp q (List.mem_cons_of_mem _ hq)

theorem RackAlarmThresholds.bits_fst (th : RackAlarmThresholds F) (rack : RackState F)
    (cfg : RackConfig F) (derateFactor : F) :
    (th.bits rack cfg derateFactor).map Prod.fst = [0, 1, 2, 3, 4, 5, 6, 8, 9, 10] := rfl

/-- Every bit written is of the low word. -/
theorem RackAlarmThresholds.bits_low (th : RackAlarmThresholds F) {rack : RackState F}
    {cfg : RackConfig F} {derateFactor : F} {p : Nat × Bool}
    (hp : p ∈ th.bits rack cfg derateFactor) : p.1 < 16 := by
  have hm := List.mem_map_of_mem (f := Prod.fst) hp
  rw [th.bits_fst] at hm
  have hlow : ∀ i ∈ [0, 1, 2, 3, 4, 5, 6, 8, 9, 10], i < 16 := by decide
  exact hlow p.1 hm

theorem RackAlarmThresholds.lowWord_evaluate (th : RackAlarmThresholds F) {rack : RackState F}
    (cfg : RackConfig F) (derateFactor : F) (h : LowWord rack.alarmBits) :
    LowWord (th.evaluate rack cfg derateFactor) := by
  apply lowWord_bits h
  intro p hp
  exact th.bits_low hp

/-- A bit no write is about keeps its value. -/
theorem hasBit_bits_ne {i : Nat} (ps : List (Nat × Bool)) (h : ∀ p ∈ ps, p.1 ≠ i) (w : BitVec 32) :
    hasBit (ps.foldl (fun next p => withBit next p.1 p.2) w) i = hasBit w i := by
  induction ps generalizing w with
  | nil => rfl
  | cons p ps ih =>
    rw [List.foldl_cons, ih (fun q hq => h q (List.mem_cons_of_mem _ hq)),
      hasBit_withBit_ne _ _ (h p List.mem_cons_self).symm]

/-- Distinct bits, each written once: every bit reads back as written. -/
theorem hasBit_bits {i : Nat} {v : Bool} {ps : List (Nat × Bool)} (hnd : (ps.map Prod.fst).Nodup)
    (hlow : ∀ p ∈ ps, p.1 < 16) (hp : (i, v) ∈ ps) (w : BitVec 32) :
    hasBit (ps.foldl (fun next p => withBit next p.1 p.2) w) i = v := by
  induction ps generalizing w with
  | nil => cases hp
  | cons p ps ih =>
    rw [List.map_cons, List.nodup_cons] at hnd
    rw [List.foldl_cons]
    rcases List.mem_cons.mp hp with rfl | hmem
    · have hne : ∀ q ∈ ps, q.1 ≠ i := by
        intro q hq he
        have hm := List.mem_map_of_mem (f := Prod.fst) hq
        rw [he] at hm
        exact hnd.1 hm
      rw [hasBit_bits_ne ps hne]
      exact hasBit_withBit_self _ _ _ (by have := hlow _ List.mem_cons_self; omega)
    · exact ih hnd.2 (fun q hq => hlow q (List.mem_cons_of_mem _ hq)) hmem _

/-- Every bit of the rack word reads back as evaluated. -/
theorem RackAlarmThresholds.hasBit_evaluate (th : RackAlarmThresholds F) (rack : RackState F)
    (cfg : RackConfig F) (derateFactor : F) {i : Nat} {v : Bool}
    (h : (i, v) ∈ th.bits rack cfg derateFactor) :
    hasBit (th.evaluate rack cfg derateFactor) i = v := by
  apply hasBit_bits _ _ h
  · rw [th.bits_fst]
    decide
  · intro p hp
    exact th.bits_low hp

structure BasicBms (F : Type) where
  taperSocBand : F
  chargeTemp : TempCurve F
  dischargeTemp : TempCurve F
  balancing : Balancing F
  alarms : RackAlarmThresholds F

def BasicBms.default : BasicBms F where
  taperSocBand := 0.03
  chargeTemp := TempCurve.new EVE_MB31_CHARGE_P
  dischargeTemp := TempCurve.new EVE_MB31_DISCHARGE_P
  balancing := Balancing.default
  alarms := RackAlarmThresholds.default

def ratedRackW (cfg : RackConfig F) : F := cfg.maxCurrentA * cfg.nominalV

def BasicBms.rackLimits (m : BasicBms F) (rack : RackState F) (cfg : RackConfig F) :
    PowerLimits F :=
  if rack.inService then
    let dischargeF :=
      Scalar.clamp ((rack.soc - cfg.socMin) / m.taperSocBand) 0 1
        * m.dischargeTemp.factor rack.cellTempC
    let chargeF :=
      Scalar.clamp ((cfg.socMax - rack.soc) / m.taperSocBand) 0 1
        * m.chargeTemp.factor rack.cellTempC
    { maxChargeW := ratedRackW cfg * chargeF, maxDischargeW := ratedRackW cfg * dischargeF }
  else PowerLimits.zero

/-- A rack's limits: the taper's and the temperature's share of its rating. -/
theorem BasicBms.rackLimits_mem (m : BasicBms ℝ) (rack : RackState ℝ) {cfg : RackConfig ℝ}
    (h : 0 ≤ ratedRackW cfg) :
    0 ≤ (m.rackLimits rack cfg).maxChargeW ∧ 0 ≤ (m.rackLimits rack cfg).maxDischargeW := by
  rw [BasicBms.rackLimits]
  split
  · constructor
    · exact mul_nonneg h (mul_nonneg (clamp_unit_mem _).1 (m.chargeTemp.factor_mem _).1)
    · exact mul_nonneg h (mul_nonneg (clamp_unit_mem _).1 (m.dischargeTemp.factor_mem _).1)
  · exact ⟨le_refl 0, le_refl 0⟩

def BasicBms.rackAlarms (m : BasicBms F) (rack : RackState F) (cfg : RackConfig F) : BitVec 32 :=
  let t := rack.cellTempC
  m.alarms.evaluate rack cfg (min (m.chargeTemp.factor t) (m.dischargeTemp.factor t))

def BasicBms.bmsLogic (m : BasicBms F) : BmsLogic F where
  rackLimits := m.rackLimits
  stepBms := m.balancing.step
  rackAlarms := m.rackAlarms
  stepBms_alarmBits := by
    intro r cfg dt
    rw [Balancing.step]
    simp only
    split <;> rfl

theorem BasicBms.lowWord_rackAlarms (m : BasicBms F) {rack : RackState F} (cfg : RackConfig F)
    (h : LowWord rack.alarmBits) : LowWord (m.rackAlarms rack cfg) :=
  m.alarms.lowWord_evaluate cfg _ h

end Bess
