import BessEmulator.Polyline
import BessEmulator.Traits

/-!
# The rack's electrical model

A 1-RC equivalent circuit over an LFP open-circuit voltage table. The current
is the small root of the terminal-power quadratic; all chemical power that
does not reach the terminals is heat.
-/
namespace Bess

section

variable {F : Type} [Scalar F]

def OCV_LFP_V : List (F × F) :=
  [(0.00, 2.90), (0.05, 3.05), (0.10, 3.18), (0.20, 3.25), (0.30, 3.28), (0.40, 3.29),
    (0.50, 3.30), (0.60, 3.31), (0.70, 3.32), (0.80, 3.33), (0.90, 3.34), (0.95, 3.36),
    (1.00, 3.45)]

def ocvCellV (soc : F) : F :=
  let s := Scalar.clamp soc 0 1
  match (OCV_LFP_V : List (F × F)) with
  | [] => 0
  | prev :: rest => Polyline.scan s prev rest

/-- Integral of the cell's curve from empty, V per unit of SoC. -/
def ocvCellIntegralV (soc : F) : F :=
  let s := Scalar.clamp soc 0 1
  match (OCV_LFP_V : List (F × F)) with
  | [] => 0
  | prev :: rest => Polyline.scanArea s (ocvCellV s) 0 prev rest

def ocvRackV (soc : F) (cfg : RackConfig F) : F := ocvCellV soc * (cfg.cellsSeries : F)

structure Ecm1Rc (F : Type) where
  r0Ohm : F
  r1Ohm : F
  tau1S : F

def Ecm1Rc.lfp314ahRack : Ecm1Rc F := ⟨0.28, 0.06, 30.0⟩

/-- An isolated rack carries no current; its polarization relaxes. -/
def Ecm1Rc.restRack (m : Ecm1Rc F) (rack : RackState F) (cfg : RackConfig F) (dtS : F) :
    RackState F × RackStepResult F :=
  let v1 := rack.polarizationV + dtS / m.tau1S * (-rack.polarizationV)
  ({ rack with
      currentA := 0
      polarizationV := v1
      voltageV := ocvRackV rack.soc cfg - v1 }, ⟨0, 0⟩)

/-- Current that delivers `p` from the internal voltage `e`, before the bounds. -/
def Ecm1Rc.currentFor (r0 e p : F) : F :=
  if Scalar.abs p < Scalar.epsilon then 0
  else (e - Scalar.sqrt (e * e - 4.0 * r0 * p)) / (2.0 * r0)

/-- Capacity left of the aged cell, Ah. -/
def capacityAh (rack : RackState F) (cfg : RackConfig F) : F := cfg.cellCapacityAh * rack.soh

/-- The current of one tick: the root, then the electrical and SoC bounds. -/
def Ecm1Rc.current (m : Ecm1Rc F) (rack : RackState F) (cfg : RackConfig F) (pRequestW dtS : F) :
    F :=
  let r0 := m.r0Ohm * rack.resistanceScale
  let e := ocvRackV rack.soc cfg - rack.polarizationV
  let pMaxW := e * e / (4.0 * r0)
  let p := min pRequestW (0.999 * pMaxW)
  let iA := Scalar.clamp (Ecm1Rc.currentFor r0 e p) (-cfg.maxCurrentA) cfg.maxCurrentA
  let maxDischargeA := rack.soc * capacityAh rack cfg * 3600.0 / dtS
  let maxChargeA := (1.0 - rack.soc) * capacityAh rack cfg * 3600.0 / dtS
  Scalar.clamp iA (-maxChargeA) maxDischargeA

/-- A rack carrying the current `iA` for one tick. -/
def Ecm1Rc.carry (m : Ecm1Rc F) (rack : RackState F) (cfg : RackConfig F) (iA dtS : F) :
    RackState F × RackStepResult F :=
  let r0 := m.r0Ohm * rack.resistanceScale
  let r1 := m.r1Ohm * rack.resistanceScale
  let ocv := ocvRackV rack.soc cfg
  let v1 := rack.polarizationV
  let e := ocv - v1
  let p := (e - r0 * iA) * iA
  ({ rack with
      soc := Scalar.clamp (rack.soc - iA * dtS / (3600.0 * capacityAh rack cfg)) 0 1
      currentA := iA
      voltageV := e - r0 * iA
      polarizationV := v1 + dtS / m.tau1S * (iA * r1 - v1) },
    ⟨p, ocv * iA - p⟩)

def Ecm1Rc.stepRack (m : Ecm1Rc F) (rack : RackState F) (cfg : RackConfig F) (pRequestW dtS : F) :
    RackState F × RackStepResult F :=
  if rack.inService then m.carry rack cfg (m.current rack cfg pRequestW dtS) dtS
  else m.restRack rack cfg dtS

def Ecm1Rc.storedEnergyWh (_ : Ecm1Rc F) (rack : RackState F) (cfg : RackConfig F) : F :=
  ocvCellIntegralV rack.soc * capacityAh rack cfg * (cfg.cellsSeries : F)

def Ecm1Rc.cellModel (m : Ecm1Rc F) : CellModel F where
  stepRack := m.stepRack
  storedEnergyWh := m.storedEnergyWh
  stepRack_alarmBits := by
    intro r cfg p dt
    rw [Ecm1Rc.stepRack]
    split <;> rfl

end

/-- The steepest slope of the table, V per unit of SoC. -/
noncomputable def OCV_SLOPE : ℝ := 3

theorem ocv_rising : Polyline.Rising OCV_SLOPE ((0.00 : ℝ), 2.90)
    [(0.05, 3.05), (0.10, 3.18), (0.20, 3.25), (0.30, 3.28), (0.40, 3.29), (0.50, 3.30),
      (0.60, 3.31), (0.70, 3.32), (0.80, 3.33), (0.90, 3.34), (0.95, 3.36), (1.00, 3.45)] := by
  rw [OCV_SLOPE]
  simp only [Polyline.Rising, and_true]
  norm_num

theorem ocv_slope_nonneg : 0 ≤ OCV_SLOPE := by norm_num [OCV_SLOPE]

theorem clamp_unit {s : ℝ} (h0 : 0 ≤ s) (h1 : s ≤ 1) : Scalar.clamp s 0 1 = s :=
  Scalar.clamp_of_mem h0 h1

/-- On the window the curve is the table's. -/
theorem ocvCellV_scan {s : ℝ} (h0 : 0 ≤ s) (h1 : s ≤ 1) : ocvCellV s =
    Polyline.scan s (0.00, 2.90) [(0.05, 3.05), (0.10, 3.18), (0.20, 3.25), (0.30, 3.28),
      (0.40, 3.29), (0.50, 3.30), (0.60, 3.31), (0.70, 3.32), (0.80, 3.33), (0.90, 3.34),
      (0.95, 3.36), (1.00, 3.45)] := by
  simp only [ocvCellV, clamp_unit h0 h1, OCV_LFP_V]

theorem ocvCellIntegralV_area {s : ℝ} (h0 : 0 ≤ s) (h1 : s ≤ 1) : ocvCellIntegralV s =
    Polyline.area s (0.00, 2.90) [(0.05, 3.05), (0.10, 3.18), (0.20, 3.25), (0.30, 3.28),
      (0.40, 3.29), (0.50, 3.30), (0.60, 3.31), (0.70, 3.32), (0.80, 3.33), (0.90, 3.34),
      (0.95, 3.36), (1.00, 3.45)] := by
  simp only [ocvCellIntegralV, clamp_unit h0 h1, ocvCellV_scan h0 h1, OCV_LFP_V, Polyline.area]

/-- The energy between two states of charge, against the voltage at either. -/
theorem ocv_enclosed {x y : ℝ} (hx : 0 ≤ x) (hxy : x ≤ y) (hy : y ≤ 1) :
    Polyline.Enclosed OCV_SLOPE x y (ocvCellV x) (ocvCellV y)
      (ocvCellIntegralV y - ocvCellIntegralV x) := by
  rw [ocvCellV_scan hx (hxy.trans hy), ocvCellV_scan (hx.trans hxy) hy,
    ocvCellIntegralV_area hx (hxy.trans hy), ocvCellIntegralV_area (hx.trans hxy) hy]
  apply Polyline.area_enclosed ocv_slope_nonneg ocv_rising
  · norm_num
    exact hx
  · exact hxy
  · simp only [Polyline.last]
    norm_num
    exact hy

theorem clamp_unit_mem (s : ℝ) : 0 ≤ Scalar.clamp s 0 1 ∧ Scalar.clamp s 0 1 ≤ 1 :=
  ⟨Scalar.le_clamp zero_le_one, Scalar.clamp_le zero_le_one⟩

/-- The curve only sees its argument clamped to the window. -/
theorem ocvCellV_clamp (s : ℝ) : ocvCellV s = ocvCellV (Scalar.clamp s 0 1) := by
  obtain ⟨h0, h1⟩ := clamp_unit_mem s
  rw [ocvCellV_scan h0 h1]
  rfl

theorem ocvCellV_mem (s : ℝ) : 2.9 ≤ ocvCellV s ∧ ocvCellV s ≤ 3.45 := by
  obtain ⟨h0, h1⟩ := clamp_unit_mem s
  have hstart : (0.00 : ℝ) ≤ Scalar.clamp s 0 1 := by
    norm_num
    exact h0
  rw [ocvCellV_clamp, ocvCellV_scan h0 h1]
  have hlow := Polyline.first_le_scan ocv_slope_nonneg ocv_rising hstart
  have hhigh := Polyline.scan_le_last ocv_rising hstart
  simp only [Polyline.last] at hhigh
  constructor
  · norm_num at hlow ⊢
    exact hlow
  · norm_num at hhigh ⊢
    exact hhigh

theorem ocvCellV_rise {x y : ℝ} (hx : 0 ≤ x) (hxy : x ≤ y) (hy : y ≤ 1) :
    0 ≤ ocvCellV y - ocvCellV x ∧ ocvCellV y - ocvCellV x ≤ OCV_SLOPE * (y - x) := by
  rw [ocvCellV_scan hx (hxy.trans hy), ocvCellV_scan (hx.trans hxy) hy]
  apply Polyline.scan_rise ocv_slope_nonneg ocv_rising
  · norm_num
    exact hx
  · exact hxy

/-- The charge curve never falls, inside the window or beyond it. -/
theorem ocvCellV_mono {x y : ℝ} (h : x ≤ y) : ocvCellV x ≤ ocvCellV y := by
  have hclamp : Scalar.clamp x 0 1 ≤ Scalar.clamp y 0 1 := Scalar.clamp_mono zero_le_one h
  rw [ocvCellV_clamp x, ocvCellV_clamp y]
  linarith [(ocvCellV_rise (clamp_unit_mem x).1 hclamp (clamp_unit_mem y).2).1]

/-- Nor does it rise faster than at its steepest, inside the window or beyond it. -/
theorem ocvCellV_sub_le {x y : ℝ} (h : x ≤ y) : ocvCellV y - ocvCellV x ≤ OCV_SLOPE * (y - x) := by
  have hclamp : Scalar.clamp x 0 1 ≤ Scalar.clamp y 0 1 := Scalar.clamp_mono zero_le_one h
  have hrise := (ocvCellV_rise (clamp_unit_mem x).1 hclamp (clamp_unit_mem y).2).2
  rw [ocvCellV_clamp x, ocvCellV_clamp y]
  exact hrise.trans (mul_le_mul_of_nonneg_left (Scalar.clamp_sub_le zero_le_one h) ocv_slope_nonneg)

/-- Chemical energy released at the starting voltage, against the energy the
curve gives up: off by at most half the steepest slope times the square. -/
theorem ocv_linearization {x y : ℝ} (hx0 : 0 ≤ x) (hx1 : x ≤ 1) (hy0 : 0 ≤ y) (hy1 : y ≤ 1) :
    |ocvCellV x * (x - y) - (ocvCellIntegralV x - ocvCellIntegralV y)| ≤
      OCV_SLOPE / 2 * (x - y) ^ 2 := by
  rw [abs_le]
  rcases le_total x y with h | h
  · have he := ocv_enclosed hx0 h hy1
    constructor
    · nlinarith [he.low, mul_nonneg ocv_slope_nonneg (sq_nonneg (x - y))]
    · nlinarith [he.fromLeft]
  · have he := ocv_enclosed hy0 h hx1
    constructor
    · nlinarith [he.high, mul_nonneg ocv_slope_nonneg (sq_nonneg (x - y))]
    · nlinarith [he.fromRight]

end Bess
