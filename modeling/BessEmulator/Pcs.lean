import BessEmulator.Traits

/-!
# Power conversion

A flat-efficiency converter and the partial-load curve: a loss parabola in
the AC power, inverted three times over, once for what a DC limit can reach,
once for what an AC target needs, once for what a DC power became.
-/
namespace Bess

variable {F : Type} [Scalar F]

/-- The operating state a conversion leaves: a fault stays a fault. -/
def opStateAfter (op : PcsOpState) (pDcActualW : F) : PcsOpState :=
  if op ≠ .fault then (if Scalar.abs pDcActualW < Scalar.epsilon then .standby else .run) else op

/-- A PCS that has converted `pDcActualW` into `pAcW`. -/
def PcsState.converted (pcs : PcsState F) (pDcActualW pAcW : F) : PcsState F where
  opState := opStateAfter pcs.opState pDcActualW
  pAcSetpointW := pcs.pAcSetpointW
  pAcW := pAcW
  pDcW := pDcActualW
  lossW := pDcActualW - pAcW

structure FlatPcs (F : Type) where
  ratedW : F
  efficiency : F
  standbyThresholdW : F

namespace FlatPcs

def new (ratedW : F) : FlatPcs F := ⟨ratedW, 0.975, 1.0e3⟩

def acCapabilityW (m : FlatPcs F) (dcLimits : PowerLimits F) : PowerLimits F where
  maxDischargeW := min (dcLimits.maxDischargeW * m.efficiency) m.ratedW
  maxChargeW := min (dcLimits.maxChargeW / m.efficiency) m.ratedW

def dcRequestW (m : FlatPcs F) (pAcTargetW : F) (dcLimits : PowerLimits F) : F :=
  let ac := Scalar.clamp pAcTargetW (-m.ratedW) m.ratedW
  if Scalar.abs ac < m.standbyThresholdW then 0
  else if 0 < ac then min (ac / m.efficiency) dcLimits.maxDischargeW
  else max (ac * m.efficiency) (-dcLimits.maxChargeW)

def acOf (m : FlatPcs F) (pDcActualW : F) : F :=
  if 0 < pDcActualW then pDcActualW * m.efficiency else pDcActualW / m.efficiency

def pcsModel (m : FlatPcs F) : PcsModel F where
  acCapabilityW := m.acCapabilityW
  dcRequestW := m.dcRequestW
  finalize pcs pDcActualW := (pcs.converted pDcActualW (m.acOf pDcActualW), m.acOf pDcActualW)

end FlatPcs

structure CurvePcs (F : Type) where
  ratedW : F
  k0 : F
  k1 : F
  k2 : F
  standbyThresholdW : F

namespace CurvePcs

def cecUtilityReference (ratedW : F) : CurvePcs F where
  ratedW := ratedW
  k0 := 2.464096e-3
  k1 := -1.402627e-3
  k2 := 2.144562e-2
  standbyThresholdW := 1.0e3

def lossW (m : CurvePcs F) (pAcAbsW : F) : F :=
  let p := pAcAbsW / m.ratedW
  (m.k0 + m.k1 * p + m.k2 * p * p) * m.ratedW

def dischargeAcW (m : CurvePcs F) (pDcW : F) : F :=
  let a := m.k2 / m.ratedW
  let b := 1.0 + m.k1
  let c := m.k0 * m.ratedW - pDcW
  let disc := max (b * b - 4.0 * a * c) 0
  max ((-b + Scalar.sqrt disc) / (2.0 * a)) 0

def chargeAcAbsW (m : CurvePcs F) (pDcAbsW : F) : F :=
  let a := m.k2 / m.ratedW
  let b := 1.0 - m.k1
  let c := m.k0 * m.ratedW + pDcAbsW
  let disc := max (b * b - 4.0 * a * c) 0
  (b - Scalar.sqrt disc) / (2.0 * a)

def acCapabilityW (m : CurvePcs F) (dcLimits : PowerLimits F) : PowerLimits F where
  maxDischargeW := min (m.dischargeAcW dcLimits.maxDischargeW) m.ratedW
  maxChargeW := min (m.chargeAcAbsW dcLimits.maxChargeW) m.ratedW

def dcRequestW (m : CurvePcs F) (pAcTargetW : F) (dcLimits : PowerLimits F) : F :=
  let ac := Scalar.clamp pAcTargetW (-m.ratedW) m.ratedW
  if Scalar.abs ac < m.standbyThresholdW then 0
  else
    let dc := ac + m.lossW (Scalar.abs ac)
    if 0 < ac then min dc dcLimits.maxDischargeW
    -- a small charge target may not cover the no-load loss: stand by instead
    else max (min dc 0) (-dcLimits.maxChargeW)

def acOf (m : CurvePcs F) (pDcActualW : F) : F :=
  if 0 < pDcActualW then m.dischargeAcW pDcActualW
  else if pDcActualW < 0 then -m.chargeAcAbsW (-pDcActualW)
  else 0

def finalize (m : CurvePcs F) (pcs : PcsState F) (pDcActualW : F) : PcsState F × F :=
  (pcs.converted pDcActualW (m.acOf pDcActualW), m.acOf pDcActualW)

def pcsModel (m : CurvePcs F) : PcsModel F where
  acCapabilityW := m.acCapabilityW
  dcRequestW := m.dcRequestW
  finalize := m.finalize

/-- Nothing in, nothing out. -/
theorem acOf_zero (m : CurvePcs ℝ) : m.acOf 0 = 0 := by simp [acOf]

/-- A converter asked for nothing asks its racks for nothing. -/
theorem dcRequestW_zero (m : CurvePcs ℝ) (limits : PowerLimits ℝ) (hr : 0 ≤ m.ratedW)
    (hs : 0 < m.standbyThresholdW) : m.dcRequestW 0 limits = 0 := by
  have hclamp : Scalar.clamp (0 : ℝ) (-m.ratedW) m.ratedW = 0 :=
    Scalar.clamp_of_mem (by linarith) hr
  simp only [dcRequestW, hclamp, Scalar.abs_real, abs_zero, if_pos hs]

end CurvePcs

end Bess
