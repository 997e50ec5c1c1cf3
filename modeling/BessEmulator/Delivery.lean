import BessEmulator.Capability
import BessEmulator.Dispatch
import BessEmulator.SocWindow

/-!
# What is delivered of what is asked

A share goes through the converter's loss curve to the racks as a DC request,
through every rack's limits and its current back as a DC power, and through
the curve again as AC power. At each of these what comes out is a part of what
went in, so the plant delivers a part of its target.
-/
namespace BessDelivery

open Bess BessSoc BessCapability BessDispatch BessLedger Parabola Parts

theorem clamp_part {x lo hi : ℝ} (hlo : lo ≤ 0) (hhi : 0 ≤ hi) : IsPart (Scalar.clamp x lo hi) x := by
  have hband := hlo.trans hhi
  rcases le_total 0 x with hx | hx
  · have hmax : Scalar.clamp x lo hi ≤ max x 0 := clamp_le_max hlo
    rw [part_of_nonneg hx]
    rw [max_eq_left hx] at hmax
    refine ⟨?_, hmax⟩
    rw [Scalar.clamp_eq hband]
    exact le_max_of_le_right (le_min hhi hx)
  · have hmin : min x 0 ≤ Scalar.clamp x lo hi := min_le_clamp hhi
    rw [part_of_nonpos hx]
    rw [min_eq_left hx] at hmin
    refine ⟨hmin, ?_⟩
    rw [Scalar.clamp_eq hband]
    exact max_le hlo ((min_le_right hi x).trans hx)

theorem min_part {x hi : ℝ} (hx : 0 ≤ x) (hhi : 0 ≤ hi) : IsPart (min x hi) x := by
  rw [part_of_nonneg hx]
  exact ⟨le_min hx hhi, min_le_left _ _⟩

theorem max_part {x lo : ℝ} (hx : x ≤ 0) (hlo : lo ≤ 0) : IsPart (max x lo) x := by
  rw [part_of_nonpos hx]
  exact ⟨le_max_left _ _, max_le hx hlo⟩

section

variable {r : RackState ℝ} (h : Windowed r) (p : ℝ)
include h

/-- The current of a tick is short of the root of what is asked. -/
theorem current_part :
    let r0 := Ecm1Rc.lfp314ahRack.r0Ohm * r.resistanceScale
    IsPart (Ecm1Rc.lfp314ahRack.current r gw01Rack p 1)
      (small r0 (emf r) (min p (0.999 * (emf r * emf r / (4.0 * r0))))) := by
  intro r0
  obtain ⟨hd, hch⟩ := socBounds_nonneg h
  have hI : -gw01Rack.maxCurrentA ≤ 0 := by norm_num
  have hI' : 0 ≤ gw01Rack.maxCurrentA := by norm_num
  have hroot : ∀ q : ℝ, IsPart (Ecm1Rc.currentFor r0 (emf r) q) (small r0 (emf r) q) := by
    intro q
    have hsmall : (emf r - √(emf r * emf r - 4.0 * r0 * q)) / (2.0 * r0) =
        small r0 (emf r) q := by norm_num [small]
    rw [Ecm1Rc.currentFor]
    split
    · exact IsPart.zero _
    · rw [Scalar.sqrt_real, hsmall]
      exact IsPart.refl _
  exact ((clamp_part (neg_nonpos.mpr hch) hd).trans (clamp_part hI hI')).trans (hroot _)

/-- A rack delivers a part of its request. -/
theorem delivered_part :
    IsPart (Ecm1Rc.lfp314ahRack.stepRack r gw01Rack p 1).2.pDcW p := by
  have he := emf_pos h
  have hr := scale_pos h
  rw [Ecm1Rc.stepRack]
  split
  · set r0 := Ecm1Rc.lfp314ahRack.r0Ohm * r.resistanceScale with hr0
    set peak := 0.999 * (emf r * emf r / (4.0 * r0)) with hpeak
    have hp0 : 0 ≤ peak := by positivity
    have hdisc : 4 * r0 * min p peak ≤ emf r * emf r := by
      have hle := mul_le_mul_of_nonneg_left (min_le_right p peak) (by positivity : 0 ≤ 4 * r0)
      have hid : 4 * r0 * peak = 0.999 * (emf r * emf r) := by
        rw [hpeak]
        norm_num
        field_simp
      rw [hid] at hle
      nlinarith [mul_pos he he]
    have hpow : (Ecm1Rc.lfp314ahRack.carry r gw01Rack
          (Ecm1Rc.lfp314ahRack.current r gw01Rack p 1) 1).2.pDcW =
        value r0 (emf r) (Ecm1Rc.lfp314ahRack.current r gw01Rack p 1) := by
      rw [value, ← sub_mul]
      rfl
    have hmin : IsPart (min p peak) p := by
      rcases le_total 0 p with h0 | h0
      · exact min_part h0 hp0
      · rw [min_eq_left (h0.trans hp0)]
        exact IsPart.refl p
    rw [hpow]
    exact (value_part hr he.le hdisc (current_part h p)).trans hmin
  · exact IsPart.zero p

end

section

variable {m : CurvePcs ℝ} (h : Sane m) {d w x y : ℝ}
include h

/-- Discharging, a part of what the target needs is a part of the target. -/
theorem discharged_part (hx : 0 < x) (hd : IsPart d (x + m.lossW x)) : IsPart (m.acOf d) x := by
  obtain ⟨h0, hle⟩ := (part_of_nonneg (discharge_dc_pos h hx).le).mp hd
  rcases h0.eq_or_lt with rfl | hpos
  · rw [m.acOf_zero]
    exact IsPart.zero x
  · have hback := dischargeAcW_mono h hle
    rw [discharge_back h hx.le] at hback
    rw [part_of_nonneg hx.le, CurvePcs.acOf, if_pos hpos]
    exact ⟨dischargeAcW_nonneg, hback⟩

/-- Charging, a part of what the target leaves is a part of the target. -/
theorem charged_part (hx : 0 < x) (hr : x ≤ m.ratedW)
    (hd : IsPart d (min (-x + m.lossW x) 0)) : IsPart (m.acOf d) (-x) := by
  obtain ⟨hle, h0⟩ := (part_of_nonpos (min_le_right _ _)).mp hd
  rcases h0.eq_or_lt with rfl | hneg
  · rw [m.acOf_zero]
    exact IsPart.zero _
  · have hdc : -x + m.lossW x ≤ d := by
      rcases min_le_iff.mp hle with hdc | hz
      · exact hdc
      · linarith
    have hback := chargeAcAbsW_mono h (neg_le_neg hdc)
    rw [charge_back h hr] at hback
    rw [part_of_nonpos (neg_nonpos.mpr hx.le), CurvePcs.acOf, if_neg (not_lt.mpr hneg.le),
      if_pos hneg]
    exact ⟨neg_le_neg hback, neg_nonpos.mpr (chargeAcAbsW_nonneg h (neg_nonneg.mpr hneg.le))⟩

omit h in
/-- Under the standby threshold nothing is asked of the racks. -/
theorem dcRequestW_standby (m : CurvePcs ℝ) (limits : PowerLimits ℝ) (hr : 0 ≤ m.ratedW)
    (hw : |w| < m.standbyThresholdW) : m.dcRequestW w limits = 0 := by
  have hclamp := Scalar.abs_clamp_le (x := w) (neg_nonpos.mpr hr) hr
  simp only [CurvePcs.dcRequestW, Scalar.abs_real]
  exact if_pos (hclamp.trans_lt hw)

/-- What the racks deliver of the request converts to a part of the target. -/
theorem acOf_part {limits : PowerLimits ℝ} (hdis : 0 ≤ limits.maxDischargeW)
    (hch : 0 ≤ limits.maxChargeW) (hd : IsPart d (m.dcRequestW w limits)) :
    IsPart (m.acOf d) w := by
  have hr := h.rated.le
  have hac : IsPart (Scalar.clamp w (-m.ratedW) m.ratedW) w := clamp_part (neg_nonpos.mpr hr) hr
  have hmem : -m.ratedW ≤ Scalar.clamp w (-m.ratedW) m.ratedW :=
    Scalar.le_clamp (by linarith)
  simp only [CurvePcs.dcRequestW] at hd
  set ac := Scalar.clamp w (-m.ratedW) m.ratedW with hacdef
  refine IsPart.trans ?_ hac
  by_cases hthr : Scalar.abs ac < m.standbyThresholdW
  · rw [if_pos hthr] at hd
    rw [hd.eq_zero, m.acOf_zero]
    exact IsPart.zero _
  · rw [if_neg hthr] at hd
    rcases lt_trichotomy 0 ac with hpos | hz | hneg
    · rw [if_pos hpos, Scalar.abs_real, abs_of_pos hpos] at hd
      exact discharged_part h hpos (hd.trans (min_part (discharge_dc_pos h hpos).le hdis))
    · rw [← hz, Scalar.abs_real, abs_zero] at hthr
      exact absurd h.standby hthr
    · rw [if_neg (not_lt.mpr hneg.le), Scalar.abs_real, abs_of_neg hneg] at hd
      have hneed : IsPart d (min (- -ac + m.lossW (-ac)) 0) := by
        rw [neg_neg]
        exact hd.trans (max_part (min_le_right _ _) (neg_nonpos.mpr hch))
      have hback := charged_part h (neg_pos.mpr hneg) (neg_le.mp hmem) hneed
      rwa [neg_neg] at hback

end

section

variable {cfg : PlantConfig ℝ} (hcfg : cfg.rack = gw01Rack) (ems : EmsStrategy ℝ)
  (s : SiteState ℝ) (inputs : Inputs ℝ)
include hcfg

theorem limitsOf_nonneg (r : RackState ℝ) :
    0 ≤ (limitsOf ((gw01Plant cfg ems).ctx s inputs) r).maxDischargeW ∧
      0 ≤ (limitsOf ((gw01Plant cfg ems).ctx s inputs) r).maxChargeW := by
  have hlim : limitsOf ((gw01Plant cfg ems).ctx s inputs) r =
      BasicBms.default.rackLimits (bmsTick ((gw01Plant cfg ems).ctx s inputs) r).1 gw01Rack := by
    rw [← hcfg]
    rfl
  obtain ⟨hc, hd⟩ := BasicBms.default.rackLimits_mem
    (bmsTick ((gw01Plant cfg ems).ctx s inputs) r).1 gw01Rack_rated_nonneg
  rw [hlim]
  exact ⟨hd, hc⟩

theorem blockLimits_nonneg (b : BlockState ℝ) :
    0 ≤ (blockLimits ((gw01Plant cfg ems).ctx s inputs) b).maxDischargeW ∧
      0 ≤ (blockLimits ((gw01Plant cfg ems).ctx s inputs) b).maxChargeW := by
  have hsum := limits_foldl (limitsOf ((gw01Plant cfg ems).ctx s inputs)) PowerLimits.zero b.racks
  rw [blockLimits, List.foldl_map, hsum.1, hsum.2]
  constructor
  · refine add_nonneg le_rfl (List.sum_nonneg fun x hx => ?_)
    obtain ⟨r, _, rfl⟩ := List.mem_map.mp hx
    exact (limitsOf_nonneg hcfg ems s inputs r).1
  · refine add_nonneg le_rfl (List.sum_nonneg fun x hx => ?_)
    obtain ⟨r, _, rfl⟩ := List.mem_map.mp hx
    exact (limitsOf_nonneg hcfg ems s inputs r).2

/-- A rack in service delivers a part of its even part, any other nothing. -/
theorem dcOf_part {r : RackState ℝ} (h : Windowed r) (perRackW : ℝ) :
    IsPart (dcOf ((gw01Plant cfg ems).ctx s inputs) perRackW r)
      (if (bmsTick ((gw01Plant cfg ems).ctx s inputs) r).1.inService then perRackW else 0) := by
  have hb : Windowed (bmsTick ((gw01Plant cfg ems).ctx s inputs) r).1 := by
    rw [bmsTick_gw01 hcfg]
    exact windowed_balance h
  obtain ⟨hdis, hch⟩ := limitsOf_nonneg hcfg ems s inputs r
  have hreq : IsPart (requestOf ((gw01Plant cfg ems).ctx s inputs) perRackW r)
      (if (bmsTick ((gw01Plant cfg ems).ctx s inputs) r).1.inService then perRackW else 0) := by
    rw [requestOf]
    split
    · exact clamp_part (neg_nonpos.mpr hch) hdis
    · exact IsPart.zero _
  rw [dcOf, cellTick_gw01 hcfg]
  exact (delivered_part hb _).trans hreq

/-- The racks of a block deliver a part of its request. -/
theorem blockDcW_part {b : BlockState ℝ} (h : ∀ r ∈ b.racks, Windowed r) (inSet : Bool) :
    let ctx := (gw01Plant cfg ems).ctx s inputs
    IsPart (blockDcW ctx inSet b)
      (ctx.models.pcs.dcRequestW (targetOf ctx inSet) (blockLimits ctx b)) := by
  intro ctx
  have hsum : IsPart (blockDcW ctx inSet b) ((inServiceCount ctx b : ℝ) * perRackOf ctx inSet b) := by
    rw [blockDcW, sumOver_eq, inServiceCount, ← sum_members]
    apply part_sum
    · rcases le_total 0 (perRackOf ctx inSet b) with hp | hp
      · refine .inl fun r _ => ?_
        split
        · exact hp
        · exact le_rfl
      · refine .inr fun r _ => ?_
        split
        · exact hp
        · exact le_rfl
    · intro r hr
      exact dcOf_part hcfg ems s inputs (h r hr) _
  by_cases hn : inServiceCount ctx b = 0
  · rw [hn, Nat.cast_zero, zero_mul] at hsum
    rw [hsum.eq_zero]
    exact IsPart.zero _
  · have hne : ((inServiceCount ctx b : ℕ) : ℝ) ≠ 0 := Nat.cast_ne_zero.mpr hn
    have hreq : (inServiceCount ctx b : ℝ) * perRackOf ctx inSet b =
        ctx.models.pcs.dcRequestW (targetOf ctx inSet) (blockLimits ctx b) := by
      rw [perRackOf, if_neg hn]
      exact mul_div_cancel₀ _ hne
    rwa [hreq] at hsum

/-- A block delivers a part of its target. -/
theorem pAc_part {b : BlockState ℝ} (h : ∀ r ∈ b.racks, Windowed r) (hr : 0 < cfg.pcsRatedW)
    (inSet : Bool) :
    let ctx := (gw01Plant cfg ems).ctx s inputs
    IsPart (pcsTick ctx inSet b).1.pAcW (targetOf ctx inSet) := by
  intro ctx
  obtain ⟨hdis, hch⟩ := blockLimits_nonneg hcfg ems s inputs b
  exact acOf_part (sane_reference hr) hdis hch (blockDcW_part hcfg ems s inputs h inSet)

/-- Under the standby threshold a block delivers nothing. -/
theorem pAc_standby {b : BlockState ℝ} (h : ∀ r ∈ b.racks, Windowed r) (hr : 0 < cfg.pcsRatedW)
    {inSet : Bool} (hthr : |targetOf ((gw01Plant cfg ems).ctx s inputs) inSet| <
      (CurvePcs.cecUtilityReference cfg.pcsRatedW).standbyThresholdW) :
    (pcsTick ((gw01Plant cfg ems).ctx s inputs) inSet b).1.pAcW = 0 := by
  have hdc := blockDcW_part hcfg ems s inputs h inSet
  have hreq := dcRequestW_standby (CurvePcs.cecUtilityReference cfg.pcsRatedW)
    (blockLimits ((gw01Plant cfg ems).ctx s inputs) b) hr.le hthr
  have hzero : blockDcW ((gw01Plant cfg ems).ctx s inputs) inSet b = 0 :=
    IsPart.eq_zero (hreq ▸ hdc)
  have hac : (pcsTick ((gw01Plant cfg ems).ctx s inputs) inSet b).1.pAcW =
      (CurvePcs.cecUtilityReference cfg.pcsRatedW).acOf
        (blockDcW ((gw01Plant cfg ems).ctx s inputs) inSet b) := rfl
  rw [hac, hzero, CurvePcs.acOf_zero]

end

/-- The share a tick offers each dispatchable block. -/
noncomputable def offered (pl : Plant ℝ) (s : SiteState ℝ) (inputs : Inputs ℝ) : ℝ :=
  shareW s.blocks (pl.emsTick s inputs) (connectedOf s) (pl.targetW s inputs)

section

variable {cfg : PlantConfig ℝ} (hcfg : cfg.rack = gw01Rack) (hr : 0 < cfg.pcsRatedW)
  (ems : EmsStrategy ℝ) {s : SiteState ℝ} (h : ForallRacks Windowed s) (inputs : Inputs ℝ)
include hcfg hr h

omit hcfg hr in
theorem racks_of_mem {b : BlockState ℝ} (hb : b ∈ s.blocks) : ∀ r ∈ b.racks, Windowed r := by
  intro r hrack
  obtain ⟨c, hc, hrc⟩ := List.mem_flatMap.mp hrack
  exact h b hb c hc r hrc

/-- Every stepped block reads a part of the setpoint it was given. -/
theorem nextBlock_part {b : BlockState ℝ × Nat} (hb : b ∈ s.blocks.zipIdx) :
    IsPart ((gw01Plant cfg ems).nextBlock s inputs b).pcs.pAcW
      ((gw01Plant cfg ems).nextBlock s inputs b).pcs.pAcSetpointW := by
  exact pAc_part hcfg ems s inputs (racks_of_mem h (List.fst_mem_of_mem_zipIdx hb)) hr _

omit hcfg hr h in
/-- The blocks' setpoints are on one side of zero. -/
theorem setpoints_side :
    (∀ b ∈ s.blocks.zipIdx,
        0 ≤ ((gw01Plant cfg ems).nextBlock s inputs b).pcs.pAcSetpointW) ∨
      ∀ b ∈ s.blocks.zipIdx,
        ((gw01Plant cfg ems).nextBlock s inputs b).pcs.pAcSetpointW ≤ 0 := by
  rcases le_total 0 ((gw01Plant cfg ems).ctx s inputs).shareW with hw | hw
  · refine .inl fun b _ => ?_
    rw [tick_setpoint]
    split
    · exact hw
    · exact le_rfl
  · refine .inr fun b _ => ?_
    rw [tick_setpoint]
    split
    · exact hw
    · exact le_rfl

omit hcfg hr h in
/-- A block after the tick is the block before it, stepped. -/
theorem stepped_at (pl : Plant ℝ) {k : ℕ} {b' : BlockState ℝ}
    (hb' : (pl.siteTick s inputs).blocks[k]? = some b') :
    ∃ b, s.blocks[k]? = some b ∧ b' = pl.nextBlock s inputs (b, k) := by
  rw [siteTick_blocks, List.getElem?_map, List.getElem?_zipIdx, Nat.zero_add] at hb'
  cases hget : s.blocks[k]? with
  | none => rw [hget] at hb'; cases hb'
  | some b =>
    rw [hget] at hb'
    exact ⟨b, rfl, (Option.some.inj hb').symm⟩

theorem share_part {k : ℕ} {b : BlockState ℝ} (hb : s.blocks[k]? = some b) :
    IsPart ((gw01Plant cfg ems).nextBlock s inputs (b, k)).pcs.pAcW
      (if (gw01Plant cfg ems).inSet s inputs (b, k) then offered (gw01Plant cfg ems) s inputs
        else 0) := by
  have hmem : (b, k) ∈ s.blocks.zipIdx := List.mem_zipIdx_iff_getElem?.mpr hb
  exact nextBlock_part hcfg hr ems h inputs hmem

/-- The site delivers a part of its clamped target. -/
theorem siteAcW_part :
    IsPart ((gw01Plant cfg ems).siteAcW s inputs) ((gw01Plant cfg ems).targetW s inputs) := by
  have hsum := part_sum (setpoints_side ems inputs) fun b hb =>
    nextBlock_part hcfg hr ems h inputs hb
  have htotal : (s.blocks.zipIdx.map fun b =>
        ((gw01Plant cfg ems).nextBlock s inputs b).pcs.pAcSetpointW).sum =
      if divided (gw01Plant cfg ems) s inputs = [] then 0
      else (gw01Plant cfg ems).targetW s inputs := by
    rw [← tick_total, siteTick_blocks, List.map_map]
    rfl
  have hall : IsPart ((gw01Plant cfg ems).siteAcW s inputs)
      (if divided (gw01Plant cfg ems) s inputs = [] then 0
        else (gw01Plant cfg ems).targetW s inputs) := by
    rw [← htotal, Plant.siteAcW, sumOver_eq]
    exact hsum
  split at hall
  · rw [hall.eq_zero]
    exact IsPart.zero _
  · exact hall

end

/-- What a step from `s` to `s'` never exceeds. -/
structure NeverOver (pl : Plant ℝ) (s : SiteState ℝ) (inputs : Inputs ℝ) (s' : SiteState ℝ) :
    Prop where
  sign : ∀ (k : ℕ) (b : BlockState ℝ), s'.blocks[k]? = some b →
    b.pcs.pAcW = 0 ∨ SignType.sign b.pcs.pAcW = SignType.sign (offered pl s inputs)
  size : ∀ (k : ℕ) (b : BlockState ℝ), s'.blocks[k]? = some b → |b.pcs.pAcW| ≤ |offered pl s inputs|
  undispatched : ∀ (k : ℕ) (b b' : BlockState ℝ), s.blocks[k]? = some b → s'.blocks[k]? = some b' →
    dispatchable b k (pl.emsTick s inputs) (connectedOf s) = false → b'.pcs.pAcW = 0
  standby : |offered pl s inputs| < 1000 →
    ∀ (k : ℕ) (b : BlockState ℝ), s'.blocks[k]? = some b → b.pcs.pAcW = 0
  site : IsPart (deliveredW s'.blocks) (pl.targetW s inputs)
  target : |pl.targetW s inputs| ≤ pl.cfg.grid.siteRatedW

theorem neverOver_tick {ems : EmsStrategy ℝ} {s : SiteState ℝ} (h : ForallRacks Windowed s)
    (inputs : Inputs ℝ) :
    NeverOver (gw01Plant PlantConfig.gw01 ems) s inputs
      ((gw01Plant PlantConfig.gw01 ems).siteTick s inputs) := by
  have hr : 0 < (PlantConfig.gw01 : PlantConfig ℝ).pcsRatedW := by norm_num [PlantConfig.gw01]
  have hgrid : 0 ≤ (PlantConfig.gw01 : PlantConfig ℝ).grid.siteRatedW := by
    norm_num [PlantConfig.gw01]
  set pl := gw01Plant PlantConfig.gw01 ems with hpl
  have hpart : ∀ {k : ℕ} {b : BlockState ℝ}, s.blocks[k]? = some b →
      IsPart (pl.nextBlock s inputs (b, k)).pcs.pAcW (offered pl s inputs) := by
    intro k b hb
    have hp := share_part rfl hr ems h inputs hb
    split at hp
    · exact hp
    · rw [hp.eq_zero]
      exact IsPart.zero _
  refine ⟨?_, ?_, ?_, ?_, ?_, ?_⟩
  · intro k b' hb'
    obtain ⟨b, hget, rfl⟩ := stepped_at inputs pl hb'
    by_cases hz : (pl.nextBlock s inputs (b, k)).pcs.pAcW = 0
    · exact .inl hz
    · exact .inr ((hpart hget).sign_eq hz)
  · intro k b' hb'
    obtain ⟨b, hget, rfl⟩ := stepped_at inputs pl hb'
    exact (hpart hget).abs_le
  · intro k b b' hb hb' hout
    obtain ⟨b₀, hget, rfl⟩ := stepped_at inputs pl hb'
    cases hget.symm.trans hb
    have hp := share_part rfl hr ems h inputs hb
    have hin : pl.inSet s inputs (b, k) = false := hout
    rw [← hpl, hin] at hp
    exact hp.eq_zero
  · intro hthr k b' hb'
    obtain ⟨b, hget, rfl⟩ := stepped_at inputs pl hb'
    apply pAc_standby rfl ems s inputs (racks_of_mem h (List.mem_of_getElem? hget)) hr
    have hstandby : (CurvePcs.cecUtilityReference
        (PlantConfig.gw01 : PlantConfig ℝ).pcsRatedW).standbyThresholdW = 1000 := by
      norm_num [CurvePcs.cecUtilityReference]
    rw [targetOf, hstandby]
    split
    · exact hthr
    · rw [abs_zero]
      norm_num
  · have hsum : deliveredW (pl.siteTick s inputs).blocks = pl.siteAcW s inputs := by
      rw [siteTick_blocks, deliveredW, List.foldl_map]
      rfl
    rw [hsum]
    exact siteAcW_part rfl hr ems h inputs
  · have hband : -(PlantConfig.gw01 : PlantConfig ℝ).grid.siteRatedW ≤
        (PlantConfig.gw01 : PlantConfig ℝ).grid.siteRatedW := by linarith
    exact abs_le.mpr ⟨Scalar.le_clamp hband, Scalar.clamp_le hband⟩

/-- In every reachable state of the reference plant and every tick a block
delivers nothing or a part of its share on the same side of zero, nothing when
it is not dispatchable or its share is under the standby threshold, and the
site lies between nothing and its clamped target. -/
theorem never_over_delivers (ems : EmsStrategy ℝ) (seed : UInt64) (t : Int)
    (moves : List (Move ℝ)) (inputs : Inputs ℝ) :
    let sim := (Simulation.new PlantConfig.gw01 (gw01Models PlantConfig.gw01 ems) seed t).run moves
    NeverOver sim.plant sim.state inputs (sim.step inputs).state := by
  intro sim
  have hs : Sound sim := sound_run (sound_new PlantConfig.gw01 (gw01Models PlantConfig.gw01 ems) seed t) moves
  have hpl : sim.plant = gw01Plant PlantConfig.gw01 ems :=
    run_plant (sound_new PlantConfig.gw01 (gw01Models PlantConfig.gw01 ems) seed t) moves
  have hw : ForallRacks Windowed sim.state :=
    forallRacks_run seed t windowed_new (fun _ he => windowed_edit he) (windowed_tick rfl ems) moves
  rw [step_state hs, hpl]
  exact neverOver_tick hw inputs

end BessDelivery
