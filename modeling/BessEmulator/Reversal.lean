import BessEmulator.Losses

/-!
# A reversal of the current

The reference site discharges at its rating for one tick and is then asked for
a small charge. Every rack's branch gives back more than its resistance takes,
and the batteries' counter falls; at the rating it keeps rising.
-/
namespace BessLosses

open Bess BessTrip BessLedger BessSoc BessDispatch Sweep

/-- A curve that reads its peak at a temperature derates nothing there. -/
theorem factor_peak {c : TempCurve ℝ} {t : ℝ} (hpeak : c.peak = 0.5) (hrate : c.rateAt t = 0.5) :
    c.factor t = 1 := by
  rw [TempCurve.factor, hpeak, hrate, if_neg (by norm_num)]
  split
  · rfl
  · norm_num [Scalar.clamp]

/-- Both derating tables are at their peak around the initial temperature. -/
theorem charge_factor {t : ℝ} (h0 : 19 ≤ t) (h1 : t ≤ 21) :
    (TempCurve.new EVE_MB31_CHARGE_P : TempCurve ℝ).factor t = 1 := by
  apply factor_peak
  · norm_num [TempCurve.new, EVE_MB31_CHARGE_P]
  · have h15 : ¬ t ≤ 15 := by linarith
    have h10 : ¬ t ≤ 10 := by linarith
    have h5 : ¬ t ≤ 5 := by linarith
    have h25 : t ≤ 25 := by linarith
    have h60 : t ≤ 60 := by linarith
    have hz : 0 ≤ t := by linarith
    norm_num [TempCurve.rateAt, TempCurve.new, EVE_MB31_CHARGE_P, rateScan, rateBetween, h15, h10,
      h5, h25, h60, hz]

theorem discharge_factor {t : ℝ} (h0 : 19 ≤ t) (h1 : t ≤ 21) :
    (TempCurve.new EVE_MB31_DISCHARGE_P : TempCurve ℝ).factor t = 1 := by
  apply factor_peak
  · norm_num [TempCurve.new, EVE_MB31_DISCHARGE_P]
  · have h20 : ¬ t ≤ -20 := by linarith
    have h10 : ¬ t ≤ -10 := by linarith
    have h5 : ¬ t ≤ -5 := by linarith
    have hz : ¬ t ≤ 0 := by linarith
    have h5' : ¬ t ≤ 5 := by linarith
    have h45 : t ≤ 45 := by linarith
    have h60 : t ≤ 60 := by linarith
    have h30 : -30 ≤ t := by linarith
    norm_num [TempCurve.rateAt, TempCurve.new, EVE_MB31_DISCHARGE_P, rateScan, rateBetween, h20,
      h10, h5, hz, h5', h45, h60, h30]

/-- A rack in service, half full and near twenty degrees. -/
structure Mild (r : RackState ℝ) : Prop where
  windowed : Windowed r
  inService : r.inService = true
  soc_ge : 0.45 ≤ r.soc
  soc_le : r.soc ≤ 0.55
  temp_ge : 19 ≤ r.cellTempC
  temp_le : r.cellTempC ≤ 21
  scale_ge : 0.97 ≤ r.resistanceScale

section

variable {r : RackState ℝ} (h : Mild r)
include h

/-- Such a rack is limited by its rating alone. -/
theorem mild_limits : BasicBms.default.rackLimits r gw01Rack = ⟨417996.8, 417996.8⟩ := by
  have hd : (BasicBms.default : BasicBms ℝ).dischargeTemp.factor r.cellTempC = 1 :=
    discharge_factor h.temp_ge h.temp_le
  have hc : (BasicBms.default : BasicBms ℝ).chargeTemp.factor r.cellTempC = 1 :=
    charge_factor h.temp_ge h.temp_le
  have hfull : ∀ {m : ℝ}, 0.03 ≤ m → Scalar.clamp (m / 0.03) 0 1 = 1 := by
    intro m hm
    have h1 : 1 ≤ m / 0.03 := by
      rw [le_div_iff₀ (by norm_num)]
      linarith
    rw [Scalar.clamp_eq zero_le_one, min_eq_left h1, max_eq_right zero_le_one]
  have hlo : (0.03 : ℝ) ≤ r.soc - gw01Rack.socMin := by
    have := h.soc_ge
    norm_num at this ⊢
    linarith
  have hhi : (0.03 : ℝ) ≤ gw01Rack.socMax - r.soc := by
    have := h.soc_le
    norm_num at this ⊢
    linarith
  have hband : (BasicBms.default : BasicBms ℝ).taperSocBand = 0.03 := rfl
  rw [BasicBms.rackLimits, if_pos h.inService]
  simp only [hd, hc, hband, hfull hlo, hfull hhi, gw01Rack_rated, mul_one]

/-- A half full rack does not bleed. -/
theorem mild_idle : Balancing.default.active r = false := by
  by_contra ha
  have := active_soc (Bool.not_eq_false _ ▸ ha)
  have hs := h.soc_le
  norm_num at this hs
  linarith

/-- So the BMS moves only its spread. -/
theorem mild_balance : Mild (Balancing.default.step r gw01Rack 1).1 ∧
    (Balancing.default.step r gw01Rack 1).1.polarizationV = r.polarizationV ∧
    (Balancing.default.step r gw01Rack 1).2.heatW = 0 := by
  have hw := windowed_balance h.windowed
  rw [Balancing.step] at hw ⊢
  simp only [mild_idle h, Bool.false_eq_true, if_false] at hw ⊢
  exact ⟨⟨hw, h.inService, h.soc_ge, h.soc_le, h.temp_ge, h.temp_le, h.scale_ge⟩, trivial, trivial⟩

theorem mild_emf : 1180 ≤ emf r ∧ emf r ≤ 1455 := by
  have hpol := abs_le.mp (abs_polarization_le h.windowed)
  have hocv := (ocv_mem r.soc).2
  refine ⟨emf_ge h.windowed, ?_⟩
  rw [emf]
  norm_num at hpol hocv ⊢
  linarith [hpol.1]

theorem mild_root {p q : ℝ} (hp : 200000 ≤ p) (hpeak : 1000000 ≤ q)
    (hdisc : 4 * seriesOhm r * q ≤ emf r * emf r) :
    68 < Ecm1Rc.currentFor (seriesOhm r) (emf r) (min p q) := by
  have hr := seriesOhm_pos h.windowed
  have hle := seriesOhm_le h.windowed
  obtain ⟨he0, he1⟩ := mild_emf h
  have hmin : 200000 ≤ min p q := le_min hp (by linarith)
  have hdisc' : 4 * seriesOhm r * min p q ≤ emf r * emf r :=
    (mul_le_mul_of_nonneg_left (min_le_right p q) (by positivity)).trans hdisc
  have habs : ¬ |min p q| < Scalar.epsilon := by
    rw [not_lt, abs_of_nonneg (by linarith)]
    exact epsilon_le_one.trans (by linarith)
  have hx : 2 * seriesOhm r * 68 ≤ emf r := by
    norm_num at hle
    linarith
  rw [currentFor_eq, if_neg habs, (small_lt_iff h.windowed hx hdisc').2, Parabola.value]
  have hsq : 0 ≤ seriesOhm r * 68 * 68 := by positivity
  linarith

/-- A large discharge carries more than any branch balances. -/
theorem mild_current {p : ℝ} (hp : 200000 ≤ p) :
    68 < Ecm1Rc.lfp314ahRack.current r gw01Rack p 1 := by
  have hx : |(68 : ℝ)| ≤ 68 := by norm_num
  rw [(current_side h.windowed p hx).2]
  exact mild_root h hp (peak_ge h.windowed) (peak_disc h.windowed)

end

/-- Every block released, in service and unfaulted, every rack mild, under a setpoint. -/
structure AllIn (w : ℝ) (s : SiteState ℝ) : Prop where
  breaker : s.substation.hvBreaker = .closed
  released : s.ems.blocksReleased = 20
  external : s.ems.mode = .external
  setpoint : s.ems.externalSetpointW = w
  mode : ∀ b ∈ s.blocks, b.mode = .inService
  working : ∀ b ∈ s.blocks, b.pcs.opState ≠ .fault
  kept : Kept s
  mild : ForallRacks Mild s

section

variable {w : ℝ} {s : SiteState ℝ} (h : AllIn w s) (ems : EmsStrategy ℝ) (inputs : Inputs ℝ)
include h

theorem allIn_length : s.blocks.length = 20 := h.kept.shape.count

/-- A complete return stays as it is. -/
theorem allIn_ems : (site ems).emsTick s inputs =
    { s.ems with siteSetpointW := (site ems).targetW s inputs } := by
  have hlen := allIn_length h
  have hconn : connectedOf s = true := by
    rw [connectedOf, h.breaker]
    rfl
  rw [Plant.emsTick]
  simp only [hconn, if_true]
  rw [release]
  simp only [h.released, hlen, ge_iff_le, le_refl, if_true]

theorem allIn_inSet {b : BlockState ℝ × Nat} (hb : b ∈ s.blocks.zipIdx) :
    (site ems).inSet s inputs b = true := by
  have hmem := List.fst_mem_of_mem_zipIdx hb
  have hlt : b.2 < 20 := by
    have hget := List.mem_zipIdx_iff_getElem?.mp hb
    have := (List.getElem?_eq_some_iff.mp hget).1
    rwa [allIn_length h] at this
  rw [Plant.inSet, dispatchable, connectedOf, h.breaker, h.mode b.1 hmem, allIn_ems h]
  simp [h.working b.1 hmem, hlt, h.released]

theorem allIn_share (h0 : -100000000 ≤ w) (h1 : w ≤ 100000000) :
    ((site ems).ctx s inputs).shareW = w / 20 := by
  have hall : s.blocks.zipIdx.filter ((site ems).inSet s inputs) = s.blocks.zipIdx :=
    List.filter_eq_self.mpr fun b hb => allIn_inSet h ems inputs hb
  have hlen : (divided (site ems) s inputs).length = 20 := by
    rw [divided, hall, List.length_map, List.length_zipIdx, allIn_length h]
  have hne : divided (site ems) s inputs ≠ [] := by
    intro hnil
    rw [hnil] at hlen
    cases hlen
  have hraw : rawTargetW (site ems).models (openTick s inputs) = w := by
    rw [rawTargetW]
    simp only [openTick, h.breaker, h.external, h.setpoint, if_true]
  have hrated : (site ems).cfg.grid.siteRatedW = 100000000 := by
    change (100.0e6 : ℝ) = _
    norm_num
  have htarget : (site ems).targetW s inputs = w := by
    rw [Plant.targetW, hraw, hrated]
    exact Scalar.clamp_of_mem h0 h1
  rw [shareW_eq, if_neg hne, hlen, htarget]
  norm_num

/-- Every rack of the tick is limited by its rating alone. -/
theorem allIn_limits {b : BlockState ℝ × Nat} (hb : b ∈ s.blocks.zipIdx) {r : RackState ℝ}
    (hr : r ∈ b.1.racks) :
    Mild (bmsTick ((site ems).ctx s inputs) r).1 ∧
      limitsOf ((site ems).ctx s inputs) r = ⟨417996.8, 417996.8⟩ := by
  obtain ⟨c, hc, hrc⟩ := List.mem_flatMap.mp hr
  have hm := (mild_balance (h.mild b.1 (List.fst_mem_of_mem_zipIdx hb) c hc r hrc)).1
  have hlim : limitsOf ((site ems).ctx s inputs) r =
      BasicBms.default.rackLimits (bmsTick ((site ems).ctx s inputs) r).1 gw01Rack := rfl
  rw [← bmsTick_site ems s inputs] at hm
  exact ⟨hm, hlim.trans (mild_limits hm)⟩

theorem allIn_block {b : BlockState ℝ × Nat} (hb : b ∈ s.blocks.zipIdx) :
    b.1.racks.length = 24 ∧ inServiceCount ((site ems).ctx s inputs) b.1 = 24 ∧
      10000000 ≤ (blockLimits ((site ems).ctx s inputs) b.1).maxChargeW ∧
      10000000 ≤ (blockLimits ((site ems).ctx s inputs) b.1).maxDischargeW := by
  have hlen : b.1.racks.length = 24 :=
    (h.kept.shape.blocks b.1 (List.fst_mem_of_mem_zipIdx hb)).racks_length
  have hall : b.1.racks.filter (fun r => (bmsTick ((site ems).ctx s inputs) r).1.inService) =
      b.1.racks := List.filter_eq_self.mpr fun r hr => (allIn_limits h ems inputs hb hr).1.inService
  have hsum := limits_foldl (limitsOf ((site ems).ctx s inputs)) PowerLimits.zero b.1.racks
  have hlim : blockLimits ((site ems).ctx s inputs) b.1 =
      b.1.racks.foldl (fun a r => a.add (limitsOf ((site ems).ctx s inputs) r)) PowerLimits.zero :=
    List.foldl_map
  have hrack := fun r hr => (allIn_limits h ems inputs hb (r := r) hr).2
  refine ⟨hlen, ?_, ?_, ?_⟩
  · rw [inServiceCount, hall, hlen]
  · have hge := sum_ge fun r (hr : r ∈ b.1.racks) =>
      (congrArg PowerLimits.maxChargeW (hrack r hr)).ge
    rw [hlim, hsum.2]
    rw [hlen] at hge
    norm_num [PowerLimits.zero] at hge ⊢
    linarith
  · have hge := sum_ge fun r (hr : r ∈ b.1.racks) =>
      (congrArg PowerLimits.maxDischargeW (hrack r hr)).ge
    rw [hlim, hsum.1]
    rw [hlen] at hge
    norm_num [PowerLimits.zero] at hge ⊢
    linarith

/-- A block's request, split evenly over its racks. -/
theorem allIn_perRack {b : BlockState ℝ × Nat} (hb : b ∈ s.blocks.zipIdx)
    (h0 : -100000000 ≤ w) (h1 : w ≤ 100000000) :
    perRackOf ((site ems).ctx s inputs) ((site ems).inSet s inputs b) b.1 =
      (CurvePcs.cecUtilityReference 5.0e6).dcRequestW (w / 20)
        (blockLimits ((site ems).ctx s inputs) b.1) / 24 := by
  have hcount := (allIn_block h ems inputs hb).2.1
  have hcast : ((24 : ℕ) : ℝ) = 24 := by norm_num
  rw [perRackOf, hcount, if_neg (by decide), targetOf, allIn_inSet h ems inputs hb, if_pos rfl,
    allIn_share h ems inputs h0 h1, natCast_real, hcast]
  rfl

end

theorem le_clamp_of {x lo hi y : ℝ} (hx : y ≤ x) (hhi : y ≤ hi) : y ≤ Scalar.clamp x lo hi := by
  rw [Scalar.clamp]
  split
  · exact hx.trans (le_of_lt ‹_›)
  · split
    · exact hhi
    · exact hx

theorem cec_rated : (CurvePcs.cecUtilityReference (5.0e6 : ℝ)).ratedW = 5000000 := by
  norm_num [CurvePcs.cecUtilityReference]

theorem cec_standby : (CurvePcs.cecUtilityReference (5.0e6 : ℝ)).standbyThresholdW = 1000 := by
  norm_num [CurvePcs.cecUtilityReference]

/-- At the rating the racks give the rating and the loss. -/
theorem request_discharge {limits : PowerLimits ℝ} (h : 10000000 ≤ limits.maxDischargeW) :
    5000000 ≤ (CurvePcs.cecUtilityReference (5.0e6 : ℝ)).dcRequestW (100000000 / 20) limits := by
  have hloss := lossW_nonneg (by norm_num : (0 : ℝ) < 5.0e6) 5000000
  have hac : Scalar.clamp ((100000000 : ℝ) / 20) (-5000000) 5000000 = 5000000 := by
    norm_num [Scalar.clamp]
  rw [CurvePcs.dcRequestW, cec_rated, cec_standby, hac, Scalar.abs_real,
    abs_of_pos (by norm_num : (0 : ℝ) < 5000000)]
  simp only
  rw [if_neg (by norm_num), if_pos (by norm_num)]
  exact le_min (by linarith) (by linarith)

/-- Twenty kilowatts of charge leave the racks less than eight to take. -/
theorem request_charge {limits : PowerLimits ℝ} (h : 10000000 ≤ limits.maxChargeW) :
    -8000 ≤ (CurvePcs.cecUtilityReference (5.0e6 : ℝ)).dcRequestW (-400000 / 20) limits ∧
      (CurvePcs.cecUtilityReference (5.0e6 : ℝ)).dcRequestW (-400000 / 20) limits ≤ -7000 := by
  have hac : Scalar.clamp (-400000 / 20 : ℝ) (-5000000) 5000000 = -20000 := by
    norm_num [Scalar.clamp]
  have hloss : -8000 ≤ -20000 + (CurvePcs.cecUtilityReference (5.0e6 : ℝ)).lossW 20000 ∧
      -20000 + (CurvePcs.cecUtilityReference (5.0e6 : ℝ)).lossW 20000 ≤ -7000 := by
    norm_num [CurvePcs.lossW, CurvePcs.cecUtilityReference]
  rw [CurvePcs.dcRequestW, cec_rated, cec_standby, hac, Scalar.abs_real, abs_neg,
    abs_of_pos (by norm_num : (0 : ℝ) < 20000)]
  simp only
  rw [if_neg (by norm_num), if_neg (by norm_num), min_eq_left (by linarith [hloss.2]),
    max_eq_left (by linarith [hloss.1])]
  exact hloss

/-- A rack as commissioned. -/
structure Fresh (r : RackState ℝ) : Prop where
  mild : Mild r
  soc_ge : 0.49 ≤ r.soc
  soc_le : r.soc ≤ 0.51
  rested : r.polarizationV = 0
  temp : r.cellTempC = 20
  offset : |r.tempOffsetC| ≤ 1.5

/-- A rack that has just discharged: its branch is charged. -/
structure Charged (r : RackState ℝ) : Prop where
  mild : Mild r
  polarized : 0.13 ≤ r.polarizationV

theorem fresh_balance {r : RackState ℝ} (h : Fresh r) :
    Fresh (Balancing.default.step r gw01Rack 1).1 ∧
      (Balancing.default.step r gw01Rack 1).2.heatW = 0 := by
  obtain ⟨hm, hpol, hheat⟩ := mild_balance h.mild
  refine ⟨⟨hm, ?_, ?_, hpol.trans h.rested, ?_, ?_⟩, hheat⟩
  all_goals
    rw [Balancing.step]
    simp only [mild_idle h.mild, Bool.false_eq_true, if_false]
  · exact h.soc_ge
  · exact h.soc_le
  · exact h.temp
  · exact h.offset

/-- A discharge charges a rested branch, drains little and warms little. -/
theorem fresh_carry {r : RackState ℝ} (h : Fresh r) {i : ℝ} (h0 : 68 < i) (h1 : |i| ≤ 314)
    (hw : Windowed (Ecm1Rc.lfp314ahRack.carry r gw01Rack i 1).1) :
    Charged (Ecm1Rc.lfp314ahRack.carry r gw01Rack i 1).1 ∧
      |(Ecm1Rc.lfp314ahRack.carry r gw01Rack i 1).2.heatW| ≤ 40000 := by
  have hi := (abs_le.mp h1).2
  have hsoc : (Ecm1Rc.lfp314ahRack.carry r gw01Rack i 1).1.soc = r.soc - i / 1130400 := by
    have hdrawn : (Ecm1Rc.lfp314ahRack.carry r gw01Rack i 1).1.soc =
        Scalar.clamp (r.soc - i * 1 / (3600.0 * capacityAh r gw01Rack)) 0 1 := rfl
    have hd : r.soc - i * 1 / (3600.0 * capacityAh r gw01Rack) = r.soc - i / 1130400 := by
      rw [capacityAh_eq h.mild.windowed.ok.soh, gw01Rack_capacity]
      norm_num
    have hlo := h.soc_ge
    have hhi := h.soc_le
    norm_num at hlo hhi
    rw [hdrawn, hd]
    apply clamp_unit
    · linarith
    · linarith
  have hpol : (Ecm1Rc.lfp314ahRack.carry r gw01Rack i 1).1.polarizationV =
      i * (0.06 * r.resistanceScale) / 30 := by
    have hv : (Ecm1Rc.lfp314ahRack.carry r gw01Rack i 1).1.polarizationV =
        r.polarizationV + 1 / 30.0 * (i * (0.06 * r.resistanceScale) - r.polarizationV) := rfl
    rw [hv, h.rested]
    norm_num
    ring
  have hheat : (Ecm1Rc.lfp314ahRack.carry r gw01Rack i 1).2.heatW = seriesOhm r * i * i := by
    rw [carry_heat, h.rested]
    ring
  have hscale := h.mild.scale_ge
  have hlo := h.soc_ge
  have hhi := h.soc_le
  norm_num at hscale hlo hhi
  refine ⟨⟨⟨hw, h.mild.inService, ?_, ?_, h.mild.temp_ge, h.mild.temp_le, h.mild.scale_ge⟩, ?_⟩, ?_⟩
  · rw [hsoc]
    norm_num
    linarith
  · rw [hsoc]
    norm_num
    linarith
  · have hprod : 68 * (97 / 100) ≤ i * r.resistanceScale :=
      mul_le_mul h0.le hscale (by norm_num) (by linarith)
    rw [hpol]
    norm_num
    linarith
  · have hs := seriesOhm_pos h.mild.windowed
    have hle := seriesOhm_le h.mild.windowed
    have hii : i * i ≤ 314 * 314 := mul_le_mul hi hi (by linarith) (by norm_num)
    rw [hheat, mul_assoc, abs_of_nonneg (mul_nonneg hs.le (mul_self_nonneg i))]
    calc seriesOhm r * (i * i) ≤ 0.2884 * (314 * 314) :=
          mul_le_mul hle hii (mul_self_nonneg i) (by norm_num)
      _ ≤ 40000 := by norm_num

section

variable {s : SiteState ℝ} (h : AllIn 100000000 s) (ems : EmsStrategy ℝ) (inputs : Inputs ℝ)
include h

theorem discharge_request {b : BlockState ℝ × Nat} (hb : b ∈ s.blocks.zipIdx) {r : RackState ℝ}
    (hr : r ∈ b.1.racks) :
    200000 ≤ requestOf ((site ems).ctx s inputs)
      (perRackOf ((site ems).ctx s inputs) ((site ems).inSet s inputs b) b.1) r := by
  obtain ⟨hm, hlim⟩ := allIn_limits h ems inputs hb hr
  have hreq := request_discharge (allIn_block h ems inputs hb).2.2.2
  rw [allIn_perRack h ems inputs hb (by norm_num) (le_refl _), requestOf, if_pos hm.inService, hlim]
  apply le_clamp_of
  · rw [le_div_iff₀ (by norm_num)]
    linarith
  · norm_num

/-- One tick at the rating charges a rested branch, warms little and drains little. -/
theorem discharge_rack {b : BlockState ℝ × Nat} (hb : b ∈ s.blocks.zipIdx) {r : RackState ℝ}
    (hr : r ∈ b.1.racks) (hf : Fresh r) :
    let perRackW := perRackOf ((site ems).ctx s inputs) ((site ems).inSet s inputs b) b.1
    Charged (cellTick ((site ems).ctx s inputs) perRackW r).1 ∧
      (cellTick ((site ems).ctx s inputs) perRackW r).1.cellTempC = 20 ∧
      |(cellTick ((site ems).ctx s inputs) perRackW r).1.tempOffsetC| ≤ 1.5 ∧
      |heatOf ((site ems).ctx s inputs) perRackW r| ≤ 40000 := by
  intro perRackW
  have hp := discharge_request h ems inputs hb hr
  obtain ⟨hfb, hbleed⟩ := fresh_balance hf
  have hw : Windowed (cellTick ((site ems).ctx s inputs) perRackW r).1 :=
    (windowed_electrical gw01_rack ems s inputs hf.mild.windowed perRackW).1
  rw [heatOf, cellTick_site]
  rw [cellTick_site] at hw
  rw [← bmsTick_site ems s inputs] at hfb hbleed
  rw [Ecm1Rc.stepRack, if_pos hfb.mild.inService] at hw ⊢
  obtain ⟨hc, hheat⟩ := fresh_carry hfb (mild_current hfb.mild hp)
    ((abs_current_le hfb.mild.windowed _).trans_eq gw01Rack_maxCurrent) hw
  exact ⟨hc, hfb.temp, hfb.offset, by rw [hbleed, add_zero]; exact hheat⟩

/-- At the rating no branch is worked against that is at rest or has discharged. -/
theorem rating_noneOpposed (hpol : ForallRacks (fun r => 0 ≤ r.polarizationV) s) :
    NoneOpposed (site ems) s inputs := by
  rintro b hb r hr ⟨-, -, hagainst⟩
  obtain ⟨c, hc, hrc⟩ := List.mem_flatMap.mp hr
  have hmem := List.fst_mem_of_mem_zipIdx hb
  have hp := discharge_request h ems inputs hb hr
  have hv := hpol b.1 hmem c hc r hrc
  have hs := seriesOhm_pos (h.mild b.1 hmem c hc r hrc).windowed
  have hocv := (ocv_mem r.soc).1
  have hbranch : 0 ≤ ocvRackV r.soc gw01Rack * r.polarizationV :=
    mul_nonneg (by linarith) hv
  set p := requestOf ((site ems).ctx s inputs)
    (perRackOf ((site ems).ctx s inputs) ((site ems).inSet s inputs b) b.1) r
  have hohmic : 0 ≤ seriesOhm r * p := mul_nonneg hs.le (by linarith)
  exact absurd hagainst (not_lt.mpr (mul_nonneg (by linarith) (by linarith)))

end

theorem charged_temp {r : RackState ℝ} (h : Charged r) {t : ℝ} (h0 : 19 ≤ t) (h1 : t ≤ 21) :
    Charged { r with cellTempC := t } := by
  have hw := h.mild.windowed
  exact ⟨⟨⟨hw.ok.of_eq rfl rfl rfl rfl rfl, hw.soc_ge, hw.soc_le, hw.scale_le, hw.polarization,
    hw.high, hw.low⟩, h.mild.inService, h.mild.soc_ge, h.mild.soc_le, h0, h1, h.mild.scale_ge⟩,
    h.polarized⟩

theorem charged_word {r : RackState ℝ} (ems : EmsStrategy ℝ) (h : Charged r) :
    Charged (wordRack (gw01Models PlantConfig.gw01 ems) PlantConfig.gw01 r) :=
  ⟨⟨windowed_word gw01_rack ems h.mild.windowed, h.mild.inService, h.mild.soc_ge, h.mild.soc_le,
    h.mild.temp_ge, h.mild.temp_le, h.mild.scale_ge⟩, h.polarized⟩

/-- Within a tick forty kilowatts move a rack by less than a degree. -/
theorem charged_cells {c : ContainerState ℝ} {heat : List ℝ} (weather : Weather ℝ)
    (hair : c.airTempC = 20) (hheat : ∀ w ∈ heat, |w| ≤ 40000)
    (hracks : ∀ r ∈ c.racks, Charged r ∧ r.cellTempC = 20 ∧ |r.tempOffsetC| ≤ 1.5) :
    ∀ r ∈ ((LumpedThermal.default : LumpedThermal ℝ).stepContainer c heat weather 1).1.racks,
      Charged r := by
  have hstep : ∀ (p : List ℝ × ℝ) (r : RackState ℝ), (∀ w ∈ p.1, |w| ≤ 40000) →
      (Charged r ∧ r.cellTempC = 20 ∧ |r.tempOffsetC| ≤ 1.5) →
      (∀ w ∈ ((LumpedThermal.default : LumpedThermal ℝ).stepCells c.airTempC 1 p r).1.1,
          |w| ≤ 40000) ∧
        Charged ((LumpedThermal.default : LumpedThermal ℝ).stepCells c.airTempC 1 p r).2 := by
    intro p r hp hr
    obtain ⟨hc, ht, ho⟩ := hr
    rw [LumpedThermal.stepCells]
    cases hlist : p.1 with
    | nil => exact ⟨fun w hw => (by rw [hlist] at hw; cases hw), hc⟩
    | cons w rest =>
      rw [hlist] at hp
      refine ⟨fun v hv => hp v (List.mem_cons_of_mem _ hv), ?_⟩
      have hw := abs_le.mp (hp w List.mem_cons_self)
      have hoff := abs_le.mp ho
      simp only [hair, ht, LumpedThermal.default]
      norm_num at hoff
      apply charged_temp hc
      · norm_num
        linarith [hw.1, hoff.1]
      · norm_num
        linarith [hw.2, hoff.2]
  exact sweep_forall_inv (I := fun p : List ℝ × ℝ => ∀ w ∈ p.1, |w| ≤ 40000) hstep hheat c.racks
    hracks

/-- The thermal model of the reference site, over one second. -/
theorem thermalTick_site (ems : EmsStrategy ℝ) (s : SiteState ℝ) (inputs : Inputs ℝ) (p : ℝ)
    (c : ContainerState ℝ) :
    thermalTick ((site ems).ctx s inputs) p c =
      (LumpedThermal.default : LumpedThermal ℝ).stepContainer
        (deliveredContainer ((site ems).ctx s inputs) p c)
        (c.racks.map (heatOf ((site ems).ctx s inputs) p)) inputs.weather 1 := by
  rw [← tickS_real]
  rfl

/-- A site as commissioned, under its rating: after a tick every branch is charged. -/
theorem allIn_discharged {s : SiteState ℝ} (h : AllIn 100000000 s) (ems : EmsStrategy ℝ)
    (inputs : Inputs ℝ) (hfresh : ForallRacks Fresh s)
    (hair : ∀ b ∈ s.blocks, ∀ c ∈ b.containers, c.airTempC = 20) :
    ForallRacks Charged ((site ems).siteTick s inputs) := by
  intro b hb c hc r hr
  obtain ⟨b₀, hb₀, c₀, hc₀, rfl⟩ := exists_container_before _ _ _ hb hc
  have hmem := List.fst_mem_of_mem_zipIdx hb₀
  have hrack := fun r (hr : r ∈ c₀.racks) => discharge_rack h ems inputs hb₀
    (List.mem_flatMap.mpr ⟨c₀, hc₀, hr⟩) (hfresh b₀.1 hmem c₀ hc₀ r hr)
  rw [containerTick, thermalTick_site] at hr
  obtain ⟨r₁, hr₁, rfl⟩ := List.mem_map.mp hr
  apply charged_word ems
  apply charged_cells inputs.weather _ _ _ r₁ hr₁
  · exact hair b₀.1 hmem c₀ hc₀
  · intro w hw
    obtain ⟨r₀, hr₀, rfl⟩ := List.mem_map.mp hw
    exact (hrack r₀ hr₀).2.2.2
  · intro r₂ hr₂
    obtain ⟨r₀, hr₀, rfl⟩ := List.mem_map.mp hr₂
    exact ⟨(hrack r₀ hr₀).1, (hrack r₀ hr₀).2.1, (hrack r₀ hr₀).2.2.1⟩

section

variable {s : SiteState ℝ} (h : AllIn (-400000) s) (ems : EmsStrategy ℝ) (inputs : Inputs ℝ)
include h

theorem charge_request_mem {b : BlockState ℝ × Nat} (hb : b ∈ s.blocks.zipIdx) {r : RackState ℝ}
    (hr : r ∈ b.1.racks) :
    let p := requestOf ((site ems).ctx s inputs)
      (perRackOf ((site ems).ctx s inputs) ((site ems).inSet s inputs b) b.1) r
    p ≤ -1 ∧ -334 ≤ p := by
  obtain ⟨hm, hlim⟩ := allIn_limits h ems inputs hb hr
  obtain ⟨hlo, hhi⟩ := request_charge (allIn_block h ems inputs hb).2.2.1
  rw [allIn_perRack h ems inputs hb (by norm_num) (by norm_num), requestOf, if_pos hm.inService, hlim]
  set x := (CurvePcs.cecUtilityReference (5.0e6 : ℝ)).dcRequestW (-400000 / 20)
    (blockLimits ((site ems).ctx s inputs) b.1) with hx
  clear_value x
  have h0 : -334 ≤ x / 24 := by
    rw [le_div_iff₀ (by norm_num)]
    linarith
  have h1 : x / 24 ≤ -1 := by
    rw [div_le_iff₀ (by norm_num)]
    linarith
  simp only
  rw [Scalar.clamp_of_mem]
  · exact ⟨h1, h0⟩
  · norm_num
    linarith
  · norm_num
    linarith

theorem charge_opposed {b : BlockState ℝ × Nat} (hb : b ∈ s.blocks.zipIdx) {r : RackState ℝ}
    (hr : r ∈ b.1.racks) (hc : Charged r) : Opposed (site ems) s inputs b r := by
  obtain ⟨hp1, hp0⟩ := charge_request_mem h ems inputs hb hr
  have hw := hc.mild.windowed
  have hv := hc.polarized
  have hs := seriesOhm_pos hw
  have hle := seriesOhm_le hw
  have hocv := (ocv_mem r.soc).1
  refine ⟨hc.mild.inService, ?_, ?_⟩
  · rw [abs_of_neg (by linarith)]
    exact epsilon_le_one.trans (by linarith)
  · apply mul_neg_of_neg_of_pos (by linarith)
    norm_num at hv hle hocv
    have hgive : 1206 * (13 / 100) ≤ ocvRackV r.soc gw01Rack * r.polarizationV :=
      mul_le_mul (by linarith [hocv]) hv (by norm_num) (by linarith [hocv])
    have htake : -(721 / 2500 * 334) ≤ seriesOhm r
        * requestOf ((site ems).ctx s inputs)
          (perRackOf ((site ems).ctx s inputs) ((site ems).inSet s inputs b) b.1) r := by
      calc -(721 / 2500 * 334) ≤ seriesOhm r * -334 := by linarith [hle]
        _ ≤ _ := mul_le_mul_of_nonneg_left hp0 hs.le
    linarith

/-- A block of the site, and a rack in it. -/
theorem allIn_rack : ∃ b ∈ s.blocks.zipIdx, ∃ r ∈ b.1.racks, r.inService = true := by
  obtain ⟨b, hb⟩ : ∃ b, b ∈ s.blocks.zipIdx := by
    apply List.exists_mem_of_length_pos
    rw [List.length_zipIdx, allIn_length h]
    norm_num
  obtain ⟨r, hr⟩ : ∃ r, r ∈ b.1.racks := by
    apply List.exists_mem_of_length_pos
    rw [(h.kept.shape.blocks b.1 (List.fst_mem_of_mem_zipIdx hb)).racks_length]
    decide
  obtain ⟨c, hcm, hrc⟩ := List.mem_flatMap.mp hr
  exact ⟨b, hb, r, hr, (h.mild b.1 (List.fst_mem_of_mem_zipIdx hb) c hcm r hrc).inService⟩

/-- A small charge asks every rack against a branch that has just discharged. -/
theorem charge_allOpposed (hc : ForallRacks Charged s) : AllOpposed (site ems) s inputs where
  some := allIn_rack h
  idle b hb r hr := by
    obtain ⟨c, hcm, hrc⟩ := List.mem_flatMap.mp hr
    exact mild_idle (hc b.1 (List.fst_mem_of_mem_zipIdx hb) c hcm r hrc).mild
  opposed b hb r hr _ := by
    obtain ⟨c, hcm, hrc⟩ := List.mem_flatMap.mp hr
    exact charge_opposed h ems inputs hb hr (hc b.1 (List.fst_mem_of_mem_zipIdx hb) c hcm r hrc)

end

section

variable {w : ℝ} {s : SiteState ℝ}

theorem allIn_setpoint (h : AllIn w s) (w' : ℝ) : AllIn w' (s.withSetpoint (some w')) where
  breaker := h.breaker
  released := h.released
  external := rfl
  setpoint := rfl
  mode := h.mode
  working := h.working
  kept := ⟨⟨h.kept.shape.count, h.kept.shape.blocks⟩, h.kept.racks⟩
  mild := h.mild

/-- A tick moves no block out, as long as it leaves the racks mild. -/
theorem allIn_tick (h : AllIn w s) (ems : EmsStrategy ℝ) (inputs : Inputs ℝ)
    (hk : Kept ((site ems).siteTick s inputs)) (hm : ForallRacks Mild ((site ems).siteTick s inputs)) :
    AllIn w ((site ems).siteTick s inputs) where
  breaker := (tick_breaker s inputs).trans h.breaker
  released := by
    rw [siteTick_blocksReleased, allIn_ems h]
    exact h.released
  external := by
    change ((site ems).emsTick s inputs).mode = .external
    rw [allIn_ems h]
    exact h.external
  setpoint := by
    change ((site ems).emsTick s inputs).externalSetpointW = w
    rw [allIn_ems h]
    exact h.setpoint
  mode := by
    intro b hb
    obtain ⟨b₀, hb₀, rfl⟩ := exists_block_before _ _ _ hb
    exact h.mode b₀.1 (List.fst_mem_of_mem_zipIdx hb₀)
  working := by
    intro b hb
    obtain ⟨b₀, hb₀, rfl⟩ := exists_block_before _ _ _ hb
    exact fun hf => h.working b₀.1 (List.fst_mem_of_mem_zipIdx hb₀)
      ((tick_opState s inputs _ b₀.1).mp hf)
  kept := hk
  mild := hm

end

theorem fresh_new (g : Streams) :
    Fresh (RackState.new (PlantConfig.gw01 : PlantConfig ℝ) g ()).2 := by
  have hw := windowed_new g
  have hu := uniform_mem g.rng (-0.005 : ℝ) 0.005 (by norm_num)
  have hs := (uniform_mem (g.rng.uniform (-0.005 : ℝ) 0.005).2 0.97 1.03 (by norm_num)).1
  have ho := uniform_mem ((g.rng.uniform (-0.005 : ℝ) 0.005).2.uniform (0.97 : ℝ) 1.03).2
    (-1.5 : ℝ) 1.5 (by norm_num)
  have hsoc : (RackState.new (PlantConfig.gw01 : PlantConfig ℝ) g ()).2.soc =
      Scalar.clamp (0.5 + (g.rng.uniform (-0.005 : ℝ) 0.005).1) 0 1 := rfl
  have hclamp : Scalar.clamp (0.5 + (g.rng.uniform (-0.005 : ℝ) 0.005).1) 0 1 =
      0.5 + (g.rng.uniform (-0.005 : ℝ) 0.005).1 := by
    norm_num at hu
    apply clamp_unit
    · norm_num
      linarith [hu.1]
    · norm_num
      linarith [hu.2]
  rw [hclamp] at hsoc
  norm_num at hu
  have ht : (RackState.new (PlantConfig.gw01 : PlantConfig ℝ) g ()).2.cellTempC = 20 := rfl
  refine ⟨⟨hw, rfl, ?_, ?_, ?_, ?_, hs⟩, ?_, ?_, rfl, ht, abs_le.mpr ho⟩
  · rw [hsoc]
    norm_num
    linarith [hu.1]
  · rw [hsoc]
    norm_num
    linarith [hu.2]
  · rw [ht]
    norm_num
  · rw [ht]
    norm_num
  · rw [hsoc]
    norm_num
    linarith [hu.1]
  · rw [hsoc]
    norm_num
    linarith [hu.2]

/-- A fresh site takes part whole under any setpoint. -/
theorem allIn_fresh {s : SiteState ℝ} (hbreaker : s.substation.hvBreaker = .closed)
    (hreleased : s.ems.blocksReleased = 20) (hkept : Kept s)
    (hblocks : ∀ b ∈ s.blocks, b.mode = .inService ∧ b.pcs.opState = .standby)
    (hfresh : ForallRacks Fresh s) (w : ℝ) : AllIn w (s.withSetpoint (some w)) where
  breaker := hbreaker
  released := hreleased
  external := rfl
  setpoint := rfl
  mode b hb := (hblocks b hb).1
  working b hb := by
    rw [(hblocks b hb).2]
    exact fun he => by cases he
  kept := ⟨⟨hkept.shape.count, hkept.shape.blocks⟩, hkept.racks⟩
  mild b hb c hc r hr := (hfresh b hb c hc r hr).mild

/-- Whatever the configuration, a site starts connected and with all blocks released. -/
theorem new_connected (cfg : PlantConfig ℝ) (seed : UInt64) (t : Int) :
    (SiteState.new cfg seed t).substation.hvBreaker = .closed ∧
      (SiteState.new cfg seed t).ems.blocksReleased = cfg.blocks := ⟨rfl, rfl⟩

theorem site_fresh (seed : UInt64) (t : Int) :
    ForallRacks Fresh (SiteState.new (PlantConfig.gw01 : PlantConfig ℝ) seed t) :=
  forall_new_blocks _ seed t (forall_new_containers _ (forall_new_racks _ fresh_new))

theorem blocks_new (seed : UInt64) (t : Int) :
    ∀ b ∈ (SiteState.new (PlantConfig.gw01 : PlantConfig ℝ) seed t).blocks,
      b.mode = .inService ∧ b.pcs.opState = .standby :=
  forall_new_blocks _ seed t fun _ => ⟨rfl, rfl⟩

/-- The reference site as commissioned, asked for its rating. -/
theorem allIn_new (seed : UInt64) (t : Int) :
    AllIn 100000000
      ((SiteState.new (PlantConfig.gw01 : PlantConfig ℝ) seed t).withSetpoint (some 100000000)) := by
  obtain ⟨hbreaker, hreleased⟩ := new_connected PlantConfig.gw01 seed t
  exact allIn_fresh hbreaker hreleased (running_new ⟨fun _ _ => 0⟩ seed t).kept
    (blocks_new seed t) (site_fresh seed t) 100000000

theorem air_new (seed : UInt64) (t : Int) :
    ∀ b ∈ (SiteState.new (PlantConfig.gw01 : PlantConfig ℝ) seed t).blocks,
      ∀ c ∈ b.containers, c.airTempC = 20 :=
  forall_new_blocks _ seed t (forall_new_containers _ fun _ => rfl)

/-- A mild day at the nominal frequency. -/
noncomputable def mildDay : Inputs ℝ := ⟨⟨12.0, 0.0⟩, 50.0⟩

/-- One second at the rating, one second of a small charge. -/
noncomputable def reversal : List (Move ℝ) :=
  [.command (.setExternalSetpointW (some 100000000)), .step mildDay,
    .command (.setExternalSetpointW (some (-400000))), .step mildDay]

/-- Two seconds at the rating. -/
noncomputable def rating : List (Move ℝ) :=
  [.command (.setExternalSetpointW (some 100000000)), .step mildDay, .step mildDay]

theorem move_setpoint (sim : Simulation ℝ) (w : ℝ) :
    (sim.move (.command (.setExternalSetpointW (some w)))).state = sim.state.withSetpoint (some w) :=
  rfl

theorem Running.move_step {ems : EmsStrategy ℝ} {sim : Simulation ℝ} (h : Running ems sim)
    (inputs : Inputs ℝ) :
    (sim.move (.step inputs)).state = (site ems).siteTick sim.state inputs := by
  rw [Simulation.move, step_state h.sound, h.plant]

/-- The first second at the rating charges every branch, and takes part whole. -/
theorem rating_charged : AllIn 100000000
      ((site ⟨fun _ _ => 0⟩).siteTick ((SiteState.new (PlantConfig.gw01 : PlantConfig ℝ) 42 0).withSetpoint
        (some 100000000)) mildDay) ∧
    ForallRacks Charged
      ((site ⟨fun _ _ => 0⟩).siteTick ((SiteState.new (PlantConfig.gw01 : PlantConfig ℝ) 42 0).withSetpoint
        (some 100000000)) mildDay) := by
  have h0 := running_new ⟨fun _ _ => 0⟩ 42 0
  have h1 := running_move _ (.command (.setExternalSetpointW (some 100000000))) h0
  have h2 := running_move _ (.step mildDay) h1
  have hall := allIn_new 42 0
  have hcharged :=
    allIn_discharged hall ⟨fun _ _ => 0⟩ mildDay (site_fresh 42 0) (air_new 42 0)
  have hkept := h2.kept
  rw [h1.move_step, move_setpoint] at hkept
  exact ⟨allIn_tick hall ⟨fun _ _ => 0⟩ mildDay hkept
    fun b hb c hc r hr => (hcharged b hb c hc r hr).mild, hcharged⟩

/-- The small charge leaves the batteries' counter lower than it was. -/
theorem reversal_counter_falls :
    ¬ Traces.Always Simulation.move (Counts NeverDecreases)
      (Simulation.new PlantConfig.gw01 (gw01Models PlantConfig.gw01 ⟨fun _ _ => 0⟩) 42 0)
      reversal := by
  have h0 := running_new ⟨fun _ _ => 0⟩ 42 0
  have h1 := running_move _ (.command (.setExternalSetpointW (some 100000000))) h0
  have h2 := running_move _ (.step mildDay) h1
  have h3 := running_move _ (.command (.setExternalSetpointW (some (-400000)))) h2
  -- the first second charges every branch
  obtain ⟨hall, hcharged⟩ := rating_charged
  -- the second asks every rack against its branch
  have hopposed := charge_allOpposed (allIn_setpoint hall (-400000)) ⟨fun _ _ => 0⟩ mildDay hcharged
  rintro ⟨_, _, _, hrise, _⟩
  have hheat := (neverDecreases_step h3 mildDay).mp hrise
  have hkept' := h3.kept
  rw [move_setpoint, h1.move_step, move_setpoint] at hheat hkept'
  exact not_lt.mpr hheat (heat_neg hkept' hopposed)

/-- At the rating every counter keeps rising. -/
theorem counters_monotonic_rating :
    Traces.Always Simulation.move (Counts NeverDecreases)
      (Simulation.new PlantConfig.gw01 (gw01Models PlantConfig.gw01 ⟨fun _ _ => 0⟩) 42 0)
      rating := by
  have h0 := running_new ⟨fun _ _ => 0⟩ 42 0
  have h1 := running_move _ (.command (.setExternalSetpointW (some 100000000))) h0
  have h2 := running_move _ (.step mildDay) h1
  obtain ⟨hall, hcharged⟩ := rating_charged
  apply (counters_monotonic ⟨fun _ _ => 0⟩ 42 0 rating).2.1
  refine ⟨trivial, ?_, ?_, trivial⟩
  · change NoneOpposed _ _ _
    rw [h1.plant, move_setpoint]
    exact rating_noneOpposed (allIn_new 42 0) _ _
      fun b hb c hc r hr => (site_fresh 42 0 b hb c hc r hr).rested.ge
  · change NoneOpposed _ _ _
    rw [h2.plant, h1.move_step, move_setpoint]
    exact rating_noneOpposed hall _ _
      fun b hb c hc r hr => le_trans (by norm_num) (hcharged b hb c hc r hr).polarized

end BessLosses
