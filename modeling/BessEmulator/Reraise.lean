import BessEmulator.Climate
import BessEmulator.Replay
import BessEmulator.ResetAnswer

/-!
# What comes back after a reset

The answer of a reset is read off the racks as they stand; a bit is raised
again off the racks one tick on. The two agree exactly where no latched trip
crosses its threshold in that tick.
-/
namespace BessReset

open Bess BessClimate BessReplay BessTrip BessLatch BessLosses BessSoc

variable {F : Type} [Scalar F]

/-- A rack of the tree, with its container and its block. -/
structure Stands (s : SiteState F) (b c r : Nat) (blk : BlockState F) (con : ContainerState F)
    (x : RackState F) : Prop where
  block : s.blocks[b]? = some blk
  container : blk.containers[c]? = some con
  rack : con.racks[r]? = some x

omit [Scalar F] in
theorem Stands.rack? {s : SiteState F} {b c r : Nat} {blk : BlockState F} {con : ContainerState F}
    {x : RackState F} (h : Stands s b c r blk con x) : s.rack? b c r = some x := by
  simp only [SiteState.rack?, SiteState.container?, h.block, h.container, h.rack, Option.bind_some]

omit [Scalar F] in
theorem exists_stands {s : SiteState F} {b c r : Nat} {x : RackState F}
    (h : s.rack? b c r = some x) : ∃ blk con, Stands s b c r blk con x := by
  obtain ⟨con, hcon, hx⟩ := Option.bind_eq_some_iff.mp h
  obtain ⟨blk, hblk, hc⟩ := Option.bind_eq_some_iff.mp hcon
  exact ⟨blk, con, hblk, hc, hx⟩

/-- The cell temperature a rack is going to have: its heat, less what it gives to the air. -/
def tempAhead (ctx : TickContext F) (perRackW airC : F) (x : RackState F) : F :=
  warmed LumpedThermal.default airC ctx.dtS (heatOf ctx perRackW x) x

/-- The spread a rack is going to have, from its throughput, leakage and bleeding. -/
def spreadAhead (ctx : TickContext F) (x : RackState F) : F :=
  (Balancing.default.step x ctx.cfg.rack ctx.dtS).1.cellDvV

/-- The trip's quantity has reached its threshold. -/
def tripCause (bit : Nat) (tempC dvV : F) : Bool :=
  let th : RackAlarmThresholds F := RackAlarmThresholds.default
  if bit = RackBit.OVER_TEMP_TRIP then decide (th.overTempTripC ≤ tempC)
  else if bit = RackBit.IMBALANCE_TRIP then decide (th.imbalanceTripV ≤ dvV)
  else if bit = RackBit.UNDER_TEMP_TRIP then decide (tempC ≤ th.underTempTripC)
  else false

theorem tripCause_high {bit : Nat} (h : 11 ≤ bit) (tempC dvV : F) :
    tripCause bit tempC dvV = false := by
  have h8 : bit ≠ RackBit.OVER_TEMP_TRIP := by simp [RackBit.OVER_TEMP_TRIP]; omega
  have h9 : bit ≠ RackBit.IMBALANCE_TRIP := by simp [RackBit.IMBALANCE_TRIP]; omega
  have h10 : bit ≠ RackBit.UNDER_TEMP_TRIP := by simp [RackBit.UNDER_TEMP_TRIP]; omega
  simp only [tripCause, if_neg h8, if_neg h9, if_neg h10]

/-- The latched half of a rack word: what was latched, and what is caused. -/
theorem rackAlarms_trip (x : RackState F) (cfg : RackConfig F) {bit : Nat} (h0 : 8 ≤ bit)
    (h1 : bit < 16) : hasBit (BasicBms.default.rackAlarms x cfg) bit =
      (hasBit x.alarmBits bit || tripCause bit x.cellTempC x.cellDvV) := by
  by_cases hbit : 11 ≤ bit
  · rw [tripCause_high hbit, Bool.or_false]
    apply hasBit_bits_ne
    intro p hp
    have hmem := List.mem_map_of_mem (f := Prod.fst) hp
    rw [RackAlarmThresholds.bits_fst] at hmem
    have hlow : ∀ i ∈ [0, 1, 2, 3, 4, 5, 6, 8, 9, 10], i < 11 := by decide
    have := hlow p.1 hmem
    omega
  · apply RackAlarmThresholds.hasBit_evaluate
    have hcases : bit = 8 ∨ bit = 9 ∨ bit = 10 := by omega
    rcases hcases with rfl | rfl | rfl
    · exact List.mem_of_getElem? (i := 7) rfl
    · exact List.mem_of_getElem? (i := 8) rfl
    · exact List.mem_of_getElem? (i := 9) rfl

section

variable {pl : Plant F} {ems : EmsStrategy F} (hpl : pl.models = gw01Models pl.cfg ems)
  {s : SiteState F} (inputs : Inputs F) {b c r : Nat} {blk : BlockState F} {con : ContainerState F}
  {x : RackState F}
include hpl

/-- The rack the next tick hands out in a rack's place. -/
theorem rack_next (h : Stands s b c r blk con x) :
    let p := perRackOf (pl.ctx s inputs) (pl.inSet s inputs (blk, b)) blk
    (pl.siteTick s inputs).rack? b c r =
      some (wordRack pl.models pl.cfg { (cellTick (pl.ctx s inputs) p x).1 with
        cellTempC := warmed LumpedThermal.default con.airTempC (pl.ctx s inputs).dtS
          (heatOf (pl.ctx s inputs) p x) (cellTick (pl.ctx s inputs) p x).1 }) := by
  intro p
  have hm : (pl.ctx s inputs).models = gw01Models (pl.ctx s inputs).cfg ems := hpl
  have hblk : (pl.siteTick s inputs).blocks[b]? = some (pl.nextBlock s inputs (blk, b)) := by
    rw [nextBlock_at, h.block]
    rfl
  have hcon : (pl.nextBlock s inputs (blk, b)).containers[c]? =
      some (containerTick (pl.ctx s inputs) p con) := by
    rw [Plant.nextBlock, blockTick_containers, List.getElem?_map, h.container]
    rfl
  have hrack : (containerTick (pl.ctx s inputs) p con).racks[r]? =
      some (wordRack pl.models pl.cfg { (cellTick (pl.ctx s inputs) p x).1 with
        cellTempC := warmed LumpedThermal.default con.airTempC (pl.ctx s inputs).dtS
          (heatOf (pl.ctx s inputs) p x) (cellTick (pl.ctx s inputs) p x).1 }) := by
    rw [containerTick]
    simp only [thermalTick_racks hm, List.getElem?_map, h.rack, Option.map_some]
    rfl
  exact (Stands.mk hblk hcon hrack).rack?

/-- What the next tick makes of a rack. -/
theorem rack_ahead (h : Stands s b c r blk con x) :
    ∃ y, (pl.siteTick s inputs).rack? b c r = some y ∧
      y.cellTempC = tempAhead (pl.ctx s inputs)
        (perRackOf (pl.ctx s inputs) (pl.inSet s inputs (blk, b)) blk) con.airTempC x ∧
      y.cellDvV = spreadAhead (pl.ctx s inputs) x := by
  have hm : (pl.ctx s inputs).models = gw01Models (pl.ctx s inputs).cfg ems := hpl
  set p := perRackOf (pl.ctx s inputs) (pl.inSet s inputs (blk, b)) blk with hp
  obtain ⟨htemp, hoff⟩ := cellTick_temp hm p x
  refine ⟨_, rack_next hpl inputs h, ?_, ?_⟩
  · change warmed _ _ _ _ _ = _
    simp only [tempAhead, warmed, toAirW, ← hp, htemp, hoff]
  · change (cellTick (pl.ctx s inputs) p x).1.cellDvV = _
    rw [(cellTick_spread hm p x).1, bmsTick, hm]
    rfl

/-- A trip bit after the next tick: still latched, or caused by then. -/
theorem trip_ahead (h : Stands s b c r blk con x) {bit : Nat} (h0 : 8 ≤ bit) (h1 : bit < 16) :
    hasBit (wordOf (pl.siteTick s inputs) (.rack b c r)) bit =
      (hasBit x.alarmBits bit ||
        tripCause bit
          (tempAhead (pl.ctx s inputs)
            (perRackOf (pl.ctx s inputs) (pl.inSet s inputs (blk, b)) blk) con.airTempC x)
          (spreadAhead (pl.ctx s inputs) x)) := by
  obtain ⟨y, hy, htemp, hspread⟩ := rack_ahead hpl inputs h
  obtain ⟨x₀, hx₀, hword⟩ := rack_tick pl s inputs hy
  obtain rfl := Option.some.inj (h.rack?.symm.trans hx₀)
  rw [hpl] at hword
  rw [wordOf, hy, Option.map_some, Option.getD_some, hword, ← htemp, ← hspread]
  exact rackAlarms_trip { y with alarmBits := x.alarmBits } pl.cfg.rack h0 h1

end

/-- In the tick after the reset, no latched trip in scope crosses its
threshold. `s` is the tree the reset found, `s'` the tree it left. -/
def NoneCrosses (pl : Plant F) (scope : ResetScope) (s s' : SiteState F) (inputs : Inputs F) : Prop :=
  ∀ b c r blk con x, Covers scope (.rack b c r) → Stands s' b c r blk con x →
    ∀ bit ∈ rackTrips, hasBit (wordOf s (.rack b c r)) bit = true →
      tripCause bit x.cellTempC x.cellDvV =
        tripCause bit
          (tempAhead (pl.ctx s' inputs)
            (perRackOf (pl.ctx s' inputs) (pl.inSet s' inputs (blk, b)) blk) con.airTempC x)
          (spreadAhead (pl.ctx s' inputs) x)

/-- A rack's bit that the reset cleared and the next step raised again. -/
def RaisedAgain (s s' next : SiteState F) (node : AlarmNode) (bit : Nat) : Prop :=
  (∃ b c r, node = .rack b c r) ∧ hasBit (wordOf s node) bit = true ∧
    hasBit (wordOf s' node) bit = false ∧ hasBit (wordOf next node) bit = true

/-- The answer is what comes back, none missing and none extra. -/
def ComesBack (s s' next : SiteState F) (still : List (AlarmNode × Nat)) : Prop :=
  ∀ node bit, (node, bit) ∈ still ↔ RaisedAgain s s' next node bit

theorem mem_rackTrips {bit : Nat} : bit ∈ rackTrips ↔ 8 ≤ bit ∧ bit < 11 := by
  simp only [rackTrips, RackBit.OVER_TEMP_TRIP, RackBit.IMBALANCE_TRIP, RackBit.UNDER_TEMP_TRIP,
    List.mem_cons, List.not_mem_nil, or_false]
  omega

section

variable {pl : Plant F} {ems : EmsStrategy F} (hpl : pl.models = gw01Models pl.cfg ems)
  {s s' : SiteState F} {scope : ResetScope} {still : List (AlarmNode × Nat)}
  (h : resetAlarms pl.models pl.cfg s scope = (.ok still, s')) (inputs : Inputs F)
include hpl h

/-- For one rack in scope: its cause is present now, its cause is present one tick on. -/
theorem answer_rack {b c r : Nat} (hcov : Covers scope (.rack b c r)) {blk : BlockState F}
    {con : ContainerState F} {x : RackState F} (hx : Stands s' b c r blk con x) {bit : Nat}
    (h0 : 8 ≤ bit) (h1 : bit < 16) (hold : hasBit (wordOf s (.rack b c r)) bit = true) :
    (((.rack b c r, bit) ∈ still) ↔ tripCause bit x.cellTempC x.cellDvV = true) ∧
      (RaisedAgain s s' (pl.siteTick s' inputs) (.rack b c r) bit ↔
        tripCause bit
          (tempAhead (pl.ctx s' inputs)
            (perRackOf (pl.ctx s' inputs) (pl.inSet s' inputs (blk, b)) blk) con.airTempC x)
          (spreadAhead (pl.ctx s' inputs) x) = true) := by
  have hpass := reset_answers h
  obtain ⟨x₀, hx₀, rfl⟩ := Option.map_eq_some_iff.mp ((hpass.done b c r hcov).symm.trans hx.rack?)
  have hword : wordOf s (.rack b c r) = x₀.alarmBits := by simp [wordOf, hx₀]
  have hword' : wordOf s' (.rack b c r) = x₀.unlatch.alarmBits := by simp [wordOf, hx.rack?]
  have hclear := hasBit_unlatch (x := x₀) h0 h1
  rw [hword] at hold
  constructor
  · rw [hpass.still (.rack b c r) bit, and_iff_right hcov]
    have hcause : bit ∈ stillOf pl.models pl.cfg x₀ ↔
        tripCause bit x₀.cellTempC x₀.cellDvV = true := by
      rw [mem_stillOf, and_iff_right ⟨h0, h1⟩, and_iff_right hold, hpl]
      change hasBit (BasicBms.default.rackAlarms x₀.unlatch pl.cfg.rack) bit = true ↔ _
      rw [rackAlarms_trip _ _ h0 h1, hclear, Bool.false_or]
      rfl
    constructor
    · rintro ⟨_, _, _, x, he, hx', hmem⟩
      cases he
      obtain rfl := Option.some.inj (hx₀.symm.trans hx')
      exact hcause.mp hmem
    · intro hnow
      exact ⟨b, c, r, x₀, rfl, hx₀, hcause.mpr hnow⟩
  · rw [RaisedAgain, and_iff_right ⟨b, c, r, rfl⟩, hword, hword', and_iff_right hold,
      and_iff_right hclear, trip_ahead hpl inputs hx h0 h1, hclear, Bool.false_or]

omit hpl in
/-- A pair the answer or the next step is about: a bit of a rack in scope that
was latched. -/
theorem in_question {node : AlarmNode} {bit : Nat}
    (hq : (node, bit) ∈ still ∨ RaisedAgain s s' (pl.siteTick s' inputs) node bit) :
    ∃ b c r blk con x, node = .rack b c r ∧ Covers scope (.rack b c r) ∧
      Stands s' b c r blk con x ∧ (8 ≤ bit ∧ bit < 16) ∧
        hasBit (wordOf s (.rack b c r)) bit = true := by
  have hpass := reset_answers h
  obtain hstill | ⟨⟨b, c, r, rfl⟩, hold, hclear, hnext⟩ := hq
  · obtain ⟨hcov, b, c, r, x₀, rfl, hx₀, hmem⟩ := (hpass.still node bit).mp hstill
    obtain ⟨hrange, hold, -⟩ := (mem_stillOf _ _).mp hmem
    have hx : s'.rack? b c r = some x₀.unlatch := (hpass.done b c r hcov).trans (by rw [hx₀]; rfl)
    obtain ⟨blk, con, hstands⟩ := exists_stands hx
    exact ⟨b, c, r, blk, con, _, rfl, hcov, hstands, hrange, by simp [wordOf, hx₀, hold]⟩
  · cases hx₀ : s.rack? b c r with
    | none => simp [wordOf, hx₀] at hold
    | some x₀ =>
      have hcov : Covers scope (.rack b c r) := by
        by_contra hout
        have hsame : s'.rack? b c r = s.rack? b c r := hpass.rest b c r hout
        rw [wordOf, hsame] at hclear
        rw [wordOf, hclear] at hold
        cases hold
      have hx : s'.rack? b c r = some x₀.unlatch := (hpass.done b c r hcov).trans (by rw [hx₀]; rfl)
      obtain ⟨blk, con, hstands⟩ := exists_stands hx
      refine ⟨b, c, r, blk, con, _, rfl, hcov, hstands, ?_, hold⟩
      have hw : hasBit x₀.alarmBits bit = true := by simpa [wordOf, hx₀] using hold
      have hc : hasBit x₀.unlatch.alarmBits bit = false := by simpa [wordOf, hx] using hclear
      rw [RackState.unlatch, hasBit_and_not_trip, hw] at hc
      simpa using hc

/-- The answer is what comes back exactly if no latched trip crosses. -/
theorem comesBack_iff : ComesBack s s' (pl.siteTick s' inputs) still ↔
    NoneCrosses pl scope s s' inputs := by
  constructor
  · intro hall b c r blk con x hcov hx bit hbit hold
    obtain ⟨h0, h1⟩ := mem_rackTrips.mp hbit
    obtain ⟨hnow, hnext⟩ := answer_rack hpl h inputs hcov hx h0 (by omega) hold
    rw [Bool.eq_iff_iff, ← hnow, ← hnext]
    exact hall (.rack b c r) bit
  · intro hnone node bit
    by_cases hq : (node, bit) ∈ still ∨ RaisedAgain s s' (pl.siteTick s' inputs) node bit
    · obtain ⟨b, c, r, blk, con, x, rfl, hcov, hx, ⟨h0, h1⟩, hold⟩ := in_question h inputs hq
      obtain ⟨hnow, hnext⟩ := answer_rack hpl h inputs hcov hx h0 h1 hold
      rw [hnow, hnext]
      by_cases hbit : bit ∈ rackTrips
      · rw [hnone b c r blk con x hcov hx bit hbit hold]
      · have hhigh : 11 ≤ bit := by
          rw [mem_rackTrips] at hbit
          omega
        rw [tripCause_high hhigh, tripCause_high hhigh]
    · obtain ⟨hs, hr⟩ := not_or.mp hq
      exact iff_of_false hs hr

end

theorem state_reset {sim : Simulation F} {scope : ResetScope} {s' : SiteState F}
    {still : List (AlarmNode × Nat)}
    (h : resetAlarms sim.models sim.cfg sim.state scope = (.ok still, s')) :
    (sim.command (.resetAlarms scope)).state = s' := by
  rw [Simulation.command, h]

/-- The coldest and the hottest one second can make of a rack's cells, from cells and air as
they stand: a rack's heat is between -350 W and 35 kW. -/
noncomputable def coolestC (airC : ℝ) (x : RackState ℝ) : ℝ :=
  x.cellTempC + (-350.0 - toAirW LumpedThermal.default airC x) / 2330000.0

noncomputable def hottestC (airC : ℝ) (x : RackState ℝ) : ℝ :=
  x.cellTempC + (35000.0 - toAirW LumpedThermal.default airC x) / 2330000.0

/-- What one second can add to the spread of the charges: by the last current, by age and by leaks. -/
noncomputable def widening (x : RackState ℝ) : ℝ :=
  1.0e-4 * |x.currentA| / (3600.0 * 314.0) + 0.018 / (30.0 * 86400.0) + x.selfDischargeExcessPerS

/-- The narrowest and the widest one second can make of the spread of the voltages, from what
the curve reads at the rack's charge and the steepest it rises. -/
noncomputable def narrowestV (x : RackState ℝ) : ℝ :=
  spreadV x.soc (min x.cellDsoc 1) - OCV_SLOPE * (0.24 / (3600.0 * 314.0))

noncomputable def widestV (x : RackState ℝ) : ℝ :=
  spreadV x.soc (min x.cellDsoc 1) + OCV_SLOPE * widening x

theorem drift_between {x : RackState ℝ} (h : RackOk x) :
    min x.cellDsoc 1 ≤ Balancing.default.drift x gw01Rack 1 ∧
      Balancing.default.drift x gw01Rack 1 ≤ min x.cellDsoc 1 + widening x := by
  have hleak := h.excess
  have hcurrent : 0 ≤ 1.0e-4 * |x.currentA| / (3600.0 * 314.0) := by positivity
  have hthrough : (1.0e-4 : ℝ) * (|x.currentA| / (3600.0 * 314)) =
      1.0e-4 * |x.currentA| / (3600.0 * 314.0) := by
    norm_num
    ring
  have hage : (0 : ℝ) ≤ 0.018 / (30.0 * 86400.0) := by norm_num
  have hone : (1.0 : ℝ) = 1 := by norm_num
  have hlo : min x.cellDsoc 1 ≤ x.cellDsoc := min_le_left _ _
  have hcap : min x.cellDsoc 1 ≤ 1 := min_le_right _ _
  have hgrow : ∀ {g : ℝ}, 0 ≤ g → min (x.cellDsoc + g) 1 ≤ min x.cellDsoc 1 + g := by
    intro g hg
    rw [← min_add_add_right]
    exact min_le_min (le_refl _) (by linarith)
  simp only [Balancing.drift, Balancing.default, Scalar.abs_real, capacityAh_eq h.soh,
    gw01Rack_capacity, hone, mul_one, hthrough]
  rw [widening]
  generalize (1.0e-4 : ℝ) * |x.currentA| / (3600.0 * 314.0) = through at hcurrent ⊢
  generalize (0.018 : ℝ) / (30.0 * 86400.0) = age at hage ⊢
  split
  · rw [add_assoc]
    exact ⟨le_min (by linarith) hcap, (hgrow (by linarith)).trans (by linarith)⟩
  · exact ⟨le_min (by linarith) hcap, (hgrow (by linarith)).trans (by linarith)⟩

/-- A spread read where the charges have drifted apart by `d - d₀` and `n` was bled off. -/
theorem spreadV_moved (soc : ℝ) {d₀ d n : ℝ} (hd : d₀ ≤ d) (hn : 0 ≤ n) :
    spreadV soc d₀ - OCV_SLOPE * n ≤ spreadV (soc - n / 2) (d - n) ∧
      spreadV (soc - n / 2) (d - n) ≤ spreadV soc d₀ + OCV_SLOPE * (d - d₀) := by
  have hhigh : soc - n / 2 + (d - n) / 2 = soc + d / 2 - n := by ring
  have hlow : soc - n / 2 - (d - n) / 2 = soc - d / 2 := by ring
  simp only [spreadV, hhigh, hlow]
  have hbled := ocvCellV_sub_le (x := soc + d / 2 - n) (y := soc + d / 2) (by linarith)
  have hbled' := ocvCellV_mono (x := soc + d / 2 - n) (y := soc + d / 2) (by linarith)
  have hup := ocvCellV_mono (x := soc + d₀ / 2) (y := soc + d / 2) (by linarith)
  have hup' := ocvCellV_sub_le (x := soc + d₀ / 2) (y := soc + d / 2) (by linarith)
  have hdown := ocvCellV_mono (x := soc - d / 2) (y := soc - d₀ / 2) (by linarith)
  have hdown' := ocvCellV_sub_le (x := soc - d / 2) (y := soc - d₀ / 2) (by linarith)
  constructor
  · linarith
  · linarith

/-- The BMS reads its spread off the curve at the charges it leaves. -/
theorem balance_reading (x : RackState ℝ) :
    (Balancing.default.step x gw01Rack 1).1.cellDvV =
      spreadV (Balancing.default.step x gw01Rack 1).1.soc
        (Balancing.default.step x gw01Rack 1).1.cellDsoc := by
  rw [Balancing.step]
  cases Balancing.default.active x <;> rfl

/-- What the charges have drifted apart, less what a bleeding rack takes off. -/
theorem balance_dsoc (x : RackState ℝ) :
    (Balancing.default.step x gw01Rack 1).1.cellDsoc =
      Balancing.default.drift x gw01Rack 1 -
        if Balancing.default.active x then bled x else 0 := by
  rw [Balancing.step]
  cases Balancing.default.active x with
  | false => simp
  | true =>
    simp only [if_true]
    rfl

/-- Half of what is bled is the rack's charge. -/
theorem balance_charge {x : RackState ℝ} (h : RackOk x) :
    (Balancing.default.step x gw01Rack 1).1.soc =
      x.soc - (if Balancing.default.active x then bled x else 0) / 2 := by
  cases ha : Balancing.default.active x with
  | false =>
    rw [(balance_idle ha).1]
    simp
  | true =>
    rw [balance_soc h ha]
    norm_num [Balancing.default]
    ring

section

variable (ems : EmsStrategy ℝ) {s : SiteState ℝ} (inputs : Inputs ℝ)

theorem spreadAhead_mem {x : RackState ℝ} (h : RackOk x) :
    narrowestV x ≤ spreadAhead ((site ems).ctx s inputs) x ∧
      spreadAhead ((site ems).ctx s inputs) x ≤ widestV x := by
  have hdt : ((site ems).ctx s inputs).dtS = 1 := tickS_real
  have hcfg : ((site ems).ctx s inputs).cfg.rack = gw01Rack := rfl
  obtain ⟨hlo, hhi⟩ := drift_between h
  obtain ⟨hb0, -⟩ := bled_mem h
  have hb1 := bled_le h
  have hbled : 0 ≤ if Balancing.default.active x then bled x else 0 := by
    split
    · exact hb0
    · exact le_refl 0
  have hbled' : (if Balancing.default.active x then bled x else 0) ≤ 0.24 / (3600.0 * 314.0) := by
    split
    · exact hb1
    · norm_num
  rw [spreadAhead, hdt, hcfg, narrowestV, widestV, balance_reading, balance_charge h, balance_dsoc]
  obtain ⟨hmoved, hmoved'⟩ := spreadV_moved x.soc hlo hbled
  rw [OCV_SLOPE] at *
  constructor
  · linarith
  · linarith

theorem tempAhead_mem (h : Kept s) {b c r : Nat} {blk : BlockState ℝ} {con : ContainerState ℝ}
    {x : RackState ℝ} (hx : Stands s b c r blk con x) (perRackW : ℝ) :
    coolestC con.airTempC x ≤ tempAhead ((site ems).ctx s inputs) perRackW con.airTempC x ∧
      tempAhead ((site ems).ctx s inputs) perRackW con.airTempC x ≤ hottestC con.airTempC x := by
  have hdt : ((site ems).ctx s inputs).dtS = 1 := tickS_real
  have hb : (blk, b) ∈ s.blocks.zipIdx := List.mk_mem_zipIdx_iff_getElem?.mpr hx.block
  have hr : x ∈ blk.racks := List.mem_flatMap.mpr
    ⟨con, List.mem_of_getElem? hx.container, List.mem_of_getElem? hx.rack⟩
  have hheat : -350 ≤ heatOf ((site ems).ctx s inputs) perRackW x ∧
      heatOf ((site ems).ctx s inputs) perRackW x ≤ 35000 := heat_mem inputs h hb hr perRackW
  have hcap : (LumpedThermal.default : LumpedThermal ℝ).rackHeatCapacityJPerK = 2330000 := by
    norm_num [LumpedThermal.default]
  rw [tempAhead, warmed, hdt, hcap, coolestC, hottestC]
  norm_num
  constructor
  · linarith [hheat.1]
  · linarith [hheat.2]

end

/-- A cause present, or absent, at both ends is so between them. -/
theorem tripCause_between (bit : Nat) {t₀ t t₁ d₀ d d₁ : ℝ} (ht₀ : t₀ ≤ t) (ht₁ : t ≤ t₁)
    (hd₀ : d₀ ≤ d) (hd₁ : d ≤ d₁) (h : tripCause bit t₀ d₀ = tripCause bit t₁ d₁) :
    tripCause bit t d = tripCause bit t₀ d₀ := by
  simp only [tripCause] at h ⊢
  split_ifs at h ⊢ with hover himbalance hunder
  · rw [decide_eq_decide] at h ⊢
    exact ⟨fun hc => h.mpr (hc.trans ht₁), fun hc => hc.trans ht₀⟩
  · rw [decide_eq_decide] at h ⊢
    exact ⟨fun hc => h.mpr (hc.trans hd₁), fun hc => hc.trans hd₀⟩
  · rw [decide_eq_decide] at h ⊢
    exact ⟨fun hc => ht₀.trans hc, fun hc => ht₁.trans (h.mp hc)⟩
  · rfl

/-- A trip's quantity is clear of its threshold: on one side of it, whatever one second brings. -/
structure Clear (airC : ℝ) (x : RackState ℝ) (bit : Nat) : Prop where
  least : tripCause bit (coolestC airC x) (narrowestV x) = tripCause bit x.cellTempC x.cellDvV
  most : tripCause bit (hottestC airC x) (widestV x) = tripCause bit x.cellTempC x.cellDvV

/-- A trip's quantity is bound to cross its threshold, whatever one second brings. -/
structure Crosses (airC : ℝ) (x : RackState ℝ) (bit : Nat) : Prop where
  least : tripCause bit (coolestC airC x) (narrowestV x) ≠ tripCause bit x.cellTempC x.cellDvV
  most : tripCause bit (hottestC airC x) (widestV x) ≠ tripCause bit x.cellTempC x.cellDvV

/-- Every latched trip in scope is clear of its threshold. `s` is the tree the reset found,
`s'` the tree it left. -/
def AllClear (scope : ResetScope) (s s' : SiteState ℝ) : Prop :=
  ∀ b c r blk con x, Covers scope (.rack b c r) → Stands s' b c r blk con x →
    ∀ bit ∈ rackTrips, hasBit (wordOf s (.rack b c r)) bit = true → Clear con.airTempC x bit

/-- Some latched trip in scope is bound to cross. -/
def SomeCrosses (scope : ResetScope) (s s' : SiteState ℝ) : Prop :=
  ∃ b c r blk con x, Covers scope (.rack b c r) ∧ Stands s' b c r blk con x ∧
    ∃ bit ∈ rackTrips, hasBit (wordOf s (.rack b c r)) bit = true ∧ Crosses con.airTempC x bit

section

variable {ems : EmsStrategy ℝ} {scope : ResetScope} {s s' : SiteState ℝ} (h : Kept s')
  (inputs : Inputs ℝ)
include h

/-- What a cause is at both ends of a second's reach, it is one tick on. -/
theorem cause_ahead {b c r : Nat} {blk : BlockState ℝ} {con : ContainerState ℝ} {x : RackState ℝ}
    (hx : Stands s' b c r blk con x) (bit : Nat)
    (hends : tripCause bit (coolestC con.airTempC x) (narrowestV x) =
      tripCause bit (hottestC con.airTempC x) (widestV x)) :
    tripCause bit
        (tempAhead ((site ems).ctx s' inputs)
          (perRackOf ((site ems).ctx s' inputs) ((site ems).inSet s' inputs (blk, b)) blk)
          con.airTempC x)
        (spreadAhead ((site ems).ctx s' inputs) x) =
      tripCause bit (coolestC con.airTempC x) (narrowestV x) := by
  have hok := (h.racks blk (List.mem_of_getElem? hx.block) con (List.mem_of_getElem? hx.container)
    x (List.mem_of_getElem? hx.rack)).ok
  obtain ⟨ht₀, ht₁⟩ := tempAhead_mem ems inputs h hx
    (perRackOf ((site ems).ctx s' inputs) ((site ems).inSet s' inputs (blk, b)) blk)
  obtain ⟨hd₀, hd₁⟩ := spreadAhead_mem ems (s := s') inputs hok
  exact tripCause_between bit ht₀ ht₁ hd₀ hd₁ hends

theorem noneCrosses_of_clear (hclear : AllClear scope s s') :
    NoneCrosses (site ems) scope s s' inputs := by
  intro b c r blk con x hcov hx bit hbit hold
  obtain ⟨hleast, hmost⟩ := hclear b c r blk con x hcov hx bit hbit hold
  rw [cause_ahead h inputs hx bit (hleast.trans hmost.symm), hleast]

theorem not_noneCrosses (hcrosses : SomeCrosses scope s s') :
    ¬ NoneCrosses (site ems) scope s s' inputs := by
  obtain ⟨b, c, r, blk, con, x, hcov, hx, bit, hbit, hold, hleast, hmost⟩ := hcrosses
  intro hnone
  have hsame := hnone b c r blk con x hcov hx bit hbit hold
  have hends : tripCause bit (coolestC con.airTempC x) (narrowestV x) =
      tripCause bit (hottestC con.airTempC x) (widestV x) :=
    (Bool.eq_not_of_ne hleast).trans (Bool.eq_not_of_ne hmost).symm
  rw [cause_ahead h inputs hx bit hends] at hsame
  exact hleast hsame.symm

end

/-- The tree an accepted reset leaves, and the step from it. -/
theorem reset_step {ems : EmsStrategy ℝ} {sim : Simulation ℝ} (hrun : Running ems sim)
    {scope : ResetScope} {s' : SiteState ℝ} {still : List (AlarmNode × Nat)}
    (h : resetAlarms sim.models sim.cfg sim.state scope = (.ok still, s')) (inputs : Inputs ℝ) :
    Kept s' ∧
      (ComesBack sim.state s' ((sim.command (.resetAlarms scope)).step inputs).state still ↔
        NoneCrosses (site ems) scope sim.state s' inputs) := by
  have hreset := running_move _ (.command (.resetAlarms scope)) hrun
  have hkept := hreset.kept
  have hnext := hreset.move_step inputs
  change Kept (sim.command (.resetAlarms scope)).state at hkept
  change ((sim.command (.resetAlarms scope)).step inputs).state =
    (site ems).siteTick (sim.command (.resetAlarms scope)).state inputs at hnext
  rw [state_reset h] at hkept hnext
  have hanswer : resetAlarms (site ems).models (site ems).cfg sim.state scope = (.ok still, s') := by
    rw [← hrun.plant]
    exact h
  have hpl : (site ems).models = gw01Models (site ems).cfg ems := rfl
  rw [hnext]
  exact ⟨hkept, comesBack_iff hpl hanswer inputs⟩

/-- What the reset answers is what comes back with the next step, for the reference plant in any
state it reaches and in any weather, where every latched trip in scope is clear of its threshold by
more than a second can move it; and it is not where one is so close that it is bound to cross. -/
theorem reset_answer_comes_back (ems : EmsStrategy ℝ) (seed : UInt64) (t : Int)
    (moves : List (Move ℝ)) (scope : ResetScope) (inputs : Inputs ℝ) :
    let sim := (Simulation.new PlantConfig.gw01 (gw01Models PlantConfig.gw01 ems) seed t).run moves
    ∀ {s' : SiteState ℝ} {still : List (AlarmNode × Nat)},
      resetAlarms sim.models sim.cfg sim.state scope = (.ok still, s') →
        (AllClear scope sim.state s' →
          ComesBack sim.state s' ((sim.command (.resetAlarms scope)).step inputs).state still) ∧
        (SomeCrosses scope sim.state s' →
          ¬ ComesBack sim.state s' ((sim.command (.resetAlarms scope)).step inputs).state still) := by
  intro sim s' still h
  have hrun : Running ems sim := Traces.inv_run running_move (running_new ems seed t) moves
  obtain ⟨hkept, hiff⟩ := reset_step hrun h inputs
  rw [hiff]
  exact ⟨noneCrosses_of_clear hkept inputs, not_noneCrosses hkept inputs⟩

/-- Little spread: in the charges, in the reading, and nothing that could widen it fast. -/
structure Narrow (d : ℝ) (x : RackState ℝ) : Prop where
  charges : x.cellDsoc ≤ d
  reading : x.cellDvV ≤ OCV_SLOPE * d
  current : |x.currentA| ≤ 314
  leak : x.selfDischargeExcessPerS = 0

theorem spreadV_le (soc : ℝ) {d : ℝ} (h : 0 ≤ d) : spreadV soc d ≤ OCV_SLOPE * d := by
  have hrise := ocvCellV_sub_le (x := soc - d / 2) (y := soc + d / 2) (by linarith)
  rw [spreadV]
  linarith

section

variable {d : ℝ} {x : RackState ℝ}

theorem Narrow.widening_le (h : Narrow d x) : widening x ≤ 0.001 := by
  have hcurrent := h.current
  rw [widening, h.leak]
  norm_num
  linarith

theorem Narrow.widestV_le (h : Narrow d x) (hok : RackOk x) : widestV x ≤ OCV_SLOPE * (d + 0.001) := by
  have hwide := h.widening_le
  have hread := spreadV_le x.soc (le_min hok.spread zero_le_one)
  have hmin := min_le_left x.cellDsoc 1
  have hcharges := h.charges
  rw [widestV, OCV_SLOPE] at *
  linarith

/-- The BMS adds a thousandth of a charge at most. -/
theorem narrow_balance (h : Narrow d x) (hok : RackOk x) :
    Narrow (d + 0.001) (Balancing.default.step x gw01Rack 1).1 := by
  have hdrift := (drift_between hok).2
  have hwide := h.widening_le
  have hmin := min_le_left x.cellDsoc 1
  have hcharges := h.charges
  have hnext := rackOk_balance hok (by norm_num : 0 < gw01Rack.cellCapacityAh)
  have hdsoc : (Balancing.default.step x gw01Rack 1).1.cellDsoc ≤ d + 0.001 := by
    have hb := (bled_mem hok).1
    rw [balance_dsoc]
    split
    · linarith
    · linarith
  refine ⟨hdsoc, ?_, ?_, ?_⟩
  · rw [balance_reading]
    refine (spreadV_le _ hnext.spread).trans (mul_le_mul_of_nonneg_left hdsoc ocv_slope_nonneg)
  all_goals
    rw [Balancing.step]
    cases Balancing.default.active x
  · exact h.current
  · exact h.current
  · exact h.leak
  · exact h.leak

theorem narrow_cell (ems : EmsStrategy ℝ) (s : SiteState ℝ) (inputs : Inputs ℝ) (perRackW : ℝ)
    (hw : Windowed x) (h : Narrow d x) :
    Narrow (d + 0.001) (cellTick ((site ems).ctx s inputs) perRackW x).1 := by
  have hb := narrow_balance h hw.ok
  have hwb := windowed_balance hw
  rw [cellTick_site, bmsTick_site, Ecm1Rc.stepRack]
  split
  · exact ⟨hb.charges, hb.reading, (abs_current_le hwb _).trans_eq gw01Rack_maxCurrent, hb.leak⟩
  · refine ⟨hb.charges, hb.reading, ?_, hb.leak⟩
    norm_num [Ecm1Rc.restRack]

end

theorem narrow_tick {ems : EmsStrategy ℝ} {s : SiteState ℝ} {d : ℝ} (hk : Kept s)
    (h : ForallRacks (Narrow d) s) (inputs : Inputs ℝ) :
    ForallRacks (Narrow (d + 0.001)) ((site ems).siteTick s inputs) := by
  refine forallRacks_next (P := fun x => Windowed x ∧ Narrow d x) (Q := Narrow (d + 0.001))
    ?_ ?_ ?_ ?_
  · exact fun perRackW x hx => narrow_cell ems s inputs perRackW hx.1 hx.2
  · exact lumpedThermal_keeps LumpedThermal.default
      fun _ _ h => ⟨h.charges, h.reading, h.current, h.leak⟩
  · exact fun _ h => ⟨h.charges, h.reading, h.current, h.leak⟩
  · exact fun b hb c hc x hx => ⟨hk.racks b hb c hc x hx, h b hb c hc x hx⟩

theorem narrow_rack_new (g : Streams) :
    Narrow 0.006 (RackState.new (PlantConfig.gw01 : PlantConfig ℝ) g ()).2 := by
  have hspread := (uniform_mem g.spreadRng (0.002 : ℝ) 0.006 (by norm_num)).2
  refine ⟨hspread, ?_, ?_, rfl⟩
  · change (0 : ℝ) ≤ _
    norm_num [OCV_SLOPE]
  · change |(0 : ℝ)| ≤ 314
    norm_num

theorem narrow_new (seed : UInt64) (t : Int) :
    ForallRacks (Narrow 0.006) (SiteState.new (PlantConfig.gw01 : PlantConfig ℝ) seed t) :=
  forall_new_blocks _ seed t (forall_new_containers _ (forall_new_racks _ narrow_rack_new))

/-- An overcast second at the nominal frequency. -/
noncomputable def ambient (ambientC : ℝ) : Inputs ℝ := ⟨⟨ambientC, 0⟩, 50.0⟩

/-- A second of a billion degrees outside, and one of another weather. -/
noncomputable def heatThen (ambientC : ℝ) : List (Move ℝ) :=
  [.step (ambient 1000000000), .step (ambient ambientC)]

theorem leads_heat : Leads 1000000000 20 20 20 20 178000 179000 15 25 := by
  constructor <;> norm_num

theorem leads_hotter : Leads 1000000000 178000 179000 15 25 355000 357000 75 100 := by
  constructor <;> norm_num

theorem leads_cold :
    Leads (-1000000000000) 178000 179000 15 25 (-1000000000) (-100000000) 75 100 := by
  constructor <;> norm_num

theorem climate_step {ems : EmsStrategy ℝ} {sim : Simulation ℝ} (h : Running ems sim)
    {ambientC a A t T a' A' t' T' : ℝ} (hc : ForallContainers (Climate a A t T) sim.state)
    (hlead : Leads ambientC a A t T a' A' t' T') :
    ForallContainers (Climate a' A' t' T') (sim.move (.step (ambient ambientC))).state := by
  rw [h.move_step]
  exact climate_tick hc hlead ems h.kept rfl

theorem narrow_step {ems : EmsStrategy ℝ} {sim : Simulation ℝ} (h : Running ems sim) {d : ℝ}
    (hn : ForallRacks (Narrow d) sim.state) (inputs : Inputs ℝ) :
    ForallRacks (Narrow (d + 0.001)) (sim.move (.step inputs)).state := by
  rw [h.move_step]
  exact narrow_tick h.kept hn inputs

/-- The reference site has a first rack. -/
theorem first_rack {s : SiteState ℝ} (h : Kept s) : ∃ y, s.rack? 0 0 0 = some y :=
  Option.isSome_iff_exists.mp (rack_exists h.shape (by decide) (by decide) (by decide))

/-- A scope the site has is reset. -/
theorem first_reset (models : Models ℝ) (cfg : PlantConfig ℝ) {s : SiteState ℝ} (h : Kept s) :
    ∃ s' still, resetAlarms models cfg s (.rack 0 0 0) = (.ok still, s') := by
  obtain ⟨y, hy⟩ := first_rack h
  have hscope : checkScope s (.rack 0 0 0) = true := by
    rw [checkScope, hy]
    rfl
  rw [resetAlarms, if_pos hscope]
  exact ⟨_, _, rfl⟩

/-- What the bounds on the containers say of a rack. -/
theorem Stands.climate {s : SiteState ℝ} {b c r : Nat} {blk : BlockState ℝ} {con : ContainerState ℝ}
    {x : RackState ℝ} (h : Stands s b c r blk con x) {a A t T : ℝ}
    (hc : ForallContainers (Climate a A t T) s) : Climate a A t T con ∧ x ∈ con.racks :=
  ⟨hc blk (List.mem_of_getElem? h.block) con (List.mem_of_getElem? h.container),
    List.mem_of_getElem? h.rack⟩

theorem overTemp_iff (tempC dvV : ℝ) :
    tripCause RackBit.OVER_TEMP_TRIP tempC dvV = true ↔ 60 ≤ tempC := by
  rw [tripCause, if_pos rfl, decide_eq_true_eq]
  norm_num [RackAlarmThresholds.default]

theorem imbalance_iff (tempC dvV : ℝ) :
    tripCause RackBit.IMBALANCE_TRIP tempC dvV = true ↔ 0.5 ≤ dvV := by
  rw [tripCause, if_neg (by decide), if_pos rfl, decide_eq_true_eq]
  norm_num [RackAlarmThresholds.default]

theorem underTemp_iff (tempC dvV : ℝ) :
    tripCause RackBit.UNDER_TEMP_TRIP tempC dvV = true ↔ tempC ≤ -30 := by
  rw [tripCause, if_neg (by decide), if_neg (by decide), if_pos rfl, decide_eq_true_eq]
  norm_num [RackAlarmThresholds.default]

/-- Two readings past the upper threshold with little spread meet the same causes. -/
theorem cause_hot {bit : Nat} (hbit : bit ∈ rackTrips) {t₀ t d₀ d : ℝ} (ht₀ : 60 ≤ t₀) (ht : 60 ≤ t)
    (hd₀ : d₀ < 0.5) (hd : d < 0.5) : tripCause bit t₀ d₀ = tripCause bit t d := by
  simp only [rackTrips, List.mem_cons, List.not_mem_nil, or_false] at hbit
  rw [Bool.eq_iff_iff]
  rcases hbit with rfl | rfl | rfl
  · rw [overTemp_iff, overTemp_iff]
    exact iff_of_true ht₀ ht
  · rw [imbalance_iff, imbalance_iff]
    exact iff_of_false hd₀.not_ge hd.not_ge
  · rw [underTemp_iff, underTemp_iff]
    exact iff_of_false (by linarith) (by linarith)

/-- A tick that leaves a rack too hot latches it. -/
theorem hot_latched {ems : EmsStrategy ℝ} {s : SiteState ℝ} {inputs : Inputs ℝ} {b c r : Nat}
    {y : RackState ℝ} (hy : ((site ems).siteTick s inputs).rack? b c r = some y)
    (hhot : 60 ≤ y.cellTempC) :
    hasBit (wordOf ((site ems).siteTick s inputs) (.rack b c r)) RackBit.OVER_TEMP_TRIP = true := by
  obtain ⟨y₀, -, hword⟩ := rack_tick (site ems) s inputs hy
  rw [wordOf, hy, Option.map_some, Option.getD_some, hword]
  refine (rackAlarms_trip { y with alarmBits := y₀.alarmBits } _ (by decide) (by decide)).trans ?_
  rw [Bool.or_eq_true]
  exact .inr ((overTemp_iff _ _).mpr hhot)

/-- A run after which the first rack is latched, its cells between 75 and 100 degrees. -/
structure Heated (a A : ℝ) (sim : Simulation ℝ) : Prop where
  running : Running ⟨fun _ _ => 0⟩ sim
  climate : ForallContainers (Climate a A 75 100) sim.state
  narrow : ForallRacks (Narrow 0.008) sim.state
  latched : hasBit (wordOf sim.state (.rack 0 0 0)) RackBit.OVER_TEMP_TRIP = true

/-- The air goes up in the first second, and the cells after it in the second. -/
theorem heated {sim : Simulation ℝ} (h0 : Running ⟨fun _ _ => 0⟩ sim)
    (hc : ForallContainers (Climate 20 20 20 20) sim.state)
    (hn : ForallRacks (Narrow 0.006) sim.state) {w a A : ℝ}
    (hlead : Leads w 178000 179000 15 25 a A 75 100) : Heated a A (sim.run (heatThen w)) := by
  rw [heatThen, Simulation.run_cons, Simulation.run_cons, Simulation.run_nil]
  have h1 := running_move _ (.step (ambient 1000000000)) h0
  have h2 := running_move _ (.step (ambient w)) h1
  have hc := climate_step h1 (climate_step h0 hc leads_heat) hlead
  have hn := narrow_step h1 (narrow_step h0 hn (ambient 1000000000)) (ambient w)
  have hstate := h1.move_step (ambient w)
  refine ⟨h2, hc, ?_, ?_⟩
  · norm_num at hn ⊢
    exact hn
  · obtain ⟨y, hy⟩ := first_rack h2.kept
    obtain ⟨blk, con, hstands⟩ := exists_stands hy
    obtain ⟨hcon, hmem⟩ := hstands.climate hc
    rw [hstate] at hy ⊢
    exact hot_latched hy (by linarith [hcon.cell_ge y hmem])

section

variable {a A : ℝ} {sim : Simulation ℝ} (hsim : Heated a A sim) {s' : SiteState ℝ}
  {still : List (AlarmNode × Nat)}
  (h : resetAlarms sim.models sim.cfg sim.state (.rack 0 0 0) = (.ok still, s'))
include hsim h

/-- The reset leaves the containers as they were. -/
theorem heated_reset : Kept s' ∧ ForallContainers (Climate a A 75 100) s' := by
  have hwarm := kept_command (climate_kept a A 75 100) sim (.resetAlarms (.rack 0 0 0)) hsim.climate
  rw [state_reset h] at hwarm
  exact ⟨(reset_step hsim.running h (ambient 12)).1, hwarm⟩

/-- The air takes the heat out of the cells: the latch is bound to cross. -/
theorem heated_crosses (hA : A ≤ -100000000) : SomeCrosses (.rack 0 0 0) sim.state s' := by
  obtain ⟨hkept, hwarm⟩ := heated_reset hsim h
  obtain ⟨x, hx⟩ := first_rack hkept
  obtain ⟨blk, con, hx⟩ := exists_stands hx
  obtain ⟨hcon, hmem⟩ := hx.climate hwarm
  refine ⟨0, 0, 0, blk, con, x, ⟨rfl, rfl, rfl⟩, hx, RackBit.OVER_TEMP_TRIP, List.mem_cons_self,
    hsim.latched, ?_⟩
  have hnow := (overTemp_iff x.cellTempC x.cellDvV).mpr (by linarith [hcon.cell_ge x hmem])
  have hair := (toAirW_mem hcon hmem).1
  have hcell := hcon.cell_le x hmem
  constructor
  · rw [hnow, Ne, overTemp_iff, coolestC]
    norm_num
    linarith
  · rw [hnow, Ne, overTemp_iff, hottestC]
    norm_num
    linarith

/-- The air heats the cells on: every trip is clear of its threshold. -/
theorem heated_clear (ha : 1000 ≤ a) : AllClear (.rack 0 0 0) sim.state s' := by
  obtain ⟨hkept, hwarm⟩ := heated_reset hsim h
  intro b c r blk con x hcov hx bit hbit _
  obtain ⟨hcon, hmem⟩ := hx.climate hwarm
  have hair := (toAirW_mem hcon hmem).2
  have hcell := hcon.cell_ge x hmem
  obtain ⟨x₀, hx₀, rfl⟩ :=
    Option.map_eq_some_iff.mp (((reset_answers h).done b c r hcov).symm.trans hx.rack?)
  obtain ⟨_, _, hx₀⟩ := exists_stands hx₀
  have hn : Narrow 0.008 x₀.unlatch := by
    have hn := hsim.narrow _ (List.mem_of_getElem? hx₀.block) _ (List.mem_of_getElem? hx₀.container)
      _ (List.mem_of_getElem? hx₀.rack)
    exact ⟨hn.charges, hn.reading, hn.current, hn.leak⟩
  have hok := (hkept.racks blk (List.mem_of_getElem? hx.block) con
    (List.mem_of_getElem? hx.container) _ hmem).ok
  set x := x₀.unlatch
  have hcool : 60 ≤ coolestC con.airTempC x := by
    rw [coolestC]
    norm_num
    linarith
  have hhot : 60 ≤ hottestC con.airTempC x := by
    rw [hottestC]
    norm_num
    linarith
  have hwide := hn.widestV_le hok
  have hnarrow := spreadAhead_mem ⟨fun _ _ => 0⟩ (s := s') (ambient 12) hok
  have hread := hn.reading
  rw [OCV_SLOPE] at hwide hread
  norm_num at hwide hread
  have hnow : 60 ≤ x.cellTempC := by linarith
  have hread : x.cellDvV < 0.5 := by linarith
  constructor
  · exact cause_hot hbit hcool hnow (by linarith [hnarrow.1, hnarrow.2]) hread
  · exact cause_hot hbit hhot hnow (by linarith) hread

theorem heated_answered : (.rack 0 0 0, RackBit.OVER_TEMP_TRIP) ∈ still := by
  obtain ⟨hkept, hwarm⟩ := heated_reset hsim h
  obtain ⟨x, hx⟩ := first_rack hkept
  obtain ⟨blk, con, hx⟩ := exists_stands hx
  obtain ⟨hcon, hmem⟩ := hx.climate hwarm
  have hpl : (site ⟨fun _ _ => 0⟩).models = gw01Models (site ⟨fun _ _ => 0⟩).cfg ⟨fun _ _ => 0⟩ := rfl
  have hanswer : resetAlarms (site ⟨fun _ _ => 0⟩).models (site ⟨fun _ _ => 0⟩).cfg sim.state
      (.rack 0 0 0) = (.ok still, s') := by
    rw [← hsim.running.plant]
    exact h
  exact (answer_rack hpl hanswer (ambient 12) ⟨rfl, rfl, rfl⟩ hx (by decide) (by decide)
    hsim.latched).1.mpr ((overTemp_iff _ _).mpr (by linarith [hcon.cell_ge x hmem]))

end

/-- The first rack, heated past its threshold and heated on, answers with its trip; and in a
mild second it comes back. -/
theorem reset_answer_comes_back_hot :
    let sim : Simulation ℝ :=
      (Simulation.new PlantConfig.gw01 (gw01Models PlantConfig.gw01 ⟨fun _ _ => 0⟩) 42 0).run
        (heatThen 1000000000)
    ∃ s' still, resetAlarms sim.models sim.cfg sim.state (.rack 0 0 0) = (.ok still, s') ∧
      (.rack 0 0 0, RackBit.OVER_TEMP_TRIP) ∈ still ∧
      ComesBack sim.state s'
        ((sim.command (.resetAlarms (.rack 0 0 0))).step (ambient 12)).state still := by
  intro sim
  have hsim : Heated 355000 357000 sim :=
    heated (running_new _ 42 0) (climate_new 42 0) (narrow_new 42 0) leads_hotter
  obtain ⟨s', still, h⟩ := first_reset sim.models sim.cfg hsim.running.kept
  refine ⟨s', still, h, heated_answered hsim h, ?_⟩
  exact (reset_answer_comes_back ⟨fun _ _ => 0⟩ 42 0 (heatThen 1000000000) (.rack 0 0 0)
    (ambient 12) h).1 (heated_clear hsim h (by norm_num))

/-- The site is far past the threshold when the reset answers, and far below it
a mild tick later, the air having turned in between. -/
theorem reset_answer_stays_away :
    let sim : Simulation ℝ :=
      (Simulation.new PlantConfig.gw01 (gw01Models PlantConfig.gw01 ⟨fun _ _ => 0⟩) 42 0).run
        (heatThen (-1000000000000))
    ∃ s' still, resetAlarms sim.models sim.cfg sim.state (.rack 0 0 0) = (.ok still, s') ∧
      ¬ ComesBack sim.state s'
        ((sim.command (.resetAlarms (.rack 0 0 0))).step (ambient 12)).state still := by
  intro sim
  have hsim : Heated (-1000000000) (-100000000) sim :=
    heated (running_new _ 42 0) (climate_new 42 0) (narrow_new 42 0) leads_cold
  obtain ⟨s', still, h⟩ := first_reset sim.models sim.cfg hsim.running.kept
  obtain ⟨hkept, hiff⟩ := reset_step hsim.running h (ambient 12)
  refine ⟨s', still, h, ?_⟩
  rw [hiff]
  exact not_noneCrosses hkept (ambient 12) (heated_crosses hsim h (by norm_num))

end BessReset
