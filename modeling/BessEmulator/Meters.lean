import BessEmulator.Ledger

/-!
# The two meters

The substation books what crosses the point of interconnection, and the
fiscal meter books the same reading again by settlement period. Each splits
the sign for itself; one stands still under an open breaker, the other reads
a zero there.
-/
namespace BessMeters

open Bess BessTrip BessLedger

section

variable (sub : SubstationState ℝ) (m : RevenueMeter ℝ) (wh : ℝ)

theorem meter_import : (SimpleGrid.meter sub wh).importWh = sub.importWh + max (-wh) 0 := by
  rw [SimpleGrid.meter]
  split
  · rename_i h
    rw [max_eq_right (neg_nonpos.mpr h), add_zero]
  · rename_i h
    rw [max_eq_left (by linarith), ← sub_eq_add_neg]

theorem meter_export : (SimpleGrid.meter sub wh).exportWh = sub.exportWh + max wh 0 := by
  rw [SimpleGrid.meter]
  split
  · rename_i h
    rw [max_eq_left h]
  · rename_i h
    rw [max_eq_right (by linarith), add_zero]

@[simp] theorem meter_revenue : (SimpleGrid.meter sub wh).revenue = sub.revenue := by
  rw [SimpleGrid.meter]
  split <;> rfl

@[simp] theorem meter_poi : (SimpleGrid.meter sub wh).poiActivePowerW = sub.poiActivePowerW := by
  rw [SimpleGrid.meter]
  split <;> rfl

/-- What booking leaves: the totals and the open period move together. -/
structure Booked (m m' : RevenueMeter ℝ) (wh : ℝ) : Prop where
  importWh : m'.importWh = m.importWh + max (-wh) 0
  exportWh : m'.exportWh = m.exportWh + max wh 0
  periodImportWh : m'.periodImportWh = m.periodImportWh + max (-wh) 0
  periodExportWh : m'.periodExportWh = m.periodExportWh + max wh 0
  periodsClosed : m'.periodsClosed = m.periodsClosed
  periodStartS : m'.periodStartS = m.periodStartS

theorem booked : Booked m (m.book wh) wh := by
  rw [RevenueMeter.book]
  split
  · rename_i h
    have hd : max (-wh) 0 = 0 := max_eq_right (neg_nonpos.mpr h)
    have hf : max wh 0 = wh := max_eq_left h
    constructor <;> simp [hd, hf]
  · rename_i h
    have hd : max (-wh) 0 = -wh := max_eq_left (by linarith)
    have hf : max wh 0 = 0 := max_eq_right (by linarith)
    constructor <;> simp [hd, hf, sub_eq_add_neg]

end

/-- The substation model books its own reading; under an open breaker that is zero. -/
theorem simpleGrid_meters (g : SimpleGrid ℝ) (sub : SubstationState ℝ) (p aux f dtS : ℝ) :
    (g.step sub p aux f dtS).importWh =
        sub.importWh + max (-((g.step sub p aux f dtS).poiActivePowerW * dtS / 3600)) 0 ∧
      (g.step sub p aux f dtS).exportWh =
        sub.exportWh + max ((g.step sub p aux f dtS).poiActivePowerW * dtS / 3600) 0 ∧
      (g.step sub p aux f dtS).revenue = sub.revenue := by
  cases hb : sub.hvBreaker with
  | opened =>
    rw [simpleGrid_open p aux f dtS hb]
    simp [SimpleGrid.stepOpen]
  | closed =>
    rw [SimpleGrid.step]
    simp only [hb, SimpleGrid.stepClosed, meter_poi, meter_revenue]
    exact ⟨meter_import _ _, meter_export _ _, trivial⟩

/-- The quarter-hours after the start, up to and including now. -/
noncomputable def quarters (start now : Int) : Finset Int :=
  (Finset.Ioc start now).filter fun i => i % RevenueMeter.PERIOD_S = 0

theorem quarters_start (start : Int) : quarters start start = ∅ := by
  rw [quarters, Finset.Ioc_self, Finset.filter_empty]

theorem quarters_succ {start now : Int} (h : start ≤ now) :
    quarters start (now + 1) =
      if (now + 1) % RevenueMeter.PERIOD_S = 0 then insert (now + 1) (quarters start now)
      else quarters start now := by
  have hgrow : Finset.Ioc start (now + 1) = insert (now + 1) (Finset.Ioc start now) := by
    ext i
    simp only [Finset.mem_Ioc, Finset.mem_insert]
    omega
  rw [quarters, hgrow, Finset.filter_insert]
  rfl

/-- The tick after now has not been counted yet. -/
theorem succ_notMem_quarters (start now : Int) : now + 1 ∉ quarters start now := by
  intro h
  have := (Finset.mem_Ioc.mp (Finset.mem_filter.mp h).1).2
  omega

/-- Where the open period began: the last quarter-hour passed, or the start of the run. -/
def OpenSince (start now at_ : Int) : Prop :=
  quarters start now = ∅ ∧ at_ = start ∨
    at_ ∈ quarters start now ∧ ∀ i ∈ quarters start now, i ≤ at_

/-- Whether a move closed a period. -/
def closes {F : Type} [Scalar F] (sim : Simulation F) (m : Move F) : Bool :=
  decide ((sim.move m).state.substation.revenue.periodsClosed ≠
    sim.state.substation.revenue.periodsClosed)

/-- The last import and export of every period closed along a run, oldest first. -/
def closedPeriods {F : Type} [Scalar F] : Simulation F → List (Move F) → List (F × F)
  | _, [] => []
  | sim, m :: ms =>
    (if closes sim m then
      [((sim.move m).state.substation.revenue.lastImportWh,
        (sim.move m).state.substation.revenue.lastExportWh)]
    else []) ++ closedPeriods (sim.move m) ms

/-- The fiscal meter, `closed` being the periods it has closed since `start`. -/
structure FiscalMeter (start : Int) (closed : List (ℝ × ℝ)) (s : SiteState ℝ) : Prop where
  began : start ≤ s.unixTimeS
  imported : s.substation.revenue.importWh = s.substation.importWh
  exported : s.substation.revenue.exportWh = s.substation.exportWh
  importTotal :
    (closed.map Prod.fst).sum + s.substation.revenue.periodImportWh = s.substation.revenue.importWh
  exportTotal :
    (closed.map Prod.snd).sum + s.substation.revenue.periodExportWh = s.substation.revenue.exportWh
  closings : closed.length = s.substation.revenue.periodsClosed
  periodsClosed : s.substation.revenue.periodsClosed = (quarters start s.unixTimeS).card
  periodStart : OpenSince start s.unixTimeS s.substation.revenue.periodStartS

/-- What the meters read, and the clock they read by. -/
def metered {F : Type} (s : SiteState F) : F × F × RevenueMeter F × Int :=
  (s.substation.importWh, s.substation.exportWh, s.substation.revenue, s.unixTimeS)

theorem metered_unwritten : Unwritten (metered : SiteState ℝ → ℝ × ℝ × RevenueMeter ℝ × Int) :=
  fun _ _ _ _ _ _ => rfl

/-- No command moves a meter. -/
theorem metered_command (sim : Simulation ℝ) (c : Command ℝ) :
    metered (sim.command c).state = metered sim.state :=
  kept_command (metered_unwritten.kept (metered sim.state)) sim c rfl

theorem fiscalMeter_metered {start : Int} {closed : List (ℝ × ℝ)} {s s' : SiteState ℝ}
    (h : FiscalMeter start closed s) (he : metered s' = metered s) :
    FiscalMeter start closed s' := by
  obtain ⟨hi, he, hr, ht⟩ :
      s'.substation.importWh = s.substation.importWh ∧
        s'.substation.exportWh = s.substation.exportWh ∧
        s'.substation.revenue = s.substation.revenue ∧ s'.unixTimeS = s.unixTimeS := by
    simpa only [metered, Prod.mk.injEq] using he
  constructor
  · rw [ht]
    exact h.began
  · rw [hr, hi, h.imported]
  · rw [hr, he, h.exported]
  · rw [hr, h.importTotal]
  · rw [hr, h.exportTotal]
  · rw [hr, h.closings]
  · rw [hr, ht, h.periodsClosed]
  · rw [hr, ht]
    exact h.periodStart

/-- One tick's readings: the totals by sign, the open period before it may close. -/
structure MeterTick (s s' : SiteState ℝ) (wh : ℝ) : Prop where
  importWh : s'.substation.importWh = s.substation.importWh + max (-wh) 0
  exportWh : s'.substation.exportWh = s.substation.exportWh + max wh 0
  now : s'.unixTimeS = s.unixTimeS + 1
  revenue : s'.substation.revenue =
    if (s.unixTimeS + 1) % RevenueMeter.PERIOD_S = 0 then
      let m := s.substation.revenue.book wh
      { m with
        lastImportWh := m.periodImportWh
        lastExportWh := m.periodExportWh
        periodImportWh := 0
        periodExportWh := 0
        periodsClosed := m.periodsClosed + 1
        periodStartS := s.unixTimeS + 1 }
    else s.substation.revenue.book wh

variable {cfg : PlantConfig ℝ} {ems : EmsStrategy ℝ}

theorem meterTick (s : SiteState ℝ) (inputs : Inputs ℝ) :
    MeterTick s ((gw01Plant cfg ems).siteTick s inputs)
      (((gw01Plant cfg ems).siteTick s inputs).substation.poiActivePowerW * tickS / 3600) := by
  obtain ⟨himp, hexp, hrev⟩ := simpleGrid_meters (SimpleGrid.new cfg.grid.siteRatedW) s.substation
    ((gw01Plant cfg ems).siteAcW s inputs) ((gw01Plant cfg ems).auxPower s inputs).totalW
    inputs.gridFrequencyHz tickS
  have hsub := siteTick_substation (gw01Plant cfg ems) s inputs
  constructor
  · rw [hsub]
    exact himp
  · rw [hsub]
    exact hexp
  · change s.siteMeta.startUnixS + ((s.tick + 1 : Nat) : Int) = _
    rw [SiteState.unixTimeS]
    push_cast
    ring
  · rw [hsub]
    have hgrid : ((gw01Plant cfg ems).gridTick s inputs).revenue = s.substation.revenue := hrev
    simp only [hgrid, RevenueMeter.observe]
    rfl

/-- What a tick adds to the history of closings. -/
noncomputable def tickClosed (s s' : SiteState ℝ) : List (ℝ × ℝ) :=
  if (s.unixTimeS + 1) % RevenueMeter.PERIOD_S = 0 then
    [(s'.substation.revenue.lastImportWh, s'.substation.revenue.lastExportWh)]
  else []

theorem openSince_succ {start now at_ : Int} (hb : start ≤ now) (h : OpenSince start now at_) :
    OpenSince start (now + 1)
      (if (now + 1) % RevenueMeter.PERIOD_S = 0 then now + 1 else at_) := by
  rw [OpenSince, quarters_succ hb]
  split
  · refine .inr ⟨Finset.mem_insert_self _ _, fun i hi => ?_⟩
    rcases Finset.mem_insert.mp hi with rfl | hi
    · exact le_refl _
    · have := (Finset.mem_Ioc.mp (Finset.mem_filter.mp hi).1).2
      omega
  · exact h

/-- A tick on a quarter-hour moves the open period to the last one and begins anew. -/
theorem fiscalMeter_tick {start : Int} {closed : List (ℝ × ℝ)} {s s' : SiteState ℝ} {wh : ℝ}
    (h : FiscalMeter start closed s) (ht : MeterTick s s' wh) :
    FiscalMeter start (closed ++ tickClosed s s') s' := by
  have hbook := booked s.substation.revenue wh
  have hsucc := quarters_succ h.began
  have hopen := openSince_succ h.began h.periodStart
  rw [← ht.now] at hsucc hopen
  have hnew := succ_notMem_quarters start s.unixTimeS
  have hbegan : start ≤ s'.unixTimeS := by
    rw [ht.now]
    linarith [h.began]
  rw [tickClosed]
  rw [← ht.now] at hnew ⊢
  have hrev := ht.revenue
  rw [← ht.now] at hrev
  by_cases hq : s'.unixTimeS % RevenueMeter.PERIOD_S = 0
  · rw [if_pos hq] at hrev hsucc hopen ⊢
    simp only at hrev
    refine ⟨hbegan, ?_, ?_, ?_, ?_, ?_, ?_, ?_⟩
    · rw [hrev, hbook.importWh, h.imported, ht.importWh]
    · rw [hrev, hbook.exportWh, h.exported, ht.exportWh]
    · simp only [hrev, hbook.importWh, hbook.periodImportWh, List.map_append, List.sum_append,
        List.map_cons, List.map_nil, List.sum_cons, List.sum_nil, ← h.importTotal]
      ring
    · simp only [hrev, hbook.exportWh, hbook.periodExportWh, List.map_append, List.sum_append,
        List.map_cons, List.map_nil, List.sum_cons, List.sum_nil, ← h.exportTotal]
      ring
    · simp only [hrev, hbook.periodsClosed, List.length_append, List.length_singleton, h.closings]
    · simp only [hrev, hbook.periodsClosed, hsucc, Finset.card_insert_of_notMem hnew,
        h.periodsClosed]
    · simp only [hrev]
      exact hopen
  · rw [if_neg hq] at hrev hsucc hopen ⊢
    rw [List.append_nil]
    refine ⟨hbegan, ?_, ?_, ?_, ?_, ?_, ?_, ?_⟩
    · rw [hrev, hbook.importWh, h.imported, ht.importWh]
    · rw [hrev, hbook.exportWh, h.exported, ht.exportWh]
    · rw [hrev, hbook.importWh, hbook.periodImportWh, ← h.importTotal, add_assoc]
    · rw [hrev, hbook.exportWh, hbook.periodExportWh, ← h.exportTotal, add_assoc]
    · rw [hrev, hbook.periodsClosed, h.closings]
    · rw [hrev, hbook.periodsClosed, hsucc, h.periodsClosed]
    · rw [hrev, hbook.periodStartS]
      exact hopen

theorem closes_command (sim : Simulation ℝ) (c : Command ℝ) : closes sim (.command c) = false := by
  have hm := metered_command sim c
  simp only [metered, Prod.mk.injEq] at hm
  rw [closes]
  simp [Simulation.move, hm.2.2.1]

/-- The count of closed periods moves exactly on a quarter-hour. -/
theorem closes_tick {sim : Simulation ℝ} {inputs : Inputs ℝ} {wh : ℝ}
    (ht : MeterTick sim.state (sim.step inputs).state wh) :
    (if closes sim (.step inputs) then
      [((sim.move (.step inputs)).state.substation.revenue.lastImportWh,
        (sim.move (.step inputs)).state.substation.revenue.lastExportWh)]
    else []) = tickClosed sim.state (sim.step inputs).state := by
  have hrev := ht.revenue
  have hbook := booked sim.state.substation.revenue wh
  have hmove : (sim.move (.step inputs)).state = (sim.step inputs).state := rfl
  rw [tickClosed, closes, hmove]
  by_cases hq : (sim.state.unixTimeS + 1) % RevenueMeter.PERIOD_S = 0
  · rw [if_pos hq] at hrev ⊢
    have hne : (sim.step inputs).state.substation.revenue.periodsClosed ≠
        sim.state.substation.revenue.periodsClosed := by
      simp only [hrev, hbook.periodsClosed]
      omega
    rw [if_pos (decide_eq_true hne)]
  · rw [if_neg hq] at hrev ⊢
    have heq : (sim.step inputs).state.substation.revenue.periodsClosed =
        sim.state.substation.revenue.periodsClosed := by
      rw [hrev, hbook.periodsClosed]
    simp [heq]

theorem step_meterTick {sim : Simulation ℝ} (hs : Sound sim) (hpl : sim.plant = gw01Plant cfg ems)
    (inputs : Inputs ℝ) :
    MeterTick sim.state (sim.step inputs).state
      ((sim.step inputs).state.substation.poiActivePowerW * tickS / 3600) := by
  rw [step_state hs, hpl]
  exact meterTick sim.state inputs

/-- The history carries on along any run. -/
theorem fiscalMeter_run {start : Int} {closed : List (ℝ × ℝ)} {sim : Simulation ℝ} (hs : Sound sim)
    (hpl : sim.plant = gw01Plant cfg ems) (moves : List (Move ℝ))
    (h : FiscalMeter start closed sim.state) :
    FiscalMeter start (closed ++ closedPeriods sim moves) (sim.run moves).state := by
  induction moves generalizing sim closed with
  | nil =>
    rw [closedPeriods, List.append_nil]
    exact h
  | cons m ms ih =>
    rw [closedPeriods, ← List.append_assoc]
    apply ih (sound_move hs m) ((move_plant hs m).trans hpl)
    cases m with
    | command c =>
      rw [closes_command]
      simp only [Bool.false_eq_true, if_false, List.append_nil]
      exact fiscalMeter_metered h (metered_command sim c)
    | step inputs =>
      have ht := step_meterTick hs hpl inputs
      rw [closes_tick ht]
      exact fiscalMeter_tick h ht

theorem meters_mono {sim : Simulation ℝ} (hs : Sound sim) (hpl : sim.plant = gw01Plant cfg ems)
    (m : Move ℝ) :
    sim.state.substation.importWh ≤ (sim.move m).state.substation.importWh ∧
      sim.state.substation.exportWh ≤ (sim.move m).state.substation.exportWh := by
  cases m with
  | command c =>
    have hm := metered_command sim c
    simp only [metered, Prod.mk.injEq] at hm
    exact ⟨hm.1.ge, hm.2.1.ge⟩
  | step inputs =>
    have ht := step_meterTick hs hpl inputs
    have hmove : (sim.move (.step inputs)).state = (sim.step inputs).state := rfl
    rw [hmove, ht.importWh, ht.exportWh]
    exact ⟨le_add_of_nonneg_right (le_max_right _ _), le_add_of_nonneg_right (le_max_right _ _)⟩

theorem fiscalMeter_new (cfg : PlantConfig ℝ) (models : Models ℝ) (seed : UInt64) (t : Int) :
    FiscalMeter t [] (Simulation.new cfg models seed t).state := by
  have hnow : (Simulation.new cfg models seed t).state.unixTimeS = t := add_zero t
  constructor
  · rw [hnow]
  · rfl
  · rfl
  · exact add_zero _
  · exact add_zero _
  · rfl
  · rw [hnow, quarters_start]
    rfl
  · rw [hnow]
    exact .inl ⟨quarters_start t, rfl⟩

/-- Whatever a run does, the fiscal meter reads what the SCADA meter reads, its
closed periods and the open one add up to the totals, and it closed one period
at every quarter-hour since the start; no move takes either meter back. -/
theorem meters_agree (cfg : PlantConfig ℝ) (ems : EmsStrategy ℝ) (seed : UInt64) (t : Int)
    (moves : List (Move ℝ)) :
    FiscalMeter t (closedPeriods (Simulation.new cfg (gw01Models cfg ems) seed t) moves)
        ((Simulation.new cfg (gw01Models cfg ems) seed t).run moves).state ∧
      ∀ m : Move ℝ,
        ((Simulation.new cfg (gw01Models cfg ems) seed t).run moves).state.substation.importWh ≤
            (((Simulation.new cfg (gw01Models cfg ems) seed t).run moves).move
              m).state.substation.importWh ∧
          ((Simulation.new cfg (gw01Models cfg ems) seed t).run moves).state.substation.exportWh ≤
            (((Simulation.new cfg (gw01Models cfg ems) seed t).run moves).move
              m).state.substation.exportWh := by
  have hnew := sound_new cfg (gw01Models cfg ems) seed t
  have hrun := sound_run hnew moves
  have hpl := run_plant hnew moves
  refine ⟨?_, fun m => meters_mono hrun hpl m⟩
  have hplant : (Simulation.new cfg (gw01Models cfg ems) seed t).plant = gw01Plant cfg ems := rfl
  have h := fiscalMeter_run hnew hplant moves (fiscalMeter_new cfg (gw01Models cfg ems) seed t)
  rw [List.nil_append] at h
  exact h

end BessMeters
