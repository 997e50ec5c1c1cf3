import BessEmulator.Filing
import BessEmulator.Losses
import BessEmulator.StudySeries

/-!
# The months of a year

Every tick of a pass is in one month's bucket. What the buckets close adds up
to the meters' change since the first tick's reading: the first bucket opens on
a reading taken once that tick is booked.
-/
namespace BessMonths

open Bess Filing

/-- The meters the collector reads. -/
inductive Meter where
  | imported | exported | aux | hvac | stationService | stored
  deriving DecidableEq, Repr

def Meter.of (meters : Meters ℝ) : Meter → ℝ
  | .imported => meters.importWh
  | .exported => meters.exportWh
  | .aux => meters.auxWh
  | .hvac => meters.hvacWh
  | .stationService => meters.stationServiceWh
  | .stored => meters.storedWh

theorem of_difference (m : Meter) (now then' : Meters ℝ) :
    m.of (difference now then') = m.of now - m.of then' := by
  cases m <;> rfl

/-- A bucket before it is closed. -/
noncomputable def opened (acc : MonthAccumulator ℝ) : MonthAccumulator ℝ := { acc with closed := Meters.zero }

/-- One container of a tick. -/
noncomputable def countContainer (acc : MonthAccumulator ℝ) (c : ContainerState ℝ) : MonthAccumulator ℝ :=
  match c.hvac.mode with
  | .cool1 | .cool2 => { acc with coolingTicks := acc.coolingTicks + 1 }
  | .heat => { acc with heatingTicks := acc.heatingTicks + 1 }
  | .off => acc

theorem count_frame (acc : MonthAccumulator ℝ) (state : SiteState ℝ) :
    (acc.count state).month = acc.month ∧ (acc.count state).closed = acc.closed ∧
      (acc.count state).ticks = acc.ticks + 1 := by
  have hfold : ∀ (cs : List (ContainerState ℝ)) (a : MonthAccumulator ℝ),
      (cs.foldl countContainer a).month = a.month ∧ (cs.foldl countContainer a).closed = a.closed ∧
        (cs.foldl countContainer a).ticks = a.ticks := by
    intro cs
    induction cs with
    | nil => exact fun a => ⟨rfl, rfl, rfl⟩
    | cons c cs ih =>
      intro a
      obtain ⟨hmonth, hclosed, hticks⟩ := ih (countContainer a c)
      rw [List.foldl_cons, hmonth, hclosed, hticks, countContainer]
      cases c.hvac.mode <;> exact ⟨rfl, rfl, rfl⟩
  exact hfold _ _

/-- One tick of the plant. -/
noncomputable def advance (ref : Reference ℝ) (sim : Simulation ℝ) : Simulation ℝ :=
  sim.step (ref.inputsAt sim.state.unixTimeS)

/-- The plant after each of the first `n` ticks. -/
noncomputable def ticks (ref : Reference ℝ) (sim : Simulation ℝ) (n : Nat) : List (Simulation ℝ) :=
  (List.range n).map fun k => (advance ref)^[k + 1] sim

/-- The month a tick is booked in. -/
def monthOf (sim : Simulation ℝ) : Nat := monthIndex sim.state.unixTimeS

variable (ref : Reference ℝ) (sim : Simulation ℝ) (c : Collector ℝ)

theorem ticks_succ (n : Nat) : ticks ref sim (n + 1) = ticks ref sim n ++ [(advance ref)^[n + 1] sim] := by
  rw [ticks, ticks, List.range_succ, List.map_append]
  rfl

theorem advance_time (n : Nat) : ((advance ref)^[n] sim).state.unixTimeS = sim.state.unixTimeS + n := by
  induction n with
  | zero => simp
  | succ n ih =>
    rw [Function.iterate_succ_apply']
    have hstep : (advance ref ((advance ref)^[n] sim)).state.unixTimeS =
        sim.state.unixTimeS + n + 1 := by
      rw [← ih, SiteState.unixTimeS, SiteState.unixTimeS, add_assoc]
      rfl
    rw [hstep]
    push_cast
    ring

theorem pass_plant (n : Nat) : (passTicks ref n (sim, c)).1 = (advance ref)^[n] sim := by
  induction n with
  | zero => rfl
  | succ n ih =>
    rw [passTicks, Function.iterate_succ_apply', Function.iterate_succ_apply', ← ih]
    rfl

theorem pass_succ (n : Nat) : (passTicks ref (n + 1) (sim, c)).2 =
    (passTicks ref n (sim, c)).2.observe ((advance ref)^[n + 1] sim)
      ((advance ref)^[n + 1] sim).state.unixTimeS := by
  have hnext : (advance ref)^[n + 1] sim = advance ref (passTicks ref n (sim, c)).1 := by
    rw [pass_plant, Function.iterate_succ_apply']
  rw [passTicks, Function.iterate_succ_apply', hnext]
  rfl

/-- A bucket as its own ticks fill it. -/
noncomputable def tally (g : Nat × List (Simulation ℝ)) : MonthAccumulator ℝ :=
  g.2.foldl (fun acc s => acc.count s.state) (.fresh g.1)

theorem tally_concat (k : Nat) (l : List (Simulation ℝ)) (s : Simulation ℝ) :
    tally (k, l ++ [s]) = (tally (k, l)).count s.state := by
  rw [tally, tally, List.foldl_append]
  rfl

theorem tally_frame (g : Nat × List (Simulation ℝ)) :
    (tally g).month = g.1 ∧ (tally g).closed = Meters.zero ∧ (tally g).ticks = (g.2.length : ℝ) := by
  obtain ⟨k, l⟩ := g
  induction l using List.reverseRecOn with
  | nil => exact ⟨rfl, rfl, Nat.cast_zero.symm⟩
  | append_singleton l s ih =>
    obtain ⟨hmonth, hclosed, hticks⟩ := count_frame (tally (k, l)) s.state
    obtain ⟨ihmonth, ihclosed, ihticks⟩ := ih
    rw [tally_concat, hmonth, hclosed, hticks, ihmonth, ihclosed, ihticks]
    exact ⟨rfl, rfl, by simp⟩

theorem opened_tally (g : Nat × List (Simulation ℝ)) : opened (tally g) = tally g := by
  have hclosed := (tally_frame g).2.1
  rw [opened, ← hclosed]

/-- The collector's books over the ticks `l`: a bucket for each stretch of one
month, the last of them open, the others closed against the next one's opening. -/
structure Books (first : Meters ℝ) (l : List (Simulation ℝ)) (c : Collector ℝ)
    (ms : List (MonthAccumulator ℝ)) (groups : List (Nat × List (Simulation ℝ)))
    (g : Nat × List (Simulation ℝ)) : Prop where
  months : c.months = ms ++ [tally g]
  filed : Filed monthOf (groups ++ [g]) l
  tallied : ms.map opened = groups.map tally
  banked : ∀ m : Meter, (ms.map fun acc => m.of acc.closed).sum = m.of c.openedAt - m.of first

theorem observe_books (s : Simulation ℝ) (unixS : Int) :
    (c.observe s unixS).months =
        (c.turn s (monthIndex unixS)).months.modifyLast (fun acc => acc.count s.state) ∧
      (c.observe s unixS).openedAt = (c.turn s (monthIndex unixS)).openedAt := by
  simp only [Collector.observe]
  split <;> exact ⟨rfl, rfl⟩

/-- The first tick opens the first bucket, on what the meters read after it. -/
theorem books_first (hc : c.months = []) (s : Simulation ℝ) :
    Books s.meters [s] (c.observe s s.state.unixTimeS) [] [] (monthOf s, [s]) := by
  obtain ⟨hmonths, hopened⟩ := observe_books c s s.state.unixTimeS
  have hturn : c.turn s (monthIndex s.state.unixTimeS) =
      { c with months := [.fresh (monthOf s)], openedAt := s.meters } := by
    rw [Collector.turn, hc, if_neg (by simp)]
    rfl
  rw [hturn] at hmonths hopened
  constructor
  · exact hmonths
  · exact filed_nil.start (by simp)
  · rfl
  · intro m
    rw [hopened, sub_self]
    rfl

variable {c}

/-- One tick more: it joins the open bucket, or closes it and opens the next. -/
theorem books_step {first : Meters ℝ} {l : List (Simulation ℝ)} {ms : List (MonthAccumulator ℝ)}
    {groups : List (Nat × List (Simulation ℝ))} {g : Nat × List (Simulation ℝ)}
    (h : Books first l c ms groups g) (s : Simulation ℝ) :
    ∃ ms' groups' g', Books first (l ++ [s]) (c.observe s s.state.unixTimeS) ms' groups' g' := by
  obtain ⟨hmonths, hopened⟩ := observe_books c s s.state.unixTimeS
  obtain ⟨k, ticks⟩ := g
  have hlast : c.months.getLast?.map (fun m => m.month) = some k := by
    rw [h.months, List.getLast?_concat, Option.map_some, (tally_frame _).1]
  rw [Collector.turn, hlast] at hmonths hopened
  by_cases hk : monthOf s = k
  · have hsame : some k = some (monthIndex s.state.unixTimeS) := congrArg some hk.symm
    rw [if_pos hsame, h.months, List.modifyLast_concat, ← tally_concat] at hmonths
    rw [if_pos hsame] at hopened
    refine ⟨ms, groups, (k, ticks ++ [s]), hmonths, h.filed.grow hk, h.tallied, ?_⟩
    rw [hopened]
    exact h.banked
  · have hne : ¬some k = some (monthIndex s.state.unixTimeS) := fun h => hk (Option.some.inj h).symm
    rw [if_neg hne] at hmonths hopened
    simp only [h.months, List.modifyLast_concat] at hmonths
    refine ⟨ms ++ [(tally (k, ticks)).close s.meters c.openedAt], groups ++ [(k, ticks)], (monthOf s, [s]),
      hmonths, h.filed.start ?_, ?_, ?_⟩
    · simp only [List.map_append, List.map_cons, List.map_nil, List.getLast?_concat]
      exact hne
    · rw [List.map_append, List.map_append, h.tallied, List.map_singleton, List.map_singleton]
      rw [← opened_tally (k, ticks)]
      rfl
    · intro m
      have hclosed : m.of ((tally (k, ticks)).close s.meters c.openedAt).closed =
          m.of s.meters - m.of c.openedAt := of_difference m _ _
      rw [hopened, List.map_append, List.sum_append, h.banked, List.map_singleton, List.sum_singleton, hclosed]
      ring

/-- The books over a whole pass. -/
theorem books_run (hc : c.months = []) (n : Nat) : ∃ ms groups g,
    Books (advance ref sim).meters (ticks ref sim (n + 1)) (passTicks ref (n + 1) (sim, c)).2 ms groups g := by
  induction n with
  | zero => exact ⟨_, _, _, books_first c hc (advance ref sim)⟩
  | succ n ih =>
    obtain ⟨ms, groups, g, h⟩ := ih
    rw [pass_succ, ticks_succ]
    exact books_step h _

variable {ref sim}

/-- What the closed buckets hold: their own ticks, and together the meters'
change since the first tick's reading. -/
theorem close_books {first : Meters ℝ} {l : List (Simulation ℝ)} {ms : List (MonthAccumulator ℝ)}
    {groups : List (Nat × List (Simulation ℝ))} {g : Nat × List (Simulation ℝ)}
    (h : Books first l c ms groups g) (last : Simulation ℝ) :
    (c.close last).map opened = (groups ++ [g]).map tally ∧
      ∀ m : Meter, ((c.close last).map fun acc => m.of acc.closed).sum = m.of last.meters - m.of first := by
  have hclose : c.close last = ms ++ [(tally g).close last.meters c.openedAt] := by
    rw [Collector.close, h.months, List.modifyLast_concat]
  rw [hclose]
  constructor
  · rw [List.map_append, List.map_append, h.tallied, List.map_singleton, List.map_singleton, ← opened_tally g]
    rfl
  · intro m
    have hclosed : m.of ((tally g).close last.meters c.openedAt).closed =
        m.of last.meters - m.of c.openedAt := of_difference m _ _
    rw [List.map_append, List.sum_append, h.banked, List.map_singleton, List.sum_singleton, hclosed]
    ring

/-- What is closed over a whole pass. -/
theorem closed_sum (ref : Reference ℝ) {p : Simulation ℝ × Collector ℝ} (hc : p.2.months = []) {n : Nat}
    (hn : 0 < n) (m : Meter) :
    (((passTicks ref n p).2.close (passTicks ref n p).1).map fun acc => m.of acc.closed).sum =
      m.of (passTicks ref n p).1.meters - m.of (advance ref p.1).meters := by
  obtain ⟨n, rfl⟩ : ∃ k, n = k + 1 := ⟨n - 1, by omega⟩
  obtain ⟨ms, groups, g, h⟩ := books_run ref p.1 hc n
  exact (close_books h _).2 m

theorem meters_aux (sim : Simulation ℝ) : sim.meters.auxWh = sim.state.energy.auxWh := rfl

/-- The first tick of the reference plant draws house load. -/
theorem first_tick_draws (ems : EmsStrategy ℝ) (seed : UInt64) (startUnixS : Int) (inputs : Inputs ℝ) :
    let sim := Simulation.new PlantConfig.gw01 (gw01Models PlantConfig.gw01 ems) seed startUnixS
    sim.meters.auxWh < (sim.step inputs).meters.auxWh := by
  intro sim
  have hsound : Sound sim := sound_new _ _ _ _
  have hdrawn := BessLosses.auxPower_drawn ems sim.state inputs PlantConfig.gw01
  set power := (gw01Plant PlantConfig.gw01 ems).auxPower sim.state inputs with hpower
  have hcontrols : power.controlsW = 15.0e3 := rfl
  have htotal : 0 < power.totalW := by
    rw [AuxPower.totalW, hcontrols]
    linarith [hdrawn.hvacW, hdrawn.bmsW, hdrawn.pcsStandbyW, hdrawn.lightingAndSafetyW]
  have hload : ((gw01Plant PlantConfig.gw01 ems).gridTick sim.state inputs).auxPowerW = power.totalW :=
    BessLedger.simpleGrid_aux _ _ _ _ _ _
  have hafter : (sim.step inputs).meters.auxWh = sim.meters.auxWh + power.totalW * (tickS / 3600) := by
    have hbooks := (bookBlocks_frame (gw01Plant PlantConfig.gw01 ems) sim.state inputs
      sim.state.blocks.zipIdx sim.state.energy).1
    have hplant : sim.plant = gw01Plant PlantConfig.gw01 ems := rfl
    rw [meters_aux, meters_aux, step_state hsound, hplant, siteTick_energy, ← hload]
    simp only [hbooks]
  rw [hafter, tickS_real]
  linarith

/-- On the reference plant the closed auxiliary months fall short, whatever the pass. -/
theorem closed_aux_lt (ref : Reference ℝ) (ems : EmsStrategy ℝ) (seed : UInt64) (startUnixS : Int)
    {p : Simulation ℝ × Collector ℝ}
    (hp : p.1 = Simulation.new PlantConfig.gw01 (gw01Models PlantConfig.gw01 ems) seed startUnixS)
    (hc : p.2.months = []) {n : Nat} (hn : 0 < n) :
    (((passTicks ref n p).2.close (passTicks ref n p).1).map fun acc => Meter.aux.of acc.closed).sum <
      Meter.aux.of (passTicks ref n p).1.meters - Meter.aux.of p.1.meters := by
  have hdraws := first_tick_draws ems seed startUnixS (ref.inputsAt p.1.state.unixTimeS)
  rw [← hp] at hdraws
  have hdraws : Meter.aux.of p.1.meters < Meter.aux.of (advance ref p.1).meters := hdraws
  rw [closed_sum ref hc hn .aux]
  linarith

/-- The books are what the buckets closed, before the series leaves out the shorter
than a day. Every tick is in one bucket, in order; a meter's closed amounts add up
to its change over the run exactly when the run's first tick leaves the meter where
it was. On the reference plant the first tick always draws house load. -/
theorem monthly_books (ref : Reference ℝ) (sim : Simulation ℝ) (containers : Nat) (window : Int × Int)
    (intervalS : Nat) (label : String) (n : Nat) (hn : 0 < n) :
    let after := passTicks ref n (sim, .new containers window intervalS label)
    let books := after.2.close after.1
    (∃ groups, Filed monthOf groups (ticks ref sim n) ∧
        books.map (fun acc => (acc.month, acc.ticks)) = groups.map fun g => (g.1, (g.2.length : ℝ))) ∧
      (books.map fun acc => acc.ticks).sum = n ∧
      (∀ m : Meter, (books.map fun acc => m.of acc.closed).sum = m.of after.1.meters - m.of sim.meters ↔
        m.of (advance ref sim).meters = m.of sim.meters) ∧
      ∀ ems seed startUnixS,
        sim = Simulation.new PlantConfig.gw01 (gw01Models PlantConfig.gw01 ems) seed startUnixS →
        (books.map fun acc => Meter.aux.of acc.closed).sum <
          Meter.aux.of after.1.meters - Meter.aux.of sim.meters := by
  intro after books
  have hsum := closed_sum ref (p := (sim, .new containers window intervalS label)) rfl hn
  obtain ⟨n, rfl⟩ : ∃ k, n = k + 1 := ⟨n - 1, by omega⟩
  obtain ⟨ms, groups, g, h⟩ := books_run ref sim (c := Collector.new containers window intervalS label) rfl n
  obtain ⟨htallied, -⟩ := close_books h after.1
  have hview : books.map (fun acc => (acc.month, acc.ticks)) =
      (groups ++ [g]).map fun g => (g.1, (g.2.length : ℝ)) := by
    have hview := congrArg (List.map fun acc => (acc.month, acc.ticks)) htallied
    rw [List.map_map, List.map_map] at hview
    refine hview.trans (List.map_congr_left fun g _ => ?_)
    obtain ⟨hmonth, -, hticks⟩ := tally_frame g
    exact Prod.ext hmonth hticks
  constructor
  · exact ⟨_, h.filed, hview⟩
  constructor
  · have hticks : (books.map fun acc => acc.ticks) = ((groups ++ [g]).map fun g => (g.2.length : ℝ)) := by
      have := congrArg (List.map Prod.snd) hview
      rw [List.map_map, List.map_map] at this
      exact this
    have hlen : ((groups ++ [g]).map fun g => (g.2.length : ℝ)) =
        ((groups ++ [g]).map fun g => g.2.length).map (Nat.cast : Nat → ℝ) := by
      rw [List.map_map]
      rfl
    rw [hticks, hlen, ← Nat.cast_list_sum, h.filed.length, ticks, List.length_map, List.length_range]
  constructor
  · intro m
    rw [hsum m]
    constructor
    · intro heq
      linarith
    · intro heq
      rw [heq]
  · intro ems seed startUnixS hsim
    exact closed_aux_lt ref ems seed startUnixS (p := (sim, .new containers window intervalS label))
      hsim rfl hn

/-- Nothing crosses an open breaker. -/
theorem islanded_import {cfg : PlantConfig ℝ} {ems : EmsStrategy ℝ} {sim : Simulation ℝ} (h : Sound sim)
    (hplant : sim.plant = gw01Plant cfg ems) (ho : sim.state.substation.hvBreaker = .opened) :
    Meter.imported.of (advance ref sim).meters = Meter.imported.of sim.meters := by
  change (sim.step _).state.substation.importWh = sim.state.substation.importWh
  rw [step_state h, hplant, siteTick_substation, BessTrip.gridTick_open cfg ems _ ho]
  rfl

/-- The reference plant, two seconds before February, its breaker open. -/
noncomputable def islanded : Simulation ℝ :=
  (Simulation.new PlantConfig.gw01 (gw01Models PlantConfig.gw01 ⟨fun _ _ => 0⟩) 7 1769903998).command
    .tripProtection

/-- Four of its seconds: one in January, three in February. Nothing crosses the open
breaker in the first, so the months' import is the run's. -/
theorem monthly_books_islanded :
    let after := passTicks .idle 4 (islanded, .new 40 (0, 0) TRACE_INTERVAL_S "")
    let books := after.2.close after.1
    books.map (fun acc => (acc.month, acc.ticks)) = [(0, 1), (1, 3)] ∧
      (books.map fun acc => Meter.imported.of acc.closed).sum =
        Meter.imported.of after.1.meters - Meter.imported.of islanded.meters := by
  intro after books
  obtain ⟨⟨groups, hfiled, hgroups⟩, -, hsum, -⟩ :=
    monthly_books .idle islanded 40 (0, 0) TRACE_INTERVAL_S "" 4 (by decide)
  have hsound : Sound islanded := sound_command (sound_new _ _ _ _) .tripProtection
  have hmonth : ∀ n : Nat, monthOf ((advance .idle)^[n] islanded) =
      monthIndex (1769903998 + (n : Int)) := by
    intro n
    rw [monthOf, advance_time]
    rfl
  have hfour : Filed monthOf
      [(0, [(advance .idle)^[1] islanded]),
        (1, [(advance .idle)^[2] islanded, (advance .idle)^[3] islanded, (advance .idle)^[4] islanded])]
      (ticks .idle islanded 4) := by
    constructor
    · rfl
    · simp
    · simp only [List.mem_cons, List.not_mem_nil, or_false, forall_eq_or_imp, forall_eq, hmonth]
      decide
    · simp
  refine ⟨?_, (hsum .imported).mpr (islanded_import hsound (command_plant _ _) rfl)⟩
  rw [hgroups, hfiled.unique hfour]
  norm_num

/-- The first day of the annual pass. -/
def firstDay : RunSpec := ⟨7, 1767225600, 1⟩

/-- Its auxiliary months fall short of the year's. -/
theorem first_tick_unbooked :
    let opening := firstDay.start (Reference.idle : Reference ℝ) (0, 0) ""
    (((passTicks .idle firstDay.ticks opening).2.close (passTicks .idle firstDay.ticks opening).1).map
        fun acc => Meter.aux.of acc.closed).sum ≠
      Meter.aux.of (passTicks .idle firstDay.ticks opening).1.meters - Meter.aux.of opening.1.meters := by
  intro opening
  apply ne_of_lt
  exact closed_aux_lt .idle ⟨fun _ _ => 0⟩ 7 1767225600 rfl rfl (show 0 < firstDay.ticks by decide)

end BessMonths
