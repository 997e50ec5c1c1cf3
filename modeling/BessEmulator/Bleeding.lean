import BessEmulator.Hysteresis
import BessEmulator.Reraise

/-!
# Balancing

The spread grows, is capped at the window and is narrowed by a bleed that it
caps in turn; the energy bled is the energy the cell model loses. Bleeding
starts and stops by the spread the last step left, at two different edges.
-/
namespace BessBleeding

open Bess BessReset BessReplay BessLedger Hysteresis

/-- A rack with its charge and its spread in the window. -/
structure Balanceable (r : RackState ℝ) (cfg : RackConfig ℝ) : Prop where
  soc_nonneg : 0 ≤ r.soc
  soc_le : r.soc ≤ 1
  spread_nonneg : 0 ≤ r.cellDsoc
  spread_le : r.cellDsoc ≤ 1
  capacity : 0 < capacityAh r cfg
  leak : 0 ≤ r.selfDischargeExcessPerS

/-- The conditions bleeding waits for. -/
structure MayBleed (r : RackState ℝ) : Prop where
  inService : r.inService = true
  soc : 0.90 ≤ r.soc
  discharge : r.currentA ≤ 1

/-- What a step leaves of a rack, and what it reports. -/
structure Balanced (r : RackState ℝ) (cfg : RackConfig ℝ) (dtS : ℝ) (r' : RackState ℝ)
    (flows : BmsFlows ℝ) : Prop where
  balanceable : Balanceable r' cfg
  soc_le : r'.soc ≤ r.soc
  energy : ∀ cell : Ecm1Rc ℝ,
    flows.bledWh = cell.storedEnergyWh r cfg - cell.storedEnergyWh r' cfg
  bled_nonneg : 0 ≤ flows.bledWh
  heat : flows.heatW * dtS / 3600 = flows.bledWh
  spread : 0 ≤ r'.cellDvV
  idle : r'.balancingActive = false → flows.bledWh = 0 ∧ r'.soc = r.soc
  bleeding : r'.balancingActive = true → MayBleed r

theorem spreadV_nonneg (soc : ℝ) {dsoc : ℝ} (h : 0 ≤ dsoc) : 0 ≤ spreadV soc dsoc :=
  sub_nonneg.mpr (ocvCellV_mono (by linarith))

theorem ocvCellIntegralV_mono {x y : ℝ} (h0 : 0 ≤ x) (hxy : x ≤ y) (h1 : y ≤ 1) :
    ocvCellIntegralV x ≤ ocvCellIntegralV y := by
  have hlow := (ocv_enclosed h0 hxy h1).low
  have hv := (ocvCellV_mem x).1
  have hpos : 0 ≤ ocvCellV x * (y - x) := mul_nonneg (by linarith) (by linarith)
  linarith

theorem active_default {r : RackState ℝ} :
    Balancing.default.active r = true ↔ MayBleed r ∧
      if r.balancingActive then Balancing.default.dvStopV < r.cellDvV
      else Balancing.default.dvStartV ≤ r.cellDvV := by
  have hone : (Balancing.default : Balancing ℝ).maxDischargeA = 1 := by norm_num [Balancing.default]
  rw [Balancing.active_iff, hone]
  exact and_congr_left fun _ => ⟨fun h => ⟨h.1, h.2.1, h.2.2⟩, fun h => ⟨h.1, h.2, h.3⟩⟩

theorem step_active (r : RackState ℝ) (cfg : RackConfig ℝ) (dtS : ℝ) :
    (Balancing.default.step r cfg dtS).1.balancingActive = Balancing.default.active r := by
  rw [Balancing.step]
  simp only
  split <;> simp_all

theorem step_balanced {r : RackState ℝ} {cfg : RackConfig ℝ} {dtS : ℝ} (h : Balanceable r cfg)
    (hdt : 0 < dtS) :
    Balanced r cfg dtS (Balancing.default.step r cfg dtS).1
      (Balancing.default.step r cfg dtS).2 := by
  obtain ⟨hd0, hd1⟩ := drift_mem h.capacity h.spread_nonneg h.leak hdt.le
  obtain ⟨hn0, hn1⟩ := narrowed_mem h.capacity hdt.le hd0
  obtain ⟨hs0, hs1⟩ := bledSoc_mem h.soc_nonneg hn0
  cases hact : Balancing.default.active r with
  | false =>
    rw [Balancing.step, hact]
    exact
      { balanceable := ⟨h.soc_nonneg, h.soc_le, hd0, hd1, h.capacity, h.leak⟩
        soc_le := le_refl _
        energy := fun cell => (sub_self _).symm
        bled_nonneg := le_refl 0
        heat := by simp
        spread := spreadV_nonneg _ hd0
        idle := fun _ => ⟨rfl, rfl⟩
        bleeding := fun hb => by cases hb }
  | true =>
    rw [Balancing.step, hact]
    have hdrop := sub_nonneg.mpr (ocvCellIntegralV_mono hs0 hs1 h.soc_le)
    exact
      { balanceable :=
          ⟨hs0, hs1.trans h.soc_le, sub_nonneg.mpr hn1, (sub_le_self _ hn0).trans hd1, h.capacity,
            h.leak⟩
        soc_le := hs1
        energy := fun cell => by
          simp only [if_true, Ecm1Rc.storedEnergyWh, capacityAh]
          ring
        bled_nonneg := mul_nonneg (mul_nonneg hdrop h.capacity.le) (Nat.cast_nonneg _)
        heat := by
          simp only [if_true]
          norm_num
          field_simp
        spread := spreadV_nonneg _ (sub_nonneg.mpr hn1)
        idle := fun hb => by cases hb
        bleeding := fun _ => (active_default.mp hact).1 }

/-- A spread that starts the bleeders, under the conditions. -/
def Starts (r : RackState ℝ) : Prop := MayBleed r ∧ Balancing.default.dvStartV ≤ r.cellDvV

/-- One that keeps them going. -/
def Holds (r : RackState ℝ) : Prop := MayBleed r ∧ Balancing.default.dvStopV < r.cellDvV

theorem starts_holds (r : RackState ℝ) (h : Starts r) : Holds r := by
  refine ⟨h.1, lt_of_lt_of_le ?_ h.2⟩
  norm_num [Balancing.default]

theorem active_set {r : RackState ℝ} (h : r.balancingActive = true) :
    Balancing.default.active r = true ↔ Holds r := by
  rw [active_default, if_pos h]
  rfl

theorem active_clear {r : RackState ℝ} (h : ¬ r.balancingActive = true) :
    Balancing.default.active r = true ↔ Starts r := by
  rw [active_default, if_neg h]
  rfl

/-- A balancing step and what comes before it: the rest of the plant may make
anything of the rack but what balancing alone writes. -/
structure BalanceTick where
  meanwhile : RackState ℝ → RackState ℝ
  active : ∀ r, (meanwhile r).balancingActive = r.balancingActive
  spread : ∀ r, (meanwhile r).cellDvV = r.cellDvV
  cfg : RackConfig ℝ
  dtS : ℝ

noncomputable def balanceTick (r : RackState ℝ) (t : BalanceTick) : RackState ℝ :=
  (Balancing.default.step (t.meanwhile r) t.cfg t.dtS).1

/-- The racks the steps of a run were given. -/
noncomputable def found (r : RackState ℝ) (ticks : List BalanceTick) : List (RackState ℝ) :=
  readings balanceTick (fun r t => some (t.meanwhile r)) r ticks

/-- Bleeding is a hysteresis on the racks found. -/
theorem bleeding_run {r : RackState ℝ} (h : r.balancingActive = false) (ticks : List BalanceTick) :
    (ticks.foldl balanceTick r).balancingActive = true ↔
      Latched 1 Starts Holds (found r ticks) := by
  have hstep : ∀ (hist : List (RackState ℝ)) (r : RackState ℝ) (t : BalanceTick),
      (r.balancingActive = true ↔ Latched 1 Starts Holds hist) →
        ((balanceTick r t).balancingActive = true ↔
          Latched 1 Starts Holds (hist ++ (some (t.meanwhile r)).toList)) := by
    intro hist r t hr
    rw [Option.toList_some, balanceTick, step_active]
    refine latched_next starts_holds hr (fun hon => ?_) fun hoff => ?_
    · exact active_set ((t.active r).trans hon)
    · rw [active_clear (by rwa [t.active r]), ends_one]
  exact history_run balanceTick (fun r t => some (t.meanwhile r)) hstep (by rw [h]; simp) ticks

theorem starts_at {r : RackState ℝ} {t : BalanceTick} (hoff : r.balancingActive = false)
    (hon : (balanceTick r t).balancingActive = true) :
    Balancing.default.dvStartV ≤ r.cellDvV := by
  have hclear : ¬ (t.meanwhile r).balancingActive = true := by
    rw [t.active r, hoff]
    decide
  rw [balanceTick, step_active, active_clear hclear] at hon
  exact (t.spread r) ▸ hon.2

theorem stops_at {r : RackState ℝ} {t : BalanceTick} (hon : r.balancingActive = true)
    (hmay : MayBleed (t.meanwhile r)) (hoff : (balanceTick r t).balancingActive = false) :
    r.cellDvV ≤ Balancing.default.dvStopV := by
  by_contra hwide
  have hholds : Holds (t.meanwhile r) := ⟨hmay, by rw [t.spread r]; exact not_le.mp hwide⟩
  rw [balanceTick, step_active, (active_set ((t.active r).trans hon)).mpr hholds] at hoff
  cases hoff

/-- The rack a step of the plant finds at an address. -/
def rackFound (b c r : Nat) (sim : Simulation ℝ) : Move ℝ → Option (RackState ℝ)
  | .command _ => none
  | .step _ => sim.state.rack? b c r

theorem bleeding_kept (b c r : Nat) (v : Option Bool) :
    KeptByEdits fun s : SiteState ℝ => (s.rack? b c r).map RackState.balancingActive = v :=
  rackMap_kept RackState.balancingActive
    (fun f he x => by cases he <;> rfl) b c r v

/-- A tick's bleeders run by the rack the tick found. -/
theorem bleeding_tick (cfg : PlantConfig ℝ) (ems : EmsStrategy ℝ) {s : SiteState ℝ}
    (inputs : Inputs ℝ) {b c r : Nat} {x : RackState ℝ} (hx : s.rack? b c r = some x) :
    ∃ y, ((gw01Plant cfg ems).siteTick s inputs).rack? b c r = some y ∧
      y.balancingActive = Balancing.default.active x := by
  have hpl : (gw01Plant cfg ems).models = gw01Models (gw01Plant cfg ems).cfg ems := rfl
  obtain ⟨blk, con, hstands⟩ := exists_stands hx
  refine ⟨_, rack_next hpl inputs hstands, ?_⟩
  change (cellTick _ _ x).1.balancingActive = _
  rw [(BessClimate.cellTick_spread rfl _ x).2]
  exact step_active x _ _

theorem bleeding_new (cfg : PlantConfig ℝ) (seed : UInt64) (t : Int) {b c r : Nat} {x : RackState ℝ}
    (h : (SiteState.new cfg seed t).rack? b c r = some x) : x.balancingActive = false := by
  obtain ⟨blk, con, hstands⟩ := exists_stands h
  have hall : ForallRacks (fun x => x.balancingActive = false) (SiteState.new cfg seed t) :=
    forall_new_blocks cfg seed t
      (forall_new_containers cfg (forall_new_racks cfg fun _ => rfl))
  exact hall blk (List.mem_of_getElem? hstands.block) con
    (List.mem_of_getElem? hstands.container) x (List.mem_of_getElem? hstands.rack)

theorem bleeding_plant (cfg : PlantConfig ℝ) (ems : EmsStrategy ℝ) (seed : UInt64) (t : Int)
    (moves : List (Move ℝ)) (b c r : Nat) :
    let sim := Simulation.new cfg (gw01Models cfg ems) seed t
    ∀ y, (sim.run moves).state.rack? b c r = some y →
      (y.balancingActive = true ↔
        Latched 1 Starts Holds (readings Simulation.move (rackFound b c r) sim moves)) := by
  intro sim
  have hstep : ∀ (hist : List (RackState ℝ)) (sim : Simulation ℝ) (m : Move ℝ),
      (Sound sim ∧ sim.plant = gw01Plant cfg ems ∧
        ∀ y, sim.state.rack? b c r = some y →
          (y.balancingActive = true ↔ Latched 1 Starts Holds hist)) →
      Sound (sim.move m) ∧ (sim.move m).plant = gw01Plant cfg ems ∧
        ∀ y, (sim.move m).state.rack? b c r = some y →
          (y.balancingActive = true ↔
            Latched 1 Starts Holds (hist ++ (rackFound b c r sim m).toList)) := by
    rintro hist sim m ⟨hs, hpl, hbleed⟩
    refine ⟨sound_move hs m, (move_plant hs m).trans hpl, fun y hy => ?_⟩
    cases m with
    | command c' =>
      rw [rackFound, Option.toList_none, List.append_nil]
      have hkept := kept_command (bleeding_kept b c r _) sim c' rfl
      rw [Simulation.move] at hy
      rw [hy, Option.map_some] at hkept
      obtain ⟨x, hx, hsame⟩ := Option.map_eq_some_iff.mp hkept.symm
      rw [← hsame]
      exact hbleed x hx
    | step inputs =>
      rw [Simulation.move, step_state hs, hpl] at hy
      obtain ⟨x, hx, -⟩ := rack_tick _ _ _ hy
      obtain ⟨z, hz, hact⟩ := bleeding_tick cfg ems inputs hx
      obtain rfl := Option.some.inj (hz.symm.trans hy)
      rw [rackFound, hx, Option.toList_some, hact]
      refine latched_next starts_holds (hbleed x hx) active_set fun hoff => ?_
      rw [active_clear hoff, ends_one]
  have hstart : Sound sim ∧ sim.plant = gw01Plant cfg ems ∧
      ∀ y, sim.state.rack? b c r = some y →
        (y.balancingActive = true ↔ Latched 1 Starts Holds []) :=
    ⟨sound_new cfg _ seed t, rfl, fun _ hy => by rw [bleeding_new cfg seed t hy]; simp⟩
  exact (history_run Simulation.move (rackFound b c r) hstep hstart moves).2.2

/-- What balancing does to a rack in one step, and over any run. -/
structure BalancingLaw : Prop where
  step : ∀ r cfg dtS, Balanceable r cfg → 0 < dtS →
    Balanced r cfg dtS (Balancing.default.step r cfg dtS).1 (Balancing.default.step r cfg dtS).2
  starts : ∀ r t, r.balancingActive = false → (balanceTick r t).balancingActive = true →
    Balancing.default.dvStartV ≤ r.cellDvV
  stops : ∀ r t, r.balancingActive = true → MayBleed (t.meanwhile r) →
    (balanceTick r t).balancingActive = false → r.cellDvV ≤ Balancing.default.dvStopV
  run : ∀ r ticks, r.balancingActive = false →
    ((ticks.foldl balanceTick r).balancingActive = true ↔ Latched 1 Starts Holds (found r ticks))
  plant : ∀ cfg ems seed t moves b c r y,
    ((Simulation.new cfg (gw01Models cfg ems) seed t).run moves).state.rack? b c r = some y →
      (y.balancingActive = true ↔ Latched 1 Starts Holds
        (readings Simulation.move (rackFound b c r)
          (Simulation.new cfg (gw01Models cfg ems) seed t) moves))

/-- A balancing step keeps the window, accounts for what it bleeds and never raises the charge;
bleeding is a hysteresis of the spread under its conditions, in every run of steps and of the
plant. -/
theorem balancing_law : BalancingLaw where
  step _ _ _ h hdt := step_balanced h hdt
  starts _ _ hoff hon := starts_at hoff hon
  stops _ _ hon hmay hoff := stops_at hon hmay hoff
  run _ ticks h := bleeding_run h ticks
  plant cfg ems seed t moves b c r _ h := bleeding_plant cfg ems seed t moves b c r _ h

/-- Nearly full, its cells further apart than the start asks for. -/
noncomputable def wideRack : RackState ℝ where
  inService := true
  soc := 0.95
  soh := 1
  voltageV := 1400.0
  currentA := 0
  cellTempC := 25.0
  polarizationV := 0
  resistanceScale := 1
  tempOffsetC := 0
  alarmBits := 0#32
  cellDsoc := 0.02
  cellDvV := 0.04
  balancingActive := false
  selfDischargeExcessPerS := 0

/-- Its bleeders come on, and the step is balanced. -/
theorem balancing_law_wide :
    let cfg : RackConfig ℝ := PlantConfig.gw01.rack
    let after := Balancing.default.step wideRack cfg 1
    after.1.balancingActive = true ∧ Balanced wideRack cfg 1 after.1 after.2 := by
  intro cfg after
  have hwide : Balanceable wideRack cfg := by
    constructor <;> norm_num [wideRack, capacityAh, cfg, PlantConfig.gw01]
  have hstarts : Starts wideRack := by
    refine ⟨⟨rfl, ?_, ?_⟩, ?_⟩ <;> norm_num [wideRack, Balancing.default]
  refine ⟨?_, balancing_law.step wideRack cfg 1 hwide one_pos⟩
  exact (step_active _ _ _).trans ((active_clear (by simp [wideRack])).mpr hstarts)

end BessBleeding
