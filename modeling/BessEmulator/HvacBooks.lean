import BessEmulator.MonthlyBooks
import BessEmulator.Tallies

/-!
# What the HVAC figures of a pass say

The tallies are those of the trees the pass walks through. A compressor that has
started runs its minimum time and rests its minimum time, and each second of a unit
pays for its part of a start: so the starts a pass publishes are bounded by the
seconds of cooling and by the seconds of rest it publishes with them.
-/
namespace BessHvac

open Bess BessMonths

/-- The least reading, if there is one. -/
def Lowest (S : Set ℝ) : Option ℝ → Prop
  | none => S = ∅
  | some m => IsLeast S m

def Highest (S : Set ℝ) : Option ℝ → Prop
  | none => S = ∅
  | some m => IsGreatest S m

theorem lowest_union {R S : Set ℝ} {o : Option ℝ} {x : ℝ} (hR : IsLeast R x) (hS : Lowest S o) :
    Lowest (R ∪ S) (least o x) := by
  cases o with
  | none =>
    rw [Lowest] at hS
    rw [hS, Set.union_empty]
    exact hR
  | some m =>
    rw [least, Option.elim_some, min_comm]
    exact hR.union hS

theorem highest_union {R S : Set ℝ} {o : Option ℝ} {x : ℝ} (hR : IsGreatest R x) (hS : Highest S o) :
    Highest (R ∪ S) (greatest o x) := by
  cases o with
  | none =>
    rw [Highest] at hS
    rw [hS, Set.union_empty]
    exact hR
  | some m =>
    rw [greatest, Option.elim_some, max_comm]
    exact hR.union hS

theorem lowest_insert {S : Set ℝ} {o : Option ℝ} (h : Lowest S o) (x : ℝ) :
    Lowest (insert x S) (least o x) := by
  rw [Set.insert_eq]
  exact lowest_union isLeast_singleton h

theorem highest_insert {S : Set ℝ} {o : Option ℝ} (h : Highest S o) (x : ℝ) :
    Highest (insert x S) (greatest o x) := by
  rw [Set.insert_eq]
  exact highest_union isGreatest_singleton h

/-- The readings of a list. -/
def readings {α : Type} (f : α → ℝ) (xs : List α) : Set ℝ := {y | ∃ x ∈ xs, f x = y}

theorem readings_cons {α : Type} (f : α → ℝ) (x : α) (xs : List α) (S : Set ℝ) :
    readings f (x :: xs) ∪ S = readings f xs ∪ insert (f x) S := by
  ext y
  simp only [readings, List.mem_cons, Set.mem_union, Set.mem_ofPred_eq, Set.mem_insert_iff]
  aesop

/-- The extremes of a list's readings. -/
theorem minMax_readings {α : Type} (f : α → ℝ) {xs : List α} (hany : xs ≠ []) :
    ∃ lo hi, minMax (xs.map f) = (some lo, some hi) ∧ IsLeast (readings f xs) lo ∧
      IsGreatest (readings f xs) hi := by
  have hfold : ∀ (xs : List α) (S : Set ℝ) (lo hi : ℝ), IsLeast S lo → IsGreatest S hi →
      IsLeast (readings f xs ∪ S) ((xs.map f).foldl min lo) ∧
        IsGreatest (readings f xs ∪ S) ((xs.map f).foldl max hi) := by
    intro xs
    induction xs with
    | nil =>
      intro S lo hi hlo hhi
      have hnone : readings f [] ∪ S = S := by simp [readings]
      rw [hnone]
      exact ⟨hlo, hhi⟩
    | cons x xs ih =>
      intro S lo hi hlo hhi
      rw [readings_cons, List.map_cons, List.foldl_cons, List.foldl_cons, min_comm, max_comm]
      exact ih _ _ _ (hlo.insert (f x)) (hhi.insert (f x))
  cases xs with
  | nil => exact absurd rfl hany
  | cons x xs =>
    obtain ⟨hlo, hhi⟩ := hfold xs {f x} (f x) (f x) isLeast_singleton isGreatest_singleton
    have hcons : readings f xs ∪ {f x} = readings f (x :: xs) := by
      have h := readings_cons f x xs ∅
      simpa using h.symm
    rw [hcons] at hlo hhi
    exact ⟨_, _, rfl, hlo, hhi⟩

/-- The containers in a mode. -/
def running (mode : HvacMode) (cs : List (ContainerState ℝ)) : Nat := cs.countP fun c => c.hvac.mode = mode

def cooling (cs : List (ContainerState ℝ)) : Nat := cs.countP fun c => c.hvac.mode.cools

theorem cooling_eq (cs : List (ContainerState ℝ)) :
    cooling cs = running .cool1 cs + running .cool2 cs := by
  induction cs with
  | nil => rfl
  | cons c cs ih =>
    simp only [cooling, running, List.countP_cons] at ih ⊢
    rw [ih]
    cases c.hvac.mode <;> simp [HvacMode.cools] <;> omega

theorem running_le (cs : List (ContainerState ℝ)) :
    running .cool1 cs + running .cool2 cs + running .heat cs ≤ cs.length := by
  induction cs with
  | nil => exact le_refl _
  | cons c cs ih =>
    simp only [running, List.countP_cons, List.length_cons] at ih ⊢
    cases c.hvac.mode <;> simp <;> omega

/-- Units that cool and did not. -/
def startsOf (flags : List Bool) (cs : List (ContainerState ℝ)) : Nat :=
  (flags.zip cs).countP fun p => !p.1 && p.2.hvac.mode.cools

/-- What the walk over some containers adds. -/
structure Added (flags : List Bool) (cs : List (ContainerState ℝ)) (t t' : Tallies ℝ) : Prop where
  ambient : t'.ambientMinC = t.ambientMinC ∧ t'.ambientMaxC = t.ambientMaxC
  cell : t'.cellMinC = t.cellMinC ∧ t'.cellMaxC = t.cellMaxC
  airMin : ∀ S, Lowest S t.airMinC → Lowest (readings ContainerState.airTempC cs ∪ S) t'.airMinC
  airMax : ∀ S, Highest S t.airMaxC → Highest (readings ContainerState.airTempC cs ∪ S) t'.airMaxC
  stage1 : t'.stage1Ticks = t.stage1Ticks + running .cool1 cs
  stage2 : t'.stage2Ticks = t.stage2Ticks + running .cool2 cs
  heat : t'.heatTicks = t.heatTicks + running .heat cs
  starts : t'.starts = t.starts + startsOf flags cs

theorem read_containers {cs : List (ContainerState ℝ)} {before flags : List Bool} {t : Tallies ℝ}
    (hflags : t.cooling = before ++ flags) (hlength : flags.length = cs.length) :
    ∃ t', (cs.zipIdx before.length).foldlM Tallies.read t = some t' ∧ Added flags cs t t' ∧
      t'.cooling = before ++ cs.map fun c => c.hvac.mode.cools := by
  induction cs generalizing before flags t with
  | nil =>
    obtain rfl := List.length_eq_zero_iff.mp hlength
    have hnone : ∀ S, readings ContainerState.airTempC [] ∪ S = S := by simp [readings]
    refine ⟨t, rfl, ⟨⟨rfl, rfl⟩, ⟨rfl, rfl⟩, fun S h => ?_, fun S h => ?_, rfl, rfl, rfl, rfl⟩, hflags⟩
    · rw [hnone]
      exact h
    · rw [hnone]
      exact h
  | cons c cs ih =>
    cases flags with
    | nil => cases hlength
    | cons was flags =>
      have hget : t.cooling[before.length]? = some was := by
        rw [hflags, List.getElem?_append_right (le_refl _), Nat.sub_self]
        rfl
      have hset : t.cooling.set before.length c.hvac.mode.cools =
          (before ++ [c.hvac.mode.cools]) ++ flags := by
        rw [hflags, List.set_append_right _ _ (le_refl _), Nat.sub_self, List.set_cons_zero,
          List.append_assoc]
        rfl
      obtain ⟨next, hnext⟩ : ∃ next : Tallies ℝ, next =
          { t with
            airMinC := least t.airMinC c.airTempC
            airMaxC := greatest t.airMaxC c.airTempC
            stage1Ticks := t.stage1Ticks + if c.hvac.mode = .cool1 then 1 else 0
            stage2Ticks := t.stage2Ticks + if c.hvac.mode = .cool2 then 1 else 0
            heatTicks := t.heatTicks + if c.hvac.mode = .heat then 1 else 0
            starts := t.starts + if c.hvac.mode.cools && !was then 1 else 0
            cooling := t.cooling.set before.length c.hvac.mode.cools } := ⟨_, rfl⟩
      have hread : Tallies.read t (c, before.length) = some next := by
        simp only [Tallies.read, hget, Option.map_some, hnext]
      have hcooled : next.cooling = (before ++ [c.hvac.mode.cools]) ++ flags := by rw [hnext, hset]
      obtain ⟨t', hrest, hadded, hcooling⟩ := ih hcooled (Nat.succ.inj hlength)
      rw [List.length_append, List.length_singleton] at hrest
      refine ⟨t', ?_, ?_, ?_⟩
      · rw [List.zipIdx_cons, List.foldlM_cons, hread]
        exact hrest
      · constructor
        · rw [hadded.ambient.1, hadded.ambient.2, hnext]
          exact ⟨rfl, rfl⟩
        · rw [hadded.cell.1, hadded.cell.2, hnext]
          exact ⟨rfl, rfl⟩
        · intro S h
          rw [readings_cons]
          apply hadded.airMin
          rw [hnext]
          exact lowest_insert h c.airTempC
        · intro S h
          rw [readings_cons]
          apply hadded.airMax
          rw [hnext]
          exact highest_insert h c.airTempC
        · rw [hadded.stage1, hnext]
          simp only [running, List.countP_cons, decide_eq_true_eq]
          omega
        · rw [hadded.stage2, hnext]
          simp only [running, List.countP_cons, decide_eq_true_eq]
          omega
        · rw [hadded.heat, hnext]
          simp only [running, List.countP_cons, decide_eq_true_eq]
          omega
        · rw [hadded.starts, hnext]
          simp only [startsOf, List.zip_cons_cons, List.countP_cons, Bool.and_comm c.hvac.mode.cools]
          omega
      · rw [hcooling, List.append_assoc, List.map_cons]
        rfl

/-- A unit's second under the reference thermostat. -/
def UnitStep (c c' : ContainerState ℝ) : Prop :=
  ∃ t : HvacTick ℝ, t.dtS = 1 ∧ t.failed = c.hvac.failed ∧
    c'.hvac = (LumpedThermal.default.hvacTick c t).hvac

/-- A unit that is up, its countdown within the dwell times. -/
structure UnitOk (c : ContainerState ℝ) : Prop where
  up : c.hvac.failed = false
  low : 0 ≤ c.hvac.compressorHoldS
  high : c.hvac.compressorHoldS ≤ 180

/-- Seconds the compressor has to run yet. -/
def runDue (c : ContainerState ℝ) : ℝ := if c.hvac.mode.cools then c.hvac.compressorHoldS else 0

/-- Seconds it has to rest before it starts again. -/
def restDue (c : ContainerState ℝ) : ℝ := if c.hvac.mode.cools then 180 else c.hvac.compressorHoldS

/-- Whether the compressor starts. -/
def started (c c' : ContainerState ℝ) : Bool := !c.hvac.mode.cools && c'.hvac.mode.cools

section

variable {c c' : ContainerState ℝ}

theorem dwell_default : (LumpedThermal.default : LumpedThermal ℝ).minRunS = 180 ∧
    (LumpedThermal.default : LumpedThermal ℝ).minOffS = 180 := by
  constructor <;> norm_num [LumpedThermal.default]

/-- What a second does to mode and countdown: a start or a change of stage, an end, or a second less. -/
theorem unit_cases (h : UnitOk c) (hs : UnitStep c c') :
    c'.hvac.failed = false ∧
      (c'.hvac.mode.cools = true ∧ c'.hvac.compressorHoldS = 180 ∧
          (c.hvac.mode.cools = false → c.hvac.compressorHoldS ≤ 0) ∨
        c.hvac.mode.cools = true ∧ c'.hvac.mode.cools = false ∧ c'.hvac.compressorHoldS = 180 ∧
          c.hvac.compressorHoldS ≤ 0 ∨
        c'.hvac.mode.cools = c.hvac.mode.cools ∧
          c'.hvac.compressorHoldS = max (c.hvac.compressorHoldS - 1) 0) := by
  obtain ⟨t, hdt, hfailed, hhvac⟩ := hs
  rw [h.up] at hfailed
  obtain ⟨hrun, hoff⟩ := dwell_default
  refine ⟨by rw [hhvac]; exact hfailed, ?_⟩
  rw [hhvac]
  by_cases hchange : LumpedThermal.default.StageChanges c t
  · left
    refine ⟨hchange.1, (hold_change _ hchange).trans hrun, fun hrest => ?_⟩
    exact start_free _ ⟨hrest, hchange.1⟩
  · right
    by_cases hend : LumpedThermal.default.CoolingEnds c t
    · left
      refine ⟨hend.1, hend.2, (hold_end _ hend).trans hoff, ?_⟩
      -- a busy compressor would have kept the unit cooling
      by_contra hbusy
      have hmode := hvacTick_mode LumpedThermal.default c t hfailed
      have hfree : decide (c.hvac.compressorHoldS ≤ 0.0) = false := by
        rw [← Bool.not_eq_true, free_iff]
        exact hbusy
      rw [hfree] at hmode
      have hcools := nextMode_busy LumpedThermal.default t.airC hend.1
      rw [← hmode, hend.2] at hcools
      cases hcools
    · right
      refine ⟨?_, by rw [hold_else _ hchange hend, hdt]⟩
      cases hold : c.hvac.mode.cools with
      | true =>
        by_contra hnew
        exact hend ⟨hold, Bool.not_eq_true _ ▸ hnew⟩
      | false =>
        by_contra hnew
        rw [Bool.not_eq_false] at hnew
        refine hchange ⟨hnew, fun hsame => ?_⟩
        rw [hsame, hold] at hnew
        cases hnew

theorem unitOk_step (h : UnitOk c) (hs : UnitStep c c') : UnitOk c' := by
  obtain ⟨hup, ⟨-, hhold, -⟩ | ⟨-, -, hhold, -⟩ | ⟨-, hhold⟩⟩ := unit_cases h hs
  · exact ⟨hup, by rw [hhold]; norm_num, by rw [hhold]⟩
  · exact ⟨hup, by rw [hhold]; norm_num, by rw [hhold]⟩
  · refine ⟨hup, by rw [hhold]; exact le_max_right _ _, ?_⟩
    rw [hhold]
    exact max_le (by linarith [h.high]) (by norm_num)

/-- Seconds of cooling pay for the starts. -/
theorem unit_cooled (h : UnitOk c) (hs : UnitStep c c') :
    180 * (if started c c' then 1 else 0) + runDue c ≤
      (if c'.hvac.mode.cools then 1 else 0) + runDue c' := by
  have hhigh := h.high
  obtain ⟨-, ⟨hcools, hhold, -⟩ | ⟨hcool, hrest, -, hfree⟩ | ⟨hsame, hhold⟩⟩ := unit_cases h hs
  · cases hold : c.hvac.mode.cools with
    | true =>
      simp [started, runDue, hold, hcools, hhold]
      linarith
    | false => simp [started, runDue, hold, hcools, hhold]
  · simp [started, runDue, hcool, hrest]
    exact hfree
  · have hcount : c.hvac.compressorHoldS - 1 ≤ c'.hvac.compressorHoldS := hhold ▸ le_max_left _ _
    cases hold : c.hvac.mode.cools with
    | true =>
      simp [started, runDue, hsame, hold]
      linarith
    | false => simp [started, runDue, hsame, hold]

/-- Seconds of rest pay for them too. -/
theorem unit_rested (h : UnitOk c) (hs : UnitStep c c') :
    180 * (if started c c' then 1 else 0) + restDue c ≤
      (if c'.hvac.mode.cools then 0 else 1) + restDue c' := by
  obtain ⟨-, ⟨hcools, -, hstart⟩ | ⟨hcool, hrest, hhold, -⟩ | ⟨hsame, hhold⟩⟩ := unit_cases h hs
  · cases hold : c.hvac.mode.cools with
    | true => simp [started, restDue, hold, hcools]
    | false =>
      simp [started, restDue, hold, hcools]
      exact hstart hold
  · simp [started, restDue, hcool, hrest, hhold]
  · have hcount : c.hvac.compressorHoldS - 1 ≤ c'.hvac.compressorHoldS := hhold ▸ le_max_left _ _
    cases hold : c.hvac.mode.cools with
    | true => simp [started, restDue, hsame, hold]
    | false =>
      simp [started, restDue, hsame, hold]
      linarith

end

/-- What is due of some units together. -/
def due (f : ContainerState ℝ → ℝ) (cs : List (ContainerState ℝ)) : ℝ := (cs.map f).sum

theorem units_paid {f g : ContainerState ℝ → ℝ} {cs cs' : List (ContainerState ℝ)}
    (h : List.Forall₂ (fun c c' => 180 * (if started c c' then 1 else 0) + f c ≤ g c' + f c') cs cs') :
    180 * (startsOf (cs.map fun c => c.hvac.mode.cools) cs' : ℝ) + due f cs ≤ due g cs' + due f cs' := by
  induction h with
  | nil => simp [startsOf, due]
  | @cons c c' cs cs' hc _ ih =>
    simp only [startsOf, due, List.map_cons, List.zip_cons_cons, List.countP_cons, List.sum_cons] at ih ⊢
    push_cast
    have hstart : (if (!c.hvac.mode.cools && c'.hvac.mode.cools) = true then (1 : ℝ) else 0) =
        if started c c' then 1 else 0 := rfl
    rw [hstart]
    linarith

theorem due_cooling (cs : List (ContainerState ℝ)) :
    due (fun c => if c.hvac.mode.cools then 1 else 0) cs = cooling cs ∧
      due (fun c => if c.hvac.mode.cools then 0 else 1) cs = cs.length - cooling cs := by
  induction cs with
  | nil => simp [due, cooling]
  | cons c cs ih =>
    simp only [due, cooling, List.map_cons, List.sum_cons, List.countP_cons, List.length_cons] at ih ⊢
    push_cast
    rw [ih.1, ih.2]
    cases c.hvac.mode.cools
    · simp
      ring
    · simp
      ring

theorem due_le {f : ContainerState ℝ → ℝ} {cs : List (ContainerState ℝ)}
    (h : ∀ c ∈ cs, 0 ≤ f c ∧ f c ≤ 180) : 0 ≤ due f cs ∧ due f cs ≤ 180 * cs.length := by
  induction cs with
  | nil => simp [due]
  | cons c cs ih =>
    obtain ⟨⟨hlow, hhigh⟩, hrest⟩ := List.forall_mem_cons.mp h
    obtain ⟨ihlow, ihhigh⟩ := ih hrest
    simp only [due, List.map_cons, List.sum_cons, List.length_cons] at ihlow ihhigh ⊢
    push_cast
    constructor <;> linarith

theorem runDue_mem {c : ContainerState ℝ} (h : UnitOk c) : 0 ≤ runDue c ∧ runDue c ≤ 180 := by
  have hlow := h.low
  have hhigh := h.high
  rw [runDue]
  split
  · exact ⟨hlow, hhigh⟩
  · norm_num

theorem restDue_mem {c : ContainerState ℝ} (h : UnitOk c) : 0 ≤ restDue c ∧ restDue c ≤ 180 := by
  have hlow := h.low
  have hhigh := h.high
  rw [restDue]
  split
  · norm_num
  · exact ⟨hlow, hhigh⟩

/-- Every unit's part of a tick is its thermostat's. -/
theorem units_tick (pl : Plant ℝ) (hthermal : pl.models.thermal = LumpedThermal.default.thermalModel)
    (s : SiteState ℝ) (inputs : Inputs ℝ) :
    List.Forall₂ UnitStep s.containers (pl.siteTick s inputs).containers := by
  have hblocks : ∀ (bs : List (BlockState ℝ)) (k : Nat),
      List.Forall₂ UnitStep (bs.flatMap fun b => b.containers)
        (((bs.zipIdx k).map (pl.nextBlock s inputs)).flatMap fun b => b.containers) := by
    intro bs
    induction bs with
    | nil => exact fun _ => List.Forall₂.nil
    | cons b bs ih =>
      intro k
      rw [List.zipIdx_cons, List.map_cons, List.flatMap_cons, List.flatMap_cons]
      apply List.rel_append _ (ih (k + 1))
      rw [Plant.nextBlock, blockTick_containers, List.forall₂_map_right_iff, List.forall₂_same]
      intro c _
      obtain ⟨ctx, hctx⟩ : ∃ ctx, ctx = pl.ctx s inputs := ⟨_, rfl⟩
      have hmodels : ctx.models.thermal = LumpedThermal.default.thermalModel := by rw [hctx]; exact hthermal
      have hdt : ctx.dtS = 1 := by rw [hctx]; exact tickS_real
      rw [← hctx]
      generalize perRackOf ctx (pl.inSet s inputs (b, k)) b = perRackW
      refine ⟨⟨c.airTempC, c.hvac.failed, c.racks.map (heatOf ctx perRackW), ctx.weather, ctx.dtS⟩, hdt, rfl, ?_⟩
      change (ctx.models.thermal.stepContainer (deliveredContainer ctx perRackW c) _ _ _).1.hvac = _
      rw [hmodels]
      rfl
  exact hblocks s.blocks 0

/-- What a pass keeps of its plant. -/
structure Runs (sim : Simulation ℝ) : Prop where
  sound : Sound sim
  cfg : sim.plant.cfg = .gw01
  thermal : sim.plant.models.thermal = LumpedThermal.default.thermalModel
  units : ∀ c ∈ sim.state.containers, UnitOk c

theorem runs_step {sim : Simulation ℝ} (h : Runs sim) (inputs : Inputs ℝ) :
    Runs (sim.step inputs) ∧
      List.Forall₂ UnitStep sim.state.containers (sim.step inputs).state.containers := by
  have hunits := units_tick sim.plant h.thermal sim.state inputs
  have hplant : (sim.step inputs).plant = sim.plant := move_plant h.sound (.step inputs)
  rw [← step_state h.sound] at hunits
  constructor
  · constructor
    · exact sound_step h.sound inputs
    · rw [hplant]
      exact h.cfg
    · rw [hplant]
      exact h.thermal
    · intro c hc
      obtain ⟨i, hi, rfl⟩ := List.mem_iff_getElem.mp hc
      have hlength := hunits.length_eq
      exact unitOk_step (h.units _ (List.getElem_mem _)) (hunits.get (hlength ▸ hi) hi)
  · exact hunits

/-- Forty containers, and racks in them. -/
theorem runs_shape {sim : Simulation ℝ} (h : Runs sim) :
    sim.state.containers.length = 40 ∧ sim.state.racks ≠ [] := by
  have hcfg : sim.cfg = .gw01 := h.cfg
  obtain ⟨hcount, hblocks⟩ := h.sound.shape
  rw [hcfg] at hcount hblocks
  have hflat : ∀ bs : List (BlockState ℝ), (∀ b ∈ bs, b.containers.length = 2) →
      (bs.flatMap fun b => b.containers).length = bs.length * 2 := by
    intro bs
    induction bs with
    | nil => simp
    | cons b bs ih =>
      intro hbs
      obtain ⟨hb, hrest⟩ := List.forall_mem_cons.mp hbs
      rw [List.flatMap_cons, List.length_append, hb, ih hrest, List.length_cons]
      omega
  constructor
  · rw [SiteState.containers, hflat _ fun b hb => (hblocks b hb).containers, hcount]
    rfl
  · intro hnone
    have hfirst : 0 < sim.state.blocks.length := by
      rw [hcount]
      exact Nat.succ_pos 19
    have hb := List.getElem_mem hfirst
    have hracks : sim.state.blocks[0].racks.length = 24 := (hblocks _ hb).racks_length
    rw [List.flatMap_eq_nil_iff.mp hnone _ hb] at hracks
    cases hracks

theorem units_new (cfg : PlantConfig ℝ) (seed : UInt64) (t : Int) :
    ∀ c ∈ (SiteState.new cfg seed t).containers, c.hvac = ⟨.off, 0, 0, 0, false⟩ := by
  have hblocks : ∀ b ∈ (SiteState.new cfg seed t).blocks, ∀ c ∈ b.containers,
      c.hvac = ⟨.off, 0, 0, 0, false⟩ := by
    apply forall_new_blocks
    exact forall_new_containers cfg fun _ => rfl
  intro c hc
  obtain ⟨b, hb, hc⟩ := List.mem_flatMap.mp hc
  exact hblocks b hb c hc

theorem runs_new (ems : EmsStrategy ℝ) (seed : UInt64) (t : Int) :
    Runs (Simulation.new .gw01 (gw01Models .gw01 ems) seed t) := by
  constructor
  · exact sound_new _ _ seed t
  · rfl
  · rfl
  · intro c hc
    have hoff := units_new .gw01 seed t c hc
    constructor <;> rw [hoff]
    norm_num

/-- What the tallies remember of a tree. -/
def flagsOf (s : SiteState ℝ) : List Bool := s.containers.map fun c => c.hvac.mode.cools

/-- What a tick adds to the tallies. -/
structure Observed (old s : SiteState ℝ) (tick : Nat) (t t' : Tallies ℝ) : Prop where
  ambientMin : t'.ambientMinC = least t.ambientMinC s.weather.ambientC
  ambientMax : t'.ambientMaxC = greatest t.ambientMaxC s.weather.ambientC
  airMin : ∀ S, Lowest S t.airMinC → Lowest (readings ContainerState.airTempC s.containers ∪ S) t'.airMinC
  airMax : ∀ S, Highest S t.airMaxC → Highest (readings ContainerState.airTempC s.containers ∪ S) t'.airMaxC
  cellMin : ∀ S, Lowest S t.cellMinC →
    Lowest ({y | tick % 60 = 0 ∧ y ∈ readings RackState.cellTempC s.racks} ∪ S) t'.cellMinC
  cellMax : ∀ S, Highest S t.cellMaxC →
    Highest ({y | tick % 60 = 0 ∧ y ∈ readings RackState.cellTempC s.racks} ∪ S) t'.cellMaxC
  stage1 : t'.stage1Ticks = t.stage1Ticks + running .cool1 s.containers
  stage2 : t'.stage2Ticks = t.stage2Ticks + running .cool2 s.containers
  heat : t'.heatTicks = t.heatTicks + running .heat s.containers
  starts : t'.starts = t.starts + startsOf (flagsOf old) s.containers
  cooling : t'.cooling = flagsOf s

theorem observe_tree {old s : SiteState ℝ} {t : Tallies ℝ} (hflags : t.cooling = flagsOf old)
    (hlength : old.containers.length = s.containers.length) (hracks : s.racks ≠ []) (tick : Nat) :
    ∃ t', t.observe s tick = some t' ∧ Observed old s tick t t' := by
  obtain ⟨opening, hopening⟩ : ∃ opening : Tallies ℝ, opening =
      { t with
        ambientMinC := least t.ambientMinC s.weather.ambientC
        ambientMaxC := greatest t.ambientMaxC s.weather.ambientC } := ⟨_, rfl⟩
  have hremembers : opening.cooling = [] ++ flagsOf old := by rw [hopening]; exact hflags
  have hcount : (flagsOf old).length = s.containers.length := by rw [flagsOf, List.length_map, hlength]
  obtain ⟨walked, hwalk, hadded, hcooling⟩ := read_containers hremembers hcount
  obtain ⟨lo, hi, hminMax, hlo, hhi⟩ := minMax_readings RackState.cellTempC hracks
  have hcells : s.cellTempMinMaxC = (lo, hi) := by
    simp only [SiteState.cellTempMinMaxC, hminMax, Option.getD_some]
  have hobserve : t.observe s tick = some (if tick % 60 = 0 then
      { walked with
        cellMinC := least walked.cellMinC lo
        cellMaxC := greatest walked.cellMaxC hi } else walked) := by
    rw [List.length_nil] at hwalk
    rw [Tallies.observe, ← hopening, hwalk, Option.map_some, hcells]
    rfl
  obtain ⟨⟨hambientMin, hambientMax⟩, ⟨hcellMin, hcellMax⟩, hairMin, hairMax, hstage1, hstage2, hheat,
    hstarts⟩ := hadded
  rw [hopening] at hambientMin hambientMax hcellMin hcellMax hairMin hairMax hstage1 hstage2 hheat hstarts
  refine ⟨_, hobserve, ?_⟩
  by_cases hsweep : tick % 60 = 0
  · have hall : ∀ R : Set ℝ, {y | tick % 60 = 0 ∧ y ∈ R} = R := by simp [hsweep]
    rw [if_pos hsweep]
    constructor
    case cellMin =>
      intro S h
      rw [hall]
      apply lowest_union hlo
      rw [hcellMin]
      exact h
    case cellMax =>
      intro S h
      rw [hall]
      apply highest_union hhi
      rw [hcellMax]
      exact h
    all_goals assumption
  · have hnone : ∀ R : Set ℝ, {y | tick % 60 = 0 ∧ y ∈ R} = ∅ := by simp [hsweep]
    rw [if_neg hsweep]
    constructor
    case cellMin =>
      intro S h
      rw [hnone, Set.empty_union, hcellMin]
      exact h
    case cellMax =>
      intro S h
      rw [hnone, Set.empty_union, hcellMax]
      exact h
    all_goals assumption

section

variable (ref : Reference ℝ) (sim : Simulation ℝ)

/-- The tree after so many ticks. -/
noncomputable def tree (k : Nat) : SiteState ℝ := ((advance ref)^[k] sim).state

/-- What the tallies of a pass say. -/
structure Tallied (n : Nat) (t : Tallies ℝ) : Prop where
  ambientMin : Lowest {y | ∃ k < n, y = (tree ref sim (k + 1)).weather.ambientC} t.ambientMinC
  ambientMax : Highest {y | ∃ k < n, y = (tree ref sim (k + 1)).weather.ambientC} t.ambientMaxC
  airMin : Lowest {y | ∃ k < n, ∃ c ∈ (tree ref sim (k + 1)).containers, c.airTempC = y} t.airMinC
  airMax : Highest {y | ∃ k < n, ∃ c ∈ (tree ref sim (k + 1)).containers, c.airTempC = y} t.airMaxC
  cellMin : Lowest {y | ∃ k < n, k % 60 = 0 ∧ ∃ r ∈ (tree ref sim (k + 1)).racks, r.cellTempC = y} t.cellMinC
  cellMax : Highest {y | ∃ k < n, k % 60 = 0 ∧ ∃ r ∈ (tree ref sim (k + 1)).racks, r.cellTempC = y} t.cellMaxC
  stage1 : t.stage1Ticks = ∑ k ∈ Finset.range n, running .cool1 (tree ref sim (k + 1)).containers
  stage2 : t.stage2Ticks = ∑ k ∈ Finset.range n, running .cool2 (tree ref sim (k + 1)).containers
  heat : t.heatTicks = ∑ k ∈ Finset.range n, running .heat (tree ref sim (k + 1)).containers
  starts : t.starts = ∑ k ∈ Finset.range n,
    startsOf (flagsOf (tree ref sim k)) (tree ref sim (k + 1)).containers

/-- Readings up to a tick, and those of the tick. -/
theorem seen_succ (P : Nat → ℝ → Prop) (n : Nat) :
    {y | ∃ k < n + 1, P k y} = {y | P n y} ∪ {y | ∃ k < n, P k y} := by
  ext y
  simp only [Set.mem_ofPred_eq, Set.mem_union]
  constructor
  · rintro ⟨k, hk, hy⟩
    rcases Nat.lt_succ_iff_lt_or_eq.mp hk with hlt | rfl
    · exact Or.inr ⟨k, hlt, hy⟩
    · exact Or.inl hy
  · rintro (hy | ⟨k, hk, hy⟩)
    · exact ⟨n, Nat.lt_succ_self n, hy⟩
    · exact ⟨k, Nat.lt_succ_of_lt hk, hy⟩

theorem tallied_zero (containers : Nat) : Tallied ref sim 0 (.new containers) := by
  constructor <;> simp [Tallies.new, Lowest, Highest]

theorem tallied_succ {n : Nat} {t t' : Tallies ℝ} (h : Tallied ref sim n t)
    (ho : Observed (tree ref sim n) (tree ref sim (n + 1)) n t t') : Tallied ref sim (n + 1) t' := by
  constructor
  · rw [seen_succ fun k y => y = (tree ref sim (k + 1)).weather.ambientC, ho.ambientMin]
    exact lowest_insert h.ambientMin _
  · rw [seen_succ fun k y => y = (tree ref sim (k + 1)).weather.ambientC, ho.ambientMax]
    exact highest_insert h.ambientMax _
  · rw [seen_succ]
    exact ho.airMin _ h.airMin
  · rw [seen_succ]
    exact ho.airMax _ h.airMax
  · rw [seen_succ]
    exact ho.cellMin _ h.cellMin
  · rw [seen_succ]
    exact ho.cellMax _ h.cellMax
  · rw [Finset.sum_range_succ, ← h.stage1]
    exact ho.stage1
  · rw [Finset.sum_range_succ, ← h.stage2]
    exact ho.stage2
  · rw [Finset.sum_range_succ, ← h.heat]
    exact ho.heat
  · rw [Finset.sum_range_succ, ← h.starts]
    exact ho.starts

theorem runs_pass (h : Runs sim) (n : Nat) : Runs ((advance ref)^[n] sim) := by
  induction n with
  | zero => exact h
  | succ n ih =>
    rw [Function.iterate_succ_apply']
    exact (runs_step ih _).1

theorem tree_succ (h : Runs sim) (n : Nat) :
    List.Forall₂ UnitStep (tree ref sim n).containers (tree ref sim (n + 1)).containers := by
  rw [tree, tree, Function.iterate_succ_apply']
  exact (runs_step (runs_pass ref sim h n) _).2

/-- The pass does not index out of range, and its tallies are those of the trees. -/
theorem pass_tallied {containers : Nat} (h : Runs sim)
    (hflags : flagsOf sim.state = List.replicate containers false) (n : Nat) :
    ∃ t, tallyTicks ref n (sim, .new containers) = some ((advance ref)^[n] sim, t) ∧
      Tallied ref sim n t ∧ t.cooling = flagsOf (tree ref sim n) := by
  induction n with
  | zero => exact ⟨_, rfl, tallied_zero ref sim containers, hflags.symm⟩
  | succ n ih =>
    obtain ⟨t, hpass, htallied, hcooling⟩ := ih
    obtain ⟨-, hracks⟩ := runs_shape (runs_pass ref sim h (n + 1))
    obtain ⟨t', hobserve, hobserved⟩ :=
      observe_tree hcooling (tree_succ ref sim h n).length_eq hracks n
    refine ⟨t', ?_, tallied_succ ref sim htallied hobserved, hobserved.cooling⟩
    have hstep : tallyTick ref ((advance ref)^[n] sim, t) n = some ((advance ref)^[n + 1] sim, t') := by
      rw [tree, Function.iterate_succ_apply'] at hobserve
      rw [Function.iterate_succ_apply']
      simp only [tallyTick]
      rw [← advance, hobserve]
      rfl
    rw [tallyTicks] at hpass ⊢
    rw [List.range_succ, List.foldlM_append, hpass]
    simp [hstep]

/-- Steps that pay for what they owe settle it over a run. -/
theorem run_paid {a b p : Nat → ℝ} (h : ∀ k, a k + p k ≤ b k + p (k + 1)) (n : Nat) :
    ∑ k ∈ Finset.range n, a k + p 0 ≤ ∑ k ∈ Finset.range n, b k + p n := by
  induction n with
  | zero => simp
  | succ n ih =>
    rw [Finset.sum_range_succ, Finset.sum_range_succ]
    linarith [h n]

theorem starts_paid {f g : ContainerState ℝ → ℝ} (h : Runs sim)
    (hunit : ∀ c c', UnitOk c → UnitStep c c' →
      180 * (if started c c' then 1 else 0) + f c ≤ g c' + f c')
    (hdue : ∀ c, UnitOk c → 0 ≤ f c ∧ f c ≤ 180) (n : Nat) :
    180 * ∑ k ∈ Finset.range n,
        (startsOf (flagsOf (tree ref sim k)) (tree ref sim (k + 1)).containers : ℝ) ≤
      ∑ k ∈ Finset.range n, due g (tree ref sim (k + 1)).containers + 7200 := by
  have hstep : ∀ k, 180 * (startsOf (flagsOf (tree ref sim k)) (tree ref sim (k + 1)).containers : ℝ) +
      due f (tree ref sim k).containers ≤
        due g (tree ref sim (k + 1)).containers + due f (tree ref sim (k + 1)).containers := by
    intro k
    apply units_paid
    have hunits := tree_succ ref sim h k
    rw [List.forall₂_iff_get] at hunits ⊢
    obtain ⟨hlength, hpairs⟩ := hunits
    refine ⟨hlength, fun i hi hi' => ?_⟩
    exact hunit _ _ ((runs_pass ref sim h k).units _ (List.get_mem _ _)) (hpairs i hi hi')
  have hrun := run_paid hstep n
  have hfirst : 0 ≤ due f (tree ref sim 0).containers :=
    (due_le fun c hc => hdue c (h.units c hc)).1
  have hlast : due f (tree ref sim n).containers ≤ 7200 := by
    have hn := runs_pass ref sim h n
    have hle := (due_le fun c hc => hdue c (hn.units c hc)).2
    rw [(runs_shape hn).1] at hle
    norm_num at hle
    exact hle
  rw [← Finset.mul_sum] at hrun
  linarith

end

/-- The HVAC books of a pass over a new plant, for any reference, EMS strategy, seed,
start and length. The pass goes through, and its tallies are the extremes and counts of
the trees it walked. The starts it counts are those its seconds of cooling pay for, 180
each, and those its seconds of rest pay for, but for one dwell a unit. -/
theorem hvac_tallied (ref : Reference ℝ) (ems : EmsStrategy ℝ) (seed : UInt64) (t0 : Int) (n : Nat) :
    let sim := Simulation.new .gw01 (gw01Models .gw01 ems) seed t0
    ∃ t, tallyTicks ref n (sim, .new 40) = some ((advance ref)^[n] sim, t) ∧
      Tallied ref sim n t ∧
      t.stage1Ticks + t.stage2Ticks + t.heatTicks ≤ 40 * n ∧
      180 * t.starts ≤ t.stage1Ticks + t.stage2Ticks + 7200 ∧
      180 * t.starts + t.stage1Ticks + t.stage2Ticks ≤ 40 * n + 7200 := by
  intro sim
  have hruns : Runs sim := runs_new ems seed t0
  have hflags : flagsOf sim.state = List.replicate 40 false := by
    rw [List.eq_replicate_iff]
    constructor
    · rw [flagsOf, List.length_map]
      exact (runs_shape hruns).1
    · intro flag hflag
      obtain ⟨c, hc, rfl⟩ := List.mem_map.mp hflag
      rw [units_new .gw01 seed t0 c hc]
      rfl
  obtain ⟨t, hpass, htallied, -⟩ := pass_tallied ref sim hruns hflags n
  have hcooled : t.stage1Ticks + t.stage2Ticks =
      ∑ k ∈ Finset.range n, cooling (tree ref sim (k + 1)).containers := by
    rw [htallied.stage1, htallied.stage2, ← Finset.sum_add_distrib]
    exact Finset.sum_congr rfl fun k _ => (cooling_eq _).symm
  have hpaid := starts_paid ref sim hruns (fun _ _ => unit_cooled) (fun _ => runDue_mem) n
  have hrested := starts_paid ref sim hruns (fun _ _ => unit_rested) (fun _ => restDue_mem) n
  refine ⟨t, hpass, htallied, ?_, ?_, ?_⟩
  · rw [hcooled, htallied.heat, ← Finset.sum_add_distrib]
    calc _ ≤ ∑ _k ∈ Finset.range n, 40 := by
          apply Finset.sum_le_sum
          intro k _
          have hle := running_le (tree ref sim (k + 1)).containers
          rw [tree, (runs_shape (runs_pass ref sim hruns (k + 1))).1, ← cooling_eq] at hle
          exact hle
      _ = 40 * n := by simp [Nat.mul_comm]
  · rw [hcooled, htallied.starts]
    rw [Finset.sum_congr rfl fun k _ => (due_cooling _).1] at hpaid
    exact_mod_cast hpaid
  · rw [Nat.add_assoc, hcooled, htallied.starts]
    have hforty : ∀ k, due (fun c => if c.hvac.mode.cools then 0 else 1) (tree ref sim (k + 1)).containers =
        40 - (cooling (tree ref sim (k + 1)).containers : ℝ) := by
      intro k
      rw [(due_cooling _).2, tree, (runs_shape (runs_pass ref sim hruns (k + 1))).1]
      rfl
    rw [Finset.sum_congr rfl fun k _ => hforty k, Finset.sum_sub_distrib, Finset.sum_const,
      Finset.card_range, nsmul_eq_mul] at hrested
    have hreal : (180 : ℝ) * ∑ k ∈ Finset.range n,
        (startsOf (flagsOf (tree ref sim k)) (tree ref sim (k + 1)).containers : ℝ) +
          ∑ k ∈ Finset.range n, (cooling (tree ref sim (k + 1)).containers : ℝ) ≤ 40 * n + 7200 := by
      linarith
    exact_mod_cast hreal

end BessHvac
