import BessEmulator.Played

/-!
# Resuming in the gap

Between the firing of a tick and its step the tree already carries the tick's
actions, but its clock does not say so. A run resumed from there looks the
cursor up by the clock and fires them again.
-/
namespace BessGap

open Bess BessCheckpoint BessAccepted BessMarks

variable {F : Type} [Scalar F]

/-- The plant in the gap of the tick ahead: fired, not yet stepped. -/
def gap (p : Play F) : Simulation F := (p.player.fireDue p.sim).2.1

/-- A run resumed from the tree in the gap, however it goes on, hands out
what the uninterrupted one does, every scheduled mark once, and ends like it. -/
def AppliesOnce (r : Resolved F) (cfg : PlantConfig F) (models : Models F)
    (weather : Int → Inputs F) (before : List (Op F)) : Prop :=
  let start := r.play cfg models
  let saved := (gap (start.run weather before)).state
  ∃ sim, r.resume cfg models saved = .ok sim ∧
    let resumed : Play F := ⟨sim, (Player.new r).catchUp saved.tick⟩
    ∀ later : List (Op F),
      (handedTicks weather start before ++ handedTicks weather resumed (.tick :: later)).map marks =
        List.zipWith (· ++ ·) (operatorMarks cfg [] (before ++ .tick :: later))
          (scheduleMarks cfg r 0 (ticksOf (before ++ .tick :: later))) ∧
      (resumed.run weather (.tick :: later)).sim.state =
        (start.run weather (before ++ .tick :: later)).sim.state

theorem handedTicks_append (weather : Int → Inputs F) (p : Play F) (as bs : List (Op F)) :
    handedTicks weather p (as ++ bs) =
      handedTicks weather p as ++ handedTicks weather (p.run weather as) bs := by
  induction as generalizing p with
  | nil => rfl
  | cons op as ih =>
    cases op with
    | command c => exact ih _
    | tick => exact congrArg (List.cons _) (ih _)

theorem together_handed (weather : Int → Inputs F) {p q : Play F} (h : Together p q)
    (ops : List (Op F)) : handedTicks weather p ops = handedTicks weather q ops := by
  induction ops generalizing p q with
  | nil => rfl
  | cons op ops ih =>
    have hrest := ih (together_op weather h op)
    cases op with
    | command c => exact hrest
    | tick => exact congrArg₂ List.cons (together_tick weather h).2 hrest

section

variable {scenario : Scenario F} {params : RunParams F} {cfg : PlantConfig F} {models : Models F}
  {m : SiteMeta} {n : Nat} {p : Play F}
  (h : OnTime (scenario.resolve params) ((scenario.resolve params).simulation cfg models).plant
    m n p)
include h

/-- The tree in the gap, under the cursor its clock stands for. -/
theorem onTime_gap :
    OnTime (scenario.resolve params) ((scenario.resolve params).simulation cfg models).plant m n
      ⟨gap p, (Player.new (scenario.resolve params)).catchUp n⟩ := by
  obtain ⟨htick, hmeta⟩ := fire_clock p.player p.sim
  have hsound : Sound (gap p) := by
    rw [gap, fireDue_sim]
    exact sound_run h.sound _
  have hplant : (gap p).plant = p.sim.plant := by
    rw [gap, fireDue_sim]
    exact run_plant h.sound _
  exact
    { sound := hsound
      plant := hplant.trans h.plant
      identity := hmeta.trans h.identity
      clock := htick.trans h.clock
      schedule := rfl
      cursor := catchUp_eq scenario params n }

/-- The marks that wait in the gap: the operator's, then the tick's own. -/
theorem marks_gap : marks (gap p).state.pendingEvents =
    marks p.sim.state.pendingEvents ++
      dueMarks cfg ((scenario.resolve params).schedule.filter fun s => decide (s.tick = n)) := by
  have hcfg : p.sim.cfg = cfg := congrArg Plant.cfg h.plant
  rw [gap, fireDue_sim, marks_fire h.sound, due_now (schedule_sorted scenario params) h, hcfg]

/-- With no action due, the gap is where the run stands. -/
theorem gap_eq (hnone : ∀ s ∈ (scenario.resolve params).schedule, s.tick = n → actionOf s = none) :
    gap p = p.sim := by
  have hmoves : ((scenario.resolve params).schedule.filter
      fun s => decide (s.tick = n)).filterMap moveOf = [] := by
    rw [List.filterMap_eq_nil_iff]
    intro s hs
    obtain ⟨hmem, ht⟩ := List.mem_filter.mp hs
    have hs := hnone s hmem (of_decide_eq_true ht)
    cases hd : s.due with
    | data fault => rw [moveOf, hd]
    | physical action => rw [actionOf, hd] at hs; cases hs
  rw [gap, fireDue_sim, due_now (schedule_sorted scenario params) h, hmoves]
  rfl

end

omit [Scalar F] in
/-- On nodes the plant has, entries leave no mark only if none of them acts. -/
theorem dueMarks_nil {cfg : PlantConfig F} {ss : List (Scheduled F)}
    (hex : ∀ s ∈ ss, ∀ a, s.due = .physical a → (Target.of a).Exists cfg) :
    dueMarks cfg ss = [] ↔ ∀ s ∈ ss, actionOf s = none := by
  simp only [dueMarks, List.filter_eq_nil_iff, List.mem_filterMap, forall_exists_index, and_imp]
  constructor
  · intro h s hs
    cases hd : s.due with
    | data fault => rw [actionOf, hd]
    | physical action =>
      have hact : actionOf s = some action := by rw [actionOf, hd]
      exact absurd ((accepts_iff cfg action).mpr (hex s hs action hd)) (h action s hs hact)
  · intro h a s hs ha
    rw [h s hs] at ha
    cases ha

/-- Resumed in the gap, a run applies each action once exactly when the tick
it was saved at has none. -/
theorem appliesOnce_iff (scenario : Scenario F) (params : RunParams F) (cfg : PlantConfig F)
    (models : Models F) (weather : Int → Inputs F) (before : List (Op F))
    (hex : ∀ s ∈ (scenario.resolve params).schedule, ∀ a, s.due = .physical a →
      (Target.of a).Exists cfg) :
    AppliesOnce (scenario.resolve params) cfg models weather before ↔
      ∀ s ∈ (scenario.resolve params).schedule, s.tick = ticksOf before → actionOf s = none := by
  set r := scenario.resolve params with hr
  have hsorted := schedule_sorted scenario params
  have hstart := onTime_play r cfg models
  have hstop := onTime_run weather hstart before
  rw [Nat.zero_add] at hstop
  set stopped := (r.play cfg models).run weather before with hstopped
  have hgap := onTime_gap hstop
  have hresume : r.resume cfg models (gap stopped).state =
      .ok (Simulation.fromState cfg models (gap stopped).state) := resume_ok r cfg models hgap
  have hclock : (gap stopped).state.tick = ticksOf before := hgap.clock
  have hexpected : ∀ later : List (Op F),
      List.zipWith (· ++ ·) (operatorMarks cfg [] (before ++ .tick :: later))
          (scheduleMarks cfg r 0 (ticksOf (before ++ .tick :: later))) =
        (handedTicks weather (r.play cfg models) before ++
          handedTicks weather stopped (.tick :: later)).map marks := by
    intro later
    rw [hstopped, ← handedTicks_append]
    exact (marks_handed hsorted hstart weather _).symm
  have hends : ∀ later : List (Op F), (r.play cfg models).run weather (before ++ .tick :: later) =
      stopped.run weather (.tick :: later) := fun later => List.foldl_append
  have hfiltered : ∀ s ∈ r.schedule.filter (fun s => decide (s.tick = ticksOf before)),
      ∀ a, s.due = .physical a → (Target.of a).Exists cfg :=
    fun s hs => hex s (List.mem_filter.mp hs).1
  have hnone : (∀ s ∈ r.schedule, s.tick = ticksOf before → actionOf s = none) ↔
      dueMarks cfg (r.schedule.filter fun s => decide (s.tick = ticksOf before)) = [] := by
    rw [dueMarks_nil hfiltered]
    simp only [List.mem_filter, decide_eq_true_eq, and_imp]
  constructor
  · rintro ⟨sim, hsim, hall⟩
    obtain rfl : Simulation.fromState cfg models (gap stopped).state = sim :=
      Except.ok.inj (hresume.symm.trans hsim)
    have hmarks := (hall []).1
    have htogether := together_handed weather (together_resumed scenario params cfg models hgap)
      [.tick]
    -- the resumed tick fires the tick's entries on top of those that wait
    have hfirst := (marks_tick hsorted hgap weather).1
    have hplain := (marks_tick hsorted hstop weather).1
    rw [hexpected, List.map_append, List.map_append, hclock, ← htogether] at hmarks
    have htick := List.append_cancel_left hmarks
    simp only [handedTicks, List.map_cons, List.map_nil, List.cons.injEq, and_true] at htick
    rw [hfirst, hplain, marks_gap hstop] at htick
    rw [hnone]
    exact List.append_right_eq_self.mp htick
  · intro hact
    have hsame : gap stopped = stopped.sim := gap_eq hstop hact
    have htogether := together_resumed scenario params cfg models hstop
    refine ⟨_, hresume, fun later => ?_⟩
    rw [hclock, hsame, hexpected, hends, together_handed weather htogether]
    exact ⟨rfl, (together_run weather htogether _).sim.state.symm⟩

/-- A scenario the plant accepts, resumed from the tree saved in the gap of a
tick, applies each action once exactly when that tick has none. -/
theorem gap_applies_once {file : File F} {cfg : PlantConfig F} {hash : UInt64}
    {scenario : Scenario F} (h : validate file cfg hash = .ok scenario) (params : RunParams F)
    (models : Models F) (weather : Int → Inputs F) (before : List (Op F)) :
    AppliesOnce (scenario.resolve params) cfg models weather before ↔
      ∀ s ∈ (scenario.resolve params).schedule, s.tick = ticksOf before → actionOf s = none :=
  appliesOnce_iff scenario params cfg models weather before (accepted_exists h params)

/-- A setpoint, then five ticks of the shift: at the sixth only the dropout is due, and the run
resumed there fires every trip and outage once. -/
theorem gap_applies_once_shift :
    AppliesOnce (shiftScenario.resolve ⟨42, 1767225600, 1⟩) PlantConfig.gw01
      (Reference.idle.models PlantConfig.gw01) Reference.idle.inputsAt
      (.command (.setExternalSetpointW (some (-40000000))) :: List.replicate 5 .tick) := by
  have h : validate shiftFile PlantConfig.gw01 1 = .ok shiftScenario := rfl
  apply (gap_applies_once h _ _ _ _).mpr
  intro s hs ht
  rw [Scenario.resolve, List.mem_mergeSort] at hs
  obtain ⟨e, he, rfl⟩ := List.mem_map.mp hs
  change e.atS / 1 = 5 at ht
  simp only [shiftScenario, List.mem_cons, List.not_mem_nil, or_false] at he
  rcases he with rfl | rfl | rfl | rfl | rfl | rfl
  all_goals first | rfl | cases ht

/-- A file of one event: block 3 trips ten seconds into its minute. -/
def tripFile : File ℝ where
  schema := ⟨1, 1, 9⟩
  name := ⟨"pcs-trip", 2, 7⟩
  seed := none
  start := none
  speed := none
  length := some ⟨"PT1M", 3, 9⟩
  events :=
    [⟨{ «at» := "PT10S"
        target := some "block[3].pcs"
        surface := none
        fault := "trip"
        duration := none
        ratePctPerMonth := none
        points := none
        exponent := none
        ratePerMin := none
        driftSPerH := none }, 5, 5⟩]

def tripScenario : Scenario ℝ where
  id := ⟨"pcs-trip", 1⟩
  seed := none
  startUnixS := none
  speed := none
  lengthS := some 60
  events := [⟨0, 10, .physical (.pcs 3) (.ready (.pcsTrip 3))⟩]

/-- Block 3's trip, under the idle reference plant. -/
noncomputable def tripRun (before : List (Op ℝ)) : Prop :=
  AppliesOnce (tripScenario.resolve ⟨42, 1767225600, 1⟩) PlantConfig.gw01
    (Reference.idle.models PlantConfig.gw01) Reference.idle.inputsAt before

theorem trip_schedule : (tripScenario.resolve ⟨42, 1767225600, 1⟩).schedule =
    [⟨0, 10, 10, .physical (.pcsTrip 3)⟩] := by
  have hone : tripScenario.events.map (ScenarioEvent.scheduled ⟨42, 1767225600, 1⟩) =
      [⟨0, 10, 10, .physical (.pcsTrip 3)⟩] := rfl
  rw [Scenario.resolve, hone, List.mergeSort_singleton]

/-- Saved after the trip of tick 10 has fired and resumed, the run trips the PCS again. -/
theorem gap_trips_twice : validate tripFile PlantConfig.gw01 1 = .ok tripScenario ∧
    ¬ tripRun (List.replicate 10 .tick) := by
  refine ⟨rfl, fun hrun => ?_⟩
  have h : validate tripFile PlantConfig.gw01 1 = .ok tripScenario := rfl
  have hnone := (appliesOnce_iff _ _ _ _ _ _ (accepted_exists h _)).mp hrun
    ⟨0, 10, 10, .physical (.pcsTrip 3)⟩ (by rw [trip_schedule]; exact List.mem_singleton_self _) rfl
  cases hnone

end BessGap
