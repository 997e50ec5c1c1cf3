import BessEmulator.Checkpoint
import BessEmulator.Viewer

/-!
# However the viewer moves the plant

Frames, jumps and speeds only say when a tick runs, never what it does: what a
session shows is a run of the plant it started, its journal that run's, and a
jump split over frames is the run without one.
-/
namespace BessViewer

open Bess Bess.Viewer BessJournal

variable {F : Type} [Scalar F] (weather : Int → Inputs F)

omit [Scalar F] in
theorem time_of_clock {s t : SiteState F} {n : Nat} (htick : s.tick = t.tick + n)
    (hmeta : s.siteMeta = t.siteMeta) : s.unixTimeS = t.unixTimeS + n := by
  rw [SiteState.unixTimeS, SiteState.unixTimeS, htick, hmeta]
  push_cast
  ring

/-- Firing moves neither the clock nor the identity. -/
theorem fireDue_clock (run : Run F) : run.fireDue.sim.state.tick = run.sim.state.tick ∧
    run.fireDue.sim.state.siteMeta = run.sim.state.siteMeta := by
  rw [Run.fireDue]
  cases run.story with
  | none => exact ⟨rfl, rfl⟩
  | some story => exact BessCheckpoint.fire_clock story.player run.sim

theorem recordStep_sim (sim : Simulation F) (journal : Journal) :
    (recordStep weather sim journal).1 = sim.step (weather sim.state.unixTimeS) := by
  rw [recordStep]
  split <;> rfl

/-- A tick is one second. -/
theorem tick_clock (v : Run F × Journal) :
    (Run.tick weather v).1.sim.state.tick = v.1.sim.state.tick + 1 ∧
      (Run.tick weather v).1.sim.state.siteMeta = v.1.sim.state.siteMeta := by
  obtain ⟨htick, hmeta⟩ := fireDue_clock v.1
  have hsim : (Run.tick weather v).1.sim =
      v.1.fireDue.sim.step (weather v.1.fireDue.sim.state.unixTimeS) :=
    recordStep_sim weather v.1.fireDue.sim v.2
  rw [hsim]
  exact ⟨congrArg (· + 1) htick, hmeta⟩

theorem ticks_clock (n : Nat) (v : Run F × Journal) :
    ((Run.tick weather)^[n] v).1.sim.state.tick = v.1.sim.state.tick + n ∧
      ((Run.tick weather)^[n] v).1.sim.state.siteMeta = v.1.sim.state.siteMeta := by
  induction n generalizing v with
  | zero => exact ⟨rfl, rfl⟩
  | succ n ih =>
    obtain ⟨htick, hmeta⟩ := ih (Run.tick weather v)
    obtain ⟨htick', hmeta'⟩ := tick_clock weather v
    rw [Function.iterate_succ_apply, htick, htick', hmeta, hmeta']
    exact ⟨by omega, rfl⟩

theorem ticks_time (n : Nat) (v : Run F × Journal) :
    ((Run.tick weather)^[n] v).1.unixTimeS = v.1.unixTimeS + n := by
  obtain ⟨htick, hmeta⟩ := ticks_clock weather n v
  exact time_of_clock htick hmeta

/-- Seconds a jump has still to go. -/
def distance (jump : FastForward) (run : Run F) : Nat := (jump.targetUnixS - run.unixTimeS).toNat

/-- A slice of a jump is that many ticks of a plain run, or those to the target. -/
theorem advance_eq (jump : FastForward) (budget : Nat) (v : Run F × Journal) :
    jump.advance weather budget v = ((Run.tick weather)^[min budget (distance jump v.1)] v,
      decide (distance jump v.1 ≤ budget)) := by
  induction budget generalizing v with
  | zero =>
    rw [FastForward.advance, Nat.zero_min, Function.iterate_zero_apply, distance]
    refine Prod.ext rfl (decide_eq_decide.mpr ?_)
    omega
  | succ budget ih =>
    rw [FastForward.advance]
    split
    · next harrived =>
      have hzero : distance jump v.1 = 0 := by
        rw [distance]
        omega
      rw [hzero, Nat.min_zero, Function.iterate_zero_apply, decide_eq_true (Nat.zero_le _)]
    · next hahead =>
      have hnext : distance jump (Run.tick weather v).1 + 1 = distance jump v.1 := by
        have htime := ticks_time weather 1 v
        rw [Function.iterate_one] at htime
        rw [distance, distance, htime]
        omega
      rw [ih, ← hnext, Nat.add_min_add_right, Function.iterate_succ_apply]
      refine Prod.ext rfl (decide_eq_decide.mpr ?_)
      omega

variable {weather}

/-- The session during a jump, after some of its ticks. -/
theorem advance_jump (site : Site F) {s : Session F} {jump : FastForward} (hjump : s.jump = some jump)
    (dtS : F) : s.advance site dtS =
      if distance jump s.run ≤ JUMP_TICKS_PER_FRAME then
        { s.tickTimes site.inputsAt (distance jump s.run) with jump := none, tickAccum := 0 }
      else s.tickTimes site.inputsAt JUMP_TICKS_PER_FRAME := by
  rw [Session.advance, hjump]
  simp only [advance_eq]
  split
  · next harrived =>
    rw [decide_eq_true_eq] at harrived
    rw [if_pos harrived, min_eq_right harrived]
    rfl
  · next hahead =>
    rw [decide_eq_true_eq] at hahead
    rw [if_neg hahead, min_eq_left (not_le.mp hahead).le, Session.tickTimes, hjump]

/-- The session without a jump: so many ticks against the wall clock. -/
theorem advance_wall (site : Site F) {s : Session F} (hjump : s.jump = none) (dtS : F) :
    let tickAccum := s.tickAccum + min dtS 0.25 * s.speed
    let ticks := min (Scalar.trunc tickAccum).toNat MAX_TICKS_PER_FRAME
    s.advance site dtS =
      Session.tickTimes site.inputsAt ticks { s with tickAccum := max (tickAccum - (ticks : F)) 0 } := by
  intro tickAccum ticks
  rw [Session.advance, hjump]

theorem tickTimes_jump (n : Nat) (s : Session F) : (s.tickTimes weather n).jump = s.jump := rfl

/-- Ticks in a row are ticks in a row. -/
theorem tickTimes_add (m n : Nat) (s : Session F) :
    (s.tickTimes weather m).tickTimes weather n = s.tickTimes weather (m + n) := by
  simp only [Session.tickTimes, Nat.add_comm m n, Function.iterate_add_apply]

theorem tickTimes_distance (jump : FastForward) (n : Nat) (s : Session F) :
    distance jump (s.tickTimes weather n).run = distance jump s.run - n := by
  have htime := ticks_time weather n (s.run, s.journal)
  rw [distance, distance]
  change (jump.targetUnixS - ((Run.tick weather)^[n] (s.run, s.journal)).1.unixTimeS).toNat = _
  rw [htime]
  change (jump.targetUnixS - (s.run.unixTimeS + n)).toNat = _
  omega

/-- Frames that do not reach the target are so many ticks. -/
theorem frames_short (site : Site F) {s : Session F} {jump : FastForward} (hjump : s.jump = some jump)
    (dts : List F) (hshort : dts.length * JUMP_TICKS_PER_FRAME < distance jump s.run) :
    s.inputs site (dts.map .frame) = s.tickTimes site.inputsAt (dts.length * JUMP_TICKS_PER_FRAME) := by
  induction dts generalizing s with
  | nil =>
    rw [List.length_nil, Nat.zero_mul]
    rfl
  | cons dt dts ih =>
    rw [List.length_cons, Nat.succ_mul] at hshort
    have hframe : s.input site (.frame dt) = s.tickTimes site.inputsAt JUMP_TICKS_PER_FRAME := by
      rw [Session.input, advance_jump site hjump, if_neg (by omega)]
    have hstill : (s.tickTimes site.inputsAt JUMP_TICKS_PER_FRAME).jump = some jump := by
      rw [tickTimes_jump, hjump]
    have hrest := ih hstill (by rw [tickTimes_distance]; omega)
    rw [Session.inputs] at hrest
    rw [List.map_cons, Session.inputs, List.foldl_cons, hframe, hrest, tickTimes_add,
      List.length_cons, Nat.succ_mul, Nat.add_comm]

/-- The frame that reaches the target ends the jump there. -/
theorem frames_arrive (site : Site F) {s : Session F} {jump : FastForward} (hjump : s.jump = some jump)
    (front : List F) (last : F) (hshort : front.length * JUMP_TICKS_PER_FRAME < distance jump s.run)
    (hreach : distance jump s.run ≤ (front.length + 1) * JUMP_TICKS_PER_FRAME) :
    s.inputs site ((front ++ [last]).map .frame) =
      { s.tickTimes site.inputsAt (distance jump s.run) with jump := none, tickAccum := 0 } := by
  rw [Nat.succ_mul] at hreach
  have hfront := frames_short site hjump front hshort
  have hstill : (s.tickTimes site.inputsAt (front.length * JUMP_TICKS_PER_FRAME)).jump = some jump := by
    rw [tickTimes_jump, hjump]
  have hsum : front.length * JUMP_TICKS_PER_FRAME +
      (distance jump s.run - front.length * JUMP_TICKS_PER_FRAME) = distance jump s.run := by
    omega
  rw [Session.inputs] at hfront
  rw [List.map_append, Session.inputs, List.foldl_append, hfront, List.map_singleton, List.foldl_cons,
    List.foldl_nil, Session.input, advance_jump site hstill, tickTimes_distance, if_pos (by omega),
    tickTimes_add, hsum]

/-- What a jump's frames have run, and whether there is more to come. -/
theorem frames_jump (site : Site F) {s : Session F} {jump : FastForward} (hjump : s.jump = some jump)
    (hahead : s.run.unixTimeS < jump.targetUnixS) (dts : List F)
    (hframes : dts.length * JUMP_TICKS_PER_FRAME < distance jump s.run + JUMP_TICKS_PER_FRAME) :
    let n := min (dts.length * JUMP_TICKS_PER_FRAME) (distance jump s.run)
    let shown := s.inputs site (dts.map .frame)
    (shown.run, shown.journal) = (Run.tick site.inputsAt)^[n] (s.run, s.journal) ∧
      shown.jump = if n < distance jump s.run then some jump else none := by
  intro n shown
  have hpos : 0 < distance jump s.run := by
    rw [distance]
    omega
  rcases Nat.lt_or_ge (dts.length * JUMP_TICKS_PER_FRAME) (distance jump s.run) with hshort | hreach
  · have hn : n = dts.length * JUMP_TICKS_PER_FRAME := min_eq_left hshort.le
    have hshown : shown = s.tickTimes site.inputsAt n := by
      rw [hn]
      exact frames_short site hjump dts hshort
    rw [hshown, if_pos (by omega), tickTimes_jump]
    exact ⟨rfl, hjump⟩
  · have hn : n = distance jump s.run := min_eq_right hreach
    rcases List.eq_nil_or_concat dts with hnil | ⟨front, last, hlast⟩
    · rw [hnil, List.length_nil] at hreach
      omega
    · rw [List.concat_eq_append] at hlast
      rw [hlast, List.length_append, List.length_singleton, Nat.succ_mul] at hframes
      rw [hlast, List.length_append, List.length_singleton] at hreach
      have hshown : shown = { s.tickTimes site.inputsAt n with jump := none, tickAccum := 0 } := by
        rw [hn, ← frames_arrive site hjump front last (by omega) hreach, ← hlast]
      rw [hshown, if_neg (by omega)]
      exact ⟨rfl, rfl⟩

/-- A jump is the run it skips. However many frames it has been shown for, and however long each
of them, the plant has run the ticks of so many slices and no other; the frame that spends the
last of them stands at the target, the jump over. -/
theorem jump_is_run (site : Site F) {s : Session F} {jump : FastForward} (hjump : s.jump = some jump)
    (hahead : s.run.unixTimeS < jump.targetUnixS) (dts : List F)
    (hframes : dts.length * JUMP_TICKS_PER_FRAME < distance jump s.run + JUMP_TICKS_PER_FRAME) :
    let n := min (dts.length * JUMP_TICKS_PER_FRAME) (distance jump s.run)
    let shown := s.inputs site (dts.map .frame)
    (shown.run, shown.journal) = (Run.tick site.inputsAt)^[n] (s.run, s.journal) ∧
      shown.jump = (if n < distance jump s.run then some jump else none) ∧
      shown.run.unixTimeS = min (s.run.unixTimeS + dts.length * JUMP_TICKS_PER_FRAME) jump.targetUnixS := by
  intro n shown
  obtain ⟨hticks, hstill⟩ := frames_jump site hjump hahead dts hframes
  have hdistance : s.run.unixTimeS + distance jump s.run = jump.targetUnixS := by
    rw [distance]
    omega
  have hrun : shown.run = ((Run.tick site.inputsAt)^[n] (s.run, s.journal)).1 := congrArg Prod.fst hticks
  refine ⟨hticks, hstill, ?_⟩
  rw [hrun, ticks_time, ← hdistance]
  change s.run.unixTimeS + ((min _ _ : Nat) : Int) = _
  omega

/-- Two frames of a jump of four thousand seconds, on the opening morning. -/
theorem jump_is_run_opening :
    let site : Site ℝ := { Reference.idle with library := fun _ _ => none }
    let opening := Session.new site PlantConfig.gw01
    let jump : FastForward := ⟨opening.run.unixTimeS, opening.run.unixTimeS + 4000⟩
    let s := { opening with jump := some jump }
    (s.inputs site ([0.1, 0.1].map .frame)).run.unixTimeS = opening.run.unixTimeS + 4000 := by
  intro site opening jump s
  have hdistance : distance jump s.run = 4000 := by
    rw [distance]
    change (opening.run.unixTimeS + 4000 - opening.run.unixTimeS).toNat = 4000
    omega
  have hahead : s.run.unixTimeS < jump.targetUnixS := by
    change opening.run.unixTimeS < opening.run.unixTimeS + 4000
    omega
  have hframes : [(0.1 : ℝ), 0.1].length * JUMP_TICKS_PER_FRAME <
      distance jump s.run + JUMP_TICKS_PER_FRAME := by
    rw [hdistance]
    decide
  have hjump : s.jump = some jump := rfl
  obtain ⟨-, -, harrived⟩ := jump_is_run site hjump hahead [0.1, 0.1] hframes
  rw [harrived, min_eq_right]
  change opening.run.unixTimeS + 4000 ≤ opening.run.unixTimeS + (2 : Nat) * ((3000 : Nat) : Int)
  omega

/-- The plant under its player; without a story there is nothing to fire. -/
def playOf (run : Run F) : Play F where
  sim := run.sim
  player :=
    match run.story with
    | some story => story.player
    | none => ⟨[], 0⟩

/-- A plant as a session builds one: idle on some date at the session's seed, or a
case's, whose file has the last word on seed and start. -/
inductive Started (site : Site F) (cfg : PlantConfig F) : Run F → Prop
  | plain (unixS : Int) :
    Started site cfg (Run.plain (Simulation.new cfg (site.models cfg) Session.SEED unixS))
  | playing (scenario : Scenario F) (unixS : Int) (speed : F) :
    Started site cfg (Run.playing
      (scenario.resolve ⟨scenario.seed.getD Session.SEED, scenario.startUnixS.getD unixS, speed⟩)
      cfg (site.models cfg))

/-- Every event the ticks of a run hand out, each with its tick's time. -/
def datedTicks (weather : Int → Inputs F) : Play F → List (Op F) → List (Event × Int)
  | _, [] => []
  | p, .command c :: ops => datedTicks weather (p.op weather (.command c)) ops
  | p, .tick :: ops =>
    ((p.tick weather).sim.events.map fun e => (e, (p.tick weather).sim.state.unixTimeS)) ++
      datedTicks weather (p.tick weather) ops

/-- What is shown is the run of some operations from a start, and the journal that run's. -/
structure Shows (weather : Int → Inputs F) (start : Run F) (ops : List (Op F)) (v : Run F × Journal) :
    Prop where
  play : playOf v.1 = (playOf start).run weather ops
  resolved : v.1.story.map Story.resolved = start.story.map Story.resolved
  plant : v.1.sim.plant = start.sim.plant
  clock : v.1.sim.state.tick = ticksOf ops
  sound : Sound v.1.sim
  journal : Mirrors (datedTicks weather (playOf start) ops) v.2
  count : v.1.sim.state.eventLog.count = (datedTicks weather (playOf start) ops).length

variable (weather)

theorem run_concat (p : Play F) (ops : List (Op F)) (op : Op F) :
    p.run weather (ops ++ [op]) = (p.run weather ops).op weather op := by
  rw [Play.run, List.foldl_append]
  rfl

theorem datedTicks_command (p : Play F) (ops : List (Op F)) (c : Command F) :
    datedTicks weather p (ops ++ [.command c]) = datedTicks weather p ops := by
  induction ops generalizing p with
  | nil => rfl
  | cons op ops ih =>
    cases op with
    | command c' => exact ih _
    | tick => rw [List.cons_append, datedTicks, datedTicks, ih]

theorem datedTicks_tick (p : Play F) (ops : List (Op F)) :
    datedTicks weather p (ops ++ [.tick]) = datedTicks weather p ops ++
      ((p.run weather ops).tick weather).sim.events.map fun e =>
        (e, ((p.run weather ops).tick weather).sim.state.unixTimeS) := by
  induction ops generalizing p with
  | nil =>
    rw [List.nil_append, datedTicks, datedTicks, datedTicks, List.append_nil, List.nil_append]
    rfl
  | cons op ops ih =>
    cases op with
    | command c => exact ih _
    | tick =>
      rw [List.cons_append, datedTicks, datedTicks, ih, List.append_assoc]
      rfl

omit [Scalar F] in
/-- What the log holds, no command changes. -/
theorem log_unwritten : Unwritten (SiteState.eventLog : SiteState F → EventLog) := fun _ _ _ _ _ _ => rfl

/-- The viewer's tick is the player's. -/
theorem playOf_tick (v : Run F × Journal) :
    playOf (Run.tick weather v).1 = (playOf v.1).tick weather := by
  have hsim : (Run.tick weather v).1.sim =
      v.1.fireDue.sim.step (weather v.1.fireDue.sim.state.unixTimeS) :=
    recordStep_sim weather v.1.fireDue.sim v.2
  have hstory : (Run.tick weather v).1.story = v.1.fireDue.story := rfl
  rw [playOf, hsim, hstory, Run.fireDue]
  cases hnow : v.1.story with
  | none => simp [playOf, hnow, Play.tick, Player.fireDue, Player.due]
  | some story => simp [playOf, hnow, Play.tick, Player.fireDue, Player.due]

/-- Firing what is due leaves the plant sound and its log as it was. -/
theorem sound_fireDue {run : Run F} (hs : Sound run.sim) : Sound run.fireDue.sim ∧
    run.fireDue.sim.plant = run.sim.plant ∧
    run.fireDue.sim.state.eventLog = run.sim.state.eventLog := by
  rw [Run.fireDue]
  cases run.story with
  | none => exact ⟨hs, rfl, rfl⟩
  | some story =>
    have hlog := Player.kept_fireDue (log_unwritten.kept run.sim.state.eventLog).toKeptByActions story.player
      run.sim rfl
    have hfired := BessCheckpoint.fireDue_sim story.player run.sim
    refine ⟨?_, ?_, hlog⟩
    · change Sound (story.player.fireDue run.sim).2.1
      rw [hfired]
      exact sound_run hs _
    · change (story.player.fireDue run.sim).2.1.plant = _
      rw [hfired, run_plant hs]

variable {weather} {start : Run F} {ops : List (Op F)} {v : Run F × Journal}

theorem shows_tick (h : Shows weather start ops v) :
    Shows weather start (ops ++ [.tick]) (Run.tick weather v) := by
  obtain ⟨hsound, hplant, hlog⟩ := sound_fireDue h.sound
  have hsim : (Run.tick weather v).1.sim =
      v.1.fireDue.sim.step (weather v.1.fireDue.sim.state.unixTimeS) :=
    recordStep_sim weather v.1.fireDue.sim v.2
  have hplay : ((playOf start).run weather ops).tick weather = playOf (Run.tick weather v).1 := by
    rw [playOf_tick, h.play]
  have hcount : v.1.fireDue.sim.state.eventLog.count = (datedTicks weather (playOf start) ops).length := by
    rw [hlog, h.count]
  have hdated := datedTicks_tick weather (playOf start) ops
  rw [hplay] at hdated
  have hplain : (playOf (Run.tick weather v).1).sim = (Run.tick weather v).1.sim := rfl
  rw [hplain, hsim] at hdated
  refine ⟨?_, ?_, ?_, ?_, ?_, ?_, ?_⟩
  · rw [run_concat, ← hplay]
    rfl
  · rw [← h.resolved]
    change v.1.fireDue.story.map Story.resolved = _
    rw [Run.fireDue]
    cases hnow : v.1.story with
    | none => exact congrArg (Option.map Story.resolved) hnow
    | some story => rfl
  · rw [hsim, step_plant hsound, hplant, h.plant]
  · rw [(tick_clock weather v).1, h.clock, ticksOf, ticksOf, List.filter_append, List.length_append]
    rfl
  · rw [hsim]
    exact sound_step hsound _
  · rw [hdated]
    exact mirrors_step hsound h.journal hcount _
  · rw [hdated, List.length_append, List.length_map, ← hcount, hsim, step_state hsound, step_events hsound]
    exact EventLog.recordAll_count _ _

theorem shows_command (h : Shows weather start ops v) (c : Command F) :
    Shows weather start (ops ++ [.command c]) ({ v.1 with sim := v.1.sim.command c }, v.2) := by
  refine ⟨?_, h.resolved, (command_plant v.1.sim c).trans h.plant, ?_, sound_command h.sound c, ?_, ?_⟩
  · rw [run_concat, ← h.play]
    rfl
  · rw [(BessCheckpoint.command_clock v.1.sim c).1, h.clock, ticksOf, ticksOf, List.filter_append,
      List.length_append]
    rfl
  · rw [datedTicks_command]
    exact h.journal
  · rw [datedTicks_command, ← h.count]
    exact congrArg EventLog.count (kept_command (log_unwritten.kept v.1.sim.state.eventLog) v.1.sim c rfl)

theorem shows_ticks (h : Shows weather start ops v) (n : Nat) :
    Shows weather start (ops ++ List.replicate n .tick) ((Run.tick weather)^[n] v) := by
  induction n generalizing ops v with
  | zero =>
    rw [List.replicate_zero, List.append_nil]
    exact h
  | succ n ih =>
    rw [List.replicate_succ, Function.iterate_succ_apply, List.append_cons]
    exact ih (shows_tick h)

theorem shows_plain (cfg : PlantConfig F) (models : Models F) (seed : UInt64) (unixS : Int) :
    Shows weather (Run.plain (Simulation.new cfg models seed unixS)) []
      (Run.plain (Simulation.new cfg models seed unixS), Journal.new) :=
  ⟨rfl, rfl, rfl, rfl, sound_new cfg models seed unixS, mirrors_new, rfl⟩

theorem shows_playing (resolved : Resolved F) (cfg : PlantConfig F) (models : Models F) :
    Shows weather (Run.playing resolved cfg models) [] (Run.playing resolved cfg models, Journal.new) :=
  ⟨rfl, rfl, rfl, rfl, (BessCheckpoint.onTime_play resolved cfg models).sound, mirrors_new, rfl⟩

/-- A session showing a run from a start of its own site, at the seed it opened with. -/
structure Genuine (site : Site F) (cfg : PlantConfig F) (s : Session F) : Prop where
  seed : s.seed = Session.SEED
  shown : ∃ start ops, Started site cfg start ∧ Shows site.inputsAt start ops (s.run, s.journal)

variable {site : Site F} {cfg : PlantConfig F} {s : Session F}

theorem genuine_cfg (h : Genuine site cfg s) : s.run.sim.cfg = cfg := by
  obtain ⟨start, ops, hstart, hshows⟩ := h.shown
  have hcfg : s.run.sim.cfg = start.sim.cfg := congrArg Plant.cfg hshows.plant
  rw [hcfg]
  cases hstart <;> rfl

theorem genuine_ticks (h : Genuine site cfg s) (n : Nat) : Genuine site cfg (s.tickTimes site.inputsAt n) := by
  obtain ⟨start, ops, hstart, hshows⟩ := h.shown
  exact ⟨h.seed, start, _, hstart, shows_ticks hshows n⟩

/-- A frame runs ticks, whether it belongs to a jump or to the wall clock. -/
theorem genuine_frame (h : Genuine site cfg s) (dtS : F) : Genuine site cfg (s.advance site dtS) := by
  cases hjump : s.jump with
  | none =>
    rw [advance_wall site hjump]
    have haccum : ∀ tickAccum, Genuine site cfg { s with tickAccum := tickAccum } :=
      fun _ => ⟨h.seed, h.shown⟩
    exact genuine_ticks (haccum _) _
  | some jump =>
    rw [advance_jump site hjump]
    split
    · exact ⟨h.seed, (genuine_ticks h _).shown⟩
    · exact genuine_ticks h _

theorem genuine_play (h : Genuine site cfg s) (scenario : Scenario F) :
    Genuine site cfg (s.play site scenario) where
  seed := h.seed
  shown := by
    refine ⟨(s.play site scenario).run, [], ?_, shows_playing _ _ _⟩
    rw [Session.play, h.seed, genuine_cfg h]
    exact .playing scenario s.run.unixTimeS (scenario.speed.getD s.speed)

theorem genuine_restart (h : Genuine site cfg s) (unixS : Int) :
    Genuine site cfg (s.restartAt site unixS) where
  seed := h.seed
  shown := by
    refine ⟨(s.restartAt site unixS).run, [], ?_, shows_plain _ _ _ _⟩
    rw [Session.restartAt, h.seed, genuine_cfg h]
    exact .plain unixS

theorem genuine_jumpTo (h : Genuine site cfg s) (target : Option Int) :
    Genuine site cfg (s.jumpTo target) := by
  rw [Session.jumpTo]
  split
  · exact ⟨h.seed, h.shown⟩
  · exact h

theorem genuine_apply (h : Genuine site cfg s) (c : ViewerCommand F) :
    Genuine site cfg (s.apply site c) := by
  obtain ⟨start, ops, hstart, hshows⟩ := h.shown
  cases c with
  | setSpeed speed => exact ⟨h.seed, h.shown⟩
  | setSetpoint sp =>
    exact ⟨h.seed, start, _, hstart, shows_command hshows (.setExternalSetpointW sp)⟩
  | restartAt unixS => exact genuine_restart h unixS
  | fastForwardTo unixS => exact genuine_jumpTo h _
  | resetAlarms scope => exact ⟨h.seed, start, _, hstart, shows_command hshows (.resetAlarms scope)⟩
  | startScenario name =>
    rw [Session.apply]
    split
    · exact genuine_play h _
    · exact h
  | runToNextEvent => exact genuine_jumpTo h _
  | runToEnd => exact genuine_jumpTo h _

theorem genuine_inputs (h : Genuine site cfg s) (is : List (Session.Input F)) :
    Genuine site cfg (s.inputs site is) := by
  induction is generalizing s with
  | nil => exact h
  | cons i is ih =>
    refine ih ?_
    cases i with
    | frame dtS => exact genuine_frame h dtS
    | command c => exact genuine_apply h c
    | load scenario => exact genuine_play h scenario

theorem genuine_new (site : Site F) (cfg : PlantConfig F) : Genuine site cfg (Session.new site cfg) :=
  ⟨rfl, _, [], .plain Session.START_UNIX_S, shows_plain cfg (site.models cfg) Session.SEED _⟩

/-- What the viewer shows is a run. Whatever is done to a session, in whatever order, frames of
any length, jumps, speeds, resets, restarts, cases: the plant it shows is a fresh one under
commands and ticks, a case's schedule handed out up to the plant's own clock, and the journal is
the end of what those ticks said. -/
theorem session_shows_a_run (site : Site F) (cfg : PlantConfig F) (is : List (Session.Input F)) :
    let s := (Session.new site cfg).inputs site is
    ∃ start ops, Started site cfg start ∧
      playOf s.run = (playOf start).run site.inputsAt ops ∧
      s.run.sim.state.tick = ticksOf ops ∧
      (∀ story, s.run.story = some story →
        start = Run.playing story.resolved cfg (site.models cfg) ∧
          story.player.schedule = story.resolved.schedule ∧
          story.player.cursor = BessCheckpoint.placeAt story.resolved (ticksOf ops)) ∧
      Mirrors (datedTicks site.inputsAt (playOf start) ops) s.journal ∧
      s.run.sim.state.eventLog.count = (datedTicks site.inputsAt (playOf start) ops).length := by
  intro s
  obtain ⟨start, ops, hstart, hshows⟩ := (genuine_inputs (genuine_new site cfg) is).shown
  refine ⟨start, ops, hstart, hshows.play, hshows.clock, ?_, hshows.journal, hshows.count⟩
  intro story hstory
  have hresolved : some story.resolved = start.story.map Story.resolved := by
    rw [← hshows.resolved]
    exact (congrArg (Option.map Story.resolved) hstory).symm
  cases hstart with
  | plain unixS => cases hresolved
  | playing scenario unixS speed =>
    have hcase := Option.some.inj hresolved
    have hplayer : story.player = (playOf s.run).player := by
      rw [playOf, hstory]
    have htime := BessCheckpoint.onTime_run site.inputsAt
      (BessCheckpoint.onTime_play story.resolved cfg (site.models cfg)) ops
    rw [Nat.zero_add] at htime
    have hrun : playOf s.run = (story.resolved.play cfg (site.models cfg)).run site.inputsAt ops := by
      rw [hcase]
      exact hshows.play
    rw [hplayer, hrun]
    exact ⟨by rw [hcase], htime.schedule, htime.cursor⟩

end BessViewer
