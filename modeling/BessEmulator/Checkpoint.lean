import BessEmulator.Player

/-!
# Resuming from a checkpoint

A run rebuilt from its tree, its file and its parameters goes on as if it had
never stopped: the buffers, the thresholds, the return policy and the
player's cursor hold nothing the tree does not.
-/
namespace BessCheckpoint

open Bess Bisect

variable {F : Type} [Scalar F]

/-- Same plant and tree; buffers and last events may differ. -/
structure Alike (a b : Simulation F) : Prop where
  plant : a.plant = b.plant
  state : a.state = b.state
  left : Sound a
  right : Sound b

/-- What a command does is read off the plant and the tree. -/
theorem command_congr {a b : Simulation F} (hp : a.plant = b.plant) (hs : a.state = b.state)
    (c : Command F) : (a.command c).state = (b.command c).state := by
  have hcfg : a.cfg = b.cfg := congrArg Plant.cfg hp
  have hmodels : a.models = b.models := congrArg Plant.models hp
  cases c with
  | setHvacFailed b c failed => simp only [Simulation.command, hs]
  | setRackInService b c r on => simp only [Simulation.command, hs]
  | setBlockMode b mode => simp only [Simulation.command, hs]
  | tripPcs b => simp only [Simulation.command, hs]
  | tripProtection => simp only [Simulation.command, hs]
  | resetAlarms scope => simp only [Simulation.command, hs, hcfg, hmodels]
  | apply action => simp only [Simulation.command, hs, hcfg, hmodels]
  | setExternalSetpointW w => simp only [Simulation.command, Simulation.setExternalSetpointW, hs]

theorem alike_command {a b : Simulation F} (h : Alike a b) (c : Command F) :
    Alike (a.command c) (b.command c) where
  plant := by rw [command_plant, command_plant, h.plant]
  state := command_congr h.plant h.state c
  left := sound_command h.left c
  right := sound_command h.right c

theorem alike_step {a b : Simulation F} (h : Alike a b) (inputs : Inputs F) :
    Alike (a.step inputs) (b.step inputs) ∧ (a.step inputs).events = (b.step inputs).events := by
  refine ⟨⟨?_, ?_, sound_step h.left inputs, sound_step h.right inputs⟩, ?_⟩
  · rw [step_plant h.left, step_plant h.right, h.plant]
  · rw [step_state h.left, step_state h.right, h.plant, h.state]
  · rw [step_events h.left, step_events h.right, h.plant, h.state]

theorem alike_move {a b : Simulation F} (h : Alike a b) (m : Move F) :
    Alike (a.move m) (b.move m) := by
  cases m with
  | command c => exact alike_command h c
  | step inputs => exact (alike_step h inputs).1

theorem alike_run {a b : Simulation F} (h : Alike a b) (moves : List (Move F)) :
    Alike (a.run moves) (b.run moves) := by
  induction moves generalizing a b with
  | nil => exact h
  | cons m ms ih => exact ih (alike_move h m)

/-- The command a due event is, if it is physical. -/
def moveOf (s : Scheduled F) : Option (Move F) :=
  match s.due with
  | .physical action => some (.command (.apply action))
  | .data _ => none

theorem fire_sim (p : Simulation F × Option Refused) (s : Scheduled F) :
    (Player.fire p s).1 = p.1.run (moveOf s).toList := by
  cases hd : s.due with
  | data d => simp [Player.fire, moveOf, hd]
  | physical action =>
    have hrun : p.1.run (moveOf s).toList = p.1.command (.apply action) := by
      simp [moveOf, hd, Simulation.run, Simulation.move]
    rw [hrun, Simulation.command]
    simp only [Player.fire, hd, Simulation.apply]
    cases applyAction p.1.models p.1.cfg p.1.state action with
    | mk answer after => cases answer <;> rfl

theorem fire_run (due : List (Scheduled F)) (p : Simulation F × Option Refused) :
    (due.foldl Player.fire p).1 = p.1.run (due.filterMap moveOf) := by
  induction due generalizing p with
  | nil => rfl
  | cons s ss ih =>
    rw [List.foldl_cons, ih, fire_sim, ← Simulation.run_append]
    cases hm : moveOf s with
    | none => simp [hm]
    | some m => simp [hm]

theorem fireDue_sim (player : Player F) (sim : Simulation F) :
    (player.fireDue sim).2.1 = sim.run ((player.due sim.state.tick).1.filterMap moveOf) :=
  fire_run _ _

theorem tick_sim (weather : Int → Inputs F) (p : Play F) :
    (p.tick weather).sim =
      (p.player.fireDue p.sim).2.1.step (weather (p.player.fireDue p.sim).2.1.state.unixTimeS) :=
  rfl

theorem tick_player (weather : Int → Inputs F) (p : Play F) :
    (p.tick weather).player = (p.player.due p.sim.state.tick).2 := rfl

/-- Alike simulations under players at the same place. -/
structure Together (p q : Play F) : Prop where
  sim : Alike p.sim q.sim
  player : p.player = q.player

theorem together_tick (weather : Int → Inputs F) {p q : Play F} (h : Together p q) :
    Together (p.tick weather) (q.tick weather) ∧
      (p.tick weather).sim.events = (q.tick weather).sim.events := by
  have hfire : Alike (p.player.fireDue p.sim).2.1 (q.player.fireDue q.sim).2.1 := by
    rw [fireDue_sim, fireDue_sim, h.player, h.sim.state]
    exact alike_run h.sim _
  have hstep := alike_step hfire (weather (p.player.fireDue p.sim).2.1.state.unixTimeS)
  have hclock : (p.player.fireDue p.sim).2.1.state.unixTimeS =
      (q.player.fireDue q.sim).2.1.state.unixTimeS := by rw [hfire.state]
  refine ⟨⟨?_, ?_⟩, ?_⟩
  · rw [tick_sim, tick_sim, ← hclock]
    exact hstep.1
  · rw [tick_player, tick_player, h.player, h.sim.state]
  · rw [tick_sim, tick_sim, ← hclock]
    exact hstep.2

theorem together_op (weather : Int → Inputs F) {p q : Play F} (h : Together p q) (op : Op F) :
    Together (p.op weather op) (q.op weather op) := by
  cases op with
  | command c => exact ⟨alike_command h.sim c, h.player⟩
  | tick => exact (together_tick weather h).1

theorem together_run (weather : Int → Inputs F) {p q : Play F} (h : Together p q)
    (ops : List (Op F)) : Together (p.run weather ops) (q.run weather ops) := by
  induction ops generalizing p q with
  | nil => exact h
  | cons op ops ih => exact ih (together_op weather h op)

omit [Scalar F] in
/-- Clock and identity, which no command moves. -/
theorem clock_unwritten : Unwritten fun s : SiteState F => (s.tick, s.siteMeta) :=
  fun _ _ _ _ _ _ => rfl

theorem command_clock (sim : Simulation F) (c : Command F) :
    (sim.command c).state.tick = sim.state.tick ∧
      (sim.command c).state.siteMeta = sim.state.siteMeta :=
  Prod.mk.inj (kept_command (clock_unwritten.kept (sim.state.tick, sim.state.siteMeta)) sim c rfl)

theorem fire_clock (player : Player F) (sim : Simulation F) :
    (player.fireDue sim).2.1.state.tick = sim.state.tick ∧
      (player.fireDue sim).2.1.state.siteMeta = sim.state.siteMeta :=
  Prod.mk.inj (Player.kept_fireDue
    (clock_unwritten.kept (sim.state.tick, sim.state.siteMeta)).toKeptByActions player sim rfl)

/-- How many events of the schedule come before a tick. -/
def placeAt (r : Resolved F) (tick : Nat) : Nat :=
  (r.schedule.takeWhile fun s => decide (s.tick < tick)).length

/-- A run of `r`, some ticks in: sound, on its plant, its cursor where the clock says. -/
structure OnTime (r : Resolved F) (pl : Plant F) (m : SiteMeta) (n : Nat) (p : Play F) : Prop where
  sound : Sound p.sim
  plant : p.sim.plant = pl
  identity : p.sim.state.siteMeta = m
  clock : p.sim.state.tick = n
  schedule : p.player.schedule = r.schedule
  cursor : p.player.cursor = placeAt r n

omit [Scalar F] in
/-- Handing out what is due moves the cursor one tick on. -/
theorem place_due (r : Resolved F) (n : Nat) :
    placeAt r n + ((r.schedule.drop (placeAt r n)).takeWhile fun s => s.tick ≤ n).length =
      placeAt r (n + 1) := by
  have hlt : ∀ s : Scheduled F, decide (s.tick < n) = true → decide (s.tick ≤ n) = true := by
    intro s hs
    rw [decide_eq_true_eq] at hs ⊢
    omega
  have hext := congrArg List.length (takeWhile_extend hlt r.schedule)
  have hsucc : (fun s : Scheduled F => decide (s.tick < n + 1)) = fun s => decide (s.tick ≤ n) := by
    funext s
    exact decide_eq_decide.mpr Nat.lt_succ_iff
  rw [List.length_append] at hext
  rw [placeAt, placeAt, hsucc, hext]

theorem onTime_op {r : Resolved F} {pl : Plant F} {m : SiteMeta} {n : Nat}
    (weather : Int → Inputs F) {p : Play F} (h : OnTime r pl m n p) (op : Op F) :
    OnTime r pl m (n + ticksOf [op]) (p.op weather op) := by
  cases op with
  | command c =>
    obtain ⟨htick, hmeta⟩ := command_clock p.sim c
    exact
      { sound := sound_command h.sound c
        plant := (command_plant p.sim c).trans h.plant
        identity := hmeta.trans h.identity
        clock := htick.trans h.clock
        schedule := h.schedule
        cursor := h.cursor }
  | tick =>
    obtain ⟨htick, hmeta⟩ := fire_clock p.player p.sim
    have hsound : Sound (p.player.fireDue p.sim).2.1 := by
      rw [fireDue_sim]
      exact sound_run h.sound _
    have hplant : (p.player.fireDue p.sim).2.1.plant = pl := by
      rw [fireDue_sim, run_plant h.sound, h.plant]
    have hstep : (p.tick weather).sim.state = (p.player.fireDue p.sim).2.1.plant.siteTick
        (p.player.fireDue p.sim).2.1.state
        (weather (p.player.fireDue p.sim).2.1.state.unixTimeS) := by
      rw [tick_sim]
      exact step_state hsound _
    exact
      { sound := sound_step hsound _
        plant := (step_plant hsound _).trans hplant
        identity := by
          change (p.tick weather).sim.state.siteMeta = m
          rw [hstep]
          exact hmeta.trans h.identity
        clock := by
          change (p.tick weather).sim.state.tick = n + 1
          rw [hstep]
          exact congrArg (· + 1) (htick.trans h.clock)
        schedule := h.schedule
        cursor := by
          change p.player.cursor + _ = placeAt r (n + 1)
          rw [h.schedule, h.cursor, h.clock]
          exact place_due r n }

theorem onTime_run {r : Resolved F} {pl : Plant F} {m : SiteMeta} {n : Nat}
    (weather : Int → Inputs F) {p : Play F} (h : OnTime r pl m n p) (ops : List (Op F)) :
    OnTime r pl m (n + ticksOf ops) (p.run weather ops) := by
  induction ops generalizing p n with
  | nil => exact h
  | cons op ops ih =>
    have hcount : n + ticksOf (op :: ops) = n + ticksOf [op] + ticksOf ops := by
      cases op with
      | command c => simp [ticksOf]
      | tick =>
        simp [ticksOf]
        omega
    rw [hcount]
    exact ih (onTime_op weather h op)

theorem onTime_play (r : Resolved F) (cfg : PlantConfig F) (models : Models F) :
    OnTime r (r.simulation cfg models).plant (r.simulation cfg models).state.siteMeta 0
      (r.play cfg models) where
  sound := by
    have hshape := shaped_new cfg r.params.seed r.params.startUnixS
    exact sound_fromState ⟨hshape.count, hshape.blocks⟩
  plant := rfl
  identity := rfl
  clock := rfl
  schedule := rfl
  cursor := by
    have hnone : (fun s : Scheduled F => decide (s.tick < 0)) = fun _ => false := by
      funext s
      simp
    change 0 = placeAt r 0
    rw [placeAt, hnone]
    cases r.schedule with
    | nil => rfl
    | cons s ss => rfl

/-- The cursor a resumed run searches for is the one the stopped run had. -/
theorem catchUp_eq (scenario : Scenario F) (params : RunParams F) (n : Nat) :
    ((Player.new (scenario.resolve params)).catchUp n).cursor =
      placeAt (scenario.resolve params) n := by
  apply partitionPoint_eq
  refine (schedule_sorted scenario params).imp ?_
  intro a b hab hb
  rw [decide_eq_true_eq] at hb ⊢
  omega

/-- The tree of a run carries the identity and the seed a resume asks for. -/
theorem resume_ok (r : Resolved F) (cfg : PlantConfig F) (models : Models F) {pl : Plant F} {n : Nat}
    {p : Play F} (h : OnTime r pl (r.simulation cfg models).state.siteMeta n p) :
    r.resume cfg models p.sim.state = .ok (Simulation.fromState cfg models p.sim.state) := by
  have hid : p.sim.state.siteMeta =
      { (SiteState.new cfg r.params.seed r.params.startUnixS).siteMeta with
        scenario := some r.id } := h.identity
  have hname : p.sim.state.siteMeta.scenario = some r.id := by rw [hid]
  have hseed : p.sim.state.siteMeta.seed = r.params.seed := by
    rw [hid]
    rfl
  rw [Resolved.resume, hname]
  simp only [ne_eq, not_true_eq_false, if_false, hseed]

/-- Stopped and resumed, a run stands at the same place on the same plant. -/
theorem together_resumed (scenario : Scenario F) (params : RunParams F) (cfg : PlantConfig F)
    (models : Models F) {m : SiteMeta} {n : Nat} {p : Play F}
    (h : OnTime (scenario.resolve params) ((scenario.resolve params).simulation cfg models).plant
      m n p) :
    Together p ⟨Simulation.fromState cfg models p.sim.state,
      (Player.new (scenario.resolve params)).catchUp n⟩ where
  sim :=
    { plant := h.plant
      state := rfl
      left := h.sound
      right := by
        have hcfg : p.sim.cfg = cfg := congrArg Plant.cfg h.plant
        apply sound_fromState
        rw [← hcfg]
        exact h.sound.shape }
  player := by
    have hcursor := h.cursor.trans (catchUp_eq scenario params n).symm
    have hschedule := h.schedule
    change p.player = (Player.new (scenario.resolve params)).catchUp n
    cases hp : p.player with
    | mk schedule cursor =>
      rw [hp] at hschedule hcursor
      simp only at hschedule hcursor
      rw [hschedule, hcursor]
      rfl

/-- Resuming from the tree after any run equals never having stopped: the
same trees, the same events and the same place in the schedule for ever. -/
theorem resume_continues (scenario : Scenario F) (params : RunParams F) (cfg : PlantConfig F)
    (models : Models F) (weather : Int → Inputs F) (before : List (Op F)) :
    let resolved := scenario.resolve params
    let stopped := (resolved.play cfg models).run weather before
    ∃ sim, resolved.resume cfg models stopped.sim.state = .ok sim ∧
      let resumed : Play F := ⟨sim, (Player.new resolved).catchUp (ticksOf before)⟩
      ∀ later,
        (stopped.run weather later).sim.state = (resumed.run weather later).sim.state ∧
        (stopped.run weather later).player = (resumed.run weather later).player ∧
        ((stopped.run weather later).tick weather).sim.events =
          ((resumed.run weather later).tick weather).sim.events := by
  intro resolved stopped
  have hstop := onTime_run weather (onTime_play resolved cfg models) before
  rw [Nat.zero_add] at hstop
  refine ⟨Simulation.fromState cfg models stopped.sim.state, resume_ok resolved cfg models hstop, ?_⟩
  intro resumed later
  have hrun := together_run weather (together_resumed scenario params cfg models hstop) later
  exact ⟨hrun.sim.state, hrun.player, (together_tick weather hrun).2⟩

end BessCheckpoint
