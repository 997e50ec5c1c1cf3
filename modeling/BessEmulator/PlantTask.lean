import BessEmulator.Gw01
import BessEmulator.Taps

/-!
# The plant task

Owns the kernel, applies control commands between two ticks, plays the
scenario in force ahead of every tick, and publishes one snapshot a tick. Its
surfaces see the latest snapshot and write into a bounded command queue.
-/
namespace Bess

variable {F : Type} [Scalar F]

/-- Highest allowed acceleration factor. -/
def MAX_SPEED : F := 3600.0

/-- Commands the channel into the task holds. -/
def COMMAND_QUEUE : Nat := 64

/-- What the task is built with: a site's models, and the weather of an hour. -/
structure Reference (F : Type) where
  models : PlantConfig F → Models F
  inputsAt : Int → Inputs F

/-- The reference models with an idle plan, on a day of no weather. -/
def Reference.idle : Reference F where
  models cfg := gw01Models cfg ⟨fun _ _ => 0⟩
  inputsAt _ := ⟨⟨12.0, 0.0⟩, 50.0⟩

/-- Control commands from the surfaces into the simulation task. -/
inductive Task.Command (F : Type) where
  | setSetpointW (setpointW : Option F)
  | setSpeed (factor : F)
  | resetAlarms (scope : ResetScope)
  | loadScenario (resolved : Resolved F)

/-- One published tick: the tree, its registers, and what corrupts their reading. -/
structure Snapshot (F : Type) where
  state : SiteState F
  inputRegs : Bank
  holdingRegs : Bank
  speed : F
  taps : Taps F

/-- What the task owns between ticks. -/
structure Task (F : Type) where
  sim : Simulation F
  speed : F
  story : Option (Active F)
  map : SignalMap F

namespace Task

def clampSpeed (factor : F) : F := Scalar.clamp factor 1.0 MAX_SPEED

def start (sim : Simulation F) (speed : F) (scenario : Option (Resolved F)) (map : SignalMap F) :
    Task F where
  sim := sim
  speed := clampSpeed speed
  story := scenario.map fun resolved => Active.new resolved map.points
  map := map

def snapshot (t : Task F) : Snapshot F :=
  let banks := writeBanks t.map.points t.sim.state
  { state := t.sim.state
    inputRegs := banks.input
    holdingRegs := banks.holding
    speed := t.speed
    taps :=
      match t.story with
      | some active => active.taps
      | none => Taps.empty }

/-- A fresh plant under the scenario, at its speed. -/
def load (ref : Reference F) (t : Task F) (resolved : Resolved F) : Task F where
  sim := resolved.simulation t.sim.cfg (ref.models t.sim.cfg)
  speed := clampSpeed resolved.params.speed
  story := some (Active.new resolved t.map.points)
  map := t.map

/-- Apply one command between two ticks; a load publishes its tick 0. -/
def command (ref : Reference F) (t : Task F) (published : Snapshot F) :
    Task.Command F → Task F × Snapshot F
  | .setSetpointW setpointW =>
    ({ t with sim := t.sim.setExternalSetpointW setpointW }, published)
  | .setSpeed factor => ({ t with speed := clampSpeed factor }, published)
  | .resetAlarms scope => ({ t with sim := t.sim.command (.resetAlarms scope) }, published)
  | .loadScenario resolved =>
    let t := t.load ref resolved
    (t, t.snapshot)

/-- Fire what the scenario has due. -/
def fireDue (t : Task F) : Task F :=
  match t.story with
  | none => t
  | some active =>
    let (active, sim, _) := active.fireDue t.sim
    { t with sim := sim, story := some active }

/-- Fire, then step one tick under the weather of the hour. -/
def tick (ref : Reference F) (t : Task F) : Task F :=
  let t := t.fireDue
  { t with sim := t.sim.step (ref.inputsAt t.sim.state.unixTimeS) }

end Task

/-- The task, its command queue, and the snapshot it published last. -/
structure Emulator (F : Type) where
  task : Task F
  queue : List (Task.Command F)
  snapshot : Snapshot F

namespace Emulator

def start (task : Task F) : Emulator F := ⟨task, [], task.snapshot⟩

/-- `try_send`: nothing when the channel is full. -/
def trySend (e : Emulator F) (c : Task.Command F) : Option (Emulator F) :=
  if e.queue.length < COMMAND_QUEUE then some { e with queue := e.queue ++ [c] } else none

/-- `try_recv` and the command it hands over. -/
def recv (ref : Reference F) (e : Emulator F) : Emulator F :=
  match e.queue with
  | [] => e
  | c :: queue =>
    let (task, snapshot) := e.task.command ref e.snapshot c
    ⟨task, queue, snapshot⟩

/-- The queue drained before a tick. -/
def drain (ref : Reference F) (e : Emulator F) : Emulator F :=
  Nat.iterate (recv ref) e.queue.length e

def tick (ref : Reference F) (e : Emulator F) : Emulator F :=
  let task := e.task.tick ref
  { e with task := task, snapshot := task.snapshot }

/-- One round of the task's loop. -/
def round (ref : Reference F) (e : Emulator F) : Emulator F := (e.drain ref).tick ref

/-- A posted scenario's parameters: the file's own, or those the plant runs at. -/
def loadParams (e : Emulator F) (scenario : Scenario F) : RunParams F where
  seed := scenario.seed.getD e.snapshot.state.siteMeta.seed
  startUnixS := scenario.startUnixS.getD e.snapshot.state.siteMeta.startUnixS
  speed := scenario.speed.getD e.snapshot.speed

/-- A scenario posted for loading; while the channel is full the request waits. -/
def postScenario (e : Emulator F) (scenario : Scenario F) : Emulator F :=
  (e.trySend (.loadScenario (scenario.resolve (e.loadParams scenario)))).getD e

end Emulator

/-- Whatever fires, the plant's tick goes up by one. -/
theorem tick_fireDue (t : Task F) : t.fireDue.sim.state.tick = t.sim.state.tick := by
  have hkept : KeptByActions fun s : SiteState F => s.tick = t.sim.state.tick :=
    ⟨fun _ _ _ _ h => h, fun _ _ _ h => h, fun _ _ h => h, fun h => h,
      fun h => by rw [SiteState.closed_eq]; exact h, fun _ h => h⟩
  rw [Task.fireDue]
  cases t.story with
  | none => rfl
  | some active => exact Player.kept_fireDue hkept active.player t.sim rfl

theorem tick_tick (ref : Reference F) (t : Task F) :
    (t.tick ref).sim.state.tick = t.sim.state.tick + 1 :=
  congrArg (· + 1) (tick_fireDue t)

/-- A tick opens windows and schedules none. -/
theorem tick_windows (ref : Reference F) (t : Task F) :
    (t.tick ref).snapshot.taps.windows.map Window.scheduled =
      t.snapshot.taps.windows.map Window.scheduled := by
  have htaps : (t.tick ref).snapshot.taps = t.fireDue.snapshot.taps := rfl
  rw [htaps, Task.fireDue]
  cases hs : t.story with
  | none => simp only [Task.snapshot, hs]
  | some active =>
    simp only [Task.snapshot, hs]
    exact openTaps_scheduled active.points _ _ active.taps

/-- What the dispatch application controls: the mode, and the setpoint beside it. -/
def SiteState.control (s : SiteState F) : EmsMode × F := (s.ems.mode, s.ems.externalSetpointW)

/-- Faults and resets leave the control words alone. -/
theorem control_kept (c : EmsMode × F) : KeptByActions fun s : SiteState F => s.control = c where
  rack _ _ _ _ h := h
  hvac _ _ _ h := h
  block _ _ h := h
  tripped h := h
  closed {s} h := by
    rw [← h, SiteState.closed_eq]
    simp only [SiteState.control]
    split <;> rfl
  pending _ h := h

theorem control_step (sim : Simulation F) (inputs : Inputs F) :
    (sim.step inputs).state.control = sim.state.control := by
  have hems : (sim.plant.emsTick sim.state inputs).mode = sim.state.ems.mode ∧
      (sim.plant.emsTick sim.state inputs).externalSetpointW = sim.state.ems.externalSetpointW := by
    simp only [Plant.emsTick]
    split
    · exact ⟨(release_rest _ _ _ _).1, (release_rest _ _ _ _).2.1⟩
    · exact ⟨rfl, rfl⟩
  change ((sim.plant.emsTick sim.state inputs).mode,
    (sim.plant.emsTick sim.state inputs).externalSetpointW) = _
  rw [hems.1, hems.2]
  rfl

theorem control_fireDue (t : Task F) : t.fireDue.sim.state.control = t.sim.state.control := by
  rw [Task.fireDue]
  cases t.story with
  | none => rfl
  | some active =>
    exact Player.kept_fireDue (control_kept t.sim.state.control) active.player t.sim rfl

/-- A tick leaves the control words as it found them. -/
theorem control_tick (ref : Reference F) (t : Task F) :
    (t.tick ref).sim.state.control = t.sim.state.control :=
  (control_step _ _).trans (control_fireDue t)

/-- What a command makes of the control words; nothing if it leaves them alone. -/
def Task.Command.write : Task.Command F → Option (EmsMode × F)
  | .setSetpointW (some w) => some (.external, w)
  | .setSetpointW none => some (.followPlan, 0)
  | .loadScenario _ => some (.followPlan, 0)
  | .setSpeed _ => none
  | .resetAlarms _ => none

theorem control_command (ref : Reference F) (t : Task F) (published : Snapshot F)
    (c : Task.Command F) :
    (t.command ref published c).1.sim.state.control = c.write.getD t.sim.state.control := by
  cases c with
  | setSetpointW w => cases w <;> rfl
  | setSpeed factor => rfl
  | resetAlarms scope =>
    have hkept := control_kept t.sim.state.control
    exact kept_resetAlarms hkept.resets t.sim.models t.sim.cfg scope rfl
  | loadScenario resolved => rfl

namespace Emulator

/-- The control words once the queue is drained: the last write wins. -/
def owed (e : Emulator F) : EmsMode × F :=
  e.queue.foldl (fun c command => command.write.getD c) e.task.sim.state.control

theorem owed_recv (ref : Reference F) (e : Emulator F) : (e.recv ref).owed = e.owed := by
  rw [recv]
  cases hq : e.queue with
  | nil => rfl
  | cons c queue =>
    have hc := control_command ref e.task e.snapshot c
    simp only [owed, hq, List.foldl_cons, hc]

theorem owed_tick (ref : Reference F) (e : Emulator F) : (e.tick ref).owed = e.owed := by
  have ht := control_tick ref e.task
  simp only [owed, tick, ht]

omit [Scalar F] in
/-- A command sent is last in the queue. -/
theorem trySend_eq {e e' : Emulator F} {c : Task.Command F} (h : e.trySend c = some e') :
    { e with queue := e.queue ++ [c] } = e' := by
  rw [trySend] at h
  split at h
  · exact Option.some.inj h
  · cases h

theorem owed_trySend {e e' : Emulator F} {c : Task.Command F} (h : e.trySend c = some e') :
    e'.owed = c.write.getD e.owed := by
  obtain rfl := trySend_eq h
  simp only [owed, List.foldl_append, List.foldl_cons, List.foldl_nil]

theorem queue_recv (ref : Reference F) (e : Emulator F) : (e.recv ref).queue = e.queue.tail := by
  rw [recv]
  cases hq : e.queue with
  | nil => simp [hq]
  | cons c queue => rfl

theorem drain_queue (ref : Reference F) (e : Emulator F) : (e.drain ref).queue = [] := by
  have hiter : ∀ n (e : Emulator F), (Nat.iterate (recv ref) n e).queue = e.queue.drop n := by
    intro n
    induction n with
    | zero => intro e; rfl
    | succ n ih =>
      intro e
      rw [Function.iterate_succ_apply, ih, queue_recv, List.drop_tail]
  rw [drain, hiter, List.drop_length]

theorem owed_drain (ref : Reference F) (e : Emulator F) : (e.drain ref).owed = e.owed := by
  have hiter : ∀ n (e : Emulator F), (Nat.iterate (recv ref) n e).owed = e.owed := by
    intro n
    induction n with
    | zero => intro e; rfl
    | succ n ih =>
      intro e
      rw [Function.iterate_succ_apply, ih, owed_recv]
  exact hiter _ e

theorem owed_round (ref : Reference F) (e : Emulator F) : (e.round ref).owed = e.owed :=
  (owed_tick ref _).trans (owed_drain ref e)

theorem control_drain (ref : Reference F) (e : Emulator F) :
    (e.drain ref).task.sim.state.control = e.owed := by
  rw [← owed_drain ref e, owed, drain_queue, List.foldl_nil]

/-- A round of the loop ends on the control words the queue owed before it. -/
theorem control_round (ref : Reference F) (e : Emulator F) :
    (e.round ref).task.sim.state.control = e.owed :=
  (control_tick ref _).trans (control_drain ref e)

end Emulator

end Bess
