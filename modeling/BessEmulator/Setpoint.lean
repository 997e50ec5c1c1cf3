import BessEmulator.Modbus

/-!
# A setpoint, then external mode

The two Modbus writes a dispatch application makes, in any interleaving with
the plant task. The mode write sends the setpoint again as the last snapshot
shows it, so a setpoint still in the queue is overwritten by the one before it.
-/
namespace BessSetpoint

open Bess

/-- One act of the Modbus client, of another surface, or of the task. -/
inductive Act (F : Type) where
  | request (r : Request)
  | command (c : Task.Command F)
  /-- The task takes a command from the queue, if there is one. -/
  | recv
  | tick
  /-- The task's loop once: the queue drained, then a tick. -/
  | round

section

variable {F : Type} [Scalar F]

def act (ref : Reference F) (e : Emulator F) : Act F → Emulator F
  | .request r =>
    match e.handleRequest r with
    | .ok (e, _) => e
    | .error _ => e
  | .command c => (e.trySend c).getD e
  | .recv => e.recv ref
  | .tick => e.tick ref
  | .round => e.round ref

def run (ref : Reference F) (e : Emulator F) (acts : List (Act F)) : Emulator F :=
  acts.foldl (act ref) e

/-- No setpoint and no mode is written: a read, a refused request, another command. -/
def Quiet (e : Emulator F) : Act F → Prop
  | .request r => r.isRead = true ∨ ∃ code, e.handleRequest r = .error code
  | .command c => c.write = none
  | .recv | .tick | .round => True

def QuietRun (ref : Reference F) (e : Emulator F) : List (Act F) → Prop
  | [] => True
  | a :: as => Quiet e a ∧ QuietRun ref (act ref e a) as

theorem run_append (ref : Reference F) (e : Emulator F) (as bs : List (Act F)) :
    run ref e (as ++ bs) = run ref (run ref e as) bs := List.foldl_append

theorem quietRun_append (ref : Reference F) (e : Emulator F) (as bs : List (Act F)) :
    QuietRun ref e (as ++ bs) ↔ QuietRun ref e as ∧ QuietRun ref (run ref e as) bs := by
  induction as generalizing e with
  | nil => exact (and_iff_right trivial).symm
  | cons a as ih => rw [List.cons_append, QuietRun, QuietRun, ih, and_assoc]; rfl

/-- A quiet request changes nothing. -/
theorem quiet_request (ref : Reference F) {e : Emulator F} {r : Request}
    (h : Quiet e (.request r)) : act ref e (.request r) = e := by
  cases hr : e.handleRequest r with
  | error code => simp only [act, hr]
  | ok answer =>
    obtain hread | ⟨code, herror⟩ := h
    · simp only [act, hr]
      exact Emulator.read_eq hread hr
    · rw [hr] at herror
      cases herror

/-- A command is sent, or there is no room for it. -/
theorem command_sends (ref : Reference F) (e : Emulator F) (c : Task.Command F) :
    act ref e (.command c) = e ∨ e.trySend c = some (act ref e (.command c)) := by
  cases hs : e.trySend c with
  | none =>
    left
    simp only [act, hs, Option.getD_none]
  | some sent =>
    right
    simp only [act, hs, Option.getD_some]

theorem owed_act (ref : Reference F) {e : Emulator F} {a : Act F} (h : Quiet e a) :
    (act ref e a).owed = e.owed := by
  cases a with
  | request r => rw [quiet_request ref h]
  | command c =>
    obtain hsame | hs := command_sends ref e c
    · rw [hsame]
    · rw [Emulator.owed_trySend hs, show c.write = none from h, Option.getD_none]
  | recv => exact Emulator.owed_recv ref e
  | tick => exact Emulator.owed_tick ref e
  | round => exact Emulator.owed_round ref e

theorem owed_run (ref : Reference F) {e : Emulator F} {acts : List (Act F)}
    (h : QuietRun ref e acts) : (run ref e acts).owed = e.owed := by
  induction acts generalizing e with
  | nil => rfl
  | cons a as ih => exact (ih h.2).trans (owed_act ref h.1)

/-- After an acknowledged mode write the plant gets the setpoint that was shown
when the write was made, whatever was in the queue. -/
theorem mode_write_sends_shown (ref : Reference F) {e e' : Emulator F} {answer : Response}
    (hmode : e.handleRequest writeExternal = .ok (e', answer)) {after : List (Act F)}
    (hafter : QuietRun ref e' after) :
    ((run ref e' after).round ref).task.sim.state.control = (.external, e.currentSetpointW) := by
  rw [Emulator.control_round, owed_run ref hafter]
  exact Emulator.owed_writeExternal hmode

end

/-- The setpoint has gone through: in the plant, in the snapshot, and nothing
queued writes another. -/
structure Through (v : BitVec 32) (e : Emulator ℝ) : Prop where
  plant : e.task.sim.state.ems.externalSetpointW = Scalar.ofInt v.toInt
  shown : e.shown = v
  queue : ∀ c ∈ e.queue, c.write = none

theorem through_tick (ref : Reference ℝ) {v : BitVec 32} {e : Emulator ℝ}
    (hp : e.task.sim.state.ems.externalSetpointW = Scalar.ofInt v.toInt)
    (hq : ∀ c ∈ e.queue, c.write = none) : Through v (e.tick ref) := by
  have hcontrol := congrArg Prod.snd (control_tick ref e.task)
  have hplant : (e.tick ref).task.sim.state.ems.externalSetpointW = Scalar.ofInt v.toInt :=
    hcontrol.trans hp
  exact ⟨hplant, shown_snapshot (e.task.tick ref) rfl hplant, hq⟩

/-- A round that drains the setpoint publishes it. -/
theorem through_round (ref : Reference ℝ) {v : BitVec 32} {e : Emulator ℝ}
    (h : e.owed.2 = Scalar.ofInt v.toInt) : Through v (e.round ref) := by
  refine through_tick ref ((congrArg Prod.snd (Emulator.control_drain ref e)).trans h) fun c hc => ?_
  rw [Emulator.drain_queue] at hc
  cases hc

theorem Through.owed {v : BitVec 32} {e : Emulator ℝ} (h : Through v e) :
    e.owed.2 = Scalar.ofInt v.toInt := by
  have hfold : ∀ (cs : List (Task.Command ℝ)) (c : EmsMode × ℝ), (∀ d ∈ cs, d.write = none) →
      cs.foldl (fun c command => command.write.getD c) c = c := by
    intro cs
    induction cs with
    | nil => intro c _; rfl
    | cons d ds ih =>
      intro c hds
      rw [List.foldl_cons, hds d List.mem_cons_self, Option.getD_none]
      exact ih c fun d' hd' => hds d' (List.mem_cons_of_mem d hd')
  rw [Emulator.owed, hfold e.queue _ h.queue]
  exact h.plant

theorem through_recv (ref : Reference ℝ) {v : BitVec 32} {e : Emulator ℝ} (h : Through v e) :
    Through v (e.recv ref) := by
  cases hq : e.queue with
  | nil =>
    have hrecv : e.recv ref = e := by simp only [Emulator.recv, hq]
    rw [hrecv]
    exact h
  | cons c queue =>
    have hc : c.write = none := h.queue c (by rw [hq]; exact List.mem_cons_self)
    have hcontrol := control_command ref e.task e.snapshot c
    rw [hc, Option.getD_none] at hcontrol
    have hsnap : (e.task.command ref e.snapshot c).2 = e.snapshot := by
      cases c with
      | setSetpointW w => rfl
      | setSpeed factor => rfl
      | resetAlarms scope => rfl
      | loadScenario resolved => cases hc
    have hrecv : e.recv ref = ⟨(e.task.command ref e.snapshot c).1, queue, e.snapshot⟩ := by
      simp only [Emulator.recv, hq, hsnap]
    rw [hrecv]
    refine ⟨(congrArg Prod.snd hcontrol).trans h.plant, h.shown, fun d hd => h.queue d ?_⟩
    rw [hq]
    exact List.mem_cons_of_mem c hd

theorem through_act (ref : Reference ℝ) {v : BitVec 32} {e : Emulator ℝ} {a : Act ℝ}
    (h : Through v e) (ha : Quiet e a) : Through v (act ref e a) := by
  cases a with
  | request r =>
    rw [quiet_request ref ha]
    exact h
  | command c =>
    obtain hsame | hs := command_sends ref e c
    · rw [hsame]
      exact h
    · rw [← Emulator.trySend_eq hs]
      refine ⟨h.plant, h.shown, fun d hd => ?_⟩
      obtain hold | hnew := List.mem_append.mp hd
      · exact h.queue d hold
      · rw [List.mem_singleton.mp hnew]
        exact ha
  | recv => exact through_recv ref h
  | tick => exact through_tick ref h.plant h.queue
  | round => exact through_round ref h.owed

theorem through_run (ref : Reference ℝ) {v : BitVec 32} {e : Emulator ℝ} {acts : List (Act ℝ)}
    (h : Through v e) (ha : QuietRun ref e acts) : Through v (run ref e acts) := by
  induction acts generalizing e with
  | nil => exact h
  | cons a as ih => exact ih (through_act ref h ha.1) ha.2

/-- A round of the task between the two writes is enough for the setpoint to
be shown when the mode is written. -/
theorem shown_after_round (ref : Reference ℝ) {v : BitVec 32} {e e₁ : Emulator ℝ}
    {answer : Response} (hset : e.handleRequest (writeSetpoint v) = .ok (e₁, answer))
    {between : List (Act ℝ)} (hbetween : QuietRun ref e₁ between) (hr : .round ∈ between) :
    (run ref e₁ between).shown = v := by
  obtain ⟨as, bs, rfl⟩ := List.append_of_mem hr
  obtain ⟨has, -, hbs⟩ := (quietRun_append ref e₁ as (.round :: bs)).mp hbetween
  have howed : (run ref e₁ as).owed.2 = Scalar.ofInt v.toInt := by
    rw [owed_run ref has, Emulator.owed_writeSetpoint hset]
  rw [run_append]
  exact (through_run ref (through_round ref howed) hbs).shown

theorem setpoint_injective {v w : BitVec 32}
    (h : (Scalar.ofInt v.toInt : ℝ) = Scalar.ofInt w.toInt) : v = w := by
  rw [Scalar.ofInt_real, Scalar.ofInt_real] at h
  exact BitVec.eq_of_toInt_eq (Int.cast_injective h)

/-- Both writes acknowledged, nothing but quiet acts between and after them:
the next round of the task ends in external mode at `v` exactly if the snapshot
published last before the mode write showed `v`, as it does once the task has
gone round between the two. -/
theorem setpoint_survives (ref : Reference ℝ) (e : Emulator ℝ) (v : BitVec 32)
    (between after : List (Act ℝ)) {e₁ e₂ : Emulator ℝ} {answer₁ answer₂ : Response}
    (hset : e.handleRequest (writeSetpoint v) = .ok (e₁, answer₁))
    (hbetween : QuietRun ref e₁ between)
    (hmode : (run ref e₁ between).handleRequest writeExternal = .ok (e₂, answer₂))
    (hafter : QuietRun ref e₂ after) :
    (((run ref e₂ after).round ref).task.sim.state.control = (.external, Scalar.ofInt v.toInt) ↔
        (run ref e₁ between).shown = v) ∧
      (.round ∈ between → (run ref e₁ between).shown = v) := by
  refine ⟨?_, shown_after_round ref hset hbetween⟩
  rw [mode_write_sends_shown ref hmode hafter, Prod.mk.injEq, Emulator.currentSetpointW]
  constructor
  · rintro ⟨-, hv⟩
    exact setpoint_injective hv
  · intro hv
    exact ⟨rfl, by rw [hv]⟩

/-- The reference plant, fresh, without a scenario. -/
noncomputable def fresh : Emulator ℝ :=
  Emulator.start
    (Task.start (Simulation.new PlantConfig.gw01 (Reference.idle.models PlantConfig.gw01) 42 0) 1 none
      .bare)

/-- A kilowatt, in watts. -/
def kilowatt : BitVec 32 := 1000#32

theorem fresh_room : fresh.queue.length < COMMAND_QUEUE := by
  have hqueue : fresh.queue = [] := rfl
  rw [hqueue]
  decide

/-- A round between the writes, and the setpoint arrives. -/
theorem setpoint_survives_round :
    ∃ e₁ e₂ answer₁ answer₂,
      fresh.handleRequest (writeSetpoint kilowatt) = .ok (e₁, answer₁) ∧
        (run .idle e₁ [.round]).handleRequest writeExternal = .ok (e₂, answer₂) ∧
          ((run .idle e₂ []).round .idle).task.sim.state.control =
            (.external, Scalar.ofInt kilowatt.toInt) := by
  have hset := Emulator.writeSetpoint_room fresh_room kilowatt
  set e₁ := fresh.push (.setSetpointW (some (Scalar.ofInt kilowatt.toInt)))
  have hroom : (run .idle e₁ [.round]).queue.length < COMMAND_QUEUE := by
    have hqueue : (run .idle e₁ [.round]).queue = [] := Emulator.drain_queue .idle e₁
    rw [hqueue]
    decide
  have hmode := Emulator.writeExternal_room hroom
  have h := setpoint_survives .idle fresh kilowatt [.round] [] hset ⟨trivial, trivial⟩ hmode trivial
  exact ⟨e₁, _, _, _, hset, hmode, h.1.mpr (h.2 List.mem_cons_self)⟩

/-- Both writes before the next tick: each is acknowledged, and the plant goes
external at the setpoint from before them. -/
theorem early_mode_write_loses :
    ∃ e₁ e₂ answer₁ answer₂,
      fresh.handleRequest (writeSetpoint kilowatt) = .ok (e₁, answer₁) ∧
        e₁.handleRequest writeExternal = .ok (e₂, answer₂) ∧
          (e₂.round .idle).task.sim.state.control ≠ (.external, Scalar.ofInt kilowatt.toInt) := by
  have hset := Emulator.writeSetpoint_room fresh_room kilowatt
  set e₁ := fresh.push (.setSetpointW (some (Scalar.ofInt kilowatt.toInt))) with he₁
  have hroom : e₁.queue.length < COMMAND_QUEUE := by
    have hqueue : fresh.queue = [] := rfl
    rw [he₁, Emulator.push, hqueue]
    decide
  have hmode := Emulator.writeExternal_room hroom
  refine ⟨e₁, _, _, _, hset, hmode, ?_⟩
  have hzero : fresh.task.sim.state.ems.externalSetpointW = Scalar.ofInt (0#32).toInt := by
    rw [Scalar.ofInt_real]
    simp [fresh, Emulator.start, Task.start, Simulation.new, Simulation.fromState, SiteState.new]
  have hshown : e₁.shown = 0#32 := shown_snapshot fresh.task rfl hzero
  have hend := mode_write_sends_shown .idle hmode (show QuietRun .idle _ [] from trivial)
  intro h
  have hext := hend.symm.trans h
  rw [Prod.mk.injEq, Emulator.currentSetpointW, hshown] at hext
  exact absurd (setpoint_injective hext.2) (by decide)

end BessSetpoint
