import BessEmulator.Accepted
import BessEmulator.Setpoint

/-!
# A speed, then a scenario

A client posts a speed and then a file that states none, in any interleaving
with the plant task and the other surfaces. The load's handler fills in the
speed of the snapshot published last, so a speed still in the queue is
overwritten by the one before it.
-/
namespace BessSpeed

open Bess BessAccepted BessSetpoint

section

variable {F : Type} [Scalar F]

/-- `POST /api/v1/speed`: refused outside the range, else a command in the queue,
which the request waits for while the channel is full. -/
def postSpeed (e : Emulator F) (factor : F) : Option (Emulator F) :=
  if 1.0 ≤ factor ∧ factor ≤ MAX_SPEED then e.trySend (.setSpeed factor) else none

/-- The speed a command leaves the plant at; nothing if it leaves the speed alone. -/
def speedOf : Task.Command F → Option F
  | .setSpeed factor => some (Bess.Task.clampSpeed factor)
  | .loadScenario resolved => some (Bess.Task.clampSpeed resolved.params.speed)
  | .setSetpointW _ => none
  | .resetAlarms _ => none

/-- The plant's speed once the queue is drained. -/
def owedSpeed (e : Emulator F) : F :=
  e.queue.foldl (fun v c => (speedOf c).getD v) e.task.speed

/-- No command waiting from place `n` on is about the speed. -/
def QuietFrom (n : Nat) (e : Emulator F) : Prop := ∀ c ∈ e.queue.drop n, speedOf c = none

/-- How many of the first `n` commands of a queue an act leaves waiting. -/
def left (n : Nat) : Act F → Nat
  | .recv => n - 1
  | .round => 0
  | .request _ => n
  | .command _ => n
  | .tick => n

theorem speed_command (ref : Reference F) (t : Bess.Task F) (published : Snapshot F)
    (c : Task.Command F) :
    (t.command ref published c).1.speed = (speedOf c).getD t.speed := by
  cases c with
  | setSetpointW w => rfl
  | setSpeed factor => rfl
  | resetAlarms scope => rfl
  | loadScenario resolved => rfl

theorem speed_tick (ref : Reference F) (t : Bess.Task F) : (t.tick ref).speed = t.speed := by
  rw [Bess.Task.tick, Bess.Task.fireDue]
  cases t.story with
  | none => rfl
  | some active => rfl

theorem owedSpeed_recv (ref : Reference F) (e : Emulator F) : owedSpeed (e.recv ref) = owedSpeed e := by
  rw [Emulator.recv]
  cases hq : e.queue with
  | nil => rfl
  | cons c queue =>
    have hc := speed_command ref e.task e.snapshot c
    simp only [owedSpeed, hq, List.foldl_cons, hc]

theorem owedSpeed_tick (ref : Reference F) (e : Emulator F) : owedSpeed (e.tick ref) = owedSpeed e := by
  have ht := speed_tick ref e.task
  simp only [owedSpeed, Emulator.tick, ht]

theorem owedSpeed_trySend {e e' : Emulator F} {c : Task.Command F} (h : e.trySend c = some e') :
    owedSpeed e' = (speedOf c).getD (owedSpeed e) := by
  obtain rfl := Emulator.trySend_eq h
  simp only [owedSpeed, List.foldl_append, List.foldl_cons, List.foldl_nil]

/-- With nothing about the speed waiting, the plant runs at what it owes. -/
theorem owedSpeed_quiet {e : Emulator F} (h : QuietFrom 0 e) : owedSpeed e = e.task.speed := by
  have hfold : ∀ (cs : List (Task.Command F)) (v : F), (∀ c ∈ cs, speedOf c = none) →
      cs.foldl (fun v c => (speedOf c).getD v) v = v := by
    intro cs
    induction cs with
    | nil => intro v _; rfl
    | cons c cs ih =>
      intro v hcs
      rw [List.foldl_cons, hcs c List.mem_cons_self, Option.getD_none]
      exact ih v fun d hd => hcs d (List.mem_cons_of_mem c hd)
  exact hfold e.queue _ h

theorem request_sends (ref : Reference F) (e : Emulator F) (r : Request) :
    act ref e (.request r) = e ∨
      ∃ w, e.trySend (.setSetpointW w) = some (act ref e (.request r)) := by
  cases hr : e.handleRequest r with
  | error code =>
    left
    simp only [act, hr]
  | ok answer =>
    simp only [act, hr]
    exact Emulator.handleRequest_sends hr

/-- What a send of a kind, a receive and a tick keep, every act keeps whose
command is of that kind. -/
theorem kept_act {P : Emulator F → Prop} {Q : Task.Command F → Prop} (ref : Reference F)
    (hset : ∀ w, Q (.setSetpointW w))
    (hsend : ∀ {e e' c}, P e → Q c → e.trySend c = some e' → P e')
    (hrecv : ∀ {e}, P e → P (e.recv ref)) (htick : ∀ {e}, P e → P (e.tick ref)) {e : Emulator F}
    {a : Act F} (ha : ∀ c, a = .command c → Q c) (h : P e) : P (act ref e a) := by
  cases a with
  | request r =>
    obtain hsame | ⟨w, hs⟩ := request_sends ref e r
    · rw [hsame]
      exact h
    · exact hsend h (hset w) hs
  | command c =>
    obtain hsame | hs := command_sends ref e c
    · rw [hsame]
      exact h
    · exact hsend h (ha c rfl) hs
  | recv => exact hrecv h
  | tick => exact htick h
  | round =>
    have hiter : ∀ n (e : Emulator F), P e → P (Nat.iterate (Emulator.recv ref) n e) := by
      intro n
      induction n with
      | zero => exact fun _ h => h
      | succ n ih => exact fun e h => ih _ (hrecv h)
    exact htick (hiter _ e h)

theorem kept_run {P : Emulator F → Prop} {Q : Task.Command F → Prop} (ref : Reference F)
    (hset : ∀ w, Q (.setSetpointW w))
    (hsend : ∀ {e e' c}, P e → Q c → e.trySend c = some e' → P e')
    (hrecv : ∀ {e}, P e → P (e.recv ref)) (htick : ∀ {e}, P e → P (e.tick ref)) {e : Emulator F}
    {acts : List (Act F)} (ha : ∀ c, .command c ∈ acts → Q c) (h : P e) : P (run ref e acts) := by
  induction acts generalizing e with
  | nil => exact h
  | cons a as ih =>
    apply ih fun c hc => ha c (List.mem_cons_of_mem a hc)
    exact kept_act ref hset hsend hrecv htick
      (fun c hc => ha c (by rw [hc]; exact List.mem_cons_self)) h

/-- No speed is posted and no scenario loaded. -/
def SpeedQuiet (acts : List (Act F)) : Prop := ∀ c, .command c ∈ acts → speedOf c = none

theorem owedSpeed_run (ref : Reference F) {e : Emulator F} {acts : List (Act F)}
    (h : SpeedQuiet acts) : owedSpeed (run ref e acts) = owedSpeed e := by
  apply kept_run (P := fun e' => owedSpeed e' = owedSpeed e) ref (fun _ => rfl) _ _ _ h rfl
  · intro e₁ e₂ c h₁ hc hs
    rw [owedSpeed_trySend hs, hc, Option.getD_none, h₁]
  · exact fun h₁ => (owedSpeed_recv ref _).trans h₁
  · exact fun h₁ => (owedSpeed_tick ref _).trans h₁

theorem quietFrom_trySend {n : Nat} {e e' : Emulator F} {c : Task.Command F}
    (h : QuietFrom n e) (hc : speedOf c = none) (hs : e.trySend c = some e') : QuietFrom n e' := by
  obtain rfl := Emulator.trySend_eq hs
  intro d hd
  rw [List.drop_append] at hd
  rcases List.mem_append.mp hd with hd | hd
  · exact h d hd
  · rw [List.mem_singleton.mp (List.mem_of_mem_drop hd)]
    exact hc

theorem quietFrom_act (ref : Reference F) {n : Nat} {e : Emulator F} {a : Act F}
    (h : QuietFrom n e) (ha : ∀ c, a = .command c → speedOf c = none) :
    QuietFrom (left n a) (act ref e a) := by
  cases a with
  | request r =>
    obtain hsame | ⟨w, hs⟩ := request_sends ref e r
    · rw [hsame]
      exact h
    · exact quietFrom_trySend h rfl hs
  | command c =>
    obtain hsame | hs := command_sends ref e c
    · rw [hsame]
      exact h
    · exact quietFrom_trySend h (ha c rfl) hs
  | recv =>
    intro c hc
    have hq := Emulator.queue_recv ref e
    simp only [act, hq, left, List.drop_tail] at hc
    cases n with
    | zero => exact h c (List.mem_of_mem_drop hc)
    | succ n => exact h c hc
  | tick => exact h
  | round =>
    intro c hc
    have hq : (e.round ref).queue = [] := Emulator.drain_queue ref e
    simp only [act, hq, left, List.drop_nil] at hc
    cases hc

theorem quietFrom_run (ref : Reference F) {n : Nat} {e : Emulator F} {acts : List (Act F)}
    (h : QuietFrom n e) (ha : SpeedQuiet acts) :
    QuietFrom (acts.foldl left n) (run ref e acts) := by
  induction acts generalizing n e with
  | nil => exact h
  | cons a as ih =>
    have hfirst : QuietFrom (left n a) (act ref e a) :=
      quietFrom_act ref h fun c hc => ha c (by rw [hc]; exact List.mem_cons_self)
    exact ih hfirst fun c hc => ha c (List.mem_cons_of_mem a hc)

theorem quietFrom_queue (e : Emulator F) : QuietFrom e.queue.length e := by
  intro c hc
  rw [List.drop_length] at hc
  cases hc

/-- Once everything queued up to now has been received, quiet acts leave the
plant at the speed that is owed now. -/
theorem speed_received (ref : Reference F) {e : Emulator F} {acts : List (Act F)}
    (ha : SpeedQuiet acts) (hleft : acts.foldl left e.queue.length = 0) :
    QuietFrom 0 (run ref e acts) ∧ (run ref e acts).task.speed = owedSpeed e := by
  have hquiet := quietFrom_run ref (quietFrom_queue e) ha
  rw [hleft] at hquiet
  exact ⟨hquiet, (owedSpeed_quiet hquiet).symm.trans (owedSpeed_run ref ha)⟩

/-- The speed has gone through: in the plant, in the snapshot, and nothing
queued sets another. -/
structure Settled (v : F) (e : Emulator F) : Prop where
  plant : e.task.speed = v
  shown : e.snapshot.speed = v
  queue : QuietFrom 0 e

theorem settled_tick (ref : Reference F) {v : F} {e : Emulator F} (hp : e.task.speed = v)
    (hq : QuietFrom 0 e) : Settled v (e.tick ref) := by
  have ht : (e.task.tick ref).speed = v := (speed_tick ref e.task).trans hp
  exact ⟨ht, ht, hq⟩

theorem settled_recv (ref : Reference F) {v : F} {e : Emulator F} (h : Settled v e) :
    Settled v (e.recv ref) := by
  have hquiet : QuietFrom 0 (e.recv ref) :=
    quietFrom_act (a := .recv) ref h.queue fun _ hc => by cases hc
  refine ⟨?_, ?_, hquiet⟩
  · rw [← owedSpeed_quiet hquiet, owedSpeed_recv, owedSpeed_quiet h.queue, h.plant]
  · rw [Emulator.recv]
    cases hq : e.queue with
    | nil => exact h.shown
    | cons c queue =>
      have hc : speedOf c = none := h.queue c (by rw [hq]; exact List.mem_cons_self)
      cases c with
      | setSetpointW w => exact h.shown
      | setSpeed factor => cases hc
      | resetAlarms scope => exact h.shown
      | loadScenario resolved => cases hc

theorem settled_trySend {v : F} {e e' : Emulator F} {c : Task.Command F} (h : Settled v e)
    (hc : speedOf c = none) (hs : e.trySend c = some e') : Settled v e' := by
  have hquiet := quietFrom_trySend h.queue hc hs
  obtain rfl := Emulator.trySend_eq hs
  exact ⟨h.plant, h.shown, hquiet⟩

theorem settled_run (ref : Reference F) {v : F} {e : Emulator F} {acts : List (Act F)}
    (h : Settled v e) (ha : SpeedQuiet acts) : Settled v (run ref e acts) :=
  kept_run ref (fun _ => rfl) settled_trySend (settled_recv ref)
    (fun h => settled_tick ref h.plant h.queue) ha h

end

/-- The speeds a plant can run at. -/
def InRange (v : ℝ) : Prop := 1.0 ≤ v ∧ v ≤ MAX_SPEED

theorem clampSpeed_mem (v : ℝ) : InRange (Bess.Task.clampSpeed v) := by
  have hband : (1.0 : ℝ) ≤ MAX_SPEED := by norm_num [MAX_SPEED]
  exact ⟨Scalar.le_clamp hband, Scalar.clamp_le hband⟩

theorem clampSpeed_of_mem {v : ℝ} (h : InRange v) : Bess.Task.clampSpeed v = v :=
  Scalar.clamp_of_mem h.1 h.2

/-- The plant's speed and the one shown last are in range. -/
structure Ranged (e : Emulator ℝ) : Prop where
  plant : InRange e.task.speed
  shown : InRange e.snapshot.speed

theorem ranged_recv (ref : Reference ℝ) {e : Emulator ℝ} (h : Ranged e) : Ranged (e.recv ref) := by
  rw [Emulator.recv]
  cases hq : e.queue with
  | nil => exact h
  | cons c queue =>
    cases c with
    | setSetpointW w => exact ⟨h.plant, h.shown⟩
    | setSpeed factor => exact ⟨clampSpeed_mem factor, h.shown⟩
    | resetAlarms scope => exact ⟨h.plant, h.shown⟩
    | loadScenario resolved => exact ⟨clampSpeed_mem _, clampSpeed_mem _⟩

theorem ranged_tick (ref : Reference ℝ) {e : Emulator ℝ} (h : Ranged e) : Ranged (e.tick ref) := by
  have ht : InRange (e.task.tick ref).speed := by
    rw [speed_tick]
    exact h.plant
  exact ⟨ht, ht⟩

theorem ranged_trySend {e e' : Emulator ℝ} {c : Task.Command ℝ} (h : Ranged e)
    (hs : e.trySend c = some e') : Ranged e' := by
  obtain rfl := Emulator.trySend_eq hs
  exact ⟨h.plant, h.shown⟩

theorem ranged_run (ref : Reference ℝ) {e : Emulator ℝ} (h : Ranged e) (acts : List (Act ℝ)) :
    Ranged (run ref e acts) :=
  kept_run (Q := fun _ => True) ref (fun _ => trivial) (fun h _ hs => ranged_trySend h hs)
    (ranged_recv ref) (ranged_tick ref) (fun _ _ => trivial) h

/-- A client's exchange with a plant, as it went: a speed accepted, a valid
file without one posted, the handler's parameters read and its command sent,
and the load received. `before` is all the client and the others did until
then; in between nobody posts a speed or another file. -/
structure Exchange (ref : Reference ℝ) (start : Emulator ℝ) where
  before : List (Act ℝ)
  factor : ℝ
  accepted : Emulator ℝ
  posted : postSpeed (run ref start before) factor = some accepted
  between : List (Act ℝ)
  quiet_between : SpeedQuiet between
  file : File ℝ
  hash : UInt64
  scenario : Scenario ℝ
  valid : validate file PlantConfig.gw01 hash = .ok scenario
  unstated : scenario.speed = none
  /-- While the channel has no room the send waits. -/
  waiting : List (Act ℝ)
  quiet_waiting : SpeedQuiet waiting
  sent : Emulator ℝ
  loading : (run ref (run ref accepted between) waiting).trySend
    (.loadScenario (scenario.resolve ((run ref accepted between).loadParams scenario))) = some sent
  after : List (Act ℝ)
  quiet_after : SpeedQuiet after
  answered : after.foldl left sent.queue.length = 0

namespace Exchange

variable {ref : Reference ℝ} {start : Emulator ℝ} (x : Exchange ref start)

/-- The emulator as the load's handler reads its parameters. -/
noncomputable def read : Emulator ℝ := run ref x.accepted x.between

/-- The emulator once the load has been answered, and after. -/
noncomputable def finish : Emulator ℝ := run ref x.sent x.after

/-- A tick went out after the task had received the speed, ahead of the read. -/
def Published : Prop :=
  ∃ as bs, x.between = as ++ .tick :: bs ∧ as.foldl left x.accepted.queue.length = 0

theorem accepted_factor : InRange x.factor ∧
    (run ref start x.before).trySend (.setSpeed x.factor) = some x.accepted := by
  have hposted := x.posted
  rw [postSpeed] at hposted
  split at hposted
  · exact ⟨‹_›, hposted⟩
  · cases hposted

/-- What the load leaves out is filled in from the snapshot published last. -/
theorem finish_speed (hstart : Ranged start) : x.finish.task.speed = x.read.snapshot.speed := by
  have hread : Ranged x.read :=
    ranged_run ref (ranged_trySend (ranged_run ref hstart _) x.accepted_factor.2) _
  have hend := (speed_received ref x.quiet_after x.answered).2
  have hloaded := owedSpeed_trySend x.loading
  have hfilled : (x.read.loadParams x.scenario).speed = x.read.snapshot.speed := by
    rw [Emulator.loadParams, x.unstated, Option.getD_none]
  rw [finish, hend, hloaded]
  change Bess.Task.clampSpeed (x.read.loadParams x.scenario).speed = _
  rw [hfilled, clampSpeed_of_mem hread.shown]

/-- The accepted speed is shown once the task has published a tick at it. -/
theorem shown_published (h : x.Published) : x.read.snapshot.speed = x.factor := by
  obtain ⟨as, bs, hbetween, hleft⟩ := h
  obtain ⟨hrange, hsent⟩ := x.accepted_factor
  have hquiet := x.quiet_between
  rw [hbetween] at hquiet
  have has : SpeedQuiet as := fun c hc => hquiet c (List.mem_append_left _ hc)
  have hbs : SpeedQuiet bs :=
    fun c hc => hquiet c (List.mem_append_right _ (List.mem_cons_of_mem _ hc))
  obtain ⟨hqueue, hspeed⟩ := speed_received ref has hleft
  have howed : owedSpeed x.accepted = x.factor := by
    rw [owedSpeed_trySend hsent]
    exact clampSpeed_of_mem hrange
  have hsettled := settled_run ref (settled_tick ref (hspeed.trans howed) hqueue) hbs
  rw [read, hbetween, run_append]
  exact hsettled.shown

end Exchange

/-- Once the load is answered the plant runs at the accepted speed exactly if
the snapshot the handler read showed it, as it does when the task published a
tick at that speed between the two requests. -/
theorem load_keeps_speed (ref : Reference ℝ) (sim : Simulation ℝ) (speed : ℝ)
    (scenario : Option (Resolved ℝ)) (map : SignalMap ℝ)
    (x : Exchange ref (Emulator.start (Task.start sim speed scenario map))) :
    (x.finish.task.speed = x.factor ↔ x.read.snapshot.speed = x.factor) ∧
      (x.Published → x.read.snapshot.speed = x.factor) := by
  have hstart : Ranged (Emulator.start (Task.start sim speed scenario map)) :=
    ⟨clampSpeed_mem speed, clampSpeed_mem speed⟩
  rw [x.finish_speed hstart]
  exact ⟨Iff.rfl, x.shown_published⟩

/-- Asked for sixty, the reference plant receives it and publishes a tick before a scenario
without a speed is posted: the load keeps sixty. -/
theorem load_keeps_speed_shown :
    ∃ x : Exchange .idle fresh, x.factor = 60 ∧ x.Published ∧ x.finish.task.speed = x.factor := by
  have hrange : (1.0 : ℝ) ≤ 60 ∧ (60 : ℝ) ≤ MAX_SPEED := by norm_num [MAX_SPEED]
  have hposted : postSpeed fresh 60 = fresh.trySend (.setSpeed 60) := if_pos hrange
  let accepted : Emulator ℝ := { fresh with queue := [.setSpeed 60] }
  let shown : Emulator ℝ := run .idle accepted [.recv, .tick]
  let x : Exchange .idle fresh :=
    { before := []
      factor := 60
      accepted := accepted
      posted := hposted
      between := [.recv, .tick]
      quiet_between := fun c hc => by simp at hc
      file := shiftFile
      hash := 1
      scenario := shiftScenario
      valid := rfl
      unstated := rfl
      waiting := []
      quiet_waiting := fun c hc => by cases hc
      sent := { shown with queue := [.loadScenario (shiftScenario.resolve
        (shown.loadParams shiftScenario))] }
      loading := rfl
      after := [.recv]
      quiet_after := fun c hc => by simp at hc
      answered := rfl }
  have hpublished : x.Published := ⟨[.recv], [], rfl, rfl⟩
  have hkept := load_keeps_speed .idle _ _ _ _ x
  exact ⟨x, rfl, hpublished, hkept.1.mpr (hkept.2 hpublished)⟩

/-- The reference plant at speed one, asked for sixty: with the speed still in
the queue, a scenario without one is loaded at speed one. -/
theorem load_drops_speed :
    ∃ x : Exchange .idle fresh, x.factor = 60 ∧ x.finish.task.speed ≠ x.factor := by
  have hrange : (1.0 : ℝ) ≤ 60 ∧ (60 : ℝ) ≤ MAX_SPEED := by norm_num [MAX_SPEED]
  have hstart : Ranged fresh := ⟨clampSpeed_mem 1, clampSpeed_mem 1⟩
  have hposted : postSpeed fresh 60 = fresh.trySend (.setSpeed 60) := if_pos hrange
  let x : Exchange .idle fresh :=
    { before := []
      factor := 60
      accepted := { fresh with queue := [.setSpeed 60] }
      posted := hposted
      between := []
      quiet_between := fun c hc => by cases hc
      file := shiftFile
      hash := 1
      scenario := shiftScenario
      valid := rfl
      unstated := rfl
      waiting := []
      quiet_waiting := fun c hc => by cases hc
      sent := { fresh with queue := [.setSpeed 60, .loadScenario (shiftScenario.resolve
        (fresh.loadParams shiftScenario))] }
      loading := rfl
      after := [.recv, .recv]
      quiet_after := fun c hc => by simp at hc
      answered := rfl }
  refine ⟨x, rfl, ?_⟩
  have hshown : x.read.snapshot.speed = 1 := by
    have hone : (1.0 : ℝ) ≤ 1 ∧ (1 : ℝ) ≤ MAX_SPEED := by norm_num [MAX_SPEED]
    exact clampSpeed_of_mem hone
  rw [x.finish_speed hstart, hshown]
  norm_num [x]

end BessSpeed
