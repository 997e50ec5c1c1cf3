import BessEmulator.Marks
import BessEmulator.PlantTask

/-!
# A played schedule is what the log says

The cursor hands out each tick exactly the entries of that tick, so the marks
of a run are those of the operator and those of the schedule, tick by tick. A
schedule thinned of data faults fires the same actions at the same ticks, and
the plant cannot tell the two apart.
-/
namespace BessMarks

open Bess BessCheckpoint BessAccepted

variable {F : Type}

/-- The action of a physical entry. -/
def actionOf (s : Scheduled F) : Option FaultAction :=
  match s.due with
  | .physical action => some action
  | .data _ => none

/-- The marks some entries leave on a plant of this configuration. -/
def dueMarks (cfg : PlantConfig F) (ss : List (Scheduled F)) : List FaultAction :=
  (ss.filterMap actionOf).filter (accepts cfg)

theorem dueMarks_append (cfg : PlantConfig F) (as bs : List (Scheduled F)) :
    dueMarks cfg (as ++ bs) = dueMarks cfg as ++ dueMarks cfg bs := by
  simp [dueMarks]

/-- Entries before a tick, then those at it, are those before the next. -/
theorem filter_next {ss : List (Scheduled F)} (h : ss.Pairwise fun a b => a.tick ≤ b.tick) (n : Nat) :
    (ss.filter fun s => decide (s.tick < n)) ++ (ss.filter fun s => decide (s.tick = n)) =
      ss.filter fun s => decide (s.tick < n + 1) := by
  induction ss with
  | nil => rfl
  | cons s ss ih =>
    obtain ⟨hs, hss⟩ := List.pairwise_cons.mp h
    have ih := ih hss
    by_cases hlt : s.tick < n
    · rw [List.filter_cons_of_pos (by simpa using hlt), List.filter_cons_of_neg (by simp; omega),
        List.filter_cons_of_pos (by simp; omega), List.cons_append, ih]
    · -- what follows is no earlier
      have hnone : ss.filter (fun s => decide (s.tick < n)) = [] := by
        rw [List.filter_eq_nil_iff]
        intro a ha
        have := hs a ha
        simp
        omega
      rw [hnone, List.nil_append] at ih
      rw [List.filter_cons_of_neg (by simpa using hlt), hnone, List.nil_append]
      by_cases heq : s.tick = n
      · rw [List.filter_cons_of_pos (by simpa using heq), List.filter_cons_of_pos (by simp; omega), ih]
      · rw [List.filter_cons_of_neg (by simpa using heq), List.filter_cons_of_neg (by simp; omega), ih]

variable [Scalar F]

omit [Scalar F] in
/-- The cursor hands out the entries of the tick. -/
theorem due_now {r : Resolved F} {pl : Plant F} {m : SiteMeta} {n : Nat} {p : Play F}
    (hr : r.schedule.Pairwise fun a b => a.tick ≤ b.tick) (h : OnTime r pl m n p) :
    (p.player.due p.sim.state.tick).1 = r.schedule.filter fun s => decide (s.tick = n) := by
  have hlt : ∀ s : Scheduled F, decide (s.tick < n) = true → decide (s.tick ≤ n) = true := by
    intro s hs
    rw [decide_eq_true_eq] at hs ⊢
    omega
  have hsucc : (fun s : Scheduled F => decide (s.tick ≤ n)) = fun s => decide (s.tick < n + 1) := by
    funext s
    exact decide_eq_decide.mpr Nat.lt_succ_iff.symm
  have hext := Bisect.takeWhile_extend hlt r.schedule
  have hdue : (p.player.due p.sim.state.tick).1 =
      (r.schedule.drop (placeAt r n)).takeWhile fun s => decide (s.tick ≤ n) := by
    rw [← h.schedule, ← h.cursor, ← h.clock]
    rfl
  rw [hdue, placeAt]
  rw [hsucc, takeWhile_tick hr, takeWhile_tick hr, ← filter_next hr n] at hext
  rw [hsucc, takeWhile_tick hr]
  exact (List.append_cancel_left hext).symm

/-- Fired in a row, entries leave their marks after those already there. -/
theorem marks_fire {sim : Simulation F} (hs : Sound sim) (due : List (Scheduled F)) :
    marks (sim.run (due.filterMap moveOf)).state.pendingEvents =
      marks sim.state.pendingEvents ++ dueMarks sim.cfg due := by
  induction due generalizing sim with
  | nil => exact (List.append_nil _).symm
  | cons s ss ih =>
    cases hd : s.due with
    | data fault =>
      have hmove : moveOf s = none := by rw [moveOf, hd]
      have haction : actionOf s = none := by rw [actionOf, hd]
      rw [List.filterMap_cons_none hmove, ih hs, dueMarks, dueMarks, List.filterMap_cons_none haction]
    | physical action =>
      have hmove : moveOf s = some (.command (.apply action)) := by rw [moveOf, hd]
      have haction : actionOf s = some action := by rw [actionOf, hd]
      have hcfg : (sim.command (.apply action)).cfg = sim.cfg :=
        congrArg Plant.cfg (command_plant sim (.apply action))
      rw [List.filterMap_cons_some hmove, Simulation.run_cons]
      rw [Simulation.move, ih (sound_command hs _), marks_command hs, hcfg, List.append_assoc]
      rw [dueMarks, dueMarks, List.filterMap_cons_some haction, spoken, List.filter_cons]
      split <;> rfl

section

variable {r : Resolved F} {pl : Plant F} {m : SiteMeta} {n : Nat} {p : Play F}
  (hr : r.schedule.Pairwise fun a b => a.tick ≤ b.tick) (h : OnTime r pl m n p)
  (weather : Int → Inputs F)
include hr h

/-- The marks of one tick: what waited, then the schedule's own. -/
theorem marks_tick :
    marks (p.tick weather).sim.events =
        marks p.sim.state.pendingEvents ++
          dueMarks pl.cfg (r.schedule.filter fun s => decide (s.tick = n)) ∧
      (p.tick weather).sim.state.pendingEvents = [] := by
  have hsound : Sound (p.player.fireDue p.sim).2.1 := by
    rw [fireDue_sim]
    exact sound_run h.sound _
  have hcfg : p.sim.cfg = pl.cfg := congrArg Plant.cfg h.plant
  constructor
  · rw [tick_sim, step_events hsound, Plant.tickEvents, marks_append, marks_newEvents,
      List.append_nil, fireDue_sim, marks_fire h.sound, due_now hr h, hcfg]
  · rw [tick_sim, step_state hsound]
    rfl

end

/-- What each tick of a run hands out. -/
def handedTicks (weather : Int → Inputs F) : Play F → List (Op F) → List (List Event)
  | _, [] => []
  | p, .command c :: ops => handedTicks weather (p.op weather (.command c)) ops
  | p, .tick :: ops => (p.tick weather).sim.events :: handedTicks weather (p.tick weather) ops

/-- The operator's marks ahead of each tick, from those already waiting. -/
def operatorMarks (cfg : PlantConfig F) : List FaultAction → List (Op F) → List (List FaultAction)
  | _, [] => []
  | waiting, .command c :: ops => operatorMarks cfg (waiting ++ spoken cfg c) ops
  | waiting, .tick :: ops => waiting :: operatorMarks cfg [] ops

/-- The schedule's marks of each of `k` ticks from `n` on. -/
def scheduleMarks (cfg : PlantConfig F) (r : Resolved F) (n k : Nat) : List (List FaultAction) :=
  (List.range' n k).map fun t => dueMarks cfg (r.schedule.filter fun s => decide (s.tick = t))

omit [Scalar F] in
/-- Tick by tick or all at once, the schedule leaves the same marks in one order. -/
theorem scheduleMarks_flatten (cfg : PlantConfig F) {r : Resolved F}
    (hr : r.schedule.Pairwise fun a b => a.tick ≤ b.tick) (k : Nat) :
    (scheduleMarks cfg r 0 k).flatten =
      dueMarks cfg (r.schedule.filter fun s => decide (s.tick < k)) := by
  induction k with
  | zero => simp [scheduleMarks, dueMarks]
  | succ k ih =>
    have hlast : scheduleMarks cfg r 0 (k + 1) = scheduleMarks cfg r 0 k ++
        [dueMarks cfg (r.schedule.filter fun s => decide (s.tick = k))] := by
      simp [scheduleMarks, List.range'_concat]
    rw [hlast, List.flatten_append, ih, ← filter_next hr, dueMarks_append]
    simp

theorem marks_handed {r : Resolved F} {pl : Plant F} {m : SiteMeta} {n : Nat} {p : Play F}
    (hr : r.schedule.Pairwise fun a b => a.tick ≤ b.tick) (h : OnTime r pl m n p)
    (weather : Int → Inputs F) (ops : List (Op F)) :
    (handedTicks weather p ops).map marks =
      List.zipWith (· ++ ·) (operatorMarks pl.cfg (marks p.sim.state.pendingEvents) ops)
        (scheduleMarks pl.cfg r n (ticksOf ops)) := by
  induction ops generalizing p n with
  | nil => rfl
  | cons op ops ih =>
    have hnext := onTime_op weather h op
    cases op with
    | command c =>
      have hcfg : p.sim.cfg = pl.cfg := congrArg Plant.cfg h.plant
      have hspoken : marks (p.op weather (.command c)).sim.state.pendingEvents =
          marks p.sim.state.pendingEvents ++ spoken pl.cfg c := by
        rw [← hcfg]
        exact marks_command h.sound c
      have hrest := ih hnext
      rw [hspoken] at hrest
      exact hrest
    | tick =>
      obtain ⟨hmarks, hempty⟩ := marks_tick hr h weather
      have hcount : ticksOf (.tick :: ops) = ticksOf ops + 1 := by simp [ticksOf]
      have hsched : scheduleMarks pl.cfg r n (ticksOf ops + 1) =
          dueMarks pl.cfg (r.schedule.filter fun s => decide (s.tick = n)) ::
            scheduleMarks pl.cfg r (n + 1) (ticksOf ops) := by
        rw [scheduleMarks, List.range'_succ, List.map_cons]
        rfl
      have hrest := ih (p := p.tick weather) hnext
      rw [hempty] at hrest
      rw [handedTicks, List.map_cons, hmarks, hrest, operatorMarks, hcount, hsched,
        List.zipWith_cons_cons]
      rfl

/-- `ts` is `ss` with some of its data entries removed. -/
inductive Thinned : List (Scheduled F) → List (Scheduled F) → Prop where
  | nil : Thinned [] []
  | keep (s : Scheduled F) {ss ts : List (Scheduled F)} : Thinned ss ts → Thinned (s :: ss) (s :: ts)
  | drop {s : Scheduled F} {fault : DataFault F} {ss ts : List (Scheduled F)} :
    s.due = .data fault → Thinned ss ts → Thinned (s :: ss) ts

omit [Scalar F] in
theorem Thinned.sublist {ss ts : List (Scheduled F)} (h : Thinned ss ts) : ts.Sublist ss := by
  induction h with
  | nil => exact List.Sublist.slnil
  | keep s h ih => exact ih.cons_cons s
  | drop hd h ih => exact ih.cons _

omit [Scalar F] in
/-- At every tick both fire the same actions. -/
theorem Thinned.moves {ss ts : List (Scheduled F)} (h : Thinned ss ts) (n : Nat) :
    (ts.filter fun s => decide (s.tick = n)).filterMap moveOf =
      (ss.filter fun s => decide (s.tick = n)).filterMap moveOf := by
  induction h with
  | nil => rfl
  | keep s h ih =>
    rw [List.filter_cons, List.filter_cons]
    split
    · rw [List.filterMap_cons, List.filterMap_cons, ih]
    · exact ih
  | @drop s fault ss ts hd h ih =>
    have hmove : moveOf s = none := by rw [moveOf, hd]
    rw [List.filter_cons]
    split
    · rw [List.filterMap_cons_none hmove, ih]
    · exact ih

/-- Two runs at the same tick of two schedules, on one tree. -/
structure SameTree (r r' : Resolved F) (pl : Plant F) (m : SiteMeta) (n : Nat) (p q : Play F) :
    Prop where
  left : OnTime r pl m n p
  right : OnTime r' pl m n q
  sims : Alike p.sim q.sim

section

variable {r r' : Resolved F} {pl : Plant F} {m : SiteMeta} {n : Nat} {p q : Play F}
  (hr : r.schedule.Pairwise fun a b => a.tick ≤ b.tick) (ht : Thinned r.schedule r'.schedule)
  (weather : Int → Inputs F)
include hr ht

theorem sameTree_tick (h : SameTree r r' pl m n p q) :
    Alike (p.tick weather).sim (q.tick weather).sim ∧
      (p.tick weather).sim.events = (q.tick weather).sim.events := by
  have hr' : r'.schedule.Pairwise fun a b => a.tick ≤ b.tick := hr.sublist ht.sublist
  have hfire : Alike (p.player.fireDue p.sim).2.1 (q.player.fireDue q.sim).2.1 := by
    rw [fireDue_sim, fireDue_sim, due_now hr h.left, due_now hr' h.right, ht.moves]
    exact alike_run h.sims _
  rw [tick_sim, tick_sim, ← hfire.state]
  exact alike_step hfire _

theorem sameTree_op (h : SameTree r r' pl m n p q) (op : Op F) :
    SameTree r r' pl m (n + ticksOf [op]) (p.op weather op) (q.op weather op) where
  left := onTime_op weather h.left op
  right := onTime_op weather h.right op
  sims := by
    cases op with
    | command c => exact alike_command h.sims c
    | tick => exact (sameTree_tick hr ht weather h).1

theorem sameTree_run (h : SameTree r r' pl m n p q) (ops : List (Op F)) :
    (q.run weather ops).sim.state = (p.run weather ops).sim.state ∧
      handedTicks weather q ops = handedTicks weather p ops := by
  induction ops generalizing p q n with
  | nil => exact ⟨h.sims.state.symm, rfl⟩
  | cons op ops ih =>
    obtain ⟨hstate, hhanded⟩ := ih (sameTree_op hr ht weather h op)
    refine ⟨hstate, ?_⟩
    cases op with
    | command c => exact hhanded
    | tick =>
      have hevents := (sameTree_tick hr ht weather h).2
      exact congrArg₂ List.cons hevents.symm hhanded

end

/-- A simulation and the scenario in force beside it, as the plant task holds them; the
tick is the task's (`Shell.of_task`). -/
structure Shell (F : Type) where
  sim : Simulation F
  active : Active F

namespace Shell

def tick (weather : Int → Inputs F) (q : Shell F) : Shell F :=
  let (active, sim, _) := q.active.fireDue q.sim
  ⟨sim.step (weather sim.state.unixTimeS), active⟩

def op (weather : Int → Inputs F) (q : Shell F) : Op F → Shell F
  | .command c => { q with sim := q.sim.command c }
  | .tick => q.tick weather

def run (weather : Int → Inputs F) (q : Shell F) (ops : List (Op F)) : Shell F :=
  ops.foldl (op weather) q

/-- Without its taps. -/
def play (q : Shell F) : Play F := ⟨q.sim, q.active.player⟩

/-- What a firing does to the plant and the cursor never reads the taps. -/
theorem play_op (weather : Int → Inputs F) (q : Shell F) (o : Op F) :
    (q.op weather o).play = q.play.op weather o := by
  cases o with
  | command c => rfl
  | tick => rfl

theorem play_run (weather : Int → Inputs F) (q : Shell F) (ops : List (Op F)) :
    (q.run weather ops).play = q.play.run weather ops := by
  induction ops generalizing q with
  | nil => rfl
  | cons o ops ih =>
    rw [run, List.foldl_cons, Play.run, List.foldl_cons, ← play_op]
    exact ih _

/-- The task's own tick under a scenario. -/
theorem of_task (ref : Reference F) {t : Bess.Task F} {active : Active F} (h : t.story = some active) :
    (t.tick ref).sim = (tick ref.inputsAt ⟨t.sim, active⟩).sim ∧
      (t.tick ref).story = some (tick ref.inputsAt ⟨t.sim, active⟩).active := by
  rw [Bess.Task.tick, Bess.Task.fireDue, h]
  exact ⟨rfl, rfl⟩

end Shell

/-- The schedule appears in what a run hands out, entry by entry, each at its
own tick; `once` puts the ticks of a run together. -/
structure LogSays (r : Resolved F) (cfg : PlantConfig F) (models : Models F) : Prop where
  order : r.schedule.Pairwise fun a b => a.before b = true
  ticks : ∀ weather ops, (handedTicks weather (r.play cfg models) ops).map marks =
    List.zipWith (· ++ ·) (operatorMarks cfg [] ops) (scheduleMarks cfg r 0 (ticksOf ops))
  once : ∀ n, (scheduleMarks cfg r 0 n).flatten =
    dueMarks cfg (r.schedule.filter fun s => decide (s.tick < n))
  shell : ∀ points weather ops,
    (Shell.run weather ⟨r.simulation cfg models, Active.new r points⟩ ops).play =
      (r.play cfg models).run weather ops

/-- No tree and no event of any run tells two schedules apart. -/
structure Indistinguishable (r r' : Resolved F) (cfg : PlantConfig F) (models : Models F) :
    Prop where
  trees : ∀ weather ops, ((r'.play cfg models).run weather ops).sim.state =
    ((r.play cfg models).run weather ops).sim.state
  events : ∀ weather ops, handedTicks weather (r'.play cfg models) ops =
    handedTicks weather (r.play cfg models) ops

/-- Under any weather and any commands between the ticks, a resolved schedule
is what the log says, and a schedule rid of any of its data faults moves the
plant exactly as it did. -/
theorem schedule_is_logged (scenario : Scenario F) (params : RunParams F) (cfg : PlantConfig F)
    (models : Models F) :
    let r := scenario.resolve params
    LogSays r cfg models ∧
      ∀ schedule, Thinned r.schedule schedule →
        Indistinguishable r { r with schedule := schedule } cfg models := by
  intro r
  have hr := schedule_sorted scenario params
  have hstart := onTime_play r cfg models
  refine ⟨⟨?_, ?_, scheduleMarks_flatten cfg hr, ?_⟩, ?_⟩
  · exact List.pairwise_mergeSort before_trans before_total _
  · exact fun weather ops => marks_handed hr hstart weather ops
  · exact fun points weather ops => Shell.play_run weather _ ops
  · intro schedule ht
    have hother := onTime_play { r with schedule := schedule } cfg models
    have hsame : SameTree r { r with schedule := schedule } (r.simulation cfg models).plant
        (r.simulation cfg models).state.siteMeta 0 (r.play cfg models)
        (Resolved.play { r with schedule := schedule } cfg models) :=
      ⟨hstart, hother, rfl, rfl, hstart.sound, hother.sound⟩
    exact ⟨fun weather ops => (sameTree_run hr ht weather hsame ops).1,
      fun weather ops => (sameTree_run hr ht weather hsame ops).2⟩

end BessMarks
