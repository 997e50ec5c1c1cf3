import BessEmulator.Replay
import Mathlib.Data.List.DropRight

/-!
# The alarm journal

The events the viewer has seen, in a bounded ring, and when each bit still set
was raised; and the one step both ways of moving the plant go through.
-/
namespace Bess

/-- Entries the ring keeps. -/
def CAPACITY : Nat := 4096

/-- One event as the journal keeps it. -/
structure Entry where
  seq : Nat
  unixTimeS : Int
  event : Event
  deriving DecidableEq

/-- The bounded ring, oldest entry first, and when each bit still set was raised. -/
structure Journal where
  entries : List Entry
  raised : AlarmNode × Nat → Option Int

namespace Journal

def new : Journal := ⟨[], fun _ => none⟩

/-- What one event does to the raise times. -/
def date (unixTimeS : Int) (raised : AlarmNode × Nat → Option Int) : Event → AlarmNode × Nat → Option Int
  | .alarmRaised node bit _ => Function.update raised (node, bit) (some unixTimeS)
  | .alarmCleared node bit _ => Function.update raised (node, bit) none
  | .pcsStateChanged .. | .faultApplied _ => raised

/-- One event with its number; the oldest entry makes room. -/
def note (unixTimeS : Int) (j : Journal) (e : Event × Nat) : Journal where
  entries :=
    (if j.entries.length = CAPACITY then j.entries.tail else j.entries) ++ [⟨e.2, unixTimeS, e.1⟩]
  raised := date unixTimeS j.raised e.1

/-- One tick's events; `logCount` is the kernel's count after the tick. -/
def record (j : Journal) (events : List Event) (logCount : Nat) (unixTimeS : Int) : Journal :=
  let first := logCount + 1 - events.length
  (events.zipIdx first).foldl (note unixTimeS) j

/-- Forget everything: the plant was replaced. -/
def clear (_ : Journal) : Journal := new

/-- The entry `i` places from the newest. -/
def newest (j : Journal) (i : Nat) : Option Entry :=
  if i + 1 ≤ j.entries.length then j.entries[j.entries.length - (i + 1)]? else none

/-- Events the ring has dropped. -/
def dropped (j : Journal) : Nat :=
  match j.entries.head? with
  | none => 0
  | some e => e.seq - 1

def raisedAt (j : Journal) (node : AlarmNode) (bit : Nat) : Option Int := j.raised (node, bit)

end Journal

section

variable {F : Type} [Scalar F]

/-- Step the plant once on the replayed weather and journal what it emitted. -/
def recordStep (weather : Int → Inputs F) (sim : Simulation F) (journal : Journal) :
    Simulation F × Journal :=
  let countBefore := sim.state.eventLog.count
  let tsAfter := sim.state.unixTimeS + (TICK_SECONDS : Int)
  let sim := sim.step (weather sim.state.unixTimeS)
  let events := sim.events
  if events.isEmpty then (sim, journal)
  else (sim, journal.record events (countBefore + events.length) tsAfter)

/-- A move of the plant under the viewer: a command goes past the journal. -/
def watch (v : Simulation F × Journal) : Move F → Simulation F × Journal
  | .command c => (v.1.command c, v.2)
  | .step inputs => recordStep (fun _ => inputs) v.1 v.2

end

end Bess

namespace BessJournal

open Bess BessReplay

/-- An entry of the whole log. -/
def entryOf (x : (Event × Int) × Nat) : Entry := ⟨x.2, x.1.2, x.1.1⟩

/-- Every event of a dated log under its number. -/
def numbered (log : List (Event × Int)) : List Entry := (log.zipIdx 1).map entryOf

/-- A dated event's edge of one bit, with its date. -/
def edge (node : AlarmNode) (bit : Nat) (x : Event × Int) : Option (Bool × Int) :=
  (bitMove node bit x.1).map fun m => (m.2, x.2)

/-- When a bit whose last edge is a raise was raised. -/
def lastRaised (node : AlarmNode) (bit : Nat) (log : List (Event × Int)) : Option Int :=
  match (log.filterMap (edge node bit)).getLast? with
  | some (true, unixTimeS) => some unixTimeS
  | _ => none

/-- The journal of a dated log: its last entries, and every bit's last raise. -/
structure Mirrors (log : List (Event × Int)) (j : Journal) : Prop where
  entries : j.entries = (numbered log).rtake CAPACITY
  raised : ∀ node bit, j.raised (node, bit) = lastRaised node bit log

theorem numbered_concat (log : List (Event × Int)) (x : Event × Int) :
    numbered (log ++ [x]) = numbered log ++ [⟨log.length + 1, x.2, x.1⟩] := by
  rw [numbered, numbered, List.zipIdx_append, List.map_append, Nat.add_comm]
  rfl

@[simp] theorem length_numbered (log : List (Event × Int)) : (numbered log).length = log.length := by
  rw [numbered, List.length_map, List.length_zipIdx]

/-- A full ring makes room by its oldest entry. -/
theorem rtake_push {α : Type} {n : Nat} (hn : 0 < n) (l : List α) (a : α) :
    (if (l.rtake n).length = n then (l.rtake n).tail else l.rtake n) ++ [a] = (l ++ [a]).rtake n := by
  obtain ⟨k, rfl⟩ : ∃ k, n = k + 1 := ⟨n - 1, by omega⟩
  rw [List.rtake_concat_succ]
  congr 1
  simp only [List.rtake, List.length_drop]
  split
  · rw [List.tail_drop]
    congr 1
    omega
  · rw [show l.length - (k + 1) = 0 by omega, show l.length - k = 0 by omega]

theorem edge_concat (node : AlarmNode) (bit : Nat) (log : List (Event × Int)) (x : Event × Int) :
    lastRaised node bit (log ++ [x]) =
      match edge node bit x with
      | some (true, unixTimeS) => some unixTimeS
      | some (false, _) => none
      | none => lastRaised node bit log := by
  rw [lastRaised, List.filterMap_append]
  cases hx : edge node bit x with
  | none => simp [hx, lastRaised]
  | some m =>
    obtain ⟨on, t⟩ := m
    cases on <;> simp [hx]

theorem mirrors_new : Mirrors [] Journal.new := ⟨rfl, fun _ _ => rfl⟩

/-- One bit's date changed: read at any node and bit. -/
theorem date_read (raised : AlarmNode × Nat → Option Int) (n node : AlarmNode) (b bit : Nat)
    (v : Option Int) :
    Function.update raised (n, b) v (node, bit) =
      if n = node ∧ b = bit then v else raised (node, bit) := by
  rw [Function.update_apply]
  by_cases hat : n = node ∧ b = bit
  · rw [if_pos hat, if_pos (by rw [hat.1, hat.2])]
  · rw [if_neg hat, if_neg (by rw [Prod.mk.injEq]; exact fun h => hat ⟨h.1.symm, h.2.symm⟩)]

/-- One event more, under the next number. -/
theorem mirrors_note {log : List (Event × Int)} {j : Journal} (h : Mirrors log j) (e : Event)
    (unixTimeS : Int) : Mirrors (log ++ [(e, unixTimeS)]) (j.note unixTimeS (e, log.length + 1)) where
  entries := by
    rw [Journal.note, numbered_concat, h.entries]
    exact rtake_push (by decide) _ _
  raised node bit := by
    rw [edge_concat, edge]
    cases e with
    | alarmRaised n b sev =>
      simp only [Journal.note, Journal.date, bitMove, date_read]
      split
      · rfl
      · exact h.raised node bit
    | alarmCleared n b sev =>
      simp only [Journal.note, Journal.date, bitMove, date_read]
      split
      · rfl
      · exact h.raised node bit
    | pcsStateChanged b old new => exact h.raised node bit
    | faultApplied a => exact h.raised node bit

/-- One tick's events, under the numbers the count gives them. -/
theorem mirrors_record {log : List (Event × Int)} {j : Journal} (h : Mirrors log j) (events : List Event)
    (unixTimeS : Int) :
    Mirrors (log ++ events.map fun e => (e, unixTimeS))
      (j.record events (log.length + events.length) unixTimeS) := by
  have hfold : ∀ (events : List Event) (log : List (Event × Int)) (j : Journal), Mirrors log j →
      Mirrors (log ++ events.map fun e => (e, unixTimeS))
        ((events.zipIdx (log.length + 1)).foldl (Journal.note unixTimeS) j) := by
    intro events
    induction events with
    | nil =>
      intro log j h
      rw [List.map_nil, List.append_nil]
      exact h
    | cons e events ih =>
      intro log j h
      have hnext := ih (log ++ [(e, unixTimeS)]) _ (mirrors_note h e unixTimeS)
      rw [List.length_append, List.append_assoc] at hnext
      exact hnext
  have hfirst : log.length + events.length + 1 - events.length = log.length + 1 := by omega
  rw [Journal.record, hfirst]
  exact hfold events log j h

section

variable {F : Type} [Scalar F]

/-- Every event the steps of a run hand out, each with the time of the tick that shows it. -/
def dated : Simulation F → List (Move F) → List (Event × Int)
  | _, [] => []
  | sim, .command c :: ms => dated (sim.command c) ms
  | sim, .step inputs :: ms =>
    ((sim.step inputs).events.map fun e => (e, (sim.step inputs).state.unixTimeS)) ++
      dated (sim.step inputs) ms

theorem dated_events (sim : Simulation F) (moves : List (Move F)) :
    (dated sim moves).map Prod.fst = handedOut sim moves := by
  induction moves generalizing sim with
  | nil => rfl
  | cons m ms ih =>
    cases m with
    | command c => exact ih _
    | step inputs =>
      rw [dated, handedOut, List.map_append, List.map_map, ih]
      congr 1
      exact List.map_id _

theorem watch_plant (v : Simulation F × Journal) (m : Move F) : (watch v m).1 = v.1.move m := by
  cases m with
  | command c => rfl
  | step inputs =>
    simp only [watch, recordStep]
    split <;> rfl

/-- A tick under the viewer journals what the tick hands out, at the time it leaves. -/
theorem mirrors_step {sim : Simulation F} (hs : Sound sim) {log : List (Event × Int)} {j : Journal}
    (h : Mirrors log j) (hcount : sim.state.eventLog.count = log.length) (inputs : Inputs F) :
    Mirrors (log ++ (sim.step inputs).events.map fun e => (e, (sim.step inputs).state.unixTimeS))
      (watch (sim, j) (.step inputs)).2 := by
  have htime : (sim.step inputs).state.unixTimeS = sim.state.unixTimeS + (TICK_SECONDS : Int) := by
    have htick : (sim.plant.siteTick sim.state inputs).tick = sim.state.tick + 1 := rfl
    have hstart : (sim.plant.siteTick sim.state inputs).siteMeta = sim.state.siteMeta := rfl
    rw [step_state hs, SiteState.unixTimeS, SiteState.unixTimeS, htick, hstart, TICK_SECONDS]
    omega
  simp only [watch, recordStep]
  split
  · rename_i hempty
    rw [List.isEmpty_iff.mp hempty, List.map_nil, List.append_nil]
    exact h
  · rw [htime, hcount]
    exact mirrors_record h _ _

/-- Along a run the viewer's plant is the plant, its journal mirrors what was
handed out, and the kernel counts as many. -/
theorem mirrors_run {sim : Simulation F} (hs : Sound sim) (moves : List (Move F)) {past : List (Event × Int)}
    {j : Journal} (h : Mirrors past j) (hcount : sim.state.eventLog.count = past.length) :
    (moves.foldl watch (sim, j)).1 = sim.run moves ∧
      Mirrors (past ++ dated sim moves) (moves.foldl watch (sim, j)).2 ∧
      (sim.run moves).state.eventLog.count = (past ++ dated sim moves).length := by
  induction moves generalizing sim past j with
  | nil =>
    rw [dated, List.append_nil]
    exact ⟨rfl, h, hcount⟩
  | cons m ms ih =>
    have hplant := watch_plant (sim, j) m
    have hwatch : watch (sim, j) m = (sim.move m, (watch (sim, j) m).2) := Prod.ext hplant rfl
    rw [List.foldl_cons, hwatch]
    cases m with
    | command c => exact ih (sound_command hs c) h ((congrArg _ (spoke_command sim c).2).trans hcount)
    | step inputs =>
      have hstep : (sim.step inputs).state.eventLog.count =
          (past ++ (sim.step inputs).events.map fun e => (e, (sim.step inputs).state.unixTimeS)).length := by
        rw [List.length_append, List.length_map, ← hcount, step_state hs, step_events hs]
        exact EventLog.recordAll_count _ _
      have hrest := ih (sound_step hs inputs) (mirrors_step hs h hcount inputs) hstep
      rw [List.append_assoc] at hrest
      exact hrest

end

/-- The times one bit was raised. -/
def raises (node : AlarmNode) (bit : Nat) (log : List (Event × Int)) : List Int :=
  (log.filterMap (edge node bit)).filterMap fun m => if m.1 then some m.2 else none

/-- The journal's raise time is the last one. -/
theorem lastRaised_raises {node : AlarmNode} {bit : Nat} {log : List (Event × Int)} {unixTimeS : Int}
    (h : lastRaised node bit log = some unixTimeS) : (raises node bit log).getLast? = some unixTimeS := by
  rw [lastRaised] at h
  split at h
  · rename_i hlast
    obtain ⟨front, hfront⟩ := List.getLast?_eq_some_iff.mp hlast
    rw [raises, hfront, List.filterMap_append]
    cases h
    exact List.getLast?_concat
  · cases h

theorem edges_moves (node : AlarmNode) (bit : Nat) (log : List (Event × Int)) :
    (log.filterMap (edge node bit)).map Prod.fst =
      ((log.map Prod.fst).filterMap (bitMove node bit)).map Prod.snd := by
  rw [List.map_filterMap, List.filterMap_map, List.map_filterMap]
  congr 1
  funext x
  simp only [edge, Function.comp_apply, Option.map_map]
  rfl

/-- Where the events tell how a dark bit came to be, it has a raise time exactly if it is set. -/
theorem lastRaised_isSome {node : AlarmNode} {bit : Nat} {log : List (Event × Int)} {on : Bool}
    (h : EdgeLog.Path false ((log.map Prod.fst).filterMap (bitMove node bit)) on) :
    (lastRaised node bit log).isSome = on := by
  have hedges := congrArg List.getLast? (edges_moves node bit log)
  rw [List.getLast?_map, List.getLast?_map] at hedges
  rw [lastRaised]
  cases hlast : ((log.map Prod.fst).filterMap (bitMove node bit)).getLast? with
  | none =>
    rw [List.getLast?_eq_none_iff] at hlast
    rw [hlast] at h hedges
    have hnone : (log.filterMap (edge node bit)).getLast? = none := by simpa using hedges
    have hoff : false = on := h
    rw [hnone, ← hoff]
    rfl
  | some m =>
    have hm : m.2 = on := h.getLast hlast
    rw [hlast, Option.map_some, Option.map_eq_some_iff] at hedges
    obtain ⟨⟨raised, unixTimeS⟩, hdated, hraised⟩ := hedges
    have hraised : raised = on := hraised.trans hm
    rw [hdated, hraised]
    cases on <;> rfl

theorem numbered_seq (log : List (Event × Int)) :
    (numbered log).map Entry.seq = List.range' 1 log.length := by
  have hseq : Entry.seq ∘ entryOf = Prod.snd := rfl
  rw [numbered, List.map_map, hseq, List.zipIdx_map_snd]

theorem mirrors_length {log : List (Event × Int)} {j : Journal} (h : Mirrors log j) :
    j.entries.length = min log.length CAPACITY := by
  rw [h.entries, List.rtake, List.length_drop, length_numbered]
  omega

/-- The entries are numbered without a gap up to the log's length. -/
theorem mirrors_seq {log : List (Event × Int)} {j : Journal} (h : Mirrors log j) :
    j.entries.map Entry.seq = List.range' (log.length - j.entries.length + 1) j.entries.length := by
  have hlen : log.length - (log.length - CAPACITY) = min log.length CAPACITY := by omega
  have hfirst : 1 + (log.length - CAPACITY) = log.length - min log.length CAPACITY + 1 := by omega
  rw [mirrors_length h, h.entries, List.rtake, List.map_drop, numbered_seq, List.drop_range', length_numbered,
    Nat.mul_one, hlen, hfirst]

theorem mirrors_dropped {log : List (Event × Int)} {j : Journal} (h : Mirrors log j) :
    j.dropped = log.length - j.entries.length := by
  have hseq := congrArg List.head? (mirrors_seq h)
  rw [List.head?_map, List.head?_range'] at hseq
  rw [Journal.dropped]
  cases hhead : j.entries.head? with
  | none =>
    have hempty := List.head?_eq_none_iff.mp hhead
    have hlen := mirrors_length h
    rw [hempty, List.length_nil] at hlen ⊢
    have : CAPACITY = 4096 := rfl
    simp only
    omega
  | some e =>
    rw [hhead, Option.map_some] at hseq
    split at hseq
    · cases hseq
    · have := Option.some.inj hseq
      simp only
      omega

/-- After every tick of a run from a new plant the journal is the log's end: the
last events in their order, numbered without a gap up to the kernel's count, each
with its tick's time, the rest counted as dropped; and a bit has a raise time
exactly if it is set, that of its last raise. -/
theorem journal_mirrors_log {F : Type} [Scalar F] (cfg : PlantConfig F) (models : Models F) (seed : UInt64)
    (t : Int) (hb : LowRacks models cfg) (before : List (Move F)) (inputs : Inputs F) :
    let sim := Simulation.new cfg models seed t
    let moves := before ++ [.step inputs]
    let v := moves.foldl watch (sim, Journal.new)
    let count := v.1.state.eventLog.count
    v.1 = sim.run moves ∧
      (dated sim moves).map Prod.fst = handedOut sim moves ∧ (dated sim moves).length = count ∧
      v.2.entries = (numbered (dated sim moves)).rtake CAPACITY ∧
      v.2.entries.length = min count CAPACITY ∧
      v.2.entries.map Entry.seq = List.range' (count - v.2.entries.length + 1) v.2.entries.length ∧
      v.2.dropped = count - v.2.entries.length ∧
      ∀ node bit,
        (v.2.raisedAt node bit).isSome = hasBit (wordOf v.1.state node) bit ∧
          ∀ unixTimeS, v.2.raisedAt node bit = some unixTimeS →
            (raises node bit (dated sim moves)).getLast? = some unixTimeS := by
  intro sim moves v count
  have hs : Sound sim := sound_new cfg models seed t
  obtain ⟨hplant, hmirrors, hcount⟩ := mirrors_run hs moves mirrors_new rfl
  rw [List.nil_append] at hmirrors hcount
  have hlen : (dated sim moves).length = count := by
    rw [← hcount, ← hplant]
  have hpending : (sim.run moves).state.pendingEvents = [] := by
    rw [Simulation.run_append]
    have hstep : ((sim.run before).step inputs).state.pendingEvents = [] := by
      rw [run_step_state hs before]
      rfl
    exact hstep
  have htells := (tells_run hs hb (lowTree_new cfg seed t) moves sim.state [] (Tells.refl _) rfl).1
  rw [List.nil_append, logOf, hpending, List.append_nil, ← dated_events] at htells
  refine ⟨hplant, dated_events sim moves, hlen, hmirrors.entries, ?_, ?_, ?_, ?_⟩
  · rw [mirrors_length hmirrors, hlen]
  · rw [mirrors_seq hmirrors, hlen]
  · rw [mirrors_dropped hmirrors, hlen]
  · intro node bit
    have hraised : v.2.raisedAt node bit = lastRaised node bit (dated sim moves) := hmirrors.raised node bit
    have hdark : hasBit (wordOf sim.state node) bit = false := by
      rw [show wordOf sim.state node = 0#32 from
        congrFun (congrArg Picture.words (pictureOf_new cfg seed t)) node]
      exact hasBit_zero bit
    have hpath := htells.bits node bit
    rw [hdark, ← hplant] at hpath
    rw [hraised]
    exact ⟨lastRaised_isSome hpath, fun _ => lastRaised_raises⟩

/-- On the reference plant, through a trip and the tick that tells it. -/
theorem journal_mirrors_log_gw01 :
    let sim : Simulation ℝ :=
      Simulation.new PlantConfig.gw01 (gw01Models PlantConfig.gw01 ⟨fun _ _ => 0⟩) 42 0
    let moves : List (Move ℝ) := [.command .tripProtection] ++ [.step ⟨⟨12, 0⟩, 50⟩]
    let v := moves.foldl watch (sim, Journal.new)
    v.2.entries.length = min v.1.state.eventLog.count CAPACITY ∧
      (v.2.raisedAt .site SiteBit.PROTECTION_TRIP).isSome =
        hasBit (wordOf v.1.state .site) SiteBit.PROTECTION_TRIP := by
  intro sim moves v
  obtain ⟨-, -, -, -, hlength, -, -, hraised⟩ :=
    journal_mirrors_log (F := ℝ) PlantConfig.gw01 (gw01Models PlantConfig.gw01 ⟨fun _ _ => 0⟩) 42 0
      (lowRacks_gw01 PlantConfig.gw01 ⟨fun _ _ => 0⟩) [.command .tripProtection] ⟨⟨12, 0⟩, 50⟩
  exact ⟨hlength, (hraised .site SiteBit.PROTECTION_TRIP).1⟩

end BessJournal
