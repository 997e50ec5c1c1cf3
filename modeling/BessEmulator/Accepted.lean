import BessEmulator.Checkpoint
import BessEmulator.Door
import BessEmulator.Validate

/-!
# A validated scenario is never refused

What validation reads of a file, event by event, and what the kernel's door
makes of it when the schedule is played: the two agree on every node.
-/
namespace BessAccepted

open Bess BessDoor BessCheckpoint

variable {F : Type} [Scalar F]

omit [Scalar F] in
/-- The target of a physical event. -/
def targetOf (e : ScenarioEvent F) : Option Target :=
  match e.fault with
  | .physical target _ => some target
  | .data _ => none

/-- Events accepted one after another: each read from its place in the file,
ahead of the file's length, and in its target's order. -/
inductive Accepted (cfg : PlantConfig F) (lengthS : Option Nat) :
    List (Spanned (EventSpec F)) → Nat → LastOn → List (ScenarioEvent F) → Prop where
  | nil (index : Nat) (lastOn : LastOn) : Accepted cfg lengthS [] index lastOn []
  | cons {spanned rest index lastOn lastOn' e es}
    (read : event index spanned.value cfg = .ok e)
    (within : ∀ l, lengthS = some l → e.atS < l)
    (order : inOrder lastOn e = .ok lastOn')
    (more : Accepted cfg lengthS rest (index + 1) lastOn' es) :
    Accepted cfg lengthS (spanned :: rest) index lastOn (e :: es)

theorem checkEvents_accepted {cfg : PlantConfig F} {lengthS : Option Nat}
    {specs : List (Spanned (EventSpec F))} {index : Nat} {lastOn : LastOn}
    {es : List (ScenarioEvent F)} (h : checkEvents cfg lengthS specs index lastOn = .ok es) :
    Accepted cfg lengthS specs index lastOn es := by
  induction specs generalizing index lastOn es with
  | nil =>
    cases h
    exact .nil index lastOn
  | cons spanned rest ih =>
    rw [checkEvents] at h
    split at h
    · cases h
    · rename_i e hread
      split at h
      · cases h
      · rename_i hwithin
        split at h
        · cases h
        · rename_i lastOn' horder
          split at h
          · cases h
          · rename_i es' hmore
            cases h
            refine .cons hread (fun l hl => ?_) horder (ih hmore)
            rw [hl] at hwithin
            simpa using hwithin

theorem accepted_length {cfg : PlantConfig F} {lengthS : Option Nat}
    {specs : List (Spanned (EventSpec F))} {index : Nat} {lastOn : LastOn}
    {es : List (ScenarioEvent F)} (h : Accepted cfg lengthS specs index lastOn es) :
    es.length = specs.length := by
  induction h with
  | nil index lastOn => rfl
  | cons read within order more ih => rw [List.length_cons, List.length_cons, ih]

/-- Each event is what was read at its place in the file. -/
theorem accepted_read {cfg : PlantConfig F} {lengthS : Option Nat}
    {specs : List (Spanned (EventSpec F))} {index : Nat} {lastOn : LastOn}
    {es : List (ScenarioEvent F)} (h : Accepted cfg lengthS specs index lastOn es) {i : Nat}
    {spanned : Spanned (EventSpec F)} {e : ScenarioEvent F} (hs : specs[i]? = some spanned)
    (he : es[i]? = some e) : event (index + i) spanned.value cfg = .ok e := by
  induction h generalizing i with
  | nil index lastOn => cases hs
  | @cons first rest index lastOn lastOn' e' es read within order more ih =>
    cases i with
    | zero =>
      cases hs
      cases he
      exact read
    | succ i =>
      rw [Nat.add_comm i 1, ← Nat.add_assoc]
      exact ih hs he

theorem accepted_within {cfg : PlantConfig F} {lengthS : Option Nat}
    {specs : List (Spanned (EventSpec F))} {index : Nat} {lastOn : LastOn}
    {es : List (ScenarioEvent F)} (h : Accepted cfg lengthS specs index lastOn es) {l : Nat}
    (hl : lengthS = some l) : ∀ e ∈ es, e.atS < l := by
  induction h with
  | nil index lastOn => exact fun e he => absurd he List.not_mem_nil
  | cons read within order more ih =>
    intro e he
    rcases List.mem_cons.mp he with rfl | he
    · exact within l hl
    · exact ih e he

omit [Scalar F] in
/-- What an event leaves of each target's order, and what it needed of it. -/
theorem inOrder_last {lastOn lastOn' : LastOn} {e : ScenarioEvent F}
    (h : inOrder lastOn e = .ok lastOn') (t : Target) :
    lastOn' t = (if targetOf e = some t then some (e.index, e.atS) else lastOn t) ∧
      (targetOf e = some t → ∀ p, lastOn t = some p → p.2 < e.atS) := by
  cases hf : e.fault with
  | data f =>
    have htarget : targetOf e = none := by rw [targetOf, hf]
    have hsame : lastOn' = lastOn := by
      rw [inOrder, hf] at h
      cases h
      rfl
    rw [htarget, hsame]
    exact ⟨rfl, fun ht => by cases ht⟩
  | physical target action =>
    have htarget : targetOf e = some target := by rw [targetOf, hf]
    have hlast : lastOn' = Function.update lastOn target (some (e.index, e.atS)) ∧
        ∀ p, lastOn target = some p → p.2 < e.atS := by
      rw [inOrder, hf] at h
      dsimp only at h
      split at h
      · rename_i hnone
        cases h
        exact ⟨rfl, fun p hp => by rw [hnone] at hp; cases hp⟩
      · rename_i other otherAt hsome
        split_ifs at h with heq hlt
        cases h
        refine ⟨rfl, fun p hp => ?_⟩
        rw [hsome] at hp
        cases hp
        change otherAt < e.atS
        omega
    rw [htarget, hlast.1]
    constructor
    · by_cases ht : target = t
      · subst ht
        simp
      · rw [Function.update_of_ne (Ne.symm ht), if_neg (by simpa using ht)]
    · intro ht
      cases ht
      exact hlast.2

/-- Each target's offsets rise in file order, from what came before. -/
theorem accepted_order {cfg : PlantConfig F} {lengthS : Option Nat}
    {specs : List (Spanned (EventSpec F))} {index : Nat} {lastOn : LastOn}
    {es : List (ScenarioEvent F)} (h : Accepted cfg lengthS specs index lastOn es) :
    es.Pairwise (fun a b => ∀ t, targetOf a = some t → targetOf b = some t → a.atS < b.atS) ∧
      ∀ t p, lastOn t = some p → ∀ e ∈ es, targetOf e = some t → p.2 < e.atS := by
  induction h with
  | nil index lastOn => exact ⟨.nil, fun _ _ _ e he => absurd he List.not_mem_nil⟩
  | @cons spanned rest index lastOn lastOn' e es read within order more ih =>
    obtain ⟨hpair, hafter⟩ := ih
    have hlater : ∀ t, targetOf e = some t → ∀ b ∈ es, targetOf b = some t → e.atS < b.atS := by
      intro t ht b hb htb
      have hlast := (inOrder_last order t).1
      rw [if_pos ht] at hlast
      exact hafter t (e.index, e.atS) hlast b hb htb
    refine ⟨List.pairwise_cons.mpr ⟨fun b hb t ht htb => hlater t ht b hb htb, hpair⟩, ?_⟩
    intro t p hp e' he' ht'
    rcases List.mem_cons.mp he' with rfl | hmem
    · exact (inOrder_last order t).2 ht' p hp
    · by_cases ht : targetOf e = some t
      · exact ((inOrder_last order t).2 ht p hp).trans (hlater t ht e' hmem ht')
      · have hlast := (inOrder_last order t).1
        rw [if_neg ht] at hlast
        exact hafter t p (hlast.trans hp) e' hmem ht'

/-- A physical event's target is what its path parses to, whatever is drawn. -/
theorem event_target {index : Nat} {spec : EventSpec F} {cfg : PlantConfig F}
    {e : ScenarioEvent F} (h : event index spec cfg = .ok e) {target : Target}
    {action : PendingAction F} (hf : e.fault = .physical target action) (seed : UInt64) (i : Nat) :
    ∃ path, spec.target = some path ∧
      Target.parse path cfg = .ok (Target.of (draw action seed i)) := by
  obtain ⟨-, -, hphysical | hdata⟩ := event_ok h
  · obtain ⟨path, hpath, hp⟩ := hphysical
    obtain ⟨target', action', hfault, htarget, haction⟩ := physical_ok hp
    rw [hf] at hfault
    cases hfault
    exact ⟨path, hpath, by rw [pendingAction_of haction, htarget]⟩
  · obtain ⟨surface, fault, -, hfault⟩ := hdata
    rw [hf] at hfault
    cases hfault

omit [Scalar F] in
/-- A node validation found on the configuration is in every tree of its shape. -/
theorem node_exists {cfg : PlantConfig F} {s : SiteState F} (h : Shaped cfg s) {a : FaultAction}
    (ha : (Target.of a).Exists cfg) : NodeExists s a := by
  cases a with
  | hvacFailure b c => exact container_exists h ha.1 ha.2
  | hvacRepair b c => exact container_exists h ha.1 ha.2
  | pcsTrip b => exact block_exists h ha
  | protectionTrip => trivial
  | rackSelfDischarge b c r ppm => exact rack_exists h ha.1 ha.2.1 ha.2.2
  | rackIsolate b c r => exact rack_exists h ha.1 ha.2.1 ha.2.2
  | rackRestore b c r => exact rack_exists h ha.1 ha.2.1 ha.2.2
  | blockMaintenanceEnter b => exact block_exists h ha
  | blockMaintenanceExit b => exact block_exists h ha
  | alarmReset scope =>
    cases scope with
    | site => trivial
    | block b => exact block_exists h ha
    | rack b c r => exact rack_exists h ha.1 ha.2.1 ha.2.2

omit [Scalar F] in
theorem hvacTo_accepts {s : SiteState F} {b c : Nat} (failed : Bool)
    (h : (s.container? b c).isSome) :
    ∃ changed after, (hvacTo s b c failed).command = (.ok changed, after) := by
  obtain ⟨x, hx⟩ := Option.isSome_iff_exists.mp h
  exact ⟨_, _, by rw [hvacTo, setHvacFailed, hx]; rfl⟩

omit [Scalar F] in
theorem rackTo_accepts {s : SiteState F} {b c r : Nat} (on : Bool)
    (h : (s.rack? b c r).isSome) :
    ∃ changed after, (rackTo s b c r on).command = (.ok changed, after) := by
  obtain ⟨x, hx⟩ := Option.isSome_iff_exists.mp h
  exact ⟨_, _, by rw [rackTo, setRackInService, hx]; rfl⟩

omit [Scalar F] in
theorem modeTo_accepts {s : SiteState F} {b : Nat} (mode : BlockMode)
    (h : (s.blocks[b]?).isSome) :
    ∃ changed after, (modeTo s b mode).command = (.ok changed, after) := by
  obtain ⟨x, hx⟩ := Option.isSome_iff_exists.mp h
  exact ⟨_, _, by rw [modeTo, setBlockMode, hx]; rfl⟩

/-- The door refuses no action whose node the tree has. -/
theorem dispatch_accepts (models : Models F) (cfg : PlantConfig F) {s : SiteState F}
    {a : FaultAction} (h : NodeExists s a) :
    ∃ changed after, dispatch models cfg s a = (.ok changed, after) := by
  cases a with
  | hvacFailure b c => exact hvacTo_accepts true h
  | hvacRepair b c => exact hvacTo_accepts false h
  | pcsTrip b =>
    obtain ⟨x, hx⟩ := Option.isSome_iff_exists.mp h
    simp only [dispatch, tripPcs, hx]
    split <;> exact ⟨_, _, rfl⟩
  | protectionTrip => exact ⟨_, _, rfl⟩
  | rackSelfDischarge b c r ppm =>
    obtain ⟨x, hx⟩ := Option.isSome_iff_exists.mp h
    exact ⟨_, _, by rw [dispatch, selfDischargeTo, hx]; rfl⟩
  | rackIsolate b c r => exact rackTo_accepts false h
  | rackRestore b c r => exact rackTo_accepts true h
  | blockMaintenanceEnter b => exact modeTo_accepts .maintenance h
  | blockMaintenanceExit b => exact modeTo_accepts .inService h
  | alarmReset scope =>
    have hscope : checkScope s scope = true := by
      cases scope with
      | site => rfl
      | block b =>
        change (s.blocks[b]?).isSome = true at h
        simpa [checkScope] using h
      | rack b c r => exact h
    exact ⟨_, _, by rw [dispatch, resetAlarms, if_pos hscope]⟩

/-- Due events on nodes the plant has leave the first refusal as it was. -/
theorem fire_accepts {sim : Simulation F} (hs : Sound sim) {due : List (Scheduled F)}
    (hdue : ∀ s ∈ due, ∀ a, s.due = .physical a → (Target.of a).Exists sim.cfg)
    (refused : Option Refused) : (due.foldl Player.fire (sim, refused)).2 = refused := by
  induction due generalizing sim with
  | nil => rfl
  | cons s ss ih =>
    have hkeeps : (Player.fire (sim, refused) s).2 = refused := by
      cases hd : s.due with
      | data fault => simp only [Player.fire, hd]
      | physical a =>
        have hnode := node_exists hs.shape (hdue s List.mem_cons_self a hd)
        obtain ⟨changed, after, ht⟩ := dispatch_accepts sim.models sim.cfg hnode
        simp only [Player.fire, hd, Simulation.apply, applyAction, ht]
        rfl
    have hrun := fire_sim (sim, refused) s
    have hcfg : (Player.fire (sim, refused) s).1.cfg = sim.cfg := by
      rw [hrun]
      exact congrArg Plant.cfg (run_plant hs _)
    have hsound : Sound (Player.fire (sim, refused) s).1 := by
      rw [hrun]
      exact sound_run hs _
    have hpair : Player.fire (sim, refused) s = ((Player.fire (sim, refused) s).1, refused) :=
      Prod.ext rfl hkeeps
    rw [List.foldl_cons, hpair]
    apply ih hsound
    intro s' hs' a ha
    rw [hcfg]
    exact hdue s' (List.mem_cons_of_mem _ hs') a ha

/-- What each tick of a run fires. -/
def firings (weather : Int → Inputs F) : Play F → List (Op F) → List (Fired F)
  | _, [] => []
  | p, .command c :: ops => firings weather (p.op weather (.command c)) ops
  | p, .tick :: ops => (p.player.fireDue p.sim).2.2 :: firings weather (p.op weather .tick) ops

/-- Some ticks in, a run fires the schedule from where its cursor stands. -/
theorem firings_due {r : Resolved F} {pl : Plant F} {m : SiteMeta} {n : Nat}
    (weather : Int → Inputs F) {p : Play F} (h : OnTime r pl m n p) (ops : List (Op F)) :
    (firings weather p ops).flatMap Fired.due =
      (r.schedule.drop (placeAt r n)).takeWhile fun s => decide (s.tick < n + ticksOf ops) := by
  induction ops generalizing p n with
  | nil =>
    -- the cursor stands where the schedule reaches this tick
    have hstop := Bisect.takeWhile_extend (fun _ h => h)
      (p := fun s : Scheduled F => decide (s.tick < n)) r.schedule
    exact (List.self_eq_append_right.mp hstop).symm
  | cons op ops ih =>
    have hrest := ih (onTime_op weather h op)
    cases op with
    | command c => exact hrest
    | tick =>
      have hdue : (p.player.fireDue p.sim).2.2.due =
          (r.schedule.drop (placeAt r n)).takeWhile fun s => decide (s.tick ≤ n) := by
        change (p.player.schedule.drop p.player.cursor).takeWhile
          (fun s => decide (s.tick ≤ p.sim.state.tick)) = _
        rw [h.schedule, h.cursor, h.clock]
      have hlt : ∀ s : Scheduled F, decide (s.tick ≤ n) = true →
          decide (s.tick < n + ticksOf (.tick :: ops)) = true := by
        intro s hs
        rw [decide_eq_true_eq] at hs ⊢
        have hcount : ticksOf (.tick :: ops) = ticksOf ops + 1 := by simp [ticksOf]
        omega
      have hcount : n + ticksOf [(.tick : Op F)] + ticksOf ops = n + ticksOf (.tick :: ops) := by
        simp [ticksOf]
        omega
      rw [firings, List.flatMap_cons, hrest, hdue, Bisect.takeWhile_extend hlt, List.drop_drop,
        place_due, hcount]
      rfl

theorem firings_refused {r : Resolved F} {pl : Plant F} {m : SiteMeta} {n : Nat}
    (weather : Int → Inputs F) {p : Play F} (h : OnTime r pl m n p)
    (hr : ∀ s ∈ r.schedule, ∀ a, s.due = .physical a → (Target.of a).Exists pl.cfg)
    (ops : List (Op F)) : ∀ f ∈ firings weather p ops, f.refused = none := by
  induction ops generalizing p n with
  | nil => exact fun f hf => absurd hf List.not_mem_nil
  | cons op ops ih =>
    have hnext := ih (onTime_op weather h op)
    cases op with
    | command c => exact hnext
    | tick =>
      intro f hf
      rcases List.mem_cons.mp hf with rfl | hf
      · apply fire_accepts h.sound
        intro s hs a ha
        have hcfg : p.sim.cfg = pl.cfg := congrArg Plant.cfg h.plant
        rw [hcfg]
        refine hr s ?_ a ha
        have hmem : s ∈ p.player.schedule.drop p.player.cursor := List.takeWhile_subset _ hs
        rw [h.schedule] at hmem
        exact List.mem_of_mem_drop hmem
      · exact hnext f hf

omit [Scalar F] in
/-- On a schedule in firing order, what comes before a tick comes first. -/
theorem takeWhile_tick {schedule : List (Scheduled F)}
    (h : schedule.Pairwise fun a b => a.tick ≤ b.tick) (n : Nat) :
    (schedule.takeWhile fun s => decide (s.tick < n)) =
      schedule.filter fun s => decide (s.tick < n) := by
  induction schedule with
  | nil => rfl
  | cons s ss ih =>
    obtain ⟨hs, hss⟩ := List.pairwise_cons.mp h
    by_cases hn : s.tick < n
    · simp [hn, ih hss]
    · have hnone : ∀ s' ∈ ss, ¬ s'.tick < n := fun s' hs' hlt => hn ((hs s' hs').trans_lt hlt)
      simpa [hn] using hnone

/-- A tick is a second. -/
theorem scheduled_tick (e : ScenarioEvent F) (params : RunParams F) :
    (e.scheduled params).tick = e.atS := Nat.div_one _

/-- An accepted schedule acts on what its file's paths parse to. -/
theorem accepted_parses {file : File F} {cfg : PlantConfig F} {hash : UInt64}
    {scenario : Scenario F} (h : validate file cfg hash = .ok scenario) (params : RunParams F) :
    ∀ s ∈ (scenario.resolve params).schedule, ∀ a, s.due = .physical a →
      ∃ spanned path, file.events[s.index]? = some spanned ∧ spanned.value.target = some path ∧
        Target.parse path cfg = .ok (Target.of a) := by
  have haccepted := checkEvents_accepted (validate_ok h).2.1
  have hperm := List.mergeSort_perm (scenario.events.map (ScenarioEvent.scheduled params))
    Scheduled.before
  intro s hs a ha
  obtain ⟨e, he, rfl⟩ := List.mem_map.mp (hperm.mem_iff.mp hs)
  obtain ⟨i, hi, rfl⟩ := List.getElem_of_mem he
  have hi' := hi
  rw [accepted_length haccepted] at hi'
  have hevent := accepted_read haccepted (List.getElem?_eq_getElem hi') (List.getElem?_eq_getElem hi)
  cases hf : (scenario.events[i]).fault with
  | data fault => simp [ScenarioEvent.scheduled, hf] at ha
  | physical target action =>
    simp only [ScenarioEvent.scheduled, hf, Due.physical.injEq] at ha
    obtain ⟨path, hpath, hparse⟩ := event_target hevent hf params.seed scenario.events[i].index
    have hindex : (scenario.events[i].scheduled params).index = i :=
      (event_ok hevent).1.trans (Nat.zero_add i)
    rw [hindex, ← ha]
    exact ⟨file.events[i], path, List.getElem?_eq_getElem hi', hpath, hparse⟩

/-- An accepted schedule acts on nodes the plant has. -/
theorem accepted_exists {file : File F} {cfg : PlantConfig F} {hash : UInt64}
    {scenario : Scenario F} (h : validate file cfg hash = .ok scenario) (params : RunParams F) :
    ∀ s ∈ (scenario.resolve params).schedule, ∀ a, s.due = .physical a →
      (Target.of a).Exists cfg := by
  intro s hs a ha
  obtain ⟨-, path, -, -, hparse⟩ := accepted_parses h params s hs a ha
  exact Target.parse_exists hparse

/-- A scenario that plays as its file reads, and is never refused. -/
structure Plays (file : File F) (cfg : PlantConfig F) (models : Models F) (scenario : Scenario F)
    (params : RunParams F) : Prop where
  count : scenario.events.length = file.events.length
  read : ∀ i spanned e, file.events[i]? = some spanned → scenario.events[i]? = some e →
    event i spanned.value cfg = .ok e
  scheduled : (scenario.resolve params).schedule.Perm
    (scenario.events.map (ScenarioEvent.scheduled params))
  /-- Whatever the operator does between the ticks. -/
  refused : ∀ weather ops, ∀ f ∈ firings weather ((scenario.resolve params).play cfg models) ops,
    f.refused = none
  /-- What has fired is what was due before the tick reached, once each, in order. -/
  fired : ∀ weather ops,
    (firings weather ((scenario.resolve params).play cfg models) ops).flatMap Fired.due =
      (scenario.resolve params).schedule.filter fun s => decide (s.tick < ticksOf ops)
  every : ∀ e ∈ scenario.events, ∀ weather ops, (e.scheduled params).tick < ticksOf ops →
    e.scheduled params ∈
      (firings weather ((scenario.resolve params).play cfg models) ops).flatMap Fired.due
  /-- A file that states a length has fired everything within it. -/
  stated : (scenario.resolve params).ticks.isSome = file.length.isSome
  whole : ∀ ticks, (scenario.resolve params).ticks = some ticks → ∀ weather ops,
    ticks ≤ ticksOf ops →
      (firings weather ((scenario.resolve params).play cfg models) ops).flatMap Fired.due =
        (scenario.resolve params).schedule
  /-- No two commands to one target share a tick. -/
  order : scenario.events.Pairwise fun a b => ∀ t, targetOf a = some t → targetOf b = some t →
    (a.scheduled params).tick < (b.scheduled params).tick

theorem accepted_plays {file : File F} {cfg : PlantConfig F} {hash : UInt64}
    {scenario : Scenario F} (h : validate file cfg hash = .ok scenario) (params : RunParams F)
    (models : Models F) : Plays file cfg models scenario params := by
  have haccepted := checkEvents_accepted (validate_ok h).2.1
  have hread : ∀ {i : Nat} {spanned : Spanned (EventSpec F)} {e : ScenarioEvent F},
      file.events[i]? = some spanned → scenario.events[i]? = some e →
        event i spanned.value cfg = .ok e := by
    intro i spanned e hs he
    have hevent := accepted_read haccepted hs he
    rwa [Nat.zero_add] at hevent
  have hperm := List.mergeSort_perm (scenario.events.map (ScenarioEvent.scheduled params))
    Scheduled.before
  have hmem : ∀ {s}, s ∈ (scenario.resolve params).schedule ↔
      ∃ e ∈ scenario.events, e.scheduled params = s := by
    intro s
    rw [← List.mem_map]
    exact hperm.mem_iff
  have hfired : ∀ weather ops,
      (firings weather ((scenario.resolve params).play cfg models) ops).flatMap Fired.due =
        (scenario.resolve params).schedule.filter fun s => decide (s.tick < ticksOf ops) := by
    intro weather ops
    have hstart := onTime_play (scenario.resolve params) cfg models
    rw [firings_due weather hstart, ← hstart.cursor, Nat.zero_add]
    exact takeWhile_tick (schedule_sorted scenario params) _
  refine ⟨?_, fun i spanned e hs he => ?_, hperm, fun weather ops => ?_, hfired, ?_, ?_, ?_, ?_⟩
  · exact accepted_length haccepted
  · exact hread hs he
  · exact firings_refused weather (onTime_play _ cfg models) (accepted_exists h params) ops
  · intro e he weather ops hlt
    rw [hfired, List.mem_filter]
    exact ⟨hmem.mpr ⟨e, he, rfl⟩, decide_eq_true hlt⟩
  · rw [← lengthOf_isSome (validate_ok h).1]
    exact Option.isSome_map
  · intro ticks hticks weather ops hle
    rw [hfired, List.filter_eq_self]
    intro s hs
    obtain ⟨e, he, rfl⟩ := hmem.mp hs
    obtain ⟨l, hl, rfl⟩ := Option.map_eq_some_iff.mp hticks
    have hwithin := accepted_within haccepted hl e he
    rw [decide_eq_true_eq, scheduled_tick]
    exact (hwithin.trans_eq (Nat.div_one l).symm).trans_le hle
  · refine (accepted_order haccepted).1.imp fun hab t ha hb => ?_
    rw [scheduled_tick, scheduled_tick]
    exact hab t ha hb

/-- An event of a file that gives no parameter. -/
def plainEvent (atS : String) (target : Option String) (surface : Option Surface) (fault : String)
    (duration : Option String) : EventSpec ℝ where
  «at» := atS
  target := target
  surface := surface
  fault := fault
  duration := duration
  ratePctPerMonth := none
  points := none
  exponent := none
  ratePerMin := none
  driftSPerH := none

/-- Two minutes of a shift: three trips and outages, and a dropout replayed. -/
def shiftFile : File ℝ where
  schema := ⟨1, 1, 9⟩
  name := ⟨"shift-2", 2, 7⟩
  seed := some 42
  start := some ⟨"2026-01-01T00:00:00Z", 4, 8⟩
  speed := none
  length := some ⟨"PT2M", 5, 9⟩
  events :=
    [⟨plainEvent "PT1M" (some "site") none "protection_trip" none, 7, 5⟩,
      ⟨plainEvent "PT10S" (some "block[3].pcs") none "trip" none, 8, 5⟩,
      ⟨plainEvent "PT30S" (some "block[0].container[1].rack[2]") none "isolate" none, 9, 5⟩,
      ⟨plainEvent "PT5S" none (some .mqtt) "dropout" (some "PT20S"), 10, 5⟩,
      ⟨plainEvent "PT45S" (some "block[0].container[1].rack[2]") none "restore" none, 11, 5⟩,
      ⟨plainEvent "PT40S" none (some .mqtt) "backfill_burst" none, 12, 5⟩]

def shiftScenario : Scenario ℝ where
  id := ⟨"shift-2", 1⟩
  seed := some 42
  startUnixS := some 1767225600
  speed := none
  lengthS := some 120
  events :=
    [⟨0, 60, .physical .site (.ready .protectionTrip)⟩,
      ⟨1, 10, .physical (.pcs 3) (.ready (.pcsTrip 3))⟩,
      ⟨2, 30, .physical (.rack 0 1 2) (.ready (.rackIsolate 0 1 2))⟩,
      ⟨3, 5, .data ⟨.mqtt, .dropout, some 20, none, none, none, none⟩⟩,
      ⟨4, 45, .physical (.rack 0 1 2) (.ready (.rackRestore 0 1 2))⟩,
      ⟨5, 40, .data ⟨.mqtt, .backfillBurst, none, none, none, none, none⟩⟩]

/-- Every entry of the shift fires in its two minutes, whatever the operator does. -/
theorem accepted_plays_shift :
    Plays shiftFile PlantConfig.gw01 (gw01Models PlantConfig.gw01 ⟨fun _ _ => 0⟩) shiftScenario
      ⟨42, 1767225600, 1⟩ := by
  have h : validate shiftFile PlantConfig.gw01 1 = .ok shiftScenario := rfl
  exact accepted_plays h _ _

end BessAccepted
