import BessEmulator.AlarmBooks

/-!
# What the alarm gate reads

A tick raises exactly the bits that were clear before it and are set after it, each
once. The annual counts are therefore those of the tree, and the gate reads zero if
no trip was ever up.
-/
namespace BessAlarms

open Bess BessReplay EdgeLog

variable {F : Type}

/-- The register an event is about reads in the tree what the event says. -/
def Shown (s : SiteState F) : Event → Prop
  | .alarmRaised node bit severity =>
    severity = Severity.ofBit bit ∧ hasBit (wordOf s node) bit = true
  | .alarmCleared node bit severity =>
    severity = Severity.ofBit bit ∧ hasBit (wordOf s node) bit = false
  | .pcsStateChanged .. => True
  | .faultApplied _ => True

theorem shown_changes {s : SiteState F} {node : AlarmNode} {old new : BitVec 32}
    (hw : wordOf s node = new) : ∀ e ∈ changes node old new, Shown s e := by
  intro e he
  obtain ⟨bit, -, hbit⟩ := List.mem_filterMap.mp he
  rw [changeOf] at hbit
  split at hbit
  · split at hbit
    · next hset =>
      cases hbit
      exact ⟨rfl, hw ▸ hset⟩
    · next hclear =>
      cases hbit
      exact ⟨rfl, by simpa [hw] using hclear⟩
  · cases hbit

variable [Scalar F]

theorem shown_containerEvents {s : SiteState F} {ctx : TickContext F} {p : F} {k i : Nat}
    {c : ContainerState F} (hw : ∀ r, wordOf s (.rack k i r) = rackWord (containerTick ctx p c) r) :
    ∀ e ∈ containerEvents ctx p k (c, i), Shown s e := by
  intro e he
  obtain ⟨⟨r, j⟩, hr, he⟩ := List.mem_flatMap.mp he
  have hget := List.mem_zipIdx_iff_getElem?.mp hr
  apply shown_changes _ e he
  rw [rackNode, hw, rackWord, containerTick]
  simp only [List.getElem?_map, hget, Option.map_some, Option.getD_some]
  rfl

theorem shown_blockEvents {s : SiteState F} {ctx : TickContext F} {inSet : Bool} {k : Nat}
    {b : BlockState F} (hb : s.blocks[k]? = some (blockTick ctx inSet b)) :
    ∀ e ∈ blockEvents ctx inSet k b, Shown s e := by
  have hrack : ∀ i r, wordOf s (.rack k i r) = containerWord (blockTick ctx inSet b) i r := by
    intro i r
    rw [wordOf_rack, hb]
    rfl
  intro e he
  rw [blockEvents, List.mem_append, List.mem_append] at he
  rcases he with (he | he) | he
  · obtain ⟨⟨c, i⟩, hc, he⟩ := List.mem_flatMap.mp he
    have hget := List.mem_zipIdx_iff_getElem?.mp hc
    apply shown_containerEvents _ e he
    intro r
    rw [hrack, containerWord, blockTick_containers, List.getElem?_map, hget]
    rfl
  · rw [pcsEvents] at he
    split at he
    · rw [List.mem_singleton.mp he]
      trivial
    · cases he
  · apply shown_changes _ e he
    rw [wordOf, hb]
    rfl

/-- The tree a tick leaves shows what the tick says. -/
theorem shown_tick (pl : Plant F) (s : SiteState F) (inputs : Inputs F) :
    ∀ e ∈ pl.newEvents s inputs, Shown (pl.siteTick s inputs) e := by
  intro e he
  rw [Plant.newEvents, List.mem_append] at he
  rcases he with he | he
  · obtain ⟨⟨b, k⟩, hb, he⟩ := List.mem_flatMap.mp he
    have hget := List.mem_zipIdx_iff_getElem?.mp hb
    apply shown_blockEvents _ e he
    rw [nextBlock_at, hget]
    rfl
  · exact shown_changes rfl e he

/-- The alarm an event raises. -/
def raisedBy : Event → Option ActiveAlarm
  | .alarmRaised node bit _ => some ⟨node, bit⟩
  | .alarmCleared .. => none
  | .pcsStateChanged .. => none
  | .faultApplied _ => none

theorem countP_raisedBy (P : ActiveAlarm → Bool) (log : List Event) :
    (log.filterMap raisedBy).countP P = log.countP (raises P) := by
  rw [List.countP_filterMap]
  congr 1
  funext e
  cases e <;> simp [raisedBy, raises]

theorem count_raisedBy (a : ActiveAlarm) (log : List Event) :
    (log.filterMap raisedBy).count a = (log.filterMap (bitMove a.node a.bit)).count (false, true) := by
  induction log with
  | nil => rfl
  | cons e log ih =>
    cases e with
    | alarmRaised node bit severity =>
      by_cases h : node = a.node ∧ bit = a.bit
      · obtain ⟨rfl, rfl⟩ := h
        simp [raisedBy, bitMove, ih]
      · have hne : (⟨node, bit⟩ : ActiveAlarm) ≠ a := by
          rintro rfl
          exact h ⟨rfl, rfl⟩
        simp [raisedBy, bitMove, h, ih, hne]
    | alarmCleared node bit severity =>
      rw [List.filterMap_cons_none (rfl : raisedBy (.alarmCleared node bit severity) = none), ih]
      by_cases h : node = a.node ∧ bit = a.bit <;> simp [bitMove, h]
    | pcsStateChanged block old new => exact ih
    | faultApplied action => exact ih

/-- The alarms set after and not before. -/
def newlySet (before after : SiteState F) : List ActiveAlarm :=
  (walkAlarms after).filter fun a => !hasBit (wordOf before a.node) a.bit

omit [Scalar F] in
theorem count_newlySet (before after : SiteState F) (a : ActiveAlarm) : (newlySet before after).count a =
    if hasBit (wordOf before a.node) a.bit = false ∧ hasBit (wordOf after a.node) a.bit = true then 1
    else 0 := by
  have hnodup : (newlySet before after).Nodup := (nodup_walk after).filter _
  rw [List.Nodup.count hnodup]
  congr 1
  rw [newlySet, List.mem_filter, mem_walk, Bool.not_eq_true']
  exact propext and_comm

/-- A tick raises each bit that comes up, once, and no other. -/
theorem raised_tick (pl : Plant F) (s : SiteState F) (inputs : Inputs F) (hold : LowTree s)
    (hnew : LowTree (pl.siteTick s inputs)) :
    ((pl.newEvents s inputs).filterMap raisedBy).Perm (newlySet s (pl.siteTick s inputs)) := by
  rw [List.perm_iff_count]
  intro a
  rw [count_raisedBy, count_newlySet]
  have hpath := (tells_tick pl s inputs hold hnew).bits a.node a.bit
  have hreal : ∀ m ∈ (pl.newEvents s inputs).filterMap (bitMove a.node a.bit), m.1 ≠ m.2 := by
    intro m hm
    obtain ⟨e, -, he⟩ := List.mem_filterMap.mp hm
    exact bitMove_ne he
  have hend : ∀ m ∈ (pl.newEvents s inputs).filterMap (bitMove a.node a.bit),
      m.2 = hasBit (wordOf (pl.siteTick s inputs) a.node) a.bit := by
    intro m hm
    obtain ⟨e, hin, he⟩ := List.mem_filterMap.mp hm
    have hshown := shown_tick pl s inputs e hin
    cases e with
    | alarmRaised node bit severity =>
      simp only [bitMove, Option.ite_none_right_eq_some, Option.some.injEq] at he
      obtain ⟨⟨rfl, rfl⟩, rfl⟩ := he
      exact hshown.2.symm
    | alarmCleared node bit severity =>
      simp only [bitMove, Option.ite_none_right_eq_some, Option.some.injEq] at he
      obtain ⟨⟨rfl, rfl⟩, rfl⟩ := he
      exact hshown.2.symm
    | pcsStateChanged block old new => cases he
    | faultApplied action => cases he
  rw [hpath.once hreal hend]
  cases hasBit (wordOf s a.node) a.bit <;>
    cases hasBit (wordOf (pl.siteTick s inputs) a.node) a.bit <;> rfl

omit [Scalar F] in
theorem observe_tripsRaised (k : AlarmKpis) {s : SiteState F} {log : List Event}
    (hshown : ∀ e ∈ log, Shown s e) :
    (k.observe log).tripsRaised = k.tripsRaised + log.countP (raises fun a => a.severity = .trip) ∧
      (k.observe log).warningsRaised =
        k.warningsRaised + log.countP (raises fun a => a.severity = .warning) := by
  induction log generalizing k with
  | nil => exact ⟨rfl, rfl⟩
  | cons e log ih =>
    have hrest := ih (k.count e) fun e' he' => hshown e' (.tail _ he')
    have he := hshown e (.head _)
    rw [AlarmKpis.observe] at hrest
    rw [AlarmKpis.observe, List.foldl_cons, hrest.1, hrest.2, List.countP_cons, List.countP_cons]
    cases e with
    | alarmRaised node bit severity =>
      obtain ⟨rfl, -⟩ := he
      cases hsev : Severity.ofBit bit <;>
        simp [AlarmKpis.count, raises, ActiveAlarm.severity, hsev] <;> omega
    | alarmCleared node bit severity => simp [AlarmKpis.count, raises]
    | pcsStateChanged block old new => simp [AlarmKpis.count, raises]
    | faultApplied action => simp [AlarmKpis.count, raises]

/-- What a pass keeps beside its plant. -/
structure Quiet (pl : Plant F) (sim : Simulation F) : Prop where
  sound : Sound sim
  plant : sim.plant = pl
  low : LowTree sim.state
  pending : sim.state.pendingEvents = []

theorem quiet_step {pl : Plant F} (hb : LowRacks pl.models pl.cfg) {sim : Simulation F} (h : Quiet pl sim)
    (inputs : Inputs F) : Quiet pl (sim.step inputs) := by
  have hstate : (sim.step inputs).state = pl.siteTick sim.state inputs := by
    rw [step_state h.sound, h.plant]
  constructor
  · exact sound_step h.sound inputs
  · exact (move_plant h.sound (.step inputs)).trans h.plant
  · rw [hstate]
    exact lowTree_tick pl hb inputs h.low
  · rw [hstate]
    rfl

/-- What one tick adds to the counts. -/
theorem counted_step {pl : Plant F} (hb : LowRacks pl.models pl.cfg) {sim : Simulation F} (h : Quiet pl sim)
    (inputs : Inputs F) (P : ActiveAlarm → Bool) :
    (sim.step inputs).events.countP (raises P) = (newlySet sim.state (sim.step inputs).state).countP P ∧
      ∀ e ∈ (sim.step inputs).events, Shown (sim.step inputs).state e := by
  have hevents : (sim.step inputs).events = pl.newEvents sim.state inputs := by
    rw [step_events h.sound, h.plant, Plant.tickEvents, h.pending, List.nil_append]
  rw [hevents, step_state h.sound, h.plant]
  constructor
  · rw [← countP_raisedBy]
    exact (raised_tick pl sim.state inputs h.low (lowTree_tick pl hb inputs h.low)).countP_eq P
  · exact shown_tick pl sim.state inputs

/-- The counts after some ticks: what came up at each. -/
structure Counted (trees : Nat → SiteState F) (n : Nat) (k : AlarmKpis) : Prop where
  trips : k.tripsRaised =
    ∑ i ∈ Finset.range n, (newlySet (trees i) (trees (i + 1))).countP fun a => a.severity = .trip
  warnings : k.warningsRaised =
    ∑ i ∈ Finset.range n, (newlySet (trees i) (trees (i + 1))).countP fun a => a.severity = .warning
  named : ∀ name, (k.raisedByAlarm name).getD 0 =
    ∑ i ∈ Finset.range n, (newlySet (trees i) (trees (i + 1))).countP fun a =>
      AlarmKpis.nameOf a.node a.bit == name

theorem counted_ticks (ref : Reference F) {pl : Plant F} (hb : LowRacks pl.models pl.cfg)
    {sim : Simulation F} (h : Quiet pl sim) (n : Nat) :
    Quiet pl (alarmTicks ref n (sim, .zero)).1 ∧
      Counted (fun i => (alarmTicks ref i (sim, .zero)).1.state) n (alarmTicks ref n (sim, .zero)).2 := by
  induction n with
  | zero => exact ⟨h, ⟨rfl, rfl, fun _ => rfl⟩⟩
  | succ n ih =>
    obtain ⟨hquiet, hcounted⟩ := ih
    obtain ⟨inputs, hinputs⟩ : ∃ i, i = ref.inputsAt (alarmTicks ref n (sim, .zero)).1.state.unixTimeS :=
      ⟨_, rfl⟩
    have hnext : alarmTicks ref (n + 1) (sim, .zero) =
        ((alarmTicks ref n (sim, .zero)).1.step inputs, (alarmTicks ref n (sim, .zero)).2.observe
          ((alarmTicks ref n (sim, .zero)).1.step inputs).events) := by
      rw [hinputs, alarmTicks, Function.iterate_succ_apply']
      rfl
    have hstep := counted_step hb hquiet inputs
    have hshown := (hstep fun _ => true).2
    obtain ⟨htrips, hwarnings⟩ := observe_tripsRaised (alarmTicks ref n (sim, .zero)).2 hshown
    constructor
    · rw [hnext]
      exact quiet_step hb hquiet inputs
    · constructor
      · rw [Finset.sum_range_succ, ← hcounted.trips, hnext]
        simp only [htrips, (hstep _).1]
      · rw [Finset.sum_range_succ, ← hcounted.warnings, hnext]
        simp only [hwarnings, (hstep _).1]
      · intro name
        rw [Finset.sum_range_succ, ← hcounted.named, hnext]
        simp only [observe_raised, raisesName, (hstep _).1]
        split
        · next hzero => rw [hzero, Nat.add_zero]
        · rfl

omit [Scalar F] in
/-- From a dark tree on, nothing comes up if and only if nothing is ever up. -/
theorem never_up_iff {trees : Nat → SiteState F} (hdark : ∀ a, a ∉ walkAlarms (trees 0)) (n : Nat)
    (P : ActiveAlarm → Prop) [DecidablePred P] :
    (∑ i ∈ Finset.range n, (newlySet (trees i) (trees (i + 1))).countP fun a => P a) = 0 ↔
      ∀ i ≤ n, ∀ a ∈ walkAlarms (trees i), ¬P a := by
  simp only [Finset.sum_eq_zero_iff, Finset.mem_range, List.countP_eq_zero, decide_eq_true_eq]
  constructor
  · intro h i hi
    induction i with
    | zero => exact fun a ha => absurd ha (hdark a)
    | succ i ih =>
      intro a ha hP
      have hbefore : hasBit (wordOf (trees i) a.node) a.bit = false := by
        by_contra hset
        exact ih (by omega) a ((mem_walk _ a).mpr (by simpa using hset)) hP
      exact h i (by omega) a (List.mem_filter.mpr ⟨ha, by simp [hbefore]⟩) hP
  · intro h i hi a ha
    exact h (i + 1) (by omega) a (List.mem_filter.mp ha).1

/-- The gate reads the tree. Over a pass of any length the record counts, by severity and by
name, each alarm that comes up at a tick, once; so it reads no trips exactly if no trip was up
after any tick, and likewise for warnings. -/
theorem gate_reads_edges (ref : Reference F) (cfg : PlantConfig F) (ems : EmsStrategy F) (seed : UInt64)
    (t : Int) (n : Nat) :
    let pass := fun i => alarmTicks ref i (Simulation.new cfg (gw01Models cfg ems) seed t, .zero)
    let trees := fun i => (pass i).1.state
    let kpis := (pass n).2
    Counted trees n kpis ∧
      (kpis.tripsRaised = 0 ↔ ∀ i ≤ n, ∀ a ∈ activeAlarms (trees i), a.severity ≠ .trip) ∧
      (kpis.warningsRaised = 0 ↔ ∀ i ≤ n, ∀ a ∈ activeAlarms (trees i), a.severity ≠ .warning) := by
  intro pass trees kpis
  have hquiet : Quiet (Simulation.new cfg (gw01Models cfg ems) seed t).plant
      (Simulation.new cfg (gw01Models cfg ems) seed t) :=
    ⟨sound_new cfg (gw01Models cfg ems) seed t, rfl, lowTree_new cfg seed t, rfl⟩
  have hcounted : Counted trees n kpis := (counted_ticks ref (lowRacks_gw01 cfg ems) hquiet n).2
  have hdark : ∀ a, a ∉ walkAlarms (trees 0) := by
    intro a ha
    have hword : wordOf (trees 0) a.node = 0#32 :=
      congrFun (congrArg Picture.words (pictureOf_new cfg seed t)) a.node
    rw [mem_walk, hword, hasBit_zero] at ha
    cases ha
  have hlist : ∀ i a, a ∈ activeAlarms (trees i) ↔ a ∈ walkAlarms (trees i) :=
    fun i a => (List.mergeSort_perm _ _).mem_iff
  simp only [hlist]
  refine ⟨hcounted, ?_, ?_⟩
  · rw [hcounted.trips]
    exact never_up_iff hdark n _
  · rw [hcounted.warnings]
    exact never_up_iff hdark n _

end BessAlarms
