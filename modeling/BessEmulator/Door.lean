import BessEmulator.PictureCommands
import BessEmulator.Trip

/-!
# The fault door

Every action goes through a direct command; the door adds the mark and the
answer. Three kinds of command tell three ways whether they changed anything:
a value compared before and after, a count of events, the bits of a rate. All
three say the same: whether the tree moved.
-/
namespace BessDoor

open Bess BessReplay BessTrip

variable {F : Type} [Scalar F]

/-- Whether the site has what a reset's scope names. -/
def ScopeExists (s : SiteState F) : ResetScope → Prop
  | .site => True
  | .block b => (s.blocks[b]?).isSome
  | .rack b c r => (s.rack? b c r).isSome

/-- Whether the site has the node an action names. -/
def NodeExists (s : SiteState F) : FaultAction → Prop
  | .hvacFailure b c => (s.container? b c).isSome
  | .hvacRepair b c => (s.container? b c).isSome
  | .pcsTrip b => (s.blocks[b]?).isSome
  | .protectionTrip => True
  | .rackSelfDischarge b c r _ => (s.rack? b c r).isSome
  | .rackIsolate b c r => (s.rack? b c r).isSome
  | .rackRestore b c r => (s.rack? b c r).isSome
  | .blockMaintenanceEnter b => (s.blocks[b]?).isSome
  | .blockMaintenanceExit b => (s.blocks[b]?).isSome
  | .alarmReset scope => ScopeExists s scope

/-- The tree the matching direct command leaves. -/
def direct (sim : Simulation F) : FaultAction → SiteState F
  | .hvacFailure b c => (sim.command (.setHvacFailed b c true)).state
  | .hvacRepair b c => (sim.command (.setHvacFailed b c false)).state
  | .pcsTrip b => (sim.command (.tripPcs b)).state
  | .protectionTrip => (sim.command .tripProtection).state
  | .rackSelfDischarge b c r ppm =>
    sim.state.modifyRack b c r fun r => { r with selfDischargeExcessPerS := excessPerS ppm }
  | .rackIsolate b c r => (sim.command (.setRackInService b c r false)).state
  | .rackRestore b c r => (sim.command (.setRackInService b c r true)).state
  | .blockMaintenanceEnter b => (sim.command (.setBlockMode b .maintenance)).state
  | .blockMaintenanceExit b => (sim.command (.setBlockMode b .inService)).state
  | .alarmReset scope => (sim.command (.resetAlarms scope)).state

omit [Scalar F] in
theorem modify_eq_self_iff {α : Type} {xs : List α} {i : Nat} {x : α} (h : xs[i]? = some x)
    (f : α → α) : xs.modify i f = xs ↔ f x = x := by
  constructor
  · intro he
    have := congrArg (fun ys : List α => ys[i]?) he
    simpa [List.getElem?_modify, h] using this
  · intro hf
    apply List.ext_getElem?
    intro j
    rw [List.getElem?_modify]
    by_cases hj : i = j
    · subst hj
      simp [h, hf]
    · simp [hj]

omit [Scalar F] in
theorem modifyBlock_eq_self_iff {s : SiteState F} {i : Nat} {b : BlockState F}
    (h : s.blocks[i]? = some b) (f : BlockState F → BlockState F) :
    s.modifyBlock i f = s ↔ f b = b := by
  rw [← modify_eq_self_iff h f]
  exact ⟨fun he => congrArg SiteState.blocks he, fun he => by rw [SiteState.modifyBlock, he]⟩

omit [Scalar F] in
theorem modifyContainer_eq_self_iff {b : BlockState F} {i : Nat} {c : ContainerState F}
    (h : b.containers[i]? = some c) (f : ContainerState F → ContainerState F) :
    b.modifyContainer i f = b ↔ f c = c := by
  rw [← modify_eq_self_iff h f]
  exact ⟨fun he => congrArg BlockState.containers he,
    fun he => by rw [BlockState.modifyContainer, he]⟩

omit [Scalar F] in
theorem modifyRackIn_eq_self_iff {c : ContainerState F} {i : Nat} {r : RackState F}
    (h : c.racks[i]? = some r) (f : RackState F → RackState F) :
    c.modifyRack i f = c ↔ f r = r := by
  rw [← modify_eq_self_iff h f]
  exact ⟨fun he => congrArg ContainerState.racks he, fun he => by rw [ContainerState.modifyRack, he]⟩

omit [Scalar F] in
/-- An edit of one container moves the tree exactly when it moves the container. -/
theorem editContainer_eq_self_iff {s : SiteState F} {i j : Nat} {c : ContainerState F}
    (h : s.container? i j = some c) (f : ContainerState F → ContainerState F) :
    (s.modifyBlock i fun b => b.modifyContainer j f) = s ↔ f c = c := by
  obtain ⟨b, hb, hc⟩ := Option.bind_eq_some_iff.mp h
  rw [modifyBlock_eq_self_iff hb, modifyContainer_eq_self_iff hc]

omit [Scalar F] in
theorem editRack_eq_self_iff {s : SiteState F} {i j k : Nat} {r : RackState F}
    (h : s.rack? i j k = some r) (f : RackState F → RackState F) :
    s.modifyRack i j k f = s ↔ f r = r := by
  obtain ⟨c, hc, hr⟩ := Option.bind_eq_some_iff.mp h
  rw [SiteState.modifyRack, editContainer_eq_self_iff hc, modifyRackIn_eq_self_iff hr]

/-- Clearing latched bits is told bit by bit: no event, no bit. -/
theorem changes_reset_nil {node : AlarmNode} {w : BitVec 32}
    (h : changes node w (w &&& ~~~TRIP_MASK) = []) : w &&& ~~~TRIP_MASK = w := by
  apply word_ext
  intro i _
  by_cases hi : i < 16
  · have hnone : changeOf node w (w &&& ~~~TRIP_MASK) i = none := by
      rw [changes, List.filterMap_eq_nil_iff] at h
      exact h i (List.mem_range.mpr hi)
    have hx : hasBit (w ^^^ (w &&& ~~~TRIP_MASK)) i = false := by
      rw [changeOf] at hnone
      by_contra hx
      rw [Bool.not_eq_false] at hx
      rw [if_pos hx] at hnone
      split at hnone <;> cases hnone
    rw [hasBit_xor] at hx
    exact (bne_eq_false_iff_eq.mp hx).symm
  · rw [hasBit_and_not_trip]
    simp [hi]

/-- One pass of a reset: its events are added at the end, and where it adds
none it leaves the tree alone. -/
structure Reports (p q : ResetPass F) : Prop where
  pending : q.state.pendingEvents = p.state.pendingEvents
  events : ∃ added, q.events = p.events ++ added ∧ (added = [] → q.state = p.state)

omit [Scalar F] in
theorem Reports.refl (p : ResetPass F) : Reports p p :=
  ⟨rfl, [], (List.append_nil _).symm, fun _ => rfl⟩

omit [Scalar F] in
theorem Reports.trans {p q r : ResetPass F} (h : Reports p q) (h' : Reports q r) : Reports p r := by
  obtain ⟨as, ha, hsa⟩ := h.events
  obtain ⟨bs, hb, hsb⟩ := h'.events
  refine ⟨h'.pending.trans h.pending, as ++ bs, by rw [hb, ha, List.append_assoc], fun hnil => ?_⟩
  obtain ⟨hna, hnb⟩ := List.append_eq_nil_iff.mp hnil
  rw [hsb hnb, hsa hna]

omit [Scalar F] in
theorem Reports.foldl {α : Type} {f : ResetPass F → α → ResetPass F} (hf : ∀ p a, Reports p (f p a))
    (as : List α) (p : ResetPass F) : Reports p (as.foldl f p) := by
  induction as generalizing p with
  | nil => exact Reports.refl p
  | cons a as ih => exact (hf p a).trans (ih (f p a))

omit [Scalar F] in
theorem reports_rack (models : Models F) (cfg : PlantConfig F) (block : Nat) (p : ResetPass F)
    (addr : Nat × Nat) : Reports p (resetRack models cfg block p addr) := by
  rw [resetRack]
  cases hr : p.state.rack? block addr.1 addr.2 with
  | none => exact Reports.refl p
  | some r =>
    refine ⟨rfl, _, pushChanges_eq _ _ _ _, fun hnil => ?_⟩
    have hword : r.alarmBits &&& ~~~TRIP_MASK = r.alarmBits := changes_reset_nil hnil
    apply (editRack_eq_self_iff hr RackState.unlatch).mpr
    rw [RackState.unlatch, hword]

/-- What a reset says of a block before its racks: the fault, then the word. -/
def ownSaid (b : BlockState F) (block : Nat) : List Event :=
  (if b.pcs.opState = .fault then [.pcsStateChanged block .fault .standby] else []) ++
    changes (.block block) b.alarmBits b.unlatch.alarmBits

/-- The pass as it comes to the racks of a block. -/
def ownPass (p : ResetPass F) (block : Nat) (b : BlockState F) : ResetPass F :=
  ⟨p.state.modifyBlock block BlockState.unlatch, p.events ++ ownSaid b block, p.still⟩

omit [Scalar F] in
theorem ownSaid_nil {b : BlockState F} {block : Nat} (h : ownSaid b block = []) : b.unlatch = b := by
  obtain ⟨hop, hword⟩ := List.append_eq_nil_iff.mp h
  have hne : b.pcs.opState ≠ .fault := by
    intro hf
    rw [if_pos hf] at hop
    cases hop
  have hun : b.unlatch = { b with alarmBits := b.alarmBits &&& ~~~TRIP_MASK } := by
    rw [BlockState.unlatch]
    simp only [hne, if_false]
  rw [hun] at hword ⊢
  rw [changes_reset_nil hword]

omit [Scalar F] in
theorem resetBlock_some (models : Models F) (cfg : PlantConfig F) {p : ResetPass F} {block : Nat}
    {b : BlockState F} (hb : p.state.blocks[block]? = some b) :
    resetBlock models cfg p block =
      b.rackAddrs.foldl (resetRack models cfg block) (ownPass p block b) := by
  rw [resetBlock, hb, ownPass, ownSaid]
  simp only [pushChanges_eq]
  split
  · rw [List.append_assoc]
  · rw [List.nil_append]

omit [Scalar F] in
theorem reports_own {p : ResetPass F} {block : Nat} {b : BlockState F}
    (hb : p.state.blocks[block]? = some b) : Reports p (ownPass p block b) where
  pending := rfl
  events := by
    refine ⟨ownSaid b block, rfl, fun hnil => ?_⟩
    exact (modifyBlock_eq_self_iff hb BlockState.unlatch).mpr (ownSaid_nil hnil)

omit [Scalar F] in
theorem reports_block (models : Models F) (cfg : PlantConfig F) (p : ResetPass F) (block : Nat) :
    Reports p (resetBlock models cfg p block) := by
  cases hb : p.state.blocks[block]? with
  | none =>
    rw [resetBlock, hb]
    exact Reports.refl p
  | some b =>
    rw [resetBlock_some models cfg hb]
    exact (reports_own hb).trans
      (Reports.foldl (fun q addr => reports_rack models cfg block q addr) b.rackAddrs _)

/-- The close button is told by the bit it clears: a tripped site has it set. -/
theorem reports_site {p : ResetPass F}
    (ht : p.state.substation.hvBreaker = .opened →
      hasBit p.state.alarmBits SiteBit.PROTECTION_TRIP = true) : Reports p (resetSite p) := by
  have hpend : (resetSite p).state.pendingEvents = p.state.pendingEvents := by
    simp only [resetSite]
    split <;> rfl
  refine ⟨hpend, _, pushChanges_eq _ _ _ _, fun hnil => ?_⟩
  have hword := changes_reset_nil hnil
  have hclosed : p.state.substation.hvBreaker ≠ .opened := by
    intro ho
    have hbit := ht ho
    rw [← hword, hasBit_and_not_trip] at hbit
    simp [SiteBit.PROTECTION_TRIP] at hbit
  simp only [resetSite, hclosed, if_false, hword]

/-- Resetting blocks leaves the breaker and its bit alone. -/
theorem tripped_resetBlocks (models : Models F) (cfg : PlantConfig F) (bs : List Nat)
    (p : ResetPass F) (ht : Tripped p.state) :
    Tripped (bs.foldl (resetBlock models cfg) p).state := by
  induction bs generalizing p with
  | nil => exact ht
  | cons b bs ih => exact ih _ (kept_resetBlock tripped_kept.resets models cfg p b ht)

theorem reports_scope (models : Models F) (cfg : PlantConfig F) {s : SiteState F}
    (ht : Tripped s) (scope : ResetScope) :
    Reports ⟨s, [], []⟩ (resetScope models cfg ⟨s, [], []⟩ scope) := by
  cases scope with
  | block b => exact reports_block models cfg _ b
  | rack b c r => exact reports_rack models cfg b _ (c, r)
  | site =>
    have hblocks : Tripped ((List.range s.blocks.length).foldl (resetBlock models cfg)
        ⟨s, [], []⟩).state := tripped_resetBlocks models cfg _ ⟨s, [], []⟩ ht
    exact (Reports.foldl (fun q b => reports_block models cfg q b) _ _).trans
      (reports_site fun ho => hblocks.bit.mpr ho)

/-- A reset of a scope the site has is accepted. It leaves its events waiting
in the tree, and the tree as it was where there are none. -/
theorem resetAlarms_moves (models : Models F) (cfg : PlantConfig F) {s : SiteState F}
    (ht : Tripped s) {scope : ResetScope} (h : ScopeExists s scope) :
    ∃ s' still, resetAlarms models cfg s scope = (.ok still, s') ∧
      s'.pendingEvents = s.pendingEvents ++ (resetScope models cfg ⟨s, [], []⟩ scope).events ∧
      (s' = s ↔ (resetScope models cfg ⟨s, [], []⟩ scope).events = []) := by
  have hcheck : checkScope s scope = true := by
    cases scope with
    | site => rfl
    | block b =>
      obtain ⟨x, hx⟩ := Option.isSome_iff_exists.mp h
      exact decide_eq_true (List.getElem?_eq_some_iff.mp hx).1
    | rack b c r => exact h
  have hrep := reports_scope models cfg ht scope
  obtain ⟨added, hadded, hstill⟩ := hrep.events
  rw [List.nil_append] at hadded
  have hpend : (resetScope models cfg ⟨s, [], []⟩ scope).state.pendingEvents ++
      (resetScope models cfg ⟨s, [], []⟩ scope).events = s.pendingEvents ++ added := by
    rw [hrep.pending, hadded]
  refine ⟨(resetScope models cfg ⟨s, [], []⟩ scope).state.withPending (s.pendingEvents ++ added),
    (resetScope models cfg ⟨s, [], []⟩ scope).still, ?_, ?_, ?_⟩
  · rw [resetAlarms, if_pos hcheck, ← hpend]
    rfl
  · rw [hadded]
    rfl
  · rw [hadded]
    constructor
    · intro he
      have hlen := congrArg (fun s : SiteState F => s.pendingEvents.length) he
      simp only [SiteState.withPending, List.length_append] at hlen
      exact List.length_eq_zero_iff.mp (by omega)
    · intro hnil
      rw [hstill hnil, hnil, List.append_nil]
      rfl

/-- The refusal of a missing node, in the words of the command that refuses it. -/
def refusal : FaultAction → FaultError
  | .hvacFailure b c => .command (.noSuchContainer b c)
  | .hvacRepair b c => .command (.noSuchContainer b c)
  | .pcsTrip b => .command (.noSuchNode (.block b))
  | .protectionTrip => .command (.noSuchNode .site)
  | .rackSelfDischarge b c r _ => .command (.noSuchNode (.rack b c r))
  | .rackIsolate b c r => .command (.noSuchNode (.rack b c r))
  | .rackRestore b c r => .command (.noSuchNode (.rack b c r))
  | .blockMaintenanceEnter b => .command (.noSuchNode (.block b))
  | .blockMaintenanceExit b => .command (.noSuchNode (.block b))
  | .alarmReset scope => .reset (.noSuchNode scope)

/-- What an accepted action comes back with: the direct command's tree, and
whether that is another tree than before. -/
structure Answers (sim : Simulation ℝ) (a : FaultAction) (s' : SiteState ℝ) (changed : Bool) :
    Prop where
  tree : s' = direct sim a
  still : changed = false ↔ s' = sim.state

section

variable {sim : Simulation ℝ}

omit [Scalar F] in
/-- A value written and compared with the one before: the answer is no exactly
when the tree stays. -/
theorem compared_answers {ε α : Type} [DecidableEq α] {s s' : SiteState ℝ}
    {written : Reply ε Unit ℝ} {was : Option α} {x v : α} (hset : written = (.ok (), s'))
    (hwas : was = some x) (hstill : s' = s ↔ x = v) :
    ∃ changed, written.map (Except.map fun _ => decide (was ≠ some v)) id = (.ok changed, s') ∧
      (changed = false ↔ s' = s) := by
  refine ⟨decide (was ≠ some v), by rw [hset]; rfl, ?_⟩
  rw [hwas, decide_eq_false_iff_not, not_not, Option.some_inj]
  exact hstill.symm

theorem hvacTo_answers {b c : Nat} (failed : Bool) (h : (sim.state.container? b c).isSome) :
    ∃ s' changed, hvacTo sim.state b c failed = (.ok changed, s') ∧
      s' = (sim.command (.setHvacFailed b c failed)).state ∧
      (changed = false ↔ s' = sim.state) := by
  obtain ⟨x, hx⟩ := Option.isSome_iff_exists.mp h
  have hset : setHvacFailed sim.state b c failed =
      (.ok (), sim.state.modifyBlock b fun b => b.modifyContainer c fun c => c.setHvacFailed failed) := by
    rw [setHvacFailed, hx]
    rfl
  have hwas : ((sim.state.container? b c).map fun c => c.hvac.failed) = some x.hvac.failed := by
    rw [hx, Option.map_some]
  obtain ⟨changed, hto, hstill⟩ := compared_answers (s := sim.state) (v := failed) hset hwas (by
    rw [editContainer_eq_self_iff hx]
    constructor
    · exact fun he => (congrArg (fun c => c.hvac.failed) he).symm
    · rintro rfl
      rfl)
  refine ⟨_, changed, hto, ?_, hstill⟩
  rw [Simulation.command, hset]

theorem rackTo_answers {b c r : Nat} (on : Bool) (h : (sim.state.rack? b c r).isSome) :
    ∃ s' changed, rackTo sim.state b c r on = (.ok changed, s') ∧
      s' = (sim.command (.setRackInService b c r on)).state ∧
      (changed = false ↔ s' = sim.state) := by
  obtain ⟨x, hx⟩ := Option.isSome_iff_exists.mp h
  have hset : setRackInService sim.state b c r on =
      (.ok (), sim.state.modifyRack b c r fun r => { r with inService := on }) := by
    rw [setRackInService, hx]
  have hwas : (sim.state.rack? b c r).map RackState.inService = some x.inService := by
    rw [hx, Option.map_some]
  obtain ⟨changed, hto, hstill⟩ := compared_answers (s := sim.state) (v := on) hset hwas (by
    rw [editRack_eq_self_iff hx]
    constructor
    · exact fun he => (congrArg RackState.inService he).symm
    · rintro rfl
      rfl)
  refine ⟨_, changed, hto, ?_, hstill⟩
  rw [Simulation.command, hset]

theorem modeTo_answers {b : Nat} (mode : BlockMode) (h : (sim.state.blocks[b]?).isSome) :
    ∃ s' changed, modeTo sim.state b mode = (.ok changed, s') ∧
      s' = (sim.command (.setBlockMode b mode)).state ∧ (changed = false ↔ s' = sim.state) := by
  obtain ⟨x, hx⟩ := Option.isSome_iff_exists.mp h
  have hset : setBlockMode sim.state b mode =
      (.ok (), sim.state.modifyBlock b fun b => { b with mode := mode }) := by
    rw [setBlockMode, hx]
  have hwas : (sim.state.blocks[b]?).map BlockState.mode = some x.mode := by
    rw [hx, Option.map_some]
  obtain ⟨changed, hto, hstill⟩ := compared_answers (s := sim.state) (v := mode) hset hwas (by
    rw [modifyBlock_eq_self_iff hx]
    constructor
    · exact fun he => (congrArg BlockState.mode he).symm
    · rintro rfl
      rfl)
  refine ⟨_, changed, hto, ?_, hstill⟩
  rw [Simulation.command, hset]

theorem selfDischargeTo_answers {b c r : Nat} (ppm : UInt32) (h : (sim.state.rack? b c r).isSome) :
    ∃ s' changed, selfDischargeTo sim.state b c r ppm = (.ok changed, s') ∧
      s' = direct sim (.rackSelfDischarge b c r ppm) ∧ (changed = false ↔ s' = sim.state) := by
  obtain ⟨x, hx⟩ := Option.isSome_iff_exists.mp h
  have hto : selfDischargeTo sim.state b c r ppm =
      (.ok (!Scalar.sameBits x.selfDischargeExcessPerS (excessPerS ppm)),
        sim.state.modifyRack b c r fun r => { r with selfDischargeExcessPerS := excessPerS ppm }) := by
    rw [selfDischargeTo, hx]
  refine ⟨_, _, hto, rfl, ?_⟩
  rw [editRack_eq_self_iff hx, Bool.not_eq_false']
  have hbits : Scalar.sameBits x.selfDischargeExcessPerS (excessPerS ppm) = true ↔
      x.selfDischargeExcessPerS = excessPerS ppm := decide_eq_true_iff
  rw [hbits]
  constructor
  · intro he
    rw [← he]
  · exact fun he => (congrArg RackState.selfDischargeExcessPerS he).symm

/-- A longer list of pending events is another tree. -/
theorem ne_of_pending {s s' : SiteState ℝ} {e : Event} {es : List Event}
    (h : s'.pendingEvents = s.pendingEvents ++ e :: es) : s' ≠ s := by
  rintro rfl
  have := congrArg List.length h
  simp at this

theorem tripPcs_answers {b : Nat} (h : (sim.state.blocks[b]?).isSome) :
    ∃ s' changed, tripPcs sim.state b = (.ok changed, s') ∧
      s' = (sim.command (.tripPcs b)).state ∧ (changed = false ↔ s' = sim.state) := by
  obtain ⟨x, hx⟩ := Option.isSome_iff_exists.mp h
  by_cases hf : x.pcs.opState = .fault
  · have ht : tripPcs sim.state b = (.ok false, sim.state) := by
      rw [tripPcs, hx]
      simp only [hf, if_true]
    refine ⟨_, _, ht, ?_, by simp⟩
    rw [Simulation.command, ht]
  · have ht : tripPcs sim.state b =
        (.ok true, (sim.state.modifyBlock b fun b => b.toOpState .fault).withPending
          (sim.state.pendingEvents ++ [.pcsStateChanged b x.pcs.opState .fault])) := by
      rw [tripPcs, hx]
      simp only [hf, if_false]
      rfl
    refine ⟨_, _, ht, ?_, ?_⟩
    · rw [Simulation.command, ht]
    · simp only [Bool.true_eq_false, false_iff]
      exact ne_of_pending rfl

theorem tripProtection_answers :
    (tripProtection sim.state).2 = false ↔ (tripProtection sim.state).1 = sim.state := by
  cases hb : hasBit sim.state.alarmBits SiteBit.PROTECTION_TRIP with
  | true =>
    rw [tripProtection, if_pos hb]
    simp
  | false =>
    rw [tripProtection_eq hb]
    simp only [Bool.true_eq_false, false_iff]
    apply ne_of_pending (e := tripRaised)
    rw [SiteState.withPending, List.append_assoc]
    rfl

theorem resetAlarms_answers (ht : Tripped sim.state) {scope : ResetScope}
    (h : ScopeExists sim.state scope) :
    ∃ s' still, resetAlarms sim.models sim.cfg sim.state scope = (.ok still, s') ∧
      (decide (sim.state.pendingEvents.length < s'.pendingEvents.length) = false ↔
        s' = sim.state) := by
  obtain ⟨s', still, hok, hpend, hmoves⟩ := resetAlarms_moves sim.models sim.cfg ht h
  refine ⟨s', still, hok, ?_⟩
  rw [decide_eq_false_iff_not, hpend, hmoves, List.length_append, ← List.length_eq_zero_iff]
  omega

theorem dispatch_answers (ht : Tripped sim.state) {a : FaultAction} (h : NodeExists sim.state a) :
    ∃ s' changed, dispatch sim.models sim.cfg sim.state a = (.ok changed, s') ∧
      Answers sim a s' changed := by
  cases a with
  | hvacFailure b c =>
    obtain ⟨s', changed, hto, htree, hstill⟩ := hvacTo_answers true h
    exact ⟨s', changed, by rw [dispatch, hto]; rfl, htree, hstill⟩
  | hvacRepair b c =>
    obtain ⟨s', changed, hto, htree, hstill⟩ := hvacTo_answers false h
    exact ⟨s', changed, by rw [dispatch, hto]; rfl, htree, hstill⟩
  | pcsTrip b =>
    obtain ⟨s', changed, hto, htree, hstill⟩ := tripPcs_answers h
    exact ⟨s', changed, by rw [dispatch, hto]; rfl, htree, hstill⟩
  | protectionTrip => exact ⟨_, _, rfl, rfl, tripProtection_answers⟩
  | rackSelfDischarge b c r ppm =>
    obtain ⟨s', changed, hto, htree, hstill⟩ := selfDischargeTo_answers ppm h
    exact ⟨s', changed, by rw [dispatch, hto]; rfl, htree, hstill⟩
  | rackIsolate b c r =>
    obtain ⟨s', changed, hto, htree, hstill⟩ := rackTo_answers false h
    exact ⟨s', changed, by rw [dispatch, hto]; rfl, htree, hstill⟩
  | rackRestore b c r =>
    obtain ⟨s', changed, hto, htree, hstill⟩ := rackTo_answers true h
    exact ⟨s', changed, by rw [dispatch, hto]; rfl, htree, hstill⟩
  | blockMaintenanceEnter b =>
    obtain ⟨s', changed, hto, htree, hstill⟩ := modeTo_answers .maintenance h
    exact ⟨s', changed, by rw [dispatch, hto]; rfl, htree, hstill⟩
  | blockMaintenanceExit b =>
    obtain ⟨s', changed, hto, htree, hstill⟩ := modeTo_answers .inService h
    exact ⟨s', changed, by rw [dispatch, hto]; rfl, htree, hstill⟩
  | alarmReset scope =>
    obtain ⟨s', still, hto, hstill⟩ := resetAlarms_answers ht h
    refine ⟨s', _, by rw [dispatch, hto], ?_, hstill⟩
    rw [direct, Simulation.command, hto]

theorem dispatch_refuses {F : Type} [Scalar F] (models : Models F) (cfg : PlantConfig F)
    {s : SiteState F} {a : FaultAction} (h : ¬ NodeExists s a) :
    dispatch models cfg s a = (.error (refusal a), s) := by
  cases a with
  | hvacFailure b c | hvacRepair b c =>
    have hn := Option.not_isSome_iff_eq_none.mp h
    rw [dispatch, hvacTo, setHvacFailed, hn]
    rfl
  | pcsTrip b =>
    have hn := Option.not_isSome_iff_eq_none.mp h
    rw [dispatch, tripPcs, hn]
    rfl
  | protectionTrip => exact absurd trivial h
  | rackSelfDischarge b c r ppm =>
    have hn := Option.not_isSome_iff_eq_none.mp h
    rw [dispatch, selfDischargeTo, hn]
    rfl
  | rackIsolate b c r | rackRestore b c r =>
    have hn := Option.not_isSome_iff_eq_none.mp h
    rw [dispatch, rackTo, setRackInService, hn]
    rfl
  | blockMaintenanceEnter b | blockMaintenanceExit b =>
    have hn := Option.not_isSome_iff_eq_none.mp h
    rw [dispatch, modeTo, setBlockMode, hn]
    rfl
  | alarmReset scope =>
    have hcheck : checkScope s scope = false := by
      cases scope with
      | site => exact absurd trivial h
      | block b =>
        have hn := Option.not_isSome_iff_eq_none.mp h
        exact decide_eq_false (not_lt.mpr (List.getElem?_eq_none_iff.mp hn))
      | rack b c r => exact Bool.not_eq_true _ ▸ h
    simp only [dispatch, resetAlarms, hcheck, Bool.false_eq_true, if_false]
    rfl

/-- The mark an accepted action leaves, between what was pending and what it appended. -/
def marked (s s' : SiteState ℝ) (a : FaultAction) (appended : List Event) : SiteState ℝ :=
  s'.withPending (s.pendingEvents ++ .faultApplied a :: appended)

/-- What the door does with one action. -/
structure FaultDoor (sim : Simulation ℝ) (a : FaultAction) : Prop where
  refused : ∀ e, (sim.apply a).1 = .error e ↔ ¬ NodeExists sim.state a ∧ e = refusal a
  unchanged : ¬ NodeExists sim.state a → (sim.apply a).2 = sim ∧ sim.command (.apply a) = sim
  accepted : NodeExists sim.state a → ∃ appended changed,
    (direct sim a).pendingEvents = sim.state.pendingEvents ++ appended ∧
    sim.apply a = (.ok changed, { sim with state := marked sim.state (direct sim a) a appended }) ∧
    (changed = false ↔ marked sim.state (direct sim a) a appended = marked sim.state sim.state a [])

/-- A command that appended `es` did nothing exactly when the mark is all that is new. -/
theorem marked_iff {s s' : SiteState ℝ} {es : List Event}
    (hes : s'.pendingEvents = s.pendingEvents ++ es) (a : FaultAction) :
    s' = s ↔ marked s s' a es = marked s s a [] := by
  constructor
  · intro he
    have hnil : es = [] := by
      rw [he] at hes
      exact List.self_eq_append_right.mp hes
    rw [hnil, he]
  · intro he
    have hlist := congrArg SiteState.pendingEvents he
    have hnil : es = [] := by simpa [marked, SiteState.withPending] using hlist
    rw [hnil, List.append_nil] at hes
    have hback := congrArg (fun s : SiteState ℝ => s.withPending s'.pendingEvents) he
    calc s' = s'.withPending s'.pendingEvents := rfl
      _ = s.withPending s'.pendingEvents := hback
      _ = s := by rw [hes]; rfl

theorem faultDoor (ht : Tripped sim.state) (a : FaultAction) : FaultDoor sim a := by
  by_cases h : NodeExists sim.state a
  · obtain ⟨s', changed, hd, htree, hstill⟩ := dispatch_answers ht h
    obtain ⟨⟨es, hes, -⟩, -⟩ := spoke_dispatch sim.models sim.cfg sim.state a
    rw [hd] at hes
    have hes : s'.pendingEvents = sim.state.pendingEvents ++ es := hes
    have happly : sim.apply a =
        (.ok changed, { sim with state := marked sim.state (direct sim a) a es }) := by
      rw [Simulation.apply, applyAction, hd]
      simp only [hes, insertIdx_length_append, ← htree]
      rfl
    refine ⟨fun e => ?_, fun hn => absurd h hn, fun _ => ⟨es, changed, by rw [← htree, hes], happly, ?_⟩⟩
    · rw [happly]
      simp [h]
    · rw [hstill, ← htree]
      exact marked_iff hes a
  · have hd := dispatch_refuses sim.models sim.cfg h
    have happly : sim.apply a = (.error (refusal a), sim) := by
      rw [Simulation.apply, applyAction, hd]
      rfl
    refine ⟨fun e => ?_, fun _ => ?_, fun hn => absurd hn h⟩
    · rw [happly]
      simp only [Except.error.injEq, h, not_false_eq_true, true_and]
      exact eq_comm
    · rw [Simulation.command, applyAction, hd, happly]
      exact ⟨rfl, rfl⟩

end

/-- In every reachable state an action is refused exactly when its node is
missing, and then nothing moves; otherwise the tree is the direct command's with
the mark ahead of what the command appended, and the answer is no exactly when
the mark is all that is new. -/
theorem fault_door (cfg : PlantConfig ℝ) (ems : EmsStrategy ℝ) (seed : UInt64) (t : Int)
    (moves : List (Move ℝ)) (a : FaultAction) :
    FaultDoor ((Simulation.new cfg (gw01Models cfg ems) seed t).run moves) a :=
  faultDoor (tripped_run cfg ems seed t moves) a

end BessDoor
