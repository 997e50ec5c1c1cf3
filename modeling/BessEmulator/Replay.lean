import BessEmulator.Gw01
import BessEmulator.PictureRuns

/-!
# Replaying the log

A reader who starts from a dark site and applies the log event by event ends
at the plant's own alarm picture.
-/
namespace BessReplay

open Bess EdgeLog

variable {F : Type}

/-- Every word and every PCS state of a site. -/
structure Picture where
  words : AlarmNode → BitVec 32
  ops : Nat → PcsOpState

/-- No bit set, every PCS in standby. -/
def Picture.dark : Picture := ⟨fun _ => 0#32, fun _ => .standby⟩

def pictureOf (s : SiteState F) : Picture := ⟨wordOf s, opOf s⟩

/-- What a reader of the log does with one event. -/
def Picture.apply (p : Picture) : Event → Picture
  | .alarmRaised node bit _ =>
    { p with words := Function.update p.words node (withBit (p.words node) bit true) }
  | .alarmCleared node bit _ =>
    { p with words := Function.update p.words node (withBit (p.words node) bit false) }
  | .pcsStateChanged block _ new => { p with ops := Function.update p.ops block new }
  | .faultApplied _ => p

def Picture.replay (p : Picture) (log : List Event) : Picture := log.foldl Picture.apply p

/-- The edges of one bit in a log: `true` for a raise, `false` for a clear. -/
def edgesOf (node : AlarmNode) (bit : Nat) (log : List Event) : List Bool :=
  (log.filterMap (bitMove node bit)).map Prod.snd

/-- The transitions of one block's PCS in a log, `from` and `to`. -/
def transitionsOf (block : Nat) (log : List Event) : List (PcsOpState × PcsOpState) :=
  log.filterMap (opMove block)

theorem bitMove_ne {node : AlarmNode} {bit : Nat} {e : Event} {m : Bool × Bool}
    (h : bitMove node bit e = some m) : m.1 ≠ m.2 := by
  cases e with
  | alarmRaised n b sev =>
    simp only [bitMove] at h
    split at h
    · cases h
      decide
    · cases h
  | alarmCleared n b sev =>
    simp only [bitMove] at h
    split at h
    · cases h
      decide
    · cases h
  | pcsStateChanged b old new => cases h
  | faultApplied a => cases h

/-- A bit set in one word: read at any node and bit. -/
theorem hasBit_update (words : AlarmNode → BitVec 32) (node n : AlarmNode) (bit i : Nat) (on : Bool)
    (hi : i < 32) :
    hasBit (Function.update words node (withBit (words node) bit on) n) i =
      if node = n ∧ bit = i then on else hasBit (words n) i := by
  by_cases hn : n = node
  · subst hn
    rw [Function.update_self]
    by_cases hb : i = bit
    · subst hb
      rw [hasBit_withBit_self _ _ _ hi, if_pos ⟨rfl, rfl⟩]
    · rw [hasBit_withBit_ne _ _ hb, if_neg fun e => hb e.2.symm]
  · rw [Function.update_of_ne hn, if_neg fun e => hn e.1.symm]

theorem replay_words (p : Picture) (log : List Event) (node : AlarmNode) (i : Nat) (hi : i < 32) :
    hasBit ((p.replay log).words node) i =
      EdgeLog.replay (hasBit (p.words node) i) (log.filterMap (bitMove node i)) := by
  induction log generalizing p with
  | nil => rfl
  | cons e es ih =>
    have hstep : p.replay (e :: es) = (p.apply e).replay es := rfl
    rw [hstep, ih, List.filterMap_cons]
    cases e with
    | alarmRaised n b sev =>
      simp only [Picture.apply, hasBit_update _ _ _ _ _ _ hi, bitMove]
      split <;> rfl
    | alarmCleared n b sev =>
      simp only [Picture.apply, hasBit_update _ _ _ _ _ _ hi, bitMove]
      split <;> rfl
    | pcsStateChanged b old new => rfl
    | faultApplied a => rfl

theorem replay_ops (p : Picture) (log : List Event) (block : Nat) :
    (p.replay log).ops block = EdgeLog.replay (p.ops block) (log.filterMap (opMove block)) := by
  induction log generalizing p with
  | nil => rfl
  | cons e es ih =>
    have hstep : p.replay (e :: es) = (p.apply e).replay es := rfl
    rw [hstep, ih, List.filterMap_cons]
    cases e with
    | alarmRaised n b sev => rfl
    | alarmCleared n b sev => rfl
    | pcsStateChanged b old new =>
      simp only [Picture.apply, opMove]
      by_cases hb : block = b
      · subst hb
        simp [EdgeLog.replay]
      · rw [Function.update_of_ne hb, if_neg (Ne.symm hb)]
    | faultApplied a => rfl

/-- What a log tells, a replay finds. -/
theorem Tells.replay_eq {s s' : SiteState F} {log : List Event} (h : Tells s log s') :
    (pictureOf s).replay log = pictureOf s' := by
  have hw : ((pictureOf s).replay log).words = wordOf s' := by
    funext node
    apply word_ext
    intro i hi
    rw [replay_words _ _ _ _ hi]
    exact (h.bits node i).replay_eq
  have hop : ((pictureOf s).replay log).ops = opOf s' := by
    funext block
    rw [replay_ops]
    exact (h.ops block).replay_eq
  cases hp : (pictureOf s).replay log with
  | mk words ops =>
    rw [hp] at hw hop
    rw [pictureOf, ← hw, ← hop]

section

variable [Scalar F]

/-- A fresh site is dark. -/
theorem pictureOf_new (cfg : PlantConfig F) (seed : UInt64) (t : Int) :
    pictureOf (SiteState.new cfg seed t) = Picture.dark := by
  have hrack := forall_new_site_racks (Q := fun r => r.alarmBits = 0#32) cfg seed t fun _ => rfl
  have hblock := forall_new_blocks (Q := fun b => b.alarmBits = 0#32 ∧ b.pcs.opState = .standby)
    cfg seed t fun _ => ⟨rfl, rfl⟩
  have hw : wordOf (SiteState.new cfg seed t) = fun _ => 0#32 := by
    funext node
    cases node with
    | site => rfl
    | block b =>
      simp only [wordOf]
      cases hb : (SiteState.new cfg seed t).blocks[b]? with
      | none => rfl
      | some x => exact (hblock x (List.mem_of_getElem? hb)).1
    | rack b c r =>
      simp only [wordOf]
      cases hr : (SiteState.new cfg seed t).rack? b c r with
      | none => rfl
      | some x =>
        apply hrack x
        obtain ⟨y, hy, hx⟩ := Option.bind_eq_some_iff.mp hr
        obtain ⟨z, hz, hy⟩ := Option.bind_eq_some_iff.mp hy
        exact List.mem_flatMap.mpr ⟨z, List.mem_of_getElem? hz,
          List.mem_flatMap.mpr ⟨y, List.mem_of_getElem? hy, List.mem_of_getElem? hx⟩⟩
  have hop : opOf (SiteState.new cfg seed t) = fun _ => .standby := by
    funext b
    simp only [opOf]
    cases hb : (SiteState.new cfg seed t).blocks[b]? with
    | none => rfl
    | some x => exact (hblock x (List.mem_of_getElem? hb)).2
  rw [pictureOf, hw, hop]
  rfl

theorem lowTree_new (cfg : PlantConfig F) (seed : UInt64) (t : Int) :
    LowTree (SiteState.new cfg seed t) := by
  intro node
  have hw := congrArg Picture.words (pictureOf_new cfg seed t)
  have hn : wordOf (SiteState.new cfg seed t) node = 0#32 := congrFun hw node
  rw [hn]
  exact lowWord_zero

/-- The log of any run from tick 0, what is still pending included, rebuilds
the alarm picture: replayed from a dark site it gives every word and every PCS
state, each bit's edges alternate starting with a raise, each transition leaves
the state the one before reached, and the count is of the events handed out. -/
theorem log_rebuilds_picture (cfg : PlantConfig F) (models : Models F) (seed : UInt64) (t : Int)
    (hb : LowRacks models cfg) (moves : List (Move F)) :
    Picture.dark.replay (logOf (Simulation.new cfg models seed t) moves) =
        pictureOf ((Simulation.new cfg models seed t).run moves).state ∧
      (∀ node bit, List.IsChain (· ≠ ·)
        (false :: edgesOf node bit (logOf (Simulation.new cfg models seed t) moves))) ∧
      (∀ block, List.IsChain (fun a b => a.2 = b.1)
        ((.standby, .standby) ::
          transitionsOf block (logOf (Simulation.new cfg models seed t) moves))) ∧
      ((Simulation.new cfg models seed t).run moves).state.eventLog.count =
        (handedOut (Simulation.new cfg models seed t) moves).length := by
  have hpic := pictureOf_new cfg seed t
  obtain ⟨ht, hc⟩ := tells_run (sound_new cfg models seed t) hb (lowTree_new cfg seed t) moves
    (SiteState.new cfg seed t) [] (Tells.refl _) rfl
  rw [List.nil_append] at ht hc
  refine ⟨?_, fun node bit => ?_, fun block => ?_, hc⟩
  · rw [← hpic]
    exact ht.replay_eq
  · have hw : hasBit (wordOf (SiteState.new cfg seed t) node) bit = false := by
      rw [show wordOf (SiteState.new cfg seed t) node = 0#32 from
        congrFun (congrArg Picture.words hpic) node]
      exact hasBit_zero bit
    have hp := ht.bits node bit
    rw [hw] at hp
    refine hp.alternates fun m hm => ?_
    obtain ⟨e, _, he⟩ := List.mem_filterMap.mp hm
    exact bitMove_ne he
  · have hop : opOf (SiteState.new cfg seed t) block = .standby :=
      congrFun (congrArg Picture.ops hpic) block
    have hp := ht.ops block
    rw [hop] at hp
    exact hp.isChain .standby

theorem lowRacks_gw01 (cfg : PlantConfig F) (ems : EmsStrategy F) :
    LowRacks (gw01Models cfg ems) cfg := fun _ h => BasicBms.default.lowWord_rackAlarms cfg.rack h

/-- On the reference plant, through a trip, a tick, a reset and another tick. -/
theorem log_rebuilds_picture_gw01 :
    let sim : Simulation ℝ :=
      Simulation.new PlantConfig.gw01 (gw01Models PlantConfig.gw01 ⟨fun _ _ => 0⟩) 42 0
    let moves : List (Move ℝ) :=
      [.command .tripProtection, .step ⟨⟨12, 0⟩, 50⟩, .command (.resetAlarms .site),
        .step ⟨⟨12, 0⟩, 50⟩]
    Picture.dark.replay (logOf sim moves) = pictureOf (sim.run moves).state :=
  (log_rebuilds_picture PlantConfig.gw01 (gw01Models PlantConfig.gw01 ⟨fun _ _ => 0⟩) 42 0
    (lowRacks_gw01 PlantConfig.gw01 ⟨fun _ _ => 0⟩)
    [.command .tripProtection, .step ⟨⟨12, 0⟩, 50⟩, .command (.resetAlarms .site),
      .step ⟨⟨12, 0⟩, 50⟩]).1

end

end BessReplay
