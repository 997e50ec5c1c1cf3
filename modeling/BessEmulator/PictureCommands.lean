import BessEmulator.Picture

/-!
# What commands say

Every command leaves pending exactly the moves it made: the reset walks its
scope, the trip its blocks, and the fault door puts its mark in front.
-/
namespace BessReplay

open Bess EdgeLog Sweep

variable {F : Type}

/-- The tree went on and left what it has to say pending; the log stands. -/
structure Spoke (s s' : SiteState F) : Prop where
  said : ∃ es, s'.pendingEvents = s.pendingEvents ++ es ∧ Tells s es s'
  log : s'.eventLog = s.eventLog

theorem Spoke.refl (s : SiteState F) : Spoke s s :=
  ⟨⟨[], (List.append_nil _).symm, Tells.refl s⟩, rfl⟩

theorem Spoke.silent {s s' : SiteState F} (h : SamePicture s s')
    (hp : s'.pendingEvents = s.pendingEvents) (hl : s'.eventLog = s.eventLog) : Spoke s s' :=
  ⟨⟨[], by rw [hp, List.append_nil], Tells.of_same h⟩, hl⟩

theorem same_withPending (s : SiteState F) (es : List Event) : SamePicture s (s.withPending es) where
  words n := by cases n <;> rfl
  ops b := rfl

theorem spoke_setHvacFailed (s : SiteState F) (b c : Nat) (failed : Bool) :
    Spoke s (setHvacFailed s b c failed).2 := by
  rw [setHvacFailed]
  split
  · exact Spoke.refl s
  · refine Spoke.silent (same_modifyBlock s b (fun _ => rfl) (fun _ => rfl) fun j d r => ?_) rfl rfl
    rw [rack_modifyContainer]
    unfold SiteState.rack?
    cases s.container? j d with
    | none => rfl
    | some x =>
      simp only [Option.bind_some]
      split <;> rfl

theorem spoke_setRackInService (s : SiteState F) (b c r : Nat) (on : Bool) :
    Spoke s (setRackInService s b c r on).2 := by
  rw [setRackInService]
  split
  · exact Spoke.refl s
  · exact Spoke.silent (same_modifyRack s b c r fun _ => rfl) rfl rfl

theorem spoke_setBlockMode (s : SiteState F) (b : Nat) (mode : BlockMode) :
    Spoke s (setBlockMode s b mode).2 := by
  rw [setBlockMode]
  split
  · exact Spoke.refl s
  · refine Spoke.silent (same_modifyBlock s b (fun _ => rfl) (fun _ => rfl) fun j c r => ?_) rfl rfl
    rw [rack_modifyBlock]
    intro b
    rfl

theorem words_toOpState (s : SiteState F) (b : Nat) (op : PcsOpState) (n : AlarmNode) :
    wordOf (s.modifyBlock b fun b => b.toOpState op) n = wordOf s n := by
  cases n with
  | site => rfl
  | block j => exact blockWord_modifyBlock s b j (Or.inr fun _ => rfl)
  | rack j c r =>
    simp only [wordOf]
    rw [rack_modifyBlock]
    intro b
    rfl

theorem spoke_tripPcs (s : SiteState F) (b : Nat) : Spoke s (tripPcs s b).2 := by
  rw [tripPcs]
  split
  · exact Spoke.refl s
  · rename_i blk hb
    split
    · exact Spoke.refl s
    · rename_i hop
      have hev : pcsEvents b blk.pcs.opState .fault = [.pcsStateChanged b blk.pcs.opState .fault] := by
        rw [pcsEvents]
        rw [if_pos (Ne.symm hop)]
      have hold : opOf s b = blk.pcs.opState := by simp [opOf, hb]
      have hnew : opOf (s.modifyBlock b fun b => b.toOpState .fault) b = .fault := by
        simp [opOf, blocks_modifyBlock, hb, BlockState.toOpState]
      have ht := tells_op hold hnew (words_toOpState s b .fault)
        fun j hj => opOf_modifyBlock s b j (Or.inl (Ne.symm hj))
      rw [hev] at ht
      exact ⟨⟨_, rfl, ht.same_right (same_withPending _ _)⟩, rfl⟩

/-- Every PCS in fault, each change reported. -/
theorem tells_faults (s : SiteState F) :
    Tells s (s.blocks.zipIdx.flatMap faultEvent)
      { s with blocks := s.blocks.map fun b => b.toOpState .fault } where
  bits n bit := by
    have hnil : (s.blocks.zipIdx.flatMap faultEvent).filterMap (bitMove n bit) = [] := by
      rw [List.filterMap_flatMap, List.flatMap_eq_nil_iff]
      intro x _
      exact pcsEvents_bits x.2 _ _ n bit
    rw [hnil]
    cases n with
    | site => exact rfl
    | block j =>
      simp only [wordOf, List.getElem?_map, path_nil]
      cases s.blocks[j]? <;> rfl
    | rack j c r =>
      simp only [wordOf, SiteState.rack?, SiteState.container?, List.getElem?_map, path_nil]
      cases s.blocks[j]? <;> rfl
  ops k := by
    rw [filterMap_zipIdx_single faultEvent (opMove k) k
      fun x i hi => pcsEvents_other hi x.pcs.opState .fault]
    simp only [opOf, List.getElem?_map, Nat.zero_le, if_true, Nat.sub_zero]
    cases s.blocks[k]? with
    | none => exact rfl
    | some b => exact pcsEvents_path k b.pcs.opState .fault

theorem hasBit_unlatch_high (w : BitVec 32) (i : Nat) (hi : 16 ≤ i) :
    hasBit w i = hasBit (w &&& ~~~TRIP_MASK) i := by
  rw [hasBit_and_not_trip]
  have hlt : ¬i < 16 := by omega
  simp [hlt]

/-- A reset under way: what it has collected tells how it got here from `s`. -/
structure Resetting (s : SiteState F) (p : ResetPass F) : Prop where
  told : Tells s p.events p.state
  pending : p.state.pendingEvents = s.pendingEvents
  log : p.state.eventLog = s.eventLog

theorem resetting_rack {s : SiteState F} {p : ResetPass F} (models : Models F)
    (cfg : PlantConfig F) (block : Nat) (addr : Nat × Nat) (h : Resetting s p) :
    Resetting s (resetRack models cfg block p addr) := by
  rw [resetRack]
  cases hr : p.state.rack? block addr.1 addr.2 with
  | none => exact h
  | some r =>
    refine ⟨?_, h.pending, h.log⟩
    simp only [pushChanges_eq]
    have hold : wordOf p.state (.rack block addr.1 addr.2) = r.alarmBits := by simp [wordOf, hr]
    have hnew : wordOf (p.state.modifyRack block addr.1 addr.2 RackState.unlatch)
        (.rack block addr.1 addr.2) = r.unlatch.alarmBits := by simp [wordOf, rack_modifyRack, hr]
    refine h.told.trans (tells_word hold hnew ?_ ?_ fun i hi => hasBit_unlatch_high _ i hi)
    · intro n hn
      cases n with
      | site => rfl
      | block j => exact blockWord_modifyBlock _ block j (Or.inr fun _ => rfl)
      | rack j d q =>
        have hne : ¬(block = j ∧ addr.1 = d ∧ addr.2 = q) := by
          rintro ⟨rfl, rfl, rfl⟩
          exact hn rfl
        simp only [wordOf, rack_modifyRack, if_neg hne, Option.map_id']
    · intro j
      exact opOf_modifyBlock _ block j (Or.inr fun _ => rfl)

theorem resetting_racks {s : SiteState F} (models : Models F) (cfg : PlantConfig F) (block : Nat)
    (addrs : List (Nat × Nat)) (p : ResetPass F) (h : Resetting s p) :
    Resetting s (addrs.foldl (resetRack models cfg block) p) := by
  induction addrs generalizing p with
  | nil => exact h
  | cons a as ih => exact ih _ (resetting_rack models cfg block a h)

theorem unlatch_alarmBits (b : BlockState F) : b.unlatch.alarmBits = b.alarmBits &&& ~~~TRIP_MASK := by
  rw [BlockState.unlatch]
  split <;> rfl

theorem unlatch_opState (b : BlockState F) :
    b.unlatch.pcs.opState = if b.pcs.opState = .fault then .standby else b.pcs.opState := by
  rw [BlockState.unlatch]
  split <;> rfl

/-- A block's own part of a reset. -/
theorem tells_unlatch {s : SiteState F} {block : Nat} {b : BlockState F}
    (hb : s.blocks[block]? = some b) :
    Tells s (pcsEvents block b.pcs.opState b.unlatch.pcs.opState
        ++ changes (.block block) b.alarmBits b.unlatch.alarmBits)
      (s.modifyBlock block BlockState.unlatch) where
  bits n bit := by
    rw [List.filterMap_append, pcsEvents_bits, List.nil_append]
    by_cases hn : n = .block block
    · subst hn
      have hold : wordOf s (.block block) = b.alarmBits := by simp [wordOf, hb]
      have hnew : wordOf (s.modifyBlock block BlockState.unlatch) (.block block) =
          b.unlatch.alarmBits := by simp [wordOf, blocks_modifyBlock, hb]
      rw [hold, hnew]
      apply changes_path
      rw [unlatch_alarmBits]
      exact fun i hi => hasBit_unlatch_high _ i hi
    · rw [changes_other_node (Ne.symm hn)]
      cases n with
      | site => exact rfl
      | block j =>
        have hne : block ≠ j := fun e => hn (e ▸ rfl)
        rw [blockWord_modifyBlock s block j (Or.inl hne)]
        exact rfl
      | rack j c r =>
        simp only [wordOf, rack_modifyBlock s block unlatch_containers]
        exact rfl
  ops k := by
    rw [List.filterMap_append, changes_ops, List.append_nil]
    by_cases hk : k = block
    · subst hk
      have hold : opOf s k = b.pcs.opState := by simp [opOf, hb]
      have hnew : opOf (s.modifyBlock k BlockState.unlatch) k = b.unlatch.pcs.opState := by
        simp [opOf, blocks_modifyBlock, hb]
      rw [hold, hnew]
      exact pcsEvents_path k _ _
    · rw [pcsEvents_other (Ne.symm hk), opOf_modifyBlock s block k (Or.inl (Ne.symm hk))]
      exact rfl

theorem resetting_block {s : SiteState F} {p : ResetPass F} (models : Models F)
    (cfg : PlantConfig F) (block : Nat) (h : Resetting s p) :
    Resetting s (resetBlock models cfg p block) := by
  rw [resetBlock]
  cases hb : p.state.blocks[block]? with
  | none => exact h
  | some b =>
    apply resetting_racks
    refine ⟨?_, h.pending, h.log⟩
    have hev : (if b.pcs.opState = .fault then p.events ++ [.pcsStateChanged block .fault .standby]
        else p.events) = p.events ++ pcsEvents block b.pcs.opState b.unlatch.pcs.opState := by
      rw [unlatch_opState]
      by_cases hf : b.pcs.opState = .fault
      · simp [hf, pcsEvents]
      · simp [hf, pcsEvents]
    simp only [hev, pushChanges_eq, List.append_assoc]
    exact h.told.trans (tells_unlatch hb)

variable [Scalar F]

theorem spoke_selfDischargeTo (s : SiteState F) (b c r : Nat) (ppm : UInt32) :
    Spoke s (selfDischargeTo s b c r ppm).2 := by
  rw [selfDischargeTo]
  split
  · exact Spoke.refl s
  · exact Spoke.silent (same_modifyRack s b c r fun _ => rfl) rfl rfl

theorem tells_tripped {s : SiteState F} (h : hasBit s.alarmBits SiteBit.PROTECTION_TRIP = false) :
    Tells s (tripRaised :: s.blocks.zipIdx.flatMap faultEvent) s.tripped := by
  have hraise : Tells s [tripRaised]
      { s with alarmBits := withBit s.alarmBits SiteBit.PROTECTION_TRIP true } := by
    refine ⟨fun n bit => ?_, fun b => rfl⟩
    cases n with
    | site =>
      simp only [wordOf, hasBit_withBit s.alarmBits SiteBit.PROTECTION_TRIP bit true (by decide)]
      by_cases hb : bit = SiteBit.PROTECTION_TRIP
      · subst hb
        simp [tripRaised, bitMove, h]
      · simp [tripRaised, bitMove, hb, Ne.symm hb]
    | block j => simp [tripRaised, bitMove, wordOf]
    | rack j c r => simp [tripRaised, bitMove, wordOf, SiteState.rack?, SiteState.container?]
  have hsame : SamePicture
      { s with
        alarmBits := withBit s.alarmBits SiteBit.PROTECTION_TRIP true
        blocks := s.blocks.map fun b => b.toOpState .fault } s.tripped := by
    refine ⟨fun n => ?_, fun b => rfl⟩
    cases n <;> rfl
  exact (hraise.trans (tells_faults _)).same_right hsame

theorem spoke_tripProtection (s : SiteState F) : Spoke s (tripProtection s).1 := by
  cases ht : hasBit s.alarmBits SiteBit.PROTECTION_TRIP with
  | true =>
    rw [tripProtection]
    rw [if_pos ht]
    exact Spoke.refl s
  | false =>
    rw [tripProtection_eq ht]
    refine ⟨⟨tripRaised :: s.blocks.zipIdx.flatMap faultEvent, ?_,
      (tells_tripped ht).same_right (same_withPending _ _)⟩, rfl⟩
    simp [SiteState.withPending]

theorem resetting_site {s : SiteState F} {p : ResetPass F} (h : Resetting s p) :
    Resetting s (resetSite p) := by
  have hw : Tells p.state (changes .site p.state.alarmBits (p.state.alarmBits &&& ~~~TRIP_MASK))
      { p.state with alarmBits := p.state.alarmBits &&& ~~~TRIP_MASK } := by
    refine tells_word rfl rfl (fun n hn => ?_) (fun _ => rfl) fun i hi => hasBit_unlatch_high _ i hi
    cases n with
    | site => exact absurd rfl hn
    | block j => rfl
    | rack j c r => rfl
  rw [resetSite]
  simp only [pushChanges_eq]
  by_cases ho : p.state.substation.hvBreaker = .opened
  · simp only [ho, if_true]
    refine ⟨(h.told.trans hw).same_right ⟨fun n => ?_, fun _ => rfl⟩, h.pending, h.log⟩
    cases n <;> rfl
  · simp only [ho, if_false]
    exact ⟨h.told.trans hw, h.pending, h.log⟩

theorem resetting_scope {s : SiteState F} {p : ResetPass F} (models : Models F)
    (cfg : PlantConfig F) (scope : ResetScope) (h : Resetting s p) :
    Resetting s (resetScope models cfg p scope) := by
  cases scope with
  | site =>
    have hfold : ∀ (bs : List Nat) (q : ResetPass F), Resetting s q →
        Resetting s (bs.foldl (resetBlock models cfg) q) := by
      intro bs
      induction bs with
      | nil => intro q hq; exact hq
      | cons b bs ih => intro q hq; exact ih _ (resetting_block models cfg b hq)
    exact resetting_site (hfold _ p h)
  | block b => exact resetting_block models cfg b h
  | rack b c r => exact resetting_rack models cfg b (c, r) h

theorem spoke_resetAlarms (models : Models F) (cfg : PlantConfig F) (s : SiteState F)
    (scope : ResetScope) : Spoke s (resetAlarms models cfg s scope).2 := by
  rw [resetAlarms]
  split
  · have hr := resetting_scope models cfg scope
      (show Resetting s ⟨s, [], []⟩ from ⟨Tells.refl s, rfl, rfl⟩)
    exact ⟨⟨_, congrArg (· ++ _) hr.pending, hr.told.same_right (same_withPending _ _)⟩, hr.log⟩
  · exact Spoke.refl s

theorem spoke_dispatch (models : Models F) (cfg : PlantConfig F) (s : SiteState F)
    (action : FaultAction) : Spoke s (dispatch models cfg s action).2 := by
  cases action with
  | hvacFailure b c => exact spoke_setHvacFailed s b c true
  | hvacRepair b c => exact spoke_setHvacFailed s b c false
  | pcsTrip b => exact spoke_tripPcs s b
  | protectionTrip => exact spoke_tripProtection s
  | rackSelfDischarge b c r ppm => exact spoke_selfDischargeTo s b c r ppm
  | rackIsolate b c r => exact spoke_setRackInService s b c r false
  | rackRestore b c r => exact spoke_setRackInService s b c r true
  | blockMaintenanceEnter b => exact spoke_setBlockMode s b .maintenance
  | blockMaintenanceExit b => exact spoke_setBlockMode s b .inService
  | alarmReset scope =>
    rw [dispatch_reset]
    exact spoke_resetAlarms models cfg s scope

theorem insertIdx_length_append {α : Type} (xs ys : List α) (a : α) :
    (xs ++ ys).insertIdx xs.length a = xs ++ a :: ys := by
  induction xs with
  | nil => rfl
  | cons x xs ih => simp [ih]

theorem spoke_applyAction (models : Models F) (cfg : PlantConfig F) (s : SiteState F)
    (action : FaultAction) : Spoke s (applyAction models cfg s action).2 := by
  have hspoke := spoke_dispatch models cfg s action
  rw [applyAction]
  cases hd : dispatch models cfg s action with
  | mk answer after =>
    rw [hd] at hspoke
    cases answer with
    | error e => exact hspoke
    | ok changed =>
      obtain ⟨⟨es, hes, ht⟩, hl⟩ := hspoke
      have hmark : Tells s (.faultApplied action :: es) after := ⟨ht.bits, ht.ops⟩
      have hpend : after.pendingEvents.insertIdx s.pendingEvents.length (.faultApplied action) =
          s.pendingEvents ++ .faultApplied action :: es := by
        rw [show after.pendingEvents = s.pendingEvents ++ es from hes]
        exact insertIdx_length_append _ _ _
      exact ⟨⟨_, hpend, hmark.same_right (same_withPending _ _)⟩, hl⟩

theorem spoke_command (sim : Simulation F) (c : Command F) :
    Spoke sim.state (sim.command c).state := by
  cases c with
  | setHvacFailed b c failed => exact spoke_setHvacFailed sim.state b c failed
  | setRackInService b c r on => exact spoke_setRackInService sim.state b c r on
  | setBlockMode b mode => exact spoke_setBlockMode sim.state b mode
  | tripPcs b => exact spoke_tripPcs sim.state b
  | tripProtection => exact spoke_tripProtection sim.state
  | resetAlarms scope => exact spoke_resetAlarms sim.models sim.cfg sim.state scope
  | apply action => exact spoke_applyAction sim.models sim.cfg sim.state action
  | setExternalSetpointW w =>
    refine Spoke.silent ⟨fun n => ?_, fun b => rfl⟩ rfl rfl
    cases n <;> rfl

end BessReplay
