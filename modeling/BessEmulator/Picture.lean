import BessEmulator.EdgeLog
import BessEmulator.Runs

/-!
# The alarm picture from the log

Every word and every PCS state is a register, every event at most one move of
one register. Each thing that can happen to a plant reports exactly the moves
it made, in order, so the log replayed from a dark site is the picture.
-/
namespace BessReplay

open Bess EdgeLog Sweep

variable {F : Type}

/-- What one event says of one bit. -/
def bitMove (node : AlarmNode) (bit : Nat) : Event → Option (Bool × Bool)
  | .alarmRaised n b _ => if n = node ∧ b = bit then some (false, true) else none
  | .alarmCleared n b _ => if n = node ∧ b = bit then some (true, false) else none
  | .pcsStateChanged .. => none
  | .faultApplied _ => none

/-- What one event says of one block's PCS. -/
def opMove (block : Nat) : Event → Option (PcsOpState × PcsOpState)
  | .pcsStateChanged b old new => if b = block then some (old, new) else none
  | .alarmRaised .. => none
  | .alarmCleared .. => none
  | .faultApplied _ => none

/-- The word of a node; a node the site does not have is dark. -/
def wordOf (s : SiteState F) : AlarmNode → BitVec 32
  | .site => s.alarmBits
  | .block b => (s.blocks[b]?.map BlockState.alarmBits).getD 0#32
  | .rack b c r => ((s.rack? b c r).map RackState.alarmBits).getD 0#32

def opOf (s : SiteState F) (block : Nat) : PcsOpState :=
  (s.blocks[block]?.map fun b => b.pcs.opState).getD .standby

/-- Two trees showing the same words and the same PCS states. -/
structure SamePicture (s s' : SiteState F) : Prop where
  words : ∀ n, wordOf s' n = wordOf s n
  ops : ∀ b, opOf s' b = opOf s b

/-- The events tell, register by register, how `s` became `s'`. -/
structure Tells (s : SiteState F) (es : List Event) (s' : SiteState F) : Prop where
  bits : ∀ node bit, Path (hasBit (wordOf s node) bit) (es.filterMap (bitMove node bit))
    (hasBit (wordOf s' node) bit)
  ops : ∀ block, Path (opOf s block) (es.filterMap (opMove block)) (opOf s' block)

theorem Tells.refl (s : SiteState F) : Tells s [] s := ⟨fun _ _ => rfl, fun _ => rfl⟩

theorem Tells.trans {s s' s'' : SiteState F} {es es' : List Event} (h : Tells s es s')
    (h' : Tells s' es' s'') : Tells s (es ++ es') s'' where
  bits node bit := by
    rw [List.filterMap_append]
    exact (h.bits node bit).trans (h'.bits node bit)
  ops block := by
    rw [List.filterMap_append]
    exact (h.ops block).trans (h'.ops block)

theorem Tells.of_same {s s' : SiteState F} (h : SamePicture s s') : Tells s [] s' where
  bits node bit := by rw [h.words node]; exact rfl
  ops block := by rw [h.ops block]; exact rfl

/-- What follows without a word changes nothing that was told. -/
theorem Tells.same_right {s s' s'' : SiteState F} {es : List Event} (h : Tells s es s')
    (h' : SamePicture s' s'') : Tells s es s'' := by
  have ht := h.trans (Tells.of_same h')
  rwa [List.append_nil] at ht

theorem changeOf_bitMove_other (node : AlarmNode) (bit : Nat) (old new : BitVec 32) (i : Nat)
    (hi : i ≠ bit) : (changeOf node old new i).bind (bitMove node bit) = none := by
  rw [changeOf]
  split
  · split <;> simp [bitMove, hi]
  · rfl

/-- A word's changes are the path of each of its bits. -/
theorem changes_path (node : AlarmNode) (old new : BitVec 32) (bit : Nat)
    (hhigh : ∀ i, 16 ≤ i → hasBit old i = hasBit new i) :
    Path (hasBit old bit) ((changes node old new).filterMap (bitMove node bit))
      (hasBit new bit) := by
  rw [changes, List.filterMap_filterMap,
    filterMap_range_single (changeOf_bitMove_other node bit old new)]
  by_cases hlt : bit < 16
  · rw [if_pos hlt]
    rw [changeOf]
    rw [hasBit_xor]
    cases ho : hasBit old bit with
    | true => cases hn : hasBit new bit with
      | true => simp
      | false => simp [bitMove]
    | false => cases hn : hasBit new bit with
      | true => simp [bitMove]
      | false => simp
  · rw [if_neg hlt]
    exact hhigh bit (by omega)

theorem changeOf_node {node : AlarmNode} {old new : BitVec 32} {i : Nat} {e : Event}
    (h : changeOf node old new i = some e) :
    (∃ sev, e = .alarmRaised node i sev) ∨ (∃ sev, e = .alarmCleared node i sev) := by
  rw [changeOf] at h
  split at h
  · split at h
    · exact Or.inl ⟨_, (Option.some.inj h).symm⟩
    · exact Or.inr ⟨_, (Option.some.inj h).symm⟩
  · cases h

/-- What reads no edge of a node reads nothing of its changes. -/
theorem changes_unread {β : Type} {read : Event → Option β} {node : AlarmNode}
    (hraised : ∀ i sev, read (.alarmRaised node i sev) = none)
    (hcleared : ∀ i sev, read (.alarmCleared node i sev) = none) (old new : BitVec 32) :
    (changes node old new).filterMap read = [] := by
  rw [List.filterMap_eq_nil_iff]
  intro e he
  obtain ⟨i, _, hi⟩ := List.mem_filterMap.mp he
  rcases changeOf_node hi with ⟨sev, rfl⟩ | ⟨sev, rfl⟩
  · exact hraised i sev
  · exact hcleared i sev

theorem changes_other_node {node node' : AlarmNode} (h : node ≠ node') (old new : BitVec 32)
    (bit : Nat) : (changes node old new).filterMap (bitMove node' bit) = [] := by
  apply changes_unread
  · intro i sev
    simp [bitMove, h]
  · intro i sev
    simp [bitMove, h]

theorem changes_ops (node : AlarmNode) (old new : BitVec 32) (block : Nat) :
    (changes node old new).filterMap (opMove block) = [] := by
  apply changes_unread
  · intro i sev
    rfl
  · intro i sev
    rfl

theorem pcsEvents_bits (block : Nat) (old new : PcsOpState) (node : AlarmNode) (bit : Nat) :
    (pcsEvents block old new).filterMap (bitMove node bit) = [] := by
  rw [pcsEvents]
  split <;> rfl

theorem pcsEvents_path (block : Nat) (old new : PcsOpState) :
    Path old ((pcsEvents block old new).filterMap (opMove block)) new := by
  rw [pcsEvents]
  by_cases h : new = old
  · rw [if_neg (not_not.mpr h), h]
    exact rfl
  · simp [h, opMove]

theorem pcsEvents_other {block block' : Nat} (h : block ≠ block') (old new : PcsOpState) :
    (pcsEvents block old new).filterMap (opMove block') = [] := by
  rw [pcsEvents]
  split
  · simp [opMove, h]
  · rfl

/-- One word moved and was reported. -/
theorem tells_word {s s' : SiteState F} {node : AlarmNode} {old new : BitVec 32}
    (hold : wordOf s node = old) (hnew : wordOf s' node = new)
    (hw : ∀ n, n ≠ node → wordOf s' n = wordOf s n) (hop : ∀ b, opOf s' b = opOf s b)
    (hhigh : ∀ i, 16 ≤ i → hasBit old i = hasBit new i) : Tells s (changes node old new) s' where
  bits n bit := by
    by_cases hn : n = node
    · subst hn
      rw [hold, hnew]
      exact changes_path n old new bit hhigh
    · rw [changes_other_node (Ne.symm hn), hw n hn]
      exact rfl
  ops b := by
    rw [changes_ops, hop b]
    exact rfl

/-- One PCS moved and was reported. -/
theorem tells_op {s s' : SiteState F} {block : Nat} {old new : PcsOpState}
    (hold : opOf s block = old) (hnew : opOf s' block = new)
    (hw : ∀ n, wordOf s' n = wordOf s n) (hop : ∀ b, b ≠ block → opOf s' b = opOf s b) :
    Tells s (pcsEvents block old new) s' where
  bits n bit := by
    rw [pcsEvents_bits, hw n]
    exact rfl
  ops b := by
    by_cases hb : b = block
    · subst hb
      rw [hold, hnew]
      exact pcsEvents_path b old new
    · rw [pcsEvents_other (Ne.symm hb), hop b hb]
      exact rfl

theorem blocks_modifyBlock (s : SiteState F) (i j : Nat) (f : BlockState F → BlockState F) :
    (s.modifyBlock i f).blocks[j]? = s.blocks[j]?.map fun b => if i = j then f b else b := by
  rw [SiteState.modifyBlock, List.getElem?_modify]
  rfl

theorem opOf_modifyBlock (s : SiteState F) (i j : Nat) {f : BlockState F → BlockState F}
    (h : i ≠ j ∨ ∀ b, (f b).pcs.opState = b.pcs.opState) :
    opOf (s.modifyBlock i f) j = opOf s j := by
  simp only [opOf]
  rw [blocks_modifyBlock]
  cases s.blocks[j]? with
  | none => rfl
  | some b =>
    rcases h with h | h
    · simp [h]
    · by_cases he : i = j
      · simp [he, h]
      · simp [he]

theorem blockWord_modifyBlock (s : SiteState F) (i j : Nat) {f : BlockState F → BlockState F}
    (h : i ≠ j ∨ ∀ b, (f b).alarmBits = b.alarmBits) :
    wordOf (s.modifyBlock i f) (.block j) = wordOf s (.block j) := by
  simp only [wordOf]
  rw [blocks_modifyBlock]
  cases s.blocks[j]? with
  | none => rfl
  | some b =>
    rcases h with h | h
    · simp [h]
    · by_cases he : i = j
      · simp [he, h]
      · simp [he]

theorem rack_modifyBlock (s : SiteState F) (i : Nat) {f : BlockState F → BlockState F}
    (h : ∀ b, (f b).containers = b.containers) (j c r : Nat) :
    (s.modifyBlock i f).rack? j c r = s.rack? j c r := by
  unfold SiteState.rack? SiteState.container?
  rw [blocks_modifyBlock]
  cases s.blocks[j]? with
  | none => rfl
  | some b =>
    by_cases he : i = j
    · simp [he, h]
    · simp [he]

/-- Editing a container leaves every rack but what the edit does to it. -/
theorem rack_modifyContainer (s : SiteState F) (b c : Nat) (f : ContainerState F → ContainerState F)
    (j d r : Nat) :
    (s.modifyBlock b fun b => b.modifyContainer c f).rack? j d r =
      (s.container? j d).bind fun x => (if b = j ∧ c = d then f x else x).racks[r]? := by
  unfold SiteState.rack? SiteState.container?
  rw [blocks_modifyBlock]
  cases s.blocks[j]? with
  | none => rfl
  | some blk =>
    by_cases hb : b = j
    · simp only [Option.map_some, Option.bind_some, BlockState.modifyContainer, hb,
        List.getElem?_modify, true_and, if_true]
      cases blk.containers[d]? with
      | none => rfl
      | some x => rfl
    · simp [hb]

theorem rack_modifyRack (s : SiteState F) (b c r : Nat) (f : RackState F → RackState F)
    (j d q : Nat) :
    (s.modifyRack b c r f).rack? j d q =
      (s.rack? j d q).map fun x => if b = j ∧ c = d ∧ r = q then f x else x := by
  rw [SiteState.modifyRack, rack_modifyContainer]
  unfold SiteState.rack?
  cases s.container? j d with
  | none => rfl
  | some x =>
    by_cases h : b = j ∧ c = d
    · obtain ⟨rfl, rfl⟩ := h
      simp only [Option.bind_some, and_self, if_true, true_and, ContainerState.modifyRack,
        List.getElem?_modify]
      rfl
    · have h' : ¬(b = j ∧ c = d ∧ r = q) := fun e => h ⟨e.1, e.2.1⟩
      simp only [Option.bind_some, if_neg h, if_neg h', Option.map_id']

/-- An edit of one block that keeps its word, its PCS and its racks' words. -/
theorem same_modifyBlock (s : SiteState F) (i : Nat) {f : BlockState F → BlockState F}
    (hword : ∀ b, (f b).alarmBits = b.alarmBits) (hop : ∀ b, (f b).pcs.opState = b.pcs.opState)
    (hrack : ∀ j c r, ((s.modifyBlock i f).rack? j c r).map RackState.alarmBits =
      (s.rack? j c r).map RackState.alarmBits) : SamePicture s (s.modifyBlock i f) where
  words n := by
    cases n with
    | site => rfl
    | block j => exact blockWord_modifyBlock s i j (Or.inr hword)
    | rack j c r => simp only [wordOf, hrack]
  ops b := opOf_modifyBlock s i b (Or.inr hop)

theorem same_modifyRack (s : SiteState F) (b c r : Nat) {f : RackState F → RackState F}
    (h : ∀ x, (f x).alarmBits = x.alarmBits) : SamePicture s (s.modifyRack b c r f) := by
  apply same_modifyBlock
  · intro b; rfl
  · intro b; rfl
  · intro j d q
    have hr := rack_modifyRack s b c r f j d q
    rw [SiteState.modifyRack] at hr
    rw [hr]
    cases s.rack? j d q with
    | none => rfl
    | some x =>
      simp only [Option.map_some, Option.some.injEq]
      split
      · exact h x
      · rfl

end BessReplay
