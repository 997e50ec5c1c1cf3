import BessEmulator.PictureRuns

/-!
# The words, edit by edit and tick by tick

What each edit of the tree does to the word of a node, and what the tick
evaluates it from: the tree it hands out, under the word it found.
-/
namespace BessReplay

open Bess EdgeLog Sweep

variable {F : Type}

theorem words_hvac (s : SiteState F) (b c : Nat) (failed : Bool) (n : AlarmNode) :
    wordOf (s.modifyBlock b fun b => b.modifyContainer c fun c => c.setHvacFailed failed) n =
      wordOf s n := by
  refine SamePicture.words ?_ n
  apply same_modifyBlock
  · exact fun _ => rfl
  · exact fun _ => rfl
  · intro j d r
    rw [rack_modifyContainer]
    unfold SiteState.rack?
    cases s.container? j d with
    | none => rfl
    | some x =>
      simp only [Option.bind_some]
      split <;> rfl

theorem words_blockFault (s : SiteState F) (b : Nat) {f : BlockState F → BlockState F}
    (hf : BlockFault f) (n : AlarmNode) : wordOf (s.modifyBlock b f) n = wordOf s n := by
  cases hf with
  | fault => exact words_toOpState s b .fault n
  | mode mode =>
    refine SamePicture.words ?_ n
    apply same_modifyBlock
    · exact fun _ => rfl
    · exact fun _ => rfl
    · intro j c r
      rw [rack_modifyBlock]
      exact fun _ => rfl

theorem word_unlatchRack (s : SiteState F) (b c r : Nat) (n : AlarmNode) :
    wordOf (s.modifyRack b c r RackState.unlatch) n =
      if n = .rack b c r then wordOf s n &&& ~~~TRIP_MASK else wordOf s n := by
  cases n with
  | site => rfl
  | block j =>
    rw [if_neg (by simp)]
    exact blockWord_modifyBlock s b j (Or.inr fun _ => rfl)
  | rack j d q =>
    simp only [wordOf, rack_modifyRack, AlarmNode.rack.injEq]
    cases s.rack? j d q with
    | none => simp
    | some x =>
      by_cases h : b = j ∧ c = d ∧ r = q
      · obtain ⟨rfl, rfl, rfl⟩ := h
        simp [RackState.unlatch]
      · have h' : ¬(j = b ∧ d = c ∧ q = r) := fun e => h ⟨e.1.symm, e.2.1.symm, e.2.2.symm⟩
        simp [h, h']

theorem word_unlatchBlock (s : SiteState F) (b : Nat) (n : AlarmNode) :
    wordOf (s.modifyBlock b BlockState.unlatch) n =
      if n = .block b then wordOf s n &&& ~~~TRIP_MASK else wordOf s n := by
  cases n with
  | site => rfl
  | rack j c r => simp [wordOf, rack_modifyBlock s b unlatch_containers]
  | block j =>
    simp only [wordOf, blocks_modifyBlock, AlarmNode.block.injEq]
    cases s.blocks[j]? with
    | none => simp
    | some x =>
      by_cases h : b = j
      · subst h
        simp [unlatch_alarmBits]
      · simp [h, Ne.symm h]

variable [Scalar F]

theorem words_rackFault (s : SiteState F) (b c r : Nat) {f : RackState F → RackState F}
    (hf : RackFault f) (n : AlarmNode) : wordOf (s.modifyRack b c r f) n = wordOf s n := by
  refine (same_modifyRack s b c r fun x => ?_).words n
  cases hf with
  | service on => rfl
  | excess ppm => rfl

/-- Faults write no word. -/
theorem word_faults (n : AlarmNode) (Q : BitVec 32 → Prop) :
    KeptByFaults fun s : SiteState F => Q (wordOf s n) where
  rack b c r hf h := by rwa [words_rackFault _ b c r hf]
  hvac b c failed h := by rwa [words_hvac]
  block b hf h := by rwa [words_blockFault _ b hf]
  pending es h := by rwa [(same_withPending _ es).words]

theorem word_tripped (s : SiteState F) (n : AlarmNode) :
    wordOf s.tripped n =
      if n = .site then withBit (wordOf s n) SiteBit.PROTECTION_TRIP true else wordOf s n := by
  cases n with
  | site => rfl
  | block j =>
    simp only [wordOf, SiteState.tripped, List.getElem?_map]
    cases s.blocks[j]? <;> rfl
  | rack j c r =>
    simp only [wordOf, SiteState.rack?, SiteState.container?, SiteState.tripped, List.getElem?_map]
    cases s.blocks[j]? <;> rfl

theorem word_closed (s : SiteState F) (n : AlarmNode) :
    wordOf s.closed n = if n = .site then wordOf s n &&& ~~~TRIP_MASK else wordOf s n := by
  rw [SiteState.closed_eq]
  cases n <;> rfl

theorem word_setpoint (s : SiteState F) (w : Option F) (n : AlarmNode) :
    wordOf (s.withSetpoint w) n = wordOf s n := by
  cases n <;> rfl

omit [Scalar F] in
/-- A reset leaves the warning half of a word alone. -/
theorem warning_reset {w : BitVec 32} {bit : Nat} (hb : bit < 8) :
    hasBit (w &&& ~~~TRIP_MASK) bit = hasBit w bit := by
  rw [hasBit_and_not_trip]
  simp [Nat.not_le.mpr hb]

/-- No command touches a warning. -/
theorem warning_kept (n : AlarmNode) {bit : Nat} (hb : bit < 8) (v : Bool) :
    KeptByEdits fun s : SiteState F => hasBit (wordOf s n) bit = v where
  rack {s f} b c r he h := by
    cases he with
    | service on => rwa [words_rackFault s b c r (.service on)]
    | excess ppm => rwa [words_rackFault s b c r (.excess ppm)]
    | unlatch =>
      rw [word_unlatchRack]
      split
      · rwa [warning_reset hb]
      · exact h
  hvac b c failed h := by rwa [words_hvac]
  block {s f} b he h := by
    cases he with
    | mode mode => rwa [words_blockFault s b (.mode mode)]
    | fault => rwa [words_blockFault s b .fault]
    | unlatch =>
      rw [word_unlatchBlock]
      split
      · rwa [warning_reset hb]
      · exact h
  tripped {s} h := by
    rw [word_tripped]
    split
    · rwa [hasBit_withBit_ne _ _ (by simp [SiteBit.PROTECTION_TRIP]; omega)]
    · exact h
  closed h := by
    rw [word_closed]
    split
    · rwa [warning_reset hb]
    · exact h
  setpoint w h := by rwa [word_setpoint]
  pending es h := by rwa [(same_withPending _ es).words]

/-- What no edit of a rack changes, no command changes at any address. -/
theorem rackMap_kept {γ : Type} (g : RackState F → γ)
    (hg : ∀ f : RackState F → RackState F, RackEdit f → ∀ r, g (f r) = g r) (b c r : Nat)
    (v : Option γ) : KeptByEdits fun s : SiteState F => (s.rack? b c r).map g = v where
  rack {s f} i j k he h := by
    rw [rack_modifyRack, Option.map_map, ← h]
    congr 1
    funext x
    rw [Function.comp_apply]
    split
    · exact hg f he x
    · rfl
  hvac {s} i j failed h := by
    rw [rack_modifyContainer, ← h]
    unfold SiteState.rack?
    congr 2
    funext x
    split <;> rfl
  block {s f} i he h := by rwa [rack_modifyBlock s i he.containers]
  tripped {s} h := by
    rw [← h]
    unfold SiteState.rack? SiteState.container? SiteState.tripped
    rw [List.getElem?_map]
    cases s.blocks[b]? <;> rfl
  closed h := by rwa [SiteState.closed_eq]
  setpoint w h := h
  pending es h := h

/-- At every address the tick leaves the rack's word to the last step, which
evaluates it from the rack handed out. -/
theorem rack_tick_map (pl : Plant F) (s : SiteState F) (inputs : Inputs F) (b c r : Nat) :
    ∃ x₁ : Option (RackState F),
      x₁.map RackState.alarmBits = (s.rack? b c r).map RackState.alarmBits ∧
        (pl.siteTick s inputs).rack? b c r = x₁.map (wordRack pl.models pl.cfg) := by
  simp only [SiteState.rack?, SiteState.container?, nextBlock_at]
  cases s.blocks[b]? with
  | none => exact ⟨none, rfl, rfl⟩
  | some blk =>
    simp only [Option.map_some, Option.bind_some, Plant.nextBlock, blockTick_containers,
      List.getElem?_map]
    cases blk.containers[c]? with
    | none => exact ⟨none, rfl, rfl⟩
    | some con =>
      refine ⟨(thermalTick (pl.ctx s inputs)
        (perRackOf (pl.ctx s inputs) (pl.inSet s inputs (blk, b)) blk) con).1.racks[r]?, ?_, ?_⟩
      · rw [Option.bind_some, ← List.getElem?_map, thermalTick_alarmBits, List.getElem?_map]
      · simp only [Option.map_some, Option.bind_some, containerTick, List.getElem?_map]
        rfl

/-- A rack word comes from the rack handed out and the word before. -/
theorem rack_tick (pl : Plant F) (s : SiteState F) (inputs : Inputs F) {b c r : Nat}
    {x : RackState F} (h : (pl.siteTick s inputs).rack? b c r = some x) :
    ∃ x₀, s.rack? b c r = some x₀ ∧
      x.alarmBits = pl.models.bms.rackAlarms { x with alarmBits := x₀.alarmBits } pl.cfg.rack := by
  obtain ⟨x₁, hword, hnew⟩ := rack_tick_map pl s inputs b c r
  obtain ⟨y, rfl, rfl⟩ := Option.map_eq_some_iff.mp (hnew.symm.trans h)
  obtain ⟨x₀, hx₀, heq⟩ := Option.map_eq_some_iff.mp hword.symm
  exact ⟨x₀, hx₀, by rw [heq]; rfl⟩

/-- A tick keeps every address. -/
theorem rack_tick_isSome (pl : Plant F) (s : SiteState F) (inputs : Inputs F) (b c r : Nat) :
    ((pl.siteTick s inputs).rack? b c r).isSome = (s.rack? b c r).isSome := by
  obtain ⟨x₁, hword, hnew⟩ := rack_tick_map pl s inputs b c r
  rw [hnew, Option.isSome_map, ← Option.isSome_map, hword, Option.isSome_map]

/-- A block's word and miss timer, from the block handed out and those before. -/
theorem block_tick (pl : Plant F) (s : SiteState F) (inputs : Inputs F) {k : Nat} {b : BlockState F}
    (h : (pl.siteTick s inputs).blocks[k]? = some b) :
    ∃ b₀, s.blocks[k]? = some b₀ ∧
      b.alarmBits =
        (evaluateBlock { b with alarmBits := b₀.alarmBits, setpointMissS := b₀.setpointMissS }
          pl.cfg pl.thresholds tickS).1 ∧
      b.setpointMissS =
        (evaluateBlock { b with alarmBits := b₀.alarmBits, setpointMissS := b₀.setpointMissS }
          pl.cfg pl.thresholds tickS).2 := by
  rw [nextBlock_at] at h
  obtain ⟨b₀, hb₀, rfl⟩ := Option.map_eq_some_iff.mp h
  exact ⟨b₀, hb₀, rfl, rfl⟩

theorem site_tick (pl : Plant F) (s : SiteState F) (inputs : Inputs F) :
    (pl.siteTick s inputs).alarmBits =
      evaluateSite { pl.siteTick s inputs with alarmBits := s.alarmBits } pl.cfg pl.thresholds :=
  rfl

end BessReplay
