import BessEmulator.Ledger

/-!
# The dispatched set

Four places of a tick ask which blocks take part: the divisor of the target,
the setpoints, the availability, the site word. They ask at three moments, on
three versions of the tree. Nothing between the first and the last moves a
block in or out, so all four read one set, and the words that mirror a state
are evaluated after the state has moved.
-/
namespace BessDispatch

open Bess BessTrip BessLedger

section

variable {F : Type} [Scalar F]

/-- Whether a numbered block takes part, as the tree stands. -/
def member (s : SiteState F) (b : BlockState F × Nat) : Bool :=
  dispatchable b.1 b.2 s.ems (connectedOf s)

/-- The numbers of the blocks that take part. -/
def members (s : SiteState F) : List Nat := (s.blocks.zipIdx.filter (member s)).map Prod.snd

omit [Scalar F] in
theorem mem_members {s : SiteState F} {b : BlockState F} {k : Nat} (h : s.blocks[k]? = some b) :
    k ∈ members s ↔ member s (b, k) = true := by
  simp only [members, List.mem_map, List.mem_filter]
  constructor
  · rintro ⟨⟨b', k'⟩, ⟨hb', hm⟩, rfl⟩
    have hb'' : s.blocks[k']? = some b' := List.mem_zipIdx_iff_getElem?.mp hb'
    rw [h] at hb''
    cases hb''
    exact hm
  · intro hm
    exact ⟨(b, k), ⟨List.mem_zipIdx_iff_getElem?.mpr h, hm⟩, rfl⟩

/-- The blocks the kernel counts in the divisor of the target. -/
def divided (pl : Plant F) (s : SiteState F) (inputs : Inputs F) : List Nat :=
  (s.blocks.zipIdx.filter (pl.inSet s inputs)).map Prod.snd

end

section

variable {cfg : PlantConfig ℝ} {ems : EmsStrategy ℝ} (s : SiteState ℝ) (inputs : Inputs ℝ)

/-- The numbered blocks after a tick are those before it, each stepped. -/
theorem tick_zipIdx (pl : Plant ℝ) :
    (pl.siteTick s inputs).blocks.zipIdx =
      s.blocks.zipIdx.map fun b => (pl.nextBlock s inputs b, b.2) := by
  rw [siteTick_blocks]
  apply List.ext_getElem?
  intro i
  simp only [List.getElem?_zipIdx, List.getElem?_map, Nat.zero_add]
  cases s.blocks[i]? with
  | none => rfl
  | some b => rfl

/-- A conversion never makes a fault and never clears one. -/
theorem opStateAfter_fault (op : PcsOpState) (p : ℝ) : opStateAfter op p = .fault ↔ op = .fault := by
  rw [opStateAfter]
  cases op with
  | fault => simp
  | standby => simp only [ne_eq, reduceCtorEq, not_false_eq_true, if_true]; split <;> simp
  | run => simp only [ne_eq, reduceCtorEq, not_false_eq_true, if_true]; split <;> simp

theorem tick_opState (inSet : Bool) (b : BlockState ℝ) :
    (blockTick ((gw01Plant cfg ems).ctx s inputs) inSet b).pcs.opState = .fault ↔
      b.pcs.opState = .fault := by
  rw [blockTick_pcs]
  exact opStateAfter_fault b.pcs.opState _

/-- Release has moved before the first block asks; mode, fault and breaker do not move. -/
theorem tick_member (b : BlockState ℝ × Nat) :
    member ((gw01Plant cfg ems).siteTick s inputs)
        ((gw01Plant cfg ems).nextBlock s inputs b, b.2) =
      (gw01Plant cfg ems).inSet s inputs b := by
  have hconn : connectedOf ((gw01Plant cfg ems).siteTick s inputs) = connectedOf s := by
    rw [connectedOf, tick_breaker]
    rfl
  have hop : decide (((gw01Plant cfg ems).nextBlock s inputs b).pcs.opState ≠ .fault) =
      decide (b.1.pcs.opState ≠ .fault) :=
    decide_eq_decide.mpr (not_congr (tick_opState s inputs _ b.1))
  have hmode : ((gw01Plant cfg ems).nextBlock s inputs b).mode = b.1.mode := rfl
  rw [member, dispatchable, siteTick_blocksReleased, hconn, hop, hmode]
  rfl

theorem tick_members :
    members ((gw01Plant cfg ems).siteTick s inputs) = divided (gw01Plant cfg ems) s inputs := by
  have hcomp : (member ((gw01Plant cfg ems).siteTick s inputs) ∘ fun b =>
      ((gw01Plant cfg ems).nextBlock s inputs b, b.2)) = (gw01Plant cfg ems).inSet s inputs :=
    funext fun b => tick_member s inputs b
  rw [members, tick_zipIdx, List.filter_map, hcomp, List.map_map]
  rfl

/-- What the tick decided about a block is what the set after it says. -/
theorem mem_tick_members (cfg : PlantConfig ℝ) (ems : EmsStrategy ℝ) (s : SiteState ℝ)
    (inputs : Inputs ℝ) {b : BlockState ℝ} {k : Nat} (h : s.blocks[k]? = some b) :
    k ∈ members ((gw01Plant cfg ems).siteTick s inputs) ↔
      (gw01Plant cfg ems).inSet s inputs (b, k) = true := by
  rw [← tick_member s inputs (b, k)]
  apply mem_members
  rw [siteTick_blocks, List.getElem?_map, List.getElem?_zipIdx, h]
  simp

end

/-- A step's work, with the one set its four readers agree on. -/
structure AskedIsReported (pl : Plant ℝ) (s : SiteState ℝ) (inputs : Inputs ℝ) (s' : SiteState ℝ) :
    Prop where
  divisor : divided pl s inputs = members s'
  target : s'.ems.siteSetpointW =
    Scalar.clamp (rawTargetW pl.models (openTick s inputs)) (-pl.cfg.grid.siteRatedW) pl.cfg.grid.siteRatedW
  asked : ∀ k b, s'.blocks[k]? = some b →
    b.pcs.pAcSetpointW =
      if k ∈ members s' then s'.ems.siteSetpointW / ((members s').length : ℝ) else 0
  total : (s'.blocks.map fun b => b.pcs.pAcSetpointW).sum =
    if members s' = [] then 0 else s'.ems.siteSetpointW
  availableDischarge : s'.ems.availableDischargeW =
    (s.blocks.zipIdx.map fun b =>
      if b.2 ∈ members s' then
        (pl.models.pcs.acCapabilityW (blockLimits (pl.ctx s inputs) b.1)).maxDischargeW
      else 0).sum
  availableCharge : s'.ems.availableChargeW =
    (s.blocks.zipIdx.map fun b =>
      if b.2 ∈ members s' then
        (pl.models.pcs.acCapabilityW (blockLimits (pl.ctx s inputs) b.1)).maxChargeW
      else 0).sum
  partialAvailability : hasBit s'.alarmBits SiteBit.PARTIAL_AVAILABILITY = true ↔
    (∃ k, k < s'.blocks.length ∧ k ∉ members s') ∨ ∃ r ∈ s'.racks, r.inService = false

/-- The words that mirror a state, after a step. -/
structure Mirrored (s : SiteState ℝ) : Prop where
  pcsFault : ∀ b ∈ s.blocks,
    (hasBit b.alarmBits BlockBit.PCS_FAULT = true ↔ b.pcs.opState = .fault)
  maintenance : ∀ b ∈ s.blocks,
    (hasBit b.alarmBits BlockBit.MAINTENANCE = true ↔ b.mode = .maintenance)
  hvacFailure : ∀ b ∈ s.blocks,
    (hasBit b.alarmBits BlockBit.HVAC_FAILURE = true ↔ ∃ c ∈ b.containers, c.hvac.failed = true)
  breakerOpen :
    hasBit s.alarmBits SiteBit.HV_BREAKER_OPEN = true ↔ s.substation.hvBreaker = .opened

section

variable {cfg : PlantConfig ℝ} {ems : EmsStrategy ℝ} (s : SiteState ℝ) (inputs : Inputs ℝ)

theorem tick_target (pl : Plant ℝ) :
    (pl.siteTick s inputs).ems.siteSetpointW = pl.targetW s inputs := by
  have hems : (pl.siteTick s inputs).ems.siteSetpointW = (pl.emsTick s inputs).siteSetpointW := rfl
  rw [hems, Plant.emsTick]
  split
  · exact (release_rest _ _ _ _).2.2
  · rfl

theorem shareW_eq (pl : Plant ℝ) :
    (pl.ctx s inputs).shareW =
      if divided pl s inputs = [] then 0
      else pl.targetW s inputs / ((divided pl s inputs).length : ℝ) := by
  have hlen : (divided pl s inputs).length =
      (s.blocks.zipIdx.filter fun p =>
        dispatchable p.1 p.2 (pl.emsTick s inputs) (connectedOf s)).length := by
    rw [divided, List.length_map]
    rfl
  have hshare : (pl.ctx s inputs).shareW =
      shareW s.blocks (pl.emsTick s inputs) (connectedOf s) (pl.targetW s inputs) := rfl
  rw [hshare, shareW]
  simp only [← hlen, List.length_eq_zero_iff]

/-- A block's setpoint is the share or nothing. -/
theorem tick_setpoint (b : BlockState ℝ × Nat) :
    ((gw01Plant cfg ems).nextBlock s inputs b).pcs.pAcSetpointW =
      if (gw01Plant cfg ems).inSet s inputs b then ((gw01Plant cfg ems).ctx s inputs).shareW
      else 0 := rfl

/-- Adding one amount for every member gives the amount as often as there are members. -/
theorem sum_members {α : Type} (p : α → Bool) (w : ℝ) (xs : List α) :
    (xs.map fun x => if p x then w else 0).sum = ((xs.filter p).length : ℝ) * w := by
  induction xs with
  | nil => simp
  | cons x xs ih =>
    rw [List.map_cons, List.sum_cons, ih]
    cases hp : p x with
    | true =>
      rw [List.filter_cons_of_pos hp, List.length_cons]
      push_cast
      simp only [if_true]
      ring
    | false =>
      rw [List.filter_cons_of_neg (by simp [hp])]
      simp

theorem tick_total :
    (((gw01Plant cfg ems).siteTick s inputs).blocks.map fun b => b.pcs.pAcSetpointW).sum =
      if divided (gw01Plant cfg ems) s inputs = [] then 0
      else (gw01Plant cfg ems).targetW s inputs := by
  have hset : (s.blocks.zipIdx.map ((gw01Plant cfg ems).nextBlock s inputs)).map
        (fun b => b.pcs.pAcSetpointW) =
      s.blocks.zipIdx.map fun b =>
        if (gw01Plant cfg ems).inSet s inputs b then ((gw01Plant cfg ems).ctx s inputs).shareW
        else 0 := by
    rw [List.map_map]
    rfl
  rw [siteTick_blocks, hset, sum_members, shareW_eq]
  have hlen : (s.blocks.zipIdx.filter ((gw01Plant cfg ems).inSet s inputs)).length =
      (divided (gw01Plant cfg ems) s inputs).length := by
    rw [divided, List.length_map]
  rw [hlen]
  split
  · rw [mul_zero]
  · rename_i hne
    have hpos : ((divided (gw01Plant cfg ems) s inputs).length : ℝ) ≠ 0 := by
      rw [Nat.cast_ne_zero]
      exact fun h => hne (List.length_eq_zero_iff.mp h)
    rw [mul_div_cancel₀ _ hpos]

/-- Limits add up side by side. -/
theorem limits_foldl {α : Type} (f : α → PowerLimits ℝ) (acc : PowerLimits ℝ) (xs : List α) :
    (xs.foldl (fun a x => a.add (f x)) acc).maxDischargeW =
        acc.maxDischargeW + (xs.map fun x => (f x).maxDischargeW).sum ∧
      (xs.foldl (fun a x => a.add (f x)) acc).maxChargeW =
        acc.maxChargeW + (xs.map fun x => (f x).maxChargeW).sum := by
  induction xs generalizing acc with
  | nil => simp
  | cons x xs ih =>
    obtain ⟨hd, hc⟩ := ih (acc.add (f x))
    rw [List.foldl_cons, hd, hc]
    simp only [PowerLimits.add, List.map_cons, List.sum_cons]
    constructor
    · ring
    · ring

/-- The limits a block of the tick adds to the availability. -/
theorem outcome_capability (pl : Plant ℝ) (b : BlockState ℝ × Nat) :
    (pl.outcome s inputs b).acCapability =
      if pl.inSet s inputs b then
        pl.models.pcs.acCapabilityW (blockLimits (pl.ctx s inputs) b.1)
      else PowerLimits.zero := rfl

/-- One side of the availability, summed over the blocks of the set. -/
theorem tick_available (side : PowerLimits ℝ → ℝ) (hzero : side PowerLimits.zero = 0) :
    (s.blocks.zipIdx.map fun b =>
        side ((gw01Plant cfg ems).outcome s inputs b).acCapability).sum =
      (s.blocks.zipIdx.map fun b =>
        if b.2 ∈ members ((gw01Plant cfg ems).siteTick s inputs) then
          side ((gw01Plant cfg ems).models.pcs.acCapabilityW
            (blockLimits ((gw01Plant cfg ems).ctx s inputs) b.1))
        else 0).sum := by
  apply sum_congr
  intro b hb
  have hmem := mem_tick_members cfg ems s inputs
    (List.mem_zipIdx_iff_getElem?.mp hb)
  rw [outcome_capability]
  by_cases hin : (gw01Plant cfg ems).inSet s inputs b = true
  · rw [if_pos hin, if_pos (hmem.mpr hin)]
  · rw [if_neg hin, if_neg fun h => hin (hmem.mp h), hzero]

/-- The site word asks last, of the tree as it is handed out. -/
theorem siteWord_unavailable :
    hasBit ((gw01Plant cfg ems).siteTick s inputs).alarmBits SiteBit.PARTIAL_AVAILABILITY = true ↔
      (∃ b ∈ ((gw01Plant cfg ems).siteTick s inputs).blocks.zipIdx,
        member ((gw01Plant cfg ems).siteTick s inputs) b = false) ∨
      ∃ r ∈ ((gw01Plant cfg ems).siteTick s inputs).racks, r.inService = false := by
  have hconn : (!decide (((gw01Plant cfg ems).settledSite s inputs).substation.hvBreaker = .opened)) =
      connectedOf ((gw01Plant cfg ems).siteTick s inputs) := by
    have hsub : ((gw01Plant cfg ems).siteTick s inputs).substation =
        ((gw01Plant cfg ems).settledSite s inputs).substation := rfl
    rw [connectedOf, hsub]
    cases ((gw01Plant cfg ems).settledSite s inputs).substation.hvBreaker with
    | opened => rfl
    | closed => rfl
  have hword : ((gw01Plant cfg ems).siteTick s inputs).alarmBits =
      evaluateSite ((gw01Plant cfg ems).settledSite s inputs) cfg
        (gw01Plant cfg ems).thresholds := rfl
  rw [hword, evaluateSite, hasBit_withBit_ne _ _ (by decide), hasBit_withBit_self _ _ _ (by decide),
    hconn]
  simp only [Bool.or_eq_true, List.any_eq_true, Bool.not_eq_true']
  rfl

theorem tick_unavailable :
    hasBit ((gw01Plant cfg ems).siteTick s inputs).alarmBits SiteBit.PARTIAL_AVAILABILITY = true ↔
      (∃ k, k < ((gw01Plant cfg ems).siteTick s inputs).blocks.length ∧
        k ∉ members ((gw01Plant cfg ems).siteTick s inputs)) ∨
      ∃ r ∈ ((gw01Plant cfg ems).siteTick s inputs).racks, r.inService = false := by
  rw [siteWord_unavailable]
  apply or_congr_left
  constructor
  · rintro ⟨⟨b, k⟩, hb, hm⟩
    have hget := List.mem_zipIdx_iff_getElem?.mp hb
    refine ⟨k, (List.getElem?_eq_some_iff.mp hget).1, fun hk => ?_⟩
    rw [mem_members hget, hm] at hk
    cases hk
  · rintro ⟨k, hlt, hk⟩
    have hget := List.getElem?_eq_getElem hlt
    refine ⟨(_, k), List.mem_zipIdx_iff_getElem?.mpr hget, ?_⟩
    rw [mem_members hget] at hk
    exact Bool.eq_false_iff.mpr hk

theorem askedIsReported_tick :
    AskedIsReported (gw01Plant cfg ems) s inputs ((gw01Plant cfg ems).siteTick s inputs) where
  divisor := (tick_members s inputs).symm
  target := tick_target s inputs _
  asked := by
    intro k b hb
    rw [siteTick_blocks, List.getElem?_map, List.getElem?_zipIdx, Nat.zero_add] at hb
    cases hget : s.blocks[k]? with
    | none => rw [hget] at hb; cases hb
    | some b₀ =>
      rw [hget] at hb
      cases hb
      have hmem := mem_tick_members cfg ems s inputs hget
      rw [tick_setpoint]
      by_cases hin : (gw01Plant cfg ems).inSet s inputs (b₀, k) = true
      · have hk := hmem.mpr hin
        rw [if_pos hin, if_pos hk, shareW_eq, ← tick_members, if_neg (List.ne_nil_of_mem hk),
          tick_target]
      · rw [if_neg hin, if_neg fun h => hin (hmem.mp h)]
  total := by
    rw [tick_total, tick_members, tick_target]
  availableDischarge := by
    rw [(siteTick_available _ s inputs).1, Plant.availOf, (limits_foldl _ _ _).1,
      ← tick_available s inputs PowerLimits.maxDischargeW rfl]
    exact zero_add _
  availableCharge := by
    rw [(siteTick_available _ s inputs).2, Plant.availOf, (limits_foldl _ _ _).2,
      ← tick_available s inputs PowerLimits.maxChargeW rfl]
    exact zero_add _
  partialAvailability := tick_unavailable s inputs

/-- The block word is evaluated after the block has converted. -/
theorem blockTick_mirrors (ctx : TickContext ℝ) (inSet : Bool) (b : BlockState ℝ) :
    hasBit (blockTick ctx inSet b).alarmBits BlockBit.PCS_FAULT =
        decide ((blockTick ctx inSet b).pcs.opState = .fault) ∧
      hasBit (blockTick ctx inSet b).alarmBits BlockBit.MAINTENANCE =
        decide ((blockTick ctx inSet b).mode = .maintenance) ∧
      hasBit (blockTick ctx inSet b).alarmBits BlockBit.HVAC_FAILURE =
        (blockTick ctx inSet b).containers.any fun c => c.hvac.failed := by
  have hword : (blockTick ctx inSet b).alarmBits =
      (evaluateBlock (deliveredBlock ctx inSet b) ctx.cfg ctx.thresholds ctx.dtS).1 := rfl
  rw [hword, evaluateBlock]
  refine ⟨?_, ?_, ?_⟩
  · rw [hasBit_withBit_self _ _ _ (by decide)]
    rfl
  · rw [hasBit_withBit_ne _ _ (by decide), hasBit_withBit_self _ _ _ (by decide)]
    rfl
  · rw [hasBit_withBit_ne _ _ (by decide), hasBit_withBit_ne _ _ (by decide),
      hasBit_withBit_self _ _ _ (by decide)]
    rfl

theorem mirrored_tick : Mirrored ((gw01Plant cfg ems).siteTick s inputs) where
  pcsFault := by
    intro b hb
    obtain ⟨⟨b₀, k⟩, _, rfl⟩ := List.mem_map.mp hb
    rw [Plant.nextBlock, (blockTick_mirrors _ _ _).1, decide_eq_true_iff]
  maintenance := by
    intro b hb
    obtain ⟨⟨b₀, k⟩, _, rfl⟩ := List.mem_map.mp hb
    rw [Plant.nextBlock, (blockTick_mirrors _ _ _).2.1, decide_eq_true_iff]
  hvacFailure := by
    intro b hb
    obtain ⟨⟨b₀, k⟩, _, rfl⟩ := List.mem_map.mp hb
    rw [Plant.nextBlock, (blockTick_mirrors _ _ _).2.2, List.any_eq_true]
  breakerOpen := by
    have hword : ((gw01Plant cfg ems).siteTick s inputs).alarmBits =
        evaluateSite ((gw01Plant cfg ems).settledSite s inputs) cfg
          (gw01Plant cfg ems).thresholds := rfl
    rw [hword, evaluateSite, hasBit_withBit_self _ _ _ (by decide), decide_eq_true_iff]
    rfl

end

/-- At every step from every reachable state one set of blocks is asked, divided
by, made available and missed by the site word, and every mirror bit is its state. -/
theorem asked_equals_reported (cfg : PlantConfig ℝ) (ems : EmsStrategy ℝ) (seed : UInt64) (t : Int)
    (moves : List (Move ℝ)) (inputs : Inputs ℝ) :
    AskedIsReported (gw01Plant cfg ems)
        ((Simulation.new cfg (gw01Models cfg ems) seed t).run moves).state inputs
        (((Simulation.new cfg (gw01Models cfg ems) seed t).run moves).step inputs).state ∧
      Mirrored (((Simulation.new cfg (gw01Models cfg ems) seed t).run moves).step inputs).state := by
  have hplant : (Simulation.new cfg (gw01Models cfg ems) seed t).plant = gw01Plant cfg ems := rfl
  rw [run_step_state (sound_new cfg (gw01Models cfg ems) seed t) moves, hplant]
  exact ⟨askedIsReported_tick _ inputs, mirrored_tick _ inputs⟩

end BessDispatch
