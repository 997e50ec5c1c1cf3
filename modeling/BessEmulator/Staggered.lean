import BessEmulator.Trip

/-!
# The staggered return

A site reset closes the breaker of a tripped site and starts its return over:
the next tick lets the first block back in, and one more follows every thirty
ticks. Only another protection trip breaks the count.
-/
namespace BessReturn

open Bess BessTrip

/-- Blocks let back in once `n` ticks of a return have run. -/
def releasedAfter (blocks n : Nat) : Nat := min blocks ((n + 29) / 30)

/-- A return `n` ticks old. -/
structure Returning (blocks n : Nat) (e : EmsState ℝ) : Prop where
  released : e.blocksReleased = releasedAfter blocks n
  next : e.blocksReleased < blocks → e.nextReleaseS = 30 * (e.blocksReleased : ℝ) - (n : ℝ)

theorem releasedAfter_succ {blocks n : Nat} (h : releasedAfter blocks n < blocks) :
    releasedAfter blocks (n + 1) =
      if 30 * releasedAfter blocks n ≤ n then releasedAfter blocks n + 1
      else releasedAfter blocks n := by
  unfold releasedAfter at h ⊢
  split <;> omega

theorem releasedAfter_done {blocks n : Nat} (h : blocks ≤ releasedAfter blocks n) :
    releasedAfter blocks (n + 1) = releasedAfter blocks n := by
  unfold releasedAfter at h ⊢
  omega

/-- One connected tick of the return. -/
theorem returning_release {blocks n : Nat} {e : EmsState ℝ} (h : Returning blocks n e) :
    Returning blocks (n + 1) (release e blocks ReturnPolicy.default 1) := by
  by_cases hdone : blocks ≤ e.blocksReleased
  · have hsame : release e blocks ReturnPolicy.default 1 = e := by
      rw [release]
      exact if_pos hdone
    rw [hsame]
    rw [h.released] at hdone
    refine ⟨by rw [h.released, releasedAfter_done hdone], fun hlt => ?_⟩
    rw [h.released] at hlt
    omega
  · have hlt : e.blocksReleased < blocks := not_le.mp hdone
    have hnext := h.next hlt
    have hsucc := releasedAfter_succ (h.released ▸ hlt)
    rw [← h.released] at hsucc
    have hdue : e.nextReleaseS ≤ 0 ↔ 30 * e.blocksReleased ≤ n := by
      rw [hnext, sub_nonpos]
      exact_mod_cast Iff.rfl
    have hlow : n ≤ 30 * e.blocksReleased := by
      rw [h.released, releasedAfter] at hlt ⊢
      omega
    have h30 : (30.0 : ℝ) = 30 := by norm_num
    simp only [release, ge_iff_le, if_neg hdone, ReturnPolicy.default, hdue]
    by_cases hd : 30 * e.blocksReleased ≤ n
    · have hn : (n : ℝ) = 30 * (e.blocksReleased : ℝ) := by
        exact_mod_cast le_antisymm hlow hd
      rw [if_pos hd] at hsucc
      simp only [if_pos hd]
      split
      · refine ⟨hsucc.symm, fun _ => ?_⟩
        push_cast
        rw [hn, h30]
        ring
      · exact ⟨hsucc.symm, fun hl => absurd hl ‹_›⟩
    · rw [if_neg hd] at hsucc
      simp only [if_neg hd, if_pos hlt]
      refine ⟨hsucc.symm, fun _ => ?_⟩
      push_cast
      rw [hnext]
      ring

/-- A connected site, `n` ticks after its return started at tick `start`. -/
structure UnderWay (blocks start n : Nat) (s : SiteState ℝ) : Prop where
  tick : s.tick = start + n
  closed : s.substation.hvBreaker = .closed
  count : s.blocks.length = blocks
  ems : Returning blocks n s.ems

section

variable {blocks start n : Nat}

/-- Faults and resets, a second site reset among them, leave it as it is. -/
theorem underWay_resets : KeptByResets fun s : SiteState ℝ => UnderWay blocks start n s := by
  apply keptByResets_of_count
  · intro s bs hlen h
    exact ⟨h.tick, h.closed, hlen.trans h.count, h.ems⟩
  · intro s events h
    exact ⟨h.tick, h.closed, h.count, h.ems⟩
  · intro s h
    rw [SiteState.closed_eq]
    have hopen : ¬ s.substation.hvBreaker = .opened := by rw [h.closed]; decide
    simp only [if_neg hopen]
    exact ⟨h.tick, rfl, h.count, h.ems⟩

/-- An operator's setpoint leaves the count alone. -/
theorem underWay_setpoint {s : SiteState ℝ} (w : Option ℝ) (h : UnderWay blocks start n s) :
    UnderWay blocks start n (s.withSetpoint w) := by
  cases w with
  | some p => exact ⟨h.tick, h.closed, h.count, h.ems.released, h.ems.next⟩
  | none => exact ⟨h.tick, h.closed, h.count, h.ems.released, h.ems.next⟩

theorem underWay_command (sim : Simulation ℝ) {c : Command ℝ} (hc : c.trips = false)
    (h : UnderWay blocks start n sim.state) : UnderWay blocks start n (sim.command c).state :=
  kept_command_of underWay_resets.toKeptByFaults underWay_setpoint sim c
    (fun htrip => by rw [hc] at htrip; cases htrip)
    (fun scope _ => kept_resetAlarms underWay_resets sim.models sim.cfg scope h) h

theorem underWay_tick {cfg : PlantConfig ℝ} {ems : EmsStrategy ℝ} {s : SiteState ℝ}
    (inputs : Inputs ℝ) (h : UnderWay blocks start n s) :
    UnderWay blocks start (n + 1) ((gw01Plant cfg ems).siteTick s inputs) where
  tick := by
    change s.tick + 1 = _
    rw [h.tick, Nat.add_assoc]
  closed := by rw [tick_breaker, h.closed]
  count := by
    rw [siteTick_blocks, List.length_map, List.length_zipIdx, h.count]
  ems := by
    have hconn : connectedOf s = true := by rw [connectedOf, h.closed]; rfl
    have hset : Returning blocks n
        { s.ems with siteSetpointW := (gw01Plant cfg ems).targetW s inputs } :=
      ⟨h.ems.released, h.ems.next⟩
    have hrel := returning_release hset
    rw [← tickS_real] at hrel
    have hems : (gw01Plant cfg ems).emsTick s inputs =
        release { s.ems with siteSetpointW := (gw01Plant cfg ems).targetW s inputs } blocks
          ReturnPolicy.default tickS := by
      rw [Plant.emsTick]
      simp only [hconn, if_true, h.count]
      rfl
    rw [← hems] at hrel
    exact ⟨hrel.released, hrel.next⟩

/-- No protection trip among the moves. -/
def Tripless (moves : List (Move ℝ)) : Prop := ∀ c, Move.command c ∈ moves → c.trips = false

theorem underWay_run {cfg : PlantConfig ℝ} {ems : EmsStrategy ℝ} {sim : Simulation ℝ}
    (hs : Sound sim) (hpl : sim.plant = gw01Plant cfg ems) {moves : List (Move ℝ)}
    (hm : Tripless moves) (h : UnderWay blocks start n sim.state) :
    ∃ k, UnderWay blocks start (n + k) (sim.run moves).state := by
  induction moves generalizing sim n with
  | nil => exact ⟨0, h⟩
  | cons m ms ih =>
    have hrest : Tripless ms := fun c hc => hm c (List.mem_cons_of_mem _ hc)
    have hpl' := (move_plant hs m).trans hpl
    cases m with
    | command c =>
      exact ih (sound_command hs c) hpl' hrest (underWay_command sim (hm c List.mem_cons_self) h)
    | step inputs =>
      have hstep : UnderWay blocks start (n + 1) (sim.step inputs).state := by
        rw [step_state hs inputs, hpl]
        exact underWay_tick inputs h
      obtain ⟨k, hk⟩ := ih (sound_step hs inputs) hpl' hrest hstep
      refine ⟨1 + k, ?_⟩
      rw [← Nat.add_assoc]
      exact hk

/-- A block is back once the tick of its turn has run. -/
theorem UnderWay.released_iff {s : SiteState ℝ} (h : UnderWay blocks start n s) {k : Nat}
    (hk : k < blocks) : k < s.ems.blocksReleased ↔ start + 30 * k < s.tick := by
  rw [h.ems.released, h.tick, releasedAfter]
  omega

theorem releasedAfter_mono {n m : Nat} (h : n ≤ m) :
    releasedAfter blocks n ≤ releasedAfter blocks m := by
  unfold releasedAfter
  omega

end

/-- A site not yet reconnected, or one whose return has just started over. -/
structure Reconnecting (blocks start : Nat) (s : SiteState ℝ) : Prop where
  tick : s.tick = start
  count : s.blocks.length = blocks
  fresh : s.substation.hvBreaker = .opened ∨ s.ems.blocksReleased = 0 ∧ s.ems.nextReleaseS = 0

theorem reconnecting_resets {blocks start : Nat} :
    KeptByResets fun s : SiteState ℝ => Reconnecting blocks start s := by
  apply keptByResets_of_count
  · intro s bs hlen h
    exact ⟨h.tick, hlen.trans h.count, h.fresh⟩
  · intro s events h
    exact ⟨h.tick, h.count, h.fresh⟩
  · intro s h
    rw [SiteState.closed_eq]
    refine ⟨h.tick, h.count, .inr ?_⟩
    by_cases hopen : s.substation.hvBreaker = .opened
    · simp only [if_pos hopen]
      exact ⟨rfl, rfl⟩
    · simp only [if_neg hopen]
      exact h.fresh.resolve_left hopen

section

variable (models : Models ℝ) (cfg : PlantConfig ℝ) {s : SiteState ℝ}

theorem resetAlarms_site_closes (s : SiteState ℝ) :
    (resetAlarms models cfg s .site).2.substation.hvBreaker = .closed := by
  have hclosed : ∀ u : SiteState ℝ, u.closed.substation.hvBreaker = .closed := fun u => by
    rw [SiteState.closed_eq]
  rw [resetAlarms, if_pos (show checkScope s .site = true from rfl)]
  exact hclosed _

/-- A site reset of a tripped site starts its return. -/
theorem resetAlarms_starts (ho : s.substation.hvBreaker = .opened) :
    UnderWay s.blocks.length s.tick 0 (resetAlarms models cfg s .site).2 := by
  have hclosed := resetAlarms_site_closes models cfg s
  have hrec : Reconnecting s.blocks.length s.tick s := ⟨rfl, rfl, .inl ho⟩
  obtain ⟨htick, hcount, hfresh⟩ := kept_resetAlarms reconnecting_resets models cfg .site hrec
  obtain ⟨hreleased, hnext⟩ := hfresh.resolve_left (by rw [hclosed]; decide)
  refine ⟨by rw [htick, Nat.add_zero], hclosed, hcount, ⟨?_, fun _ => ?_⟩⟩
  · rw [hreleased, releasedAfter]
    omega
  · rw [hreleased, hnext]
    norm_num

end

/-- By either door. -/
theorem site_reset_starts (sim : Simulation ℝ) (ho : sim.state.substation.hvBreaker = .opened)
    {c : Command ℝ} (hc : c.Resets .site) :
    UnderWay sim.state.blocks.length sim.state.tick 0 (sim.command c).state := by
  have hstart := resetAlarms_starts sim.models sim.cfg ho
  rcases hc.cases with rfl | rfl
  · exact hstart
  · exact underWay_resets.pending _ hstart

/-- What a connected site's release stands at. -/
def ReleaseAt (v : Nat × ℝ) (s : SiteState ℝ) : Prop :=
  s.substation.hvBreaker = .closed ∧ (s.ems.blocksReleased, s.ems.nextReleaseS) = v

theorem releaseAt_resets (v : Nat × ℝ) : KeptByResets (ReleaseAt v) := by
  apply keptByResets_of_count
  · exact fun _ _ h => h
  · exact fun _ h => h
  · intro s h
    rw [SiteState.closed_eq]
    have hopen : ¬ s.substation.hvBreaker = .opened := by rw [h.1]; decide
    simp only [if_neg hopen]
    exact ⟨rfl, h.2⟩

/-- On a connected site a reset leaves the release schedule alone. -/
theorem connected_reset (sim : Simulation ℝ) (hcl : sim.state.substation.hvBreaker = .closed)
    {c : Command ℝ} (hc : c.Resets .site) :
    (sim.command c).state.ems.blocksReleased = sim.state.ems.blocksReleased ∧
      (sim.command c).state.ems.nextReleaseS = sim.state.ems.nextReleaseS := by
  have hkept : ReleaseAt (sim.state.ems.blocksReleased, sim.state.ems.nextReleaseS)
      (sim.command c).state := by
    rcases hc.cases with rfl | rfl
    · exact kept_resetAlarms (releaseAt_resets _) sim.models sim.cfg .site ⟨hcl, rfl⟩
    · exact kept_applyAction_of
        (releaseAt_resets _).toKeptByFaults sim.models sim.cfg _ (fun ha => by cases ha)
        (fun scope _ => kept_resetAlarms (releaseAt_resets _) sim.models sim.cfg scope ⟨hcl, rfl⟩)
        ⟨hcl, rfl⟩
  exact Prod.mk.injEq .. ▸ hkept.2

theorem tripProtection_released {s : SiteState ℝ} (ht : Tripped s) :
    hasBit (tripProtection s).1.alarmBits SiteBit.PROTECTION_TRIP = true ∧
      (tripProtection s).1.ems.blocksReleased = 0 := by
  cases hbit : hasBit s.alarmBits SiteBit.PROTECTION_TRIP with
  | true =>
    have hsame : (tripProtection s).1 = s := by
      rw [tripProtection]
      rw [if_pos hbit]
    rw [hsame]
    exact ⟨hbit, ht.released (ht.bit.mp hbit)⟩
  | false =>
    rw [tripProtection_eq hbit]
    exact ⟨hasBit_withBit_self _ _ _ (by decide), rfl⟩

theorem trip_released (sim : Simulation ℝ) (ht : Tripped sim.state) {c : Command ℝ}
    (hc : c.trips = true) :
    hasBit (sim.command c).state.alarmBits SiteBit.PROTECTION_TRIP = true ∧
      (sim.command c).state.ems.blocksReleased = 0 := by
  cases c with
  | tripProtection => exact tripProtection_released ht
  | apply action =>
    obtain rfl : action = .protectionTrip := of_decide_eq_true hc
    exact tripProtection_released ht
  | setHvacFailed b c failed => cases hc
  | setRackInService b c r on => cases hc
  | setBlockMode b mode => cases hc
  | tripPcs b => cases hc
  | resetAlarms scope => cases hc
  | setExternalSetpointW w => cases hc

/-- The return of a site of that many blocks, through moves that trip nothing:
who is back after them, and what holds of the count at every point between. -/
structure Staggered (sim : Simulation ℝ) (blocks start : Nat) (moves : List (Move ℝ)) : Prop where
  released : ∀ k < blocks,
    (k < (sim.run moves).state.ems.blocksReleased ↔ start + 30 * k < (sim.run moves).state.tick)
  bounded : (sim.run moves).state.ems.blocksReleased ≤ blocks
  rising : ∀ before after, moves = before ++ after →
    (sim.run before).state.ems.blocksReleased ≤ (sim.run moves).state.ems.blocksReleased

theorem staggered_of_start {cfg : PlantConfig ℝ} {ems : EmsStrategy ℝ} {sim : Simulation ℝ}
    {blocks start : Nat} (hs : Sound sim) (hpl : sim.plant = gw01Plant cfg ems)
    (h : UnderWay blocks start 0 sim.state) {moves : List (Move ℝ)} (hm : Tripless moves) :
    Staggered sim blocks start moves := by
  obtain ⟨n, hn⟩ := underWay_run hs hpl hm h
  refine ⟨fun k hk => hn.released_iff hk, ?_, ?_⟩
  · rw [hn.ems.released, releasedAfter]
    exact Nat.min_le_left _ _
  · rintro before after rfl
    have hbefore : Tripless before := fun c hc => hm c (List.mem_append_left _ hc)
    have hafter : Tripless after := fun c hc => hm c (List.mem_append_right _ hc)
    obtain ⟨j, hj⟩ := underWay_run hs hpl hbefore h
    obtain ⟨i, hi⟩ := underWay_run (sound_run hs before) ((run_plant hs before).trans hpl) hafter hj
    rw [Simulation.run_append, hi.ems.released, hj.ems.released]
    exact releasedAfter_mono (by omega)

/-- What a site reset and a protection trip do to the return, wherever a run has come to. -/
structure ReturnsStaggered (sim : Simulation ℝ) : Prop where
  reset : hasBit sim.state.alarmBits SiteBit.PROTECTION_TRIP = true → ∀ c, c.Resets .site →
    ∀ moves, Tripless moves →
      Staggered (sim.command c) sim.state.blocks.length sim.state.tick moves
  trip : ∀ c, c.trips = true →
    hasBit (sim.command c).state.alarmBits SiteBit.PROTECTION_TRIP = true ∧
      (sim.command c).state.ems.blocksReleased = 0
  untripped : hasBit sim.state.alarmBits SiteBit.PROTECTION_TRIP = false → ∀ c, c.Resets .site →
    (sim.command c).state.ems.blocksReleased = sim.state.ems.blocksReleased ∧
      (sim.command c).state.ems.nextReleaseS = sim.state.ems.nextReleaseS

/-- After a site reset of a tripped site whose next step is of tick `T`, block `k` is let back
in by the step of tick `T + 30 k`, whatever falls in between short of another trip. -/
theorem staggered_return (cfg : PlantConfig ℝ) (ems : EmsStrategy ℝ) (seed : UInt64) (t : Int)
    (moves : List (Move ℝ)) :
    ReturnsStaggered ((Simulation.new cfg (gw01Models cfg ems) seed t).run moves) := by
  have hnew := sound_new cfg (gw01Models cfg ems) seed t
  have hs := sound_run hnew moves
  have hpl : ((Simulation.new cfg (gw01Models cfg ems) seed t).run moves).plant =
      gw01Plant cfg ems := run_plant hnew moves
  have ht := tripped_run cfg ems seed t moves
  refine ⟨fun hbit c hc after hafter => ?_, fun c hc => trip_released _ ht hc,
    fun hbit c hc => connected_reset _ ?_ hc⟩
  · exact staggered_of_start (sound_command hs c) ((command_plant _ c).trans hpl)
      (site_reset_starts _ (ht.bit.mp hbit) hc) hafter
  · cases hb : ((Simulation.new cfg (gw01Models cfg ems) seed t).run
        moves).state.substation.hvBreaker with
    | closed => rfl
    | opened => rw [ht.bit.mpr hb] at hbit; cases hbit

/-- The reference plant, tripped and reset, and reset again between two ticks. -/
theorem staggered_return_gw01 :
    let sim : Simulation ℝ :=
      (Simulation.new PlantConfig.gw01 (gw01Models PlantConfig.gw01 ⟨fun _ _ => 0⟩) 42 0).run
        [.command .tripProtection]
    Staggered (sim.command (.resetAlarms .site)) sim.state.blocks.length sim.state.tick
      [.step ⟨⟨12, 0⟩, 50⟩, .command (.resetAlarms .site), .step ⟨⟨12, 0⟩, 50⟩] := by
  refine (staggered_return PlantConfig.gw01 ⟨fun _ _ => 0⟩ 42 0 [.command .tripProtection]).reset
    rfl (.resetAlarms .site) rfl _ fun c hc => ?_
  simp only [List.mem_cons, List.not_mem_nil, or_false, false_or, reduceCtorEq,
    Move.command.injEq] at hc
  rw [hc]
  rfl

end BessReturn
