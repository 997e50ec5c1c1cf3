import BessEmulator.ViewerRuns

/-!
# The viewer against the wall clock

Wall seconds become ticks through an accumulator that spends whole ticks every
frame and keeps the fraction. Kept in exact numbers, frames of any rate add up to
the same run; the rounding of the sum itself is not in the model.
-/
namespace BessPaced

open Bess Bess.Viewer BessViewer

/-- What every session keeps: a speed in its range, less than a tick owed, and a
jump in force ahead of the plant. -/
structure Paced (s : Session ℝ) : Prop where
  speed : 1 ≤ s.speed ∧ s.speed ≤ 3600
  owed : 0 ≤ s.tickAccum ∧ s.tickAccum < 1
  jump : ∀ jump, s.jump = some jump →
    jump.fromUnixS ≤ s.run.unixTimeS ∧ s.run.unixTimeS < jump.targetUnixS

/-- What a frame spends of the time it is owed, under the cap. -/
theorem spent_floor {owed : ℝ} (hcap : owed < MAX_TICKS_PER_FRAME) :
    min (Scalar.trunc owed).toNat MAX_TICKS_PER_FRAME = ⌊owed⌋₊ := by
  have htrunc : (Scalar.trunc owed).toNat = ⌊owed⌋₊ := by
    change (if 0 ≤ owed then ⌊owed⌋ else ⌈owed⌉).toNat = ⌊owed⌋₊
    split
    · exact Int.floor_toNat owed
    · next hneg =>
      rw [Nat.floor_of_nonpos (not_le.mp hneg).le, Int.toNat_eq_zero]
      exact Int.ceil_le.mpr (by exact_mod_cast (not_le.mp hneg).le)
  have hfloor : ⌊owed⌋₊ ≤ MAX_TICKS_PER_FRAME := by
    rcases le_or_gt 0 owed with hpos | hneg
    · exact_mod_cast (Nat.floor_le hpos).trans hcap.le
    · rw [Nat.floor_of_nonpos hneg.le]
      exact Nat.zero_le _
  rw [htrunc, min_eq_left hfloor]

/-- What a frame leaves owed is less than a tick, and the fraction where time went forwards. -/
theorem left_owed (owed : ℝ) : 0 ≤ max (owed - ⌊owed⌋₊) 0 ∧ max (owed - ⌊owed⌋₊) 0 < 1 ∧
    (0 ≤ owed → max (owed - ⌊owed⌋₊) 0 = Int.fract owed) := by
  rcases le_or_gt 0 owed with hpos | hneg
  · have hfract : max (owed - ⌊owed⌋₊) 0 = Int.fract owed := by
      rw [max_eq_left (sub_nonneg.mpr (Nat.floor_le hpos)), Int.fract, natCast_floor_eq_intCast_floor hpos]
    rw [hfract]
    exact ⟨Int.fract_nonneg owed, Int.fract_lt_one owed, fun _ => rfl⟩
  · rw [Nat.floor_of_nonpos hneg.le, Nat.cast_zero, sub_zero, max_eq_right hneg.le]
    exact ⟨le_rfl, zero_lt_one, fun h => absurd h (not_le.mpr hneg)⟩

section

variable {F : Type} [Scalar F]

/-- The time a frame has to spend. -/
def owedAfter (s : Session F) (dtS : F) : F := s.tickAccum + min dtS 0.25 * s.speed

/-- The wall time of some frames, each no longer than a quarter of a second counts for. -/
def wallTime (dts : List F) : F := (dts.map fun dtS => min dtS 0.25).sum

end

variable {site : Site ℝ} {s : Session ℝ}

/-- A quarter of a second at full speed stays under the cap, so nothing is ever lost to it. -/
theorem owed_under_cap (h : Paced s) (dtS : ℝ) : owedAfter s dtS < MAX_TICKS_PER_FRAME := by
  have hframe : min dtS 0.25 * s.speed ≤ 0.25 * 3600 := by
    have hquarter := mul_le_mul_of_nonneg_right (min_le_right dtS (0.25 : ℝ)) (zero_le_one.trans h.speed.1)
    have hfull := h.speed.2
    linarith
  have howed := h.owed.2
  rw [owedAfter, MAX_TICKS_PER_FRAME]
  push_cast
  linarith

theorem frame_wall (site : Site ℝ) (h : Paced s) (hjump : s.jump = none) (dtS : ℝ) :
    s.advance site dtS = Session.tickTimes site.inputsAt ⌊owedAfter s dtS⌋₊
      { s with tickAccum := max (owedAfter s dtS - ⌊owedAfter s dtS⌋₊) 0 } := by
  have hspent := spent_floor (owed_under_cap h dtS)
  have hframe := advance_wall site hjump dtS
  rw [owedAfter] at hspent ⊢
  rw [hframe, hspent]

theorem paced_owed (h : Paced s) {tickAccum : ℝ} (howed : 0 ≤ tickAccum ∧ tickAccum < 1) :
    Paced { s with tickAccum := tickAccum } := ⟨h.speed, howed, h.jump⟩

/-- Ticks short of a jump's target. -/
theorem paced_ticks (h : Paced s) {n : Nat}
    (hshort : ∀ jump, s.jump = some jump → s.run.unixTimeS + n < jump.targetUnixS) :
    Paced (s.tickTimes site.inputsAt n) where
  speed := h.speed
  owed := h.owed
  jump jump hsome := by
    have htime : (s.tickTimes site.inputsAt n).run.unixTimeS = s.run.unixTimeS + n :=
      ticks_time site.inputsAt n (s.run, s.journal)
    rw [tickTimes_jump] at hsome
    have hfrom := (h.jump jump hsome).1
    have htarget := hshort jump hsome
    rw [htime]
    omega

theorem paced_frame (site : Site ℝ) (h : Paced s) (dtS : ℝ) : Paced (s.advance site dtS) := by
  cases hjump : s.jump with
  | none =>
    obtain ⟨hlow, hhigh, -⟩ := left_owed (owedAfter s dtS)
    rw [frame_wall site h hjump]
    refine paced_ticks (paced_owed h ⟨hlow, hhigh⟩) ?_
    intro jump hsome
    cases hjump.symm.trans hsome
  | some jump =>
    rw [advance_jump site hjump]
    split
    · refine ⟨h.speed, ⟨le_rfl, zero_lt_one⟩, ?_⟩
      intro jump' hsome
      cases hsome
    · next hahead =>
      refine paced_ticks h ?_
      intro jump' hsome
      cases hjump.symm.trans hsome
      rw [distance] at hahead
      omega

theorem paced_jumpTo (h : Paced s) (target : Option Int) : Paced (s.jumpTo target) := by
  rw [Session.jumpTo]
  split
  · refine ⟨h.speed, h.owed, ?_⟩
    intro jump hsome
    obtain ⟨unixS, -, htoward⟩ := Option.bind_eq_some_iff.mp hsome
    rw [FastForward.toward] at htoward
    split at htoward
    · next hahead =>
      cases htoward
      exact ⟨le_rfl, hahead⟩
    · cases htoward
  · exact h

/-- A new plant is at no jump and owed nothing. -/
theorem paced_forgotten (s : Session ℝ) (hspeed : 1 ≤ s.speed ∧ s.speed ≤ 3600) :
    Paced s.forgetTheOldPlant :=
  ⟨hspeed, ⟨le_rfl, zero_lt_one⟩, fun _ hsome => nomatch hsome⟩

theorem clamped_speed (speed : ℝ) :
    1 ≤ Scalar.clamp speed 1.0 3600.0 ∧ Scalar.clamp speed 1.0 3600.0 ≤ 3600 := by
  have hlow : (1.0 : ℝ) ≤ Scalar.clamp speed 1.0 3600.0 := Scalar.le_clamp (by norm_num)
  have hhigh : Scalar.clamp speed (1.0 : ℝ) 3600.0 ≤ 3600.0 := Scalar.clamp_le (by norm_num)
  have hone : (1.0 : ℝ) = 1 := by norm_num
  have hmost : (3600.0 : ℝ) = 3600 := by norm_num
  exact ⟨hone.ge.trans hlow, hhigh.trans hmost.le⟩

theorem paced_play (s : Session ℝ) (scenario : Scenario ℝ) : Paced (s.play site scenario) :=
  paced_forgotten _ (clamped_speed _)

/-- A command leaves the clock alone, so it leaves a jump ahead. -/
theorem paced_command (h : Paced s) (c : Command ℝ) :
    Paced { s with run := { s.run with sim := s.run.sim.command c } } where
  speed := h.speed
  owed := h.owed
  jump jump hsome := by
    obtain ⟨htick, hmeta⟩ := BessCheckpoint.command_clock s.run.sim c
    have htime : (s.run.sim.command c).state.unixTimeS = s.run.unixTimeS + (0 : Nat) :=
      time_of_clock htick hmeta
    change _ ≤ (s.run.sim.command c).state.unixTimeS ∧ (s.run.sim.command c).state.unixTimeS < _
    rw [htime, Nat.cast_zero, add_zero]
    exact h.jump jump hsome

theorem paced_apply (h : Paced s) (c : ViewerCommand ℝ) : Paced (s.apply site c) := by
  cases c with
  | setSpeed speed => exact ⟨clamped_speed speed, h.owed, h.jump⟩
  | setSetpoint sp => exact paced_command h (.setExternalSetpointW sp)
  | restartAt unixS => exact paced_forgotten _ h.speed
  | fastForwardTo unixS => exact paced_jumpTo h _
  | resetAlarms scope => exact paced_command h (.resetAlarms scope)
  | startScenario name =>
    rw [Session.apply]
    split
    · exact paced_play s _
    · exact h
  | runToNextEvent => exact paced_jumpTo h _
  | runToEnd => exact paced_jumpTo h _

theorem paced_inputs (h : Paced s) (is : List (Session.Input ℝ)) : Paced (s.inputs site is) := by
  induction is generalizing s with
  | nil => exact h
  | cons i is ih =>
    refine ih ?_
    cases i with
    | frame dtS => exact paced_frame site h dtS
    | command c => exact paced_apply h c
    | load scenario => exact paced_play s scenario

theorem paced_new (site : Site ℝ) (cfg : PlantConfig ℝ) : Paced (Session.new site cfg) := by
  refine ⟨?_, ⟨le_rfl, zero_lt_one⟩, fun _ hsome => nomatch hsome⟩
  change (1 : ℝ) ≤ 60.0 ∧ (60.0 : ℝ) ≤ 3600
  norm_num

/-- Frames forwards in time: what they are owed together, spent together. -/
theorem frames_wall (h : Paced s) (hjump : s.jump = none) (dts : List ℝ) (hdts : ∀ dtS ∈ dts, 0 ≤ dtS) :
    let owed := s.tickAccum + wallTime dts * s.speed
    s.inputs site (dts.map .frame) =
      Session.tickTimes site.inputsAt ⌊owed⌋₊ { s with tickAccum := Int.fract owed } := by
  induction dts generalizing s with
  | nil =>
    intro owed
    have howed : owed = s.tickAccum := by simp [owed, wallTime]
    have hfract : Int.fract s.tickAccum = s.tickAccum := Int.fract_eq_self.mpr h.owed
    rw [howed, Nat.floor_eq_zero.mpr h.owed.2, hfract]
    rfl
  | cons dtS dts ih =>
    intro owed
    have hpos : 0 ≤ owedAfter s dtS := by
      have hdt : 0 ≤ min dtS (0.25 : ℝ) := le_min (hdts dtS List.mem_cons_self) (by norm_num)
      exact add_nonneg h.owed.1 (mul_nonneg hdt (zero_le_one.trans h.speed.1))
    have hfirst := frame_wall site h hjump dtS
    rw [(left_owed (owedAfter s dtS)).2.2 hpos] at hfirst
    have hpaced := paced_frame site h dtS
    have hstill : (s.advance site dtS).jump = none := by
      rw [hfirst]
      exact hjump
    have hrest := ih hpaced hstill fun dt hdt => hdts dt (List.mem_cons_of_mem _ hdt)
    have hleft : (s.advance site dtS).tickAccum = owedAfter s dtS - ⌊owedAfter s dtS⌋₊ := by
      rw [hfirst, natCast_floor_eq_intCast_floor hpos]
      rfl
    have hspeed : (s.advance site dtS).speed = s.speed := by
      rw [hfirst]
      rfl
    have hsplit : owed = (owedAfter s dtS - ⌊owedAfter s dtS⌋₊ + wallTime dts * s.speed) +
        ⌊owedAfter s dtS⌋₊ := by
      simp only [owed, owedAfter, wallTime, List.map_cons, List.sum_cons]
      ring
    have hwall : 0 ≤ wallTime dts := by
      apply List.sum_nonneg
      intro x hx
      obtain ⟨dt, hdt, rfl⟩ := List.mem_map.mp hx
      exact le_min (hdts dt (List.mem_cons_of_mem _ hdt)) (by norm_num)
    have hremain : 0 ≤ owedAfter s dtS - ⌊owedAfter s dtS⌋₊ + wallTime dts * s.speed :=
      add_nonneg (sub_nonneg.mpr (Nat.floor_le hpos)) (mul_nonneg hwall (zero_le_one.trans h.speed.1))
    simp only [hleft, hspeed] at hrest
    rw [List.map_cons, Session.inputs, List.foldl_cons, ← Session.inputs]
    change Session.inputs site (s.advance site dtS) (dts.map .frame) = _
    rw [hrest, hsplit, Nat.floor_add_natCast hremain, Int.fract_add_natCast, hfirst, Nat.add_comm,
      ← tickTimes_add]
    rfl

/-- With what is owed kept in exact numbers, the viewer keeps the wall clock's time. Whatever was
done to a session, its speed is in range, less than a tick is owed and a jump in force is ahead of
the plant; and outside a jump frames of any lengths run the whole ticks of the wall time at the
speed, none lost to the cap, the rest owed to the next. -/
theorem frames_keep_time (site : Site ℝ) (cfg : PlantConfig ℝ) (is : List (Session.Input ℝ)) :
    let s := (Session.new site cfg).inputs site is
    Paced s ∧
      (s.jump = none → ∀ dts : List ℝ, (∀ dtS ∈ dts, 0 ≤ dtS) →
        let owed := s.tickAccum + wallTime dts * s.speed
        s.inputs site (dts.map .frame) =
          Session.tickTimes site.inputsAt ⌊owed⌋₊ { s with tickAccum := Int.fract owed }) := by
  intro s
  have hpaced : Paced s := paced_inputs (paced_new site cfg) is
  exact ⟨hpaced, fun hjump dts => frames_wall hpaced hjump dts⟩

/-- The opening morning at sixty times the clock: frames of a hundredth, then of a fiftieth. -/
theorem frames_keep_time_opening :
    let site : Site ℝ := { Reference.idle with library := fun _ _ => none }
    let opening := Session.new site PlantConfig.gw01
    opening.inputs site ([0.01, 0.02].map .frame) =
      Session.tickTimes site.inputsAt 1 { opening with tickAccum := 0.8 } := by
  intro site opening
  obtain ⟨-, hframes⟩ := frames_keep_time site PlantConfig.gw01 []
  have hrun := hframes rfl [0.01, 0.02] (by norm_num)
  have howed : opening.tickAccum + wallTime [0.01, 0.02] * opening.speed = (1 : Nat) + 0.8 := by
    change (0 : ℝ) + wallTime [0.01, 0.02] * 60.0 = _
    norm_num [wallTime]
  have hfloor : ⌊((1 : Nat) : ℝ) + 0.8⌋₊ = 1 := by
    rw [Nat.floor_eq_iff (by norm_num)]
    norm_num
  have hfract : Int.fract (((1 : Nat) : ℝ) + 0.8) = 0.8 := by
    rw [Int.fract_natCast_add, Int.fract_eq_self]
    norm_num
  change opening.inputs site _ = Session.tickTimes site.inputsAt
    ⌊opening.tickAccum + wallTime [0.01, 0.02] * opening.speed⌋₊
      { opening with tickAccum := Int.fract (opening.tickAccum + wallTime [0.01, 0.02] * opening.speed) } at hrun
  rw [howed, hfloor, hfract] at hrun
  exact hrun

end BessPaced
