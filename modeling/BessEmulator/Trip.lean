import BessEmulator.Racks

/-!
# The trip

The protection bit and the breaker are one fact in every reachable state, and
a tick with the breaker open moves no power: no setpoint, no conversion, no
availability, nothing through the point of interconnection.
-/
namespace BessTrip

open Bess Sweep

/-- The protection bit mirrors the breaker, and a tripped site has released nothing. -/
structure Tripped {F : Type} (s : SiteState F) : Prop where
  bit : hasBit s.alarmBits SiteBit.PROTECTION_TRIP = true ↔ s.substation.hvBreaker = .opened
  released : s.substation.hvBreaker = .opened → s.ems.blocksReleased = 0

theorem tripped_kept {F : Type} [Scalar F] : KeptByEdits fun s : SiteState F => Tripped s where
  rack _ _ _ _ h := ⟨h.bit, h.released⟩
  hvac _ _ _ h := ⟨h.bit, h.released⟩
  block _ _ h := ⟨h.bit, h.released⟩
  tripped := by
    intro s _
    have hset : hasBit s.tripped.alarmBits SiteBit.PROTECTION_TRIP = true :=
      hasBit_withBit_self _ _ _ (by decide)
    exact ⟨⟨fun _ => rfl, fun _ => hset⟩, fun _ => rfl⟩
  closed := by
    intro s _
    have hclear : hasBit (s.alarmBits &&& ~~~TRIP_MASK) SiteBit.PROTECTION_TRIP = false := by
      rw [hasBit_and_not_trip]
      simp [SiteBit.PROTECTION_TRIP]
    rw [SiteState.closed_eq]
    constructor
    · rw [hclear]
      simp
    · exact fun h => by cases h
  setpoint := by
    intro s w h
    refine ⟨h.bit, fun ho => ?_⟩
    cases w with
    | some p => exact h.released ho
    | none => exact h.released ho
  pending _ h := ⟨h.bit, h.released⟩

/-- The site word's evaluation leaves the protection bit to the commands. -/
theorem evaluateSite_trip {F : Type} [Scalar F] (s : SiteState F) (cfg : PlantConfig F)
    (th : BlockSiteThresholds F) :
    hasBit (evaluateSite s cfg th) SiteBit.PROTECTION_TRIP =
      hasBit s.alarmBits SiteBit.PROTECTION_TRIP := by
  unfold evaluateSite
  simp only
  rw [hasBit_withBit_ne _ _ (by decide), hasBit_withBit_ne _ _ (by decide),
    hasBit_withBit_ne _ _ (by decide)]

/-- The substation model measures the breaker, it never moves it. -/
theorem simpleGrid_breaker {F : Type} [Scalar F] (m : SimpleGrid F) (sub : SubstationState F)
    (p aux f dtS : F) : (m.step sub p aux f dtS).hvBreaker = sub.hvBreaker := by
  rw [SimpleGrid.step]
  cases h : sub.hvBreaker with
  | opened => rfl
  | closed =>
    simp only [SimpleGrid.stepClosed, SimpleGrid.meter]
    split <;> rfl

variable {cfg : PlantConfig ℝ} {ems : EmsStrategy ℝ}

theorem tick_breaker (s : SiteState ℝ) (inputs : Inputs ℝ) :
    ((gw01Plant cfg ems).siteTick s inputs).substation.hvBreaker = s.substation.hvBreaker :=
  simpleGrid_breaker _ _ _ _ _ _

theorem connectedOf_open {s : SiteState ℝ} (h : s.substation.hvBreaker = .opened) :
    connectedOf s = false := by
  rw [connectedOf, h]
  rfl

/-- A disconnected site gets a target and releases nothing. -/
theorem emsTick_open {s : SiteState ℝ} (pl : Plant ℝ) (inputs : Inputs ℝ)
    (h : s.substation.hvBreaker = .opened) :
    pl.emsTick s inputs = { s.ems with siteSetpointW := pl.targetW s inputs } := by
  rw [Plant.emsTick]
  simp only [connectedOf_open h, Bool.false_eq_true, if_false]

theorem tripped_tick (s : SiteState ℝ) (inputs : Inputs ℝ) (h : Tripped s) :
    Tripped ((gw01Plant cfg ems).siteTick s inputs) where
  bit := by
    rw [tick_breaker]
    exact (iff_of_eq (congrArg (· = true) (evaluateSite_trip _ _ _))).trans h.bit
  released := by
    rw [tick_breaker]
    intro ho
    have hems : ((gw01Plant cfg ems).siteTick s inputs).ems.blocksReleased =
        ((gw01Plant cfg ems).emsTick s inputs).blocksReleased := rfl
    rw [hems, emsTick_open _ inputs ho]
    exact h.released ho

theorem tripped_run (cfg : PlantConfig ℝ) (ems : EmsStrategy ℝ) (seed : UInt64) (t : Int) (moves : List (Move ℝ)) :
    Tripped ((Simulation.new cfg (gw01Models cfg ems) seed t).run moves).state := by
  apply run_kept (sound_new cfg (gw01Models cfg ems) seed t) tripped_kept
  · intro s inputs _ h
    exact tripped_tick s inputs h
  · refine ⟨⟨fun h => ?_, fun h => by cases h⟩, fun h => by cases h⟩
    exact absurd h (by rw [show (Simulation.new cfg (gw01Models cfg ems) seed t).state.alarmBits = 0#32
      from rfl, hasBit_zero]; decide)

section

variable (s : SiteState ℝ) (inputs : Inputs ℝ)

theorem ratedRackW_nonneg (hcfg : cfg.Rated) : 0 ≤ ratedRackW cfg.rack :=
  mul_nonneg hcfg.maxCurrent hcfg.nominalV

/-- A rack of a block that is asked for nothing delivers nothing. -/
theorem dcOf_zero (hcfg : cfg.Rated) {r : RackState ℝ} (h : RackOk r) :
    dcOf ((gw01Plant cfg ems).ctx s inputs) 0 r = 0 := by
  have hb := rackOk_bmsTick hcfg ems s inputs h
  obtain ⟨hc, hd⟩ := BasicBms.default.rackLimits_mem
    (bmsTick ((gw01Plant cfg ems).ctx s inputs) r).1 (ratedRackW_nonneg hcfg)
  have hreq : requestOf ((gw01Plant cfg ems).ctx s inputs) 0 r = 0 := by
    rw [requestOf]
    split
    · exact Scalar.clamp_of_mem (neg_nonpos.mpr hc) hd
    · rfl
  have hdt : (0 : ℝ) < ((gw01Plant cfg ems).ctx s inputs).dtS := by
    change (0 : ℝ) < tickS
    norm_num
  rw [dcOf, cellTick, hreq]
  exact stepRack_zero hb (by norm_num [Ecm1Rc.lfp314ahRack]) hcfg.capacity.le hcfg.maxCurrent hdt

theorem sumOver_zero {α : Type} {f : α → ℝ} {xs : List α} (h : ∀ x ∈ xs, f x = 0) :
    sumOver f xs = 0 := by
  rw [sumOver]
  induction xs with
  | nil => rfl
  | cons x xs ih =>
    rw [List.foldl_cons, h x List.mem_cons_self, add_zero]
    exact ih fun y hy => h y (List.mem_cons_of_mem _ hy)

theorem perRackOf_zero (hcfg : cfg.Rated) (b : BlockState ℝ) :
    perRackOf ((gw01Plant cfg ems).ctx s inputs) false b = 0 := by
  have hreq : ∀ limits, (gw01Models cfg ems).pcs.dcRequestW 0 limits = 0 := fun limits =>
    CurvePcs.dcRequestW_zero _ limits hcfg.pcs.le (by norm_num [CurvePcs.cecUtilityReference])
  rw [perRackOf]
  split
  · rfl
  · have ht : targetOf ((gw01Plant cfg ems).ctx s inputs) false = 0 := rfl
    rw [ht, show ((gw01Plant cfg ems).ctx s inputs).models = gw01Models cfg ems from rfl, hreq,
      zero_div]

/-- A block outside the dispatchable set converts nothing. -/
theorem pcsTick_zero (ems : EmsStrategy ℝ) (s : SiteState ℝ) (inputs : Inputs ℝ) (hcfg : cfg.Rated)
    {b : BlockState ℝ}
    (h : ∀ c ∈ b.containers, ∀ r ∈ c.racks, RackOk r) :
    (pcsTick ((gw01Plant cfg ems).ctx s inputs) false b).1.pAcW = 0 ∧
      (pcsTick ((gw01Plant cfg ems).ctx s inputs) false b).2 = 0 ∧
      (pcsTick ((gw01Plant cfg ems).ctx s inputs) false b).1.pAcSetpointW = 0 := by
  have hdc : blockDcW ((gw01Plant cfg ems).ctx s inputs) false b = 0 := by
    apply sumOver_zero
    intro r hr
    obtain ⟨c, hc, hr⟩ := List.mem_flatMap.mp hr
    rw [perRackOf_zero s inputs hcfg]
    exact dcOf_zero s inputs hcfg (h c hc r hr)
  have hac := CurvePcs.acOf_zero (CurvePcs.cecUtilityReference cfg.pcsRatedW)
  rw [pcsTick, hdc]
  exact ⟨hac, hac, rfl⟩

end

/-- What a tick under an open breaker does to the site's powers and meters. -/
structure TrippedTick (s s' : SiteState ℝ) : Prop where
  released : s'.ems.blocksReleased = 0
  setpoints : ∀ b ∈ s'.blocks, b.pcs.pAcSetpointW = 0
  powers : ∀ b ∈ s'.blocks, b.pcs.pAcW = 0
  poi : s'.substation.poiActivePowerW = 0
  availableDischarge : s'.ems.availableDischargeW = 0
  availableCharge : s'.ems.availableChargeW = 0
  imported : s'.substation.importWh = s.substation.importWh
  exported : s'.substation.exportWh = s.substation.exportWh
  fiscalImported : s'.substation.revenue.importWh = s.substation.revenue.importWh
  fiscalExported : s'.substation.revenue.exportWh = s.substation.revenue.exportWh
  stationService : s'.substation.stationServiceWh - s.substation.stationServiceWh =
    s'.substation.auxPowerW * tickS / 3600
  metered : s'.substation.stationServiceWh - s.substation.stationServiceWh =
    s'.energy.auxWh - s.energy.auxWh

theorem inSet_open {s : SiteState ℝ} (pl : Plant ℝ) (inputs : Inputs ℝ) (b : BlockState ℝ × Nat)
    (h : s.substation.hvBreaker = .opened) : pl.inSet s inputs b = false := by
  rw [Plant.inSet, dispatchable]
  rw [connectedOf_open h]
  rfl

theorem observe_zero (m : RevenueMeter ℝ) (dtS : ℝ) (now : Int) :
    (m.observe 0 dtS now).importWh = m.importWh ∧ (m.observe 0 dtS now).exportWh = m.exportWh := by
  have hbook : m.book (0 * dtS / 3600) =
      { m with exportWh := m.exportWh, periodExportWh := m.periodExportWh } := by
    simp [RevenueMeter.book]
  rw [RevenueMeter.observe]
  rw [hbook]
  split
  · exact ⟨rfl, rfl⟩
  · exact ⟨rfl, rfl⟩

theorem avail_open {s : SiteState ℝ} (pl : Plant ℝ) (inputs : Inputs ℝ)
    (h : s.substation.hvBreaker = .opened) : pl.availOf s inputs = PowerLimits.zero := by
  have hcap : ∀ b, (pl.outcome s inputs b).acCapability = PowerLimits.zero := by
    intro b
    rw [Plant.outcome, inSet_open pl inputs b h]
    rfl
  have hadd : (PowerLimits.zero : PowerLimits ℝ).add PowerLimits.zero = PowerLimits.zero := by
    simp [PowerLimits.add, PowerLimits.zero]
  rw [Plant.availOf]
  induction s.blocks.zipIdx with
  | nil => rfl
  | cons b bs ih =>
    rw [List.foldl_cons, hcap b, hadd]
    exact ih

theorem simpleGrid_open {m : SimpleGrid ℝ} {sub : SubstationState ℝ} (p aux f dtS : ℝ)
    (h : sub.hvBreaker = .opened) :
    m.step sub p aux f dtS =
      SimpleGrid.stepOpen
        { sub with frequencyHz := f, poiVoltageKv := m.poiNominalKv, poiReactivePowerVar := 0 }
        aux dtS := by
  rw [SimpleGrid.step]
  simp only [h]

theorem gridTick_open (cfg : PlantConfig ℝ) (ems : EmsStrategy ℝ) {s : SiteState ℝ} (inputs : Inputs ℝ)
    (ho : s.substation.hvBreaker = .opened) :
    (gw01Plant cfg ems).gridTick s inputs =
      SimpleGrid.stepOpen
        { s.substation with
          frequencyHz := inputs.gridFrequencyHz
          poiVoltageKv := 110.0
          poiReactivePowerVar := 0 }
        ((gw01Plant cfg ems).auxPower s inputs).totalW tickS :=
  simpleGrid_open _ _ _ _ ho

theorem trippedTick {s : SiteState ℝ} (hcfg : cfg.Rated) (inputs : Inputs ℝ)
    (hr : ForallRacks RackOk s) (ht : Tripped s) (ho : s.substation.hvBreaker = .opened) :
    TrippedTick s ((gw01Plant cfg ems).siteTick s inputs) := by
  have hblock : ∀ b ∈ ((gw01Plant cfg ems).siteTick s inputs).blocks,
      b.pcs.pAcW = 0 ∧ b.pcs.pAcSetpointW = 0 := by
    intro b hb
    obtain ⟨b₀, hb₀, rfl⟩ := exists_block_before _ _ _ hb
    have hz := pcsTick_zero ems s inputs hcfg (hr b₀.1 (List.fst_mem_of_mem_zipIdx hb₀))
    rw [Plant.nextBlock, inSet_open _ inputs _ ho, blockTick_pcs]
    exact ⟨hz.1, hz.2.2⟩
  have hgrid := gridTick_open cfg ems inputs ho
  have hsub := siteTick_substation (gw01Plant cfg ems) s inputs
  have havail := avail_open (gw01Plant cfg ems) inputs ho
  have hitems := siteTick_available (gw01Plant cfg ems) s inputs
  obtain ⟨hbooks, _, _⟩ := bookBlocks_frame (gw01Plant cfg ems) s inputs s.blocks.zipIdx s.energy
  obtain ⟨himp, hexp⟩ := observe_zero s.substation.revenue (tickS : ℝ)
    (s.unixTimeS + (TICK_SECONDS : Int))
  rw [hgrid] at hsub
  constructor
  · rw [siteTick_blocksReleased, emsTick_open _ inputs ho]
    exact ht.released ho
  · exact fun b hb => (hblock b hb).2
  · exact fun b hb => (hblock b hb).1
  · rw [hsub]
    rfl
  · rw [hitems.1, havail]
    rfl
  · rw [hitems.2, havail]
    rfl
  · rw [hsub]
    rfl
  · rw [hsub]
    rfl
  · rw [hsub]
    exact himp
  · rw [hsub]
    exact hexp
  · rw [hsub]
    simp [SimpleGrid.stepOpen]
  · rw [hsub, siteTick_energy, hgrid]
    simp only [SimpleGrid.stepOpen, hbooks]
    ring

/-- In every reachable state the protection bit is set exactly while the
breaker is open, and every tick under an open breaker moves no power. -/
theorem trip_invariant (hcfg : cfg.Rated) (ems : EmsStrategy ℝ) (seed : UInt64) (t : Int)
    (moves : List (Move ℝ)) :
    (hasBit ((Simulation.new cfg (gw01Models cfg ems) seed t).run moves).state.alarmBits
        SiteBit.PROTECTION_TRIP = true ↔
      ((Simulation.new cfg (gw01Models cfg ems) seed t).run moves).state.substation.hvBreaker =
        .opened) ∧
    ∀ inputs,
      ((Simulation.new cfg (gw01Models cfg ems) seed t).run moves).state.substation.hvBreaker =
          .opened →
        TrippedTick ((Simulation.new cfg (gw01Models cfg ems) seed t).run moves).state
          (((Simulation.new cfg (gw01Models cfg ems) seed t).run moves).step inputs).state := by
  have ht := tripped_run cfg ems seed t moves
  refine ⟨ht.bit, fun inputs ho => ?_⟩
  rw [run_step_state (sound_new cfg (gw01Models cfg ems) seed t) moves]
  exact trippedTick hcfg inputs (rackOk_run hcfg ems seed t moves) ht ho

/-- The reference plant, tripped and stepped once. -/
theorem trip_invariant_gw01 :
    let sim : Simulation ℝ :=
      (Simulation.new PlantConfig.gw01 (gw01Models PlantConfig.gw01 ⟨fun _ _ => 0⟩) 42 0).run
        [.command .tripProtection]
    TrippedTick sim.state (sim.step ⟨⟨12, 0⟩, 50⟩).state :=
  (trip_invariant rated_gw01 ⟨fun _ _ => 0⟩ 42 0 [.command .tripProtection]).2 ⟨⟨12, 0⟩, 50⟩ rfl

end BessTrip
