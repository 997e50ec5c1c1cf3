import BessEmulator.Commands

/-!
# The tree at tick 0

A pure function of configuration, seed and start, with the generator it
draws from.
-/
namespace Bess

open Sweep

def rotateLeft (x k : UInt64) : UInt64 := (x <<< k) ||| (x >>> (64 - k))

/-- One output of splitmix64 and the state behind it. -/
def splitmix64 (state : UInt64) : UInt64 × UInt64 :=
  let state := state + 0x9E3779B97F4A7C15
  let z := (state ^^^ (state >>> 30)) * 0xBF58476D1CE4E5B9
  let z := (z ^^^ (z >>> 27)) * 0x94D049BB133111EB
  (z ^^^ (z >>> 31), state)

def Rng.fromSeed (seed : UInt64) : Rng :=
  let (s0, sm) := splitmix64 seed
  let (s1, sm) := splitmix64 sm
  let (s2, sm) := splitmix64 sm
  let (s3, _) := splitmix64 sm
  ⟨s0, s1, s2, s3⟩

def Rng.nextU64 (r : Rng) : UInt64 × Rng :=
  let result := rotateLeft (r.s0 + r.s3) 23 + r.s0
  let t := r.s1 <<< 17
  let s2 := r.s2 ^^^ r.s0
  let s3 := r.s3 ^^^ r.s1
  let s1 := r.s1 ^^^ s2
  let s0 := r.s0 ^^^ s3
  (result, ⟨s0, s1, s2 ^^^ t, rotateLeft s3 45⟩)

section

variable {F : Type} [Scalar F]

def Rng.nextF64 (r : Rng) : F × Rng :=
  let (x, r) := r.nextU64
  (((x >>> 11).toNat : F) * (1 / 9007199254740992), r)

def Rng.uniform (r : Rng) (lo hi : F) : F × Rng :=
  let (x, r) := (r.nextF64 : F × Rng)
  (lo + (hi - lo) * x, r)

end

/-- A draw is a whole number of 2^-53, below one. -/
theorem nextF64_grid (r : Rng) :
    ∃ k : Nat, k < 2 ^ 53 ∧ (r.nextF64 : ℝ × Rng).1 = (k : ℝ) / 2 ^ 53 := by
  refine ⟨(r.nextU64.1 >>> 11).toNat, ?_, ?_⟩
  · have h := r.nextU64.1.toNat_lt
    have hshift : (r.nextU64.1 >>> 11).toNat = r.nextU64.1.toNat / 2 ^ 11 := by
      rw [UInt64.toNat_shiftRight, Nat.shiftRight_eq_div_pow]
      rfl
    rw [hshift]
    omega
  · simp only [Rng.nextF64]
    norm_num
    ring

theorem nextF64_unit (r : Rng) : 0 ≤ (r.nextF64 : ℝ × Rng).1 ∧ (r.nextF64 : ℝ × Rng).1 < 1 := by
  obtain ⟨k, hk, h⟩ := nextF64_grid r
  have hkr : (k : ℝ) < 2 ^ 53 := by exact_mod_cast hk
  rw [h]
  constructor
  · positivity
  · rw [div_lt_one (by positivity)]
    exact hkr

/-- A uniform draw is in the half-open range. -/
theorem uniform_range (r : Rng) {lo hi : ℝ} (h : lo < hi) :
    lo ≤ (r.uniform lo hi).1 ∧ (r.uniform lo hi).1 < hi := by
  obtain ⟨h0, h1⟩ := nextF64_unit r
  simp only [Rng.uniform]
  constructor
  · nlinarith
  · nlinarith

/-- A uniform draw stays between its ends. -/
theorem uniform_mem (r : Rng) (lo hi : ℝ) (h : lo ≤ hi) :
    lo ≤ (r.uniform lo hi).1 ∧ (r.uniform lo hi).1 ≤ hi := by
  obtain ⟨h0, h1⟩ := nextF64_unit r
  simp only [Rng.uniform]
  constructor
  · nlinarith
  · nlinarith

variable {F : Type} [Scalar F]

/-- The commissioning spread draws from a stream of its own. -/
def SPREAD_STREAM : UInt64 := 0x5b12ead0ba1a4ce5

def COMMISSIONING_DSOC : F × F := (0.002, 0.006)

structure Streams where
  rng : Rng
  spreadRng : Rng

def RackState.new (cfg : PlantConfig F) (g : Streams) (_ : Unit) : Streams × RackState F :=
  let (socOffset, rng) := g.rng.uniform (-0.005) 0.005
  let (resistanceScale, rng) := rng.uniform 0.97 1.03
  let (tempOffsetC, rng) := rng.uniform (-1.5) 1.5
  let (cellDsoc, spreadRng) := g.spreadRng.uniform COMMISSIONING_DSOC.1 COMMISSIONING_DSOC.2
  (⟨rng, spreadRng⟩,
    { inService := true
      soc := Scalar.clamp (cfg.initialSoc + socOffset) 0 1
      soh := 1
      voltageV := cfg.rack.nominalV
      currentA := 0
      cellTempC := 20
      polarizationV := 0
      resistanceScale := resistanceScale
      tempOffsetC := tempOffsetC
      alarmBits := 0#32
      cellDsoc := cellDsoc
      cellDvV := 0
      balancingActive := false
      selfDischargeExcessPerS := 0 })

def ContainerState.new (cfg : PlantConfig F) (g : Streams) (_ : Unit) :
    Streams × ContainerState F :=
  let (g, racks) := sweep (RackState.new cfg) g (List.replicate cfg.racksPerContainer ())
  (g,
    { airTempC := 20
      hvac := ⟨.off, 0, 0, 0, false⟩
      racks := racks })

def BlockState.new (cfg : PlantConfig F) (g : Streams) (_ : Unit) : Streams × BlockState F :=
  let (g, containers) := sweep (ContainerState.new cfg) g (List.replicate cfg.containersPerBlock ())
  (g,
    { mode := .inService
      pcs := ⟨.standby, 0, 0, 0, 0⟩
      containers := containers
      alarmBits := 0#32
      setpointMissS := 0 })

def SiteState.new (cfg : PlantConfig F) (seed : UInt64) (startUnixS : Int) : SiteState F :=
  let (g, blocks) :=
    sweep (BlockState.new cfg) ⟨Rng.fromSeed seed, Rng.fromSeed (seed ^^^ SPREAD_STREAM)⟩
      (List.replicate cfg.blocks ())
  { siteMeta := ⟨cfg.siteId, seed, startUnixS, none⟩
    tick := 0
    rng := g.rng
    weather := ⟨12, 0⟩
    ems := ⟨.followPlan, 0, 0, 0, 0, cfg.blocks, 0⟩
    substation :=
      { hvBreaker := .closed
        poiActivePowerW := 0
        poiReactivePowerVar := 0
        poiVoltageKv := cfg.grid.poiNominalKv
        frequencyHz := 50
        transformerLossW := 0
        auxPowerW := 0
        importWh := 0
        exportWh := 0
        stationServiceWh := 0
        revenue := RevenueMeter.new startUnixS }
    aux := AuxPower.zero
    energy := EnergyAccounting.zero
    blocks := blocks
    alarmBits := 0#32
    eventLog := EventLog.empty
    pendingEvents := [] }

def Simulation.new (cfg : PlantConfig F) (models : Models F) (seed : UInt64) (startUnixS : Int) :
    Simulation F :=
  Simulation.fromState cfg models (SiteState.new cfg seed startUnixS)

@[simp] theorem SiteState.new_blocks_length (cfg : PlantConfig F) (seed : UInt64) (t : Int) :
    (SiteState.new cfg seed t).blocks.length = cfg.blocks := by
  simp [SiteState.new]

/-- A property of every freshly built block holds of every block at tick 0. -/
theorem forall_new_blocks {Q : BlockState F → Prop} (cfg : PlantConfig F) (seed : UInt64) (t : Int)
    (h : ∀ g, Q (BlockState.new cfg g ()).2) : ∀ b ∈ (SiteState.new cfg seed t).blocks, Q b := by
  intro b hb
  exact sweep_forall (P := fun _ => True) (fun g _ _ => h g) _ _ (fun _ _ => trivial) b hb

theorem forall_new_containers {Q : ContainerState F → Prop} (cfg : PlantConfig F)
    (h : ∀ g, Q (ContainerState.new cfg g ()).2) (g : Streams) :
    ∀ c ∈ (BlockState.new cfg g ()).2.containers, Q c := by
  intro c hc
  exact sweep_forall (P := fun _ => True) (fun g _ _ => h g) _ _ (fun _ _ => trivial) c hc

theorem forall_new_racks {Q : RackState F → Prop} (cfg : PlantConfig F)
    (h : ∀ g, Q (RackState.new cfg g ()).2) (g : Streams) :
    ∀ r ∈ (ContainerState.new cfg g ()).2.racks, Q r := by
  intro r hr
  exact sweep_forall (P := fun _ => True) (fun g _ _ => h g) _ _ (fun _ _ => trivial) r hr

/-- A property of every freshly built rack holds of every rack at tick 0. -/
theorem forall_new_site_racks {Q : RackState F → Prop} (cfg : PlantConfig F) (seed : UInt64)
    (t : Int) (h : ∀ g, Q (RackState.new cfg g ()).2) :
    ∀ r ∈ (SiteState.new cfg seed t).racks, Q r := by
  have hc := forall_new_containers (Q := fun c => ∀ r ∈ c.racks, Q r) cfg (forall_new_racks cfg h)
  have hb := forall_new_blocks (Q := fun b => ∀ c ∈ b.containers, ∀ r ∈ c.racks, Q r) cfg seed t hc
  intro r hr
  simp only [SiteState.racks, BlockState.racks, List.mem_flatMap] at hr
  obtain ⟨b, hbm, c, hcm, hrm⟩ := hr
  exact hb b hbm c hcm r hrm

/-- A block has the configuration's containers and racks. -/
structure BlockShaped (cfg : PlantConfig F) (b : BlockState F) : Prop where
  containers : b.containers.length = cfg.containersPerBlock
  racks : ∀ c ∈ b.containers, c.racks.length = cfg.racksPerContainer

/-- The tree has the configuration's shape. -/
structure Shaped (cfg : PlantConfig F) (s : SiteState F) : Prop where
  count : s.blocks.length = cfg.blocks
  blocks : ∀ b ∈ s.blocks, BlockShaped cfg b

omit [Scalar F] in
theorem BlockShaped.racks_length {cfg : PlantConfig F} {b : BlockState F} (h : BlockShaped cfg b) :
    b.racks.length = cfg.racksPerBlock := by
  have hsum : ∀ cs : List (ContainerState F), (∀ c ∈ cs, c.racks.length = cfg.racksPerContainer) →
      (cs.flatMap ContainerState.racks).length = cs.length * cfg.racksPerContainer := by
    intro cs
    induction cs with
    | nil => intro _; simp
    | cons c cs ih =>
      intro hcs
      rw [List.flatMap_cons, List.length_append, hcs c List.mem_cons_self,
        ih fun c' hc' => hcs c' (List.mem_cons_of_mem _ hc'), List.length_cons, Nat.add_mul]
      omega
  rw [BlockState.racks, hsum b.containers h.racks, h.containers]
  rfl

theorem shaped_new (cfg : PlantConfig F) (seed : UInt64) (t : Int) :
    Shaped cfg (SiteState.new cfg seed t) where
  count := SiteState.new_blocks_length cfg seed t
  blocks := by
    apply forall_new_blocks
    intro g
    constructor
    · simp [BlockState.new]
    · apply forall_new_containers
      intro g
      simp [ContainerState.new]

end Bess
