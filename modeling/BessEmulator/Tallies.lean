import BessEmulator.Dwell
import BessEmulator.StudySeries

/-!
# The tallies of the annual pass

What the pass counts of the climate on its walk over the tree: extremes of the
temperatures, and how long and how often the HVAC units ran.
-/
namespace Bess

variable {F : Type} [Scalar F]

/-- How often the cells are swept, in ticks. -/
def CELL_SAMPLE_TICKS : Nat := 60

/-- Running tallies over the walk of the state tree; an extreme is infinite, here none, before a reading. -/
structure Tallies (F : Type) where
  ambientMinC : Option F
  ambientMaxC : Option F
  airMinC : Option F
  airMaxC : Option F
  cellMinC : Option F
  cellMaxC : Option F
  stage1Ticks : Nat
  stage2Ticks : Nat
  heatTicks : Nat
  starts : Nat
  cooling : List Bool

/-- Temperature extremes over the run. -/
structure ThermalKpis (F : Type) where
  ambientMinC : Option F
  ambientMaxC : Option F
  containerAirMinC : Option F
  containerAirMaxC : Option F
  cellMinC : Option F
  cellMaxC : Option F

/-- What the HVAC did over the run: shares of container-time, and transitions into cooling. -/
structure HvacKpis (F : Type) where
  stage1Duty : F
  stage2Duty : F
  heatDuty : F
  compressorStartsPerContainer : F

/-- `f64::min` from infinity on. -/
def least (old : Option F) (x : F) : Option F := some (old.elim x fun m => min m x)

/-- `f64::max` from minus infinity on. -/
def greatest (old : Option F) (x : F) : Option F := some (old.elim x fun m => max m x)

namespace Tallies

def new (containers : Nat) : Tallies F where
  ambientMinC := none
  ambientMaxC := none
  airMinC := none
  airMaxC := none
  cellMinC := none
  cellMaxC := none
  stage1Ticks := 0
  stage2Ticks := 0
  heatTicks := 0
  starts := 0
  cooling := List.replicate containers false

/-- What a container adds; none where the code would index out of range. -/
def read (t : Tallies F) (c : ContainerState F × Nat) : Option (Tallies F) :=
  let (container, idx) := c
  let cooling := container.hvac.mode.cools
  t.cooling[idx]?.map fun was =>
    { t with
      airMinC := least t.airMinC container.airTempC
      airMaxC := greatest t.airMaxC container.airTempC
      stage1Ticks := t.stage1Ticks + if container.hvac.mode = .cool1 then 1 else 0
      stage2Ticks := t.stage2Ticks + if container.hvac.mode = .cool2 then 1 else 0
      heatTicks := t.heatTicks + if container.hvac.mode = .heat then 1 else 0
      starts := t.starts + if cooling && !was then 1 else 0
      cooling := t.cooling.set idx cooling }

/-- Read one tick of the state tree. -/
def observe (t : Tallies F) (state : SiteState F) (tick : Nat) : Option (Tallies F) :=
  (state.containers.zipIdx.foldlM read
    { t with
      ambientMinC := least t.ambientMinC state.weather.ambientC
      ambientMaxC := greatest t.ambientMaxC state.weather.ambientC }).map fun t =>
    if tick % CELL_SAMPLE_TICKS = 0 then
      { t with
        cellMinC := least t.cellMinC state.cellTempMinMaxC.1
        cellMaxC := greatest t.cellMaxC state.cellTempMinMaxC.2 }
    else t

def thermal (t : Tallies F) : ThermalKpis F where
  ambientMinC := t.ambientMinC.map fun x => roundTo x 1
  ambientMaxC := t.ambientMaxC.map fun x => roundTo x 1
  containerAirMinC := t.airMinC.map fun x => roundTo x 1
  containerAirMaxC := t.airMaxC.map fun x => roundTo x 1
  cellMinC := t.cellMinC.map fun x => roundTo x 1
  cellMaxC := t.cellMaxC.map fun x => roundTo x 1

def hvac (t : Tallies F) (ticks containers : Nat) : HvacKpis F :=
  let containerTicks : F := (ticks : F) * (containers : F)
  { stage1Duty := roundTo ((t.stage1Ticks : F) / containerTicks) 5
    stage2Duty := roundTo ((t.stage2Ticks : F) / containerTicks) 5
    heatDuty := roundTo ((t.heatTicks : F) / containerTicks) 5
    compressorStartsPerContainer := roundTo ((t.starts : F) / (containers : F)) 1 }

end Tallies

/-- One tick of the pass: the plant steps, and the tallies read it. -/
def tallyTick (ref : Reference F) (p : Simulation F × Tallies F) (tick : Nat) :
    Option (Simulation F × Tallies F) :=
  let sim := p.1.step (ref.inputsAt p.1.state.unixTimeS)
  (p.2.observe sim.state tick).map fun tallies => (sim, tallies)

def tallyTicks (ref : Reference F) (n : Nat) (p : Simulation F × Tallies F) :
    Option (Simulation F × Tallies F) :=
  (List.range n).foldlM (tallyTick ref) p

end Bess
