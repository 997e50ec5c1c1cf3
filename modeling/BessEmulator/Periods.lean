import BessEmulator.PlantTask
import BessEmulator.Prices

/-!
# The settlement periods of a pass

What the bench reads off the fiscal meter: one row a closed period, with the
local day and quarter it settles in. Where the day table has no such day there is
no answer.
-/
namespace Bess

/-- Period counts over a run. -/
structure PeriodKpis where
  closed : Nat
  onShortDstDay : Nat
  onLongDstDay : Nat
  deriving DecidableEq

/-- One more close, on a day of so many hours. -/
def PeriodKpis.count (k : PeriodKpis) (hours : Nat) : PeriodKpis where
  closed := k.closed + 1
  onShortDstDay := if hours = 23 then k.onShortDstDay + 1 else k.onShortDstDay
  onLongDstDay := if hours = 25 then k.onLongDstDay + 1 else k.onLongDstDay

/-- One closed period. -/
structure ClosedPeriod (F : Type) where
  startUnixS : Int
  localDay : Nat
  quarter : Nat
  importKwh : F
  exportKwh : F

/-- Watches the meter's period count tick over and records each close. -/
structure PeriodCollector (F P : Type) where
  year : PriceYear P
  seen : Nat
  openSinceS : Int
  kpis : PeriodKpis
  rows : List (ClosedPeriod F)

namespace PeriodCollector

variable {F P : Type}

/-- A collector for a run whose first period opens at its start. -/
def new (year : PriceYear P) (startUnixS : Int) : PeriodCollector F P where
  year := year
  seen := 0
  openSinceS := startUnixS
  kpis := ⟨0, 0, 0⟩
  rows := []

variable [Scalar F]

/-- Read one tick of the tree. -/
def observe (c : PeriodCollector F P) (state : SiteState F) : Option (PeriodCollector F P) :=
  let meter := state.substation.revenue
  if meter.periodsClosed = c.seen then some c
  else
    (label c.year c.openSinceS).bind fun (localDay, quarter) =>
      (c.year.dayHours localDay).map fun (first, last) =>
        { c with
          seen := meter.periodsClosed
          openSinceS := meter.periodStartS
          kpis := c.kpis.count (last - first)
          rows := c.rows ++
            [{ startUnixS := c.openSinceS
               localDay := localDay
               quarter := quarter
               importKwh := meter.lastImportWh / 1000.0
               exportKwh := meter.lastExportWh / 1000.0 }] }

end PeriodCollector

variable {F P : Type} [Scalar F]

/-- One tick of the pass: the plant steps, and the collector reads it. -/
def periodTick (ref : Reference F) (p : Simulation F × PeriodCollector F P) :
    Option (Simulation F × PeriodCollector F P) :=
  let sim := p.1.step (ref.inputsAt p.1.state.unixTimeS)
  (p.2.observe sim.state).map fun c => (sim, c)

def periodTicks (ref : Reference F) : Nat → Simulation F × PeriodCollector F P →
    Option (Simulation F × PeriodCollector F P)
  | 0, p => some p
  | n + 1, p => (periodTicks ref n p).bind (periodTick ref)

end Bess
