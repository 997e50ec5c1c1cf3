import BessEmulator.Init

/-!
# Scenarios and their schedules

A validated scenario, its events typed and nothing drawn; the schedule one
run fixes from it; and the simulations that carry its identity. The failure
category of a file, which nothing here reads, is left out.
-/
namespace Bess

/-- A node a physical fault acts on. -/
inductive Target where
  | site
  | block (block : Nat)
  | pcs (block : Nat)
  | hvac (block container : Nat)
  | rack (block container rack : Nat)
  deriving DecidableEq, Repr

/-- What a data fault's `points` names. -/
inductive Selector where
  | all
  | site
  | block (block : Nat)
  | pcs (block : Nat)
  deriving DecidableEq, Repr

inductive Surface where
  | mqtt | modbus
  deriving DecidableEq, Repr

inductive DataFaultKind where
  | dropout | freeze | unitError | chatter | timestampDrift | nanBurst | backfillBurst
  deriving DecidableEq, Repr

section

variable (F : Type)

/-- One number, or a range drawn when the scenario is resolved. -/
inductive Rate where
  | fixed (v : F)
  | range (lo hi : F)

structure DataFault where
  surface : Surface
  fault : DataFaultKind
  durationS : Option Nat
  points : Option Selector
  exponent : Option Int
  ratePerMin : Option F
  driftSPerH : Option F

inductive PendingAction where
  | ready (action : FaultAction)
  | selfDischarge (block container rack : Nat) (ratePctPerMonth : Rate F)

inductive Fault where
  | physical (target : Target) (action : PendingAction F)
  | data (fault : DataFault F)

structure ScenarioEvent where
  index : Nat
  atS : Nat
  fault : Fault F

structure Scenario where
  id : ScenarioId
  seed : Option UInt64
  startUnixS : Option Int
  speed : Option F
  lengthS : Option Nat
  events : List (ScenarioEvent F)

structure RunParams where
  seed : UInt64
  startUnixS : Int
  speed : F

inductive Due where
  | physical (action : FaultAction)
  | data (fault : DataFault F)

structure Scheduled where
  index : Nat
  atS : Nat
  tick : Nat
  due : Due F

structure Resolved where
  id : ScenarioId
  params : RunParams F
  ticks : Option Nat
  schedule : List (Scheduled F)

inductive ResumeError where
  | noScenario (name : String)
  | otherScenario (name : String) (expected : UInt64) (foundName : String) (found : UInt64)
  | otherSeed (expected found : UInt64)
  deriving DecidableEq, Repr

end

variable {F : Type} [Scalar F]

/-- Salt that separates scenario draws from the kernel's streams. -/
def SCENARIO_STREAM : UInt64 := 0x5ce7a210d4a30b1e

/-- Days in the month a rate is quoted over. -/
def MONTH_DAYS : F := 30.0

/-- Percent per month to ppm of SoC per day. -/
def ppmPerDay (pctPerMonth : F) : UInt32 :=
  Scalar.toU32 (Scalar.round (pctPerMonth * 1.0e4 / MONTH_DAYS))

def draw (action : PendingAction F) (seed : UInt64) (index : Nat) : FaultAction :=
  match action with
  | .ready a => a
  | .selfDischarge block container rack rate =>
    let pct :=
      match rate with
      | .fixed v => v
      | .range lo hi =>
        ((Rng.fromSeed (seed ^^^ SCENARIO_STREAM ^^^ UInt64.ofNat index)).uniform lo hi).1
    .rackSelfDischarge block container rack (ppmPerDay pct)

/-- Order of the schedule: by tick, then by place in the file. -/
def Scheduled.before {F : Type} (a b : Scheduled F) : Bool :=
  decide (a.tick < b.tick) || (decide (a.tick = b.tick) && decide (a.index ≤ b.index))

def ScenarioEvent.scheduled (params : RunParams F) (e : ScenarioEvent F) : Scheduled F where
  index := e.index
  atS := e.atS
  tick := e.atS / TICK_SECONDS
  due :=
    match e.fault with
    | .physical _ action => .physical (draw action params.seed e.index)
    | .data d => .data d

/-- Draw every range and fix the schedule for one run. -/
def Scenario.resolve (s : Scenario F) (params : RunParams F) : Resolved F where
  id := s.id
  params := params
  ticks := s.lengthS.map (· / TICK_SECONDS)
  schedule := (s.events.map (ScenarioEvent.scheduled params)).mergeSort Scheduled.before

/-- A fresh simulation at the run's seed and start, its tree naming the scenario. -/
def Resolved.simulation (r : Resolved F) (cfg : PlantConfig F) (models : Models F) : Simulation F :=
  let state := SiteState.new cfg r.params.seed r.params.startUnixS
  Simulation.fromState cfg models
    { state with siteMeta := { state.siteMeta with scenario := some r.id } }

/-- Resume a checkpointed tree, refusing one of another file or another seed. -/
def Resolved.resume (r : Resolved F) (cfg : PlantConfig F) (models : Models F)
    (state : SiteState F) : Except ResumeError (Simulation F) :=
  match state.siteMeta.scenario with
  | none => .error (.noScenario r.id.name)
  | some found =>
    if found.contentHash ≠ r.id.contentHash then
      .error (.otherScenario r.id.name r.id.contentHash found.name found.contentHash)
    else if state.siteMeta.seed ≠ r.params.seed then
      .error (.otherSeed r.params.seed state.siteMeta.seed)
    else .ok (Simulation.fromState cfg models state)

omit [Scalar F] in
theorem before_trans (a b c : Scheduled F) (hab : a.before b) (hbc : b.before c) : a.before c := by
  simp only [Scheduled.before, Bool.or_eq_true, Bool.and_eq_true, decide_eq_true_eq] at *
  omega

omit [Scalar F] in
theorem before_total (a b : Scheduled F) : (a.before b || b.before a) := by
  simp only [Scheduled.before, Bool.or_eq_true, Bool.and_eq_true, decide_eq_true_eq]
  omega

/-- A schedule is in firing order. -/
theorem schedule_sorted (s : Scenario F) (params : RunParams F) :
    (s.resolve params).schedule.Pairwise fun a b => a.tick ≤ b.tick := by
  have h := List.pairwise_mergeSort before_trans before_total
    (s.events.map (ScenarioEvent.scheduled params))
  refine h.imp ?_
  intro a b hab
  simp only [Scheduled.before, Bool.or_eq_true, Bool.and_eq_true, decide_eq_true_eq] at hab
  omega

end Bess
