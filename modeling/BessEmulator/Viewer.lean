import BessEmulator.Journal
import BessEmulator.PlantTask

/-!
# The viewer's session

The plant as the viewer moves it: frame by frame against the wall clock, or in a
jump a budget at a time; the story it plays, and the commands that change
either. What is only shown (the panel, the story's strip, a jump's bar) is left out.
-/
namespace Bess.Viewer

variable {F : Type} [Scalar F]

/-- A case in force: its fixed schedule and the cursor over it. -/
structure Story (F : Type) where
  resolved : Resolved F
  player : Player F

/-- The plant the viewer steps, and its story. -/
structure Run (F : Type) where
  sim : Simulation F
  story : Option (Story F)

namespace Run

def plain (sim : Simulation F) : Run F := ⟨sim, none⟩

/-- A fresh plant at the case's seed and start, the player at the start of the schedule. -/
def playing (resolved : Resolved F) (cfg : PlantConfig F) (models : Models F) : Run F :=
  ⟨resolved.simulation cfg models, some ⟨resolved, Player.new resolved⟩⟩

/-- Fire what the story has due. -/
def fireDue (run : Run F) : Run F :=
  match run.story with
  | none => run
  | some story =>
    let (player, sim, _) := story.player.fireDue run.sim
    ⟨sim, some { story with player := player }⟩

/-- One tick: fire what the story has due, step, journal the events. -/
def tick (weather : Int → Inputs F) (v : Run F × Journal) : Run F × Journal :=
  let run := v.1.fireDue
  let (sim, journal) := recordStep weather run.sim v.2
  ({ run with sim := sim }, journal)

def unixTimeS (run : Run F) : Int := run.sim.state.unixTimeS

def atTick (run : Run F) (tick : Nat) : Int :=
  run.sim.state.siteMeta.startUnixS + ((tick * TICK_SECONDS : Nat) : Int)

/-- When the next scheduled event fires. -/
def nextEventUnixS (run : Run F) : Option Int := do
  let story ← run.story
  let next ← story.player.schedule[story.player.cursor]?
  return run.atTick next.tick

/-- When the story's stated length runs out. -/
def endUnixS (run : Run F) : Option Int := do
  let story ← run.story
  let ticks ← story.resolved.ticks
  return run.atTick ticks

end Run

/-- A jump in progress. -/
structure FastForward where
  fromUnixS : Int
  targetUnixS : Int
  deriving DecidableEq, Repr

namespace FastForward

/-- Start a jump, or refuse one that does not go forwards. -/
def toward (run : Run F) (targetUnixS : Int) : Option FastForward :=
  if run.unixTimeS < targetUnixS then some ⟨run.unixTimeS, targetUnixS⟩ else none

/-- Advance up to so many ticks toward the target; whether the plant has arrived. -/
def advance (jump : FastForward) (weather : Int → Inputs F) :
    Nat → Run F × Journal → (Run F × Journal) × Bool
  | 0, v => (v, decide (jump.targetUnixS ≤ v.1.unixTimeS))
  | budget + 1, v =>
    if jump.targetUnixS ≤ v.1.unixTimeS then (v, true)
    else advance jump weather budget (Run.tick weather v)

end FastForward

/-- Ticks are capped per frame. -/
def MAX_TICKS_PER_FRAME : Nat := 7200

/-- Ticks per frame while a jump is running. -/
def JUMP_TICKS_PER_FRAME : Nat := 3000

/-- The viewer's state, minus the scene. -/
structure Session (F : Type) where
  run : Run F
  seed : UInt64
  speed : F
  tickAccum : F
  jump : Option FastForward
  journal : Journal

/-- What the panel asks for. -/
inductive ViewerCommand (F : Type) where
  | setSpeed (s : F)
  | setSetpoint (sp : Option F)
  | restartAt (unixS : Int)
  | fastForwardTo (unixS : Int)
  | resetAlarms (scope : ResetScope)
  | startScenario (name : String)
  | runToNextEvent
  | runToEnd

/-- What the session is built with: the site's models and weather, and the
library's cases, those that load against a configuration. -/
structure Site (F : Type) extends Reference F where
  library : String → PlantConfig F → Option (Scenario F)

namespace Session

def SEED : UInt64 := 42

/-- 2026-07-14 11:00:00 UTC. -/
def START_UNIX_S : Int := 1767225600 + 194 * 86400 + 11 * 3600

/-- The site on the opening morning, no story. -/
def new (site : Site F) (cfg : PlantConfig F) : Session F where
  run := Run.plain (Simulation.new cfg (site.models cfg) SEED START_UNIX_S)
  seed := SEED
  speed := 60.0
  tickAccum := 0
  jump := none
  journal := Journal.new

/-- What a number of ticks does to the run and its journal. -/
def tickTimes (weather : Int → Inputs F) (n : Nat) (s : Session F) : Session F :=
  let v := (Run.tick weather)^[n] (s.run, s.journal)
  { s with run := v.1, journal := v.2 }

/-- Advance by so many wall seconds: a slice of the jump in progress if one runs. What is owed, an
`f64` in the viewer, is a number of the session's here. -/
def advance (site : Site F) (s : Session F) (dtS : F) : Session F :=
  match s.jump with
  | some jump =>
    let (v, arrived) := jump.advance site.inputsAt JUMP_TICKS_PER_FRAME (s.run, s.journal)
    let s := { s with run := v.1, journal := v.2 }
    if arrived then { s with jump := none, tickAccum := 0 } else s
  | none =>
    let tickAccum := s.tickAccum + min dtS 0.25 * s.speed
    let ticks := min (Scalar.trunc tickAccum).toNat MAX_TICKS_PER_FRAME
    let s := { s with tickAccum := max (tickAccum - (ticks : F)) 0 }
    s.tickTimes site.inputsAt ticks

def jumpTo (s : Session F) (target : Option Int) : Session F :=
  match s.jump with
  | none => { s with jump := target.bind (FastForward.toward s.run) }
  | some _ => s

/-- The numbering starts over with a new plant, so the journal and any jump go too. -/
def forgetTheOldPlant (s : Session F) : Session F :=
  { s with jump := none, tickAccum := 0, journal := s.journal.clear }

/-- Throw the plant away and build a fresh one on another date, leaving any story. -/
def restartAt (site : Site F) (s : Session F) (unixS : Int) : Session F :=
  let cfg := s.run.sim.cfg
  { s with
    run := Run.plain (Simulation.new cfg (site.models cfg) s.seed unixS) }.forgetTheOldPlant

/-- Start a case as a load does; what the file leaves out comes from the session. -/
def play (site : Site F) (s : Session F) (scenario : Scenario F) : Session F :=
  let params : RunParams F :=
    { seed := scenario.seed.getD s.seed
      startUnixS := scenario.startUnixS.getD s.run.unixTimeS
      speed := scenario.speed.getD s.speed }
  let resolved := scenario.resolve params
  let cfg := s.run.sim.cfg
  { s with
    run := Run.playing resolved cfg (site.models cfg)
    speed := Scalar.clamp params.speed 1.0 3600.0 }.forgetTheOldPlant

/-- Carry out one command from the panel. -/
def apply (site : Site F) (s : Session F) : ViewerCommand F → Session F
  | .setSpeed speed => { s with speed := Scalar.clamp speed 1.0 3600.0 }
  | .setSetpoint sp => { s with run := { s.run with sim := s.run.sim.setExternalSetpointW sp } }
  | .restartAt unixS => s.restartAt site unixS
  | .fastForwardTo unixS => s.jumpTo (some unixS)
  | .resetAlarms scope => { s with run := { s.run with sim := s.run.sim.command (.resetAlarms scope) } }
  | .startScenario name =>
    match site.library name s.run.sim.cfg with
    | some scenario => s.play site scenario
    | none => s
  | .runToNextEvent => s.jumpTo s.run.nextEventUnixS
  | .runToEnd => s.jumpTo s.run.endUnixS

/-- What happens to a session: a frame, a command, or a loaded file. -/
inductive Input (F : Type) where
  | frame (dtS : F)
  | command (c : ViewerCommand F)
  | load (scenario : Scenario F)

def input (site : Site F) (s : Session F) : Input F → Session F
  | .frame dtS => s.advance site dtS
  | .command c => s.apply site c
  | .load scenario => s.play site scenario

def inputs (site : Site F) (s : Session F) (is : List (Input F)) : Session F := is.foldl (input site) s

end Session

end Bess.Viewer
