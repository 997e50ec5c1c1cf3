import BessEmulator.Bisect
import BessEmulator.Runs
import BessEmulator.Schema

/-!
# The player

A cursor over a resolved schedule. Before each tick it hands out what is due
and applies the physical part through the kernel's door; it never steps.
-/
namespace Bess

variable {F : Type}

structure Player (F : Type) where
  schedule : List (Scheduled F)
  cursor : Nat

/-- A physical event the kernel refused. -/
structure Refused where
  index : Nat
  error : FaultError
  deriving DecidableEq, Repr

/-- What came due, and the first refusal if any. -/
structure Fired (F : Type) where
  due : List (Scheduled F)
  refused : Option Refused

namespace Player

def new (resolved : Resolved F) : Player F := ⟨resolved.schedule, 0⟩

/-- Everything due before `tick` is stepped and not yet handed out. -/
def due (p : Player F) (tick : Nat) : List (Scheduled F) × Player F :=
  let due := (p.schedule.drop p.cursor).takeWhile fun s => s.tick ≤ tick
  (due, { p with cursor := p.cursor + due.length })

/-- A resumed run has already applied everything before `tick`. -/
def catchUp (p : Player F) (tick : Nat) : Player F :=
  { p with cursor := Bisect.partitionPoint (fun s => s.tick < tick) p.schedule }

variable [Scalar F]

/-- One due event: a physical action through the door, its first refusal kept. -/
def fire (p : Simulation F × Option Refused) (s : Scheduled F) : Simulation F × Option Refused :=
  match s.due with
  | .physical action =>
    match p.1.apply action with
    | (.ok _, sim) => (sim, p.2)
    | (.error e, sim) => (sim, p.2.or (some ⟨s.index, e⟩))
  | .data _ => p

def fireDue (p : Player F) (sim : Simulation F) : Player F × Simulation F × Fired F :=
  let (due, p) := p.due sim.state.tick
  let (sim, refused) := due.foldl fire (sim, none)
  (p, sim, ⟨due, refused⟩)

/-- What the actions keep, a due event keeps. -/
theorem kept_fire {P : SiteState F → Prop} (hP : KeptByActions P)
    (p : Simulation F × Option Refused) (s : Scheduled F) (h : P p.1.state) :
    P (fire p s).1.state := by
  cases hd : s.due with
  | data fault =>
    simp only [fire, hd]
    exact h
  | physical action =>
    have hleft := kept_applyAction hP p.1.models p.1.cfg action h
    cases ha : applyAction p.1.models p.1.cfg p.1.state action with
    | mk answer after =>
      rw [ha] at hleft
      simp only [fire, hd, Simulation.apply, ha]
      cases answer <;> exact hleft

theorem kept_fireDue {P : SiteState F → Prop} (hP : KeptByActions P) (p : Player F)
    (sim : Simulation F) (h : P sim.state) : P (p.fireDue sim).2.1.state := by
  have hfold : ∀ (ss : List (Scheduled F)) (q : Simulation F × Option Refused), P q.1.state →
      P (ss.foldl fire q).1.state := by
    intro ss
    induction ss with
    | nil => intro q hq; exact hq
    | cons s ss ih => intro q hq; exact ih _ (kept_fire hP q s hq)
  exact hfold _ (sim, none) h

end Player

variable [Scalar F]

/-- A simulation under a scenario. -/
structure Play (F : Type) where
  sim : Simulation F
  player : Player F

/-- What happens to a run: an operator's command, or a tick. -/
inductive Op (F : Type) where
  | command (c : Command F)
  | tick

/-- Fire what is due, then step under the weather of the hour. -/
def Play.tick (weather : Int → Inputs F) (p : Play F) : Play F :=
  let (player, sim, _) := p.player.fireDue p.sim
  { sim := sim.step (weather sim.state.unixTimeS), player := player }

def Play.op (weather : Int → Inputs F) (p : Play F) : Op F → Play F
  | .command c => { p with sim := p.sim.command c }
  | .tick => p.tick weather

def Play.run (weather : Int → Inputs F) (p : Play F) (ops : List (Op F)) : Play F :=
  ops.foldl (Play.op weather) p

/-- How many ticks a run steps. -/
def ticksOf (ops : List (Op F)) : Nat :=
  (ops.filter fun op => match op with | .tick => true | .command _ => false).length

/-- A scenario's run from its start. -/
def Resolved.play (r : Resolved F) (cfg : PlantConfig F) (models : Models F) : Play F :=
  ⟨r.simulation cfg models, Player.new r⟩

end Bess
