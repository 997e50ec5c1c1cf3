import BessEmulator.Player
import BessEmulator.SignalMap
import BessEmulator.Word64

/-!
# Data faults on the read path

The data events of a schedule as windows in ticks, each with the points it
selects and, for a freeze, the values captured when it opened; and the
scenario in force, which opens them. A reading is a number or NaN.
-/
namespace Bess

/-- What a point reads: a number, or NaN. -/
abbrev Reading (F : Type) := Option F

structure Window (F : Type) where
  index : Nat
  surface : Surface
  kind : DataFaultKind
  start : Nat
  /-- The first tick after it; none runs to the end of the run. -/
  stop : Option Nat
  selected : List Bool
  exponent : Int
  ratePerMin : F
  driftSPerH : F
  frozen : Option (List F)

structure Taps (F : Type) where
  windows : List (Window F)

section

variable {F : Type}

def Window.covers (w : Window F) (tick : Nat) : Bool :=
  decide (w.start ≤ tick) &&
    match w.stop with
    | none => true
    | some stop => decide (tick < stop)

/-- A freeze holds what its event found. -/
def Window.capture (index : Nat) (values : List F) (w : Window F) : Window F :=
  if w.index = index ∧ w.kind = .freeze then { w with frozen := some values } else w

namespace Taps

/-- No windows: what the surfaces read without a scenario. -/
def empty : Taps F := ⟨[]⟩

def «open» (t : Taps F) (index : Nat) (values : List F) : Taps F :=
  ⟨t.windows.map (Window.capture index values)⟩

def openAt (t : Taps F) (surface : Surface) (tick : Nat) : List (Window F) :=
  t.windows.filter fun w => decide (w.surface = surface) && w.covers tick

def anyOpen (t : Taps F) (surface : Surface) (tick : Nat) : Bool :=
  !(t.openAt surface tick).isEmpty

def dropout (t : Taps F) (surface : Surface) (tick : Nat) : Bool :=
  (t.openAt surface tick).any fun w => decide (w.kind = .dropout)

/-- The bursts whose instant has passed. -/
def backfillsDue (t : Taps F) (surface : Surface) (tick : Nat) : List (Window F) :=
  t.windows.filter fun w =>
    decide (w.surface = surface) && decide (w.kind = .backfillBurst) && decide (w.start ≤ tick)

end Taps

/-- `block{N:02}`. -/
def blockPrefix (block : Nat) : String :=
  if block < 10 then s!"block0{block}" else s!"block{block}"

/-- Whether a selector names a point. -/
def Selector.names (points : Option Selector) (name : String) : Bool :=
  match points with
  | some .all => true
  | some .site => name.startsWith "site."
  | some (.block b) => name.startsWith (blockPrefix b ++ ".")
  | some (.pcs b) => name.startsWith (blockPrefix b ++ ".pcs.")
  | none => false

/-- Whether a kind corrupts a point: words are no quantities, and only words flap. -/
def DataFaultKind.reaches (kind : DataFaultKind) (point : Point F) : Bool :=
  match kind with
  | .freeze => true
  | .unitError | .nanBurst => decide (point.pointClass ≠ .event)
  | .chatter => decide (point.pointClass = .event) && point.name.endsWith "alarm_bits"
  | .dropout | .timestampDrift | .backfillBurst => false

/-- The control registers are the operator's words, never the device's. -/
def selects (kind : DataFaultKind) (points : Option Selector) (point : Point F) : Bool :=
  if point.space = .holding then false
  else Selector.names points point.name && kind.reaches point

variable [Scalar F]

/-- `10f64.powi(n)`. -/
def powTen : Int → F
  | .ofNat n => ((10 ^ n : Nat) : F)
  | .negSucc n => 1 / ((10 ^ (n + 1) : Nat) : F)

def windowOf (index start : Nat) (fault : DataFault F) (points : List (Point F)) : Window F where
  index := index
  surface := fault.surface
  kind := fault.fault
  start := start
  stop :=
    match fault.fault with
    | .backfillBurst => some start
    | _ => fault.durationS.map fun d => U64.add start (d / TICK_SECONDS)
  selected := points.map (selects fault.fault fault.points)
  exponent := fault.exponent.getD 0
  ratePerMin := fault.ratePerMin.getD 0.0
  driftSPerH := fault.driftSPerH.getD 0.0
  frozen := none

def Scheduled.window (points : List (Point F)) (s : Scheduled F) : Option (Window F) :=
  match s.due with
  | .data fault => some (windowOf s.index s.tick fault points)
  | .physical _ => none

namespace Taps

def new (resolved : Resolved F) (points : List (Point F)) : Taps F :=
  ⟨resolved.schedule.filterMap (Scheduled.window points)⟩

/-- One window of the fold: what it makes of the value read so far. -/
def corrupt (index : Nat) (read : Reading F) (w : Window F) : Reading F :=
  match w.kind with
  | .freeze =>
    match w.frozen with
    | some frozen => some (frozen.getD index 0)
    | none => read
  | .unitError => read.map fun x => x * powTen w.exponent
  | .nanBurst => none
  | _ => read

/-- The open windows that select a point, in schedule order. -/
def onPoint (t : Taps F) (surface : Surface) (index tick : Nat) : List (Window F) :=
  (t.openAt surface tick).filter fun w => w.selected.getD index false

/-- What point `index` reads when the truth is `value`. -/
def value (t : Taps F) (surface : Surface) (index tick : Nat) (value : F) : Reading F :=
  (t.onPoint surface index tick).foldl (corrupt index) (some value)

/-- The fractional part of a nonnegative number. -/
def fract (x : F) : F := x - Scalar.ofInt (Scalar.trunc x)

/-- Whether the chatters on a point leave its bit flipped: two flips cancel. -/
def flipped (t : Taps F) (surface : Surface) (index tick : Nat) : Bool :=
  ((t.openAt surface tick).filter fun w =>
      decide (w.kind = .chatter) && w.selected.getD index false).foldl
    (fun flipped w =>
      let flaps : F := ((tick - w.start : Nat) : F) * w.ratePerMin / 60.0
      xor flipped (decide (0.5 ≤ fract flaps))) false

/-- How far the device clock has drifted, seconds, over every drift open. -/
def driftS (t : Taps F) (surface : Surface) (tick : Nat) : F :=
  ((t.openAt surface tick).filter fun w => decide (w.kind = .timestampDrift)).foldl
    (fun drift w => drift + w.driftSPerH * ((tick - w.start : Nat) : F) / 3600.0) 0.0

end Taps

structure Active (F : Type) where
  resolved : Resolved F
  player : Player F
  points : List (Point F)
  taps : Taps F

namespace Active

def new (resolved : Resolved F) (points : List (Point F)) : Active F where
  resolved := resolved
  player := Player.new resolved
  points := points
  taps := Taps.new resolved points

/-- A data event opens on the tap; a freeze captures what the points read now. -/
def openTap (points : List (Point F)) (state : SiteState F) (taps : Taps F) (s : Scheduled F) :
    Taps F :=
  match s.due with
  | .physical _ => taps
  | .data fault =>
    if fault.fault = .freeze then taps.open s.index (points.map fun p => p.extract state) else taps

/-- Hand the kernel what is due, open the data faults; whether anything fired. -/
def fireDue (a : Active F) (sim : Simulation F) : Active F × Simulation F × Bool :=
  let (player, sim, fired) := a.player.fireDue sim
  ({ a with
      player := player
      taps := fired.due.foldl (openTap a.points sim.state) a.taps }, sim, !fired.due.isEmpty)

end Active

/-- A window without what a freeze has captured. -/
def Window.scheduled (w : Window F) : Window F := { w with frozen := none }

omit [Scalar F] in
theorem open_scheduled (t : Taps F) (index : Nat) (values : List F) :
    (t.open index values).windows.map Window.scheduled = t.windows.map Window.scheduled := by
  rw [Taps.open]
  rw [List.map_map]
  apply List.map_congr_left
  intro w _
  simp only [Function.comp, Window.capture]
  split <;> rfl

omit [Scalar F] in
/-- Whatever fires, the windows stay those of the schedule, in its order. -/
theorem openTaps_scheduled (points : List (Point F)) (state : SiteState F) (due : List (Scheduled F))
    (t : Taps F) :
    (due.foldl (Active.openTap points state) t).windows.map Window.scheduled =
      t.windows.map Window.scheduled := by
  induction due generalizing t with
  | nil => rfl
  | cons s ss ih =>
    rw [List.foldl_cons, ih, Active.openTap]
    cases s.due with
    | physical action => rfl
    | data fault =>
      simp only
      split
      · exact open_scheduled t s.index _
      · rfl

omit [Scalar F] in
/-- Silence, bursts and the clock know nothing of what a freeze captured. -/
theorem openAt_scheduled (t : Taps F) (surface : Surface) (tick : Nat) :
    (t.openAt surface tick).map Window.scheduled =
      (t.windows.map Window.scheduled).filter
        fun w => decide (w.surface = surface) && w.covers tick := by
  rw [Taps.openAt, List.filter_map]
  rfl

omit [Scalar F] in
theorem backfillsDue_scheduled (t : Taps F) (surface : Surface) (tick : Nat) :
    (t.backfillsDue surface tick).map Window.scheduled =
      (t.windows.map Window.scheduled).filter fun w =>
        decide (w.surface = surface) && decide (w.kind = .backfillBurst) && decide (w.start ≤ tick) := by
  rw [Taps.backfillsDue, List.filter_map]
  rfl

omit [Scalar F] in
theorem dropout_scheduled {t t' : Taps F}
    (h : t.windows.map Window.scheduled = t'.windows.map Window.scheduled) (surface : Surface)
    (tick : Nat) : t.dropout surface tick = t'.dropout surface tick := by
  have hany : ∀ t : Taps F, t.dropout surface tick =
      ((t.openAt surface tick).map Window.scheduled).any fun w => decide (w.kind = .dropout) := by
    intro t
    rw [List.any_map]
    rfl
  rw [hany, hany, openAt_scheduled, openAt_scheduled, h]

end

end Bess
