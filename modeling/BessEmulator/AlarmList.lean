import BessEmulator.AlarmMap
import BessEmulator.EventFeed

/-!
# The surfaces that count alarms

What is active now, as the viewer lists it and as the scraping surface gauges it;
and what was raised over a run, as the annual record counts it. The present is
read off the alarm words every time and never kept.
-/
namespace Bess

variable {F : Type}

/-- One bit set on site right now. -/
structure ActiveAlarm where
  node : AlarmNode
  bit : Nat
  deriving DecidableEq

namespace ActiveAlarm

/-- The kernel's severity, read off the bit position. -/
def severity (a : ActiveAlarm) : Severity := Severity.ofBit a.bit

/-- Its published name. -/
def name (a : ActiveAlarm) : String := a.node.alarmName a.bit

/-- What the list is sorted by: trips come first. -/
def key (a : ActiveAlarm) : Bool := decide (a.severity ≠ .trip)

end ActiveAlarm

/-- The set bits of one word. -/
def wordAlarms (node : AlarmNode) (word : BitVec 32) : List ActiveAlarm :=
  ((List.range 32).filter fun bit => hasBit word bit).map fun bit => ⟨node, bit⟩

/-- Every set bit in tree order: the site, then each block followed by its racks. -/
def walkAlarms (state : SiteState F) : List ActiveAlarm :=
  wordAlarms .site state.alarmBits ++
    state.blocks.zipIdx.flatMap fun (blk, b) =>
      wordAlarms (.block b) blk.alarmBits ++
        blk.containers.zipIdx.flatMap fun (cont, c) =>
          cont.racks.zipIdx.flatMap fun (rk, r) => wordAlarms (.rack b c r) rk.alarmBits

/-- Every set bit of the three words, trips first, then in tree order, then by bit. -/
def activeAlarms (state : SiteState F) : List ActiveAlarm :=
  (walkAlarms state).mergeSort fun a b => !a.key || b.key

/-- One sample: on how many nodes a laid-out alarm is active. -/
structure Gauge where
  alarm : String
  severity : Severity
  active : Nat
  deriving DecidableEq

/-- Published name of a severity. -/
def Severity.name : Severity → String
  | .warning => "warning"
  | .trip => "trip"

/-- A sample's line. -/
def Gauge.line (g : Gauge) : String :=
  "bess_alarms_active\x7balarm=\"" ++ g.alarm ++ "\",severity=\"" ++ g.severity.name ++ "\"\x7d " ++
    toString g.active

/-- One sample for each laid-out bit of a word. -/
def activeGauges (word : String) (names : List (Nat × String)) (words : List (BitVec 32)) : List Gauge :=
  names.map fun (bit, name) =>
    ⟨word ++ "." ++ name, Severity.ofBit bit, words.countP fun w => hasBit w bit⟩

/-- The samples of a tree. -/
def alarmGauges (s : SiteState F) : List Gauge :=
  activeGauges "rack" RackBit.NAMES (s.racks.map RackState.alarmBits) ++
    activeGauges "block" BlockBit.NAMES (s.blocks.map BlockState.alarmBits) ++
    activeGauges "site" SiteBit.NAMES [s.alarmBits]

/-- Raise counts over a run; an alarm that never raised has none. -/
structure AlarmKpis where
  tripsRaised : Nat
  warningsRaised : Nat
  raisedByAlarm : String → Option Nat

namespace AlarmKpis

def zero : AlarmKpis := ⟨0, 0, fun _ => none⟩

/-- The name a raise is counted under. -/
def nameOf (node : AlarmNode) (bit : Nat) : String :=
  match node.names.find? fun p => p.1 == bit with
  | some (_, name) => node.word ++ "." ++ name
  | none => "unlaid." ++ toString bit

/-- Count one event. -/
def count (k : AlarmKpis) : Event → AlarmKpis
  | .alarmRaised node bit severity =>
    let name := nameOf node bit
    { tripsRaised := if severity = .trip then k.tripsRaised + 1 else k.tripsRaised
      warningsRaised := if severity = .trip then k.warningsRaised else k.warningsRaised + 1
      raisedByAlarm := Function.update k.raisedByAlarm name (some ((k.raisedByAlarm name).getD 0 + 1)) }
  | .alarmCleared .. | .pcsStateChanged .. | .faultApplied _ => k

/-- Count one tick's events. -/
def observe (k : AlarmKpis) (events : List Event) : AlarmKpis := events.foldl count k

end AlarmKpis

/-- One tick of a pass: the plant steps, and its events are counted. -/
def alarmTick [Scalar F] (ref : Reference F) (p : Simulation F × AlarmKpis) : Simulation F × AlarmKpis :=
  let sim := p.1.step (ref.inputsAt p.1.state.unixTimeS)
  (sim, p.2.observe sim.events)

def alarmTicks [Scalar F] (ref : Reference F) (n : Nat) (p : Simulation F × AlarmKpis) :
    Simulation F × AlarmKpis := (alarmTick ref)^[n] p

end Bess
