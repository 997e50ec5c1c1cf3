import BessEmulator.Publisher

/-!
# Events on their way to the broker

A tick hands its events out as one numbered batch, beside the snapshot that
shows their effect. The broadcast channel queues the batches; the publisher
takes them in order and consults the snapshot published last.
-/
namespace Bess

def twoDigits (n : Nat) : String := if n < 10 then s!"0{n}" else s!"{n}"

/-- `site`, `block02`, `block02/container1/rack05`. -/
def AlarmNode.path : AlarmNode → String
  | .site => "site"
  | .block b => s!"block{twoDigits b}"
  | .rack b c r => s!"block{twoDigits b}/container{c}/rack{twoDigits r}"

/-- The word the node carries. -/
def AlarmNode.word : AlarmNode → String
  | .site => "site"
  | .block _ => "block"
  | .rack .. => "rack"

def RackBit.NAMES : List (Nat × String) :=
  [(OVER_TEMP_WARNING, "over_temp_warning"), (UNDER_TEMP_WARNING, "under_temp_warning"),
    (SOC_HIGH, "soc_high"), (SOC_LOW, "soc_low"), (IMBALANCE_WARNING, "imbalance_warning"),
    (DERATE_ACTIVE, "derate_active"), (ISOLATED, "isolated"), (OVER_TEMP_TRIP, "over_temp_trip"),
    (IMBALANCE_TRIP, "imbalance_trip"), (UNDER_TEMP_TRIP, "under_temp_trip")]

def BlockBit.NAMES : List (Nat × String) :=
  [(SETPOINT_NOT_MET, "setpoint_not_met"), (CONTAINER_OVER_TEMP, "container_over_temp"),
    (HVAC_FAILURE, "hvac_failure"), (MAINTENANCE, "maintenance"), (PCS_FAULT, "pcs_fault")]

def SiteBit.NAMES : List (Nat × String) :=
  [(POWER_LIMITED, "power_limited"), (PARTIAL_AVAILABILITY, "partial_availability"),
    (HV_BREAKER_OPEN, "hv_breaker_open"), (PROTECTION_TRIP, "protection_trip")]

def AlarmNode.names : AlarmNode → List (Nat × String)
  | .site => SiteBit.NAMES
  | .block _ => BlockBit.NAMES
  | .rack .. => RackBit.NAMES

/-- Published name of a bit, or of a position the layout leaves free. -/
def AlarmNode.alarmName (node : AlarmNode) (bit : Nat) : String :=
  match node.names.find? fun p => p.1 == bit with
  | some (_, name) => s!"{node.word}.{name}"
  | none => s!"{node.word}.bit{bit}"

/-- Path of the node a fault action acted on. -/
def FaultAction.nodePath : FaultAction → String
  | .hvacFailure block container | .hvacRepair block container =>
    s!"block{twoDigits block}/container{container}/hvac"
  | .pcsTrip block | .blockMaintenanceEnter block | .blockMaintenanceExit block
  | .alarmReset (.block block) => AlarmNode.path (.block block)
  | .protectionTrip | .alarmReset .site => AlarmNode.path .site
  | .rackSelfDischarge block container rack _ | .rackIsolate block container rack
  | .rackRestore block container rack | .alarmReset (.rack block container rack) =>
    AlarmNode.path (.rack block container rack)

/-- What follows the first dot; the whole name if it has none. -/
def afterDot (name : String) : String :=
  match name.toList.dropWhile fun c => c != '.' with
  | [] => name
  | _ :: rest => String.ofList rest

/-- `events::topic`. -/
def eventTopic (topicPrefix : String) : Event → String
  | .alarmRaised node bit _ | .alarmCleared node bit _ =>
    s!"{topicPrefix}events/{node.path}/{afterDot (node.alarmName bit)}"
  | .pcsStateChanged block _ _ => s!"{topicPrefix}events/block{twoDigits block}/pcs/state"
  | .faultApplied action => s!"{topicPrefix}events/{action.nodePath}/fault"

/-- The events one tick emitted, numbered by their place in the kernel's log. -/
structure TickEvents where
  /-- Simulation time of the snapshot that shows their effect. -/
  unixTimeS : Int
  firstSeq : Nat
  events : List Event

/-- Each event with its log number. -/
def TickEvents.numbered (batch : TickEvents) : List (Event × Nat) :=
  batch.events.zipIdx batch.firstSeq

variable {F : Type}

/-- What the tick just stepped hands out, if anything. -/
def Task.batch (t : Task F) : Option TickEvents :=
  if t.sim.events = [] then none
  else some
    { unixTimeS := t.sim.state.unixTimeS
      firstSeq := t.sim.state.eventLog.count + 1 - t.sim.events.length
      events := t.sim.events }

/-- Ticks with events a surface may fall behind by before it starts losing them. -/
def EVENT_BACKLOG : Nat := 4096

/-- A receiver's end of the broadcast channel. -/
structure Feed (α : Type) where
  batches : List α
  /-- Batches pushed out since the receiver last looked. -/
  lost : Nat

namespace Feed

variable {α : Type}

def empty : Feed α := ⟨[], 0⟩

/-- A full channel pushes its oldest batch out. -/
def send (f : Feed α) (batch : α) : Feed α :=
  if f.batches.length = EVENT_BACKLOG then ⟨f.batches.tail ++ [batch], f.lost + 1⟩
  else { f with batches := f.batches ++ [batch] }

/-- The oldest batch; `Lagged` first if some were pushed out. -/
def recv (f : Feed α) : Feed α × Option (Except Nat α) :=
  if f.lost ≠ 0 then ({ f with lost := 0 }, some (.error f.lost))
  else
    match f.batches with
    | [] => (f, none)
    | batch :: rest => ({ f with batches := rest }, some (.ok batch))

end Feed

variable [Scalar F]

/-- The drift the tap has open, in whole seconds. -/
def driftWholeS (snap : Snapshot F) : Int :=
  Scalar.trunc (Scalar.round (snap.taps.driftS .mqtt snap.state.tick))

def eventMessage (drift : Int) (batch : TickEvents) (e : Event × Nat) : Message (Payload F) where
  topic := eventTopic TOPIC_PREFIX e.1
  payload := .event e.1 e.2 (batch.unixTimeS + drift)
  qos := .atLeastOnce
  retain := false

namespace Publisher

variable {S : Type} [Sink (Payload F) S]

/-- One event of the loop; what the client refuses is not repeated. -/
def publishEvent (snap : Snapshot F) (batch : TickEvents) (pub : Publisher F S) (e : Event × Nat) :
    Publisher F S :=
  let (outbox, client, _) := pub.outbox.send pub.client snap.taps snap.state.tick
    (eventMessage (driftWholeS snap) batch e)
  { pub with outbox := outbox, client := client }

/-- Every event of one tick, in log order, stamped by the device clock. -/
def publishEvents (snap : Snapshot F) (batch : TickEvents) (pub : Publisher F S) : Publisher F S :=
  batch.numbered.foldl (publishEvent snap batch) pub

/-- A batch off the channel: its events, then the words. -/
def takeBatch (pub : Publisher F S) (snap : Snapshot F) (batch : TickEvents) (connection : Nat) :
    Publisher F S :=
  (pub.publishEvents snap batch).publishChanged snap connection

end Publisher

end Bess
