import BessEmulator.Outbox
import BessEmulator.PlantTask

/-!
# The MQTT publisher

Cadence points by class in simulation time, alarm words on change, every
message through the tap and the outbox. A wake reads the snapshot published
last. A payload is what its text is printed from.
-/
namespace Bess

def TOPIC_PREFIX : String := "bess/gw01/"

/-- Topic of a signal-map point: its dotted name as a path. -/
def pointTopic (name : String) : String :=
  TOPIC_PREFIX ++ name.map fun c => if c = '.' then '/' else c

/-- What a payload's text says: a reading, or an event and its number. -/
inductive Payload (F : Type) where
  | point (ts : Int) (value : Reading F) (unit : String)
  | event (event : Event) (seq : Nat) (ts : Int)

/-- Whether a class last published at `last` is due again at `now`. -/
def due (last : Option Int) (now period : Int) : Bool :=
  match last with
  | none => true
  | some t => decide (period ≤ now - t)

/-- The cadence classes: fast, medium, slow. -/
abbrev Cadence := Fin 3

def Cadence.periodS : Cadence → Int := ![1, 10, 60]

def classIndex : PointClass → Option Cadence
  | .fast => some 0
  | .medium => some 1
  | .slow => some 2
  | .event => none

/-- The table of periods is the classes' own. -/
theorem classIndex_periodS (c : PointClass) : (classIndex c).map Cadence.periodS = c.periodS := by
  cases c <;> rfl

theorem periodS_pos (i : Cadence) : 0 < i.periodS := by
  revert i
  decide

/-- What the publisher remembers between wakes. -/
structure Publisher (F S : Type) where
  client : S
  points : List (Point F)
  /-- Simulation time of the last publication per cadence class. -/
  lastPubS : Cadence → Option Int
  /-- Last value published per event-class point. -/
  lastEventValue : List (Option (Reading F))
  /-- The connection `lastEventValue` was published on. -/
  publishedOn : Nat
  outbox : Outbox (Payload F)

section

variable {F : Type} [Scalar F]

/-- The device's clock: the plant's time and the drift the tap has open, in whole seconds. -/
def deviceTimeS (snap : Snapshot F) : Int :=
  snap.state.unixTimeS + Scalar.trunc (Scalar.round (snap.taps.driftS .mqtt snap.state.tick))

/-- A word with its lowest bit flapped. -/
def flapped (word : Reading F) : Reading F :=
  match word with
  | none => some ((1 : Nat) : F)
  | some word => some (((Scalar.toU32 word ^^^ 1).toNat : Nat) : F)

/-- Equality of two readings, which no NaN has. -/
def sameReading : Reading F → Reading F → Bool
  | some x, some y => decide (x ≤ y) && decide (y ≤ x)
  | _, _ => false

def cadenceMessage (snap : Snapshot F) (p : Point F × Nat) : Message (Payload F) where
  topic := pointTopic p.1.name
  payload := .point (deviceTimeS snap)
    (snap.taps.value .mqtt p.2 snap.state.tick (p.1.extract snap.state)) p.1.unit
  qos := .atMostOnce
  retain := false

/-- What an event-class point reads, its flap included. -/
def wordReading (snap : Snapshot F) (p : Point F × Nat) : Reading F :=
  let value := snap.taps.value .mqtt p.2 snap.state.tick (p.1.extract snap.state)
  if snap.taps.flipped .mqtt p.2 snap.state.tick then flapped value else value

def wordMessage (snap : Snapshot F) (p : Point F × Nat) : Message (Payload F) where
  topic := pointTopic p.1.name
  payload := .point (deviceTimeS snap) (wordReading snap p) p.1.unit
  qos := .atLeastOnce
  retain := true

/-- Whether a point is one of a cadence class that is due. -/
def cadenceDue (last : Cadence → Option Int) (now : Int) (p : Point F × Nat) : Bool :=
  match classIndex p.1.pointClass, p.1.pointClass.periodS with
  | some i, some period => due (last i) now period
  | _, _ => false

variable {S : Type} [Sink (Payload F) S]

namespace Publisher

/-- A publisher that has published nothing. -/
def new (client : S) (points : List (Point F)) : Publisher F S where
  client := client
  points := points
  lastPubS _ := none
  lastEventValue := points.map fun _ => none
  publishedOn := 0
  outbox := .empty

/-- Replay what a burst owes, ahead of anything live. -/
def backfill (pub : Publisher F S) (snap : Snapshot F) : Publisher F S :=
  let (outbox, client) := pub.outbox.backfill pub.client snap.taps snap.state.tick
  { pub with outbox := outbox, client := client }

/-- The loop over the map: the points that are due, up to the first refusal;
beside it the points whose message the outbox took. -/
def cadenceLoop (last : Cadence → Option Int) (snap : Snapshot F) :
    List (Point F × Nat) → Outbox (Payload F) × S →
      (Outbox (Payload F) × S) × List (Point F × Nat)
  | [], door => (door, [])
  | p :: ps, (outbox, client) =>
    if cadenceDue last snap.state.unixTimeS p then
      match outbox.send client snap.taps snap.state.tick (cadenceMessage snap p) with
      | (outbox, client, .ok _) =>
        let (door, sent) := cadenceLoop last snap ps (outbox, client)
        (door, p :: sent)
      -- broker down or queue full: the batch is dropped
      | (outbox, client, .error _) => ((outbox, client), [])
    else cadenceLoop last snap ps (outbox, client)

/-- The cadence points whose class period has elapsed, and which of them went out. -/
def publishCadence (pub : Publisher F S) (snap : Snapshot F) :
    Publisher F S × List (Point F × Nat) :=
  let now := snap.state.unixTimeS
  let ((outbox, client), sent) :=
    cadenceLoop pub.lastPubS snap pub.points.zipIdx (pub.outbox, pub.client)
  ({ pub with
      outbox := outbox
      client := client
      lastPubS := fun i => if due (pub.lastPubS i) now i.periodS then some now else pub.lastPubS i },
    sent)

/-- Whether a point reads what was published of it last. -/
def unchanged (pub : Publisher F S) (snap : Snapshot F) (p : Point F × Nat) : Bool :=
  match (pub.lastEventValue[p.2]?).join with
  | some last => sameReading last (wordReading snap p)
  | none => false

/-- One event-class point, if its value differs from what was last published. -/
def publishWord (snap : Snapshot F) (pub : Publisher F S) (p : Point F × Nat) : Publisher F S :=
  if p.1.pointClass ≠ .event || pub.unchanged snap p then pub
  else
    match pub.outbox.send pub.client snap.taps snap.state.tick (wordMessage snap p) with
    | (outbox, client, .ok _) =>
      { pub with
        outbox := outbox
        client := client
        lastEventValue := pub.lastEventValue.set p.2 (some (wordReading snap p)) }
    -- left unrecorded, so the next wake tries again
    | (outbox, client, .error _) => { pub with outbox := outbox, client := client }

/-- Forget what was published, on a new connection or after a dropout. -/
def forget (pub : Publisher F S) (snap : Snapshot F) (connection : Nat) : Publisher F S :=
  let (outbox, returned) := pub.outbox.takeReturned snap.taps snap.state.tick
  if connection ≠ pub.publishedOn || returned then
    { pub with
      outbox := outbox
      lastEventValue := pub.lastEventValue.map fun _ => none
      publishedOn := connection }
  else { pub with outbox := outbox }

/-- The event-class points whose value differs from what was last published. -/
def publishChanged (pub : Publisher F S) (snap : Snapshot F) (connection : Nat) : Publisher F S :=
  pub.points.zipIdx.foldl (publishWord snap) (pub.forget snap connection)

/-- One wake of the ticker. -/
def wake (pub : Publisher F S) (snap : Snapshot F) (connection : Nat) : Publisher F S :=
  (((pub.backfill snap).publishCadence snap).1).publishChanged snap connection

end Publisher

end

end Bess
