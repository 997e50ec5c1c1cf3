import BessEmulator.Taps

/-!
# The MQTT outbox

The publisher's door to the wire: messages of a dropout are stored, a backfill
burst replays the store ahead of anything live, a slice of it per call.
-/
namespace Bess

/-- Messages a dropout keeps before it starts forgetting the oldest. -/
def STORE : Nat := 65536

/-- Stored messages a replay hands the client per wake. -/
def BURST : Nat := 512

inductive QoS
  | atMostOnce
  | atLeastOnce
  | exactlyOnce
deriving DecidableEq

/-- One message as the publisher built it; the outbox never looks into its payload. -/
structure Message (P : Type) where
  topic : String
  payload : P
  qos : QoS
  retain : Bool

variable {P : Type}

/-- What the store replays is history by then, never state. -/
def Message.history (msg : Message P) : Message P := { msg with retain := false }

/-- A request the client's queue had no room for. -/
structure ClientError (P : Type) where
  request : Message P

/-- The wire the outbox hands messages to. -/
class Sink (P : outParam Type) (S : Type) where
  publish : S → Message P → S × Except (ClientError P) Unit

structure Outbox (P : Type) where
  store : List (Message P)
  /-- Whether the last message found the device offline. -/
  offline : Bool
  /-- Whether a dropout ended since the publisher last asked. -/
  returned : Bool
  /-- Backfill bursts begun, by event index. -/
  replayed : List Nat
  /-- Whether a burst is still draining the store. -/
  replaying : Bool
  /-- Messages the full store forgot during the current dropout. -/
  forgotten : Nat

namespace Outbox

/-- `Outbox::default`. -/
def empty : Outbox P where
  store := []
  offline := false
  returned := false
  replayed := []
  replaying := false
  forgotten := 0

variable {F : Type}

/-- Follow the tap at `tick`; whether the device is offline now. -/
def observe (o : Outbox P) (taps : Taps F) (tick : Nat) : Outbox P × Bool :=
  let offline := taps.dropout .mqtt tick
  if offline = o.offline then (o, offline)
  else if offline then
    -- The store a burst was draining is gone with it.
    ({ o with offline := true, store := [], forgotten := 0, replaying := false }, true)
  else ({ o with offline := false, returned := true }, false)

/-- `Outbox::returned`: whether a dropout ended since the last call. -/
def takeReturned (o : Outbox P) (taps : Taps F) (tick : Nat) : Outbox P × Bool :=
  let o := (o.observe taps tick).1
  ({ o with returned := false }, o.returned)

def keep (o : Outbox P) (msg : Message P) : Outbox P :=
  if o.store.length = STORE then
    { o with store := o.store.tail ++ [msg], forgotten := o.forgotten + 1 }
  else { o with store := o.store ++ [msg] }

variable {S : Type} [Sink P S]

/-- Publish `msg`, or keep it in a dropout or behind a replay. -/
def send (o : Outbox P) (sink : S) (taps : Taps F) (tick : Nat) (msg : Message P) :
    Outbox P × S × Except (ClientError P) Unit :=
  let (o, offline) := o.observe taps tick
  if offline then (o.keep msg.history, sink, .ok ())
  else if o.replaying then (o.keep msg, sink, .ok ())
  else (o, Sink.publish sink msg)

/-- `n` rounds of the replay loop. -/
def drain (o : Outbox P) (sink : S) : Nat → Outbox P × S
  | 0 => (o, sink)
  | n + 1 =>
    match o.store with
    | [] => ({ o with replaying := false }, sink)
    | msg :: rest =>
      match Sink.publish sink msg with
      | (sink, .ok _) => drain { o with store := rest } sink n
      | (sink, .error _) => ({ o with store := rest }, sink)

/-- The burst a call begins: due, and not replayed before. -/
def burstDue (o : Outbox P) (taps : Taps F) (tick : Nat) : Option (Window F) :=
  (taps.backfillsDue .mqtt tick).find? fun burst => !o.replayed.contains burst.index

/-- Replay the store when a burst's instant has passed; nothing in a dropout. -/
def backfill (o : Outbox P) (sink : S) (taps : Taps F) (tick : Nat) : Outbox P × S :=
  let (o, offline) := o.observe taps tick
  if offline then (o, sink)
  else if o.replaying then o.drain sink BURST
  else
    match o.burstDue taps tick with
    | none => (o, sink)
    | some burst =>
      { o with replayed := o.replayed ++ [burst.index], replaying := true }.drain sink BURST

/-- Whether a backfill at `tick` would drain the store. -/
def drains (o : Outbox P) (taps : Taps F) (tick : Nat) : Bool :=
  !taps.dropout .mqtt tick && (o.replaying || (o.burstDue taps tick).isSome)

/-- What the dropout that begins at `tick`, if one does, clears. -/
def clearedAt (o : Outbox P) (taps : Taps F) (tick : Nat) : List (Message P) :=
  if taps.dropout .mqtt tick && !o.offline then o.store else []

/-- What a full store forgets for the message it keeps. -/
def forgottenBy (o : Outbox P) : List (Message P) :=
  if o.store.length = STORE then o.store.take 1 else []

@[simp] theorem observe_snd (o : Outbox P) (taps : Taps F) (tick : Nat) :
    (o.observe taps tick).2 = taps.dropout .mqtt tick := by
  simp only [observe]
  split
  · rfl
  · split
    · simp_all
    · simp_all

theorem observe_store (o : Outbox P) (taps : Taps F) (tick : Nat) :
    o.store = o.clearedAt taps tick ++ (o.observe taps tick).1.store := by
  cases hd : taps.dropout .mqtt tick <;> cases ho : o.offline <;>
    simp [observe, clearedAt, hd, ho]

/-- Online, a call finds the replay as the last one left it. -/
theorem observe_online {o : Outbox P} {taps : Taps F} {tick : Nat}
    (h : taps.dropout .mqtt tick = false) :
    (o.observe taps tick).1.store = o.store ∧
      (o.observe taps tick).1.replaying = o.replaying ∧
      (o.observe taps tick).1.replayed = o.replayed := by
  cases ho : o.offline <;> simp [observe, h, ho]

/-- The edges a call finds, and what they leave of the outbox. -/
theorem observe_edges (o : Outbox P) (taps : Taps F) (tick : Nat) :
    let o' := (o.observe taps tick).1
    o'.offline = taps.dropout .mqtt tick ∧
      o'.returned = (o.returned || (o.offline && !taps.dropout .mqtt tick)) ∧
      (taps.dropout .mqtt tick = false → o'.store = o.store ∧ o'.replaying = o.replaying) ∧
      ∃ gone, o.store = gone ++ o'.store := by
  intro o'
  refine ⟨?_, ?_, fun hd => ?_, o.clearedAt taps tick, o.observe_store taps tick⟩
  · cases hd : taps.dropout .mqtt tick <;> cases ho : o.offline <;> simp [o', observe, hd, ho]
  · cases hd : taps.dropout .mqtt tick <;> cases ho : o.offline <;> simp [o', observe, hd, ho]
  · exact ⟨(observe_online hd).1, (observe_online hd).2.1⟩

theorem observe_replayed (o : Outbox P) (taps : Taps F) (tick : Nat) :
    (o.observe taps tick).1.replayed = o.replayed := by
  cases hd : taps.dropout .mqtt tick <;> cases ho : o.offline <;> simp [observe, hd, ho]

theorem keep_store (o : Outbox P) (msg : Message P) :
    o.store ++ [msg] = o.forgottenBy ++ (o.keep msg).store := by
  rw [keep, forgottenBy]
  split
  · rw [← List.append_assoc, ← List.drop_one, List.take_append_drop]
  · rfl

theorem keep_back (o : Outbox P) (msg : Message P) :
    (∃ gone, o.store ++ [msg] = gone ++ (o.keep msg).store) ∧ (o.keep msg).offline = o.offline ∧
      (o.keep msg).returned = o.returned ∧ (o.keep msg).replaying = o.replaying := by
  refine ⟨⟨_, o.keep_store msg⟩, ?_⟩
  rw [keep]
  split <;> exact ⟨rfl, rfl, rfl⟩

theorem keep_replayed (o : Outbox P) (msg : Message P) : (o.keep msg).replayed = o.replayed := by
  rw [keep]
  split <;> rfl

theorem keep_last (o : Outbox P) (msg : Message P) : (o.keep msg).store.getLast? = some msg := by
  rw [keep]
  split <;> simp

/-- A send stores its message in a dropout and behind a replay, and publishes it otherwise. -/
theorem send_eq (o : Outbox P) (sink : S) (taps : Taps F) (tick : Nat) (msg : Message P) :
    o.send sink taps tick msg =
      if taps.dropout .mqtt tick || o.replaying then
        ((o.observe taps tick).1.keep (if taps.dropout .mqtt tick then msg.history else msg), sink,
          .ok ())
      else ((o.observe taps tick).1, Sink.publish sink msg) := by
  cases hd : taps.dropout .mqtt tick with
  | true => simp [send, hd]
  | false =>
    have hrep := (observe_online (o := o) hd).2.1
    cases hr : o.replaying <;> simp [send, hd, hrep, hr]

theorem send_outbox (o : Outbox P) (sink : S) (taps : Taps F) (tick : Nat)
    (msg : Message P) :
    (o.send sink taps tick msg).1 =
      if taps.dropout .mqtt tick || o.replaying then
        (o.observe taps tick).1.keep (if taps.dropout .mqtt tick then msg.history else msg)
      else (o.observe taps tick).1 := by
  rw [send_eq]
  split <;> rfl

/-- The outbox a backfill's loop starts from. -/
def atReplay (o : Outbox P) (taps : Taps F) (tick : Nat) : Outbox P :=
  { (o.observe taps tick).1 with
    replayed := o.replayed ++
      if o.replaying then [] else ((o.burstDue taps tick).map Window.index).toList
    replaying := true }

theorem drains_online {o : Outbox P} {taps : Taps F} {tick : Nat}
    (h : o.drains taps tick = true) : taps.dropout .mqtt tick = false := by
  simp only [drains, Bool.and_eq_true, Bool.not_eq_true'] at h
  exact h.1

theorem atReplay_store {o : Outbox P} {taps : Taps F} {tick : Nat}
    (h : o.drains taps tick = true) : (o.atReplay taps tick).store = o.store :=
  (observe_online (drains_online h)).1

/-- A backfill drains the store, or does no more than follow the tap. -/
theorem backfill_eq (o : Outbox P) (sink : S) (taps : Taps F) (tick : Nat) :
    o.backfill sink taps tick =
      if o.drains taps tick then (o.atReplay taps tick).drain sink BURST
      else ((o.observe taps tick).1, sink) := by
  have hreplayed := observe_replayed o taps tick
  have hdue : (o.observe taps tick).1.burstDue taps tick = o.burstDue taps tick := by
    simp only [burstDue, hreplayed]
  cases hd : taps.dropout .mqtt tick with
  | true => simp [backfill, drains, hd]
  | false =>
    have hrep := (observe_online (o := o) hd).2.1
    cases hr : o.replaying with
    | true =>
      have hsame : o.atReplay taps tick = (o.observe taps tick).1 := by
        simp only [atReplay, hr, if_true, List.append_nil, ← hreplayed]
        rw [← hr, ← hrep]
      simp [backfill, drains, hd, hrep, hr, hsame]
    | false =>
      cases hb : o.burstDue taps tick with
      | none => simp [backfill, drains, hd, hrep, hr, hdue, hb]
      | some burst => simp [backfill, drains, atReplay, hd, hrep, hr, hdue, hb, hreplayed]

end Outbox

end Bess
