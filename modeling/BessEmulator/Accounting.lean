import BessEmulator.Outbox
import Mathlib.Algebra.Order.Group.Multiset

/-!
# Where an accepted message is

Every message a send returned Ok for, against what the wire took, the store
holds, and the store dropped. A publish refused in the middle of a replay is
in none of the three.
-/
namespace BessOutbox

open Bess

section

variable {P : Type}

/-- Messages up to the retain flag a replay takes off, as many as there are of each. -/
def bag (ms : List (Message P)) : Multiset (Message P) := ↑(ms.map Message.history)

@[simp] theorem bag_nil : bag ([] : List (Message P)) = 0 := rfl

@[simp] theorem bag_append (ms ns : List (Message P)) : bag (ms ++ ns) = bag ms + bag ns := by
  simp [bag]

theorem bag_cons (m : Message P) (ms : List (Message P)) : bag (m :: ms) = bag [m] + bag ms := by
  rw [← bag_append]
  rfl

@[simp] theorem bag_history (m : Message P) : bag [m.history] = bag [m] := rfl

theorem bag_singleton_ne (m : Message P) : bag [m] ≠ 0 := by
  simp [bag]

/-- A sink together with the messages it took. -/
structure Recorded (P S : Type) where
  sink : S
  delivered : List (Message P)

variable {S : Type} [Sink P S]

def Recorded.publish (r : Recorded P S) (msg : Message P) : Recorded P S × Except (ClientError P) Unit :=
  match Sink.publish r.sink msg with
  | (sink, .ok ()) => (⟨sink, r.delivered ++ [msg]⟩, .ok ())
  | (sink, .error e) => (⟨sink, r.delivered⟩, .error e)

instance : Sink P (Recorded P S) := ⟨Recorded.publish⟩

/-- Whether the sink takes every one of the messages, handed over in order. -/
def takes (sink : S) : List (Message P) → Bool
  | [] => true
  | msg :: rest =>
    match Sink.publish sink msg with
    | (sink, .ok _) => takes sink rest
    | (_, .error _) => false

theorem publish_recorded (r : Recorded P S) (msg : Message P) :
    (∃ sink, Sink.publish r msg = (⟨sink, r.delivered ++ [msg]⟩, .ok ())) ∨
      ∃ sink e, Sink.publish r msg = (⟨sink, r.delivered⟩, .error e) := by
  change (∃ sink, r.publish msg = _) ∨ ∃ sink e, r.publish msg = _
  rcases hp : Sink.publish r.sink msg with ⟨sink, e | u⟩
  · exact Or.inr ⟨sink, e, by simp only [Recorded.publish, hp]⟩
  · exact Or.inl ⟨sink, by simp only [Recorded.publish, hp]⟩

/-- A drain delivers, keeps, or loses the one message the sink refuses. -/
theorem drain_conserves (n : Nat) (o : Outbox P) (r : Recorded P S) :
    ∃ lost : Multiset (Message P),
      bag r.delivered + bag o.store =
        bag (o.drain r n).2.delivered + bag (o.drain r n).1.store + lost ∧
      (lost = 0 ↔ takes r (o.store.take n) = true) := by
  induction n generalizing o r with
  | zero => exact ⟨0, by simp [Outbox.drain], by simp [takes]⟩
  | succ n ih =>
    cases hs : o.store with
    | nil => exact ⟨0, by simp [Outbox.drain, hs], by simp [takes]⟩
    | cons msg rest =>
      rcases publish_recorded r msg with ⟨sink, hp⟩ | ⟨sink, e, hp⟩
      · have hdrain : o.drain r (n + 1) =
            { o with store := rest }.drain (⟨sink, r.delivered ++ [msg]⟩ : Recorded P S) n := by
          simp [Outbox.drain, hs, hp]
        obtain ⟨lost, hbag, hlost⟩ := ih { o with store := rest } ⟨sink, r.delivered ++ [msg]⟩
        refine ⟨lost, ?_, ?_⟩
        · rw [hdrain, ← hbag, bag_append, bag_cons, add_assoc]
        · rw [hlost]
          simp [takes, hp]
      · refine ⟨bag [msg], ?_, ?_⟩
        · simp only [Outbox.drain, hs, hp]
          rw [bag_cons, add_assoc, add_comm (bag rest)]
        · simp [takes, hp, bag_singleton_ne]

variable {F : Type}

theorem observe_conserves (o : Outbox P) (taps : Taps F) (tick : Nat) :
    bag o.store = bag (o.observe taps tick).1.store + bag (o.clearedAt taps tick) := by
  rw [add_comm, ← bag_append, ← Outbox.observe_store]

theorem keep_conserves (o : Outbox P) (msg : Message P) :
    bag o.store + bag [msg] = bag (o.keep msg).store + bag o.forgottenBy := by
  rw [add_comm (bag (o.keep msg).store), ← bag_append, ← bag_append, ← Outbox.keep_store]

/-- What the store forgets over a send that keeps its message. -/
def forgottenAt (o : Outbox P) (taps : Taps F) (tick : Nat) : List (Message P) :=
  if taps.dropout .mqtt tick || o.replaying then (o.observe taps tick).1.forgottenBy else []

def acceptedBy (msg : Message P) : Except (ClientError P) Unit → List (Message P)
  | .ok _ => [msg]
  | .error _ => []

/-- A send puts an accepted message on the wire or in the store, where it may
push another out. -/
theorem send_conserves (o : Outbox P) (r : Recorded P S) (taps : Taps F) (tick : Nat) (msg : Message P) :
    bag r.delivered + bag o.store + bag (acceptedBy msg (o.send r taps tick msg).2.2) =
      bag (o.send r taps tick msg).2.1.delivered + bag (o.send r taps tick msg).1.store +
        bag (forgottenAt o taps tick) + bag (o.clearedAt taps tick) := by
  have hobs := observe_conserves o taps tick
  rw [Outbox.send_eq, forgottenAt]
  by_cases hkept : (taps.dropout .mqtt tick || o.replaying) = true
  · have hkeep := keep_conserves (o.observe taps tick).1
      (if taps.dropout .mqtt tick then msg.history else msg)
    have hsame : bag [if taps.dropout .mqtt tick then msg.history else msg] = bag [msg] := by
      split
      · exact bag_history msg
      · rfl
    rw [hsame] at hkeep
    simp only [if_pos hkept, acceptedBy]
    rw [hobs, add_assoc (bag r.delivered), add_right_comm (bag (o.observe taps tick).1.store), hkeep]
    simp only [add_assoc]
  · simp only [if_neg hkept, bag_nil, add_zero]
    rcases publish_recorded r msg with ⟨sink, hp⟩ | ⟨sink, e, hp⟩
    · simp only [hp, acceptedBy]
      rw [hobs, bag_append, add_right_comm, add_assoc, add_assoc, add_assoc]
    · simp only [hp, acceptedBy, bag_nil, add_zero]
      rw [hobs, add_assoc]

/-- Whether the sink takes every message a backfill at `tick` would hand it. -/
def unrefused (o : Outbox P) (sink : S) (taps : Taps F) (tick : Nat) : Bool :=
  !o.drains taps tick || takes sink (o.store.take BURST)

theorem backfill_conserves (o : Outbox P) (r : Recorded P S) (taps : Taps F) (tick : Nat) :
    ∃ lost : Multiset (Message P),
      bag r.delivered + bag o.store =
        bag (o.backfill r taps tick).2.delivered + bag (o.backfill r taps tick).1.store +
          bag (o.clearedAt taps tick) + lost ∧
      (lost = 0 ↔ unrefused o r taps tick = true) := by
  have hobs := observe_conserves o taps tick
  rw [Outbox.backfill_eq]
  by_cases hdrains : o.drains taps tick = true
  · -- A call that drains finds no dropout, so none clears the store.
    have hclear : o.clearedAt taps tick = [] := by
      simp [Outbox.clearedAt, Outbox.drains_online hdrains]
    obtain ⟨lost, hbag, hlost⟩ := drain_conserves BURST (o.atReplay taps tick) r
    rw [Outbox.atReplay_store hdrains] at hbag hlost
    refine ⟨lost, ?_, ?_⟩
    · rw [if_pos hdrains, hclear, bag_nil, add_zero, hbag]
    · rw [hlost]
      simp [unrefused, hdrains]
  · refine ⟨0, ?_, by simp [unrefused, hdrains]⟩
    rw [if_neg hdrains, hobs, add_zero, add_assoc]

inductive Call (P F : Type)
  | send (taps : Taps F) (tick : Nat) (msg : Message P)
  | backfill (taps : Taps F) (tick : Nat)
  | returned (taps : Taps F) (tick : Nat)

/-- The outbox and its sink, with every message a send accepted and every
message the outbox dropped for a documented reason. -/
structure Ledger (P S : Type) where
  outbox : Outbox P
  wire : Recorded P S
  accepted : List (Message P)
  /-- The store was full. -/
  forgotten : List (Message P)
  /-- A new dropout started the store over. -/
  cleared : List (Message P)

namespace Ledger

def fresh (sink : S) : Ledger P S := ⟨.empty, ⟨sink, []⟩, [], [], []⟩

def call (l : Ledger P S) : Call P F → Ledger P S
  | .send taps tick msg =>
    let (outbox, wire, result) := l.outbox.send l.wire taps tick msg
    { outbox := outbox
      wire := wire
      accepted := l.accepted ++ acceptedBy msg result
      forgotten := l.forgotten ++ forgottenAt l.outbox taps tick
      cleared := l.cleared ++ l.outbox.clearedAt taps tick }
  | .backfill taps tick =>
    let (outbox, wire) := l.outbox.backfill l.wire taps tick
    { l with
      outbox := outbox
      wire := wire
      cleared := l.cleared ++ l.outbox.clearedAt taps tick }
  | .returned taps tick =>
    { l with
      outbox := (l.outbox.takeReturned taps tick).1
      cleared := l.cleared ++ l.outbox.clearedAt taps tick }

def run (l : Ledger P S) (calls : List (Call P F)) : Ledger P S := calls.foldl call l

/-- On the wire, in the store, or dropped for a documented reason. -/
def found (l : Ledger P S) : Multiset (Message P) :=
  bag l.wire.delivered + bag l.outbox.store + bag l.forgotten + bag l.cleared

/-- Of every accepted message, as many are found as were accepted. -/
def Accounted (l : Ledger P S) : Prop := bag l.accepted ≤ l.found

/-- A call that has the sink refuse no message of a replay. -/
def unrefused (l : Ledger P S) : Call P F → Bool
  | .backfill taps tick => BessOutbox.unrefused l.outbox l.wire taps tick
  | .send .. | .returned .. => true

/-- Every call of a sequence is unrefused where the run meets it. -/
def Unrefused (l : Ledger P S) : List (Call P F) → Prop
  | [] => True
  | c :: cs => l.unrefused c = true ∧ (l.call c).Unrefused cs

theorem call_conserves (l : Ledger P S) (c : Call P F) :
    ∃ lost : Multiset (Message P),
      l.found + bag (l.call c).accepted = (l.call c).found + bag l.accepted + lost ∧
      (lost = 0 ↔ l.unrefused c = true) := by
  cases c with
  | send taps tick msg =>
    refine ⟨0, ?_, by simp [unrefused]⟩
    have hsend := send_conserves l.outbox l.wire taps tick msg
    simp only [found, call, bag_append, add_zero]
    calc bag l.wire.delivered + bag l.outbox.store + bag l.forgotten + bag l.cleared +
          (bag l.accepted + bag (acceptedBy msg (l.outbox.send l.wire taps tick msg).2.2))
        = (bag l.wire.delivered + bag l.outbox.store +
            bag (acceptedBy msg (l.outbox.send l.wire taps tick msg).2.2)) +
            (bag l.forgotten + bag l.cleared + bag l.accepted) := by ac_rfl
      _ = _ := by rw [hsend]; ac_rfl
  | backfill taps tick =>
    obtain ⟨lost, hback, hlost⟩ := backfill_conserves l.outbox l.wire taps tick
    refine ⟨lost, ?_, hlost⟩
    simp only [found, call, bag_append]
    rw [hback]
    ac_rfl
  | returned taps tick =>
    refine ⟨0, ?_, by simp [unrefused]⟩
    have hobs := observe_conserves l.outbox taps tick
    simp only [found, call, bag_append, Outbox.takeReturned, add_zero]
    rw [hobs]
    ac_rfl

theorem run_conserves (l : Ledger P S) (calls : List (Call P F)) :
    ∃ lost : Multiset (Message P),
      l.found + bag (l.run calls).accepted = (l.run calls).found + bag l.accepted + lost ∧
      (lost = 0 ↔ l.Unrefused calls) := by
  induction calls generalizing l with
  | nil => exact ⟨0, by simp [run], by simp [Unrefused]⟩
  | cons c cs ih =>
    obtain ⟨lost, hcall, hlost⟩ := l.call_conserves c
    obtain ⟨later, hrun, hlater⟩ := ih (l.call c)
    have hcons : l.run (c :: cs) = (l.call c).run cs := rfl
    refine ⟨lost + later, ?_, ?_⟩
    · rw [hcons]
      apply add_right_cancel (b := bag (l.call c).accepted + (l.call c).found)
      calc l.found + bag ((l.call c).run cs).accepted +
            (bag (l.call c).accepted + (l.call c).found)
          = (l.found + bag (l.call c).accepted) +
              ((l.call c).found + bag ((l.call c).run cs).accepted) := by ac_rfl
        _ = _ := by rw [hcall, hrun]; ac_rfl
    · rw [add_eq_zero, hlost, hlater, Unrefused]

end Ledger

/-- The outbox accounts for every message it accepted exactly as long as the
sink refuses none of the messages a replay hands it. -/
theorem accepted_accounted (sink : S) (calls : List (Call P F)) :
    ((Ledger.fresh sink).run calls).Accounted ↔ (Ledger.fresh sink).Unrefused calls := by
  obtain ⟨lost, hbag, hlost⟩ := (Ledger.fresh sink).run_conserves calls
  have hfresh : bag ((Ledger.fresh sink).run calls).accepted =
      ((Ledger.fresh sink).run calls).found + lost := by
    simpa [Ledger.fresh, Ledger.found, Outbox.empty] using hbag
  rw [← hlost, Ledger.Accounted, hfresh]
  constructor
  · intro hle
    exact le_antisymm ((add_le_iff_nonpos_right _).mp hle) (Multiset.zero_le lost)
  · rintro rfl
    rw [add_zero]

end

/-- A sink that answers as a script says, and takes everything after it. -/
structure Script where
  answers : List Bool

instance : Sink String Script where
  publish s msg :=
    match s.answers with
    | false :: rest => (⟨rest⟩, .error ⟨msg⟩)
    | true :: rest => (⟨rest⟩, .ok ())
    | [] => (s, .ok ())

/-- A dropout of four seconds from the start, and a burst when it is over. -/
noncomputable def dropoutThenBurst : Resolved ℝ where
  id := ⟨"dropout-then-burst", 1⟩
  params := ⟨42, 0, 1⟩
  ticks := none
  schedule :=
    [⟨0, 0, 0, .data ⟨.mqtt, .dropout, some 4, none, none, none, none⟩⟩,
      ⟨1, 4, 4, .data ⟨.mqtt, .backfillBurst, none, none, none, none, none⟩⟩]

noncomputable def dropoutTaps : Taps ℝ := Taps.new dropoutThenBurst []

def soc : Message String := ⟨"bess/site/soc", "50.0", .atMostOnce, false⟩

/-- One message stored in the dropout; the burst hands it to a full client. -/
noncomputable def refusedBurst : Ledger String Script :=
  (Ledger.fresh ⟨[false]⟩).run [.send dropoutTaps 0 soc, .backfill dropoutTaps 4]

/-- The message was accepted, and is nowhere. -/
theorem refused_burst_loses : ¬ refusedBurst.Accounted := by
  have hfound : refusedBurst.found = 0 := by rfl
  have haccepted : bag refusedBurst.accepted = bag [soc] := rfl
  rw [Ledger.Accounted, hfound, haccepted, Multiset.le_zero]
  exact bag_singleton_ne soc

end BessOutbox
