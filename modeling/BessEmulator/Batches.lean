import BessEmulator.Cadence
import BessEmulator.EventFeed
import BessEmulator.PictureCommands
import BessEmulator.Traces

/-!
# Batches behind the plant

Ticks, commands and loads between the tick that emits a batch and the wake
that publishes it. The publisher asks the latest snapshot whether a dropout is
open and how far the clock has drifted, never the batch's own.
-/
namespace BessBatches

open Bess

section

variable {P S F : Type}

/-- A client together with every message it was handed, refused or not. -/
structure Offered (P S : Type) where
  sink : S
  offered : List (Message P)

instance [Sink P S] : Sink P (Offered P S) where
  publish r msg :=
    let (sink, answer) := Sink.publish r.sink msg
    (⟨sink, r.offered ++ [msg]⟩, answer)

abbrev Client (F S : Type) := Offered (Payload F) S

/-- Whether a snapshot shows the broker's side in a dropout. -/
def inDropout (snap : Snapshot F) : Bool := snap.taps.dropout .mqtt snap.state.tick

/-- A message kept in the store, the client handed nothing. -/
def Stored (m : Message (Payload F)) (pub pub' : Publisher F (Client F S)) : Prop :=
  pub'.outbox.store.getLast? = some m ∧ pub'.client.offered = pub.client.offered

/-- A message handed to the client, the store left as it was. -/
def Live (m : Message (Payload F)) (pub pub' : Publisher F (Client F S)) : Prop :=
  pub'.client.offered = pub.client.offered ++ [m] ∧ pub'.outbox.store = pub.outbox.store

/-- Stored and handed over are told apart by what the client got. -/
theorem not_stored_of_live {m m' : Message (Payload F)} {pub pub' : Publisher F (Client F S)}
    (h : Live m pub pub') : ¬ Stored m' pub pub' := by
  intro hs
  have hlen := congrArg List.length (h.1.symm.trans hs.2)
  simp at hlen

/-- A message says by which clock it was stamped. -/
theorem drift_of_message {drift drift' : Int} {batch : TickEvents} {e : Event × Nat}
    (h : (eventMessage drift batch e : Message (Payload F)) = eventMessage drift' batch e) :
    drift = drift' := by
  have hpayload := congrArg Message.payload h
  injection hpayload with _ _ hts
  omega

variable [Scalar F] [Sink (Payload F) S]

section

variable (snap : Snapshot F) (batch : TickEvents) (pub : Publisher F (Client F S))
  (e : Event × Nat)

/-- One event, by what the snapshot answers and whether a replay is draining. -/
theorem publishEvent_cases :
    let m := eventMessage (driftWholeS snap) batch e
    let o := (pub.outbox.observe snap.taps snap.state.tick).1
    pub.publishEvent snap batch e =
      if inDropout snap || pub.outbox.replaying then { pub with outbox := o.keep m }
      else { pub with outbox := o, client := (Sink.publish pub.client m).1 } := by
  intro m o
  -- An event is not retained, so kept as history it is what it was.
  have hkept : (if snap.taps.dropout .mqtt snap.state.tick then m.history else m) = m := ite_self m
  have hsend : pub.outbox.send pub.client snap.taps snap.state.tick m =
      if inDropout snap || pub.outbox.replaying then (o.keep m, pub.client, .ok ())
      else (o, Sink.publish pub.client m) := by
    rw [Outbox.send_eq, hkept]
    rfl
  have hpub : pub.publishEvent snap batch e =
      { pub with
        outbox := (pub.outbox.send pub.client snap.taps snap.state.tick m).1
        client := (pub.outbox.send pub.client snap.taps snap.state.tick m).2.1 } := rfl
  rw [hpub, hsend]
  split <;> rfl

/-- What becomes of one event's message, and what it leaves of the outbox. -/
structure Fate (snap : Snapshot F) (batch : TickEvents) (e : Event × Nat)
    (pub pub' : Publisher F (Client F S)) : Prop where
  offline : pub'.outbox.offline = inDropout snap
  stored : inDropout snap = true ∨ pub.outbox.replaying = true →
    Stored (eventMessage (driftWholeS snap) batch e) pub pub'
  live : inDropout snap = false → pub.outbox.replaying = false →
    Live (eventMessage (driftWholeS snap) batch e) pub pub'
  replaying : inDropout snap = false → pub'.outbox.replaying = pub.outbox.replaying

theorem publishEvent_fate : Fate snap batch e pub (pub.publishEvent snap batch e) := by
  have hoff : (pub.outbox.observe snap.taps snap.state.tick).1.offline = inDropout snap :=
    (pub.outbox.observe_edges snap.taps snap.state.tick).1
  have hlast := (pub.outbox.observe snap.taps snap.state.tick).1.keep_last
    (eventMessage (driftWholeS snap) batch e)
  obtain ⟨-, hkoff, -, hkrep⟩ := (pub.outbox.observe snap.taps snap.state.tick).1.keep_back
    (eventMessage (driftWholeS snap) batch e)
  rw [publishEvent_cases]
  cases hkept : inDropout snap || pub.outbox.replaying with
  | true =>
    simp only [if_true]
    refine ⟨hkoff.trans hoff, fun _ => ⟨hlast, rfl⟩, fun hd hr => ?_, fun hd => ?_⟩
    · rw [hd, hr] at hkept
      cases hkept
    · exact hkrep.trans (Outbox.observe_online (o := pub.outbox) hd).2.1
  | false =>
    simp only [Bool.false_eq_true, if_false]
    refine ⟨hoff, fun hk => ?_, fun hd _ => ⟨rfl, ?_⟩, fun hd => ?_⟩
    · rw [← Bool.or_eq_true, hkept] at hk
      cases hk
    · exact (Outbox.observe_online (o := pub.outbox) hd).1
    · exact (Outbox.observe_online (o := pub.outbox) hd).2.1

/-- One event's message treated by the windows of its own tick, `born`: stored if a dropout was
open there, else not held back as a dropout's, but handed over, or queued behind a replay; and
stamped by the clock of that tick. -/
structure EventAsBorn (born : Snapshot F) (batch : TickEvents) (e : Event × Nat)
    (pub pub' : Publisher F (Client F S)) : Prop where
  inside : inDropout born = true → Stored (eventMessage (driftWholeS born) batch e) pub pub'
  outside : inDropout born = false → pub'.outbox.offline = false ∧
    if pub.outbox.replaying then Stored (eventMessage (driftWholeS born) batch e) pub pub'
    else Live (eventMessage (driftWholeS born) batch e) pub pub'

end

/-- What the latest snapshot must answer as the batch's own: its drift, and whether a dropout is
open, unless the batch is one of a dropout and finds a replay draining. -/
def Agrees (snap born : Snapshot F) (replaying : Bool) : Prop :=
  (inDropout snap = inDropout born ∨ inDropout born = true ∧ replaying = true) ∧
    driftWholeS snap = driftWholeS born

section

variable (snap born : Snapshot F) (batch : TickEvents) (e : Event × Nat)
  (pub : Publisher F (Client F S))

theorem eventAsBorn_of_agrees (h : Agrees snap born pub.outbox.replaying) :
    EventAsBorn born batch e pub (pub.publishEvent snap batch e) := by
  obtain ⟨hwindow, hdrift⟩ := h
  obtain ⟨hoff, hstored, hlive, -⟩ := publishEvent_fate snap batch pub e
  rw [hdrift] at hstored hlive
  refine ⟨fun hb => hstored ?_, fun hb => ?_⟩
  · rcases hwindow with hsame | ⟨-, hreplaying⟩
    · exact .inl (hsame.trans hb)
    · exact .inr hreplaying
  · have hout : inDropout snap = false := by
      rcases hwindow with hsame | ⟨hin, -⟩
      · exact hsame.trans hb
      · rw [hb] at hin
        cases hin
    refine ⟨hoff.trans hout, ?_⟩
    split
    · exact hstored (.inr ‹_›)
    · exact hlive hout (Bool.eq_false_iff.mpr ‹_›)

theorem agrees_of_eventAsBorn (h : EventAsBorn born batch e pub (pub.publishEvent snap batch e)) :
    Agrees snap born pub.outbox.replaying := by
  obtain ⟨hoff, hstored, hlive, -⟩ := publishEvent_fate snap batch pub e
  cases hb : inDropout born with
  | true =>
    have hin := h.inside hb
    have hkept : inDropout snap = true ∨ pub.outbox.replaying = true := by
      by_contra hnone
      obtain ⟨hd, hr⟩ := not_or.mp hnone
      exact not_stored_of_live (hlive (Bool.eq_false_iff.mpr hd) (Bool.eq_false_iff.mpr hr)) hin
    refine ⟨?_, drift_of_message (Option.some.inj ((hstored hkept).1.symm.trans hin.1))⟩
    exact hkept.imp (fun hd => hd.trans hb.symm) fun hr => ⟨hb, hr⟩
  | false =>
    obtain ⟨hon, hfate⟩ := h.outside hb
    have hout : inDropout snap = false := hoff.symm.trans hon
    refine ⟨.inl (hout.trans hb.symm), ?_⟩
    cases hr : pub.outbox.replaying with
    | true =>
      rw [if_pos hr] at hfate
      exact drift_of_message (Option.some.inj ((hstored (.inr hr)).1.symm.trans hfate.1))
    | false =>
      rw [if_neg (by simp [hr])] at hfate
      have hsame := (hlive hout hr).1.symm.trans hfate.1
      exact drift_of_message (List.singleton_inj.mp (List.append_cancel_left hsame))

end

/-- Every message of a batch, as the loop over its events comes to it. -/
def AsBorn (snap born : Snapshot F) (batch : TickEvents) (pub : Publisher F (Client F S)) : Prop :=
  ∀ init e rest, batch.numbered = init ++ e :: rest →
    EventAsBorn born batch e (init.foldl (Publisher.publishEvent snap batch) pub)
      ((init.foldl (Publisher.publishEvent snap batch) pub).publishEvent snap batch e)

/-- Online, the loop leaves a replay draining or not as it was. -/
theorem foldl_replaying {snap : Snapshot F} (hout : inDropout snap = false) (batch : TickEvents)
    (es : List (Event × Nat)) (pub : Publisher F (Client F S)) :
    (es.foldl (Publisher.publishEvent snap batch) pub).outbox.replaying = pub.outbox.replaying := by
  induction es generalizing pub with
  | nil => rfl
  | cons e es ih => exact (ih _).trans ((publishEvent_fate snap batch pub e).replaying hout)

theorem asBorn_iff {snap born : Snapshot F} {batch : TickEvents} (hne : batch.events ≠ [])
    (pub : Publisher F (Client F S)) :
    AsBorn snap born batch pub ↔ Agrees snap born pub.outbox.replaying := by
  constructor
  · intro hall
    cases hnum : batch.numbered with
    | nil =>
      rw [TickEvents.numbered] at hnum
      exact absurd (by simpa using congrArg List.length hnum) hne
    | cons e rest => exact agrees_of_eventAsBorn snap born batch e pub (hall [] e rest hnum)
  · intro hagrees init e rest _
    apply eventAsBorn_of_agrees
    cases hd : inDropout snap with
    | false =>
      rw [foldl_replaying hd]
      exact hagrees
    | true =>
      -- in a dropout the batch is one of a dropout too, whatever the replay does
      refine ⟨.inl (hd.trans ?_), hagrees.2⟩
      rcases hagrees.1 with hsame | ⟨hin, -⟩
      · exact (hsame.symm.trans hd).symm
      · exact hin.symm

/-- A batch, with the snapshot published on the tick that emitted it. -/
structure Born (F : Type) where
  batch : TickEvents
  snapshot : Snapshot F

/-- The emulator, its publisher, and the batches on their way. -/
structure World (F S : Type) where
  emulator : Emulator F
  feed : Feed (Born F)
  publisher : Publisher F (Client F S)

inductive Act (F : Type) where
  | wake (connection : Nat)
  /-- The publisher receives from the channel. -/
  | take (connection : Nat)
  | post (scenario : Scenario F)
  /-- Any command of any surface. -/
  | command (c : Task.Command F)
  | recv
  | tick

namespace World

def start (e : Emulator F) (client : S) : World F S :=
  ⟨e, .empty, Publisher.new ⟨client, []⟩ e.task.map.points⟩

/-- A tick publishes its snapshot, then its batch. -/
def tick (ref : Reference F) (w : World F S) : World F S :=
  let e := w.emulator.tick ref
  { w with
    emulator := e
    feed :=
      match e.task.batch with
      | none => w.feed
      | some batch => w.feed.send ⟨batch, e.snapshot⟩ }

def take (w : World F S) (connection : Nat) : World F S :=
  match w.feed.recv with
  | (feed, some (.ok born)) =>
    { w with
      feed := feed
      publisher := w.publisher.takeBatch w.emulator.snapshot born.batch connection }
  | (feed, _) => { w with feed := feed }

def act (ref : Reference F) (w : World F S) : Act F → World F S
  | .wake connection => { w with publisher := w.publisher.wake w.emulator.snapshot connection }
  | .take connection => w.take connection
  | .post scenario => { w with emulator := w.emulator.postScenario scenario }
  | .command c => { w with emulator := (w.emulator.trySend c).getD w.emulator }
  | .recv => { w with emulator := w.emulator.recv ref }
  | .tick => w.tick ref

/-- The batch the publisher takes next. -/
def next (w : World F S) : Option (Born F) :=
  match w.feed.recv with
  | (_, some (.ok born)) => some born
  | _ => none

/-- Every message of a batch taken is treated by the windows of its own tick. -/
def TreatsAsBorn (w : World F S) : Act F → Prop
  | .take _ => ∀ born, w.next = some born →
    AsBorn w.emulator.snapshot born.snapshot born.batch w.publisher
  | _ => True

/-- Where the publisher takes a batch, the latest snapshot answers as the batch's own. -/
def AnswersAsBorn (w : World F S) : Act F → Prop
  | .take _ => ∀ born, w.next = some born →
    Agrees w.emulator.snapshot born.snapshot w.publisher.outbox.replaying
  | _ => True

/-- Only ticks that emitted something are on their way. -/
def Eventful (w : World F S) : Prop := ∀ born ∈ w.feed.batches, born.batch.events ≠ []

omit [Scalar F] [Sink (Payload F) S] in
theorem next_mem {w : World F S} {born : Born F} (h : w.next = some born) :
    born ∈ w.feed.batches := by
  rw [next, Feed.recv] at h
  split at h
  · rename_i feed b heq
    split at heq
    · cases heq
    · split at heq
      · cases heq
      · rename_i hlist
        cases heq
        cases h
        rw [hlist]
        exact List.mem_cons_self
  · cases h

/-- A batch alone in the channel is next, whatever a tick adds. -/
theorem next_tick {w : World F S} {born : Born F} (hf : w.feed = ⟨[born], 0⟩) (ref : Reference F) :
    (w.act ref .tick).next = some born := by
  simp only [act, tick, next, hf]
  cases (w.emulator.tick ref).task.batch <;> rfl

theorem eventful_act (ref : Reference F) (w : World F S) (a : Act F) (h : w.Eventful) :
    (w.act ref a).Eventful := by
  cases a with
  | wake connection => exact h
  | post scenario => exact h
  | command c => exact h
  | recv => exact h
  | take connection =>
    have hrecv : ∀ born ∈ (w.feed.recv).1.batches, born ∈ w.feed.batches := by
      intro born hb
      rw [Feed.recv] at hb
      split at hb
      · exact hb
      · split at hb
        · exact hb
        · rename_i hlist
          rw [hlist]
          exact List.mem_cons_of_mem _ hb
    have hfeed : (w.act ref (.take connection)).feed = w.feed.recv.1 := by
      simp only [act, take]
      rcases w.feed.recv with ⟨feed, _ | _ | born⟩ <;> rfl
    intro born hb
    rw [hfeed] at hb
    exact h born (hrecv born hb)
  | tick =>
    intro born hb
    simp only [act, tick] at hb
    split at hb
    · exact h born hb
    · rename_i batch hbatch
      rw [Feed.send] at hb
      have hnew : batch.events ≠ [] := by
        rw [Task.batch] at hbatch
        split at hbatch
        · cases hbatch
        · rename_i hne
          cases hbatch
          exact hne
      have hsplit : born ∈ w.feed.batches ∨ born = ⟨batch, (w.emulator.tick ref).snapshot⟩ := by
        split at hb
        · rcases List.mem_append.mp hb with hold | hold
          · exact Or.inl (List.mem_of_mem_tail hold)
          · exact Or.inr (List.mem_singleton.mp hold)
        · rcases List.mem_append.mp hb with hold | hold
          · exact Or.inl hold
          · exact Or.inr (List.mem_singleton.mp hold)
      rcases hsplit with hold | rfl
      · exact h born hold
      · exact hnew

theorem treats_iff (w : World F S) (a : Act F) (h : w.Eventful) :
    w.TreatsAsBorn a ↔ w.AnswersAsBorn a := by
  cases a with
  | take connection =>
    constructor
    · intro ht born hb
      exact (asBorn_iff (h born (next_mem hb)) w.publisher).mp (ht born hb)
    · intro hu born hb
      exact (asBorn_iff (h born (next_mem hb)) w.publisher).mpr (hu born hb)
  | wake connection => exact Iff.rfl
  | post scenario => exact Iff.rfl
  | command c => exact Iff.rfl
  | recv => exact Iff.rfl
  | tick => exact Iff.rfl

end World

/-- Along a run every event's message is stored or handed over, and stamped, by the windows of its
own tick exactly if, whenever the publisher takes a batch, the latest snapshot has the drift of the
batch's own and the same answer whether a dropout is open, or the batch is one of a dropout and a
replay is draining. -/
theorem events_as_born (ref : Reference F) (e : Emulator F) (client : S) (acts : List (Act F)) :
    Traces.Always (World.act ref) World.TreatsAsBorn (World.start e client) acts ↔
      Traces.Always (World.act ref) World.AnswersAsBorn (World.start e client) acts := by
  apply Traces.always_congr (World.eventful_act ref) World.treats_iff
  intro born hb
  cases hb

end

/-- A protection trip before the first tick, and a dropout of a minute from the second. -/
noncomputable def tripThenDropout : Resolved ℝ where
  id := ⟨"trip-then-dropout", 1⟩
  params := ⟨42, 1767225600, 1⟩
  ticks := none
  schedule :=
    [⟨0, 0, 0, .physical .protectionTrip⟩,
      ⟨1, 2, 2, .data ⟨.mqtt, .dropout, some 60, none, none, none, none⟩⟩]

/-- The story on a plant at tick 0. -/
noncomputable def underTrip (sim : Simulation ℝ) : Bess.Task ℝ :=
  Task.start sim 1 (some tripThenDropout) .bare

section

variable {sim : Simulation ℝ} (h : Sound sim) (h0 : sim.state.tick = 0)
include h h0

/-- The first tick fires the trip and hands its mark out. -/
theorem underTrip_batch : ∃ batch, ((underTrip sim).tick .idle).batch = some batch := by
  obtain ⟨⟨es, hes, -⟩, -⟩ := BessReplay.spoke_tripProtection sim.state
  set s := (tripProtection sim.state).1.withPending
    ((tripProtection sim.state).1.pendingEvents.insertIdx sim.state.pendingEvents.length
      (.faultApplied .protectionTrip)) with hs
  have hpending : s.pendingEvents = sim.state.pendingEvents ++ .faultApplied .protectionTrip :: es := by
    rw [← BessReplay.insertIdx_length_append, ← hes]
    rfl
  have happly : applyAction sim.models sim.cfg sim.state .protectionTrip =
      (.ok (tripProtection sim.state).2, s) := rfl
  have hshape : Shaped sim.cfg s := by
    have hkept := kept_applyAction (shaped_kept sim.cfg).toKeptByActions sim.models sim.cfg
      .protectionTrip h.shape
    rw [happly] at hkept
    exact hkept
  have hfire : (underTrip sim).fireDue.sim = { sim with state := s } := by
    have hdue : (Player.new tripThenDropout).due sim.state.tick =
        ([⟨0, 0, 0, .physical .protectionTrip⟩], ⟨tripThenDropout.schedule, 1⟩) := by
      rw [h0]
      simp [Player.due, Player.new, tripThenDropout]
    change (((Player.new tripThenDropout).fireDue sim).2.1) = _
    rw [Player.fireDue, hdue]
    rfl
  have hsound : Sound ({ sim with state := s } : Simulation ℝ) := ⟨h.room, hshape⟩
  have hevents : ((underTrip sim).tick .idle).sim.events ≠ [] := by
    change ((underTrip sim).fireDue.sim.step _).events ≠ []
    rw [hfire, step_events hsound, Plant.tickEvents, hpending]
    simp
  exact ⟨_, if_neg hevents⟩

omit h in
/-- No dropout is open when the batch is born; one is when it is taken. -/
theorem underTrip_dropout :
    inDropout ((underTrip sim).tick .idle).snapshot = false ∧
      inDropout (((underTrip sim).tick .idle).tick .idle).snapshot = true := by
  have hwindows := tick_windows .idle (underTrip sim)
  have hwindows' := tick_windows .idle ((underTrip sim).tick .idle)
  have htick := tick_tick .idle (underTrip sim)
  have htick' := tick_tick .idle ((underTrip sim).tick .idle)
  have hstart : (underTrip sim).sim.state.tick = 0 := h0
  rw [hstart] at htick
  rw [htick] at htick'
  have htaps : (underTrip sim).snapshot.taps =
      Taps.new tripThenDropout (SignalMap.points .bare) := rfl
  have hdropout : ∀ tick, (Taps.new tripThenDropout (SignalMap.points .bare)).dropout .mqtt tick =
      (decide (2 ≤ tick) && decide (tick < 62)) := by
    intro tick
    by_cases hin : 2 ≤ tick ∧ tick < 62 <;>
      simp [Taps.new, tripThenDropout, Scheduled.window, windowOf, Taps.dropout, Taps.openAt,
        Window.covers, TICK_SECONDS, U64.add, U64.SIZE, hin]
  constructor
  · change ((underTrip sim).tick .idle).snapshot.taps.dropout .mqtt
      ((underTrip sim).tick .idle).sim.state.tick = false
    rw [dropout_scheduled hwindows, htaps, hdropout, htick]
    decide
  · change (((underTrip sim).tick .idle).tick .idle).snapshot.taps.dropout .mqtt
      (((underTrip sim).tick .idle).tick .idle).sim.state.tick = true
    rw [dropout_scheduled (hwindows'.trans hwindows), htaps, hdropout, htick']
    decide

/-- Two ticks on, the batch of the first is the next to be taken. -/
theorem underTrip_next : ∃ batch,
    (((World.start (Emulator.start (underTrip sim)) (⟨⟩ : BessCadence.Taker)).act .idle .tick).act
      .idle .tick).next = some ⟨batch, ((underTrip sim).tick .idle).snapshot⟩ := by
  obtain ⟨batch, hbatch⟩ := underTrip_batch h h0
  refine ⟨batch, ?_⟩
  have hfeed : ((World.start (Emulator.start (underTrip sim)) (⟨⟩ : BessCadence.Taker)).act .idle
      .tick).feed = ⟨[⟨batch, ((underTrip sim).tick .idle).snapshot⟩], 0⟩ := by
    change (match ((underTrip sim).tick .idle).batch with
      | none => (Feed.empty : Feed (Born ℝ))
      | some batch => Feed.empty.send ⟨batch, ((underTrip sim).tick .idle).snapshot⟩) = _
    rw [hbatch]
    rfl
  exact World.next_tick hfeed .idle

/-- Born live at tick 1, taken at tick 2, the batch goes into the dropout's store. -/
theorem underTrip_late :
    ¬ Traces.Always (World.act .idle) World.TreatsAsBorn
      (World.start (Emulator.start (underTrip sim)) (⟨⟩ : BessCadence.Taker))
      [.tick, .tick, .take 0] := by
  obtain ⟨batch, hnext⟩ := underTrip_next h h0
  obtain ⟨hborn, hlater⟩ := underTrip_dropout h0
  have hstart : (World.start (Emulator.start (underTrip sim)) (⟨⟩ : BessCadence.Taker)).Eventful :=
    fun born hb => by cases hb
  have heventful := World.eventful_act .idle _ .tick (World.eventful_act .idle _ .tick hstart)
  rintro ⟨-, -, htake, -⟩
  obtain ⟨hsame | ⟨hin, -⟩, -⟩ := ((World.treats_iff _ (.take 0) heventful).mp htake) _ hnext
  · exact absurd (hlater.symm.trans (hsame.trans hborn)) (by decide)
  · exact absurd (hin.symm.trans hborn) (by decide)

end

theorem simulation_start (r : Resolved ℝ) (cfg : PlantConfig ℝ) (models : Models ℝ) :
    Sound (r.simulation cfg models) ∧ (r.simulation cfg models).state.tick = 0 := by
  have hshape := shaped_new cfg r.params.seed r.params.startUnixS
  exact ⟨sound_fromState ⟨hshape.count, hshape.blocks⟩, rfl⟩

/-- The reference plant under the story, its publisher two ticks behind. -/
theorem late_batch_stored :
    ¬ Traces.Always (World.act .idle) World.TreatsAsBorn
      (World.start (Emulator.start (underTrip
        (tripThenDropout.simulation PlantConfig.gw01 (Reference.idle.models PlantConfig.gw01))))
        (⟨⟩ : BessCadence.Taker))
      [.tick, .tick, .take 0] := by
  obtain ⟨hsound, h0⟩ := simulation_start tripThenDropout PlantConfig.gw01
    (Reference.idle.models PlantConfig.gw01)
  exact underTrip_late hsound h0

end BessBatches
