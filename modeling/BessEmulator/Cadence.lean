import BessEmulator.Accounting
import BessEmulator.Publisher

/-!
# Cadence across scenario loads

Wakes of the publisher between ticks and loads, with a client that takes
everything and no dropout. The last publication times outlive the plant they
were taken from, so a plant that starts behind them stays silent.
-/
namespace BessCadence

open Bess BessOutbox

section

variable {F : Type} [Scalar F] {S : Type} [Sink (Payload F) S]

/-- A client that never refuses. -/
def Willing (P S : Type) [Sink P S] : Prop := ∀ (s : S) (m : Message P), (Sink.publish s m).2 = .ok ()

theorem publish_willing {P S : Type} [Sink P S] (hw : Willing P S) (r : Recorded P S)
    (m : Message P) :
    ∃ sink, Sink.publish r m = ((⟨sink, r.delivered ++ [m]⟩ : Recorded P S), .ok ()) := by
  have hok := hw r.sink m
  change ∃ sink, r.publish m = _
  rcases hp : Sink.publish r.sink m with ⟨sink, e | u⟩
  · rw [hp] at hok
    cases hok
  · exact ⟨sink, by simp only [Recorded.publish, hp]⟩

/-- An outbox with nothing stored and nothing to replay. -/
structure Idle {P : Type} (o : Outbox P) : Prop where
  store : o.store = []
  replaying : o.replaying = false

abbrev Client (F S : Type) := Recorded (Payload F) S

variable {snap : Snapshot F} {o : Outbox (Payload F)} {pub : Publisher F (Client F S)}

/-- No dropout is open on the broker's side at the snapshot's tick. -/
def Online (snap : Snapshot F) : Prop := snap.taps.dropout .mqtt snap.state.tick = false

omit [Scalar F] in
theorem observe_idle (hs : Online snap) (h : Idle o) :
    Idle (o.observe snap.taps snap.state.tick).1 := by
  obtain ⟨hstore, hreplaying, -⟩ := Outbox.observe_online (o := o) hs
  exact ⟨hstore.trans h.store, hreplaying.trans h.replaying⟩

omit [Scalar F] in
/-- Online and idle, a send goes straight to the wire. -/
theorem send_idle (hs : Online snap) (hw : Willing (Payload F) S) (h : Idle o) (r : Client F S)
    (m : Message (Payload F)) :
    ∃ o' sink, o.send r snap.taps snap.state.tick m =
        (o', (⟨sink, r.delivered ++ [m]⟩ : Client F S), .ok ()) ∧ Idle o' := by
  have hidle := observe_idle hs h
  obtain ⟨sink, hp⟩ := publish_willing hw r m
  refine ⟨_, sink, ?_, hidle⟩
  rw [← hp]
  have hoff : snap.taps.dropout .mqtt snap.state.tick = false := hs
  simp [Outbox.send_eq, hoff, h.replaying]

omit [Scalar F] in
/-- Online and idle, a backfill finds nothing to replay. -/
theorem backfill_idle (hs : Online snap) (h : Idle o) (r : Client F S) :
    ∃ o', o.backfill r snap.taps snap.state.tick = (o', r) ∧ Idle o' := by
  have hidle := observe_idle hs h
  rw [Outbox.backfill_eq]
  split
  · refine ⟨{ o.atReplay snap.taps snap.state.tick with replaying := false }, ?_, hidle.store, rfl⟩
    have hstore : (o.atReplay snap.taps snap.state.tick).store = [] := hidle.store
    simp [Outbox.drain, hstore, BURST]
  · exact ⟨_, rfl, hidle⟩

/-- The loop puts the points that are due on the wire, in map order. -/
theorem cadenceLoop_eq (hs : Online snap) (hw : Willing (Payload F) S) (last : Cadence → Option Int)
    (ps : List (Point F × Nat)) (h : Idle o) (r : Client F S) :
    ∃ o' sink, Publisher.cadenceLoop last snap ps (o, r) =
        ((o', (⟨sink, r.delivered ++
          (ps.filter (cadenceDue last snap.state.unixTimeS)).map (cadenceMessage snap)⟩ :
            Client F S)), ps.filter (cadenceDue last snap.state.unixTimeS)) ∧ Idle o' := by
  induction ps generalizing o r with
  | nil => exact ⟨o, r.sink, by simp [Publisher.cadenceLoop], h⟩
  | cons p ps ih =>
    cases hd : cadenceDue last snap.state.unixTimeS p with
    | false =>
      obtain ⟨o', sink, hloop, hidle⟩ := ih h r
      refine ⟨o', sink, ?_, hidle⟩
      simp [Publisher.cadenceLoop, hd, hloop]
    | true =>
      obtain ⟨o₁, sink₁, hsend, hidle₁⟩ := send_idle hs hw h r (cadenceMessage snap p)
      obtain ⟨o', sink, hloop, hidle⟩ := ih hidle₁ ⟨sink₁, r.delivered ++ [cadenceMessage snap p]⟩
      refine ⟨o', sink, ?_, hidle⟩
      simp [Publisher.cadenceLoop, hd, hsend, hloop]

/-- What a cadence pass does online: the due points go out, and only they. -/
structure CadencePass (snap : Snapshot F) (pub after : Publisher F (Client F S))
    (sent : List (Point F × Nat)) : Prop where
  due : sent = pub.points.zipIdx.filter (cadenceDue pub.lastPubS snap.state.unixTimeS)
  wire : after.client.delivered = pub.client.delivered ++ sent.map (cadenceMessage snap)
  last : after.lastPubS = fun i =>
    if Bess.due (pub.lastPubS i) snap.state.unixTimeS i.periodS then some snap.state.unixTimeS
    else pub.lastPubS i
  points : after.points = pub.points
  idle : Idle after.outbox

theorem cadence_pass (hs : Online snap) (hw : Willing (Payload F) S) (h : Idle pub.outbox) :
    CadencePass snap pub (pub.publishCadence snap).1 (pub.publishCadence snap).2 := by
  obtain ⟨o', sink, hloop, hidle⟩ := cadenceLoop_eq hs hw pub.lastPubS pub.points.zipIdx h pub.client
  have hpass : pub.publishCadence snap = ({ pub with
      outbox := o'
      client := ⟨sink, pub.client.delivered ++ (pub.points.zipIdx.filter
        (cadenceDue pub.lastPubS snap.state.unixTimeS)).map (cadenceMessage snap)⟩
      lastPubS := fun i =>
        if due (pub.lastPubS i) snap.state.unixTimeS i.periodS then some snap.state.unixTimeS
        else pub.lastPubS i },
      pub.points.zipIdx.filter (cadenceDue pub.lastPubS snap.state.unixTimeS)) := by
    simp only [Publisher.publishCadence, hloop]
  rw [hpass]
  exact ⟨rfl, rfl, rfl, rfl, hidle⟩

/-- What the other two passes of a wake leave alone. -/
structure Aside (pub after : Publisher F (Client F S)) : Prop where
  last : after.lastPubS = pub.lastPubS
  points : after.points = pub.points
  idle : Idle after.outbox

omit [Scalar F] in
theorem backfill_aside (hs : Online snap) (h : Idle pub.outbox) : Aside pub (pub.backfill snap) := by
  obtain ⟨o', hback, hidle⟩ := backfill_idle hs h pub.client
  have hpub : pub.backfill snap = { pub with outbox := o' } := by
    simp only [Publisher.backfill, hback]
  rw [hpub]
  exact ⟨rfl, rfl, hidle⟩

theorem publishWord_aside (hs : Online snap) (hw : Willing (Payload F) S) (h : Idle pub.outbox)
    (p : Point F × Nat) : Aside pub (pub.publishWord snap p) := by
  obtain ⟨o', sink, hsend, hidle⟩ := send_idle hs hw h pub.client (wordMessage snap p)
  simp only [Publisher.publishWord, hsend]
  split
  · exact ⟨rfl, rfl, h⟩
  · exact ⟨rfl, rfl, hidle⟩

omit [Scalar F] [Sink (Payload F) S] in
theorem forget_aside (hs : Online snap) (h : Idle pub.outbox) (connection : Nat) :
    Aside pub (pub.forget snap connection) := by
  have hidle : Idle (pub.outbox.takeReturned snap.taps snap.state.tick).1 :=
    ⟨(observe_idle hs h).store, (observe_idle hs h).replaying⟩
  simp only [Publisher.forget]
  split
  · exact ⟨rfl, rfl, hidle⟩
  · exact ⟨rfl, rfl, hidle⟩

theorem publishChanged_aside (hs : Online snap) (hw : Willing (Payload F) S) (h : Idle pub.outbox)
    (connection : Nat) : Aside pub (pub.publishChanged snap connection) := by
  have hfold : ∀ (ps : List (Point F × Nat)) (q : Publisher F (Client F S)), Aside pub q →
      Aside pub (ps.foldl (Publisher.publishWord snap) q) := by
    intro ps
    induction ps with
    | nil => intro q hq; exact hq
    | cons p ps ih =>
      intro q hq
      have hword := publishWord_aside hs hw hq.idle p
      exact ih _ ⟨hword.last.trans hq.last, hword.points.trans hq.points, hword.idle⟩
  exact hfold _ _ (forget_aside hs h connection)

/-- A class the map has a point of. -/
def Carried (points : List (Point F)) (i : Cadence) : Prop :=
  ∃ p ∈ points, classIndex p.pointClass = some i

/-- Whether every point of a class is among those sent. -/
def sends (points : List (Point F)) (sent : List (Point F × Nat)) (i : Cadence) : Bool :=
  points.zipIdx.all fun p =>
    decide (classIndex p.1.pointClass ≠ some i) || (sent.map Prod.snd).contains p.2

omit [Scalar F] in
theorem cadenceDue_class (last : Cadence → Option Int) (now : Int) {p : Point F × Nat} {i : Cadence}
    (hp : classIndex p.1.pointClass = some i) :
    cadenceDue last now p = due (last i) now i.periodS := by
  have hperiod : p.1.pointClass.periodS = some i.periodS := by
    rw [← classIndex_periodS, hp, Option.map_some]
  simp only [cadenceDue, hp, hperiod]

omit [Scalar F] in
/-- A class the map carries goes out exactly when it is due. -/
theorem sends_iff {points : List (Point F)} {last : Cadence → Option Int} {now : Int} {i : Cadence}
    (hi : Carried points i) :
    sends points (points.zipIdx.filter (cadenceDue last now)) i = true ↔
      due (last i) now i.periodS = true := by
  constructor
  · intro hall
    obtain ⟨p, hp, hclass⟩ := hi
    obtain ⟨k, hk⟩ := List.mem_iff_getElem?.mp hp
    have hmem : (p, k) ∈ points.zipIdx := List.mk_mem_zipIdx_iff_getElem?.mpr hk
    have hpoint := List.all_eq_true.mp hall (p, k) hmem
    simp only [hclass, ne_eq, not_true_eq_false, decide_false, Bool.false_or,
      List.contains_iff_mem] at hpoint
    obtain ⟨⟨q, k'⟩, hq, rfl⟩ := List.mem_map.mp hpoint
    obtain ⟨hqmem, hqdue⟩ := List.mem_filter.mp hq
    have hqk := List.mk_mem_zipIdx_iff_getElem?.mp hqmem
    rw [hk] at hqk
    cases hqk
    rw [← cadenceDue_class last now (p := (p, k')) hclass]
    exact hqdue
  · intro hdue
    refine List.all_eq_true.mpr fun p hp => ?_
    by_cases hclass : classIndex p.1.pointClass = some i
    · have hmem : p ∈ points.zipIdx.filter (cadenceDue last now) := by
        rw [List.mem_filter, cadenceDue_class last now hclass]
        exact ⟨hp, hdue⟩
      have hsnd := List.mem_map_of_mem (f := Prod.snd) hmem
      simp [hsnd]
    · simp [hclass]

/-- The emulator and its publisher; beside them, for the plant that runs,
when each class was last sent, and whether a wake has seen it. -/
structure World (F S : Type) where
  emulator : Emulator F
  publisher : Publisher F (Client F S)
  lastSent : Cadence → Option Int
  seen : Bool

inductive Act (F : Type) where
  | wake (connection : Nat)
  | post (scenario : Scenario F)
  /-- Any command of any surface. -/
  | command (c : Task.Command F)
  | recv
  | tick

/-- Whether the task takes a load from the queue next. -/
def startsOver (e : Emulator F) : Bool :=
  match e.queue with
  | .loadScenario _ :: _ => true
  | _ => false

namespace World

def start (e : Emulator F) (client : S) : World F S where
  emulator := e
  publisher := Publisher.new ⟨client, []⟩ e.task.map.points
  lastSent _ := none
  seen := false

/-- The plant's clock, as the snapshot published last has it. -/
def now (w : World F S) : Int := w.emulator.snapshot.state.unixTimeS

/-- The publisher a wake's cadence pass starts from. -/
def caughtUp (w : World F S) : Publisher F (Client F S) := w.publisher.backfill w.emulator.snapshot

/-- The points a wake's cadence pass gets rid of. -/
def sent (w : World F S) : List (Point F × Nat) :=
  (w.caughtUp.publishCadence w.emulator.snapshot).2

def wake (w : World F S) (connection : Nat) : World F S where
  emulator := w.emulator
  publisher := w.publisher.wake w.emulator.snapshot connection
  lastSent i := if sends w.publisher.points w.sent i then some w.now else w.lastSent i
  seen := true

/-- A load starts a new plant, for which nothing has been sent. -/
def recv (ref : Reference F) (w : World F S) : World F S where
  emulator := w.emulator.recv ref
  publisher := w.publisher
  lastSent i := if startsOver w.emulator then none else w.lastSent i
  seen := w.seen && !startsOver w.emulator

def act (ref : Reference F) (w : World F S) : Act F → World F S
  | .wake connection => w.wake connection
  | .post scenario => { w with emulator := w.emulator.postScenario scenario }
  | .command c => { w with emulator := (w.emulator.trySend c).getD w.emulator }
  | .recv => w.recv ref
  | .tick => { w with emulator := w.emulator.tick ref }

/-- What a wake owes: what the pass sends is on the wire; every
class that was not sent for this plant, or was its period ago, is sent; so none
has been silent for its period when the wake is over. -/
structure Punctual (w : World F S) : Prop where
  wire : (w.caughtUp.publishCadence w.emulator.snapshot).1.client.delivered =
    w.caughtUp.client.delivered ++ w.sent.map (cadenceMessage w.emulator.snapshot)
  owed : ∀ i, Carried w.publisher.points i → due (w.lastSent i) w.now i.periodS = true →
    sends w.publisher.points w.sent i = true
  silence : ∀ i, Carried w.publisher.points i → ∃ t,
    (if sends w.publisher.points w.sent i then some w.now else w.lastSent i) = some t ∧
      w.now - t < i.periodS

/-- If this is the first wake to see a plant, its clock is a period or more past
the last publication of each class, on whatever plant that was. -/
def Forward (w : World F S) : Prop :=
  w.seen = false → ∀ i, Carried w.publisher.points i →
    ∀ t, w.publisher.lastPubS i = some t → i.periodS ≤ w.now - t

/-- A property of every wake of a run. -/
def EveryWake (ref : Reference F) (P : World F S → Prop) (w : World F S) : List (Act F) → Prop
  | [] => True
  | .wake connection :: as => P w ∧ EveryWake ref P (w.act ref (.wake connection)) as
  | a :: as => EveryWake ref P (w.act ref a) as

/-- What ties the publisher's memory to the plant that runs. -/
structure Tied (w : World F S) : Prop where
  idle : Idle w.publisher.outbox
  unseen : w.seen = false → ∀ i, w.lastSent i = none
  seen : w.seen = true → ∀ i, Carried w.publisher.points i → w.lastSent i = w.publisher.lastPubS i

variable {w : World F S}

/-- Online, a wake sends a class of the map exactly when the publisher finds it due. -/
theorem sends_sent (hw : Willing (Payload F) S) (hs : Online w.emulator.snapshot) (h : Tied w)
    {i : Cadence} (hi : Carried w.publisher.points i) :
    sends w.publisher.points w.sent i = true ↔
      due (w.publisher.lastPubS i) w.now i.periodS = true := by
  have haside : Aside w.publisher w.caughtUp := backfill_aside hs h.idle
  have hpass := cadence_pass hs hw haside.idle
  rw [sent, hpass.due, haside.points, haside.last]
  exact sends_iff hi

omit [Sink (Payload F) S] in
theorem tied_start (e : Emulator F) (client : S) : Tied (start e client) where
  idle := ⟨rfl, rfl⟩
  unseen _ _ := rfl
  seen h := by cases h

/-- A wake of a tied world is punctual exactly if it does not see a plant that
started behind the last publications. -/
theorem punctual_iff (hw : Willing (Payload F) S) (hs : Online w.emulator.snapshot) (h : Tied w) :
    Punctual w ↔ Forward w := by
  constructor
  · intro hp hseen i hi t ht
    have howed : due (w.lastSent i) w.now i.periodS = true := by
      rw [h.unseen hseen i]
      rfl
    have hdue := (sends_sent hw hs h hi).mp (hp.owed i hi howed)
    rw [ht] at hdue
    exact of_decide_eq_true hdue
  · intro hf
    have hsame : ∀ i, Carried w.publisher.points i → due (w.lastSent i) w.now i.periodS = true →
        due (w.publisher.lastPubS i) w.now i.periodS = true := by
      intro i hi howed
      cases hseen : w.seen with
      | true =>
        rw [← h.seen hseen i hi]
        exact howed
      | false =>
        cases hl : w.publisher.lastPubS i with
        | none => rfl
        | some t => exact decide_eq_true (hf hseen i hi t hl)
    refine ⟨(cadence_pass hs hw (backfill_aside hs h.idle).idle).wire, ?_, ?_⟩
    · intro i hi howed
      exact (sends_sent hw hs h hi).mpr (hsame i hi howed)
    · intro i hi
      by_cases hsend : sends w.publisher.points w.sent i = true
      · have hpos := periodS_pos i
        exact ⟨w.now, by rw [if_pos hsend], by omega⟩
      · rw [if_neg hsend]
        have hnot : ¬ due (w.lastSent i) w.now i.periodS = true := fun howed =>
          hsend ((sends_sent hw hs h hi).mpr (hsame i hi howed))
        cases hl : w.lastSent i with
        | none =>
          rw [hl] at hnot
          exact absurd rfl hnot
        | some t =>
          refine ⟨t, rfl, ?_⟩
          rw [hl] at hnot
          simpa [due] using hnot

/-- Online, a wake is the cadence pass as far as the publisher's memory goes. -/
theorem wake_aside (hw : Willing (Payload F) S) (hs : Online w.emulator.snapshot)
    (h : Idle w.publisher.outbox) (connection : Nat) :
    (w.wake connection).publisher.points = w.publisher.points ∧
      Idle (w.wake connection).publisher.outbox ∧
      ∀ i, (w.wake connection).publisher.lastPubS i =
        if due (w.publisher.lastPubS i) w.now i.periodS then some w.now
        else w.publisher.lastPubS i := by
  have hback := backfill_aside hs h
  have hpass := cadence_pass hs hw hback.idle
  have hafter := publishChanged_aside hs hw hpass.idle connection
  refine ⟨hafter.points.trans (hpass.points.trans hback.points), hafter.idle, fun i => ?_⟩
  refine (congrFun (hafter.last.trans hpass.last) i).trans ?_
  rw [hback.last]
  rfl

/-- A wake that sees no plant behind the last publications ties the two. -/
theorem tied_wake (hw : Willing (Payload F) S) (hs : Online w.emulator.snapshot) (h : Tied w)
    (hf : Forward w) (connection : Nat) : Tied (w.wake connection) := by
  obtain ⟨hpoints, hidle, hlast⟩ := wake_aside hw hs h.idle connection
  refine ⟨hidle, (fun hseen => by cases hseen), fun _ i hi => ?_⟩
  rw [hpoints] at hi
  rw [hlast]
  change (if sends w.publisher.points w.sent i then some w.now else w.lastSent i) = _
  by_cases hdue : due (w.publisher.lastPubS i) w.now i.periodS = true
  · rw [if_pos hdue, if_pos ((sends_sent hw hs h hi).mpr hdue)]
  · rw [if_neg hdue, if_neg fun hsend => hdue ((sends_sent hw hs h hi).mp hsend)]
    cases hseen : w.seen with
    | true => exact h.seen hseen i hi
    | false =>
      cases hl : w.publisher.lastPubS i with
      | none =>
        rw [hl] at hdue
        exact absurd rfl hdue
      | some t =>
        rw [hl] at hdue
        exact absurd (decide_eq_true (hf hseen i hi t hl)) hdue

omit [Sink (Payload F) S] in
theorem tied_recv (ref : Reference F) (h : Tied w) : Tied (w.recv ref) where
  idle := h.idle
  unseen hseen i := by
    cases hover : startsOver w.emulator with
    | true => simp [recv, hover]
    | false =>
      have hw : w.seen = false := by simpa [recv, hover] using hseen
      simp [recv, hover, h.unseen hw i]
  seen hseen i hi := by
    have hw : w.seen = true ∧ startsOver w.emulator = false := by simpa [recv] using hseen
    simp only [recv, hw.2, Bool.false_eq_true, if_false]
    exact h.seen hw.1 i hi

/-- From a tied world, every wake of a run is punctual exactly if none sees a
plant behind the last publications. -/
theorem punctual_run (hw : Willing (Payload F) S) (ref : Reference F) (acts : List (Act F))
    (h : Tied w) (hopen : EveryWake ref (fun w => Online w.emulator.snapshot) w acts) :
    EveryWake ref Punctual w acts ↔ EveryWake ref Forward w acts := by
  induction acts generalizing w with
  | nil => exact Iff.rfl
  | cons a as ih =>
    cases a with
    | wake connection =>
      obtain ⟨hs, hrest⟩ := hopen
      constructor
      · rintro ⟨hp, has⟩
        have hf := (punctual_iff hw hs h).mp hp
        exact ⟨hf, (ih (tied_wake hw hs h hf connection) hrest).mp has⟩
      · rintro ⟨hf, has⟩
        exact ⟨(punctual_iff hw hs h).mpr hf, (ih (tied_wake hw hs h hf connection) hrest).mpr has⟩
    | post scenario => exact ih ⟨h.idle, h.unseen, h.seen⟩ hopen
    | command c => exact ih ⟨h.idle, h.unseen, h.seen⟩ hopen
    | recv => exact ih (tied_recv ref h) hopen
    | tick => exact ih ⟨h.idle, h.unseen, h.seen⟩ hopen

end World

/-- With a client that takes everything and no dropout open at a wake, every
wake of a run is punctual exactly if no wake is the first to see a plant whose
clock stands less than a period past a class's last publication. -/
theorem cadence_kept (hw : Willing (Payload F) S) (ref : Reference F) (e : Emulator F) (client : S)
    (acts : List (Act F))
    (hopen : World.EveryWake ref (fun w => Online w.emulator.snapshot) (World.start e client) acts) :
    World.EveryWake ref World.Punctual (World.start e client) acts ↔
      World.EveryWake ref World.Forward (World.start e client) acts :=
  World.punctual_run hw ref acts (World.tied_start e client) hopen

end

/-- A client with room for everything. -/
structure Taker where

instance : Sink (Payload ℝ) Taker where
  publish s _ := (s, .ok ())

theorem taker_willing : Willing (Payload ℝ) Taker := fun _ _ => rfl

/-- The reference plant, started on the first of January 2026. -/
noncomputable def plant2026 : World ℝ Taker :=
  World.start
    (Emulator.start
      (Task.start (Simulation.new PlantConfig.gw01 (Reference.idle.models PlantConfig.gw01) 42 1767225600) 1 none
        .bare)) ⟨⟩

/-- A scenario with nothing but a start date. -/
def startingAt (startUnixS : Int) : Scenario ℝ where
  id := ⟨"start", 1⟩
  seed := none
  startUnixS := some startUnixS
  speed := none
  lengthS := none
  events := []

/-- A wake, a scenario loaded, and the first wake to see its plant. -/
def reload (startUnixS : Int) : List (Act ℝ) :=
  [.wake 1, .post (startingAt startUnixS), .recv, .wake 1]

theorem plant2026_online : Online plant2026.emulator.snapshot := rfl

theorem reload_online (startUnixS : Int) :
    World.EveryWake .idle (fun w => Online w.emulator.snapshot) plant2026 (reload startUnixS) := by
  refine ⟨plant2026_online, ?_, trivial⟩
  have hschedule : ∀ params, ((startingAt startUnixS).resolve params).schedule = [] := by
    intro params
    simp [Scenario.resolve, startingAt]
  have htaps : ∀ (params : RunParams ℝ) (points : List (Point ℝ)),
      Taps.new ((startingAt startUnixS).resolve params) points = Taps.empty := by
    intro params points
    rw [Taps.new, hschedule]
    rfl
  change (Taps.new ((startingAt startUnixS).resolve _) _).dropout .mqtt 0 = false
  rw [htaps]
  rfl

/-- What the second wake finds: the classes last published in January 2026. -/
theorem reload_last (i : Cadence) : (plant2026.wake 1).publisher.lastPubS i = some 1767225600 :=
  (World.wake_aside taker_willing plant2026_online ⟨rfl, rfl⟩ 1).2.2 i

/-- A load a year ahead keeps the cadence. -/
theorem cadence_kept_ahead :
    World.EveryWake .idle World.Punctual plant2026 (reload 1798761600) := by
  refine (cadence_kept taker_willing .idle _ ⟨⟩ _ (reload_online 1798761600)).mpr ?_
  refine ⟨?_, ?_, trivial⟩
  · intro _ i _ t ht
    cases ht
  · intro _ i _ t ht
    have hlast : some t = some (1767225600 : Int) := ht.symm.trans (reload_last i)
    cases hlast
    change i.periodS ≤ 1798761600 + 0 - 1767225600
    have hperiod : ∀ i : Cadence, i.periodS ≤ 1798761600 + 0 - 1767225600 := by decide
    exact hperiod i

/-- A load a year back: the first wake to see the new plant sends nothing of it. -/
theorem backdated_load_silent :
    ¬ World.EveryWake .idle World.Punctual plant2026 (reload 1735689600) := by
  intro hp
  have hf := (World.punctual_run taker_willing .idle _ (World.tied_start _ _)
    (reload_online 1735689600)).mp hp
  have hcarried : Carried plant2026.publisher.points 0 := ⟨_, List.mem_cons_self, rfl⟩
  have hbehind := hf.2.1 rfl 0 hcarried 1767225600 (reload_last 0)
  change (1 : Int) ≤ 1735689600 + 0 - 1767225600 at hbehind
  omega

end BessCadence
