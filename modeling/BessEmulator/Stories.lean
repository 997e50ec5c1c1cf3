import BessEmulator.Batches
import BessEmulator.OutboxOrder

/-!
# One outbox, many stories

Scenarios loaded one after another while the publisher's outbox stays. Every
message carries the story and the dropout it was sent under, so a replay can be
read against the story that asked for it.
-/
namespace BessStories

open Bess BessOutbox BessCadence

section

variable {F P S : Type}

/-- Two searches, the second with less to ask, end alike just when the second's
find would do for the first. -/
theorem find?_agree {α β : Type} (f : α → β) {p q : α → Bool} (hpq : ∀ x, p x = true → q x = true)
    (hf : ∀ x y, f x = f y → p x = p y) (xs : List α) :
    (xs.find? p).map f = (xs.find? q).map f ↔ ∀ x, xs.find? q = some x → p x = true := by
  induction xs with
  | nil => simp
  | cons x xs ih =>
    cases hp : p x with
    | true => simp [hp, hpq x hp]
    | false =>
      cases hq : q x with
      | false => simpa [List.find?_cons, hp, hq] using ih
      | true =>
        simp only [List.find?_cons, hp, hq, Option.map_some, Option.some.injEq, forall_eq',
          Bool.false_eq_true, iff_false, Option.map_eq_some_iff, not_exists, not_and]
        intro y hy hxy
        rw [hf x y hxy.symm, List.find?_some hy] at hp
        cases hp

/-- The index of the burst a backfill begins, if it begins one. -/
def begun {Q : Type} (o : Outbox Q) (taps : Taps F) (tick : Nat) : Option Nat :=
  if taps.dropout .mqtt tick || o.replaying then none
  else (o.burstDue taps tick).map Window.index

/-- What a backfill does, against a client that takes everything. -/
structure Backfilled {Q : Type} [Sink Q S] (o : Outbox Q) (r : Recorded Q S) (taps : Taps F)
    (tick : Nat) (out : List (Message Q)) : Prop where
  replayed : (o.backfill r taps tick).1.replayed = o.replayed ++ (begun o taps tick).toList
  wire : (o.backfill r taps tick).2.delivered = r.delivered ++ out
  offline : (o.backfill r taps tick).1.offline = taps.dropout .mqtt tick
  idle : o.drains taps tick = false → out = [] ∧
    (o.backfill r taps tick).1.store = (o.observe taps tick).1.store
  drains : o.drains taps tick = true → out = o.store.take BURST ∧
    o.store = out ++ (o.backfill r taps tick).1.store

theorem backfill_moves {Q : Type} [Sink Q S] (hw : Willing Q S) (o : Outbox Q) (r : Recorded Q S)
    (taps : Taps F) (tick : Nat) : ∃ out, Backfilled o r taps tick out := by
  have hreplayed := Outbox.observe_replayed o taps tick
  have hoff := (Outbox.observe_edges o taps tick).1
  have hback := Outbox.backfill_eq o r taps tick
  cases hdrains : o.drains taps tick with
  | true =>
    have hd := Outbox.drains_online hdrains
    rw [hdrains, if_pos rfl] at hback
    obtain ⟨out, htaken, hout, hwire, hstill, -, hdrained, -⟩ :=
      drain_moves hw BURST (o.atReplay taps tick) r
    rw [Outbox.atReplay_store hdrains] at htaken hout
    refine ⟨out, ⟨?_, ?_, ?_, fun hf => ?_, fun _ => ?_⟩⟩
    · rw [hback, hdrained, begun, hd, Outbox.atReplay]
      cases o.replaying <;> rfl
    · rw [hback, hwire]
    · rw [hback, hstill]
      exact hoff
    · exact absurd (hdrains.symm.trans hf) (by decide)
    · rw [hback]
      exact ⟨htaken, hout⟩
  | false =>
    rw [hdrains, if_neg (by decide)] at hback
    refine ⟨[], ⟨?_, ?_, ?_, fun _ => ?_, fun ht => ?_⟩⟩
    · have hbegun : begun o taps tick = none := by
        rw [Outbox.drains] at hdrains
        cases hd : taps.dropout .mqtt tick <;> cases hr : o.replaying <;>
          simp_all [begun]
      rw [hback, hbegun]
      simpa using hreplayed
    · rw [hback, List.append_nil]
    · rw [hback]
      exact hoff
    · rw [hback]
      exact ⟨rfl, rfl⟩
    · exact absurd (hdrains.symm.trans ht) (by decide)

/-- The story a message was sent under, and how many dropouts of it had begun. -/
abbrev Origin := Nat × Nat

abbrev Tagged (P : Type) := Message (Origin × P)

def origin (m : Tagged P) : Origin := m.payload.1

@[simp] theorem origin_history (m : Tagged P) : origin m.history = origin m := rfl

/-- The emulator and the publisher's outbox, with what the stories have come to. -/
structure Stage (F P S : Type) where
  emulator : Emulator F
  outbox : Outbox (Origin × P)
  wire : Recorded (Origin × P) S
  /-- Stories loaded so far. -/
  epoch : Nat
  /-- Dropouts the outbox saw begin under the story in force. -/
  dropouts : Nat
  /-- Bursts of the story in force that began a replay, by event index. -/
  started : List Nat
  /-- The indices of the bursts that began one under an earlier story. -/
  earlier : List Nat
  /-- Messages stored when the story in force was loaded. -/
  inherited : Nat
  /-- Messages the full store forgot since then. -/
  lost : Nat

inductive Act (F P : Type)
  | send (msg : Message P)
  | backfill
  | returned
  | post (scenario : Scenario F)
  /-- Any command of any surface. -/
  | command (c : Task.Command F)
  | recv
  | tick

namespace Stage

variable [Scalar F] [Sink (Origin × P) S]

def start (e : Emulator F) (sink : S) : Stage F P S where
  emulator := e
  outbox := .empty
  wire := ⟨sink, []⟩
  epoch := 0
  dropouts := 0
  started := []
  earlier := []
  inherited := 0
  lost := 0

def taps (s : Stage F P S) : Taps F := s.emulator.snapshot.taps

def now (s : Stage F P S) : Nat := s.emulator.snapshot.state.tick

/-- Whether a call now would find the surface in a dropout. -/
def silent (s : Stage F P S) : Bool := s.taps.dropout .mqtt s.now

/-- The dropouts begun once a call has followed the tap. -/
def dropoutsSeen (s : Stage F P S) : Nat :=
  if s.silent && !s.outbox.offline then s.dropouts + 1 else s.dropouts

/-- A message of the story in force. -/
def tagged (s : Stage F P S) (msg : Message P) : Tagged P :=
  ⟨msg.topic, ((s.epoch, s.dropoutsSeen), msg.payload), msg.qos, msg.retain⟩

def send (s : Stage F P S) (msg : Message P) : Stage F P S :=
  let (outbox, wire, _) := s.outbox.send s.wire s.taps s.now (s.tagged msg)
  { s with
    outbox := outbox
    wire := wire
    dropouts := s.dropoutsSeen
    lost := s.lost + (forgottenAt s.outbox s.taps s.now).length }

def backfill (s : Stage F P S) : Stage F P S :=
  let (outbox, wire) := s.outbox.backfill s.wire s.taps s.now
  { s with
    outbox := outbox
    wire := wire
    dropouts := s.dropoutsSeen
    started := s.started ++ (begun s.outbox s.taps s.now).toList }

def returned (s : Stage F P S) : Stage F P S :=
  { s with
    outbox := (s.outbox.takeReturned s.taps s.now).1
    dropouts := s.dropoutsSeen }

/-- A load starts a new story; the outbox stays as it is. -/
def recv (ref : Reference F) (s : Stage F P S) : Stage F P S :=
  let emulator := s.emulator.recv ref
  if startsOver s.emulator then
    { s with
      emulator := emulator
      epoch := s.epoch + 1
      dropouts := 0
      started := []
      earlier := s.earlier ++ s.started
      inherited := s.outbox.store.length
      lost := 0 }
  else { s with emulator := emulator }

def act (ref : Reference F) (s : Stage F P S) : Act F P → Stage F P S
  | .send msg => s.send msg
  | .backfill => s.backfill
  | .returned => s.returned
  | .post scenario => { s with emulator := s.emulator.postScenario scenario }
  | .command c => { s with emulator := (s.emulator.trySend c).getD s.emulator }
  | .recv => s.recv ref
  | .tick => { s with emulator := s.emulator.tick ref }

/-- The burst of the story in force that is due and has begun no replay yet. -/
def owed (s : Stage F P S) : Option (Window F) :=
  (s.taps.backfillsDue .mqtt s.now).find? fun burst => !s.started.contains burst.index

/-- A backfill that serves the story in force: outside a dropout and behind no
replay it begins the burst that is owed, and whatever it puts on the wire was
sent under that story, since its latest dropout began. -/
structure OwnReplay (s : Stage F P S) : Prop where
  starts : s.silent = false → s.outbox.replaying = false →
    s.backfill.outbox.replayed = s.outbox.replayed ++ (s.owed.map Window.index).toList
  content : ∃ out, s.backfill.wire.delivered = s.wire.delivered ++ out ∧
    ∀ m ∈ out, origin m = (s.epoch, s.dropouts)

def Owns (s : Stage F P S) : Act F P → Prop
  | .backfill => s.OwnReplay
  | _ => True

/-- The owed burst shares its index with no burst replayed under an earlier
story; and a call that drains the store finds nothing an earlier story left
there: a dropout has begun since the load, or the store has forgotten what it
held then. -/
structure Uncrossed (s : Stage F P S) : Prop where
  index : s.silent = false → s.outbox.replaying = false → ∀ burst, s.owed = some burst →
    burst.index ∉ s.earlier
  store : s.outbox.drains s.taps s.now = true → 0 < s.dropouts ∨ s.inherited ≤ s.lost

def Separate (s : Stage F P S) : Act F P → Prop
  | .backfill => s.Uncrossed
  | _ => True

/-- What the store holds: first what earlier stories left, then what the story in
force stored since its latest dropout began. -/
structure Layered (s : Stage F P S) (olds news : List (Tagged P)) : Prop where
  store : s.outbox.store = olds ++ news
  old : ∀ m ∈ olds, (origin m).1 < s.epoch
  new : ∀ m ∈ news, origin m = (s.epoch, s.dropouts)
  left : olds.length = if s.dropouts = 0 then s.inherited - s.lost else 0

structure Sorted (s : Stage F P S) : Prop where
  replayed : ∀ i, i ∈ s.outbox.replayed ↔ i ∈ s.earlier ∨ i ∈ s.started
  layers : ∃ olds news, s.Layered olds news

omit [Scalar F] [Sink (Origin × P) S] in
/-- Following the tap clears the store or leaves it. -/
theorem layered_follow {s : Stage F P S} (h : ∃ olds news, s.Layered olds news) :
    ∃ olds news, ({ s with
      outbox := (s.outbox.observe s.taps s.now).1
      dropouts := s.dropoutsSeen } : Stage F P S).Layered olds news := by
  obtain ⟨olds, news, hl⟩ := h
  have hstore := s.outbox.observe_store s.taps s.now
  cases hbegin : s.silent && !s.outbox.offline with
  | true =>
    have hclear : s.outbox.clearedAt s.taps s.now = s.outbox.store := if_pos hbegin
    rw [hclear] at hstore
    have hempty : (s.outbox.observe s.taps s.now).1.store = [] :=
      List.self_eq_append_right.mp hstore
    refine ⟨[], [], hempty, fun m hm => absurd hm List.not_mem_nil,
      fun m hm => absurd hm List.not_mem_nil, ?_⟩
    have hseen : s.dropoutsSeen = s.dropouts + 1 := if_pos hbegin
    simp [hseen]
  | false =>
    have hclear : s.outbox.clearedAt s.taps s.now = [] := if_neg (by
      rw [Bool.not_eq_true]
      exact hbegin)
    rw [hclear, List.nil_append] at hstore
    have hseen : s.dropoutsSeen = s.dropouts := if_neg (by simp [hbegin])
    refine ⟨olds, news, hstore.symm.trans hl.store, hl.old, fun m hm => ?_, ?_⟩
    · rw [hl.new m hm, hseen]
    · rw [hl.left, hseen]

omit [Scalar F] [Sink (Origin × P) S] in
/-- A kept message joins the newest layer; a full store forgets the oldest. -/
theorem layered_keep {s : Stage F P S} (h : ∃ olds news, s.Layered olds news) {m : Tagged P}
    (hm : origin m = (s.epoch, s.dropouts)) :
    ∃ olds news, ({ s with
      outbox := s.outbox.keep m
      lost := s.lost + s.outbox.forgottenBy.length } : Stage F P S).Layered olds news := by
  obtain ⟨olds, news, hl⟩ := h
  have hnew : ∀ ns : List (Tagged P), (∀ m' ∈ ns, origin m' = (s.epoch, s.dropouts)) →
      ∀ m' ∈ ns ++ [m], origin m' = (s.epoch, s.dropouts) := by
    intro ns hns m' hm'
    rcases List.mem_append.mp hm' with hold | hlast
    · exact hns m' hold
    · rw [List.mem_singleton.mp hlast]
      exact hm
  by_cases hfull : s.outbox.store.length = STORE
  · have hpos : 0 < s.outbox.store.length := by
      rw [hfull]
      decide
    have hforgot : s.outbox.forgottenBy.length = 1 := by
      rw [Outbox.forgottenBy, if_pos hfull, List.length_take]
      omega
    have hkeep : (s.outbox.keep m).store = s.outbox.store.tail ++ [m] := by
      rw [Outbox.keep, if_pos hfull]
    have hleft := hl.left
    cases olds with
    | nil =>
      have htail : ∀ m' ∈ news.tail, origin m' = (s.epoch, s.dropouts) :=
        fun m' hm' => hl.new m' (List.mem_of_mem_tail hm')
      refine ⟨[], news.tail ++ [m], ?_, fun m' hm' => absurd hm' List.not_mem_nil, hnew _ htail, ?_⟩
      · rw [hkeep, hl.store]
        rfl
      · simp only [hforgot]
        split at hleft <;> simp_all
        omega
    | cons x olds =>
      refine ⟨olds, news ++ [m], ?_, fun m' hm' => hl.old m' (List.mem_cons_of_mem _ hm'),
        hnew _ hl.new, ?_⟩
      · rw [hkeep, hl.store]
        simp
      · simp only [hforgot]
        rw [List.length_cons] at hleft
        split at hleft <;> simp_all
        omega
  · have hforgot : s.outbox.forgottenBy.length = 0 := by
      rw [Outbox.forgottenBy, if_neg hfull]
      rfl
    refine ⟨olds, news ++ [m], ?_, hl.old, hnew _ hl.new, ?_⟩
    · rw [Outbox.keep, if_neg hfull]
      simp only [hl.store, List.append_assoc]
    · rw [hforgot]
      exact hl.left

omit [Scalar F] [Sink (Origin × P) S] in
theorem layered_congr {s s' : Stage F P S} (h : ∃ olds news, s.Layered olds news)
    (hstore : s'.outbox.store = s.outbox.store) (hepoch : s'.epoch = s.epoch)
    (hdropouts : s'.dropouts = s.dropouts) (hleft : s'.inherited - s'.lost = s.inherited - s.lost) :
    ∃ olds news, s'.Layered olds news := by
  obtain ⟨olds, news, hl⟩ := h
  refine ⟨olds, news, hstore.trans hl.store, ?_, ?_, ?_⟩
  · rw [hepoch]
    exact hl.old
  · rw [hepoch, hdropouts]
    exact hl.new
  · rw [hdropouts, hleft]
    exact hl.left

omit [Scalar F] [Sink (Origin × P) S] in
/-- The plant moves, the outbox does not. -/
theorem sorted_emulator {s : Stage F P S} (h : s.Sorted) (e : Emulator F) :
    ({ s with emulator := e } : Stage F P S).Sorted :=
  ⟨h.replayed, layered_congr h.layers rfl rfl rfl rfl⟩

omit [Scalar F] in
theorem sorted_send {s : Stage F P S} (h : s.Sorted) (msg : Message P) : (s.send msg).Sorted := by
  have hfollow := layered_follow h.layers
  have hseen := Outbox.observe_replayed s.outbox s.taps s.now
  have hout := Outbox.send_outbox s.outbox s.wire s.taps s.now (s.tagged msg)
  cases hkept : s.taps.dropout .mqtt s.now || s.outbox.replaying with
  | true =>
    rw [hkept, if_pos rfl] at hout
    have hlost : forgottenAt s.outbox s.taps s.now =
        (s.outbox.observe s.taps s.now).1.forgottenBy := if_pos hkept
    have horigin : origin (if s.taps.dropout .mqtt s.now then (s.tagged msg).history
        else s.tagged msg) = (s.epoch, s.dropoutsSeen) := by
      split <;> rfl
    refine ⟨fun i => ?_, layered_congr (layered_keep hfollow horigin) ?_ rfl rfl ?_⟩
    · change i ∈ (s.outbox.send s.wire s.taps s.now (s.tagged msg)).1.replayed ↔ _
      rw [hout, Outbox.keep_replayed, hseen]
      exact h.replayed i
    · exact congrArg Outbox.store hout
    · change s.inherited - (s.lost + (forgottenAt s.outbox s.taps s.now).length) = _
      rw [hlost]
  | false =>
    rw [hkept, if_neg (by decide)] at hout
    have hlost : forgottenAt s.outbox s.taps s.now = [] := if_neg (by rw [hkept]; decide)
    refine ⟨fun i => ?_, layered_congr hfollow ?_ rfl rfl ?_⟩
    · change i ∈ (s.outbox.send s.wire s.taps s.now (s.tagged msg)).1.replayed ↔ _
      rw [hout, hseen]
      exact h.replayed i
    · exact congrArg Outbox.store hout
    · change s.inherited - (s.lost + (forgottenAt s.outbox s.taps s.now).length) = _
      rw [hlost]
      rfl

omit [Scalar F] [Sink (Origin × P) S] in
theorem sorted_returned {s : Stage F P S} (h : s.Sorted) : s.returned.Sorted := by
  refine ⟨fun i => ?_, layered_congr (layered_follow h.layers) rfl rfl rfl rfl⟩
  change i ∈ (s.outbox.observe s.taps s.now).1.replayed ↔ _
  rw [Outbox.observe_replayed]
  exact h.replayed i

omit [Scalar F] [Sink (Origin × P) S] in
/-- What a draining backfill finds in the store, where the stories are kept apart. -/
theorem uncrossed_store {s : Stage F P S} {olds news : List (Tagged P)}
    (hl : s.Layered olds news) :
    (0 < s.dropouts ∨ s.inherited ≤ s.lost) ↔ olds = [] := by
  rw [← List.length_eq_zero_iff, hl.left]
  split <;> omega

omit [Scalar F] in
theorem sorted_backfill (hw : Willing (Origin × P) S) {s : Stage F P S} (h : s.Sorted)
    (hs : s.Uncrossed) : s.backfill.Sorted := by
  obtain ⟨out, hb⟩ := backfill_moves hw s.outbox s.wire s.taps s.now
  constructor
  · intro i
    change i ∈ (s.outbox.backfill s.wire s.taps s.now).1.replayed ↔
      i ∈ s.earlier ∨ i ∈ s.started ++ (begun s.outbox s.taps s.now).toList
    rw [hb.replayed, List.mem_append, List.mem_append, h.replayed i, or_assoc]
  · cases hdrains : s.outbox.drains s.taps s.now with
    | false => exact layered_congr (layered_follow h.layers) (hb.idle hdrains).2 rfl rfl rfl
    | true =>
      obtain ⟨olds, news, hl⟩ := h.layers
      obtain rfl := (uncrossed_store hl).mp (hs.store hdrains)
      obtain ⟨-, hout⟩ := hb.drains hdrains
      have hsilent : s.silent = false := by
        simp only [Outbox.drains, Bool.and_eq_true, Bool.not_eq_true'] at hdrains
        exact hdrains.1
      have hseen : s.dropoutsSeen = s.dropouts := if_neg (by simp [hsilent])
      refine ⟨[], s.backfill.outbox.store, rfl, hl.old, fun m hm => ?_, ?_⟩
      · have hmem : m ∈ news := by
          rw [← List.nil_append news, ← hl.store, hout]
          exact List.mem_append_right _ hm
        exact (hl.new m hmem).trans (congrArg (Prod.mk s.epoch) hseen.symm)
      · change [].length = if s.dropoutsSeen = 0 then _ else _
        rw [hseen]
        exact hl.left

omit [Sink (Origin × P) S] in
theorem sorted_recv (ref : Reference F) {s : Stage F P S} (h : s.Sorted) : (s.recv ref).Sorted := by
  rw [recv]
  split
  · obtain ⟨olds, news, hl⟩ := h.layers
    refine ⟨fun i => ?_, s.outbox.store, [], (List.append_nil _).symm, fun m hm => ?_,
      fun m hm => absurd hm List.not_mem_nil, rfl⟩
    · rw [h.replayed i]
      simp
    · change (origin m).1 < s.epoch + 1
      rw [hl.store] at hm
      rcases List.mem_append.mp hm with hold | hnew
      · exact Nat.lt_succ_of_lt (hl.old m hold)
      · rw [hl.new m hnew]
        exact Nat.lt_succ_self _
  · exact sorted_emulator h _

theorem sorted_act (hw : Willing (Origin × P) S) (ref : Reference F) (s : Stage F P S)
    (a : Act F P) (h : s.Sorted) (hs : s.Separate a) : (s.act ref a).Sorted := by
  cases a with
  | send msg => exact sorted_send h msg
  | backfill => exact sorted_backfill hw h hs
  | returned => exact sorted_returned h
  | post scenario => exact sorted_emulator h _
  | command c => exact sorted_emulator h _
  | recv => exact sorted_recv ref h
  | tick => exact sorted_emulator h _

omit [Scalar F] [Sink (Origin × P) S] in
theorem sorted_start (e : Emulator F) (sink : S) : (start e sink : Stage F P S).Sorted where
  replayed i := by simp [start, Outbox.empty]
  layers := ⟨[], [], rfl, fun m hm => absurd hm List.not_mem_nil,
    fun m hm => absurd hm List.not_mem_nil, rfl⟩

omit [Scalar F] in
/-- A backfill begins the story's own next burst, when no earlier story has used up its index. -/
theorem starts_iff (hw : Willing (Origin × P) S) {s : Stage F P S} (h : s.Sorted)
    (hsilent : s.silent = false) (hr : s.outbox.replaying = false) :
    s.backfill.outbox.replayed = s.outbox.replayed ++ (s.owed.map Window.index).toList ↔
      ∀ burst, s.owed = some burst → burst.index ∉ s.earlier := by
  obtain ⟨out, hb⟩ := backfill_moves hw s.outbox s.wire s.taps s.now
  have hbegun : begun s.outbox s.taps s.now =
      (s.outbox.burstDue s.taps s.now).map Window.index := by
    have hd : s.taps.dropout .mqtt s.now = false := hsilent
    simp [begun, hd, hr]
  have hlist : Function.Injective (Option.toList : Option Nat → List Nat) :=
    Function.LeftInverse.injective fun _ => Option.head?_toList
  change (s.outbox.backfill s.wire s.taps s.now).1.replayed = _ ↔ _
  rw [hb.replayed, List.append_right_inj, hlist.eq_iff, hbegun, owed, Outbox.burstDue,
    find?_agree Window.index]
  · refine forall_congr' fun burst => imp_congr_right fun hfind => ?_
    have hnew : burst.index ∉ s.started := by simpa using List.find?_some hfind
    have hmem := h.replayed burst.index
    simp [hmem, hnew]
  · intro burst hold
    have hmem := h.replayed burst.index
    simp_all
  · intro burst burst' heq
    rw [heq]

omit [Scalar F] in
/-- What a backfill replays is the story's own, when nothing older is stored. -/
theorem content_iff (hw : Willing (Origin × P) S) {s : Stage F P S} (h : s.Sorted) :
    (∃ out, s.backfill.wire.delivered = s.wire.delivered ++ out ∧
        ∀ m ∈ out, origin m = (s.epoch, s.dropouts)) ↔
      (s.outbox.drains s.taps s.now = true → 0 < s.dropouts ∨ s.inherited ≤ s.lost) := by
  obtain ⟨out, hb⟩ := backfill_moves hw s.outbox s.wire s.taps s.now
  obtain ⟨olds, news, hl⟩ := h.layers
  have hown : (∃ out, s.backfill.wire.delivered = s.wire.delivered ++ out ∧
      ∀ m ∈ out, origin m = (s.epoch, s.dropouts)) ↔
      ∀ m ∈ out, origin m = (s.epoch, s.dropouts) := by
    constructor
    · rintro ⟨out', hout', hm⟩
      obtain rfl := List.append_cancel_left (hb.wire.symm.trans hout')
      exact hm
    · exact fun hm => ⟨out, hb.wire, hm⟩
  rw [hown]
  cases hdrains : s.outbox.drains s.taps s.now with
  | false => simp [(hb.idle hdrains).1]
  | true =>
    rw [uncrossed_store hl, (hb.drains hdrains).1, hl.store]
    constructor
    · intro hm _
      cases olds with
      | nil => rfl
      | cons x olds =>
        have hlt := hl.old x List.mem_cons_self
        rw [hm x List.mem_cons_self] at hlt
        exact absurd hlt (Nat.lt_irrefl _)
    · intro holds m hm
      rw [holds rfl] at hm
      exact hl.new m (List.mem_of_mem_take hm)

omit [Scalar F] in
theorem owns_iff (hw : Willing (Origin × P) S) (s : Stage F P S) (h : s.Sorted) :
    s.OwnReplay ↔ s.Uncrossed := by
  constructor
  · intro ho
    exact ⟨fun hsilent hr => (starts_iff hw h hsilent hr).mp (ho.starts hsilent hr),
      (content_iff hw h).mp ho.content⟩
  · intro hu
    exact ⟨fun hsilent hr => (starts_iff hw h hsilent hr).mpr (hu.index hsilent hr),
      (content_iff hw h).mpr hu.store⟩

theorem owns_run (hw : Willing (Origin × P) S) (ref : Reference F) {s : Stage F P S}
    (h : s.Sorted) (acts : List (Act F P)) :
    Traces.Always (Stage.act ref) Owns s acts ↔ Traces.Always (Stage.act ref) Separate s acts := by
  apply Traces.always_congr_while _ _ h acts
  · exact fun s a h hs => sorted_act hw ref s a h hs
  · intro s a h
    cases a with
    | backfill => exact owns_iff hw s h
    | send msg => exact Iff.rfl
    | returned => exact Iff.rfl
    | post scenario => exact Iff.rfl
    | command c => exact Iff.rfl
    | recv => exact Iff.rfl
    | tick => exact Iff.rfl

/-- Along any sequence of loads, sends, backfills and questions, every replay is
the story's own just when no backfill crosses into an earlier story. -/
theorem replays_own (hw : Willing (Origin × P) S) (ref : Reference F) (e : Emulator F) (sink : S)
    (acts : List (Act F P)) :
    Traces.Always (Stage.act ref) Owns (start e sink : Stage F P S) acts ↔
      Traces.Always (Stage.act ref) Separate (start e sink : Stage F P S) acts :=
  owns_run hw ref (sorted_start e sink) acts

end Stage

end

/-- A line that takes everything. -/
structure Link where

instance : Sink (Origin × String) Link where
  publish s _ := (s, .ok ())

theorem link_willing : Willing (Origin × String) Link := fun _ _ => rfl

/-- The reference plant under a dropout of four seconds and the burst after it. -/
noncomputable def underway : Emulator ℝ :=
  Emulator.start
    (Task.start
      (dropoutThenBurst.simulation PlantConfig.gw01 (Reference.idle.models PlantConfig.gw01)) 1
      (some dropoutThenBurst) .bare)

/-- The story on tick `k`, no command waiting. -/
structure Underway (k : Nat) (e : Emulator ℝ) : Prop where
  queue : e.queue = []
  published : e.snapshot = e.task.snapshot
  tick : e.task.sim.state.tick = k
  map : e.task.map = .bare
  windows : e.task.snapshot.taps.windows.map Window.scheduled =
    (Taps.new dropoutThenBurst (SignalMap.points .bare)).windows.map Window.scheduled

theorem underway_start : Underway 0 underway := ⟨rfl, rfl, rfl, rfl, rfl⟩

theorem underway_tick {k : Nat} {e : Emulator ℝ} (h : Underway k e) :
    Underway (k + 1) (e.tick .idle) where
  queue := h.queue
  published := rfl
  tick := (tick_tick .idle e.task).trans (congrArg (· + 1) h.tick)
  map := by
    rw [← h.map]
    change e.task.fireDue.map = _
    rw [Task.fireDue]
    cases e.task.story <;> rfl
  windows := (tick_windows .idle e.task).trans h.windows

theorem underway_ticks {e : Emulator ℝ} (h : Underway 0 e) :
    Underway 4 ((((e.tick .idle).tick .idle).tick .idle).tick .idle) :=
  underway_tick (underway_tick (underway_tick (underway_tick h)))

theorem underway_dropout {k : Nat} {e : Emulator ℝ} (h : Underway k e) :
    e.snapshot.taps.dropout .mqtt e.snapshot.state.tick = decide (k < 4) := by
  rw [h.published, dropout_scheduled h.windows]
  change (Taps.new dropoutThenBurst _).dropout .mqtt e.task.sim.state.tick = _
  rw [h.tick]
  simp [Taps.new, dropoutThenBurst, Scheduled.window, windowOf, Taps.dropout, Taps.openAt,
    Window.covers, TICK_SECONDS, U64.add, U64.SIZE]

theorem underway_due {e : Emulator ℝ} (h : Underway 4 e) :
    ∃ burst, burst.index = 1 ∧
      e.snapshot.taps.backfillsDue .mqtt e.snapshot.state.tick = [burst] := by
  have hdue : ((e.snapshot.taps.backfillsDue .mqtt e.snapshot.state.tick).map
      Window.scheduled).map Window.index = [1] := by
    have htick : e.task.snapshot.state.tick = 4 := h.tick
    rw [backfillsDue_scheduled, h.published, h.windows, htick]
    simp [Taps.new, dropoutThenBurst, Scheduled.window, windowOf, Window.scheduled, TICK_SECONDS]
  rw [List.map_map] at hdue
  obtain ⟨burst, hburst, hindex⟩ := List.map_eq_singleton_iff.mp hdue
  exact ⟨burst, hindex, hburst⟩

/-- The first message of the story goes into the dropout's store. -/
theorem send_begins {s : Stage ℝ String Link} (h : Underway 0 s.emulator)
    (hoff : s.outbox.offline = false) (msg : Message String) :
    (s.send msg).outbox.replaying = false ∧ (s.send msg).outbox.replayed = s.outbox.replayed := by
  have hd : s.taps.dropout .mqtt s.now = true := underway_dropout h
  have hout := Outbox.send_outbox s.outbox s.wire s.taps s.now (s.tagged msg)
  rw [hd, Bool.true_or, if_pos rfl, if_pos rfl] at hout
  change (s.outbox.send s.wire s.taps s.now (s.tagged msg)).1.replaying = false ∧
    (s.outbox.send s.wire s.taps s.now (s.tagged msg)).1.replayed = _
  rw [hout, (Outbox.keep_back _ _).2.2.2, Outbox.keep_replayed, Outbox.observe_replayed]
  simp [Outbox.observe, hd, hoff]

/-- A message sent, and the plant ticked through the dropout up to the burst. -/
noncomputable def throughDropout : List (Act ℝ String) := [.send soc, .tick, .tick, .tick, .tick]

/-- The story played to its burst, loaded again and played to it once more. -/
noncomputable def sameFileTwice : List (Act ℝ String) :=
  throughDropout ++ .backfill :: .command (.loadScenario dropoutThenBurst) :: .recv ::
    throughDropout

/-- What the story looks like when its burst is due. -/
theorem throughDropout_ends {s : Stage ℝ String Link} (h : Underway 0 s.emulator)
    (hoff : s.outbox.offline = false) :
    let s' := throughDropout.foldl (Stage.act .idle) s
    Underway 4 s'.emulator ∧ s'.outbox.replaying = false ∧
      s'.outbox.replayed = s.outbox.replayed ∧ s'.started = s.started ∧ s'.earlier = s.earlier :=
  ⟨underway_ticks h, (send_begins h hoff soc).1, (send_begins h hoff soc).2, rfl, rfl⟩

theorem loaded_again {s : Stage ℝ String Link} {k : Nat} (h : Underway k s.emulator) :
    let s' := (s.act .idle (.command (.loadScenario dropoutThenBurst))).act .idle .recv
    Underway 0 s'.emulator ∧ s'.outbox = s.outbox ∧ s'.started = [] ∧
      s'.earlier = s.earlier ++ s.started := by
  have hsent : s.emulator.trySend (.loadScenario dropoutThenBurst) =
      some { s.emulator with queue := [.loadScenario dropoutThenBurst] } := by
    simp [Emulator.trySend, h.queue, COMMAND_QUEUE]
  intro s'
  have hs' : s' = ({ s with emulator := { s.emulator with
      queue := [.loadScenario dropoutThenBurst] } } : Stage ℝ String Link).recv .idle := by
    simp only [s', Stage.act, hsent, Option.getD_some]
  rw [hs']
  refine ⟨⟨rfl, rfl, rfl, h.map, ?_⟩, rfl, rfl, rfl⟩
  change (Taps.new dropoutThenBurst s.emulator.task.map.points).windows.map _ = _
  rw [h.map]

/-- Played through once, the story has noted its burst. -/
theorem burst_noted {s : Stage ℝ String Link} (h : Underway 4 s.emulator)
    (hrep : s.outbox.replaying = false) (hreplayed : s.outbox.replayed = []) :
    s.backfill.started = s.started ++ [1] ∧ s.backfill.outbox.offline = false := by
  have hsilent : s.taps.dropout .mqtt s.now = false := underway_dropout h
  obtain ⟨burst, hindex, hdue⟩ := underway_due h
  have hfind : s.outbox.burstDue s.taps s.now = some burst := by
    rw [Outbox.burstDue, hreplayed]
    change List.find? _ (s.emulator.snapshot.taps.backfillsDue .mqtt
      s.emulator.snapshot.state.tick) = _
    rw [hdue]
    rfl
  have hbegun : begun s.outbox s.taps s.now = some 1 := by
    rw [begun, hsilent, hrep, hfind, ← hindex]
    rfl
  obtain ⟨out, hback⟩ := backfill_moves link_willing s.outbox s.wire s.taps s.now
  refine ⟨?_, hback.offline.trans hsilent⟩
  change s.started ++ (begun s.outbox s.taps s.now).toList = _
  rw [hbegun]
  rfl

/-- A burst noted under an earlier story crosses the backfill it is due at. -/
theorem crossed_noted {s : Stage ℝ String Link} (h : Underway 4 s.emulator)
    (hrep : s.outbox.replaying = false) (hstarted : s.started = []) (hearlier : 1 ∈ s.earlier) :
    ¬ s.Uncrossed := by
  intro hu
  obtain ⟨burst, hindex, hdue⟩ := underway_due h
  have howed : s.owed = some burst := by
    change List.find? _ (s.emulator.snapshot.taps.backfillsDue .mqtt
      s.emulator.snapshot.state.tick) = _
    rw [hdue, hstarted]
    rfl
  apply hu.index (underway_dropout h) hrep burst howed
  rw [hindex]
  exact hearlier

/-- A story played through, loaded again and played through once more. -/
theorem twice_crossed {s : Stage ℝ String Link} (h : Underway 0 s.emulator)
    (hoff : s.outbox.offline = false) (hreplayed : s.outbox.replayed = []) :
    ¬ (sameFileTwice.foldl (Stage.act .idle) s).Uncrossed := by
  rw [sameFileTwice, List.foldl_append, List.foldl_cons, List.foldl_cons, List.foldl_cons]
  obtain ⟨hunder, hrep, hnone, -, -⟩ := throughDropout_ends h hoff
  obtain ⟨hstarted, hoff'⟩ := burst_noted hunder hrep (hnone.trans hreplayed)
  obtain ⟨hunder', houtbox, hfresh, hearlier⟩ :=
    loaded_again (s := (throughDropout.foldl (Stage.act .idle) s).backfill) hunder
  obtain ⟨hunder₂, hrep₂, -, hstarted₂, hearlier₂⟩ :=
    throughDropout_ends hunder' ((congrArg Outbox.offline houtbox).trans hoff')
  apply crossed_noted hunder₂ hrep₂ (hstarted₂.trans hfresh)
  rw [hearlier₂, hearlier, hstarted]
  simp

/-- The second time, the burst's index has been replayed already: none begins. -/
theorem reload_strands_burst :
    ¬ Traces.Always (Stage.act .idle) Stage.Owns (Stage.start underway (⟨⟩ : Link))
      (sameFileTwice ++ [.backfill]) := by
  rw [Stage.owns_run link_willing .idle (Stage.sorted_start underway ⟨⟩), Traces.always_append]
  rintro ⟨-, hlast, -⟩
  exact twice_crossed (s := Stage.start underway (⟨⟩ : Link)) underway_start rfl rfl hlast

/-- The reference plant under the story: its dropout and its burst seen once, every replay its own. -/
theorem replays_own_once :
    Traces.Always (Stage.act .idle) Stage.Owns (Stage.start underway (⟨⟩ : Link))
      (throughDropout ++ [.backfill]) := by
  apply (Stage.replays_own link_willing .idle underway ⟨⟩ _).mpr
  obtain ⟨-, -, -, -, hearlier⟩ :=
    throughDropout_ends (s := Stage.start underway (⟨⟩ : Link)) underway_start rfl
  refine (Traces.always_append _ _ _).mpr ⟨⟨trivial, trivial, trivial, trivial, trivial, trivial⟩, ?_, trivial⟩
  constructor
  · intro _ _ burst _
    rw [hearlier]
    exact List.not_mem_nil
  · intro _
    exact .inr (Nat.zero_le _)

end BessStories
