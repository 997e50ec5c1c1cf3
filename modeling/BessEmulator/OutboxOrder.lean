import BessEmulator.Cadence
import BessEmulator.Traces

/-!
# Order and silence of the outbox

Sends, backfills and questions in any order, against a client that takes
everything. Every message carries the number of the send that brought it, so
the wire can be read against what was sent.
-/
namespace BessOutbox

open Bess BessCadence

section

variable {P S F : Type}

section

variable [Sink P S] (hw : Willing P S)
include hw

/-- What `n` rounds of the replay loop move from the store to the wire. -/
structure Drained (n : Nat) (o : Outbox P) (r : Recorded P S)
    (out : List (Message P)) (o' : Outbox P) (r' : Recorded P S) : Prop where
  taken : out = o.store.take n
  store : o.store = out ++ o'.store
  wire : r'.delivered = r.delivered ++ out
  offline : o'.offline = o.offline
  returned : o'.returned = o.returned
  replayed : o'.replayed = o.replayed
  /-- The replay ends on an empty store only. -/
  replaying : o.replaying = true → o'.replaying = false → o'.store = []

theorem drain_moves (n : Nat) (o : Outbox P) (r : Recorded P S) :
    ∃ out, Drained n o r out (o.drain r n).1 (o.drain r n).2 := by
  induction n generalizing o r with
  | zero =>
    refine ⟨[], rfl, rfl, (List.append_nil _).symm, rfl, rfl, rfl, fun ht hf => ?_⟩
    rw [Outbox.drain] at hf
    exact absurd (ht.symm.trans hf) (by decide)
  | succ n ih =>
    cases hs : o.store with
    | nil =>
      have hdrain : o.drain r (n + 1) = ({ o with replaying := false }, r) := by
        simp [Outbox.drain, hs]
      rw [hdrain]
      exact ⟨[], by rw [hs, List.take_nil], rfl, (List.append_nil _).symm, rfl, rfl, rfl,
        fun _ _ => hs⟩
    | cons msg rest =>
      obtain ⟨sink, hp⟩ := publish_willing hw r msg
      have hdrain : o.drain r (n + 1) =
          { o with store := rest }.drain (⟨sink, r.delivered ++ [msg]⟩ : Recorded P S) n := by
        simp [Outbox.drain, hs, hp]
      obtain ⟨out, htaken, hstore, hwire, hoff, hret, hreplayed, hrep⟩ :=
        ih { o with store := rest } ⟨sink, r.delivered ++ [msg]⟩
      rw [hdrain]
      refine ⟨msg :: out, ?_, ?_, ?_, hoff, hret, hreplayed, hrep⟩
      · rw [hs, List.take_succ_cons, htaken]
      · rw [hs]
        exact congrArg (List.cons msg) hstore
      · rw [hwire, List.append_assoc]
        rfl

end

/-- Whether a call finds the surface in a dropout. -/
def Call.offline : Call P F → Bool
  | .send taps tick _ => taps.dropout .mqtt tick
  | .backfill taps tick => taps.dropout .mqtt tick
  | .returned taps tick => taps.dropout .mqtt tick

/-- Whether a call asks for the end of a dropout. -/
def Call.asks : Call P F → Bool
  | .returned .. => true
  | .send .. | .backfill .. => false

/-- The answer to a call that asks. -/
def Call.answer (c : Call P F) {Q : Type} (o : Outbox Q) : Option Bool :=
  match c with
  | .returned taps tick => some (o.takeReturned taps tick).2
  | .send .. | .backfill .. => none

/-- Whether a call begins a replay. -/
def Call.beginsReplay (c : Call P F) {Q : Type} (o : Outbox Q) : Bool :=
  match c with
  | .backfill taps tick =>
    !taps.dropout .mqtt tick && !o.replaying && (o.burstDue taps tick).isSome
  | .send .. | .returned .. => false

/-- A message and the number of the send that brought it. -/
abbrev Numbered (P : Type) := Message (Nat × P)

def numbered (n : Nat) (msg : Message P) : Numbered P :=
  ⟨msg.topic, (n, msg.payload), msg.qos, msg.retain⟩

def number (msg : Numbered P) : Nat := msg.payload.1

@[simp] theorem number_numbered (n : Nat) (msg : Message P) : number (numbered n msg) = n := rfl

@[simp] theorem number_history (msg : Numbered P) : number msg.history = number msg := rfl

/-- The outbox and its client, with every message sent so far as it may reach
the wire: history if a dropout was open, itself otherwise. -/
structure Journal (P S : Type) where
  outbox : Outbox (Nat × P)
  wire : Recorded (Nat × P) S
  sent : List (Numbered P)

namespace Journal

variable [Sink (Nat × P) S]

def fresh (sink : S) : Journal P S := ⟨.empty, ⟨sink, []⟩, []⟩

/-- What a send may put on the wire. -/
def wireForm (taps : Taps F) (tick : Nat) (msg : Numbered P) : Numbered P :=
  if taps.dropout .mqtt tick then msg.history else msg

def call (j : Journal P S) : Call P F → Journal P S
  | .send taps tick msg =>
    let (outbox, wire, _) := j.outbox.send j.wire taps tick (numbered j.sent.length msg)
    { outbox := outbox
      wire := wire
      sent := j.sent ++ [wireForm taps tick (numbered j.sent.length msg)] }
  | .backfill taps tick =>
    let (outbox, wire) := j.outbox.backfill j.wire taps tick
    { j with outbox := outbox, wire := wire }
  | .returned taps tick => { j with outbox := (j.outbox.takeReturned taps tick).1 }

def run (j : Journal P S) (calls : List (Call P F)) : Journal P S := calls.foldl call j

theorem run_snoc (j : Journal P S) (calls : List (Call P F)) (c : Call P F) :
    j.run (calls ++ [c]) = (j.run calls).call c := by
  simp [run]

theorem run_append (j : Journal P S) (as bs : List (Call P F)) :
    j.run (as ++ bs) = (j.run as).run bs := List.foldl_append

end Journal

/-- One call: what it files under `sent`, what it puts on the wire, and what
becomes of the store. -/
structure Called (c : Call P F) (j j' : Journal P S) (new out : List (Numbered P)) : Prop where
  sent : j'.sent = j.sent ++ new
  number : new = [] ∨ ∃ m, new = [m] ∧ number m = j.sent.length
  wire : j'.wire.delivered = j.wire.delivered ++ out
  kept : (out ++ j'.outbox.store).Subperm (j.outbox.store ++ new)
  store : j'.outbox.store.Sublist (j.outbox.store ++ new)
  silent : c.offline = true → out = []
  slice : out.length ≤ BURST
  offline : j'.outbox.offline = c.offline
  /-- Behind a replay, or with nothing stored, everything goes out in its turn. -/
  flows : c.offline = false →
    j.outbox.replaying = true ∨ j.outbox.store = [] ∨ c.beginsReplay j.outbox = true →
    (out ++ j'.outbox.store).Sublist (j.outbox.store ++ new) ∧
      (j'.outbox.replaying = false → j'.outbox.store = [])

section

variable [Sink (Nat × P) S] (hw : Willing (Nat × P) S) (j : Journal P S) (taps : Taps F) (tick : Nat)
include hw

theorem called_send (msg : Message P) :
    ∃ new out, Called (.send taps tick msg) j (j.call (.send taps tick msg)) new out := by
  obtain ⟨hoff, _, honline, gone, hgone⟩ := Outbox.observe_edges j.outbox taps tick
  set m := numbered j.sent.length msg with hm
  by_cases hstored : (taps.dropout .mqtt tick || j.outbox.replaying) = true
  · obtain ⟨⟨lost, hkeep⟩, hoff', -, hrep'⟩ :=
      Outbox.keep_back (j.outbox.observe taps tick).1 (Journal.wireForm taps tick m)
    have hcall : j.call (.send taps tick msg) =
        ⟨(j.outbox.observe taps tick).1.keep (Journal.wireForm taps tick m), j.wire,
          j.sent ++ [Journal.wireForm taps tick m]⟩ := by
      simp only [Journal.call, Outbox.send_eq, if_pos hstored, ← hm]
      rfl
    have hnum : number (Journal.wireForm taps tick m) = j.sent.length := by
      rw [Journal.wireForm]
      split <;> rfl
    have hsub : ((j.outbox.observe taps tick).1.keep (Journal.wireForm taps tick m)).store.Sublist
        (j.outbox.store ++ [Journal.wireForm taps tick m]) := by
      rw [hgone, List.append_assoc, hkeep]
      exact (List.sublist_append_right _ _).trans (List.sublist_append_right _ _)
    rw [hcall]
    refine ⟨[Journal.wireForm taps tick m], [], rfl, Or.inr ⟨_, rfl, hnum⟩, (List.append_nil _).symm,
      hsub.subperm, hsub, fun _ => rfl, Nat.zero_le _, hoff'.trans hoff, fun hd _ => ⟨hsub, fun hf => ?_⟩⟩
    -- Stored online, it waits behind a replay that goes on.
    have hd' : taps.dropout .mqtt tick = false := hd
    rw [hd', Bool.false_or, ← (honline hd').2] at hstored
    exact absurd ((hrep'.trans hstored).symm.trans hf) (by decide)
  · obtain ⟨sink, hp⟩ := publish_willing hw j.wire m
    obtain ⟨hd, hr⟩ : taps.dropout .mqtt tick = false ∧ j.outbox.replaying = false := by
      simpa using hstored
    obtain ⟨hstore, -⟩ := honline hd
    have hcall : j.call (.send taps tick msg) =
        ⟨(j.outbox.observe taps tick).1, ⟨sink, j.wire.delivered ++ [m]⟩, j.sent ++ [m]⟩ := by
      simp [Journal.call, Outbox.send_eq, ← hm, hp, Journal.wireForm, hd, hr]
    rw [hcall]
    refine ⟨[m], [m], rfl, Or.inr ⟨m, rfl, rfl⟩, rfl, ?_, ?_, fun ht => ?_,
      (by decide : 1 ≤ BURST), hoff, fun _ hcase => ?_⟩
    · simp only [hstore]
      exact List.perm_append_comm.subperm
    · simp only [hstore]
      exact List.sublist_append_left _ _
    · exact absurd (hd.symm.trans ht) (by decide)
    · rcases hcase with ht | hempty | hbegin
      · exact absurd (hr.symm.trans ht) (by decide)
      · simp only [hstore, hempty]
        exact ⟨List.Sublist.refl _, fun _ => trivial⟩
      · cases hbegin

theorem called_backfill : ∃ new out, Called (.backfill taps tick) j (j.call (.backfill taps tick)) new out := by
  obtain ⟨hoff, _, honline, gone, hgone⟩ := Outbox.observe_edges j.outbox taps tick
  cases hdrains : j.outbox.drains taps tick with
  | true =>
    have hd := Outbox.drains_online hdrains
    obtain ⟨out, htaken, hout, hwire, hdoff, -, -, hempty⟩ :=
      drain_moves hw BURST (j.outbox.atReplay taps tick) j.wire
    rw [Outbox.atReplay_store hdrains] at htaken hout
    have hcall : j.call (.backfill taps tick) =
        ⟨((j.outbox.atReplay taps tick).drain j.wire BURST).1,
          ((j.outbox.atReplay taps tick).drain j.wire BURST).2, j.sent⟩ := by
      simp only [Journal.call, Outbox.backfill_eq, hdrains, if_true]
    have hslice : out.length ≤ BURST := by
      rw [htaken]
      exact List.length_take_le _ _
    have heq : out ++ ((j.outbox.atReplay taps tick).drain j.wire BURST).1.store =
        j.outbox.store ++ [] := by
      rw [← hout, List.append_nil]
    rw [hcall]
    refine ⟨[], out, (List.append_nil _).symm, Or.inl rfl, hwire, (List.Perm.of_eq heq).subperm, ?_,
      fun ht => ?_, hslice, hdoff.trans hoff, fun _ _ => ⟨?_, hempty rfl⟩⟩
    · rw [← heq]
      exact List.sublist_append_right _ _
    · exact absurd (hd.symm.trans ht) (by decide)
    · rw [heq]
  | false =>
    have hcall : j.call (.backfill taps tick) =
        ⟨(j.outbox.observe taps tick).1, j.wire, j.sent⟩ := by
      simp [Journal.call, Outbox.backfill_eq, hdrains]
    have hsub : (j.outbox.observe taps tick).1.store.Sublist (j.outbox.store ++ []) := by
      rw [List.append_nil, hgone]
      exact List.sublist_append_right _ _
    rw [hcall]
    refine ⟨[], [], (List.append_nil _).symm, Or.inl rfl, (List.append_nil _).symm, hsub.subperm,
      hsub, fun _ => rfl, Nat.zero_le _, hoff, fun hd hcase => ⟨hsub, fun _ => ?_⟩⟩
    obtain ⟨hstore, -⟩ := honline hd
    have hidle : j.outbox.replaying = false ∧ j.outbox.burstDue taps tick = none := by
      have hd' : taps.dropout .mqtt tick = false := hd
      simpa [Outbox.drains, hd'] using hdrains
    rcases hcase with ht | hempty | hbegin
    · exact absurd (hidle.1.symm.trans ht) (by decide)
    · exact hstore.trans hempty
    · simp [Call.beginsReplay, hidle.2] at hbegin

omit hw in
theorem called_returned : ∃ new out, Called (.returned taps tick) j (j.call (.returned taps tick)) new out := by
  obtain ⟨hoff, _, honline, gone, hgone⟩ := Outbox.observe_edges j.outbox taps tick
  have hsub : (j.outbox.observe taps tick).1.store.Sublist (j.outbox.store ++ []) := by
    rw [List.append_nil, hgone]
    exact List.sublist_append_right _ _
  refine ⟨[], [], (List.append_nil _).symm, Or.inl rfl, (List.append_nil _).symm, hsub.subperm, hsub,
    fun _ => rfl, Nat.zero_le _, hoff, fun hd hcase => ⟨hsub, fun hf => ?_⟩⟩
  obtain ⟨hstore, hrep⟩ := honline hd
  rcases hcase with ht | hempty | hbegin
  · exact absurd ((hrep.trans ht).symm.trans hf) (by decide)
  · exact hstore.trans hempty
  · cases hbegin

/-- Whatever the call. -/
theorem call_called (c : Call P F) : ∃ new out, Called c j (j.call c) new out := by
  cases c with
  | send taps tick msg => exact called_send hw j taps tick msg
  | backfill taps tick => exact called_backfill hw j taps tick
  | returned taps tick => exact called_returned j taps tick

end

section

variable [Sink (Nat × P) S] (hw : Willing (Nat × P) S)
include hw

/-- What every run keeps: the messages sent are numbered in order, each of them
is at one place at most, and the store holds them in the order they came. -/
structure Filed (j : Journal P S) : Prop where
  numbers : j.sent.map number = List.range j.sent.length
  placed : ∀ m ∈ j.wire.delivered ++ j.outbox.store, m ∈ j.sent
  once : ((j.wire.delivered ++ j.outbox.store).map number).Nodup
  sorted : j.outbox.store.Pairwise fun a b => number a < number b

omit hw [Sink (Nat × P) S] in
theorem filed_lt {j : Journal P S} (h : Filed j) {m : Numbered P} (hm : m ∈ j.sent) :
    number m < j.sent.length := by
  have hmem := List.mem_map_of_mem (f := number) hm
  rw [h.numbers] at hmem
  exact List.mem_range.mp hmem

omit hw [Sink (Nat × P) S] in
/-- A message just numbered comes after whatever was sent before. -/
theorem sorted_snoc {j : Journal P S} (h : Filed j) {ms new : List (Numbered P)}
    (hms : ∀ m ∈ ms, m ∈ j.sent) (hsorted : ms.Pairwise fun a b => number a < number b)
    (hnew : new = [] ∨ ∃ m, new = [m] ∧ number m = j.sent.length) :
    (ms ++ new).Pairwise fun a b => number a < number b := by
  rw [List.pairwise_append]
  rcases hnew with rfl | ⟨m, rfl, hm⟩
  · exact ⟨hsorted, List.Pairwise.nil, fun _ _ b hb => by cases hb⟩
  · refine ⟨hsorted, List.pairwise_singleton _ _, fun a ha b hb => ?_⟩
    rw [List.mem_singleton.mp hb, hm]
    exact filed_lt h (hms a ha)

omit hw [Sink (Nat × P) S] in
theorem filed_called {c : Call P F} {j j' : Journal P S} {new out : List (Numbered P)} (h : Filed j)
    (hc : Called c j j' new out) : Filed j' := by
  have hplaces : (j'.wire.delivered ++ j'.outbox.store).Subperm
      (j.wire.delivered ++ j.outbox.store ++ new) := by
    rw [hc.wire, List.append_assoc, List.append_assoc]
    exact (List.subperm_append_left _).mpr hc.kept
  have hold : ∀ m ∈ j.outbox.store, m ∈ j.sent :=
    fun m hm => h.placed m (List.mem_append_right _ hm)
  refine ⟨?_, fun m hm => ?_, ?_, ?_⟩
  · rw [hc.sent]
    rcases hc.number with hnil | ⟨m, hm, hnum⟩
    · rw [hnil, List.append_nil, h.numbers]
    · rw [hm, List.map_append, h.numbers, List.length_append, List.length_singleton,
        List.range_succ, List.map_singleton, hnum]
  · rw [hc.sent]
    rcases List.mem_append.mp (hplaces.subset hm) with hmem | hmem
    · exact List.mem_append_left _ (h.placed m hmem)
    · exact List.mem_append_right _ hmem
  · obtain ⟨ms, hperm, hsub⟩ := hplaces
    apply (hperm.map number).nodup_iff.mp
    apply List.Nodup.sublist (hsub.map number)
    rw [List.map_append]
    rcases hc.number with hnil | ⟨m, hm, hnum⟩
    · rw [hnil]
      simpa using h.once
    · rw [hm, List.map_singleton, hnum]
      apply List.nodup_append.mpr
      refine ⟨h.once, List.nodup_singleton _, fun a ha b hb => ?_⟩
      obtain ⟨m', hm', rfl⟩ := List.mem_map.mp ha
      rw [List.mem_singleton.mp hb]
      exact Nat.ne_of_lt (filed_lt h (h.placed m' hm'))
  · exact (sorted_snoc h hold h.sorted hc.number).sublist hc.store

omit hw [Sink (Nat × P) S] in
theorem filed_fresh (sink : S) : Filed (Journal.fresh sink : Journal P S) :=
  ⟨rfl, fun _ hm => absurd hm List.not_mem_nil, List.nodup_nil, List.Pairwise.nil⟩

theorem filed_run {j : Journal P S} (h : Filed j) (calls : List (Call P F)) :
    Filed (j.run calls) := by
  apply Traces.inv_run _ h
  intro j c hj
  obtain ⟨new, out, hc⟩ := call_called hw j c
  exact filed_called hj hc

/-- In order since the wire was `k` messages long: what went out since then and
what is stored, in the order it was sent, and nothing stored once the replay
is over. -/
structure InOrder (k : Nat) (j : Journal P S) : Prop where
  filed : Filed j
  since : k ≤ j.wire.delivered.length
  ordered : (j.wire.delivered.drop k ++ j.outbox.store).Pairwise fun a b => number a < number b
  behind : j.outbox.replaying = false → j.outbox.store = []

omit hw [Sink (Nat × P) S] in
/-- A call outside a dropout keeps the order. -/
theorem inOrder_called {k : Nat} {c : Call P F} {j j' : Journal P S} {new out : List (Numbered P)}
    (hf : Filed j) (hk : k ≤ j.wire.delivered.length)
    (hordered : (j.wire.delivered.drop k ++ j.outbox.store).Pairwise fun a b => number a < number b)
    (hflows : j.outbox.replaying = true ∨ j.outbox.store = [] ∨ c.beginsReplay j.outbox = true)
    (hc : Called c j j' new out) (honline : c.offline = false) : InOrder k j' := by
  obtain ⟨hsub, hbehind⟩ := hc.flows honline hflows
  refine ⟨filed_called hf hc, ?_, ?_, hbehind⟩
  · rw [hc.wire, List.length_append]
    exact Nat.le_add_right_of_le hk
  · have hplaced : ∀ m ∈ j.wire.delivered.drop k ++ j.outbox.store, m ∈ j.sent := by
      intro m hm
      apply hf.placed m
      rcases List.mem_append.mp hm with hdrop | hstore
      · exact List.mem_append_left _ (List.mem_of_mem_drop hdrop)
      · exact List.mem_append_right _ hstore
    rw [hc.wire, List.drop_append_of_le_length hk, List.append_assoc]
    refine List.Pairwise.sublist ?_ (sorted_snoc hf hplaced hordered hc.number)
    rw [List.append_assoc]
    exact hsub.append_left _

theorem inOrder_begins {j : Journal P S} (h : Filed j) {c : Call P F}
    (hb : c.beginsReplay j.outbox = true) :
    InOrder j.wire.delivered.length (j.call c) := by
  obtain ⟨new, out, hc⟩ := call_called hw j c
  apply inOrder_called h (le_refl _) _ (Or.inr (Or.inr hb)) hc
  · cases c with
    | backfill taps tick =>
      simp only [Call.beginsReplay, Bool.and_eq_true, Bool.not_eq_true'] at hb
      exact hb.1.1
    | send taps tick msg => cases hb
    | returned taps tick => cases hb
  · rw [List.drop_length]
    exact h.sorted

theorem inOrder_run {k : Nat} {j : Journal P S} (h : InOrder k j) (calls : List (Call P F))
    (honline : ∀ c ∈ calls, c.offline = false) : InOrder k (j.run calls) := by
  induction calls generalizing j with
  | nil => exact h
  | cons c cs ih =>
    obtain ⟨new, out, hc⟩ := call_called hw j c
    refine ih ?_ fun c' hc' => honline c' (List.mem_cons_of_mem _ hc')
    apply inOrder_called h.filed h.since h.ordered _ hc (honline c List.mem_cons_self)
    cases hr : j.outbox.replaying with
    | true => exact Or.inl rfl
    | false => exact Or.inr (Or.inl (h.behind hr))

end

/-- Since the last question before it, the call `c` included, some call found a
dropout over that the call before it had found open. -/
def EndObserved (calls : List (Call P F)) (c : Call P F) : Prop :=
  ∃ before x between, calls = before ++ x :: between ∧ x.offline = true ∧
    (∃ y ∈ (between ++ [c]).head?, Call.offline y = false) ∧ ∀ k ∈ between, k.asks = false

/-- Whether the call last made found the surface in a dropout. -/
def lastOffline (calls : List (Call P F)) : Bool := (calls.getLast?.map Call.offline).getD false

theorem lastOffline_snoc (calls : List (Call P F)) (c : Call P F) :
    lastOffline (calls ++ [c]) = c.offline := by
  simp [lastOffline]

/-- Only the call after a dropout's last one sees it over; a question closes the matter. -/
theorem endObserved_snoc (calls : List (Call P F)) (d c : Call P F) :
    EndObserved (calls ++ [d]) c ↔
      (d.offline = true ∧ c.offline = false) ∨ (d.asks = false ∧ EndObserved calls d) := by
  constructor
  · rintro ⟨before, x, between, hcalls, hx, ⟨y, hy, hyoff⟩, hasks⟩
    rcases List.eq_nil_or_concat between with rfl | ⟨between', d', rfl⟩
    · obtain ⟨-, hd⟩ := List.append_inj' hcalls rfl
      obtain rfl : d = x := by simpa using hd
      obtain rfl : y = c := by simpa using hy.symm
      exact Or.inl ⟨hx, hyoff⟩
    · rw [List.concat_eq_append] at hcalls hy hasks
      have hsplit : calls ++ [d] = (before ++ x :: between') ++ [d'] := by
        rw [hcalls]
        simp
      obtain ⟨hcalls', hd⟩ := List.append_inj' hsplit rfl
      obtain rfl : d = d' := by simpa using hd
      refine Or.inr ⟨hasks d (by simp), before, x, between', hcalls', hx, ⟨y, ?_, hyoff⟩,
        fun k hk => hasks k (List.mem_append_left _ hk)⟩
      rw [List.head?_append_of_ne_nil _ (by simp)] at hy
      exact hy
  · rintro (⟨hd, hc⟩ | ⟨hd, before, x, between, hcalls, hx, ⟨y, hy, hyoff⟩, hasks⟩)
    · exact ⟨calls, d, [], rfl, hd, ⟨c, rfl, hc⟩, fun _ hk => absurd hk List.not_mem_nil⟩
    · refine ⟨before, x, between ++ [d], by simp [hcalls], hx, ⟨y, ?_, hyoff⟩, fun k hk => ?_⟩
      · rw [List.head?_append_of_ne_nil _ (by simp)]
        exact hy
      · rcases List.mem_append.mp hk with hk | hk
        · exact hasks k hk
        · rw [List.mem_singleton.mp hk]
          exact hd

theorem endObserved_nil (c : Call P F) : ¬ EndObserved [] c := by
  rintro ⟨before, x, between, hcalls, _⟩
  simp at hcalls

section

variable [Sink (Nat × P) S] (hw : Willing (Nat × P) S)
include hw

/-- A call leaves the flag up that it found up or raised, unless it asks. -/
theorem call_returned (j : Journal P S) (c : Call P F) :
    (j.call c).outbox.returned =
      (!c.asks && (j.outbox.returned || (j.outbox.offline && !c.offline))) := by
  cases c with
  | returned taps tick => rfl
  | send taps tick msg =>
    obtain ⟨_, hret, _⟩ := Outbox.observe_edges j.outbox taps tick
    rw [Call.asks, Call.offline, Bool.not_false, Bool.true_and, ← hret]
    simp only [Journal.call, Outbox.send_eq]
    split
    · exact (Outbox.keep_back _ _).2.2.1
    · rfl
  | backfill taps tick =>
    obtain ⟨_, hret, _⟩ := Outbox.observe_edges j.outbox taps tick
    rw [Call.asks, Call.offline, Bool.not_false, Bool.true_and, ← hret]
    simp only [Journal.call, Outbox.backfill_eq]
    split
    · obtain ⟨out, hdrain⟩ := drain_moves hw BURST (j.outbox.atReplay taps tick) j.wire
      exact hdrain.returned
    · rfl

/-- The flag a question finds says whether an end was observed. -/
theorem run_returned (sink : S) (calls : List (Call P F)) (c : Call P F) :
    let j := (Journal.fresh sink : Journal P S).run calls
    j.outbox.offline = lastOffline calls ∧
      ((j.outbox.returned || (j.outbox.offline && !c.offline)) = true ↔ EndObserved calls c) := by
  induction calls using List.reverseRecOn generalizing c with
  | nil =>
    refine ⟨rfl, ?_⟩
    simp [Journal.run, Journal.fresh, Outbox.empty, endObserved_nil]
  | append_singleton calls d ih =>
    obtain ⟨hlast, hend⟩ := ih d
    obtain ⟨new, out, hc⟩ := call_called hw ((Journal.fresh sink : Journal P S).run calls) d
    simp only [Journal.run_snoc, lastOffline_snoc, endObserved_snoc, hc.offline, ← hend,
      call_returned hw, true_and]
    cases d.asks <;> cases d.offline <;> cases c.offline <;> simp

end

section

variable [Sink (Nat × P) S]

/-- Every message the client took in the course of the calls. -/
def published (sink : S) (calls : List (Call P F)) : List (Numbered P) :=
  ((Journal.fresh sink : Journal P S).run calls).wire.delivered

/-- The state a sequence of calls leaves the outbox in. -/
def outboxAfter (sink : S) (calls : List (Call P F)) : Outbox (Nat × P) :=
  ((Journal.fresh sink : Journal P S).run calls).outbox

/-- Whether a call is a send. -/
def Call.sends : Call P F → Bool
  | .send .. => true
  | .backfill .. | .returned .. => false

/-- A message on the wire is what one send brought, unretained if that send
found a dropout open. -/
structure FromSend (calls : List (Call P F)) (m : Numbered P) (before after : List (Call P F))
    (taps : Taps F) (tick : Nat) (msg : Message P) : Prop where
  call : calls = before ++ .send taps tick msg :: after
  payload : m.payload = (before.countP Call.sends, msg.payload)
  topic : m.topic = msg.topic
  qos : m.qos = msg.qos
  retain : m.retain = (msg.retain && !taps.dropout .mqtt tick)

theorem run_sent_length (sink : S) (calls : List (Call P F)) :
    ((Journal.fresh sink : Journal P S).run calls).sent.length = calls.countP Call.sends := by
  induction calls using List.reverseRecOn with
  | nil => rfl
  | append_singleton calls c ih =>
    rw [Journal.run_snoc, List.countP_append, ← ih]
    cases c <;> simp [Journal.call, Call.sends]

theorem sent_fromSend (sink : S) (calls : List (Call P F)) {m : Numbered P}
    (hm : m ∈ ((Journal.fresh sink : Journal P S).run calls).sent) :
    ∃ before after taps tick msg, FromSend calls m before after taps tick msg := by
  induction calls using List.reverseRecOn with
  | nil => cases hm
  | append_singleton calls c ih =>
    -- an earlier send stays where it was
    have hearlier : m ∈ ((Journal.fresh sink : Journal P S).run calls).sent →
        ∃ before after taps tick msg, FromSend (calls ++ [c]) m before after taps tick msg := by
      intro hold
      obtain ⟨before, after, taps, tick, msg, hsend⟩ := ih hold
      refine ⟨before, after ++ [c], taps, tick, msg, ?_, hsend.payload, hsend.topic, hsend.qos,
        hsend.retain⟩
      rw [hsend.call]
      simp
    rw [Journal.run_snoc] at hm
    cases c with
    | backfill taps tick => exact hearlier hm
    | returned taps tick => exact hearlier hm
    | send taps tick msg =>
      rcases List.mem_append.mp hm with hold | hnew
      · exact hearlier hold
      · rw [List.mem_singleton, run_sent_length, Journal.wireForm] at hnew
        refine ⟨calls, [], taps, tick, msg, rfl, ?_, ?_, ?_, ?_⟩
        all_goals
          rw [hnew]
          cases taps.dropout .mqtt tick <;> simp [numbered, Message.history]

/-- What holds of the wire after any calls, and of the call that follows. -/
structure Orderly (sink : S) (calls : List (Call P F)) : Prop where
  /-- Nothing is published in a dropout. -/
  silent : ∀ c : Call P F, c.offline = true →
    published sink (calls ++ [c]) = published sink calls
  once : ((published sink calls).map number).Nodup
  fromSend : ∀ m ∈ published sink calls, ∃ before after taps tick msg,
    FromSend calls m before after taps tick msg
  /-- From a replay's start on, outside a dropout, the wire follows the order of the sends. -/
  ordered : ∀ (c : Call P F) (during : List (Call P F)),
    c.beginsReplay (outboxAfter sink calls) = true → (∀ k ∈ during, k.offline = false) →
    ((published sink (calls ++ c :: during)).drop (published sink calls).length).Pairwise
      fun a b => number a < number b
  slice : ∀ taps tick,
    (published sink (calls ++ [.backfill taps tick])).length ≤ (published sink calls).length + BURST
  answer : ∀ c : Call P F, c.asks = true →
    (c.answer (outboxAfter sink calls) = some true ↔ EndObserved calls c)

/-- The outbox within one story: silent in a dropout, each message at most once
and in order behind a replay, history never retained, a slice at a time, and
the end of a dropout reported exactly once. -/
theorem outbox_order (hw : Willing (Nat × P) S) (sink : S) (calls : List (Call P F)) :
    Orderly sink calls := by
  have hfiled : Filed ((Journal.fresh sink : Journal P S).run calls) :=
    filed_run hw (filed_fresh sink) calls
  have hnext := call_called hw (F := F) ((Journal.fresh sink : Journal P S).run calls)
  have hsnoc : ∀ c : Call P F, published sink (calls ++ [c]) =
      (((Journal.fresh sink : Journal P S).run calls).call c).wire.delivered :=
    fun c => congrArg (fun j : Journal P S => j.wire.delivered) (Journal.run_snoc _ calls c)
  constructor
  · intro c hoff
    obtain ⟨new, out, hc⟩ := hnext c
    rw [hsnoc, hc.wire, hc.silent hoff, List.append_nil]
    rfl
  · have honce := hfiled.once
    rw [List.map_append] at honce
    exact (List.nodup_append.mp honce).1
  · intro m hm
    exact sent_fromSend sink calls (hfiled.placed m (List.mem_append_left _ hm))
  · intro c during hbegins honline
    have hstart := inOrder_begins hw hfiled hbegins
    have hrun := inOrder_run hw hstart during honline
    have hcons : published sink (calls ++ c :: during) =
        ((((Journal.fresh sink : Journal P S).run calls).call c).run during).wire.delivered := by
      rw [published, Journal.run_append]
      rfl
    rw [hcons]
    exact (List.pairwise_append.mp hrun.ordered).1
  · intro taps tick
    obtain ⟨new, out, hc⟩ := hnext (.backfill taps tick)
    rw [hsnoc, hc.wire, List.length_append]
    exact Nat.add_le_add_left hc.slice _
  · intro c hasks
    have hend := (run_returned hw sink calls c).2
    cases c with
    | send taps tick msg => cases hasks
    | backfill taps tick => cases hasks
    | returned taps tick =>
      obtain ⟨_, hret, _⟩ := Outbox.observe_edges (outboxAfter sink calls) taps tick
      rw [← hend, Call.answer, Option.some_inj]
      change ((outboxAfter sink calls).observe taps tick).1.returned = true ↔ _
      rw [hret]
      rfl

end

end

structure Line where

instance : Sink (Nat × String) Line where
  publish s _ := (s, .ok ())

theorem outbox_order_line : Orderly (⟨⟩ : Line) ([.send dropoutTaps 0 soc, .backfill dropoutTaps 4] :
    List (Call String ℝ)) := outbox_order (fun _ _ => rfl) _ _

end BessOutbox
