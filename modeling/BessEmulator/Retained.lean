import BessEmulator.AlarmMap
import BessEmulator.OutboxOrder

/-!
# Retained words

Wakes, event batches and reconnections in any order, each under whatever
snapshot it finds, against a client that takes everything. What the broker
holds retained of a word, or is about to, is what the tap reads.
-/
namespace BessRetained

open Bess BessOutbox BessCadence

section

variable {P S F : Type}

/-- The last retained message on a topic. -/
def lastRetained (ms : List (Message P)) (topic : String) : Option (Message P) :=
  (ms.filter fun m => m.retain && m.topic == topic).getLast?

theorem lastRetained_snoc (ms : List (Message P)) (m : Message P) (topic : String) :
    lastRetained (ms ++ [m]) topic =
      if m.retain && m.topic == topic then some m else lastRetained ms topic := by
  rw [lastRetained, List.filter_append]
  cases hm : m.retain && m.topic == topic with
  | true =>
    rw [List.filter_cons_of_pos (p := fun m : Message P => m.retain && m.topic == topic) hm]
    simp
  | false =>
    rw [List.filter_cons_of_neg (p := fun m : Message P => m.retain && m.topic == topic) (by simp [hm])]
    simp [lastRetained]

/-- Messages that are not retained do not count. -/
theorem lastRetained_append {ms ns : List (Message P)} (h : ∀ m ∈ ns, m.retain = false)
    (topic : String) : lastRetained (ms ++ ns) topic = lastRetained ms topic := by
  have hnil : ns.filter (fun m => m.retain && m.topic == topic) = [] := by
    rw [List.filter_eq_nil_iff]
    intro m hm
    simp [h m hm]
  rw [lastRetained, List.filter_append, hnil, List.append_nil, lastRetained]

/-- With no replay to drain, the store holds history only. -/
def Quiet (o : Outbox P) : Prop := o.replaying = false → ∀ m ∈ o.store, m.retain = false

theorem quiet_observe {o : Outbox P} (h : Quiet o) (taps : Taps F) (tick : Nat) :
    Quiet (o.observe taps tick).1 := by
  simp only [Outbox.observe]
  split
  · exact h
  · split
    · exact fun _ m hm => by cases hm
    · exact h

theorem quiet_keep {o : Outbox P} (h : Quiet o) {msg : Message P}
    (hmsg : o.replaying = false → msg.retain = false) : Quiet (o.keep msg) := by
  obtain ⟨⟨gone, hgone⟩, -, -, hrep⟩ := Outbox.keep_back o msg
  intro hf m hm
  rw [hrep] at hf
  have hmem : m ∈ o.store ++ [msg] := by
    rw [hgone]
    exact List.mem_append_right _ hm
  rcases List.mem_append.mp hmem with hold | hnew
  · exact h hf m hold
  · rw [List.mem_singleton.mp hnew]
    exact hmsg hf

theorem keep_length (o : Outbox P) (msg : Message P) :
    o.store.length ≤ (o.keep msg).store.length ∧
      ((o.keep msg).store.length < STORE → (o.keep msg).store = o.store ++ [msg]) := by
  rw [Outbox.keep]
  split
  · rename_i hfull
    have hpos : 0 < STORE := by decide
    have hlen : (o.store.tail ++ [msg]).length = STORE := by
      rw [List.length_append, List.length_tail, List.length_singleton]
      omega
    simp only [hlen, hfull]
    exact ⟨le_refl _, fun hlt => absurd hlt (lt_irrefl _)⟩
  · simp

/-- The messages the broker has or is about to get. -/
def held (o : Outbox P) (r : Recorded P S) : List (Message P) := r.delivered ++ o.store

/-- What one send changes. -/
structure Sent (dropout : Bool) (msg : Message P) (o : Outbox P) (r : Recorded P S) (o' : Outbox P)
    (r' : Recorded P S) : Prop where
  quiet : Quiet o → Quiet o'
  offline : o'.offline = dropout
  returned : o'.returned = (o.returned || (o.offline && !dropout))
  grows : o.offline = dropout → o.store.length ≤ o'.store.length
  last : dropout = false → o'.store.length < STORE → Quiet o → ∀ topic,
    lastRetained (held o' r') topic =
      if msg.retain && msg.topic == topic then some msg else lastRetained (held o r) topic

theorem observe_settled {o : Outbox P} {taps : Taps F} {tick : Nat}
    (h : o.offline = taps.dropout .mqtt tick) : (o.observe taps tick).1 = o := by
  simp [Outbox.observe, h]

variable [Sink P S]

theorem send_sent (hw : Willing P S) (o : Outbox P) (r : Recorded P S) (taps : Taps F) (tick : Nat)
    (msg : Message P) :
    ∃ o' r', o.send r taps tick msg = (o', r', .ok ()) ∧
      Sent (taps.dropout .mqtt tick) msg o r o' r' := by
  obtain ⟨hoff, hret, honline, -⟩ := Outbox.observe_edges o taps tick
  cases hd : taps.dropout .mqtt tick with
  | true =>
    rw [hd] at hoff hret
    obtain ⟨-, hkoff, hkret, -⟩ := Outbox.keep_back (o.observe taps tick).1 msg.history
    refine ⟨_, r, by simp [Outbox.send_eq, hd], ⟨fun hq => ?_, hkoff.trans hoff, hkret.trans hret,
      fun hs => ?_, fun hf => absurd hf (by decide)⟩⟩
    · exact quiet_keep (quiet_observe hq taps tick) fun _ => rfl
    · rw [observe_settled (hs.trans hd.symm)]
      exact (keep_length o msg.history).1
  | false =>
    rw [hd] at hoff hret
    obtain ⟨hstore, hrep⟩ := honline hd
    cases hr : o.replaying with
    | true =>
      obtain ⟨-, hkoff, hkret, hkrep⟩ := Outbox.keep_back (o.observe taps tick).1 msg
      obtain ⟨hgrow, hroom⟩ := keep_length (o.observe taps tick).1 msg
      rw [hstore] at hgrow hroom
      refine ⟨_, r, by simp [Outbox.send_eq, hd, hr], ⟨fun _ hf => ?_, hkoff.trans hoff,
        hkret.trans hret, fun _ => hgrow, fun _ hlt _ topic => ?_⟩⟩
      · exact absurd ((hkrep.trans (hrep.trans hr)).symm.trans hf) (by decide)
      · rw [held, hroom hlt, ← List.append_assoc, lastRetained_snoc]
        rfl
    | false =>
      obtain ⟨sink, hp⟩ := publish_willing hw r msg
      refine ⟨_, ⟨sink, r.delivered ++ [msg]⟩, by simp [Outbox.send_eq, hd, hr, hp],
        ⟨fun hq => quiet_observe hq taps tick, hoff, hret, fun _ => by rw [hstore],
          fun _ _ hq topic => ?_⟩⟩
      have hhistory : ∀ m ∈ o.store, m.retain = false := hq hr
      rw [held, held, hstore, lastRetained_append hhistory, lastRetained_snoc,
        lastRetained_append hhistory]

/-- A call after which the broker still has, or is about to get, what it had:
it leaves no word behind unless a dropout ended in it or is open. -/
structure Steady (o : Outbox P) (r : Recorded P S) (o' : Outbox P) (r' : Recorded P S) : Prop where
  quiet : Quiet o → Quiet o'
  kept : o'.offline = false → o'.returned = false → o'.store.length < STORE → Quiet o →
    o.offline = false ∧ o.returned = false ∧
      ∀ topic, lastRetained (held o' r') topic = lastRetained (held o r) topic

/-- Send after send. -/
def sendAll (taps : Taps F) (tick : Nat) (msgs : List (Message P)) (door : Outbox P × Recorded P S) :
    Outbox P × Recorded P S :=
  msgs.foldl (fun d m => ((d.1.send d.2 taps tick m).1, (d.1.send d.2 taps tick m).2.1)) door

/-- Once a call has followed the tap, its sends only add to the store. -/
theorem sendAll_grows (hw : Willing P S) (taps : Taps F) (tick : Nat) (msgs : List (Message P))
    (door : Outbox P × Recorded P S) (h : door.1.offline = taps.dropout .mqtt tick) :
    door.1.store.length ≤ (sendAll taps tick msgs door).1.store.length := by
  induction msgs generalizing door with
  | nil => exact le_refl _
  | cons m ms ih =>
    obtain ⟨o, r, hsend, hsent⟩ := send_sent hw door.1 door.2 taps tick m
    have hnext := ih (o, r) hsent.offline
    rw [sendAll, List.foldl_cons, hsend]
    exact (hsent.grows h).trans hnext

theorem sendAll_steady (hw : Willing P S) (taps : Taps F) (tick : Nat) {msgs : List (Message P)}
    (hmsgs : ∀ m ∈ msgs, m.retain = false) (o : Outbox P) (r : Recorded P S) :
    Steady o r (sendAll taps tick msgs (o, r)).1 (sendAll taps tick msgs (o, r)).2 := by
  induction msgs generalizing o r with
  | nil => exact ⟨fun h => h, fun hoff hret _ _ => ⟨hoff, hret, fun _ => rfl⟩⟩
  | cons m ms ih =>
    obtain ⟨o₁, r₁, hsend, hsent⟩ := send_sent hw o r taps tick m
    have hm : m.retain = false := hmsgs m List.mem_cons_self
    obtain ⟨hquiet, hkept⟩ := ih (fun m' hm' => hmsgs m' (List.mem_cons_of_mem _ hm')) o₁ r₁
    have hgrows := sendAll_grows hw taps tick ms (o₁, r₁) hsent.offline
    have hcons : sendAll taps tick (m :: ms) (o, r) = sendAll taps tick ms (o₁, r₁) := by
      rw [sendAll, List.foldl_cons, hsend]
      rfl
    rw [hcons]
    refine ⟨fun hq => hquiet (hsent.quiet hq), fun hoff hret hroom hq => ?_⟩
    obtain ⟨hoff₁, hret₁, hlast⟩ := hkept hoff hret hroom (hsent.quiet hq)
    have hd : taps.dropout .mqtt tick = false := hsent.offline.symm.trans hoff₁
    have hedge : (o.returned || (o.offline && !taps.dropout .mqtt tick)) = false :=
      hsent.returned.symm.trans hret₁
    rw [hd] at hedge
    simp only [Bool.not_false, Bool.and_true, Bool.or_eq_false_iff] at hedge
    refine ⟨hedge.2, hedge.1, fun topic => ?_⟩
    rw [hlast topic, hsent.last hd (hgrows.trans_lt hroom) hq topic, hm]
    rfl

/-- A replay moves messages from the store to the wire, which is all one here. -/
theorem backfill_steady (hw : Willing P S) (taps : Taps F) (tick : Nat) (o : Outbox P)
    (r : Recorded P S) : Steady o r (o.backfill r taps tick).1 (o.backfill r taps tick).2 := by
  obtain ⟨hoff, hret, honline, -⟩ := Outbox.observe_edges o taps tick
  -- Online and with no return to tell, there was no edge.
  have hedge : taps.dropout .mqtt tick = false → (o.observe taps tick).1.returned = false →
      o.offline = false ∧ o.returned = false := by
    intro hd hf
    rw [hret, hd] at hf
    simp only [Bool.not_false, Bool.and_true, Bool.or_eq_false_iff] at hf
    exact ⟨hf.2, hf.1⟩
  rw [Outbox.backfill_eq]
  by_cases hdrains : o.drains taps tick = true
  · obtain ⟨out, -, hout, hwire, -, hdret, -, hempty⟩ := drain_moves hw BURST (o.atReplay taps tick) r
    rw [if_pos hdrains]
    refine ⟨fun _ hf m hm => ?_, fun _ hf _ _ => ?_⟩
    · rw [hempty rfl hf] at hm
      cases hm
    · obtain ⟨hoffline, hreturned⟩ := hedge (Outbox.drains_online hdrains) (hdret.symm.trans hf)
      refine ⟨hoffline, hreturned, fun topic => ?_⟩
      rw [held, held, hwire, List.append_assoc, ← hout, Outbox.atReplay_store hdrains]
  · rw [if_neg hdrains]
    refine ⟨fun hq => quiet_observe hq taps tick, fun hf₁ hf _ _ => ?_⟩
    have hd : taps.dropout .mqtt tick = false := hoff.symm.trans hf₁
    obtain ⟨hoffline, hreturned⟩ := hedge hd hf
    refine ⟨hoffline, hreturned, fun topic => ?_⟩
    rw [held, held, (honline hd).1]

end

section

variable {F S : Type} [Scalar F] [Sink (Payload F) S] (hw : Willing (Payload F) S)
  (snap : Snapshot F)
include hw

/-- The cadence loop sends what is due. -/
theorem cadenceLoop_sends (last : Cadence → Option Int) (ps : List (Point F × Nat))
    (door : Outbox (Payload F) × Client F S) :
    (Publisher.cadenceLoop last snap ps door).1 =
      sendAll snap.taps snap.state.tick
        ((ps.filter (cadenceDue last snap.state.unixTimeS)).map (cadenceMessage snap)) door := by
  induction ps generalizing door with
  | nil => rfl
  | cons p ps ih =>
    obtain ⟨o, r⟩ := door
    cases hd : cadenceDue last snap.state.unixTimeS p with
    | false =>
      rw [List.filter_cons_of_neg (by simp [hd]), ← ih]
      simp [Publisher.cadenceLoop, hd]
    | true =>
      obtain ⟨o', r', hsend, -⟩ :=
        send_sent hw o r snap.taps snap.state.tick (cadenceMessage snap p)
      rw [List.filter_cons_of_pos hd, List.map_cons, sendAll, List.foldl_cons, hsend]
      simp only [Publisher.cadenceLoop, hd, if_true, hsend]
      exact ih (o', r')

theorem cadence_steady (pub : Publisher F (Client F S)) :
    Steady pub.outbox pub.client (pub.publishCadence snap).1.outbox
      (pub.publishCadence snap).1.client := by
  have hloop := cadenceLoop_sends hw snap pub.lastPubS pub.points.zipIdx (pub.outbox, pub.client)
  have hdoor : ((pub.publishCadence snap).1.outbox, (pub.publishCadence snap).1.client) =
      (Publisher.cadenceLoop pub.lastPubS snap pub.points.zipIdx (pub.outbox, pub.client)).1 := rfl
  rw [hloop] at hdoor
  have hunretained : ∀ m ∈ (pub.points.zipIdx.filter
      (cadenceDue pub.lastPubS snap.state.unixTimeS)).map (cadenceMessage snap),
      m.retain = false := by
    intro m hm
    obtain ⟨p, -, rfl⟩ := List.mem_map.mp hm
    rfl
  have hsteady := sendAll_steady hw snap.taps snap.state.tick hunretained pub.outbox pub.client
  rw [← hdoor] at hsteady
  exact hsteady

omit hw in
/-- The events of a batch are sends, and touch nothing else. -/
theorem events_sends (batch : TickEvents) (pub : Publisher F (Client F S)) :
    pub.publishEvents snap batch =
      let door := sendAll snap.taps snap.state.tick
        (batch.numbered.map (eventMessage (driftWholeS snap) batch)) (pub.outbox, pub.client)
      { pub with outbox := door.1, client := door.2 } := by
  rw [Publisher.publishEvents]
  induction batch.numbered generalizing pub with
  | nil => rfl
  | cons e es ih => exact ih (pub.publishEvent snap batch e)

theorem events_steady (batch : TickEvents) (pub : Publisher F (Client F S)) :
    Steady pub.outbox pub.client (pub.publishEvents snap batch).outbox
      (pub.publishEvents snap batch).client := by
  rw [events_sends]
  refine sendAll_steady hw snap.taps snap.state.tick (fun m hm => ?_) pub.outbox pub.client
  obtain ⟨e, -, rfl⟩ := List.mem_map.mp hm
  rfl

end

section

variable {S : Type} [Sink (Payload ℝ) S]

/-- An event-class point of the map. -/
def IsWord (points : List (Point ℝ)) (p : Point ℝ × Nat) : Prop :=
  p ∈ points.zipIdx ∧ p.1.pointClass = .event

/-- The last retained message on a point's topic says a value. -/
def Carries (pub : Publisher ℝ (Client ℝ S)) (p : Point ℝ × Nat) (v : Reading ℝ) : Prop :=
  ∃ m ts, lastRetained (held pub.outbox pub.client) (pointTopic p.1.name) = some m ∧
    m.payload = .point ts v p.1.unit

/-- What is recorded as published is what the broker has, or is about to get. -/
def Believed (points : List (Point ℝ)) (pub : Publisher ℝ (Client ℝ S)) : Prop :=
  ∀ p, IsWord points p → ∀ v, pub.lastEventValue[p.2]? = some (some v) → Carries pub p v

/-- No two words share a topic. -/
def Apart (points : List (Point ℝ)) : Prop :=
  ∀ p q, IsWord points p → IsWord points q → pointTopic p.1.name = pointTopic q.1.name → p = q

omit [Sink (Payload ℝ) S] in
theorem sameReading_eq {x y : Reading ℝ} (h : sameReading x y = true) : x = y := by
  cases x with
  | none => cases y <;> cases h
  | some x =>
    cases y with
    | none => cases h
    | some y =>
      simp only [sameReading, Bool.and_eq_true, decide_eq_true_eq] at h
      exact congrArg some (le_antisymm h.1 h.2)

/-- What one word of the pass leaves as it was. -/
structure WordFrame (dropout : Bool) (pub pub' : Publisher ℝ (Client ℝ S)) : Prop where
  points : pub'.points = pub.points
  publishedOn : pub'.publishedOn = pub.publishedOn
  offline : pub'.outbox.offline = dropout
  returned : pub'.outbox.returned = pub.outbox.returned
  quiet : Quiet pub.outbox → Quiet pub'.outbox
  grows : pub.outbox.store.length ≤ pub'.outbox.store.length

omit [Sink (Payload ℝ) S] in
theorem WordFrame.trans {dropout : Bool} {p q r : Publisher ℝ (Client ℝ S)}
    (h : WordFrame dropout p q) (h' : WordFrame dropout q r) : WordFrame dropout p r :=
  ⟨h'.points.trans h.points, h'.publishedOn.trans h.publishedOn, h'.offline,
    h'.returned.trans h.returned, fun hq => h'.quiet (h.quiet hq), h.grows.trans h'.grows⟩

section

variable (hw : Willing (Payload ℝ) S) (snap : Snapshot ℝ)
include hw

theorem word_frame {pub : Publisher ℝ (Client ℝ S)} (p : Point ℝ × Nat)
    (h : pub.outbox.offline = snap.taps.dropout .mqtt snap.state.tick) :
    WordFrame (snap.taps.dropout .mqtt snap.state.tick) pub (pub.publishWord snap p) := by
  obtain ⟨o, r, hsend, hsent⟩ :=
    send_sent hw pub.outbox pub.client snap.taps snap.state.tick (wordMessage snap p)
  rw [Publisher.publishWord]
  split
  · exact ⟨rfl, rfl, h, rfl, fun hq => hq, le_refl _⟩
  · rw [hsend]
    refine ⟨rfl, rfl, hsent.offline, ?_, hsent.quiet, hsent.grows h⟩
    rw [hsent.returned, h]
    cases snap.taps.dropout .mqtt snap.state.tick <;> simp

theorem words_frame {pub : Publisher ℝ (Client ℝ S)} (ps : List (Point ℝ × Nat))
    (h : pub.outbox.offline = snap.taps.dropout .mqtt snap.state.tick) :
    WordFrame (snap.taps.dropout .mqtt snap.state.tick) pub
      (ps.foldl (Publisher.publishWord snap) pub) := by
  induction ps generalizing pub with
  | nil => exact ⟨rfl, rfl, h, rfl, fun hq => hq, le_refl _⟩
  | cons p ps ih =>
    have hword := word_frame hw snap p h
    exact hword.trans (ih hword.offline)

variable {points : List (Point ℝ)} (hapart : Apart points)
include hapart

/-- Outside a dropout a word ends up published as it reads, and every other
word's last message stays. -/
theorem word_carried {pub : Publisher ℝ (Client ℝ S)} {p : Point ℝ × Nat}
    (hd : snap.taps.dropout .mqtt snap.state.tick = false) (hq : Quiet pub.outbox)
    (hroom : (pub.publishWord snap p).outbox.store.length < STORE) (hb : Believed points pub)
    (hp : p ∈ points.zipIdx) :
    Believed points (pub.publishWord snap p) ∧
      (p.1.pointClass = .event → Carries (pub.publishWord snap p) p (wordReading snap p)) ∧
      ∀ q, IsWord points q → q ≠ p → ∀ v, Carries pub q v → Carries (pub.publishWord snap p) q v := by
  obtain ⟨o, r, hsend, hsent⟩ :=
    send_sent hw pub.outbox pub.client snap.taps snap.state.tick (wordMessage snap p)
  rw [Publisher.publishWord] at hroom ⊢
  cases hskip : decide (p.1.pointClass ≠ .event) || pub.unchanged snap p with
  | true =>
    simp only [if_true]
    refine ⟨hb, fun hevent => ?_, fun _ _ _ _ h => h⟩
    have hunchanged : pub.unchanged snap p = true := by simpa [hevent] using hskip
    rw [Publisher.unchanged] at hunchanged
    cases hlast : (pub.lastEventValue[p.2]?).join with
    | none => simp [hlast] at hunchanged
    | some last =>
      simp only [hlast] at hunchanged
      rw [← sameReading_eq hunchanged]
      exact hb p ⟨hp, hevent⟩ last (Option.join_eq_some_iff.mp hlast)
  | false =>
    simp only [hskip, Bool.false_eq_true, if_false, hsend] at hroom ⊢
    have hlast := hsent.last hd hroom hq
    have hevent : p.1.pointClass = .event := by
      by_contra hne
      simp [hne] at hskip
    have hcarries : Carries { pub with
        outbox := o
        client := r
        lastEventValue := pub.lastEventValue.set p.2 (some (wordReading snap p)) } p
          (wordReading snap p) := by
      refine ⟨wordMessage snap p, deviceTimeS snap, ?_, rfl⟩
      rw [hlast, if_pos (by simp [wordMessage])]
    have hothers : ∀ q, IsWord points q → q ≠ p → ∀ v, Carries pub q v → Carries { pub with
        outbox := o
        client := r
        lastEventValue := pub.lastEventValue.set p.2 (some (wordReading snap p)) } q v := by
      rintro q hq' hne v ⟨m, ts, hm, hv⟩
      refine ⟨m, ts, ?_, hv⟩
      have htopic : (wordMessage snap p).topic ≠ pointTopic q.1.name :=
        fun he => hne (hapart p q ⟨hp, hevent⟩ hq' he).symm
      rw [hlast, if_neg (by simp [htopic])]
      exact hm
    refine ⟨fun q hq' v hv => ?_, fun _ => hcarries, hothers⟩
    by_cases hqp : q = p
    · subst hqp
      simp only [List.getElem?_set_self', Option.map_eq_map, Option.map_eq_some_iff] at hv
      obtain ⟨_, -, hv⟩ := hv
      rw [← Option.some.inj hv]
      exact hcarries
    · have hindex : p.2 ≠ q.2 := by
        intro he
        have hgp := List.mem_zipIdx_iff_getElem?.mp hp
        have hgq := List.mem_zipIdx_iff_getElem?.mp hq'.1
        rw [← he, hgp] at hgq
        exact hqp (Prod.ext (Option.some.inj hgq).symm he.symm)
      have hv' : (pub.lastEventValue.set p.2 (some (wordReading snap p)))[q.2]? = some (some v) := hv
      rw [List.getElem?_set_ne hindex] at hv'
      exact hothers q hq' hqp v (hb q hq' v hv')

/-- The pass over the words, one after the other. -/
theorem words_carried (hd : snap.taps.dropout .mqtt snap.state.tick = false)
    (ps : List (Point ℝ × Nat)) (hps : ∀ p ∈ ps, p ∈ points.zipIdx)
    {pub : Publisher ℝ (Client ℝ S)} (hoff : pub.outbox.offline = false) (hq : Quiet pub.outbox)
    (hroom : (ps.foldl (Publisher.publishWord snap) pub).outbox.store.length < STORE)
    (hb : Believed points pub) :
    Believed points (ps.foldl (Publisher.publishWord snap) pub) ∧
      ∀ q, IsWord points q → q ∈ ps ∨ Carries pub q (wordReading snap q) →
        Carries (ps.foldl (Publisher.publishWord snap) pub) q (wordReading snap q) := by
  induction ps generalizing pub with
  | nil =>
    refine ⟨hb, fun q _ h => ?_⟩
    rcases h with hmem | hc
    · cases hmem
    · exact hc
  | cons p ps ih =>
    have hword := word_frame hw snap p (hoff.trans hd.symm)
    have hrest := words_frame hw snap ps hword.offline
    have hroom₁ : (pub.publishWord snap p).outbox.store.length < STORE := hrest.grows.trans_lt hroom
    obtain ⟨hb₁, hself, hothers⟩ :=
      word_carried hw snap hapart hd hq hroom₁ hb (hps p List.mem_cons_self)
    obtain ⟨hbelieved, hcarried⟩ := ih (fun q hq' => hps q (List.mem_cons_of_mem _ hq'))
      (hword.offline.trans hd) (hword.quiet hq) hroom hb₁
    refine ⟨hbelieved, fun q hq' h => hcarried q hq' ?_⟩
    by_cases hqp : q = p
    · subst hqp
      exact Or.inr (hself hq'.2)
    · rcases h with hmem | hc
      · rcases List.mem_cons.mp hmem with he | hmem
        · exact absurd he hqp
        · exact Or.inl hmem
      · exact Or.inr (hothers q hq' hqp _ hc)

end

/-- A publisher and the connection it is on; its client remembers what it took
since that connection. -/
structure Link (S : Type) where
  publisher : Publisher ℝ (Client ℝ S)
  connection : Nat

/-- Each pass finds a snapshot of its own. -/
inductive Act
  | backfill (snap : Snapshot ℝ)
  | cadence (snap : Snapshot ℝ)
  | changed (snap : Snapshot ℝ)
  | events (snap : Snapshot ℝ) (batch : TickEvents)
  | reconnect

namespace Link

def start (client : S) (points : List (Point ℝ)) : Link S := ⟨Publisher.new ⟨client, []⟩ points, 0⟩

noncomputable def act (l : Link S) : Act → Link S
  | .backfill snap => { l with publisher := l.publisher.backfill snap }
  | .cadence snap => { l with publisher := (l.publisher.publishCadence snap).1 }
  | .changed snap => { l with publisher := l.publisher.publishChanged snap l.connection }
  | .events snap batch => { l with publisher := l.publisher.publishEvents snap batch }
  | .reconnect =>
    { publisher := { l.publisher with client := ⟨l.publisher.client.sink, []⟩ }
      connection := l.connection + 1 }

/-- The store has room left when an act is over. -/
def Roomy (l : Link S) (a : Act) : Prop := (l.act a).publisher.outbox.store.length < STORE

/-- When the words were published outside a dropout, each is retained as it reads. -/
def Fresh (l : Link S) : Act → Prop
  | .changed snap => snap.taps.dropout .mqtt snap.state.tick = false →
    ∀ p, IsWord l.publisher.points p →
      Carries (l.act (.changed snap)).publisher p (wordReading snap p)
  | _ => True

/-- What every act keeps: the store is quiet, and what is recorded is believed
rightly until a dropout or a new connection says otherwise. -/
structure Coherent (points : List (Point ℝ)) (l : Link S) : Prop where
  map : l.publisher.points = points
  quiet : Quiet l.publisher.outbox
  ahead : l.publisher.publishedOn ≤ l.connection
  believed : l.publisher.outbox.offline = false → l.publisher.outbox.returned = false →
    l.publisher.publishedOn = l.connection → Believed points l.publisher

section

variable {points : List (Point ℝ)} {l : Link S}

omit [Sink (Payload ℝ) S] in
theorem coherent_steady (h : Coherent points l) {pub : Publisher ℝ (Client ℝ S)}
    (hs : Steady l.publisher.outbox l.publisher.client pub.outbox pub.client)
    (hmap : pub.points = l.publisher.points) (hon : pub.publishedOn = l.publisher.publishedOn)
    (hlast : pub.lastEventValue = l.publisher.lastEventValue)
    (hroom : pub.outbox.store.length < STORE) : Coherent points { l with publisher := pub } where
  map := hmap.trans h.map
  quiet := hs.quiet h.quiet
  ahead := hon.trans_le h.ahead
  believed hoff hret hconn p hp v hv := by
    obtain ⟨hoff₀, hret₀, hkept⟩ := hs.kept hoff hret hroom h.quiet
    have hv' : l.publisher.lastEventValue[p.2]? = some (some v) := by
      rw [← hlast]
      exact hv
    obtain ⟨m, ts, hm, hpay⟩ := h.believed hoff₀ hret₀ (hon.symm.trans hconn) p hp v hv'
    exact ⟨m, ts, (hkept _).trans hm, hpay⟩

omit [Sink (Payload ℝ) S] in
theorem nothing_recorded {α : Type} (xs : List α) (i : Nat) (v : Reading ℝ) :
    (xs.map fun _ => (none : Option (Reading ℝ)))[i]? ≠ some (some v) := by
  rw [List.getElem?_map]
  cases xs[i]? <;> simp

/-- What the words' pass starts from: nothing recorded that is not believed. -/
structure Ready (points : List (Point ℝ)) (dropout : Bool) (connection : Nat)
    (pub : Publisher ℝ (Client ℝ S)) : Prop where
  map : pub.points = points
  offline : pub.outbox.offline = dropout
  returned : pub.outbox.returned = false
  publishedOn : pub.publishedOn = connection
  quiet : Quiet pub.outbox
  believed : dropout = false → Believed points pub

omit [Sink (Payload ℝ) S] in
theorem forget_ready (h : Coherent points l) (snap : Snapshot ℝ) :
    Ready points (snap.taps.dropout .mqtt snap.state.tick) l.connection
      (l.publisher.forget snap l.connection) := by
  obtain ⟨hoff, hret, honline, -⟩ :=
    Outbox.observe_edges l.publisher.outbox snap.taps snap.state.tick
  have hquiet : Quiet (l.publisher.outbox.takeReturned snap.taps snap.state.tick).1 :=
    quiet_observe h.quiet snap.taps snap.state.tick
  have hoffline : (l.publisher.outbox.takeReturned snap.taps snap.state.tick).1.offline =
      snap.taps.dropout .mqtt snap.state.tick := hoff
  have hreturned : (l.publisher.outbox.takeReturned snap.taps snap.state.tick).2 =
      (l.publisher.outbox.observe snap.taps snap.state.tick).1.returned := rfl
  rw [Publisher.forget]
  cases hforget : decide (l.connection ≠ l.publisher.publishedOn) ||
      (l.publisher.outbox.takeReturned snap.taps snap.state.tick).2 with
  | true =>
    simp only [hforget, if_true]
    exact ⟨h.map, hoffline, rfl, rfl, hquiet, fun _ p _ v hv => absurd hv (nothing_recorded _ p.2 v)⟩
  | false =>
    simp only [hforget, Bool.false_eq_true, if_false]
    rw [Bool.or_eq_false_iff, decide_eq_false_iff_not, not_not, hreturned, hret] at hforget
    refine ⟨h.map, hoffline, rfl, hforget.1.symm, hquiet, fun hd => ?_⟩
    have hedge := hforget.2
    rw [hd, Bool.not_false, Bool.and_true, Bool.or_eq_false_iff] at hedge
    intro p hp v hv
    obtain ⟨m, ts, hm, hpay⟩ := h.believed hedge.2 hedge.1 hforget.1.symm p hp v hv
    refine ⟨m, ts, ?_, hpay⟩
    rw [← hm]
    exact congrArg (fun store => lastRetained (l.publisher.client.delivered ++ store) _)
      (honline hd).1

variable (hw : Willing (Payload ℝ) S) (hapart : Apart points)
include hw hapart

theorem changed_coherent (h : Coherent points l) (snap : Snapshot ℝ)
    (hroom : l.Roomy (.changed snap)) :
    Coherent points (l.act (.changed snap)) ∧ l.Fresh (.changed snap) := by
  have hready := forget_ready h snap
  have hzip : (l.publisher.publishChanged snap l.connection) =
      points.zipIdx.foldl (Publisher.publishWord snap) (l.publisher.forget snap l.connection) := by
    rw [Publisher.publishChanged, h.map]
  have hframe := words_frame hw snap points.zipIdx hready.offline
  rw [Roomy, act, hzip] at hroom
  rw [Fresh, act, hzip, h.map]
  have hcarried := fun hd : snap.taps.dropout .mqtt snap.state.tick = false =>
    words_carried hw snap hapart hd points.zipIdx (fun _ hp => hp) (hready.offline.trans hd)
      hready.quiet hroom (hready.believed hd)
  refine ⟨⟨hframe.points.trans hready.map, hframe.quiet hready.quiet,
    (hframe.publishedOn.trans hready.publishedOn).le, fun hoff _ _ => ?_⟩, fun hd p hp => ?_⟩
  · exact (hcarried (hframe.offline.symm.trans hoff)).1
  · exact (hcarried hd).2 p hp (Or.inl hp.1)

theorem act_coherent (h : Coherent points l) (a : Act) (hroom : l.Roomy a) :
    Coherent points (l.act a) ∧ l.Fresh a := by
  cases a with
  | backfill snap =>
    have hs := backfill_steady hw snap.taps snap.state.tick l.publisher.outbox l.publisher.client
    exact ⟨coherent_steady h hs rfl rfl rfl hroom, trivial⟩
  | cadence snap =>
    exact ⟨coherent_steady h (cadence_steady hw snap l.publisher) rfl rfl rfl hroom, trivial⟩
  | events snap batch =>
    have hs := events_steady hw snap batch l.publisher
    refine ⟨coherent_steady h hs ?_ ?_ ?_ hroom, trivial⟩
    all_goals rw [events_sends]
  | changed snap => exact changed_coherent hw hapart h snap hroom
  | reconnect =>
    refine ⟨⟨h.map, h.quiet, h.ahead.trans (Nat.le_succ _), fun _ _ hconn => ?_⟩, trivial⟩
    have hbehind : l.publisher.publishedOn = l.connection + 1 := hconn
    have hahead := h.ahead
    omega

end

end Link

theorem apart_of_nodup {points : List (Point ℝ)}
    (h : (topics (points.filter fun p => p.pointClass = .event)).Nodup) : Apart points := by
  have hfst : (points.zipIdx.filter fun p => p.1.pointClass = .event).map
      (fun p => pointTopic p.1.name) = topics (points.filter fun p => p.pointClass = .event) := by
    have hmap := List.filter_map (f := Prod.fst) (p := fun p : Point ℝ => p.pointClass = .event)
      (l := points.zipIdx)
    rw [List.zipIdx_map_fst] at hmap
    rw [topics, hmap, List.map_map]
    rfl
  rw [← hfst] at h
  rintro p q ⟨hp, hpe⟩ ⟨hq, hqe⟩ he
  exact List.inj_on_of_nodup_map h (List.mem_filter.mpr ⟨hp, by simp [hpe]⟩)
    (List.mem_filter.mpr ⟨hq, by simp [hqe]⟩) he

/-- With a store that never fills, whenever the words have been published
outside a dropout, the last retained message of each, among those published
since the latest connection and those stored, says what the tap reads. -/
theorem words_fresh (hw : Willing (Payload ℝ) S) (client : S) (blocks : Nat)
    (points : List (Point ℝ))
    (hmap : (points.filter fun p => p.pointClass = .event).Perm (alarmPoints blocks))
    (acts : List Act) (hroom : Traces.Always Link.act Link.Roomy (Link.start client points) acts) :
    Traces.Always Link.act Link.Fresh (Link.start client points) acts := by
  have hnodup : (topics (points.filter fun p => p.pointClass = .event)).Nodup :=
    (hmap.map fun p : Point ℝ => pointTopic p.name).nodup_iff.mpr (alarmTopics_nodup blocks)
  have hstart : Link.Coherent points (Link.start client points) :=
    ⟨rfl, fun _ m hm => absurd hm List.not_mem_nil, le_refl _,
      fun _ _ _ p _ v hv => absurd hv (Link.nothing_recorded points p.2 v)⟩
  have hstep : ∀ (l : Link S) (a : Act), Link.Coherent points l → l.Roomy a →
      Link.Coherent points (l.act a) ∧ l.Fresh a :=
    fun _ a h hr => Link.act_coherent hw (apart_of_nodup hnodup) h a hr
  exact Traces.always_while hstep hstart hroom

/-- On a calm day nothing is ever stored. -/
theorem calm_roomy (points : List (Point ℝ)) :
    Traces.Always Link.act Link.Roomy (Link.start (⟨⟩ : Taker) points)
      [.changed plant2026.emulator.snapshot, .reconnect, .changed plant2026.emulator.snapshot] := by
  have hidle : ∀ (pub : Publisher ℝ (Client ℝ Taker)) (connection : Nat), Idle pub.outbox →
      Idle (pub.publishChanged plant2026.emulator.snapshot connection).outbox :=
    fun _ connection h => (publishChanged_aside plant2026_online taker_willing h connection).idle
  have hempty : ∀ o : Outbox (Payload ℝ), Idle o → o.store.length < STORE := by
    intro o ho
    rw [ho.store]
    decide
  have hfirst := hidle (Link.start (⟨⟩ : Taker) points).publisher 0 ⟨rfl, rfl⟩
  have hsecond := hidle ((Link.start (⟨⟩ : Taker) points).act (.changed plant2026.emulator.snapshot)
    |>.act .reconnect).publisher 1 ⟨hfirst.store, hfirst.replaying⟩
  exact ⟨hempty _ hfirst, hempty _ ⟨hfirst.store, hfirst.replaying⟩, hempty _ hsecond, trivial⟩

/-- The reference map's words on a calm day, before and after a reconnection. -/
theorem words_fresh_reconnected :
    Traces.Always Link.act Link.Fresh (Link.start (⟨⟩ : Taker) (alarmPoints 20))
      [.changed plant2026.emulator.snapshot, .reconnect, .changed plant2026.emulator.snapshot] := by
  have hevents : ((alarmPoints 20 : List (Point ℝ)).filter fun p => p.pointClass = .event) =
      alarmPoints 20 := List.filter_eq_self.mpr fun p hp => by simp [alarmPoints_event 20 p hp]
  exact words_fresh taker_willing ⟨⟩ 20 (alarmPoints 20) (List.Perm.of_eq hevents) _
    (calm_roomy (alarmPoints 20))

end

end BessRetained
