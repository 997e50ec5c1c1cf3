import BessEmulator.Latched

/-!
# What a reset answers

The reset goes through the racks in scope and clears each one's latched bits.
Its answer lists, of the bits it cleared, those the BMS would latch again on
the rack as it stands.
-/
namespace BessReset

open Bess BessReplay BessTrip BessLatch

variable {F : Type} (models : Models F) (cfg : PlantConfig F)

/-- The trip bits of a rack whose cause is present as the reset clears them. -/
def stillOf (x : RackState F) : List Nat :=
  (List.range' 8 8).filter fun bit =>
    hasBit (models.bms.rackAlarms x.unlatch cfg.rack &&& x.alarmBits &&& TRIP_MASK) bit

theorem hasBit_and (v w : BitVec 32) (i : Nat) : hasBit (v &&& w) i = (hasBit v i && hasBit w i) := by
  simp [hasBit_eq]

theorem hasBit_trip {i : Nat} (h0 : 8 ≤ i) (h1 : i < 16) : hasBit TRIP_MASK i = true := by
  interval_cases i <;> rfl

theorem mem_stillOf {x : RackState F} {bit : Nat} :
    bit ∈ stillOf models cfg x ↔ (8 ≤ bit ∧ bit < 16) ∧ hasBit x.alarmBits bit = true ∧
      hasBit (models.bms.rackAlarms x.unlatch cfg.rack) bit = true := by
  rw [stillOf, List.mem_filter, List.mem_range'_1, hasBit_and, hasBit_and, Bool.and_eq_true,
    Bool.and_eq_true]
  constructor
  · rintro ⟨hrange, ⟨hagain, hold⟩, -⟩
    exact ⟨hrange, hold, hagain⟩
  · rintro ⟨hrange, hold, hagain⟩
    exact ⟨hrange, ⟨hagain, hold⟩, hasBit_trip hrange.1 hrange.2⟩

theorem hasBit_unlatch {x : RackState F} {bit : Nat} (h0 : 8 ≤ bit) (h1 : bit < 16) :
    hasBit x.unlatch.alarmBits bit = false := by
  rw [RackState.unlatch, hasBit_and_not_trip]
  simp [h0, h1]

/-- A second reset has nothing left to answer. -/
theorem stillOf_unlatch (x : RackState F) : stillOf models cfg x.unlatch = [] := by
  rw [List.eq_nil_iff_forall_not_mem]
  intro bit hbit
  obtain ⟨⟨h0, h1⟩, hold, -⟩ := (mem_stillOf models cfg).mp hbit
  rw [hasBit_unlatch h0 h1] at hold
  cases hold

theorem unlatch_unlatch (x : RackState F) : x.unlatch.unlatch = x.unlatch := by
  simp only [RackState.unlatch, BitVec.and_assoc, BitVec.and_self]

/-- A node of the tree is a rack that answers with a bit. -/
def Answers (s : SiteState F) (node : AlarmNode) (bit : Nat) : Prop :=
  ∃ b c r x, node = .rack b c r ∧ s.rack? b c r = some x ∧ bit ∈ stillOf models cfg x

/-- A pass over the tree `s` that has been through the nodes of `V`. -/
structure Pass (s : SiteState F) (V : AlarmNode → Prop) (p : ResetPass F) : Prop where
  done : ∀ b c r, V (.rack b c r) → p.state.rack? b c r = (s.rack? b c r).map RackState.unlatch
  rest : ∀ b c r, ¬ V (.rack b c r) → p.state.rack? b c r = s.rack? b c r
  still : ∀ node bit, (node, bit) ∈ p.still ↔ V node ∧ Answers models cfg s node bit

section

variable {models cfg} {s : SiteState F} {V : AlarmNode → Prop} {p : ResetPass F}

theorem Pass.start (s : SiteState F) : Pass models cfg s (fun _ => False) ⟨s, [], []⟩ where
  done _ _ _ h := h.elim
  rest _ _ _ _ := rfl
  still node bit := by simp

/-- Only the racks that the tree has count. -/
theorem Pass.congr (h : Pass models cfg s V p) {W : AlarmNode → Prop}
    (hVW : ∀ b c r, (s.rack? b c r).isSome → (V (.rack b c r) ↔ W (.rack b c r))) :
    Pass models cfg s W p where
  done b c r hW := by
    cases hx : s.rack? b c r with
    | none =>
      by_cases hV : V (.rack b c r)
      · rw [h.done b c r hV, hx]
      · rw [h.rest b c r hV, hx]
        rfl
    | some x =>
      rw [h.done b c r ((hVW b c r (by rw [hx]; rfl)).mpr hW), hx]
  rest b c r hW := by
    cases hx : s.rack? b c r with
    | none =>
      by_cases hV : V (.rack b c r)
      · rw [h.done b c r hV, hx]
        rfl
      · rw [h.rest b c r hV, hx]
    | some x =>
      rw [h.rest b c r (mt (hVW b c r (by rw [hx]; rfl)).mp hW), hx]
  still node bit := by
    rw [h.still]
    apply and_congr_left
    rintro ⟨b, c, r, x, rfl, hx, -⟩
    exact hVW b c r (by rw [hx]; rfl)

theorem Pass.isSome (h : Pass models cfg s V p) (b c r : Nat) :
    (p.state.rack? b c r).isSome = (s.rack? b c r).isSome := by
  by_cases hV : V (.rack b c r)
  · rw [h.done b c r hV, Option.isSome_map]
  · rw [h.rest b c r hV]

/-- A rack cleared earlier in the pass answers nothing and stays as it is. -/
theorem pass_again (h : Pass models cfg s V p) {b c r : Nat} (hV : V (.rack b c r)) :
    Pass models cfg s V (resetRack models cfg b p (c, r)) := by
  rw [resetRack]
  cases hy : p.state.rack? b c r with
  | none => exact h
  | some y =>
    obtain ⟨x, -, rfl⟩ := Option.map_eq_some_iff.mp ((h.done b c r hV).symm.trans hy)
    have hnone : (List.range' 8 8).filter (fun bit => hasBit (models.bms.rackAlarms
        x.unlatch.unlatch cfg.rack &&& x.unlatch.alarmBits &&& TRIP_MASK) bit) = [] :=
      stillOf_unlatch models cfg x
    have hracks : ∀ j d q, (p.state.modifyRack b c r RackState.unlatch).rack? j d q =
        p.state.rack? j d q := by
      intro j d q
      rw [rack_modifyRack]
      cases hz : p.state.rack? j d q with
      | none => rfl
      | some z =>
        by_cases he : b = j ∧ c = d ∧ r = q
        · obtain ⟨rfl, rfl, rfl⟩ := he
          obtain rfl := Option.some.inj (hy.symm.trans hz)
          simp [unlatch_unlatch]
        · simp [he]
    refine ⟨fun j d q hn => ?_, fun j d q hn => ?_, fun node bit => ?_⟩
    · rw [hracks]
      exact h.done j d q hn
    · rw [hracks]
      exact h.rest j d q hn
    · simp only [hnone, List.map_nil, List.append_nil]
      exact h.still node bit

/-- A rack the pass comes to is cleared, and answers for itself. -/
theorem pass_first (h : Pass models cfg s V p) {b c r : Nat} (hV : ¬ V (.rack b c r))
    {x : RackState F} (hx : s.rack? b c r = some x) :
    Pass models cfg s (fun n => V n ∨ n = .rack b c r) (resetRack models cfg b p (c, r)) := by
  have hy : p.state.rack? b c r = some x := (h.rest b c r hV).trans hx
  simp only [resetRack, hy]
  have hracks : ∀ j d q, ¬(b = j ∧ c = d ∧ r = q) →
      (p.state.modifyRack b c r RackState.unlatch).rack? j d q = p.state.rack? j d q := by
    intro j d q hne
    rw [rack_modifyRack]
    simp only [if_neg hne, Option.map_id']
  refine ⟨fun j d q hn => ?_, fun j d q hn => ?_, fun node bit => ?_⟩
  · obtain hn | he := hn
    · rw [hracks]
      · exact h.done j d q hn
      · rintro ⟨rfl, rfl, rfl⟩
        exact hV hn
    · cases he
      rw [rack_modifyRack, hy, hx]
      simp
  · obtain ⟨hnV, hne⟩ := not_or.mp hn
    rw [hracks]
    · exact h.rest j d q hnV
    · rintro ⟨rfl, rfl, rfl⟩
      exact hne rfl
  · rw [List.mem_append, h.still, or_and_right, List.mem_map]
    apply or_congr_right
    constructor
    · rintro ⟨i, hi, he⟩
      cases he
      exact ⟨rfl, b, c, r, x, rfl, hx, hi⟩
    · rintro ⟨rfl, _, _, _, x', he, hx', hi⟩
      cases he
      obtain rfl := Option.some.inj (hx.symm.trans hx')
      exact ⟨bit, hi, rfl⟩

theorem pass_rack (h : Pass models cfg s V p) (b : Nat) (addr : Nat × Nat) :
    Pass models cfg s (fun n => V n ∨ n = .rack b addr.1 addr.2) (resetRack models cfg b p addr) := by
  obtain ⟨c, r⟩ := addr
  by_cases hV : V (.rack b c r)
  · refine (pass_again h hV).congr fun j d q _ => ⟨.inl, ?_⟩
    rintro (hn | he)
    · exact hn
    · cases he
      exact hV
  · cases hx : s.rack? b c r with
    | some x => exact pass_first h hV hx
    | none =>
      have hnone : p.state.rack? b c r = none := (h.rest b c r hV).trans hx
      rw [resetRack]
      simp only [hnone]
      refine h.congr fun j d q hsome => ⟨.inl, ?_⟩
      rintro (hn | he)
      · exact hn
      · cases he
        rw [hx] at hsome
        cases hsome

theorem pass_racks (h : Pass models cfg s V p) (b : Nat) (addrs : List (Nat × Nat)) :
    Pass models cfg s (fun n => V n ∨ ∃ a ∈ addrs, n = .rack b a.1 a.2)
      (addrs.foldl (resetRack models cfg b) p) := by
  induction addrs generalizing V p with
  | nil => exact h.congr fun _ _ _ _ => by simp
  | cons a as ih =>
    refine (ih (pass_rack h b a)).congr fun _ _ _ _ => ?_
    simp [or_assoc]

/-- The addresses of a block are those of its racks. -/
theorem mem_rackAddrs (blk : BlockState F) (c r : Nat) :
    (c, r) ∈ blk.rackAddrs ↔ (blk.containers[c]?.bind fun con => con.racks[r]?).isSome := by
  simp only [BlockState.rackAddrs, List.mem_flatMap, List.mem_map, List.mem_range, Prod.mk.injEq]
  constructor
  · rintro ⟨⟨con, i⟩, hcon, j, hj, rfl, rfl⟩
    rw [List.mk_mem_zipIdx_iff_getElem?.mp hcon]
    simpa using hj
  · intro hsome
    cases hcon : blk.containers[c]? with
    | none =>
      rw [hcon] at hsome
      cases hsome
    | some con =>
      refine ⟨(con, c), List.mk_mem_zipIdx_iff_getElem?.mpr hcon, r, ?_, rfl, rfl⟩
      rw [hcon] at hsome
      simpa using hsome

theorem pass_block (h : Pass models cfg s V p) (b : Nat) :
    Pass models cfg s (fun n => V n ∨ Covers (.block b) n) (resetBlock models cfg p b) := by
  rw [resetBlock]
  cases hb : p.state.blocks[b]? with
  | none =>
    refine h.congr fun j d q hsome => ⟨.inl, ?_⟩
    rintro (hn | rfl)
    · exact hn
    · rw [← h.isSome, SiteState.rack?, SiteState.container?, hb] at hsome
      cases hsome
  | some blk =>
    have hunlatched : Pass models cfg s V
        ⟨p.state.modifyBlock b BlockState.unlatch,
          pushChanges (if blk.pcs.opState = .fault then
            p.events ++ [.pcsStateChanged b .fault .standby] else p.events) (.block b) blk.alarmBits
            blk.unlatch.alarmBits, p.still⟩ :=
      { done := fun j d q hn => (rack_modifyBlock _ b unlatch_containers j d q).trans (h.done j d q hn)
        rest := fun j d q hn => (rack_modifyBlock _ b unlatch_containers j d q).trans (h.rest j d q hn)
        still := h.still }
    refine (pass_racks hunlatched b blk.rackAddrs).congr fun j d q hsome => or_congr_right ?_
    constructor
    · rintro ⟨a, -, he⟩
      cases he
      rfl
    · rintro rfl
      refine ⟨(d, q), ?_, rfl⟩
      rw [mem_rackAddrs]
      rw [← h.isSome, SiteState.rack?, SiteState.container?, hb] at hsome
      exact hsome

theorem pass_blocks (h : Pass models cfg s V p) (bs : List Nat) :
    Pass models cfg s (fun n => V n ∨ ∃ b ∈ bs, Covers (.block b) n)
      (bs.foldl (resetBlock models cfg) p) := by
  induction bs generalizing V p with
  | nil => exact h.congr fun _ _ _ _ => by simp
  | cons b bs ih =>
    refine (ih (pass_block h b)).congr fun _ _ _ _ => ?_
    simp [or_assoc]

/-- The site's own word and breaker are no rack's. -/
theorem pass_site [Scalar F] (h : Pass models cfg s V p) : Pass models cfg s V (resetSite p) := by
  have hracks : ∀ j d q, (resetSite p).state.rack? j d q = p.state.rack? j d q := by
    intro j d q
    rw [resetSite]
    split <;> rfl
  exact
    { done := fun j d q hn => (hracks j d q).trans (h.done j d q hn)
      rest := fun j d q hn => (hracks j d q).trans (h.rest j d q hn)
      still := h.still }

theorem pass_scope [Scalar F] (s : SiteState F) (scope : ResetScope) :
    Pass models cfg s (Covers scope) (resetScope models cfg ⟨s, [], []⟩ scope) := by
  cases scope with
  | site =>
    refine (pass_site (pass_blocks (Pass.start s) _)).congr fun b c r hsome => ?_
    refine ⟨fun _ => trivial, fun _ => .inr ⟨b, List.mem_range.mpr ?_, rfl⟩⟩
    by_contra hout
    rw [SiteState.rack?, SiteState.container?, List.getElem?_eq_none (not_lt.mp hout)] at hsome
    cases hsome
  | block b =>
    exact (pass_block (Pass.start s) b).congr fun _ _ _ _ => by simp
  | rack b c r =>
    refine (pass_rack (Pass.start s) b (c, r)).congr fun _ _ _ _ => ?_
    simp [Covers, eq_comm]

end

/-- An accepted reset clears the latched bits of every rack in scope, touches
no other rack, and answers with the bits whose cause is present. -/
theorem reset_answers [Scalar F] {models : Models F} {cfg : PlantConfig F} {s s' : SiteState F}
    {scope : ResetScope} {still : List (AlarmNode × Nat)}
    (h : resetAlarms models cfg s scope = (.ok still, s')) :
    Pass models cfg s (Covers scope) ⟨s', [], still⟩ := by
  rw [resetAlarms] at h
  split at h
  · cases h
    have hpass : Pass models cfg s (Covers scope) (resetScope models cfg ⟨s, [], []⟩ scope) :=
      pass_scope s scope
    exact ⟨hpass.done, hpass.rest, hpass.still⟩
  · cases h

end BessReset
