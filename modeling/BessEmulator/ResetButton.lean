import BessEmulator.Dispatch
import BessEmulator.Door
import BessEmulator.ResetAnswer

/-!
# The reset button

The view enables a reset where a trip is latched in the words of its scope. In
a state a tick leaves, that is exactly where the reset would move the tree.
-/
namespace Bess

section

variable {F : Type}

def BlockState.tripLatched (b : BlockState F) : Bool :=
  decide (b.alarmBits &&& TRIP_MASK ≠ 0#32) ||
    b.racks.any fun r => decide (r.alarmBits &&& TRIP_MASK ≠ 0#32)

/-- Whether a reset over `scope` has a latched bit to clear. -/
def latched (state : SiteState F) : ResetScope → Bool
  | .site => decide (state.alarmBits &&& TRIP_MASK ≠ 0#32) || state.blocks.any BlockState.tripLatched
  | .block b => state.blocks[b]?.any BlockState.tripLatched
  | .rack b c r =>
    (((state.blocks[b]?).bind fun b => b.containers[c]?).bind fun c => c.racks[r]?).any
      fun r => decide (r.alarmBits &&& TRIP_MASK ≠ 0#32)

end

end Bess

namespace BessButton

open Bess BessDoor BessDispatch BessReplay BessTrip

theorem hasBit_mask {i : Nat} (hi : i < 32) :
    hasBit TRIP_MASK i = (decide (8 ≤ i) && decide (i < 16)) := by
  interval_cases i <;> rfl

/-- No latched bit: none of the trip byte. -/
theorem trip_byte_zero {w : BitVec 32} :
    w &&& TRIP_MASK = 0#32 ↔ ∀ i, 8 ≤ i → i < 16 → hasBit w i = false := by
  constructor
  · intro h i h0 h1
    have hbit : hasBit (w &&& TRIP_MASK) i = false := by rw [h, hasBit_zero]
    rw [BessReset.hasBit_and, BessReset.hasBit_trip h0 h1, Bool.and_true] at hbit
    exact hbit
  · intro h
    apply word_ext
    intro i hi
    rw [BessReset.hasBit_and, hasBit_mask hi, hasBit_zero]
    by_cases hbyte : 8 ≤ i ∧ i < 16
    · rw [h i hbyte.1 hbyte.2, Bool.false_and]
    · simp only [Bool.and_eq_false_iff, decide_eq_false_iff_not]
      omega

/-- Clearing the latched bits keeps a word exactly where none is latched. -/
theorem clear_keeps {w : BitVec 32} : w &&& ~~~TRIP_MASK = w ↔ w &&& TRIP_MASK = 0#32 := by
  rw [trip_byte_zero]
  constructor
  · intro h i h0 h1
    rw [← h, hasBit_and_not_trip]
    simp [h0, h1]
  · intro h
    apply word_ext
    intro i _
    rw [hasBit_and_not_trip]
    by_cases hbyte : 8 ≤ i ∧ i < 16
    · simp [h i hbyte.1 hbyte.2]
    · have hout : (decide (8 ≤ i) && decide (i < 16)) = false := by
        simp only [Bool.and_eq_false_iff, decide_eq_false_iff_not]
        omega
      simp [hout]

/-- Clearing latched bits says nothing exactly where none is latched. -/
theorem changes_clear {node : AlarmNode} {w : BitVec 32} :
    changes node w (w &&& ~~~TRIP_MASK) = [] ↔ w &&& TRIP_MASK = 0#32 := by
  rw [← clear_keeps]
  constructor
  · exact changes_reset_nil
  · intro h
    apply changes_self
    rw [h, BitVec.xor_self]

section

variable {F : Type}

/-- A pass that adds no event. -/
def Silent (p q : ResetPass F) : Prop := q.events = p.events

/-- A pass that reports and is silent leaves the tree alone. -/
theorem silent_state {p q : ResetPass F} (h : Reports p q) (hsilent : Silent p q) :
    q.state = p.state := by
  obtain ⟨added, hadded, hstate⟩ := h.events
  apply hstate
  rw [Silent, hadded] at hsilent
  simpa using hsilent

/-- Nothing said is taken back: two passes are silent if each is. -/
theorem silent_trans {p q r : ResetPass F} (h : Reports p q) (h' : Reports q r) :
    Silent p r ↔ Silent p q ∧ Silent q r := by
  obtain ⟨as, has, -⟩ := h.events
  obtain ⟨bs, hbs, -⟩ := h'.events
  rw [Silent, Silent, Silent, hbs, has, List.append_assoc]
  simp

/-- A fold of passes is silent if each is, on the tree the fold starts from. -/
theorem silent_foldl {α : Type} {f : ResetPass F → α → ResetPass F} (hf : ∀ p a, Reports p (f p a))
    {s : SiteState F} {quiet : α → Prop}
    (hquiet : ∀ p a, p.state = s → (Silent p (f p a) ↔ quiet a)) (as : List α) {p : ResetPass F}
    (hp : p.state = s) : Silent p (as.foldl f p) ↔ ∀ a ∈ as, quiet a := by
  induction as generalizing p with
  | nil => simp [Silent]
  | cons a as ih =>
    rw [List.foldl_cons, silent_trans (hf p a) (Reports.foldl hf as (f p a)), hquiet p a hp,
      List.forall_mem_cons]
    apply and_congr_right
    intro ha
    apply ih
    rw [silent_state (hf p a) ((hquiet p a hp).mpr ha), hp]

end

section

variable {F : Type} {models : Models F} {cfg : PlantConfig F} {s : SiteState F}

/-- A rack, where there is one, has no latched bit. -/
def QuietRack (s : SiteState F) (b : Nat) (addr : Nat × Nat) : Prop :=
  ∀ x, s.rack? b addr.1 addr.2 = some x → x.alarmBits &&& TRIP_MASK = 0#32

theorem silent_rack {p : ResetPass F} {b : Nat} {addr : Nat × Nat} (hp : p.state = s) :
    Silent p (resetRack models cfg b p addr) ↔ QuietRack s b addr := by
  subst hp
  rw [QuietRack, resetRack]
  cases hx : p.state.rack? b addr.1 addr.2 with
  | none => simp [Silent]
  | some x =>
    simp only [Silent, pushChanges_eq, RackState.unlatch, List.append_right_eq_self, changes_clear,
      Option.some.injEq, forall_eq']

/-- The addresses of a block find each of its racks. -/
theorem quiet_rackAddrs {b : Nat} {blk : BlockState F} (hb : s.blocks[b]? = some blk) :
    (∀ addr ∈ blk.rackAddrs, QuietRack s b addr) ↔
      ∀ x ∈ blk.racks, x.alarmBits &&& TRIP_MASK = 0#32 := by
  have hrack : ∀ c r, s.rack? b c r = blk.containers[c]?.bind fun con => con.racks[r]? := by
    intro c r
    rw [SiteState.rack?, SiteState.container?, hb]
    rfl
  constructor
  · intro h x hx
    obtain ⟨con, hcon, hx⟩ := List.mem_flatMap.mp hx
    obtain ⟨c, hc⟩ := List.mem_iff_getElem?.mp hcon
    obtain ⟨r, hr⟩ := List.mem_iff_getElem?.mp hx
    have hat : (blk.containers[c]?.bind fun con => con.racks[r]?) = some x := by
      rw [hc]
      exact hr
    have haddr : (c, r) ∈ blk.rackAddrs := by
      rw [BessReset.mem_rackAddrs, hat]
      rfl
    exact h (c, r) haddr x ((hrack c r).trans hat)
  · intro h addr _ x hx
    rw [hrack] at hx
    obtain ⟨con, hcon, hx⟩ := Option.bind_eq_some_iff.mp hx
    exact h x (List.mem_flatMap.mpr
      ⟨con, List.mem_of_getElem? hcon, List.mem_of_getElem? hx⟩)

theorem tripLatched_eq_false {blk : BlockState F} :
    blk.tripLatched = false ↔ blk.alarmBits &&& TRIP_MASK = 0#32 ∧
      ∀ x ∈ blk.racks, x.alarmBits &&& TRIP_MASK = 0#32 := by
  simp [BlockState.tripLatched]

theorem ownSaid_eq_nil {b : Nat} {blk : BlockState F} :
    ownSaid blk b = [] ↔ blk.pcs.opState ≠ .fault ∧ blk.alarmBits &&& TRIP_MASK = 0#32 := by
  rw [ownSaid, List.append_eq_nil_iff, unlatch_alarmBits, changes_clear]
  simp

/-- A block with its PCS running or ready and nothing latched. -/
def QuietBlock (blk : BlockState F) : Prop := blk.pcs.opState ≠ .fault ∧ blk.tripLatched = false

theorem silent_block {p : ResetPass F} {b : Nat} (hp : p.state = s) :
    Silent p (resetBlock models cfg p b) ↔ ∀ blk, s.blocks[b]? = some blk → QuietBlock blk := by
  subst hp
  cases hb : p.state.blocks[b]? with
  | none => simp [resetBlock, hb, Silent]
  | some blk =>
    have hown : Silent p (ownPass p b blk) ↔ ownSaid blk b = [] := List.append_right_eq_self
    have hracks : ∀ q : ResetPass F, q.state = p.state →
        (Silent q (blk.rackAddrs.foldl (resetRack models cfg b) q) ↔
          ∀ addr ∈ blk.rackAddrs, QuietRack p.state b addr) := fun q hq =>
      silent_foldl (fun q addr => reports_rack models cfg b q addr)
        (fun q addr hq => silent_rack hq) _ hq
    rw [resetBlock_some models cfg hb, silent_trans (reports_own hb)
      (Reports.foldl (fun q addr => reports_rack models cfg b q addr) _ _)]
    simp only [Option.some.injEq, forall_eq']
    rw [QuietBlock, tripLatched_eq_false, ← quiet_rackAddrs hb, ← and_assoc, ← ownSaid_eq_nil, hown]
    apply and_congr_right
    intro hnil
    exact hracks _ (silent_state (reports_own hb) (hown.mpr hnil))

variable [Scalar F]

/-- The site's word is all that a silent pass over a tripped site asks. -/
theorem silent_site {p : ResetPass F} (hp : p.state = s) :
    Silent p (resetSite p) ↔ s.alarmBits &&& TRIP_MASK = 0#32 := by
  subst hp
  rw [Silent, resetSite, pushChanges_eq, List.append_right_eq_self, changes_clear]

/-- Every fault is on the block's word. -/
def FaultsLatched (s : SiteState F) : Prop :=
  ∀ blk ∈ s.blocks, blk.pcs.opState = .fault → blk.alarmBits &&& TRIP_MASK ≠ 0#32

omit [Scalar F] in
/-- A word that carries the fault leaves the word to be asked alone. -/
theorem quietBlock_iff (hf : FaultsLatched s) {blk : BlockState F} (hblk : blk ∈ s.blocks) :
    QuietBlock blk ↔ blk.tripLatched = false := by
  rw [QuietBlock, and_iff_right_iff_imp]
  intro hquiet hfault
  exact hf blk hblk hfault (tripLatched_eq_false.mp hquiet).1

/-- A reset is silent where the view sees nothing latched. -/
theorem silent_scope (ht : Tripped s) (hf : FaultsLatched s) (scope : ResetScope) :
    Silent ⟨s, [], []⟩ (resetScope models cfg ⟨s, [], []⟩ scope) ↔ latched s scope = false := by
  have hblock : ∀ b, (∀ blk, s.blocks[b]? = some blk → QuietBlock blk) ↔
      ∀ blk : BlockState F, s.blocks[b]? = some blk → blk.tripLatched = false := fun b =>
    forall₂_congr fun blk hb => quietBlock_iff hf (List.mem_of_getElem? hb)
  cases scope with
  | rack b c r =>
    rw [resetScope, silent_rack rfl, QuietRack, latched]
    change (∀ x, s.rack? b c r = some x → _) ↔ Option.any _ (s.rack? b c r) = false
    cases s.rack? b c r with
    | none => simp
    | some x => simp
  | block b =>
    rw [resetScope, silent_block rfl, hblock, latched]
    cases s.blocks[b]? with
    | none => simp
    | some blk => simp
  | site =>
    have hreports : ∀ (q : ResetPass F) b, Reports q (resetBlock models cfg q b) := fun q b =>
      reports_block models cfg q b
    have hblocks : Silent ⟨s, [], []⟩
        ((List.range s.blocks.length).foldl (resetBlock models cfg) ⟨s, [], []⟩) ↔
          ∀ blk ∈ s.blocks, blk.tripLatched = false := by
      rw [silent_foldl hreports (fun q b hq => silent_block hq) _ rfl]
      constructor
      · intro h blk hblk
        obtain ⟨b, hb⟩ := List.mem_iff_getElem?.mp hblk
        have hlt : b < s.blocks.length := (List.getElem?_eq_some_iff.mp hb).1
        exact (hblock b).mp (h b (List.mem_range.mpr hlt)) blk hb
      · intro h b _
        exact (hblock b).mpr fun blk hb => h blk (List.mem_of_getElem? hb)
    have htripped := tripped_resetBlocks models cfg (List.range s.blocks.length) ⟨s, [], []⟩ ht
    have hsite := reports_site fun ho => htripped.bit.mpr ho
    have hword : latched s .site = false ↔ (∀ blk ∈ s.blocks, blk.tripLatched = false) ∧
        s.alarmBits &&& TRIP_MASK = 0#32 := by
      simp [latched, and_comm]
    rw [resetScope, silent_trans (Reports.foldl hreports _ _) hsite, hblocks, hword]
    apply and_congr_right
    intro hquiet
    exact silent_site (silent_state (Reports.foldl hreports _ _) (hblocks.mpr hquiet))

end

/-- What the button says of a tree: it is enabled where a reset of its scope
would move the tree, so a PCS in fault and an open breaker always have theirs. -/
structure Truthful (models : Models ℝ) (cfg : PlantConfig ℝ) (s : SiteState ℝ) : Prop where
  moves : ∀ scope, ScopeExists s scope → ∃ s' still,
    resetAlarms models cfg s scope = (.ok still, s') ∧ (latched s scope = true ↔ s' ≠ s)
  fault : ∀ (b : Nat) (blk : BlockState ℝ), s.blocks[b]? = some blk → blk.pcs.opState = .fault →
    latched s (.block b) = true ∧ latched s .site = true
  breaker : s.substation.hvBreaker = .opened → latched s .site = true

/-- A tick leaves every fault on its block's word. -/
theorem faultsLatched {s : SiteState ℝ} (h : Mirrored s) : FaultsLatched s := by
  intro blk hblk hfault hzero
  have hbit := trip_byte_zero.mp hzero BlockBit.PCS_FAULT (by decide) (by decide)
  rw [(h.pcsFault blk hblk).mpr hfault] at hbit
  cases hbit

theorem truthful {s : SiteState ℝ} (models : Models ℝ) (cfg : PlantConfig ℝ) (ht : Tripped s)
    (hf : FaultsLatched s) : Truthful models cfg s where
  moves := by
    intro scope hscope
    obtain ⟨s', still, hok, -, hmoves⟩ := resetAlarms_moves models cfg ht hscope
    refine ⟨s', still, hok, ?_⟩
    rw [ne_eq, hmoves, ← Bool.not_eq_false, not_iff_not]
    exact (silent_scope ht hf scope).symm
  fault := by
    intro b blk hb hfault
    have hblk : blk ∈ s.blocks := List.mem_of_getElem? hb
    have hlatched : blk.tripLatched = true := by
      rw [BlockState.tripLatched, decide_eq_true (hf blk hblk hfault), Bool.true_or]
    constructor
    · rw [latched, hb]
      exact hlatched
    · rw [latched, Bool.or_eq_true, List.any_eq_true]
      exact .inr ⟨blk, hblk, hlatched⟩
  breaker := by
    intro hopen
    have hword : s.alarmBits &&& TRIP_MASK ≠ 0#32 := by
      intro hzero
      have hbit := trip_byte_zero.mp hzero SiteBit.PROTECTION_TRIP (by decide) (by decide)
      rw [ht.bit.mpr hopen] at hbit
      cases hbit
    rw [latched, decide_eq_true hword, Bool.true_or]

/-- In every state a step of a run ends in, the reset button tells the truth. -/
theorem button_tells_truth (cfg : PlantConfig ℝ) (ems : EmsStrategy ℝ) (seed : UInt64) (t : Int)
    (moves : List (Move ℝ)) (inputs : Inputs ℝ) :
    Truthful (gw01Models cfg ems) cfg
      (((Simulation.new cfg (gw01Models cfg ems) seed t).run moves).step inputs).state := by
  have hplant : (Simulation.new cfg (gw01Models cfg ems) seed t).plant = gw01Plant cfg ems := rfl
  rw [run_step_state (sound_new cfg (gw01Models cfg ems) seed t) moves, hplant]
  exact truthful _ cfg (tripped_tick _ inputs (tripped_run cfg ems seed t moves))
    (faultsLatched (mirrored_tick _ inputs))

end BessButton
