import BessEmulator.RegisterBanks
import BessEmulator.Setpoint

/-!
# The map's registers

Where the points of the map stand: no two of them share a register, each is
inside its bank, and the control points are the whole holding space. A point's
registers decode to its rounded value, clamped to the encoding.
-/
namespace BessRegisters

open Bess

section

variable {F : Type}

/-- A stretch of registers in one space. -/
structure Span where
  space : Space
  addr : Nat
  words : Nat
  deriving DecidableEq

/-- Two spans have no register in common. -/
def Span.Apart (s t : Span) : Prop :=
  s.space = t.space → s.addr + s.words ≤ t.addr ∨ t.addr + t.words ≤ s.addr

instance (s t : Span) : Decidable (s.Apart t) :=
  inferInstanceAs (Decidable (s.space = t.space → s.addr + s.words ≤ t.addr ∨ t.addr + t.words ≤ s.addr))

/-- The same stretch further on. -/
def Span.shift (d : Nat) (s : Span) : Span := ⟨s.space, s.addr + d, s.words⟩

theorem apart_shift {s t : Span} (h : s.Apart t) (d : Nat) : (s.shift d).Apart (t.shift d) := by
  intro hspace
  have := h hspace
  simp only [Span.shift]
  omega

theorem apart_symm {s t : Span} (h : s.Apart t) : t.Apart s := by
  intro hspace
  have := h hspace.symm
  omega

def bankLen : Space → Nat
  | .input => INPUT_BANK_LEN
  | .holding => HOLDING_BANK_LEN

/-- A span inside the bank of its space. -/
def Span.Fits (s : Span) : Prop := s.addr + s.words ≤ bankLen s.space

instance (s : Span) : Decidable s.Fits :=
  inferInstanceAs (Decidable (s.addr + s.words ≤ bankLen s.space))

/-- The span of a point. -/
def span (p : Point F) : Span := ⟨p.space, p.addr, p.encoding.words⟩

/-- Points apart share no register. -/
theorem disjoint_registers {p q : Point F} (h : (span p).Apart (span q)) (hspace : p.space = q.space) :
    List.Disjoint (registers p) (registers q) := by
  intro r hp hq
  have := h hspace
  simp only [registers, List.mem_range'_1] at hp hq
  simp only [span] at this
  omega

theorem before_trans (p q r : Point F) (hpq : p.before q) (hqr : q.before r) : p.before r := by
  cases hp : p.space <;> cases hq : q.space <;> cases hr : r.space <;>
    simp_all only [Point.before, if_true, if_false, reduceCtorEq, decide_true, decide_false, decide_eq_true_eq,
      Bool.false_eq_true]
  · exact hpq.trans hqr
  · exact hpq.trans hqr

theorem before_total (p q : Point F) : p.before q || q.before p := by
  cases hp : p.space <;> cases hq : q.space <;> simp [Point.before, hp, hq, Nat.le_total]

/-- In address order the input space stands in front of the holding space. -/
theorem split_spaces {l : List (Point F)} (h : l.Pairwise fun p q => p.before q) :
    l.filter (fun p => decide (p.space = .input)) ++ l.filter (fun p => decide (p.space = .holding)) = l := by
  induction l with
  | nil => rfl
  | cons p l ih =>
    obtain ⟨hp, hl⟩ := List.pairwise_cons.mp h
    cases hspace : p.space with
    | input =>
      simp only [List.filter_cons, hspace, reduceCtorEq, decide_true, decide_false, if_true, Bool.false_eq_true,
        if_false, List.cons_append]
      rw [ih hl]
    | holding =>
      -- behind a holding point there are holding points only
      have hrest : ∀ q ∈ l, q.space = .holding := by
        intro q hq
        have hbefore := hp q hq
        rw [Point.before, hspace] at hbefore
        cases hqspace : q.space with
        | input => simp [hqspace] at hbefore
        | holding => rfl
      have hinput : l.filter (fun q => decide (q.space = .input)) = [] := by
        rw [List.filter_eq_nil_iff]
        intro q hq
        simp [hrest q hq]
      have hholding : l.filter (fun q => decide (q.space = .holding)) = l := by
        rw [List.filter_eq_self]
        intro q hq
        simp [hrest q hq]
      simp only [List.filter_cons, hspace, reduceCtorEq, decide_true, decide_false, if_true, Bool.false_eq_true,
        if_false, hinput, hholding, List.nil_append]

variable [Scalar F]

/-- The points that belong to no block. -/
def plantPoints : List (Point F) := sitePoints ++ revenuePoints ++ controlPoints ++ siteAlarmPoints

/-- A block's points. -/
def pointsOf (b : Nat) : List (Point F) := blockPoints b ++ blockAlarmPoints b

/-- The spans of block 0. -/
def blockSpans : List Span :=
  [⟨.input, 1000, 1⟩, ⟨.input, 1001, 1⟩, ⟨.input, 1002, 1⟩, ⟨.input, 1003, 1⟩, ⟨.input, 1004, 1⟩,
    ⟨.input, 1005, 1⟩, ⟨.input, 1007, 1⟩, ⟨.input, 1008, 1⟩, ⟨.input, 1009, 1⟩, ⟨.input, 2003, 1⟩,
    ⟨.input, 2002, 1⟩, ⟨.input, 1006, 1⟩, ⟨.input, 2000, 1⟩, ⟨.input, 2001, 1⟩]

theorem pointsOf_span (b : Nat) :
    (pointsOf b : List (Point F)).map span = blockSpans.map (Span.shift (b * 10)) := by
  simp only [pointsOf, blockPoints, blockAlarmPoints, inputPoint, alarmPoint, span, Span.shift, blockSpans,
    blockBase, blockExtBase, BLOCK_BASE, BLOCK_EXT_BASE, BLOCK_STRIDE, Encoding.words, List.map_cons,
    List.map_nil, List.cons_append, List.nil_append, Nat.add_right_comm]

theorem blockSpans_apart : blockSpans.Pairwise Span.Apart := by decide

theorem pointsOf_apart (b : Nat) :
    (pointsOf b : List (Point F)).Pairwise fun p q => (span p).Apart (span q) := by
  rw [← List.pairwise_map (f := span), pointsOf_span, List.pairwise_map]
  exact blockSpans_apart.imp fun h => apart_shift h _

/-- A register of block `b`, in one of its two ranges. -/
def InBlock (b : Nat) (s : Span) : Prop :=
  s.space = .input ∧ s.words = 1 ∧
    (1000 + b * 10 ≤ s.addr ∧ s.addr < 1010 + b * 10 ∨ 2000 + b * 10 ≤ s.addr ∧ s.addr < 2010 + b * 10)

theorem blockSpans_range : ∀ s ∈ blockSpans,
    s.space = .input ∧ s.words = 1 ∧ (1000 ≤ s.addr ∧ s.addr < 1010 ∨ 2000 ≤ s.addr ∧ s.addr < 2010) := by
  decide

theorem inBlock_pointsOf {b : Nat} {p : Point F} (hp : p ∈ pointsOf b) : InBlock b (span p) := by
  have hmem : span p ∈ blockSpans.map (Span.shift (b * 10)) := by
    rw [← pointsOf_span (F := F)]
    exact List.mem_map_of_mem hp
  obtain ⟨s, hs, heq⟩ := List.mem_map.mp hmem
  obtain ⟨hspace, hwords, hrange⟩ := blockSpans_range s hs
  rw [← heq]
  simp only [InBlock, Span.shift]
  exact ⟨hspace, hwords, by omega⟩

/-- The spans of the points that belong to no block. -/
def plantSpans : List Span :=
  [⟨.input, 0, 2⟩, ⟨.input, 2, 2⟩, ⟨.input, 4, 1⟩, ⟨.input, 5, 1⟩, ⟨.input, 6, 1⟩, ⟨.input, 7, 1⟩,
    ⟨.input, 8, 2⟩, ⟨.input, 10, 2⟩, ⟨.input, 12, 2⟩, ⟨.input, 14, 2⟩, ⟨.input, 44, 2⟩,
    ⟨.input, 16, 1⟩, ⟨.input, 17, 1⟩, ⟨.input, 18, 2⟩, ⟨.input, 20, 1⟩, ⟨.input, 21, 1⟩,
    ⟨.input, 22, 2⟩, ⟨.input, 24, 2⟩, ⟨.input, 26, 2⟩, ⟨.input, 28, 2⟩, ⟨.input, 30, 1⟩,
    ⟨.input, 32, 2⟩, ⟨.input, 34, 2⟩, ⟨.input, 36, 2⟩, ⟨.input, 38, 2⟩, ⟨.input, 40, 2⟩,
    ⟨.input, 46, 2⟩, ⟨.input, 48, 2⟩, ⟨.input, 50, 2⟩, ⟨.holding, 0, 2⟩, ⟨.holding, 2, 1⟩,
    ⟨.input, 31, 1⟩, ⟨.input, 42, 1⟩, ⟨.input, 43, 1⟩]

theorem plantPoints_span : (plantPoints : List (Point F)).map span = plantSpans := rfl

theorem plantSpans_apart : plantSpans.Pairwise Span.Apart := by decide

theorem plantSpans_range : ∀ s ∈ plantSpans, s.Fits ∧ (s.space = .input → s.addr + s.words ≤ 52) := by
  decide

theorem mem_plantSpans {p : Point F} (hp : p ∈ plantPoints) : span p ∈ plantSpans := by
  rw [← plantPoints_span (F := F)]
  exact List.mem_map_of_mem hp

theorem tables_eq (cfg : PlantConfig F) :
    tables cfg = plantPoints ++ (List.range cfg.blocks).flatMap pointsOf := rfl

/-- No two points of the map share a register, up to twenty blocks. -/
theorem tables_apart {cfg : PlantConfig F} (hblocks : cfg.blocks ≤ 20) :
    (tables cfg).Pairwise fun p q => (span p).Apart (span q) := by
  rw [tables_eq, List.pairwise_append]
  constructor
  · rw [← List.pairwise_map (f := span), plantPoints_span]
    exact plantSpans_apart
  constructor
  · rw [List.pairwise_flatMap]
    constructor
    · intro b _
      exact pointsOf_apart b
    · -- blocks further on stand further on in both ranges, and twenty do not meet
      refine List.pairwise_lt_range.imp_of_mem fun {b c} _ hc hlt => ?_
      intro p hp q hq _
      obtain ⟨-, hpwords, hprange⟩ := inBlock_pointsOf hp
      obtain ⟨-, hqwords, hqrange⟩ := inBlock_pointsOf hq
      have hc := List.mem_range.mp hc
      omega
  · intro p hp q hq hspace
    obtain ⟨b, -, hq⟩ := List.mem_flatMap.mp hq
    obtain ⟨hqspace, -, hqrange⟩ := inBlock_pointsOf hq
    obtain ⟨-, hprange⟩ := plantSpans_range _ (mem_plantSpans hp)
    have := hprange (hspace.trans hqspace)
    omega

/-- Every point is inside the bank of its space. -/
theorem tables_fits {cfg : PlantConfig F} (hblocks : cfg.blocks ≤ 20) {p : Point F} (hp : p ∈ tables cfg) :
    (span p).Fits := by
  rw [tables_eq, List.mem_append] at hp
  cases hp with
  | inl hp => exact (plantSpans_range _ (mem_plantSpans hp)).1
  | inr hp =>
    obtain ⟨b, hb, hp⟩ := List.mem_flatMap.mp hp
    obtain ⟨hspace, hwords, hrange⟩ := inBlock_pointsOf hp
    have hb := List.mem_range.mp hb
    simp only [Span.Fits, hspace, bankLen, INPUT_BANK_LEN]
    omega

theorem mem_buildPoints {cfg : PlantConfig F} {p : Point F} : p ∈ buildPoints cfg ↔ p ∈ tables cfg :=
  (List.mergeSort_perm _ _).mem_iff

theorem buildPoints_apart {cfg : PlantConfig F} (hblocks : cfg.blocks ≤ 20) :
    (buildPoints cfg).Pairwise fun p q => (span p).Apart (span q) :=
  (List.mergeSort_perm _ _).symm.pairwise (tables_apart hblocks) fun h => apart_symm h

theorem buildPoints_before (cfg : PlantConfig F) :
    (buildPoints cfg).Pairwise fun p q => p.before q :=
  List.pairwise_mergeSort before_trans before_total _

/-- The holding space is the control points, in their order. -/
theorem buildPoints_holding (cfg : PlantConfig F) :
    (buildPoints cfg).filter (fun p => decide (p.space = .holding)) = controlPoints := by
  have hblocks : ∀ p ∈ (List.range cfg.blocks).flatMap (pointsOf (F := F)), ¬p.space = .holding := by
    intro p hp h
    obtain ⟨b, -, hp⟩ := List.mem_flatMap.mp hp
    have hspace : p.space = .input := (inBlock_pointsOf hp).1
    rw [hspace] at h
    cases h
  have hnone : ((List.range cfg.blocks).flatMap pointsOf).filter
      (fun p : Point F => decide (p.space = .holding)) = [] := by
    rw [List.filter_eq_nil_iff]
    intro p hp
    simp [hblocks p hp]
  have htables : (tables cfg).filter (fun p => decide (p.space = .holding)) = controlPoints := by
    rw [tables_eq, List.filter_append, hnone]
    rfl
  have hsub : controlPoints.Sublist (buildPoints cfg) := by
    refine List.sublist_mergeSort before_trans before_total ?_ ?_
    · exact List.pairwise_cons.mpr ⟨fun q hq => by rw [List.mem_singleton.mp hq]; rfl, List.pairwise_singleton _ _⟩
    · rw [← htables]
      exact List.filter_sublist
  have hself : (controlPoints (F := F)).filter (fun p => decide (p.space = .holding)) = controlPoints := rfl
  have hfilter := hsub.filter fun p => decide (p.space = .holding)
  rw [hself] at hfilter
  have hperm := (List.mergeSort_perm (tables cfg) Point.before).filter fun p => decide (p.space = .holding)
  rw [htables] at hperm
  exact (hfilter.eq_of_length hperm.length_eq.symm).symm

/-- The signal map of a plant, its telemetry in front of the control points. -/
def signalMap (cfg : PlantConfig F) : SignalMap F where
  telemetry := (buildPoints cfg).filter fun p => decide (p.space = .input)
  telemetry_input := fun _ hp => of_decide_eq_true (List.mem_filter.mp hp).2

theorem signalMap_points (cfg : PlantConfig F) : (signalMap cfg).points = buildPoints cfg := by
  have hsplit := split_spaces (buildPoints_before cfg)
  rw [buildPoints_holding] at hsplit
  exact hsplit

omit [Scalar F] in
theorem disjoint_places {p q : Point F} (h : (span p).Apart (span q)) :
    ∀ i ∈ places p, i ∉ places q := by
  rintro i ⟨hspace, hp⟩ ⟨hspace', hq⟩
  exact disjoint_registers h (hspace.symm.trans hspace') hp hq

def freshBanks : Banks := ⟨List.replicate INPUT_BANK_LEN 0#16, List.replicate HOLDING_BANK_LEN 0#16⟩

theorem length_freshBanks (space : Space) : (bankOf freshBanks space).length = bankLen space := by
  cases space <;> exact List.length_replicate

/-- Each point's registers hold the pattern of its value, whatever is written after it. -/
theorem load_writeBanks {cfg : PlantConfig F} (hblocks : cfg.blocks ≤ 20) (state : SiteState F) {p : Point F}
    (hp : p ∈ buildPoints cfg) :
    load p (bankOf (writeBanks (buildPoints cfg) state) p.space) =
      some (pattern p (some (p.extract state))) := by
  have hapart : (buildPoints cfg).Pairwise fun p q => ∀ i ∈ places p, i ∉ places q :=
    (buildPoints_apart hblocks).imp disjoint_places
  have hsame : ∀ r ∈ registers p, (bankOf (writeBanks (buildPoints cfg) state) p.space)[r]? =
      (bankOf (writeInto state freshBanks p) p.space)[r]? := fun r hr =>
    Footprint.foldl_inside (local_writeInto state) hapart hp (i := (p.space, r)) ⟨rfl, hr⟩ freshBanks
  have hfits : p.addr + p.encoding.words ≤ (bankOf freshBanks p.space).length := by
    rw [length_freshBanks]
    exact tables_fits hblocks (mem_buildPoints.mp hp)
  rw [load_congr hsame, bankOf_writeInto, if_pos rfl]
  exact load_store (holds_pattern p _) hfits

end

/-- Rounded to the nearest whole number, halves away from zero. -/
noncomputable def rounded (x : ℝ) : Int := if 0 ≤ x then ⌊x + 1 / 2⌋ else ⌈x - 1 / 2⌉

theorem round_rounded (x : ℝ) : Scalar.round x = (rounded x : ℝ) := by
  rw [rounded]
  change (if 0 ≤ x then (⌊x + 1 / 2⌋ : ℝ) else (⌈x - 1 / 2⌉ : ℝ)) = _
  split <;> rfl

theorem rounded_mono {x y : ℝ} (h : x ≤ y) : rounded x ≤ rounded y := by
  rw [rounded, rounded]
  split
  · rw [if_pos (by linarith)]
    exact Int.floor_mono (by linarith)
  · split
    · -- the one is rounded to a number not above zero, the other to one not below
      have hx : ⌈x - 1 / 2⌉ ≤ 0 := by
        rw [Int.ceil_le, Int.cast_zero]
        linarith
      have hy : 0 ≤ ⌊y + 1 / 2⌋ := by
        rw [Int.le_floor, Int.cast_zero]
        linarith
      exact hx.trans hy
    · exact Int.ceil_mono (by linarith)

/-- Rounding before clamping: a whole number in the band. -/
theorem wholeIn_rounded (x : ℝ) {lo hi : Int} (h : lo ≤ hi) :
    wholeIn x lo hi = max lo (min hi (rounded x)) := by
  have hclamp : Scalar.clamp (rounded x : ℝ) (lo : ℝ) (hi : ℝ) =
      ((max lo (min hi (rounded x)) : Int) : ℝ) := by
    rw [Scalar.clamp_eq (by exact_mod_cast h), Int.cast_max, Int.cast_min]
  rw [wholeIn, round_rounded, Scalar.ofInt_real, Scalar.ofInt_real, hclamp, Scalar.trunc_whole]

/-- A point's value as its registers can hold it. -/
noncomputable def saturated (p : Point ℝ) (value : ℝ) : Int :=
  max (least p.encoding) (min (greatest p.encoding) (rounded (value * p.scale)))

theorem least_le_greatest (e : Encoding) : least e ≤ greatest e := by
  cases e <;> decide

/-- A point's pattern stands for its rounded value, clamped. -/
theorem decode_pattern (p : Point ℝ) (value : ℝ) :
    decode p.encoding (pattern p (some value)) = saturated p value := by
  have hnumber : number p value = saturated p value := wholeIn_rounded _ (least_le_greatest _)
  have hlow : least p.encoding ≤ saturated p value := le_max_left _ _
  have hhigh : saturated p value ≤ greatest p.encoding :=
    max_le (least_le_greatest _) (min_le_left _ _)
  rw [pattern, hnumber, decode_encode _ hlow hhigh]

theorem decode_writePoint {p : Point ℝ} {bank : Bank} (hfits : p.addr + p.encoding.words ≤ bank.length)
    (value : ℝ) : (load p (writePoint p value bank)).map (decode p.encoding) = some (saturated p value) := by
  rw [writePoint_store, load_store (holds_pattern p _) hfits, Option.map_some, decode_pattern]

/-- Every scale of the map is positive. -/
theorem scale_pos {cfg : PlantConfig ℝ} {p : Point ℝ} (hp : p ∈ tables cfg) : 0 < p.scale := by
  have hplant : ∀ p ∈ (plantPoints : List (Point ℝ)), 0 < p.scale := by
    simp only [plantPoints, sitePoints, revenuePoints, controlPoints, siteAlarmPoints, inputPoint, alarmPoint,
      List.forall_mem_append, List.forall_mem_cons]
    norm_num
  have hblock : ∀ b, ∀ p ∈ (pointsOf b : List (Point ℝ)), 0 < p.scale := by
    intro b
    simp only [pointsOf, blockPoints, blockAlarmPoints, inputPoint, alarmPoint, List.forall_mem_append,
      List.forall_mem_cons]
    norm_num
  rw [tables_eq, List.mem_append] at hp
  cases hp with
  | inl hp => exact hplant p hp
  | inr hp =>
    obtain ⟨b, -, hp⟩ := List.mem_flatMap.mp hp
    exact hblock b p hp

theorem saturated_mono {p : Point ℝ} (hscale : 0 < p.scale) {x y : ℝ} (h : x ≤ y) :
    saturated p x ≤ saturated p y := by
  have hround : rounded (x * p.scale) ≤ rounded (y * p.scale) :=
    rounded_mono (mul_le_mul_of_nonneg_right h hscale.le)
  exact max_le_max le_rfl (min_le_min le_rfl hround)

theorem highWord_join (hi lo : BitVec 16) : highWord (joinWords hi lo) = hi := by
  ext i h
  rw [highWord, joinWords, BitVec.getElem_extractLsb', BitVec.getLsbD_append, if_neg (by omega),
    Nat.add_sub_cancel_left, BitVec.getLsbD_eq_getElem h]

theorem lowWord_join (hi lo : BitVec 16) : lowWord (joinWords hi lo) = lo := by
  ext i h
  rw [lowWord, joinWords, BitVec.getElem_extractLsb', BitVec.getLsbD_append, if_pos (by omega),
    Nat.zero_add, BitVec.getLsbD_eq_getElem h]

/-- A published holding bank is of its full length. -/
def Whole (e : Emulator ℝ) : Prop := e.snapshot.holdingRegs.length = HOLDING_BANK_LEN

theorem whole_snapshot {e : Emulator ℝ} (t : Bess.Task ℝ) (h : e.snapshot = t.snapshot) : Whole e := by
  have hbank : t.snapshot.holdingRegs = (writeBanks t.map.points t.sim.state).holding := rfl
  rw [Whole, h, hbank, holding_eq]
  rfl

theorem whole_act (ref : Reference ℝ) {e : Emulator ℝ} (h : Whole e) (a : BessSetpoint.Act ℝ) :
    Whole (BessSetpoint.act ref e a) := by
  have hsent : ∀ {c : Task.Command ℝ} {e' : Emulator ℝ}, e.trySend c = some e' → Whole e' := by
    intro c e' hs
    rw [← Emulator.trySend_eq hs]
    exact h
  cases a with
  | request r =>
    cases hr : e.handleRequest r with
    | error code =>
      simp only [BessSetpoint.act, hr]
      exact h
    | ok answer =>
      simp only [BessSetpoint.act, hr]
      obtain hsame | ⟨w, hs⟩ := Emulator.handleRequest_sends hr
      · rw [hsame]
        exact h
      · exact hsent hs
  | command c =>
    obtain hsame | hs := BessSetpoint.command_sends ref e c
    · rw [hsame]
      exact h
    · exact hsent hs
  | recv =>
    cases hq : e.queue with
    | nil =>
      simp only [BessSetpoint.act, Emulator.recv, hq]
      exact h
    | cons c queue =>
      simp only [BessSetpoint.act, Emulator.recv, hq]
      cases c with
      | setSetpointW w => exact h
      | setSpeed factor => exact h
      | resetAlarms scope => exact h
      | loadScenario resolved => exact whole_snapshot _ rfl
  | tick => exact whole_snapshot _ rfl
  | round => exact whole_snapshot _ rfl

theorem whole_run (ref : Reference ℝ) {e : Emulator ℝ} (h : Whole e) (acts : List (BessSetpoint.Act ℝ)) :
    Whole (BessSetpoint.run ref e acts) := by
  induction acts generalizing e with
  | nil => exact h
  | cons a as ih => exact ih (whole_act ref h a)

/-- After a round of the task the two setpoint registers read as they were written. -/
theorem read_setpoint (ref : Reference ℝ) {e e₁ : Emulator ℝ} {v : BitVec 32} {answer : Response}
    (hset : e.handleRequest (writeSetpoint v) = .ok (e₁, answer)) {acts : List (BessSetpoint.Act ℝ)}
    (hquiet : BessSetpoint.QuietRun ref e₁ acts) (hround : .round ∈ acts) :
    let e₂ := BessSetpoint.run ref e₁ acts
    e₂.handleRequest (.readHoldingRegisters (BitVec.ofNat 16 HOLDING_SETPOINT_ADDR) 2#16) =
      .ok (e₂, .readHoldingRegisters [highWord v, lowWord v]) := by
  intro e₂
  have hshown : e₂.shown = v := BessSetpoint.shown_after_round ref hset hquiet hround
  have hwhole : Whole e₂ := by
    obtain ⟨as, bs, rfl⟩ := List.append_of_mem hround
    have hsplit : e₂ = BessSetpoint.run ref ((BessSetpoint.run ref e₁ as).round ref) bs :=
      BessSetpoint.run_append ref e₁ as (.round :: bs)
    rw [hsplit]
    exact whole_run ref (whole_snapshot _ rfl) bs
  obtain ⟨hi, lo, mode, hregs⟩ := List.length_eq_three.mp hwhole
  rw [Emulator.shown, hregs] at hshown
  have hv : joinWords hi lo = v := hshown
  rw [Emulator.handleRequest, hregs, ← hv, highWord_join, lowWord_join]
  rfl

/-- Every point of the map, written with any value, decodes to that value rounded
and clamped, so the decoding is monotone; the published banks hold every point so,
at once. A setpoint written over the wire is read back word for word. -/
theorem registers_decode (cfg : PlantConfig ℝ) (hblocks : cfg.blocks ≤ 20) (ref : Reference ℝ) :
    (∀ p ∈ buildPoints cfg, ∀ bank : Bank, bank.length = bankLen p.space →
      (∀ value : ℝ, (load p (writePoint p value bank)).map (decode p.encoding) =
        some (max (least p.encoding) (min (greatest p.encoding) (rounded (value * p.scale))))) ∧
      ∀ x y : ℝ, x ≤ y → ∀ m n : Int,
        (load p (writePoint p x bank)).map (decode p.encoding) = some m →
        (load p (writePoint p y bank)).map (decode p.encoding) = some n → m ≤ n) ∧
      (∀ (state : SiteState ℝ), ∀ p ∈ buildPoints cfg,
        (load p (bankOf (writeBanks (buildPoints cfg) state) p.space)).map (decode p.encoding) =
          some (saturated p (p.extract state))) ∧
      ∀ (e e₁ : Emulator ℝ) (hi lo : BitVec 16) (answer : Response) (acts : List (BessSetpoint.Act ℝ)),
        e.handleRequest (.writeMultipleRegisters (BitVec.ofNat 16 HOLDING_SETPOINT_ADDR) [hi, lo]) =
          .ok (e₁, answer) →
        BessSetpoint.QuietRun ref e₁ acts → .round ∈ acts →
        (BessSetpoint.run ref e₁ acts).handleRequest
            (.readHoldingRegisters (BitVec.ofNat 16 HOLDING_SETPOINT_ADDR) 2#16) =
          .ok (BessSetpoint.run ref e₁ acts, .readHoldingRegisters [hi, lo]) := by
  constructor
  · intro p hp bank hlen
    have hfits : p.addr + p.encoding.words ≤ bank.length := by
      rw [hlen]
      exact tables_fits hblocks (mem_buildPoints.mp hp)
    have hdecode := fun value => decode_writePoint hfits value
    constructor
    · exact hdecode
    · intro x y hxy m n hm hn
      rw [hdecode, Option.some.injEq] at hm hn
      rw [← hm, ← hn]
      exact saturated_mono (scale_pos (mem_buildPoints.mp hp)) hxy
  constructor
  · intro state p hp
    rw [load_writeBanks hblocks state hp, Option.map_some, decode_pattern]
  · intro e e₁ hi lo answer acts hset hquiet hround
    have hsetpoint : writeSetpoint (joinWords hi lo) =
        .writeMultipleRegisters (BitVec.ofNat 16 HOLDING_SETPOINT_ADDR) [hi, lo] := by
      rw [writeSetpoint, highWord_join, lowWord_join]
    have hread := read_setpoint ref (v := joinWords hi lo) (hsetpoint ▸ hset) hquiet hround
    rw [highWord_join, lowWord_join] at hread
    exact hread

/-- The ambient temperature of the site. -/
noncomputable def ambient : Point ℝ :=
  inputPoint "site.weather.ambient_c" "degC" .medium .i16 10.0 20 fun s => s.weather.ambientC

/-- On the reference plant: twelve and a half degrees of frost are -125 in the
registers, and minus one kilowatt is read back as it was written. -/
theorem registers_decode_gw01 :
    (load ambient (writePoint ambient (-12.5) (List.replicate 2200 0#16))).map (decode .i16) = some (-125) ∧
      ∃ e answer, BessSetpoint.fresh.handleRequest (.writeMultipleRegisters 0#16 [0xffff#16, 0xfc18#16]) =
          .ok (e, answer) ∧
        (BessSetpoint.run .idle e [.round]).handleRequest (.readHoldingRegisters 0#16 2#16) =
          .ok (BessSetpoint.run .idle e [.round], .readHoldingRegisters [0xffff#16, 0xfc18#16]) := by
  obtain ⟨hdecode, -, hread⟩ :=
    registers_decode PlantConfig.gw01 (show (PlantConfig.gw01 : PlantConfig ℝ).blocks ≤ 20 from le_refl 20) .idle
  have hmem : ambient ∈ buildPoints (PlantConfig.gw01 : PlantConfig ℝ) := by
    rw [mem_buildPoints, tables_eq]
    simp [plantPoints, sitePoints, ambient]
  constructor
  · have hrounded : rounded (-12.5 * ambient.scale) = -125 := by
      simp only [ambient, inputPoint]
      norm_num [rounded]
    have h := (hdecode ambient hmem (List.replicate 2200 0#16) List.length_replicate).1 (-12.5)
    rw [hrounded] at h
    exact h
  · have hset := Emulator.writeSetpoint_room BessSetpoint.fresh_room 0xfffffc18#32
    exact ⟨_, _, hset, hread _ _ _ _ _ _ hset ⟨trivial, trivial⟩ List.mem_cons_self⟩

end BessRegisters
