import BessEmulator.Alarms
import BessEmulator.DayPlan

/-!
# The slots a day's plan picks

Both words hold the first few slots of a ranking: by the price for the charge
slots, by the price from the other end for the discharge slots.
-/
namespace BessPlan

open Bess Ranking Finset

theorem getLsbD_foldl {n : Nat} (slots : List (Fin n)) (acc : BitVec 32) (i : Nat) (hi : i < 32) :
    (slots.foldl (fun acc s => acc ||| 1#32 <<< s.val) acc).getLsbD i =
      (acc.getLsbD i || decide (∃ s ∈ slots, s.val = i)) := by
  induction slots generalizing acc with
  | nil => simp
  | cons s rest ih =>
    rw [List.foldl_cons, ih, BitVec.getLsbD_or, getLsbD_one_shift]
    simp [hi, Bool.or_assoc, eq_comm]

theorem getLsbD_bits {n : Nat} (slots : List (Fin n)) (i : Nat) (hi : i < 32) :
    (bits slots).getLsbD i = decide (∃ s ∈ slots, s.val = i) := by
  rw [bits, getLsbD_foldl slots _ i hi]
  simp

theorem shifted_eq (word : BitVec 32) {slot : Nat} (h : slot < 32) :
    shifted word slot = some (word.getLsbD slot) := by
  have hbit : (word >>> slot &&& 1#32 = 1#32) ↔ word.getLsbD slot = true := by
    constructor
    · intro heq
      have hlow := congrArg (fun w : BitVec 32 => w.getLsbD 0) heq
      simpa using hlow
    · intro hset
      apply BitVec.eq_of_getLsbD_eq
      intro i hi
      by_cases h0 : i = 0
      · simp [h0, hset]
      · simp [BitVec.getLsbD_one, h0]
  rw [shifted, if_pos h]
  simp [hbit]

section

variable {α : Type} {compare : α → α → Ordering} {r : α → α → Prop}

theorem sortUnstableBy_perm (compare : α → α → Ordering) (xs : List α) :
    (sortUnstableBy compare xs).Perm xs :=
  List.perm_insertionSort _ xs

theorem sortUnstableBy_sorted [Std.Total r] [IsTrans α r]
    (h : ∀ a b, (compare a b).isLE ↔ r a b) (xs : List α) :
    (sortUnstableBy compare xs).Pairwise r := by
  have hrel : (fun a b => (compare a b).isLE = true) = r := funext₂ fun a b => propext (h a b)
  subst hrel
  exact List.pairwise_insertionSort _ xs

end

variable {P : Type} [LinearOrder P] {prices : List P}

theorem cheaper_iff (a b : Fin prices.length) :
    (cheaper prices a b).isLE ↔ ByKey prices.get a b := by
  rw [cheaper, Ordering.isLE_then_iff_or, compare_lt_iff_lt, compare_eq_iff_eq, ByKey,
    Std.isLE_compare, Fin.le_def]

theorem dearer_iff (a b : Fin prices.length) :
    (dearer prices a b).isLE ↔ ByKey (falling prices.get) a b := by
  rw [dearer, Ordering.isLE_then_iff_or, compare_lt_iff_lt, compare_eq_iff_eq, ByKey,
    Std.isLE_compare, eq_comm, Fin.le_def]
  rfl

/-- The word of the first few slots of a ranking. -/
theorem ranked_bits {n : Nat} {r : Fin n → Fin n → Prop} [DecidableRel r] [Std.Antisymm r]
    {sorted : List (Fin n)} (hperm : sorted.Perm (List.finRange n)) (hsorted : sorted.Pairwise r)
    (c : Nat) {slot : Nat} (hslot : slot < 32) :
    shifted (bits (sorted.take c)) slot = some (decide (∃ i ∈ first r c, i.val = slot)) := by
  have hmem := mem_take r (List.nodup_finRange n) List.mem_finRange hperm hsorted c
  rw [shifted_eq _ hslot, getLsbD_bits _ _ hslot]
  simp only [hmem]

theorem exists_rank (h : prices.length ≤ 32) (c d : Nat) :
    ∃ plan, DayPlan.rank prices c d = some plan := ⟨_, if_pos h⟩

/-- The orders a plan is read off. -/
theorem rank_some {c d : Nat} {plan : DayPlan} (h : DayPlan.rank prices c d = some plan) :
    prices.length ≤ 32 ∧ ∃ up down : List (Fin prices.length),
      up.Perm (List.finRange prices.length) ∧ up.Pairwise (ByKey prices.get) ∧
      down.Perm (List.finRange prices.length) ∧ down.Pairwise (ByKey (falling prices.get)) ∧
      plan = ⟨bits (up.take c), bits (down.take d)⟩ := by
  rw [DayPlan.rank] at h
  split at h
  · rename_i hlength
    have hup := sortUnstableBy_perm (cheaper prices) (List.finRange prices.length)
    have hdown := sortUnstableBy_perm (dearer prices)
      (sortUnstableBy (cheaper prices) (List.finRange prices.length))
    exact ⟨hlength, _, _, hup, sortUnstableBy_sorted cheaper_iff _, hdown.trans hup,
      sortUnstableBy_sorted dearer_iff _, (Option.some.inj h).symm⟩
  · cases h

/-- The slots that charge and the slots that discharge. -/
abbrev charging (prices : List P) (c : Nat) : Finset (Fin prices.length) :=
  first (ByKey prices.get) c

abbrev discharging (prices : List P) (d : Nat) : Finset (Fin prices.length) :=
  first (ByKey (falling prices.get)) d

variable {c d : Nat} {plan : DayPlan}

theorem charges_eq (h : DayPlan.rank prices c d = some plan) {slot : Nat} (hslot : slot < 32) :
    plan.charges slot = some (decide (∃ i ∈ charging prices c, i.val = slot)) := by
  obtain ⟨-, up, down, hperm, hsorted, -, -, rfl⟩ := rank_some h
  exact ranked_bits hperm hsorted c hslot

theorem discharges_eq (h : DayPlan.rank prices c d = some plan) {slot : Nat} (hslot : slot < 32) :
    plan.discharges slot = some (decide (∃ i ∈ discharging prices d, i.val = slot)) := by
  obtain ⟨-, up, down, -, -, hperm, hsorted, rfl⟩ := rank_some h
  exact ranked_bits hperm hsorted d hslot

theorem exists_val_iff {n : Nat} {slots : Finset (Fin n)} (i : Fin n) :
    (∃ j ∈ slots, j.val = i.val) ↔ i ∈ slots := by
  constructor
  · rintro ⟨j, hj, hji⟩
    exact Fin.ext hji ▸ hj
  · intro hi
    exact ⟨i, hi, rfl⟩

theorem charges_iff (h : DayPlan.rank prices c d = some plan) (i : Fin prices.length) :
    plan.charges i = some true ↔ i ∈ charging prices c := by
  have hslot : i.val < 32 := i.isLt.trans_le (rank_some h).1
  rw [charges_eq h hslot, Option.some.injEq, decide_eq_true_eq, exists_val_iff]

theorem discharges_iff (h : DayPlan.rank prices c d = some plan) (i : Fin prices.length) :
    plan.discharges i = some true ↔ i ∈ discharging prices d := by
  have hslot : i.val < 32 := i.isLt.trans_le (rank_some h).1
  rw [discharges_eq h hslot, Option.some.injEq, decide_eq_true_eq, exists_val_iff]

/-- What a ranking of `c` and `d` slots picks; an order the sort could have left
instead of its own gives the same words. -/
structure Picks (prices : List P) (c d : Nat) (plan : DayPlan) : Prop where
  charges : #{i : Fin prices.length | plan.charges i = some true} = min c prices.length
  cheapest : ∀ i j : Fin prices.length, plan.charges i = some true → plan.charges j ≠ some true →
    prices.get i < prices.get j ∨ (prices.get i = prices.get j ∧ i < j)
  discharges : #{i : Fin prices.length | plan.discharges i = some true} = min d prices.length
  dearest : ∀ i j : Fin prices.length,
    plan.discharges i = some true → plan.discharges j ≠ some true →
      prices.get j < prices.get i ∨ (prices.get i = prices.get j ∧ i < j)
  beyond : ∀ slot, prices.length ≤ slot → slot ≤ 31 →
    plan.charges slot = some false ∧ plan.discharges slot = some false
  anySort : ∀ up down : List (Fin prices.length),
    up.Perm (List.finRange prices.length) → up.Pairwise (fun a b => (cheaper prices a b).isLE) →
    down.Perm (List.finRange prices.length) → down.Pairwise (fun a b => (dearer prices a b).isLE) →
      plan = ⟨bits (up.take c), bits (down.take d)⟩

theorem key_before {n : Nat} {K : Type} [LinearOrder K] {k : Fin n → K} {i j : Fin n}
    (h : Before (ByKey k) i j) : k i < k j ∨ (k i = k j ∧ i < j) := by
  obtain ⟨hne, hlt | ⟨heq, hle⟩⟩ := h
  · exact Or.inl hlt
  · exact Or.inr ⟨heq, lt_of_le_of_ne hle hne⟩

/-- The ranking picks the right slots. -/
theorem rank_picks (prices : List P) (c d : Nat) (h : prices.length ≤ 32) :
    ∃ plan, DayPlan.rank prices c d = some plan ∧ Picks prices c d plan := by
  obtain ⟨plan, hplan⟩ := exists_rank h c d
  refine ⟨plan, hplan, ?_⟩
  constructor
  · simp only [charges_iff hplan, filter_univ_mem]
    rw [card_first, Fintype.card_fin]
  · intro i j hi hj
    rw [charges_iff hplan] at hi
    rw [ne_eq, charges_iff hplan] at hj
    exact key_before (first_before _ hi hj)
  · simp only [discharges_iff hplan, filter_univ_mem]
    rw [card_first, Fintype.card_fin]
  · intro i j hi hj
    rw [discharges_iff hplan] at hi
    rw [ne_eq, discharges_iff hplan] at hj
    exact key_before (first_before _ hi hj)
  · intro slot hge hle
    have hslot : slot < 32 := by omega
    have hnone : ∀ i : Fin prices.length, i.val ≠ slot := fun i => by omega
    rw [charges_eq hplan hslot, discharges_eq hplan hslot]
    simp [hnone]
  · intro up down hup hups hdown hdowns
    obtain ⟨-, up', down', hup', hups', hdown', hdowns', rfl⟩ := rank_some hplan
    simp only [cheaper_iff] at hups
    simp only [dearer_iff] at hdowns
    rw [sorted_unique _ (hup.trans hup'.symm) hups hups',
      sorted_unique _ (hdown.trans hdown'.symm) hdowns hdowns']

theorem rank_picks_tied : ([7, 7, 5] : List Nat).length ≤ 32 ∧
    ∃ plan, DayPlan.rank [7, 7, 5] 2 2 = some plan ∧ Picks [7, 7, 5] 2 2 plan :=
  ⟨by decide, rank_picks [7, 7, 5] 2 2 (by decide)⟩

end BessPlan
