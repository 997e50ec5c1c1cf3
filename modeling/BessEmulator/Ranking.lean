import Mathlib.Data.Fintype.Card
import Mathlib.Data.List.Sort
import Mathlib.Tactic

/-!
# The first few in an order

What a prefix of a sorted list holds, by how many elements come before each;
and two rankings of the same values from both ends, with ties broken the same
way, that pick an element twice.
-/
namespace Ranking

open Finset

variable {α : Type} [DecidableEq α] (r : α → α → Prop) [DecidableRel r]

/-- Whether `y` comes before `x`. -/
def Before (y x : α) : Prop := y ≠ x ∧ r y x

instance (y x : α) : Decidable (Before r y x) := inferInstanceAs (Decidable (_ ∧ _))

/-- The prefix of a sorted list is what has few elements before it. -/
theorem mem_take_sorted [Std.Antisymm r] {xs : List α} (hsorted : xs.Pairwise r) (c : Nat) (x : α) :
    x ∈ xs.take c ↔ x ∈ xs ∧ xs.countP (fun y => Before r y x) < c := by
  induction xs generalizing c with
  | nil => simp
  | cons y ys ih =>
    obtain ⟨hy, hys⟩ := List.pairwise_cons.mp hsorted
    cases c with
    | zero => simp
    | succ c =>
      rw [List.take_succ_cons, List.mem_cons, List.mem_cons, ih hys c]
      by_cases hx : x = y
      · have hnone : (y :: ys).countP (fun z => Before r z x) = 0 := by
          rw [List.countP_eq_zero]
          intro z hz
          rw [decide_eq_true_eq, hx]
          rintro ⟨hne, hrz⟩
          obtain h | h := List.mem_cons.mp hz
          · exact hne h
          · exact hne (antisymm hrz (hy z h))
        rw [hnone]
        simp [hx]
      · rw [List.countP_cons]
        constructor
        · rintro (h | ⟨hmem, hlt⟩)
          · exact absurd h hx
          · refine ⟨Or.inr hmem, ?_⟩
            split <;> omega
        · rintro ⟨h | hmem, hlt⟩
          · exact absurd h hx
          · have hfirst : Before r y x := ⟨Ne.symm hx, hy x hmem⟩
            rw [if_pos (decide_eq_true hfirst)] at hlt
            exact Or.inr ⟨hmem, by omega⟩

omit [DecidableEq α] [DecidableRel r] in
/-- An order leaves a sort no choice. -/
theorem sorted_unique [Std.Antisymm r] {xs ys : List α} (hperm : xs.Perm ys)
    (hxs : xs.Pairwise r) (hys : ys.Pairwise r) : xs = ys :=
  hperm.eq_of_pairwise (fun _ _ _ _ hab hba => antisymm hab hba) hxs hys

section

variable [Fintype α]

/-- How many come before `x`. -/
def place (x : α) : Nat := #{y | Before r y x}

omit [DecidableEq α] in
/-- Counting in a list of everything. -/
theorem countP_eq_card {xs : List α} (hnodup : xs.Nodup) (hall : ∀ y, y ∈ xs) (p : α → Prop)
    [DecidablePred p] : xs.countP (fun y => p y) = #{y | p y} := by
  classical
  have hset : (xs.filter fun y => p y).toFinset = univ.filter p := by
    ext y
    simp [hall y]
  rw [← hset, List.toFinset_card_of_nodup (hnodup.filter _), List.countP_eq_length_filter]

/-- The elements with fewer than `c` before them. -/
def first (c : Nat) : Finset α := {x | place r x < c}

theorem mem_first (c : Nat) (x : α) : x ∈ first r c ↔ place r x < c := by simp [first]

variable [Std.Antisymm r]

/-- Whatever the order of a list of everything, the first `c` of it sorted are
the elements with fewer than `c` before them. -/
theorem mem_take {xs sorted : List α} (hnodup : xs.Nodup) (hall : ∀ y, y ∈ xs)
    (hperm : sorted.Perm xs) (hsorted : sorted.Pairwise r) (c : Nat) (x : α) :
    x ∈ sorted.take c ↔ x ∈ first r c := by
  rw [mem_take_sorted r hsorted, mem_first, countP_eq_card (hperm.nodup_iff.mpr hnodup)
    fun y => hperm.mem_iff.mpr (hall y)]
  simp [hperm.mem_iff, hall, place]

variable [Std.Total r] [IsTrans α r]

theorem card_first (c : Nat) : #(first r c) = min c (Fintype.card α) := by
  obtain ⟨sorted, hsorted⟩ : ∃ xs, xs = (univ : Finset α).toList.insertionSort r := ⟨_, rfl⟩
  have hperm : sorted.Perm (univ : Finset α).toList := hsorted ▸ List.perm_insertionSort r _
  have hnodup : sorted.Nodup := hperm.nodup_iff.mpr (nodup_toList _)
  have hset : (sorted.take c).toFinset = first r c := by
    ext x
    rw [List.mem_toFinset, mem_take r (nodup_toList _) (by simp) hperm]
    rw [hsorted]
    exact List.pairwise_insertionSort r _
  rw [← hset, List.toFinset_card_of_nodup (hnodup.sublist (List.take_sublist c sorted)),
    List.length_take, hperm.length_eq, length_toList, card_univ]

omit [Std.Antisymm r] in
/-- Who is picked comes before who is not. -/
theorem first_before {c : Nat} {x y : α} (hx : x ∈ first r c) (hy : y ∉ first r c) :
    Before r x y := by
  rw [mem_first] at hx hy
  have hne : x ≠ y := by
    rintro rfl
    exact hy hx
  refine ⟨hne, ?_⟩
  by_contra hnot
  have hyx : r y x := (total_of r x y).resolve_left hnot
  -- otherwise everything before `y` would be before `x` too
  have hsub : (univ.filter fun z => Before r z y) ⊆ univ.filter fun z => Before r z x := by
    intro z hz
    simp only [mem_filter, mem_univ, true_and] at hz ⊢
    refine ⟨?_, trans_of r hz.2 hyx⟩
    rintro rfl
    exact hnot hz.2
  have hle : place r y ≤ place r x := card_le_card hsub
  omega

end

section

variable {ι K : Type} [LinearOrder ι] [LinearOrder K] (k : ι → K)

/-- The smaller value first, the smaller index between equal ones. -/
def ByKey (i j : ι) : Prop := k i < k j ∨ (k i = k j ∧ i ≤ j)

instance : DecidableRel (ByKey k) := fun _ _ => inferInstanceAs (Decidable (_ ∨ _))

instance : Std.Antisymm (ByKey k) where
  antisymm i j hij hji := by
    obtain hlt | ⟨heq, hle⟩ := hij
    · obtain hgt | ⟨heq, -⟩ := hji
      · exact absurd hgt hlt.asymm
      · exact absurd heq hlt.ne'
    · obtain hgt | ⟨-, hge⟩ := hji
      · exact absurd heq hgt.ne'
      · exact le_antisymm hle hge

instance : Std.Total (ByKey k) where
  total i j := by
    obtain hlt | heq | hgt := lt_trichotomy (k i) (k j)
    · exact Or.inl (Or.inl hlt)
    · exact (le_total i j).imp (fun h => Or.inr ⟨heq, h⟩) fun h => Or.inr ⟨heq.symm, h⟩
    · exact Or.inr (Or.inl hgt)

instance : IsTrans ι (ByKey k) where
  trans i j l hij hjl := by
    obtain hlt | ⟨heq, hle⟩ := hij
    · obtain hlt' | ⟨heq', -⟩ := hjl
      · exact Or.inl (hlt.trans hlt')
      · exact Or.inl (heq' ▸ hlt)
    · obtain hlt' | ⟨heq', hle'⟩ := hjl
      · exact Or.inl (heq ▸ hlt')
      · exact Or.inr ⟨heq.trans heq', hle.trans hle'⟩

variable [Fintype ι]

/-- How many have a smaller value. -/
def below (i : ι) : Nat := #{j | k j < k i}

theorem below_le_place (i : ι) : below k i ≤ place (ByKey k) i := by
  refine card_le_card fun j hj => ?_
  simp only [mem_filter, mem_univ, true_and] at hj ⊢
  exact ⟨fun h => absurd (h ▸ hj) (lt_irrefl _), Or.inl hj⟩

/-- Nothing of the same value is before the first of that value. -/
theorem place_leftmost {i : ι} (h : ∀ j, k j = k i → i ≤ j) : place (ByKey k) i = below k i := by
  have hset : (univ.filter fun j => Before (ByKey k) j i) = univ.filter fun j => k j < k i := by
    ext j
    simp only [mem_filter, mem_univ, true_and]
    constructor
    · rintro ⟨hne, hlt | ⟨heq, hle⟩⟩
      · exact hlt
      · exact absurd (le_antisymm hle (h j heq)) hne
    · intro hlt
      exact ⟨fun he => absurd (he ▸ hlt) (lt_irrefl _), Or.inl hlt⟩
  rw [place, below, hset]

/-- The first index of a value. -/
theorem exists_leftmost (i : ι) : ∃ l, k l = k i ∧ ∀ j, k j = k i → l ≤ j := by
  have hne : (univ.filter fun j => k j = k i).Nonempty := ⟨i, by simp⟩
  refine ⟨(univ.filter fun j => k j = k i).min' hne, ?_, fun j hj => min'_le _ _ (by simp [hj])⟩
  have hmem := min'_mem _ hne
  simp only [mem_filter, mem_univ, true_and] at hmem
  exact hmem

/-- The same values from the other end, ties still to the smaller index. -/
abbrev falling : ι → Kᵒᵈ := fun i => OrderDual.toDual (k i)

/-- Two rankings from both ends pick an index twice exactly when some value has
few below it and few above it. -/
theorem twice_iff (c d : Nat) :
    (∃ i, i ∈ first (ByKey k) c ∧ i ∈ first (ByKey (falling k)) d) ↔
      ∃ i, below k i < c ∧ below (falling k) i < d := by
  constructor
  · rintro ⟨i, hc, hd⟩
    rw [mem_first] at hc hd
    exact ⟨i, (below_le_place k i).trans_lt hc, (below_le_place (falling k) i).trans_lt hd⟩
  · rintro ⟨i, hc, hd⟩
    obtain ⟨l, hl, hleft⟩ := exists_leftmost k i
    have hsame : ∀ j, k j = k l → l ≤ j := fun j hj => hleft j (hj.trans hl)
    refine ⟨l, ?_, ?_⟩
    · rw [mem_first, place_leftmost k hsame, below, hl]
      exact hc
    · rw [mem_first, place_leftmost (falling k) fun j hj => hsame j (congrArg OrderDual.ofDual hj),
        below, falling, hl]
      exact hd

/-- What is left of the second pick once the first has had its own. -/
theorem left_iff (c d : Nat) (hd : d ≤ Fintype.card ι) :
    #(first (ByKey (falling k)) d \ first (ByKey k) c) = d ↔
      ∀ i, ¬(below k i < c ∧ below (falling k) i < d) := by
  have hcard : #(first (ByKey (falling k)) d) = d := by rw [card_first, min_eq_left hd]
  have hsplit := card_sdiff_add_card_inter (first (ByKey (falling k)) d) (first (ByKey k) c)
  have hinter : #(first (ByKey (falling k)) d ∩ first (ByKey k) c) = 0 ↔
      ¬∃ i, i ∈ first (ByKey k) c ∧ i ∈ first (ByKey (falling k)) d := by
    rw [card_eq_zero, eq_empty_iff_forall_notMem, not_exists]
    refine forall_congr' fun i => not_congr ?_
    rw [mem_inter, and_comm]
  rw [twice_iff, not_exists] at hinter
  rw [← hinter]
  omega

end

section

variable {β : Type} (key : β → Bool)

/-- A stable sort by a yes and a no keeps the order within each. -/
theorem filter_mergeSort (xs : List β) (b : Bool) :
    (xs.mergeSort fun x y => !key x || key y).filter (fun x => key x == b) =
      xs.filter fun x => key x == b := by
  have htrans : ∀ x y z : β, (!key x || key y) = true → (!key y || key z) = true →
      (!key x || key z) = true := by
    intro x y z
    cases key x <;> cases key y <;> cases key z <;> simp
  have htotal : ∀ x y : β, ((!key x || key y) || (!key y || key x)) = true := by
    intro x y
    cases key x <;> cases key y <;> simp
  have hclass : (xs.filter fun x => key x == b).Pairwise fun x y => (!key x || key y) = true := by
    apply List.pairwise_iff_forall_sublist.mpr
    intro x y hxy
    have hx := (List.mem_filter.mp (hxy.subset (List.mem_cons_self))).2
    have hy := (List.mem_filter.mp (hxy.subset (List.mem_cons_of_mem _ List.mem_cons_self))).2
    rw [beq_iff_eq] at hx hy
    rw [hx, hy]
    cases b <;> rfl
  have hsub := (List.sublist_mergeSort htrans htotal hclass List.filter_sublist).filter fun x => key x == b
  rw [List.filter_filter] at hsub
  simp only [Bool.and_self] at hsub
  have hlength := ((List.mergeSort_perm xs fun x y => !key x || key y).filter fun x => key x == b).length_eq
  exact (hsub.eq_of_length hlength.symm).symm

/-- Sorted by a yes and a no: the noes, then the yeses. -/
theorem classes_of_sorted {xs : List β} (h : xs.Pairwise fun x y => (!key x || key y) = true) :
    xs = (xs.filter fun x => key x == false) ++ xs.filter fun x => key x == true := by
  induction xs with
  | nil => rfl
  | cons x xs ih =>
    obtain ⟨hx, hxs⟩ := List.pairwise_cons.mp h
    cases hkey : key x with
    | false =>
      simp only [List.filter_cons, hkey]
      simp only [beq_self_eq_true, if_true, List.cons_append]
      rw [if_neg (by decide), ← ih hxs]
    | true =>
      have hall : ∀ y ∈ xs, key y = true := by
        intro y hy
        simpa [hkey] using hx y hy
      have hnone : (xs.filter fun y => key y == false) = [] := by
        apply List.filter_eq_nil_iff.mpr
        intro y hy
        simp [hall y hy]
      have hevery : (xs.filter fun y => key y == true) = xs := by
        apply List.filter_eq_self.mpr
        intro y hy
        simp [hall y hy]
      rw [List.filter_cons_of_neg (by simp [hkey]), List.filter_cons_of_pos (by simp [hkey]), hnone, hevery,
        List.nil_append]

theorem mergeSort_classes (xs : List β) :
    (xs.mergeSort fun x y => !key x || key y) =
      (xs.filter fun x => key x == false) ++ xs.filter fun x => key x == true := by
  have hsorted : (xs.mergeSort fun x y => !key x || key y).Pairwise fun x y => (!key x || key y) = true := by
    apply List.pairwise_mergeSort
    · intro x y z
      cases key x <;> cases key y <;> cases key z <;> simp
    · intro x y
      cases key x <;> cases key y <;> simp
  rw [classes_of_sorted key hsorted, filter_mergeSort, filter_mergeSort]

end

section

variable {β κ : Type} [LinearOrder κ] (key : β → κ)

theorem pairwise_mergeSort_key (xs : List β) :
    (xs.mergeSort fun x y => key x ≤ key y).Pairwise fun x y => key x ≤ key y := by
  have h : (xs.mergeSort fun x y => key x ≤ key y).Pairwise fun x y => decide (key x ≤ key y) = true :=
    List.pairwise_mergeSort (by intro x y z; simpa using le_trans)
      (by intro x y; simpa using le_total (key x) (key y)) xs
  simpa using h

/-- Where the keys differ, a sort by them leaves no choice. -/
theorem mergeSort_eq_of_perm {xs ys : List β} (hperm : xs.Perm ys)
    (hys : ys.Pairwise fun x y => key x < key y) : (xs.mergeSort fun x y => key x ≤ key y) = ys := by
  have hsort : (xs.mergeSort fun x y => key x ≤ key y).Perm ys := (List.mergeSort_perm xs _).trans hperm
  have hkeys : (ys.map key).Nodup := List.pairwise_map.mpr (hys.imp ne_of_lt)
  apply hsort.eq_of_pairwise _ (pairwise_mergeSort_key key xs) (hys.imp le_of_lt)
  intro a b ha hb hab hba
  exact List.inj_on_of_nodup_map hkeys (hsort.subset ha) hb (le_antisymm hab hba)

/-- The keys of a sort by a key, some of them left out. -/
theorem filter_map_mergeSort (p : κ → Bool) (xs : List β) :
    ((xs.mergeSort fun x y => key x ≤ key y).map key).filter p =
      ((xs.map key).filter p).mergeSort fun a b => a ≤ b := by
  have hperm : (((xs.mergeSort fun x y => key x ≤ key y).map key).filter p).Perm
      (((xs.map key).filter p).mergeSort fun a b => a ≤ b) :=
    (((List.mergeSort_perm xs _).map key).filter p).trans (List.mergeSort_perm _ _).symm
  apply hperm.eq_of_pairwise
  · intro a b _ _ hab hba
    exact le_antisymm hab hba
  · exact (List.pairwise_map.mpr (pairwise_mergeSort_key key xs)).filter p
  · exact pairwise_mergeSort_key id _

end

end Ranking
