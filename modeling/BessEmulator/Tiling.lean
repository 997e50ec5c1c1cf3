import BessEmulator.EdgeLog

/-!
# Tiles and buckets

How much of a stretch lies in another. It adds up over the pieces the other is
cut into, so over tiles laid end to end and over a row of buckets alike.
-/
namespace Tiling

open EdgeLog

section

variable {α : Type} [CommRing α] [LinearOrder α]

/-- How much of the stretch from `a` to `b` lies between `lo` and `hi`. -/
def overlap (a b lo hi : α) : α := max 0 (min b hi - max a lo)

theorem overlap_comm (a b lo hi : α) : overlap a b lo hi = overlap lo hi a b := by
  rw [overlap, overlap, min_comm, max_comm a lo]

variable [IsStrictOrderedRing α]

/-- Cutting a stretch in two cuts what lies in it. -/
theorem overlap_cut (a b : α) {lo mid hi : α} (h : lo ≤ mid) (h' : mid ≤ hi) :
    overlap a b lo mid + overlap a b mid hi = overlap a b lo hi := by
  simp only [overlap]
  grind

/-- What is covered whole lies inside. -/
theorem inside_of_overlap {a b lo hi : α} (hlt : lo < hi) (h : overlap a b lo hi = hi - lo) :
    a ≤ lo ∧ hi ≤ b := by
  simp only [overlap] at h
  grind

omit [CommRing α] [IsStrictOrderedRing α] in
theorem path_le {a b : α} {ms : List (α × α)} (h : Path a ms b) (hms : ∀ m ∈ ms, m.1 ≤ m.2) :
    a ≤ b := by
  induction ms generalizing a with
  | nil => exact le_of_eq h
  | cons m ms ih =>
    obtain ⟨rfl, h⟩ := h
    obtain ⟨hm, hms⟩ := List.forall_mem_cons.mp hms
    exact hm.trans (ih h hms)

/-- Tiles overlap a stretch as much as the whole they make. -/
theorem sum_overlap {a b : α} {ms : List (α × α)} (h : Path a ms b) (hms : ∀ m ∈ ms, m.1 ≤ m.2)
    (lo hi : α) : (ms.map fun m => overlap lo hi m.1 m.2).sum = overlap lo hi a b := by
  induction ms generalizing a with
  | nil =>
    cases h
    simp only [List.map_nil, List.sum_nil, overlap]
    grind
  | cons m ms ih =>
    obtain ⟨rfl, h⟩ := h
    obtain ⟨hm, hms⟩ := List.forall_mem_cons.mp hms
    rw [List.map_cons, List.sum_cons, ih h hms, overlap_cut lo hi hm (path_le h hms)]

/-- A moment of the whole is in one of its tiles and no other. -/
theorem countP_tiles {a b : α} {ms : List (α × α)} (h : Path a ms b) (hms : ∀ m ∈ ms, m.1 ≤ m.2)
    (t : α) : (ms.countP fun m => decide (m.1 ≤ t ∧ t < m.2)) = if a ≤ t ∧ t < b then 1 else 0 := by
  induction ms generalizing a with
  | nil =>
    cases h
    rw [if_neg fun ht => absurd ht.2 (not_lt.mpr ht.1)]
    rfl
  | cons m ms ih =>
    obtain ⟨rfl, h⟩ := h
    obtain ⟨hm, hms⟩ := List.forall_mem_cons.mp hms
    have hb := path_le h hms
    rw [List.countP_cons, ih h hms]
    simp only [decide_eq_true_eq]
    grind

omit [CommRing α] [LinearOrder α] [IsStrictOrderedRing α] in
theorem path_marks (f : Nat → α) (n : Nat) :
    Path (f 0) ((List.range n).map fun k => (f k, f (k + 1))) (f n) := by
  induction n with
  | zero => rfl
  | succ n ih =>
    rw [List.range_succ, List.map_append]
    exact ih.trans ⟨rfl, rfl⟩

/-- What lies in the buckets adds up to what lies between the first and the last mark. -/
theorem sum_buckets {f : Nat → α} (hf : Monotone f) (a b : α) (n : Nat) :
    ((List.range n).map fun k => overlap a b (f k) (f (k + 1))).sum = overlap a b (f 0) (f n) := by
  rw [← sum_overlap (path_marks f n) _ a b, List.map_map]
  · rfl
  · rw [List.forall_mem_map]
    intro k _
    exact hf (Nat.le_succ k)

end

section

variable {β : Type}

/-- A loop over the buckets of a range writes each of them once. -/
theorem foldl_modify_range (g : Nat → β → β) (f : Nat → β) (n lo len : Nat) :
    (List.range' lo len).foldl (fun xs k => xs.modify k (g k)) ((List.range n).map f) =
      (List.range n).map fun k => if lo ≤ k ∧ k < lo + len then g k (f k) else f k := by
  induction len with
  | zero =>
    simp
  | succ len ih =>
    rw [List.range'_1_concat, List.foldl_append, ih, List.foldl_cons, List.foldl_nil]
    apply List.ext_getElem?
    intro k
    simp only [List.getElem?_modify, List.getElem?_map]
    by_cases hk : k < n
    · rw [List.getElem?_range hk]
      simp only [Option.map_some]
      by_cases he : lo + len = k
      · subst he
        simp
      · simp only [he, if_false]
        grind
    · rw [List.getElem?_eq_none (by simpa using hk)]
      rfl

end

end Tiling
