import Mathlib.Order.Basic
import Mathlib.Tactic

/-!
# The first of the best

A scan that keeps what it has until something better comes: it ends with the first of
the best.
-/
namespace FirstBest

variable {α β : Type} [LinearOrder β]

/-- Keep what is held unless the next is better. -/
def keep (key : α → β) (held : Option α) (x : α) : Option α :=
  match held with
  | none => some x
  | some y => if key y < key x then some x else some y

/-- The first of the best: better than all before it, no worse than any after it. -/
def IsFirst (key : α → β) (l : List α) (x : α) : Prop :=
  ∃ before after, l = before ++ x :: after ∧ (∀ y ∈ before, key y < key x) ∧ ∀ y ∈ after, key y ≤ key x

variable {key : α → β} {l : List α} {x : α}

theorem IsFirst.mem (h : IsFirst key l x) : x ∈ l := by
  obtain ⟨before, after, rfl, -⟩ := h
  exact List.mem_append_right _ List.mem_cons_self

theorem IsFirst.best (h : IsFirst key l x) : ∀ y ∈ l, key y ≤ key x := by
  obtain ⟨before, after, rfl, hbefore, hafter⟩ := h
  intro y hy
  rcases List.mem_append.mp hy with hy | hy
  · exact (hbefore y hy).le
  · rcases List.mem_cons.mp hy with rfl | hy
    · exact le_refl _
    · exact hafter y hy

/-- In a list in order of place, it is better than all that stand before it. -/
theorem IsFirst.first {place : α → Nat} (hsorted : l.Pairwise fun a b => place a < place b)
    (h : IsFirst key l x) : ∀ y ∈ l, place y < place x → key y < key x := by
  obtain ⟨before, after, rfl, hbefore, -⟩ := h
  intro y hy hplace
  rcases List.mem_append.mp hy with hy | hy
  · exact hbefore y hy
  · have hrest := (List.pairwise_append.mp hsorted).2.1
    rcases List.mem_cons.mp hy with rfl | hy
    · exact absurd hplace (lt_irrefl _)
    · exact absurd hplace (((List.pairwise_cons.mp hrest).1 y hy).not_gt)

/-- The scan ends with the first of the best, and with nothing where there was nothing. -/
theorem foldl_keep (key : α → β) (l : List α) :
    (l = [] ∧ l.foldl (keep key) none = none) ∨ ∃ x, l.foldl (keep key) none = some x ∧ IsFirst key l x := by
  induction l using List.reverseRecOn with
  | nil => exact Or.inl ⟨rfl, rfl⟩
  | append_singleton l x ih =>
    right
    rw [List.foldl_append, List.foldl_cons, List.foldl_nil]
    rcases ih with ⟨rfl, hnone⟩ | ⟨y, hsome, hfirst⟩
    · rw [hnone]
      exact ⟨x, rfl, [], [], rfl, by simp, by simp⟩
    · rw [hsome, keep]
      by_cases hbetter : key y < key x
      · rw [if_pos hbetter]
        exact ⟨x, rfl, l, [], rfl, fun z hz => (hfirst.best z hz).trans_lt hbetter, by simp⟩
      · rw [if_neg hbetter]
        obtain ⟨before, after, rfl, hbefore, hafter⟩ := hfirst
        refine ⟨y, rfl, before, after ++ [x], by simp, hbefore, fun z hz => ?_⟩
        rcases List.mem_append.mp hz with hz | hz
        · exact hafter z hz
        · rw [List.mem_singleton.mp hz]
          exact not_lt.mp hbetter

/-- Over values numbered from zero, it ends with the first number that has a best value. -/
theorem numbered_keep {γ : Type} (val : Nat → γ) (key : γ → β) {n : Nat} (hn : 0 < n) :
    ∃ d < n, (((List.range n).map fun i => (i, val i)).foldl (keep fun p => key p.2) none).map Prod.fst = some d ∧
      (∀ i < n, key (val i) ≤ key (val d)) ∧ ∀ i < d, key (val i) < key (val d) := by
  have hmem : ∀ i < n, (i, val i) ∈ (List.range n).map fun i => (i, val i) :=
    fun i hi => List.mem_map.mpr ⟨i, List.mem_range.mpr hi, rfl⟩
  have hsorted : ((List.range n).map fun i => (i, val i)).Pairwise fun a b => a.1 < b.1 := by
    rw [List.pairwise_map]
    exact List.pairwise_lt_range
  obtain ⟨hnil, -⟩ | ⟨p, hsome, hfirst⟩ :=
    foldl_keep (fun p : Nat × γ => key p.2) ((List.range n).map fun i => (i, val i))
  · have hzero := hmem 0 hn
    rw [hnil] at hzero
    cases hzero
  · obtain ⟨d, hd, rfl⟩ := List.mem_map.mp hfirst.mem
    have hlt := List.mem_range.mp hd
    rw [hsome]
    exact ⟨d, hlt, rfl, fun i hi => hfirst.best _ (hmem i hi),
      fun i hi => hfirst.first hsorted _ (hmem i (Nat.lt_trans hi hlt)) hi⟩

end FirstBest
