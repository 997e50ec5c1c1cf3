import Mathlib.Data.List.TakeWhile
import Mathlib.Tactic

/-!
# The partition point of a list

A binary search for the first place a predicate fails. On a list that the
predicate splits into a prefix and a rest, that is the length of the prefix.
-/
namespace Bisect

variable {α : Type}

/-- Whether the element at `i` satisfies `p`; past the end nothing does. -/
def holdsAt (p : α → Bool) (xs : List α) (i : Nat) : Bool := (xs[i]?.map p).getD false

def between (p : α → Bool) (xs : List α) (lo hi : Nat) : Nat :=
  if lo < hi then
    let mid := lo + (hi - lo) / 2
    if holdsAt p xs mid then between p xs (mid + 1) hi else between p xs lo mid
  else lo
  termination_by hi - lo

/-- `slice::partition_point`. -/
def partitionPoint (p : α → Bool) (xs : List α) : Nat := between p xs 0 xs.length

/-- The predicate holds exactly on a prefix. -/
def Partitioned (p : α → Bool) (xs : List α) : Prop := xs.Pairwise fun a b => p b → p a

theorem holdsAt_takeWhile {p : α → Bool} {xs : List α} (h : Partitioned p xs) (i : Nat) :
    holdsAt p xs i = decide (i < (xs.takeWhile p).length) := by
  induction xs generalizing i with
  | nil => simp [holdsAt]
  | cons x xs ih =>
    obtain ⟨hx, hxs⟩ := List.pairwise_cons.mp h
    cases hp : p x with
    | true =>
      cases i with
      | zero => simp [holdsAt, hp]
      | succ i =>
        have hi := ih hxs i
        simp only [holdsAt] at hi ⊢
        simp [hp, hi]
    | false =>
      have hall : ∀ y ∈ xs, p y = false := by
        intro y hy
        by_contra hne
        have := hx y hy (by simpa using hne)
        rw [hp] at this
        cases this
      cases i with
      | zero => simp [holdsAt, hp]
      | succ i =>
        simp only [holdsAt, List.getElem?_cons_succ, List.takeWhile_cons, hp]
        cases he : xs[i]? with
        | none => simp
        | some y => simp [hall y (List.mem_of_getElem? he)]

theorem between_eq {p : α → Bool} {xs : List α} (h : Partitioned p xs) (lo hi : Nat)
    (hlo : lo ≤ (xs.takeWhile p).length) (hhi : (xs.takeWhile p).length ≤ hi) :
    between p xs lo hi = (xs.takeWhile p).length := by
  induction lo, hi using between.induct p xs with
  | case1 lo hi hlt mid hmid ih =>
    rw [holdsAt_takeWhile h, decide_eq_true_eq] at hmid
    rw [between, if_pos hlt]
    simp only
    rw [if_pos (by rw [holdsAt_takeWhile h, decide_eq_true_eq]; exact hmid)]
    exact ih hmid hhi
  | case2 lo hi hlt mid hmid ih =>
    rw [holdsAt_takeWhile h, decide_eq_true_eq, not_lt] at hmid
    rw [between, if_pos hlt]
    simp only
    rw [if_neg (by rw [holdsAt_takeWhile h, decide_eq_true_eq, not_lt]; exact hmid)]
    exact ih hlo hmid
  | case3 lo hi hge =>
    rw [between, if_neg hge]
    omega

theorem partitionPoint_eq {p : α → Bool} {xs : List α} (h : Partitioned p xs) :
    partitionPoint p xs = (xs.takeWhile p).length :=
  between_eq h 0 xs.length (Nat.zero_le _) (List.takeWhile_prefix p).length_le

theorem not_of_mem_dropWhile {p : α → Bool} {xs : List α} (h : Partitioned p xs) {y : α}
    (hy : y ∈ xs.dropWhile p) : p y = false := by
  induction xs with
  | nil => cases hy
  | cons x xs ih =>
    obtain ⟨hx, hxs⟩ := List.pairwise_cons.mp h
    rw [List.dropWhile_cons] at hy
    split at hy
    · exact ih hxs hy
    · next hp =>
      rcases List.mem_cons.mp hy with rfl | hy
      · simpa using hp
      · by_contra hne
        exact hp (hx y hy (by simpa using hne))

/-- A scan under a weaker condition goes on where the stronger one stopped. -/
theorem takeWhile_extend {p q : α → Bool} (h : ∀ x, p x → q x) (xs : List α) :
    xs.takeWhile q = xs.takeWhile p ++ (xs.drop (xs.takeWhile p).length).takeWhile q := by
  induction xs with
  | nil => rfl
  | cons x xs ih =>
    cases hp : p x with
    | true => simp [hp, h x hp, ← ih]
    | false => simp [hp]

/-- What a search for `p` looks at: everything up to its find. -/
def looked (p : α → Bool) : List α → List α
  | [] => []
  | x :: xs => x :: if p x then [] else looked p xs

/-- Searches that agree on what one of them looks at are one search. -/
theorem looked_congr {p q : α → Bool} {xs : List α} (h : ∀ x ∈ looked p xs, p x = q x) :
    looked q xs = looked p xs ∧ xs.any q = xs.any p := by
  induction xs with
  | nil => exact ⟨rfl, rfl⟩
  | cons x xs ih =>
    have hx : p x = q x := h x (by rw [looked]; exact List.mem_cons_self)
    cases hp : p x with
    | true =>
      rw [hp] at hx
      simp [looked, hp, ← hx]
    | false =>
      rw [hp] at hx
      have hrest := ih fun y hy => h y (by
        rw [looked, hp]
        exact List.mem_cons_of_mem x hy)
      simp [looked, hp, ← hx, hrest.1, hrest.2]

end Bisect
