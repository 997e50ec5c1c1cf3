import BessEmulator.Bisect

/-!
# The longest run in a list

A scan that counts the elements of the run under way and keeps the longest run
seen, the first of its length. What it keeps is the longest block of places
where the predicate holds, and where the first such block starts.
-/
namespace LongestRun

open Bisect

variable {α : Type}

/-- The scan so far: the longest run, where it starts, and the run under way. -/
structure Scan where
  longest : Nat
  start : Nat
  run : Nat

def Scan.step (p : α → Bool) (s : Scan) (x : α × Nat) : Scan :=
  if p x.1 then
    let run := s.run + 1
    if s.longest < run then ⟨run, x.2 + 1 - run, run⟩ else { s with run := run }
  else { s with run := 0 }

def scan (p : α → Bool) (xs : List α) : Scan := xs.zipIdx.foldl (Scan.step p) ⟨0, 0, 0⟩

/-- `n` places from `a` on, all of them satisfying `p`. -/
def Block (p : α → Bool) (xs : List α) (a n : Nat) : Prop := ∀ i < n, holdsAt p xs (a + i) = true

variable {p : α → Bool} {xs : List α} {x : α} {a n : Nat}

theorem lt_of_holdsAt {i : Nat} (h : holdsAt p xs i = true) : i < xs.length := by
  by_contra hge
  rw [holdsAt, List.getElem?_eq_none (not_lt.mp hge)] at h
  cases h

theorem Block.end_le (h : Block p xs a n) (hn : 0 < n) : a + n ≤ xs.length := by
  have := lt_of_holdsAt (h (n - 1) (by omega))
  omega

theorem holdsAt_concat (i : Nat) :
    holdsAt p (xs ++ [x]) i = if i = xs.length then p x else holdsAt p xs i := by
  split
  · next hi => simp [holdsAt, hi]
  · next hi =>
    rcases Nat.lt_or_gt_of_ne hi with hlt | hgt
    · simp [holdsAt, List.getElem?_append_left hlt]
    · rw [holdsAt, holdsAt, List.getElem?_eq_none (by simp; omega), List.getElem?_eq_none (by omega)]

/-- A block within the list so far is one of the longer list. -/
theorem block_concat_inside (h : a + n ≤ xs.length) :
    Block p (xs ++ [x]) a n ↔ Block p xs a n := by
  refine forall₂_congr fun i hi => ?_
  rw [holdsAt_concat, if_neg (by omega)]

/-- A block that takes in the new element is one that reached the old end, and the element. -/
theorem block_concat_last (h : a + n = xs.length) :
    Block p (xs ++ [x]) a (n + 1) ↔ Block p xs a n ∧ p x = true := by
  rw [← block_concat_inside (x := x) h.le]
  constructor
  · intro hb
    refine ⟨fun i hi => hb i (by omega), ?_⟩
    have hx := hb n (by omega)
    rwa [holdsAt_concat, if_pos h] at hx
  · rintro ⟨hb, hx⟩ i hi
    rcases Nat.lt_succ_iff_lt_or_eq.mp hi with hlt | rfl
    · exact hb i hlt
    · rw [holdsAt_concat, if_pos h, hx]

/-- A run of the length is as long as any, and the first of its length. -/
structure Longest (p : α → Bool) (xs : List α) (n start : Nat) : Prop where
  inside : start + n ≤ xs.length
  block : Block p xs start n
  longest : ∀ a m, Block p xs a m → m ≤ n
  first : ∀ a, Block p xs a n → start ≤ a

/-- The run under way ends the list and cannot be longer. -/
structure Ending (p : α → Bool) (xs : List α) (n : Nat) : Prop where
  inside : n ≤ xs.length
  block : Block p xs (xs.length - n) n
  longest : ∀ a m, a + m = xs.length → Block p xs a m → m ≤ n

theorem Ending.concat (h : Ending p xs n) :
    Ending p (xs ++ [x]) (if p x then n + 1 else 0) := by
  have hin := h.inside
  split
  · next hx =>
    refine ⟨by simpa using hin, ?_, ?_⟩
    · rw [List.length_append, List.length_singleton, Nat.add_sub_add_right,
        block_concat_last (by omega)]
      exact ⟨h.block, hx⟩
    · intro a m hm hb
      rw [List.length_append, List.length_singleton] at hm
      cases m with
      | zero => omega
      | succ m =>
        have := h.longest a m (by omega) ((block_concat_last (by omega)).mp hb).1
        omega
  · next hx =>
    refine ⟨Nat.zero_le _, fun i hi => absurd hi (Nat.not_lt_zero i), ?_⟩
    intro a m hm hb
    rw [List.length_append, List.length_singleton] at hm
    cases m with
    | zero => exact le_refl 0
    | succ m => exact absurd ((block_concat_last (by omega)).mp hb).2 hx

/-- Every block of the longer list is one of the list so far, or ends it. -/
theorem block_concat_cases (h : Block p (xs ++ [x]) a n) :
    Block p xs a n ∨ a + n = xs.length + 1 := by
  by_cases hle : a + n ≤ xs.length
  · exact .inl ((block_concat_inside hle).mp h)
  · cases n with
    | zero => exact .inl fun i hi => absurd hi (Nat.not_lt_zero i)
    | succ n =>
      have := h.end_le (Nat.succ_pos n)
      rw [List.length_append, List.length_singleton] at this
      exact .inr (by omega)

/-- The run kept stays, unless the run under way has become longer. -/
theorem Longest.concat {n start run : Nat} (h : Longest p xs n start)
    (he : Ending p (xs ++ [x]) run) :
    Longest p (xs ++ [x]) (if n < run then run else n)
      (if n < run then xs.length + 1 - run else start) := by
  have hin := he.inside
  have hblock := he.block
  rw [List.length_append, List.length_singleton] at hin hblock
  split
  · next hlt =>
    refine ⟨by simp; omega, hblock, ?_, ?_⟩
    · intro a m hb
      rcases block_concat_cases hb with hold | hend
      · exact (h.longest a m hold).trans hlt.le
      · exact he.longest a m (by simpa using hend) hb
    · intro a hb
      rcases block_concat_cases hb with hold | hend
      · exact absurd (h.longest a run hold) (by omega)
      · omega
  · next hge =>
    refine ⟨?_, (block_concat_inside h.inside).mpr h.block, ?_, ?_⟩
    · rw [List.length_append]
      exact h.inside.trans (Nat.le_add_right _ _)
    · intro a m hb
      rcases block_concat_cases hb with hold | hend
      · exact h.longest a m hold
      · exact (he.longest a m (by simpa using hend) hb).trans (not_lt.mp hge)
    · intro a hb
      rcases block_concat_cases hb with hold | hend
      · exact h.first a hold
      · have := h.inside
        omega

theorem step_eq (s : Scan) (x : α) (i : Nat) :
    s.step p (x, i) =
      ⟨if s.longest < (if p x then s.run + 1 else 0) then (if p x then s.run + 1 else 0) else s.longest,
        if s.longest < (if p x then s.run + 1 else 0) then i + 1 - (if p x then s.run + 1 else 0)
        else s.start,
        if p x then s.run + 1 else 0⟩ := by
  rw [Scan.step]
  cases hx : p x with
  | false => simp
  | true =>
    simp only [if_true]
    split <;> rfl

/-- The scan keeps the longest run and the run under way. -/
theorem scan_sound (p : α → Bool) (xs : List α) :
    Longest p xs (scan p xs).longest (scan p xs).start ∧ Ending p xs (scan p xs).run := by
  induction xs using List.reverseRecOn with
  | nil =>
    have hno : ∀ a m, Block p [] a m → m ≤ 0 := by
      intro a m hb
      by_contra hpos
      have := hb.end_le (not_le.mp hpos)
      rw [List.length_nil] at this
      omega
    have hempty : ∀ a, Block p [] a 0 := fun a i hi => absurd hi (Nat.not_lt_zero i)
    exact ⟨⟨le_refl 0, hempty 0, hno, fun a _ => Nat.zero_le a⟩,
      ⟨le_refl 0, hempty 0, fun a m _ => hno a m⟩⟩
  | append_singleton xs x ih =>
    obtain ⟨hlong, hend⟩ := ih
    have hscan : scan p (xs ++ [x]) = (scan p xs).step p (x, xs.length) := by
      simp [scan, List.zipIdx_append]
    rw [hscan, step_eq]
    exact ⟨hlong.concat hend.concat, hend.concat⟩

/-- The scan finds the longest run, the first of its length. -/
theorem scan_longest (p : α → Bool) (xs : List α) :
    Longest p xs (scan p xs).longest (scan p xs).start := (scan_sound p xs).1

end LongestRun
