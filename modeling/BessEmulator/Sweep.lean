import Mathlib.Tactic

/-!
# Loops over a mutable slice

`sweep f s xs` runs `f` over `xs` from the left, each element rewritten in
place while a state is threaded through: a `for` loop over `iter_mut`.
-/
namespace Sweep

variable {σ τ α β γ : Type}

def sweep (f : σ → α → σ × β) : σ → List α → σ × List β
  | s, [] => (s, [])
  | s, x :: xs =>
    let (s, y) := f s x
    let (s, ys) := sweep f s xs
    (s, y :: ys)

@[simp] theorem sweep_nil (f : σ → α → σ × β) (s : σ) : sweep f s [] = (s, []) := rfl

@[simp] theorem sweep_cons (f : σ → α → σ × β) (s : σ) (x : α) (xs : List α) :
    sweep f s (x :: xs) =
      ((sweep f (f s x).1 xs).1, (f s x).2 :: (sweep f (f s x).1 xs).2) := rfl

@[simp] theorem sweep_length (f : σ → α → σ × β) (s : σ) (xs : List α) :
    (sweep f s xs).2.length = xs.length := by
  induction xs generalizing s with
  | nil => rfl
  | cons x xs ih => simp [ih]

/-- A loop whose writes do not read the threaded state is a map. -/
theorem sweep_eq_map {f : σ → α → σ × β} {g : α → β} (h : ∀ s x, (f s x).2 = g x)
    (s : σ) (xs : List α) : (sweep f s xs).2 = xs.map g := by
  induction xs generalizing s with
  | nil => rfl
  | cons x xs ih => simp [h, ih]

/-- Whatever every write keeps of its element is kept along the slice. -/
theorem sweep_map {f : σ → α → σ × β} {g : α → γ} {g' : β → γ}
    (h : ∀ s x, g' (f s x).2 = g x) (s : σ) (xs : List α) :
    (sweep f s xs).2.map g' = xs.map g := by
  induction xs generalizing s with
  | nil => rfl
  | cons x xs ih => simp [h, ih]

/-- Whatever every write establishes holds all along the slice. -/
theorem sweep_forall {f : σ → α → σ × β} {P : α → Prop} {Q : β → Prop}
    (h : ∀ s x, P x → Q (f s x).2) (s : σ) (xs : List α) (hx : ∀ x ∈ xs, P x) :
    ∀ y ∈ (sweep f s xs).2, Q y := by
  induction xs generalizing s with
  | nil => intro y hy; cases hy
  | cons x xs ih =>
    intro y hy
    rw [sweep_cons] at hy
    cases hy with
    | head => exact h s x (hx x (List.mem_cons_self))
    | tail _ hy => exact ih _ (fun z hz => hx z (List.mem_cons_of_mem _ hz)) y hy

/-- The same where the threaded state keeps an invariant the writes need. -/
theorem sweep_forall_inv {f : σ → α → σ × β} {I : σ → Prop} {P : α → Prop} {Q : β → Prop}
    (h : ∀ s x, I s → P x → I (f s x).1 ∧ Q (f s x).2) {s : σ} (hs : I s) (xs : List α)
    (hx : ∀ x ∈ xs, P x) : ∀ y ∈ (sweep f s xs).2, Q y := by
  induction xs generalizing s with
  | nil => intro y hy; cases hy
  | cons x xs ih =>
    obtain ⟨hi, hq⟩ := h s x hs (hx x List.mem_cons_self)
    intro y hy
    rw [sweep_cons] at hy
    cases hy with
    | head => exact hq
    | tail _ hy => exact ih hi (fun z hz => hx z (List.mem_cons_of_mem _ hz)) y hy

theorem sweep_append (f : σ → α → σ × β) (s : σ) (xs ys : List α) :
    sweep f s (xs ++ ys) =
      ((sweep f (sweep f s xs).1 ys).1, (sweep f s xs).2 ++ (sweep f (sweep f s xs).1 ys).2) := by
  induction xs generalizing s with
  | nil => rfl
  | cons x xs ih => simp [ih]

/-- The buffer after the values `vs` have been written from slot `i` on. -/
def fill : List α → Nat → List α → List α
  | buf, _, [] => buf
  | buf, i, v :: vs => fill (buf.set i v) (i + 1) vs

@[simp] theorem fill_nil (buf : List α) (i : Nat) : fill buf i [] = buf := rfl

@[simp] theorem fill_cons (buf : List α) (i : Nat) (v : α) (vs : List α) :
    fill buf i (v :: vs) = fill (buf.set i v) (i + 1) vs := rfl

@[simp] theorem fill_length (buf : List α) (i : Nat) (vs : List α) :
    (fill buf i vs).length = buf.length := by
  induction vs generalizing buf i with
  | nil => rfl
  | cons v vs ih => simp [ih]

/-- Slots before the run keep what they held. -/
theorem fill_take (buf : List α) (i : Nat) (vs : List α) : (fill buf i vs).take i = buf.take i := by
  induction vs generalizing buf i with
  | nil => rfl
  | cons v vs ih =>
    have h := congrArg (List.take i) (ih (buf.set i v) (i + 1))
    simp only [List.take_take, Nat.min_eq_left (Nat.le_succ i)] at h
    rw [fill_cons, h, List.take_set_of_le (Nat.le_refl i)]

/-- The run itself holds the values written, in order. -/
theorem fill_drop (buf : List α) (i : Nat) (vs : List α) (h : i + vs.length ≤ buf.length) :
    ∃ rest, (fill buf i vs).drop i = vs ++ rest := by
  induction vs generalizing buf i with
  | nil => exact ⟨buf.drop i, rfl⟩
  | cons v vs ih =>
    rw [List.length_cons] at h
    obtain ⟨rest, hrest⟩ := ih (buf.set i v) (i + 1) (by rw [List.length_set]; omega)
    have hlt : i < (fill (buf.set i v) (i + 1) vs).length := by
      rw [fill_length, List.length_set]
      omega
    have hv : (fill (buf.set i v) (i + 1) vs)[i]? = some v := by
      have ht := congrArg (fun l => l[i]?) (fill_take (buf.set i v) (i + 1) vs)
      simp only [List.getElem?_take, Nat.lt_succ_self, if_true] at ht
      rw [ht, List.getElem?_set_self (by omega)]
    refine ⟨rest, ?_⟩
    rw [fill_cons, List.drop_eq_getElem_cons hlt, hrest]
    rw [List.getElem?_eq_getElem hlt] at hv
    rw [Option.some.inj hv]
    rfl

/-- A buffer refilled from its start begins with the values written. -/
theorem fill_zero_take (buf : List α) (vs : List α) (h : vs.length ≤ buf.length) :
    (fill buf 0 vs).take vs.length = vs := by
  obtain ⟨rest, hrest⟩ := fill_drop buf 0 vs (by omega)
  rw [List.drop_zero] at hrest
  rw [hrest, List.take_left]

/-- Reading the slot the remaining run starts at. -/
theorem getD_of_drop {buf : List α} {i : Nat} {v d : α} {rest : List α}
    (h : buf.drop i = v :: rest) : buf.getD i d = v := by
  have hg := congrArg (fun l => l[0]?) h
  simp only [List.getElem?_drop, Nat.add_zero, List.getElem?_cons_zero] at hg
  rw [List.getD_eq_getElem?_getD, hg, Option.getD_some]

theorem drop_succ_of_drop {buf : List α} {i : Nat} {v : α} {rest : List α}
    (h : buf.drop i = v :: rest) : buf.drop (i + 1) = rest := by
  rw [← List.drop_drop, h, List.drop_one, List.tail_cons]

theorem mem_modify {xs : List α} {i : Nat} {f : α → α} {y : α}
    (h : y ∈ xs.modify i f) : y ∈ xs ∨ ∃ x ∈ xs, y = f x := by
  rw [List.mem_iff_getElem?] at h
  obtain ⟨j, hj⟩ := h
  rw [List.getElem?_modify] at hj
  cases hx : xs[j]? with
  | none => rw [hx] at hj; cases hj
  | some x =>
    rw [hx] at hj
    have hm : x ∈ xs := List.mem_of_getElem? hx
    have hj : (if i = j then f x else x) = y := Option.some.inj hj
    by_cases he : i = j
    · rw [if_pos he] at hj
      exact Or.inr ⟨x, hm, hj.symm⟩
    · rw [if_neg he] at hj
      exact Or.inl (hj ▸ hm)

/-- Modifying one element keeps a property of all that the modification keeps. -/
theorem forall_modify {Q : α → Prop} {xs : List α} {i : Nat} {f : α → α}
    (h : ∀ x ∈ xs, Q x) (hf : ∀ x, Q x → Q (f x)) : ∀ y ∈ xs.modify i f, Q y := by
  intro y hy
  rcases mem_modify hy with hy | ⟨x, hx, rfl⟩
  · exact h y hy
  · exact hf x (h x hx)

/-- One index's part of the log is what its own element said. -/
theorem filterMap_zipIdx_single {ε : Type} (say : α × Nat → List ε) (sel : ε → Option γ) (k : Nat)
    (hoff : ∀ x i, i ≠ k → (say (x, i)).filterMap sel = []) (xs : List α) (n : Nat) :
    ((xs.zipIdx n).flatMap say).filterMap sel =
      if n ≤ k then
        match xs[k - n]? with
        | none => []
        | some x => (say (x, k)).filterMap sel
      else [] := by
  induction xs generalizing n with
  | nil => simp
  | cons x xs ih =>
    rw [List.zipIdx_cons, List.flatMap_cons, List.filterMap_append, ih]
    by_cases hk : n = k
    · subst hk
      simp
    · rw [hoff x n hk, List.nil_append]
      by_cases hlt : n ≤ k
      · have hs : k - n = k - (n + 1) + 1 := by omega
        rw [if_pos hlt, if_pos (by omega), hs, List.getElem?_cons_succ]
      · rw [if_neg hlt, if_neg (by omega)]

end Sweep
