import Mathlib.Tactic

/-!
# Histories of a value

A log of moves, each from the value it left to the value it reached, and what
can be read off it: the current value by replay, the joints between moves,
and for a single bit the alternation of its edges.
-/
namespace EdgeLog

variable {V ε : Type}

/-- `ms` leads from `v` to `w`, every move starting where the last one ended. -/
def Path : V → List (V × V) → V → Prop
  | v, [], w => v = w
  | v, m :: ms, w => v = m.1 ∧ Path m.2 ms w

@[simp] theorem path_nil (v w : V) : Path v [] w ↔ v = w := Iff.rfl

@[simp] theorem path_cons (v w : V) (m : V × V) (ms : List (V × V)) :
    Path v (m :: ms) w ↔ v = m.1 ∧ Path m.2 ms w := Iff.rfl

theorem Path.trans {u v w : V} {as bs : List (V × V)} (h : Path u as v) (h' : Path v bs w) :
    Path u (as ++ bs) w := by
  induction as generalizing u with
  | nil =>
    cases h
    exact h'
  | cons a as ih => exact ⟨h.1, ih h.2⟩

/-- Replaying keeps the value each move reached. -/
def replay (v : V) (ms : List (V × V)) : V := ms.foldl (fun _ m => m.2) v

theorem Path.replay_eq {v w : V} {ms : List (V × V)} (h : Path v ms w) : replay v ms = w := by
  induction ms generalizing v with
  | nil => exact h
  | cons m ms ih => exact ih h.2

/-- The last move of a path ends where the path does. -/
theorem Path.getLast {v w : V} {ms : List (V × V)} (h : Path v ms w) {m : V × V}
    (hm : ms.getLast? = some m) : m.2 = w := by
  obtain ⟨front, rfl⟩ := List.getLast?_eq_some_iff.mp hm
  rw [← h.replay_eq, replay, List.foldl_append]
  rfl

/-- The moves of a path are joined end to end. -/
theorem Path.isChain {v w : V} {ms : List (V × V)} (h : Path v ms w) (u : V) :
    List.IsChain (fun a b => a.2 = b.1) ((u, v) :: ms) := by
  induction ms generalizing u v with
  | nil => exact List.isChain_singleton _
  | cons m ms ih =>
    obtain ⟨hv, hms⟩ := h
    obtain ⟨a, b⟩ := m
    exact List.isChain_cons_cons.mpr ⟨hv, ih hms a⟩

/-- The edges of a bit: along a path they strictly alternate, and the first
one leaves the value the path starts from. -/
theorem Path.alternates {v w : Bool} {ms : List (Bool × Bool)} (h : Path v ms w)
    (hm : ∀ m ∈ ms, m.1 ≠ m.2) : List.IsChain (· ≠ ·) (v :: ms.map Prod.snd) := by
  induction ms generalizing v with
  | nil => exact List.isChain_singleton _
  | cons m ms ih =>
    obtain ⟨hv, hms⟩ := h
    have hne : v ≠ m.2 := by
      rw [hv]
      exact hm m List.mem_cons_self
    exact List.isChain_cons_cons.mpr ⟨hne, ih hms fun m' hm' => hm m' (List.mem_cons_of_mem _ hm')⟩

/-- Among the indices below `n` one alone is selected. -/
theorem filterMap_range_single {α : Type} {g : Nat → Option α} {k : Nat}
    (h : ∀ i, i ≠ k → g i = none) (n : Nat) :
    (List.range n).filterMap g = if k < n then (g k).toList else [] := by
  induction n with
  | zero => rfl
  | succ n ih =>
    rw [List.range_succ, List.filterMap_append, ih]
    by_cases hk : k = n
    · subst hk
      cases hg : g k with
      | none => simp [hg]
      | some a => simp [hg]
    · have hn := h n (fun e => hk e.symm)
      by_cases hlt : k < n
      · rw [if_pos hlt, if_pos (by omega)]
        simp [hn]
      · rw [if_neg hlt, if_neg (by omega)]
        simp [hn]

section

variable {K : Type} [DecidableEq K]

/-- The moves of one key in a log of many. -/
def movesOf (k : K) (log : List (K × Bool × Bool)) : List (Bool × Bool) :=
  log.filterMap fun m => if m.1 = k then some m.2 else none

theorem movesOf_self (k : K) (m : Bool × Bool) (log : List (K × Bool × Bool)) :
    movesOf k ((k, m) :: log) = m :: movesOf k log := by simp [movesOf]

theorem movesOf_other {k k' : K} (h : k' ≠ k) (m : Bool × Bool) (log : List (K × Bool × Bool)) :
    movesOf k ((k', m) :: log) = movesOf k log := by simp [movesOf, h]

/-- The rises of the keys a predicate picks. -/
def rises (P : K → Bool) (log : List (K × Bool × Bool)) : Nat := log.countP fun m => P m.1 && m.2.2

def falls (P : K → Bool) (log : List (K × Bool × Bool)) : Nat := log.countP fun m => P m.1 && !m.2.2

theorem card_insert_filter {s : Finset K} {k : K} (h : k ∉ s) (P : K → Bool) :
    ((insert k s).filter fun k => P k).card = (s.filter fun k => P k).card + if P k then 1 else 0 := by
  rw [Finset.filter_insert]
  split
  · rw [Finset.card_insert_of_notMem fun hk => h (Finset.mem_filter.mp hk).1]
  · rfl

/-- Every bit's history is a path: what was set and what rose is what fell and what is set. -/
theorem rises_balance {log : List (K × Bool × Bool)} {before after : Finset K} (P : K → Bool)
    (hreal : ∀ m ∈ log, m.2.1 ≠ m.2.2)
    (h : ∀ k, Path (decide (k ∈ before)) (movesOf k log) (decide (k ∈ after))) :
    (before.filter fun k => P k).card + rises P log = (after.filter fun k => P k).card + falls P log := by
  induction log generalizing before with
  | nil =>
    have hsame : before = after := by
      ext k
      exact decide_eq_decide.mp (h k)
    rw [hsame]
    rfl
  | cons m log ih =>
    obtain ⟨k, a, b⟩ := m
    have hk := h k
    rw [movesOf_self] at hk
    obtain ⟨hstart, hrest⟩ := hk
    have hne : a ≠ b := hreal (k, a, b) List.mem_cons_self
    have hlater : ∀ m ∈ log, m.2.1 ≠ m.2.2 := fun m hm => hreal m (List.mem_cons_of_mem _ hm)
    cases a with
    | false =>
      have hb : b = true := by simpa using hne.symm
      have hout : k ∉ before := of_decide_eq_false hstart
      have hnext := @ih (insert k before) hlater fun k' => by
        by_cases hkk : k' = k
        · rw [hkk]
          simpa [hb] using hrest
        · have hother := h k'
          rw [movesOf_other (fun e => hkk e.symm)] at hother
          simpa [hkk] using hother
      rw [card_insert_filter hout] at hnext
      simp only [rises, falls, List.countP_cons, hb] at hnext ⊢
      cases hP : P k <;> simp [hP] at hnext ⊢ <;> omega
    | true =>
      have hb : b = false := by simpa using hne.symm
      have hin : k ∈ before := of_decide_eq_true hstart
      have hnext := @ih (before.erase k) hlater fun k' => by
        by_cases hkk : k' = k
        · rw [hkk]
          simpa [hb] using hrest
        · have hother := h k'
          rw [movesOf_other (fun e => hkk e.symm)] at hother
          simpa [hkk] using hother
      have hcard := card_insert_filter (Finset.notMem_erase k before) P
      rw [Finset.insert_erase hin] at hcard
      rw [hcard]
      simp only [rises, falls, List.countP_cons, hb] at hnext ⊢
      cases P k <;> simp at hnext ⊢ <;> omega

end

/-- A path whose moves all reach its end moves at most once. -/
theorem Path.once {v w : Bool} {ms : List (Bool × Bool)} (h : Path v ms w)
    (hreal : ∀ m ∈ ms, m.1 ≠ m.2) (hend : ∀ m ∈ ms, m.2 = w) :
    ms = if v = w then [] else [(v, w)] := by
  cases ms with
  | nil =>
    cases h
    rw [if_pos rfl]
  | cons m ms =>
    obtain ⟨a, b⟩ := m
    obtain ⟨rfl, hrest⟩ := h
    have hb : b = w := hend (v, b) List.mem_cons_self
    have hne : v ≠ b := hreal (v, b) List.mem_cons_self
    cases ms with
    | nil => rw [if_neg (hb ▸ hne), hb]
    | cons m ms =>
      have hstart : b = m.1 := hrest.1
      have hm : m ∈ (v, b) :: m :: ms := .tail _ (.head _)
      exact absurd (hstart.symm.trans (hb.trans (hend m hm).symm)) (hreal m hm)

end EdgeLog
