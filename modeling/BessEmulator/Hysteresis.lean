import BessEmulator.Traces

/-!
# Hysteresis as a fact about history

A latch with two edges, read against everything it was shown: it is set
exactly when it was raised at some point and held ever since. A delayed latch
is raised by a stretch of readings instead of one.
-/
namespace Hysteresis

variable {α : Type} {n : Nat} {raised held : α → Prop}

/-- The last `n` readings all raise. -/
def Ends (n : Nat) (raised : α → Prop) (hist : List α) : Prop :=
  ∃ pre w, hist = pre ++ w ∧ w.length = n ∧ ∀ x ∈ w, raised x

/-- Raised by `n` readings in a row, and held by every reading since. -/
def Latched (n : Nat) (raised held : α → Prop) (hist : List α) : Prop :=
  ∃ pre post, hist = pre ++ post ∧ Ends n raised pre ∧ ∀ x ∈ post, held x

@[simp] theorem ends_zero (hist : List α) : Ends 0 raised hist := ⟨hist, [], by simp⟩

@[simp] theorem not_ends_nil : ¬ Ends (n + 1) raised ([] : List α) := by
  rintro ⟨pre, w, h, hlen, -⟩
  have hw : w = [] := (List.append_eq_nil_iff.mp h.symm).2
  rw [hw] at hlen
  cases hlen

theorem ends_snoc (hist : List α) (x : α) :
    Ends (n + 1) raised (hist ++ [x]) ↔ raised x ∧ Ends n raised hist := by
  constructor
  · rintro ⟨pre, w, h, hlen, hall⟩
    obtain rfl | ⟨w, y, rfl⟩ := List.eq_nil_or_concat w
    · cases hlen
    · rw [List.concat_eq_append, ← List.append_assoc] at h
      obtain ⟨rfl, hxy⟩ := List.append_inj' h rfl
      cases hxy
      exact ⟨hall x (by simp), pre, w, rfl, by simpa using hlen, fun y hy => hall y (by simp [hy])⟩
  · rintro ⟨hx, pre, w, rfl, hlen, hall⟩
    refine ⟨pre, w ++ [x], by simp, by simp [hlen], fun y hy => ?_⟩
    obtain hy | hy := List.mem_append.mp hy
    · exact hall y hy
    · rw [List.mem_singleton.mp hy]
      exact hx

/-- One reading that raises. -/
theorem ends_one (hist : List α) (x : α) : Ends 1 raised (hist ++ [x]) ↔ raised x := by
  rw [ends_snoc]
  simp

@[simp] theorem not_latched_nil : ¬ Latched (n + 1) raised held ([] : List α) := by
  rintro ⟨pre, post, h, hends, -⟩
  rw [(List.append_eq_nil_iff.mp h.symm).1] at hends
  exact not_ends_nil hends

theorem latched_snoc (hist : List α) (x : α) :
    Latched n raised held (hist ++ [x]) ↔
      Ends n raised (hist ++ [x]) ∨ Latched n raised held hist ∧ held x := by
  constructor
  · rintro ⟨pre, post, h, hends, hall⟩
    obtain rfl | ⟨post, y, rfl⟩ := List.eq_nil_or_concat post
    · rw [List.append_nil] at h
      exact .inl (h ▸ hends)
    · rw [List.concat_eq_append, ← List.append_assoc] at h
      obtain ⟨rfl, hxy⟩ := List.append_inj' h rfl
      cases hxy
      exact .inr ⟨⟨pre, post, rfl, hends, fun y hy => hall y (by simp [hy])⟩, hall x (by simp)⟩
  · rintro (hends | ⟨⟨pre, post, rfl, hends, hall⟩, hx⟩)
    · exact ⟨hist ++ [x], [], by simp, hends, by simp⟩
    · refine ⟨pre, post ++ [x], by simp, hends, fun y hy => ?_⟩
      obtain hy | hy := List.mem_append.mp hy
      · exact hall y hy
      · rw [List.mem_singleton.mp hy]
        exact hx

/-- The rule a hysteresis follows, from one reading to the next: a raised latch
asks whether the reading holds, a clear one whether the last `n` raise. -/
theorem latched_next (hheld : ∀ x, raised x → held x) {on on' : Prop} {hist : List α} {x : α}
    (h : on ↔ Latched (n + 1) raised held hist) (hset : on → (on' ↔ held x))
    (hclear : ¬ on → (on' ↔ Ends (n + 1) raised (hist ++ [x]))) :
    on' ↔ Latched (n + 1) raised held (hist ++ [x]) := by
  rw [latched_snoc, ← h]
  have hx : Ends (n + 1) raised (hist ++ [x]) → held x := fun he =>
    hheld x ((ends_snoc hist x).mp he).1
  by_cases hon : on
  · rw [hset hon]
    exact ⟨fun hhold => .inr ⟨hon, hhold⟩, fun hor => hor.elim hx And.right⟩
  · rw [hclear hon]
    exact ⟨.inl, fun hor => hor.elim id fun hh => absurd hh.1 hon⟩

variable {σ ι : Type}

/-- The readings a run shows: some inputs end in one, some do not. -/
def readings (step : σ → ι → σ) (seen : σ → ι → Option α) : σ → List ι → List α
  | _, [] => []
  | s, i :: is => (seen s i).toList ++ readings step seen (step s i) is

/-- What each input keeps of a state beside its history, every run keeps. -/
theorem history_run (step : σ → ι → σ) (seen : σ → ι → Option α) {Inv : List α → σ → Prop}
    (hstep : ∀ hist s i, Inv hist s → Inv (hist ++ (seen s i).toList) (step s i)) {s : σ}
    (h : Inv [] s) (is : List ι) : Inv (readings step seen s is) (is.foldl step s) := by
  have hfrom : ∀ (is : List ι) (hist : List α) (s : σ), Inv hist s →
      Inv (hist ++ readings step seen s is) (is.foldl step s) := by
    intro is
    induction is with
    | nil => intro hist s h; simpa [readings] using h
    | cons i is ih =>
      intro hist s h
      have hrest := ih _ _ (hstep hist s i h)
      rwa [List.append_assoc] at hrest
  exact hfrom is [] s h

end Hysteresis
