/-!
# Runs of a deterministic machine

A step function, a list of inputs, and what holds at every step of the run
they make: the rules by which a fact about one step becomes a fact about all.
-/
namespace Traces

variable {σ ι : Type} {step : σ → ι → σ} {P Q : σ → ι → Prop} {Inv : σ → Prop}

/-- What holds of every step along a run. -/
def Always (step : σ → ι → σ) (P : σ → ι → Prop) : σ → List ι → Prop
  | _, [] => True
  | s, i :: is => P s i ∧ Always step P (step s i) is

@[simp] theorem always_nil (s : σ) : Always step P s [] := trivial

@[simp] theorem always_cons (s : σ) (i : ι) (is : List ι) :
    Always step P s (i :: is) ↔ P s i ∧ Always step P (step s i) is := Iff.rfl

theorem always_append (s : σ) (is js : List ι) :
    Always step P s (is ++ js) ↔
      Always step P s is ∧ Always step P (is.foldl step s) js := by
  induction is generalizing s with
  | nil => simp
  | cons i is ih => simp only [List.cons_append, always_cons, ih, List.foldl_cons, and_assoc]

/-- What every step keeps, every run keeps. -/
theorem inv_run (hstep : ∀ s i, Inv s → Inv (step s i)) {s : σ} (h : Inv s) (is : List ι) :
    Inv (is.foldl step s) := by
  induction is generalizing s with
  | nil => exact h
  | cons i is ih => exact ih (hstep s i h)

/-- Where two facts about a step are one fact under an invariant, they are one along a run. -/
theorem always_congr (hstep : ∀ s i, Inv s → Inv (step s i))
    (hPQ : ∀ s i, Inv s → (P s i ↔ Q s i)) {s : σ} (h : Inv s) (is : List ι) :
    Always step P s is ↔ Always step Q s is := by
  induction is generalizing s with
  | nil => exact Iff.rfl
  | cons i is ih => exact and_congr (hPQ s i h) (ih (hstep s i h))

/-- An invariant that only holds while the steps behave decides between two facts alike. -/
theorem always_congr_while (hstep : ∀ s i, Inv s → Q s i → Inv (step s i))
    (hPQ : ∀ s i, Inv s → (P s i ↔ Q s i)) {s : σ} (h : Inv s) (is : List ι) :
    Always step P s is ↔ Always step Q s is := by
  induction is generalizing s with
  | nil => exact Iff.rfl
  | cons i is ih =>
    constructor
    · rintro ⟨hp, hrest⟩
      have hq := (hPQ s i h).mp hp
      exact ⟨hq, (ih (hstep s i h hq)).mp hrest⟩
    · rintro ⟨hq, hrest⟩
      exact ⟨(hPQ s i h).mpr hq, (ih (hstep s i h hq)).mpr hrest⟩

theorem always_of_inv (hstep : ∀ s i, Inv s → Inv (step s i)) (hP : ∀ s i, Inv s → P s i) {s : σ}
    (h : Inv s) (is : List ι) : Always step P s is := by
  induction is generalizing s with
  | nil => trivial
  | cons i is ih => exact ⟨hP s i h, ih (hstep s i h)⟩

theorem always_of_forall (hP : ∀ s i, P s i) (s : σ) (is : List ι) : Always step P s is := by
  induction is generalizing s with
  | nil => trivial
  | cons i is ih => exact ⟨hP s i, ih _⟩

/-- An invariant kept by the steps of a kind, and what it makes of every such step. -/
theorem always_while (hstep : ∀ s i, Inv s → P s i → Inv (step s i) ∧ Q s i) {s : σ} (h : Inv s)
    {is : List ι} (hP : Always step P s is) : Always step Q s is := by
  induction is generalizing s with
  | nil => trivial
  | cons i is ih =>
    obtain ⟨hinv, hq⟩ := hstep s i h hP.1
    exact ⟨hq, ih hinv hP.2⟩

end Traces
