import Mathlib.Algebra.BigOperators.Group.List.Basic
import BessEmulator.Traces

/-!
# The time between two events of a run

Each input takes some time. A law "at least so long after the one, the other"
follows from a fact about the time gone by, set up by the first event, carried
over every input and spent by the second.
-/
namespace Traces

variable {σ ι T : Type} [AddMonoid T]

/-- What the inputs of a run take together. -/
def spent (cost : ι → T) (is : List ι) : T := (is.map cost).sum

@[simp] theorem spent_nil (cost : ι → T) : spent cost [] = 0 := rfl

@[simp] theorem spent_cons (cost : ι → T) (i : ι) (is : List ι) :
    spent cost (i :: is) = cost i + spent cost is := by
  simp [spent]

theorem spent_append (cost : ι → T) (is js : List ι) :
    spent cost (is ++ js) = spent cost is + spent cost js := by
  simp [spent]

/-- Wherever `A` happens along a run and `B` later, the input of `A` and those
between the two are in relation. -/
def Between (step : σ → ι → σ) (A B : σ → ι → Prop) (R : ι → List ι → Prop) (s : σ)
    (is : List ι) : Prop :=
  ∀ pre a mid b post, is = pre ++ a :: (mid ++ b :: post) →
    A (pre.foldl step s) a → B (mid.foldl step (step (pre.foldl step s) a)) b → R a mid

variable {step : σ → ι → σ} {A B : σ → ι → Prop} {cost : ι → T} {ok : ι → Prop}

/-- A fact about the time gone by, carried over a stretch of inputs. -/
theorem carried (J : T → σ → Prop) {is : List ι} (hok : ∀ i ∈ is, ok i)
    (hstep : ∀ e s i, ok i → J e s → J (e + cost i) (step s i)) {e : T} {s : σ} (h : J e s) :
    J (e + spent cost is) (is.foldl step s) := by
  induction is generalizing e s with
  | nil => simpa using h
  | cons i is ih =>
    have hi := hstep e s i (hok i (by simp)) h
    have hrest := ih (fun j hj => hok j (by simp [hj])) hi
    rwa [add_assoc, ← spent_cons] at hrest

/-- The law: `A` sets the fact up, every input carries it, and where it holds
`B` waits out the interval. -/
theorem spaced [LE T] (J : T → σ → Prop) {least : T} {is : List ι} (hok : ∀ i ∈ is, ok i)
    (hA : ∀ s i, A s i → J 0 (step s i))
    (hstep : ∀ e s i, ok i → J e s → J (e + cost i) (step s i))
    (hB : ∀ e s i, J e s → B s i → least ≤ e) (s : σ) :
    Between step A B (fun _ mid => least ≤ spent cost mid) s is := by
  rintro pre a mid b post rfl ha hb
  have hmid : ∀ i ∈ mid, ok i := fun i hi => hok i (by simp [hi])
  have hcarried := carried J hmid hstep (hA _ a ha)
  rw [zero_add] at hcarried
  exact hB _ _ b hcarried hb

end Traces
