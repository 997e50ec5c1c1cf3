import Mathlib.Data.Set.Basic
import Mathlib.Tactic

/-!
# Steps with a footprint

A fold of steps over a memory, each of which writes inside its own footprint
and reads nothing outside it. Where the footprints do not meet, what a step
leaves in its own is what the fold leaves there.
-/
namespace Footprint

variable {M ι α β : Type} (get : M → ι → α) (foot : β → Set ι) (step : M → β → M)

/-- A step keeps to its footprint. -/
structure Local : Prop where
  frame : ∀ m b i, i ∉ foot b → get (step m b) i = get m i
  inside : ∀ m m' b, (∀ i ∈ foot b, get m i = get m' i) →
    ∀ i ∈ foot b, get (step m b) i = get (step m' b) i

variable {get foot step}

/-- A place every step leaves alone is left alone. -/
theorem foldl_same {i : ι} {l : List β} (h : ∀ b ∈ l, ∀ m, get (step m b) i = get m i) (m : M) :
    get (l.foldl step m) i = get m i := by
  induction l generalizing m with
  | nil => rfl
  | cons b l ih =>
    rw [List.foldl_cons, ih fun c hc => h c (List.mem_cons_of_mem b hc), h b List.mem_cons_self]

theorem foldl_frame (hlocal : Local get foot step) {i : ι} {l : List β} (h : ∀ b ∈ l, i ∉ foot b)
    (m : M) : get (l.foldl step m) i = get m i :=
  foldl_same (fun b hb m => hlocal.frame m b i (h b hb)) m

/-- Where footprints do not meet, each step acts alone. -/
theorem foldl_inside (hlocal : Local get foot step) {l : List β}
    (hapart : l.Pairwise fun b c => ∀ i ∈ foot b, i ∉ foot c) {b : β} (hb : b ∈ l) {i : ι}
    (hi : i ∈ foot b) (m : M) : get (l.foldl step m) i = get (step m b) i := by
  induction l generalizing m with
  | nil => exact absurd hb List.not_mem_nil
  | cons c l ih =>
    obtain ⟨hc, hl⟩ := List.pairwise_cons.mp hapart
    rw [List.foldl_cons]
    obtain rfl | hmem := List.mem_cons.mp hb
    · exact foldl_frame hlocal (fun d hd => hc d hd i hi) _
    · rw [ih hl hmem]
      -- the step in front writes elsewhere, so this one reads the same either way
      refine hlocal.inside _ _ b (fun j hj => hlocal.frame m c j fun hjc => ?_) i hi
      exact hc b hmem j hjc hj

end Footprint
