import Mathlib.Data.List.Infix
import Mathlib.Tactic

/-!
# The first occurrence of a pattern

Where a pattern first stands in a text. Whether it stands somewhere is decided by the
characters it would cover, so texts that agree so far have the same occurrences there.
-/
namespace Occurrence

variable {α : Type} [DecidableEq α]

/-- The first index the pattern stands at. -/
def find (pattern text : List α) : Option Nat :=
  (List.range (text.length + 1)).find? fun i => pattern.isPrefixOf (text.drop i)

variable {pattern text : List α}

theorem find_iff {i : Nat} : find pattern text = some i ↔
    i ≤ text.length ∧ pattern <+: text.drop i ∧ ∀ j < i, ¬pattern <+: text.drop j := by
  rw [find, List.find?_range_eq_some, List.mem_range, Nat.lt_succ_iff, List.isPrefixOf_iff_prefix]
  constructor
  · rintro ⟨hhere, hle, hbefore⟩
    refine ⟨hle, hhere, fun j hj h => ?_⟩
    have hnot := hbefore j hj
    rw [List.isPrefixOf_iff_prefix.mpr h] at hnot
    cases hnot
  · rintro ⟨hle, hhere, hbefore⟩
    refine ⟨hhere, hle, fun j hj => ?_⟩
    rw [Bool.not_eq_true', Bool.eq_false_iff, Ne, List.isPrefixOf_iff_prefix]
    exact hbefore j hj

omit [DecidableEq α] in
/-- An occurrence is the pattern among the characters it covers. -/
theorem prefix_drop_iff {j : Nat} :
    pattern <+: text.drop j ↔ (text.drop j).take pattern.length = pattern := by
  rw [List.prefix_iff_eq_take, eq_comm]

omit [DecidableEq α] in
/-- Texts that agree up to an index have the same occurrences up to there. -/
theorem occurs_congr {text' : List α} {n j : Nat} (hagree : text.take n = text'.take n)
    (hj : j + pattern.length ≤ n) : pattern <+: text.drop j ↔ pattern <+: text'.drop j := by
  have hcover : ∀ t : List α, (t.drop j).take pattern.length = ((t.take n).drop j).take pattern.length := by
    intro t
    rw [List.drop_take, List.take_take, min_eq_left (by omega)]
  rw [prefix_drop_iff, prefix_drop_iff, hcover text, hcover text', hagree]

/-- An occurrence ends within the text. -/
theorem find_fits {i : Nat} (h : find pattern text = some i) : i + pattern.length ≤ text.length := by
  obtain ⟨hle, hhere, -⟩ := find_iff.mp h
  have hlength := hhere.length_le
  rw [List.length_drop] at hlength
  omega

/-- The first occurrence stays the first in a text that agrees up to its end. -/
theorem find_congr {text' : List α} {i : Nat} (h : find pattern text = some i)
    (hagree : text.take (i + pattern.length) = text'.take (i + pattern.length)) (hlong : i ≤ text'.length) :
    find pattern text' = some i := by
  obtain ⟨-, hhere, hbefore⟩ := find_iff.mp h
  apply find_iff.mpr
  constructor
  · exact hlong
  constructor
  · exact (occurs_congr hagree (le_refl _)).mp hhere
  · intro j hj hearlier
    exact hbefore j hj ((occurs_congr hagree (by omega)).mpr hearlier)

/-- The first occurrence in a middle part is the first if none starts before that part. -/
theorem find_inner {before inner after : List α} {k : Nat} (h : find pattern inner = some k)
    (hbefore : ∀ j < before.length, ¬pattern <+: (before ++ inner ++ after).drop j) :
    find pattern (before ++ inner ++ after) = some (before.length + k) := by
  have hfits := find_fits h
  obtain ⟨hle, hhere, hfirst⟩ := find_iff.mp h
  have hinside : ∀ i, (before ++ inner ++ after).drop (before.length + i) = (inner ++ after).drop i := by
    intro i
    rw [List.append_assoc, ← List.drop_drop, List.drop_left]
  apply find_iff.mpr
  constructor
  · rw [List.length_append, List.length_append]
    omega
  constructor
  · rw [hinside, List.drop_append_of_le_length hle]
    exact hhere.trans (List.prefix_append _ _)
  · intro j hj hearlier
    by_cases hout : j < before.length
    · exact hbefore j hout hearlier
    · obtain ⟨i, rfl⟩ := Nat.exists_eq_add_of_le (not_lt.mp hout)
      rw [hinside] at hearlier
      have hcovered : (inner ++ after).take inner.length = inner.take inner.length := by
        rw [List.take_left, List.take_length]
      exact hfirst i (by omega) ((occurs_congr hcovered (by omega)).mp hearlier)

end Occurrence
