import Mathlib.Data.List.Chain
import Mathlib.Tactic

/-!
# Filing under a changing key

A list taken apart, in its order, into stretches of one key each: a stretch
ends where the key changes, so neighbours differ.
-/
namespace Filing

variable {α κ : Type}

/-- `groups` is `l` cut where its key changes, each stretch under its key. -/
structure Filed (key : α → κ) (groups : List (κ × List α)) (l : List α) : Prop where
  flatten : groups.flatMap Prod.snd = l
  filled : ∀ g ∈ groups, g.2 ≠ []
  keyed : ∀ g ∈ groups, ∀ a ∈ g.2, key a = g.1
  apart : (groups.map Prod.fst).IsChain (· ≠ ·)

variable {key : α → κ} {groups : List (κ × List α)} {l : List α}

theorem filed_nil : Filed key [] [] :=
  ⟨rfl, fun _ h => absurd h List.not_mem_nil, fun _ h => absurd h List.not_mem_nil, .nil⟩

/-- One more of the key filed last joins its stretch. -/
theorem Filed.grow {k : κ} {g : List α} (h : Filed key (groups ++ [(k, g)]) l) {a : α} (ha : key a = k) :
    Filed key (groups ++ [(k, g ++ [a])]) (l ++ [a]) where
  flatten := by
    rw [← h.flatten]
    simp
  filled x hx := by
    obtain hx | hx := List.mem_append.mp hx
    · exact h.filled x (List.mem_append_left _ hx)
    · rw [List.mem_singleton.mp hx]
      simp
  keyed x hx b hb := by
    obtain hx | hx := List.mem_append.mp hx
    · exact h.keyed x (List.mem_append_left _ hx) b hb
    · rw [List.mem_singleton.mp hx] at hb ⊢
      obtain hb | hb := List.mem_append.mp hb
      · exact h.keyed (k, g) (List.mem_append_right _ List.mem_cons_self) b hb
      · rw [List.mem_singleton.mp hb]
        exact ha
  apart := by
    have happart := h.apart
    simp only [List.map_append, List.map_cons, List.map_nil] at happart ⊢
    exact happart

/-- One of another key begins a stretch. -/
theorem Filed.start (h : Filed key groups l) {a : α} (ha : (groups.map Prod.fst).getLast? ≠ some (key a)) :
    Filed key (groups ++ [(key a, [a])]) (l ++ [a]) where
  flatten := by
    rw [← h.flatten]
    simp
  filled x hx := by
    obtain hx | hx := List.mem_append.mp hx
    · exact h.filled x hx
    · rw [List.mem_singleton.mp hx]
      simp
  keyed x hx b hb := by
    obtain hx | hx := List.mem_append.mp hx
    · exact h.keyed x hx b hb
    · rw [List.mem_singleton.mp hx] at hb ⊢
      rw [List.mem_singleton.mp hb]
  apart := by
    rw [List.map_append, List.isChain_append]
    refine ⟨h.apart, .singleton _, fun x hx y hy hxy => ha ?_⟩
    rw [Option.mem_def] at hx hy
    have hy : key a = y := by simpa using hy
    rw [hx, hxy, hy]

/-- Nothing is filed twice or left out. -/
theorem Filed.length (h : Filed key groups l) : (groups.map fun g => g.2.length).sum = l.length := by
  rw [← h.flatten, List.length_flatMap]

theorem Filed.tail {g : κ × List α} {gs : List (κ × List α)} (h : Filed key (g :: gs) l) :
    Filed key gs (gs.flatMap Prod.snd) where
  flatten := rfl
  filled x hx := h.filled x (List.mem_cons_of_mem _ hx)
  keyed x hx := h.keyed x (List.mem_cons_of_mem _ hx)
  apart := by
    have happart := h.apart
    rw [List.map_cons] at happart
    exact happart.tail

/-- After a stretch the key is another. -/
theorem Filed.next {g : κ × List α} {gs : List (κ × List α)} (h : Filed key (g :: gs) l) :
    ∀ a ∈ (gs.flatMap Prod.snd).head?, key a ≠ g.1 := by
  cases gs with
  | nil => exact fun a ha => nomatch ha
  | cons g' gs =>
    intro a ha
    have happart := h.apart
    rw [List.map_cons, List.map_cons, List.isChain_cons_cons] at happart
    have hfilled := h.filled g' (by simp)
    rw [List.flatMap_cons, List.head?_append_of_ne_nil _ hfilled] at ha
    rw [h.keyed g' (by simp) a (List.mem_of_mem_head? ha)]
    exact happart.1.symm

/-- The first stretch is the list's as far as its key goes. -/
theorem Filed.first {g : κ × List α} {gs : List (κ × List α)} (h : Filed key (g :: gs) l) {p : α → Bool}
    (hp : ∀ a, p a = true ↔ key a = g.1) :
    l.takeWhile p = g.2 ∧ l.dropWhile p = gs.flatMap Prod.snd ∧ ∃ a, l.head? = some a ∧ key a = g.1 := by
  have hkeyed : ∀ a ∈ g.2, p a = true := fun a ha => (hp a).mpr (h.keyed g List.mem_cons_self a ha)
  have hnext : ∀ b ∈ (gs.flatMap Prod.snd).head?, ¬p b = true := fun b hb => mt (hp b).mp (h.next b hb)
  obtain ⟨a, as, has⟩ := List.exists_cons_of_ne_nil (h.filled g List.mem_cons_self)
  have hflatten := h.flatten
  rw [List.flatMap_cons] at hflatten
  rw [← hflatten, List.takeWhile_append_of_pos hkeyed, List.dropWhile_append_of_pos hkeyed]
  have ha : a ∈ g.2 := by
    rw [has]
    exact List.mem_cons_self
  cases hrest : gs.flatMap Prod.snd with
  | nil => exact ⟨by simp, rfl, a, by rw [has]; rfl, h.keyed g List.mem_cons_self a ha⟩
  | cons b bs =>
    have hb : ¬p b = true := hnext b (by rw [hrest]; rfl)
    rw [List.takeWhile_cons_of_neg hb, List.append_nil, List.dropWhile_cons_of_neg hb]
    exact ⟨rfl, rfl, a, by rw [has]; rfl, h.keyed g List.mem_cons_self a ha⟩

/-- A list is filed in one way. -/
theorem Filed.unique {groups' : List (κ × List α)} (h : Filed key groups l) (h' : Filed key groups' l) :
    groups = groups' := by
  classical
  induction groups generalizing l groups' with
  | nil =>
    cases groups' with
    | nil => rfl
    | cons g' gs' =>
      have hnil := h'.flatten.trans h.flatten.symm
      rw [List.flatMap_cons, List.flatMap_nil, List.append_eq_nil_iff] at hnil
      exact absurd hnil.1 (h'.filled g' List.mem_cons_self)
  | cons g gs ih =>
    cases groups' with
    | nil =>
      have hnil := h.flatten.trans h'.flatten.symm
      rw [List.flatMap_cons, List.flatMap_nil, List.append_eq_nil_iff] at hnil
      exact absurd hnil.1 (h.filled g List.mem_cons_self)
    | cons g' gs' =>
      obtain ⟨htake, hdrop, a, ha, hkey⟩ := h.first (p := fun a => decide (key a = g.1)) fun _ => decide_eq_true_iff
      obtain ⟨a', ha', hkey'⟩ := (h'.first (p := fun a => decide (key a = g'.1)) fun _ => decide_eq_true_iff).2.2
      obtain rfl : a = a' := Option.some.inj (ha.symm.trans ha')
      have hk : g.1 = g'.1 := hkey.symm.trans hkey'
      obtain ⟨htake', hdrop', -⟩ := h'.first (p := fun a => decide (key a = g.1)) fun a => by
        rw [hk]
        exact decide_eq_true_iff
      have hrest := h'.tail
      rw [← hdrop', hdrop] at hrest
      rw [Prod.ext hk (htake.symm.trans htake'), ih h.tail hrest]

end Filing
