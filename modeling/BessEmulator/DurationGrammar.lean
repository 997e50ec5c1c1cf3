import BessEmulator.Duration
import Mathlib.Data.List.TakeWhile

/-!
# The grammar of durations

What a duration is, apart from how it is read: weeks alone, or days and a time
part behind a `T`, each a run of numbers with their units in order. The reader
accepts exactly that, as long as everything fits a word.
-/
namespace BessDurations

open Bess Bess.Duration

/-- A run of decimal digits. -/
structure Numeral where
  digits : List Char
  nonempty : digits ≠ []
  decimal : ∀ c ∈ digits, c.isDigit = true

def Numeral.value (n : Numeral) : Nat := n.digits.foldl (fun n c => 10 * n + U64.digit c) 0

/-- A text of numbers with units, any of the units left out and none moved, and
the seconds it comes to. -/
inductive Fields : List (Char × Nat) → List Char → Nat → Prop where
  | done {units} : Fields units [] 0
  | skip {unit units text s} : Fields units text s → Fields (unit :: units) text s
  | field {unit scale units text s} (n : Numeral) : n.value < U64.SIZE → Fields units text s →
      Fields ((unit, scale) :: units) (n.digits ++ unit :: text) (n.value * scale + s)

/-- A duration and its seconds. -/
inductive Spells : List Char → Nat → Prop where
  | weeks (n : Numeral) : n.value < U64.SIZE →
      Spells ('P' :: (n.digits ++ ['W'])) (n.value * 604800)
  | days {date s} : Fields [('D', 86400)] date s → date ≠ [] → Spells ('P' :: date) s
  | time {date time s k} : Fields [('D', 86400)] date s →
      Fields [('H', 3600), ('M', 60), ('S', 1)] time k → time ≠ [] →
      Spells ('P' :: (date ++ 'T' :: time)) (s + k)

theorem Fields.of_dropWhile {p : Char × Nat → Bool} {units : List (Char × Nat)} {part : List Char}
    {s : Nat} (h : Fields (units.dropWhile p) part s) : Fields units part s := by
  induction units with
  | nil => exact h
  | cons unit units ih =>
    rw [List.dropWhile_cons] at h
    split at h
    · exact .skip (ih h)
    · exact h

/-- The characters of a run are digits and units. -/
theorem Fields.mem {units : List (Char × Nat)} {part : List Char} {s : Nat}
    (h : Fields units part s) {c : Char} (hc : c ∈ part) :
    c.isDigit = true ∨ c ∈ units.map Prod.fst := by
  induction h with
  | done => cases hc
  | skip _ ih => exact (ih hc).imp_right (List.mem_cons_of_mem _)
  | field n _ _ ih =>
    obtain hdigit | hrest := List.mem_append.mp hc
    · exact Or.inl (n.decimal c hdigit)
    · obtain rfl | hrest := List.mem_cons.mp hrest
      · exact Or.inr List.mem_cons_self
      · exact (ih hrest).imp_right (List.mem_cons_of_mem _)

theorem Fields.notMem {units : List (Char × Nat)} {part : List Char} {s : Nat}
    (h : Fields units part s) {c : Char}
    (hc : c.isDigit = false ∧ c ∉ units.map Prod.fst) : c ∉ part := by
  intro hmem
  obtain hdigit | hunit := h.mem hmem
  · rw [hc.1] at hdigit
    cases hdigit
  · exact hc.2 hunit

/-- What the reader takes is a run: the digits it holds, then the part. -/
theorem fields_of_add {text : String} {part : List Char} {units : List (Char × Nat)}
    {digits : List Char} (hdigits : ∀ c ∈ digits, c.isDigit = true) {total s : Nat}
    (h : add text part units digits total = .ok s) :
    ∃ k, Fields units (digits ++ part) k ∧ s = total + k := by
  induction part generalizing units digits total with
  | nil =>
    rw [add] at h
    split at h
    · rename_i hempty
      cases h
      rw [List.isEmpty_iff.mp hempty]
      exact ⟨0, .done, rfl⟩
    · cases h
  | cons c part ih =>
    rw [add] at h
    split at h
    · rename_i hc
      have hall : ∀ x ∈ digits ++ [c], x.isDigit = true := by
        intro x hx
        obtain hx | hx := List.mem_append.mp hx
        · exact hdigits x hx
        · rw [List.mem_singleton.mp hx]
          exact hc
      have hrun := ih hall h
      rwa [List.append_assoc, List.singleton_append] at hrun
    · split at h
      · cases h
      · rename_i unit scale rest hdrop
        have hunit : unit = c := by
          have hhead := List.head?_dropWhile_not (fun u : Char × Nat => decide (u.1 ≠ c)) units
          rw [hdrop] at hhead
          simpa using hhead
        split at h
        · cases h
        · rename_i hne
          split at h
          · cases h
          · rename_i value hvalue
            obtain ⟨rfl, hfits⟩ := U64.checked_eq_some.mp hvalue
            split at h
            · cases h
            · rename_i sum hsum
              obtain ⟨product, hproduct, hadd⟩ := Option.bind_eq_some_iff.mp hsum
              obtain ⟨hproduct, -⟩ := U64.checked_eq_some.mp hproduct
              obtain ⟨hadd, -⟩ := U64.checked_eq_some.mp hadd
              obtain ⟨k, hk, hs⟩ := ih (by simp) h
              have hnumeral : digits ≠ [] := fun he => hne (by rw [he]; rfl)
              have hrun : Fields units (digits ++ c :: part)
                  (Numeral.value ⟨digits, hnumeral, hdigits⟩ * scale + k) := by
                apply Fields.of_dropWhile
                rw [hdrop, hunit]
                exact .field ⟨digits, hnumeral, hdigits⟩ hfits hk
              refine ⟨_, hrun, ?_⟩
              simp only [Numeral.value]
              omega

theorem add_digits (text : String) {ds : List Char} (h : ∀ c ∈ ds, c.isDigit = true)
    (part : List Char) (units : List (Char × Nat)) (digits : List Char) (total : Nat) :
    add text (ds ++ part) units digits total = add text part units (digits ++ ds) total := by
  induction ds generalizing digits with
  | nil => rw [List.nil_append, List.append_nil]
  | cons c ds ih =>
    rw [List.cons_append, add, if_pos (h c List.mem_cons_self),
      ih (fun x hx => h x (List.mem_cons_of_mem c hx)), List.append_assoc, List.singleton_append]

/-- A unit that does not come up may be offered or not. -/
theorem add_skip (text : String) {unit : Char × Nat} {part : List Char}
    (h : unit.1 ∉ part) (units : List (Char × Nat)) (digits : List Char) (total : Nat) :
    add text part (unit :: units) digits total = add text part units digits total := by
  induction part generalizing digits with
  | nil => rfl
  | cons c part ih =>
    obtain ⟨hne, hrest⟩ := not_or.mp (mt List.mem_cons.mpr h)
    rw [add, add, ih hrest, List.dropWhile_cons_of_pos (by simpa using hne)]

/-- A run is read, and comes to its seconds. -/
theorem add_of_fields (text : String) {units : List (Char × Nat)} {part : List Char} {k : Nat}
    (h : Fields units part k) (hunits : (units.map Prod.fst).Nodup)
    (hletters : ∀ u ∈ units, u.1.isDigit = false) {total : Nat} (hfits : total + k < U64.SIZE) :
    add text part units [] total = .ok (total + k) := by
  induction h generalizing total with
  | done => rfl
  | @skip unit units part k hrun ih =>
    obtain ⟨hfresh, hrest⟩ := List.nodup_cons.mp hunits
    have hletter := hletters unit List.mem_cons_self
    rw [add_skip text (hrun.notMem ⟨hletter, hfresh⟩)]
    exact ih hrest (fun u hu => hletters u (List.mem_cons_of_mem unit hu)) hfits
  | @field unit scale units part k n hn hrun ih =>
    obtain ⟨-, hrest⟩ := List.nodup_cons.mp hunits
    have hletter : unit.isDigit = false := hletters (unit, scale) List.mem_cons_self
    have hvalue : U64.ofDigits n.digits = some n.value := U64.checked_eq_some.mpr ⟨rfl, hn⟩
    have hsum : (U64.checkedMul n.value scale).bind (U64.checkedAdd total) =
        some (total + n.value * scale) := by
      rw [U64.checkedMul, U64.checked_eq_some.mpr ⟨rfl, by omega⟩, Option.bind_some]
      exact U64.checked_eq_some.mpr ⟨rfl, by omega⟩
    have hnext := ih hrest (fun u hu => hletters u (List.mem_cons_of_mem _ hu))
      (by omega : total + n.value * scale + k < U64.SIZE)
    rw [add_digits text n.decimal, List.nil_append, add, if_neg (by simp [hletter]),
      List.dropWhile_cons_of_neg (by simp)]
    simp only [List.isEmpty_iff, n.nonempty, if_false, hvalue, hsum, hnext]
    rw [Nat.add_assoc]

/-- What stands behind the `T`, if there is one. -/
def behind : Option (List Char) → List Char
  | none => []
  | some time => 'T' :: time

/-- A text splits at its first `T` in one way. -/
theorem split_behind {date : List Char} (h : 'T' ∉ date) (time : Option (List Char)) :
    (date ++ behind time).takeWhile (fun c => c ≠ 'T') = date ∧
      ((date ++ behind time).dropWhile fun c => c ≠ 'T').tail? = time := by
  have hall : ∀ c ∈ date, decide (c ≠ 'T') = true := by
    intro c hc
    rw [decide_eq_true_eq]
    rintro rfl
    exact h hc
  rw [List.takeWhile_append_of_pos hall, List.dropWhile_append_of_pos hall]
  cases time with
  | none => simp [behind]
  | some time => simp [behind]

theorem exists_behind (rest : List Char) : ∃ date time, 'T' ∉ date ∧ rest = date ++ behind time := by
  refine ⟨rest.takeWhile fun c => c ≠ 'T', (rest.dropWhile fun c => c ≠ 'T').tail?, ?_, ?_⟩
  · intro hmem
    simpa using List.mem_takeWhile_imp hmem
  · have hsplit := List.takeWhile_append_dropWhile (p := fun c => decide (c ≠ 'T')) (l := rest)
    cases hdrop : rest.dropWhile fun c => decide (c ≠ 'T') with
    | nil =>
      rw [hdrop] at hsplit
      exact hsplit.symm
    | cons c tail =>
      have hc : c = 'T' := by
        have hhead := List.head?_dropWhile_not (fun c : Char => decide (c ≠ 'T')) rest
        rw [hdrop] at hhead
        simpa using hhead
      rw [hdrop, hc] at hsplit
      exact hsplit.symm

/-- Weeks are a whole date part: a `W` and no `D`, or no `W` at all. -/
theorem date_fields {date : List Char} {s : Nat} (h : Fields DATE_UNITS date s) :
    (∃ n : Numeral, n.value < U64.SIZE ∧ date = n.digits ++ ['W'] ∧ s = n.value * 604800) ∨
      ('W' ∈ date ∧ 'D' ∈ date) ∨ ('W' ∉ date ∧ Fields [('D', 86400)] date s) := by
  cases h with
  | done => exact Or.inr (Or.inr ⟨by simp, .done⟩)
  | skip hdays => exact Or.inr (Or.inr ⟨hdays.notMem (by decide), hdays⟩)
  | field n hn hdays =>
    cases hdays with
    | done => exact Or.inl ⟨n, hn, rfl, Nat.add_zero _⟩
    | skip hnone =>
      cases hnone
      exact Or.inl ⟨n, hn, rfl, Nat.add_zero _⟩
    | field => exact Or.inr (Or.inl ⟨by simp, by simp⟩)

/-- What is read is a duration. -/
theorem spells_of_parse {text : String} {s : Nat} (h : parse text = .ok s) :
    Spells text.toList s := by
  rw [parse] at h
  split at h
  · cases h
  · rename_i rest htext
    rw [htext]
    obtain ⟨date, time, hT, rfl⟩ := exists_behind rest
    obtain ⟨hdate, htime⟩ := split_behind hT time
    simp only [parseRest, hdate, htime] at h
    split_ifs at h with _ _ _ hweeks hempty hT
    split at h
    · cases h
    · rename_i total htotal
      obtain ⟨k, hk, hsum⟩ := fields_of_add (by simp) htotal
      rw [List.nil_append] at hk
      rw [Nat.zero_add] at hsum
      subst hsum
      obtain ⟨n, hn, rfl, rfl⟩ | ⟨hW, hD⟩ | ⟨hW, hdays⟩ := date_fields hk
      · cases time with
        | none =>
          cases h
          rw [behind, List.append_nil]
          exact .weeks n hn
        | some time => simp at hweeks
      · simp [hW, hD] at hweeks
      · cases time with
        | none =>
          cases h
          rw [behind, List.append_nil]
          exact .days hdays (by simpa using hempty)
        | some time =>
          obtain ⟨m, hm, rfl⟩ := fields_of_add (by simp) h
          exact .time hdays hm (by simpa using hT)
  · cases h

theorem any_either {a b : Char} {chars : List Char} (ha : a ∉ chars) (hb : b ∉ chars) :
    (chars.any fun c => c = a ∨ c = b) = false := by
  rw [List.any_eq_false]
  intro c hc
  rw [decide_eq_true_eq]
  rintro (rfl | rfl)
  · exact ha hc
  · exact hb hc

/-- The characters of a text of runs are digits, units and the `T`. -/
theorem notMem_text {c : Char} {date : List Char} {time : Option (List Char)} {k : Nat}
    (hdate : Fields DATE_UNITS date k) (htime : ∀ t ∈ time, ∃ m, Fields TIME_UNITS t m)
    (hc : c.isDigit = false ∧ c ≠ 'T' ∧ c ∉ DATE_UNITS.map Prod.fst ∧ c ∉ TIME_UNITS.map Prod.fst) :
    c ∉ date ++ behind time := by
  obtain ⟨hdigit, hT, hdays, hhours⟩ := hc
  intro hmem
  obtain hmem | hmem := List.mem_append.mp hmem
  · exact hdate.notMem ⟨hdigit, hdays⟩ hmem
  · cases time with
    | none => cases hmem
    | some t =>
      obtain rfl | hmem := List.mem_cons.mp hmem
      · exact hT rfl
      · obtain ⟨m, hm⟩ := htime t rfl
        exact hm.notMem ⟨hdigit, hhours⟩ hmem

/-- No early refusal concerns a run of date units and one of time units, but for
weeks among other parts and parts that are empty. -/
theorem parseRest_eq (text : String) {date : List Char} (time : Option (List Char)) {k : Nat}
    (hdate : Fields DATE_UNITS date k) (hfits : k < U64.SIZE)
    (htime : ∀ t ∈ time, ∃ m, Fields TIME_UNITS t m)
    (hweeks : 'W' ∈ date → 'D' ∉ date ∧ time = none) (hne : date = [] → time ≠ none)
    (hpart : time ≠ some []) :
    parseRest text (date ++ behind time) =
      match time with
      | none => .ok k
      | some time => add text time TIME_UNITS [] k := by
  obtain ⟨hhead, htail⟩ := split_behind (hdate.notMem (by decide) : 'T' ∉ date) time
  have hpoint : '.' ∉ date ++ behind time := notMem_text hdate htime (by decide)
  have hcomma : ',' ∉ date ++ behind time := notMem_text hdate htime (by decide)
  have hmonths := any_either (hdate.notMem (by decide) : 'Y' ∉ date)
    (hdate.notMem (by decide) : 'M' ∉ date)
  have hmissing := any_either (hdate.notMem (by decide) : 'H' ∉ date)
    (hdate.notMem (by decide) : 'S' ∉ date)
  have hcombined : (date.contains 'W' && (date.contains 'D' || time.isSome)) = false := by
    by_cases hW : 'W' ∈ date
    · obtain ⟨hD, hnone⟩ := hweeks hW
      simp [hD, hnone]
    · simp [hW]
  have hempty : (date.isEmpty && time.all List.isEmpty) = false := by
    cases time with
    | none =>
      have hdate : date ≠ [] := fun h => hne h rfl
      simp [hdate]
    | some t =>
      have ht : t ≠ [] := fun h => hpart (by rw [h])
      simp [ht]
  have hadd := add_of_fields text hdate (by decide) (by decide) (by omega : 0 + k < U64.SIZE)
  rw [Nat.zero_add] at hadd
  simp only [parseRest, hhead, htail, any_either hpoint hcomma, hmonths, hmissing, hcombined,
    hempty, hpart, hadd, if_false, Bool.false_eq_true]
  cases time with
  | none => rfl
  | some t => rfl

/-- A duration that fits is read, and comes to its seconds. -/
theorem parse_of_spells {text : String} {s : Nat} (h : Spells text.toList s)
    (hfits : s < U64.SIZE) : parse text = .ok s := by
  rw [parse]
  generalize text.toList = chars at h
  cases h with
  | weeks n hn =>
    have hdate : Fields DATE_UNITS (n.digits ++ ['W']) (n.value * 604800 + 0) := .field n hn .done
    have hweek : Fields [('W', 604800)] (n.digits ++ ['W']) (n.value * 604800 + 0) :=
      .field n hn .done
    rw [Nat.add_zero] at hdate
    have hread := parseRest_eq text none hdate hfits (by simp)
      (fun _ => ⟨hweek.notMem (by decide), rfl⟩) (by simp) (by simp)
    rwa [behind, List.append_nil] at hread
  | days hdays hne =>
    have hread := parseRest_eq text none (.skip hdays) hfits (by simp)
      (fun hW => absurd hW (hdays.notMem (by decide))) (fun h => absurd h hne) (by simp)
    rwa [behind, List.append_nil] at hread
  | @time date time m k hdays htime hne =>
    have hread := parseRest_eq text (some time) (.skip hdays) (by omega)
      (fun t ht => by cases ht; exact ⟨k, htime⟩)
      (fun hW => absurd hW (hdays.notMem (by decide))) (by simp) (by simpa using hne)
    rw [behind] at hread
    exact hread.trans (add_of_fields text htime (by decide) (by decide) hfits)

/-- A text reads as `s` seconds if and only if it spells a duration of so many seconds and they
fit a word; any other is refused. -/
theorem parse_grammar (text : String) :
    (∀ s, parse text = .ok s ↔ Spells text.toList s ∧ s < U64.SIZE) ∧
      ((¬∃ s, Spells text.toList s ∧ s < U64.SIZE) → ∃ e, parse text = .error e) := by
  have hiff : ∀ s, parse text = .ok s ↔ Spells text.toList s ∧ s < U64.SIZE := fun s =>
    ⟨fun h => ⟨spells_of_parse h, parse_lt h⟩, fun h => parse_of_spells h.1 h.2⟩
  refine ⟨hiff, fun hnone => ?_⟩
  cases hparse : parse text with
  | error e => exact ⟨e, rfl⟩
  | ok s => exact absurd ⟨s, (hiff s).mp hparse⟩ hnone

end BessDurations
