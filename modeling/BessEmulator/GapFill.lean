import BessEmulator.Polyline
import BessEmulator.StationRows
import Mathlib.Data.Nat.Dist

/-!
# What stands in the gaps

The filling loops write into the series they read, and find an hour's
neighbours by bisection. What they leave is a function of the observations
alone: the line through them, or the nearest of them.
-/
namespace BessGaps

open Bess LongestRun

section

variable {F : Type} {series : Series F}

theorem mem_known {i : Nat} : i ∈ known series ↔ ∃ v, series[i]? = some (some v) := by
  rw [known, List.mem_filter, List.mem_range]
  constructor
  · rintro ⟨hlt, h⟩
    obtain ⟨v, hv⟩ := Option.isSome_iff_exists.mp h
    refine ⟨v, ?_⟩
    rw [List.getD_eq_getElem?_getD, List.getElem?_eq_getElem hlt, Option.getD_some] at hv
    rw [List.getElem?_eq_getElem hlt, hv]
  · rintro ⟨v, hv⟩
    refine ⟨(List.getElem?_eq_some_iff.mp hv).1, ?_⟩
    rw [List.getD_eq_getElem?_getD, hv, Option.getD_some]
    rfl

theorem known_ascending (series : Series F) : (known series).Pairwise (· < ·) :=
  List.Pairwise.filter _ List.pairwise_lt_range

theorem known_empty : (known series).isEmpty = true ↔ ∀ x ∈ series, x = none := by
  rw [List.isEmpty_iff, List.eq_nil_iff_forall_not_mem]
  constructor
  · intro h x hx
    obtain ⟨i, hi⟩ := List.mem_iff_getElem?.mp hx
    cases x with
    | none => rfl
    | some v => exact absurd (mem_known.mpr ⟨v, hi⟩) (h i)
  · intro h i hi
    obtain ⟨v, hv⟩ := mem_known.mp hi
    cases h _ (List.mem_of_getElem? hv)

/-- The bisection cuts the known hours at a missing one. -/
theorem neighbours_cut {ks : List Nat} (hks : ks.Pairwise (· < ·)) {i : Nat} (hi : i ∉ ks) :
    ∃ l r, ks = l ++ r ∧ (∀ k ∈ l, k < i) ∧ (∀ k ∈ r, i < k) ∧
      neighbours ks i = (l.getLast?, r.head?) := by
  have hpart : Bisect.Partitioned (fun k => decide (k < i)) ks := by
    refine hks.imp fun {a b} hab hb => ?_
    have := of_decide_eq_true hb
    exact decide_eq_true (hab.trans this)
  have hcut : ks.takeWhile (fun k => decide (k < i)) ++ ks.dropWhile (fun k => decide (k < i)) = ks :=
    List.takeWhile_append_dropWhile
  refine ⟨_, _, hcut.symm, fun k hk => ?_, fun k hk => ?_, ?_⟩
  · exact of_decide_eq_true (List.mem_takeWhile_imp (p := fun k => decide (k < i)) hk)
  · have hge := of_decide_eq_false (Bisect.not_of_mem_dropWhile hpart hk)
    have hne : k ≠ i := by
      rintro rfl
      exact hi (hcut ▸ List.mem_append_right _ hk)
    omega
  · have hpoint := Bisect.partitionPoint_eq hpart
    generalize ks.takeWhile (fun k => decide (k < i)) = l at hcut hpoint ⊢
    generalize ks.dropWhile (fun k => decide (k < i)) = r at hcut ⊢
    rw [neighbours, hpoint]
    refine Prod.ext ?_ ?_
    · rw [List.getLast?_eq_getElem?]
      split
      · next h0 => simp [List.eq_nil_of_length_eq_zero h0]
      · next h0 =>
        rw [← hcut, List.getElem?_append_left]
        exact Nat.sub_lt (Nat.pos_of_ne_zero h0) Nat.one_pos
    · rw [List.head?_eq_getElem?, ← hcut]
      dsimp only
      rw [List.getElem?_append_right (le_refl _), Nat.sub_self]

/-- A series in which the observations of another still stand. -/
structure Keeps (series s : Series F) : Prop where
  length : s.length = series.length
  observed : ∀ k ∈ known series, s[k]? = series[k]?

/-- What the loop leaves at an hour, if it fills a missing one with `g`. -/
def filled (series : Series F) (g : Nat → Option F) (i : Nat) : Option (Option F) :=
  series[i]?.map fun x => x.or (g i)

/-- The loop has passed the first `k` hours. -/
structure Passed (series : Series F) (g : Nat → Option F) (k : Nat) (s : Series F × UInt16) : Prop where
  length : s.1.length = series.length
  done : ∀ i < k, s.1[i]? = filled series g i
  ahead : ∀ i, k ≤ i → s.1[i]? = series[i]?
  count : s.2 = UInt16.ofNat ((series.take k).countP Option.isNone)

variable {g : Nat → Option F} {k : Nat} {s : Series F × UInt16}

theorem filled_known {i : Nat} (h : i ∈ known series) : filled series g i = series[i]? := by
  obtain ⟨v, hv⟩ := mem_known.mp h
  rw [filled, hv]
  rfl

theorem Passed.keeps (h : Passed series g k s) : Keeps series s.1 := by
  refine ⟨h.length, fun i hi => ?_⟩
  by_cases hik : i < k
  · rw [h.done i hik, filled_known hi]
  · exact h.ahead i (not_lt.mp hik)

/-- One pass fills its hour, reading only observations. -/
theorem fillHour_passed {value : Series F → Nat → Option Nat × Option Nat → Option (Option F)}
    (hvalue : ∀ s, Keeps series s → ∀ i < series.length, i ∉ known series →
      value s i (neighbours (known series) i) = some (g i))
    (h : Passed series g k s) (hk : k < series.length) :
    ∃ s', fillHour value (known series) s k = some s' ∧ Passed series g (k + 1) s' := by
  have hslot : s.1[k]? = some series[k] := by
    rw [h.ahead k (le_refl k), List.getElem?_eq_getElem hk]
  have htake : series.take (k + 1) = series.take k ++ [series[k]] := List.take_succ_eq_append_getElem hk
  have hstep : ∀ x n, s.1[k]? = some series[k] → x = (series[k]).or (g k) →
      n = UInt16.ofNat ((series.take (k + 1)).countP Option.isNone) →
        Passed series g (k + 1) (s.1.set k x, n) := by
    intro x n _ hx hn
    refine ⟨by rw [List.length_set, h.length], fun i hi => ?_, fun i hi => ?_, hn⟩
    · rcases Nat.lt_succ_iff_lt_or_eq.mp hi with hlt | rfl
      · rw [List.getElem?_set_ne (by omega), h.done i hlt]
      · rw [List.getElem?_set_self (by rw [h.length]; exact hk), filled, List.getElem?_eq_getElem hk,
          hx]
        rfl
    · rw [List.getElem?_set_ne (by omega), h.ahead i (by omega)]
  cases hx : series[k] with
  | some v =>
    refine ⟨s, by simp [fillHour, hslot, hx], ?_⟩
    have hsame : s.1.set k (some v) = s.1 := by
      obtain ⟨hlt, hget⟩ := List.getElem?_eq_some_iff.mp hslot
      rw [← hx, ← hget, List.set_getElem_self]
    have := hstep (some v) s.2 hslot (by rw [hx]; rfl) (by
      rw [h.count, htake, hx]
      simp)
    rwa [hsame] at this
  | none =>
    have hunknown : k ∉ known series := by
      intro hmem
      obtain ⟨v, hv⟩ := mem_known.mp hmem
      rw [List.getElem?_eq_getElem hk, hx] at hv
      cases hv
    have hval := hvalue s.1 h.keeps k hk hunknown
    refine ⟨(s.1.set k (g k), s.2 + 1), by simp [fillHour, hslot, hx, hval], ?_⟩
    refine hstep (g k) (s.2 + 1) hslot (by rw [hx]; rfl) ?_
    rw [h.count, htake, hx, List.countP_append, UInt16.ofNat_add]
    rfl

theorem loop_passed {value : Series F → Nat → Option Nat × Option Nat → Option (Option F)}
    (hvalue : ∀ s, Keeps series s → ∀ i < series.length, i ∉ known series →
      value s i (neighbours (known series) i) = some (g i)) {k : Nat} (hk : k ≤ series.length) :
    ∃ s, (List.range k).foldlM (fillHour value (known series)) (series, 0) = some s ∧
      Passed series g k s := by
  induction k with
  | zero =>
    refine ⟨(series, 0), rfl, rfl, fun i hi => absurd hi (Nat.not_lt_zero i), fun i _ => rfl, ?_⟩
    simp
  | succ k ih =>
    obtain ⟨s, hs, hpassed⟩ := ih (Nat.le_of_succ_le hk)
    obtain ⟨s', hs', hpassed'⟩ := fillHour_passed hvalue hpassed hk
    refine ⟨s', ?_, hpassed'⟩
    rw [List.range_succ, List.foldlM_append, hs]
    simpa using hs'

/-- No gap is longer than allowed, and something is observed. -/
structure Bridged (series : Series F) (maxGap : Nat) : Prop where
  gaps : ∀ a n, Block Option.isNone series a n → n ≤ maxGap
  observed : ∃ v, some v ∈ series

theorem observed_iff : (known series).isEmpty = false ↔ ∃ v, some v ∈ series := by
  rw [← Bool.not_eq_true, known_empty]
  constructor
  · intro h
    push Not at h
    obtain ⟨x, hx, hne⟩ := h
    obtain ⟨v, rfl⟩ := Option.ne_none_iff_exists'.mp hne
    exact ⟨v, hx⟩
  · rintro ⟨v, hv⟩ h
    cases h _ hv

/-- The check of the longest gap is one of every gap. -/
theorem checkLongestGap_ok {maxGap : Nat} {name : String} :
    checkLongestGap series maxGap name = .ok () ↔
      ∀ a n, Block Option.isNone series a n → n ≤ maxGap := by
  have hlong := scan_longest Option.isNone series
  rw [checkLongestGap, longestGap]
  constructor
  · intro h a n hb
    split at h
    · cases h
    · next hle => exact (hlong.longest a n hb).trans (not_lt.mp hle)
  · intro h
    rw [if_neg]
    exact not_lt.mpr (h _ _ hlong.block)

theorem Passed.unique {r : Series F × UInt16} (h : Passed series g series.length s)
    (hr : Passed series g series.length r) : s = r := by
  refine Prod.ext (List.ext_getElem? fun i => ?_) (h.count.trans hr.count.symm)
  by_cases hi : i < series.length
  · rw [h.done i hi, hr.done i hi]
  · rw [h.ahead i (not_lt.mp hi), hr.ahead i (not_lt.mp hi)]

/-- The fills never panic; what they accept is filled hour by hour. -/
theorem fillWith_iff {value : Series F → Nat → Option Nat × Option Nat → Option (Option F)}
    (hvalue : known series ≠ [] → ∀ s, Keeps series s → ∀ i < series.length, i ∉ known series →
      value s i (neighbours (known series) i) = some (g i)) (maxGap : Nat) (name : String) :
    (fillWith value series maxGap name).run.isSome ∧
      ∀ r, (fillWith value series maxGap name).run = some (.ok r) ↔
        Bridged series maxGap ∧ Passed series g series.length r := by
  rw [fillWith]
  cases hcheck : checkLongestGap series maxGap name with
  | error e =>
    refine ⟨rfl, fun r => ⟨fun h => ?_, fun h => ?_⟩⟩
    · cases h
    · rw [checkLongestGap_ok.mpr h.1.gaps] at hcheck
      cases hcheck
  | ok u =>
    have hgaps := checkLongestGap_ok.mp hcheck
    cases hempty : (known series).isEmpty with
    | true =>
      refine ⟨rfl, fun r => ⟨fun h => ?_, fun h => ?_⟩⟩
      · cases h
      · rw [observed_iff.mpr h.1.observed] at hempty
        cases hempty
    | false =>
      have hany : known series ≠ [] := by
        intro h
        rw [h] at hempty
        cases hempty
      obtain ⟨s, hs, hpassed⟩ := loop_passed (hvalue hany) (le_refl series.length)
      have hrun : (do
          ExceptT.mk (some (Except.ok u : Except String Unit))
          if false = true then throw s!"{name}: no observations at all"
          ExceptT.mk (((List.range series.length).foldlM (fillHour value (known series))
            (series, 0)).map .ok) : Read (Series F × UInt16)).run = some (.ok s) := by
        rw [hs]
        rfl
      refine ⟨Option.isSome_iff_exists.mpr ⟨_, hrun⟩, fun r => ?_⟩
      refine Iff.trans (Eq.congr_left hrun) ?_
      rw [Option.some_inj, Except.ok.injEq]
      constructor
      · rintro rfl
        exact ⟨⟨hgaps, observed_iff.mp hempty⟩, hpassed⟩
      · exact fun h => hpassed.unique h.2

end

/-- The hours observed, each with its value. -/
def observations (series : Series ℝ) : List (ℝ × ℝ) :=
  (known series).map fun k : Nat => ((k : ℝ), (series.getD k none).getD 0)

/-- The line through the points, level before the first and after the last. -/
noncomputable def lineAt (points : List (ℝ × ℝ)) (s : ℝ) : ℝ :=
  match points with
  | [] => 0
  | p :: rest => Polyline.scan (max s p.1) p rest

variable {series : Series ℝ}

theorem mem_observations {i : Nat} {v : ℝ} :
    ((i : ℝ), v) ∈ observations series ↔ series[i]? = some (some v) := by
  rw [observations, List.mem_map]
  constructor
  · rintro ⟨k, hk, he⟩
    obtain ⟨w, hw⟩ := mem_known.mp hk
    rw [Prod.mk.injEq, Nat.cast_inj, List.getD_eq_getElem?_getD, hw] at he
    rw [← he.1, ← he.2, hw]
    rfl
  · intro h
    refine ⟨i, mem_known.mpr ⟨v, h⟩, ?_⟩
    rw [List.getD_eq_getElem?_getD, h]
    rfl

theorem observations_ascending (series : Series ℝ) : Polyline.Ascending (observations series) := by
  rw [Polyline.Ascending, observations, List.pairwise_map]
  exact (known_ascending series).imp fun h => Nat.cast_lt.mpr h

/-- On the line the held reading is the line's. -/
theorem lineAt_joins {points : List (ℝ × ℝ)} (hasc : Polyline.Ascending points) {s v : ℝ}
    (h : Polyline.Joins points s v) : lineAt points s = v := by
  cases points with
  | nil =>
    obtain ⟨a, ha, -⟩ := h.spans
    cases ha
  | cons p rest =>
    rw [lineAt, max_eq_left (h.first_le hasc), ← h.eq_scan hasc]

theorem lineAt_before {p : ℝ × ℝ} {rest : List (ℝ × ℝ)} (hasc : Polyline.Ascending (p :: rest)) {s : ℝ}
    (h : s ≤ p.1) : lineAt (p :: rest) s = p.2 := by
  rw [lineAt, max_eq_right h, Polyline.scan_first hasc]

theorem lineAt_after {points : List (ℝ × ℝ)} {q : ℝ × ℝ} (hasc : Polyline.Ascending (points ++ [q]))
    {s : ℝ} (h : q.1 ≤ s) : lineAt (points ++ [q]) s = q.2 := by
  cases points with
  | nil => rfl
  | cons p rest =>
    have hpq : p.1 ≤ q.1 := hasc.first_le (by simp)
    rw [List.cons_append, lineAt, max_eq_left (hpq.trans h), Polyline.scan_past]
    · rw [Polyline.last_concat]
    · exact hasc
    · rwa [Polyline.last_concat]

/-- An observation in a series that keeps them. -/
theorem Keeps.expect {s : Series ℝ} (h : Keeps series s) {k : Nat} (hk : k ∈ known series) :
    expectKnown s k = some ((series.getD k none).getD 0) := by
  obtain ⟨v, hv⟩ := mem_known.mp hk
  rw [expectKnown, List.getD_eq_getElem?_getD, List.getD_eq_getElem?_getD, h.observed k hk, hv]
  rfl

/-- What the linear fill puts into a missing hour is on the line. -/
theorem linearFill_line {s : Series ℝ} (hs : Keeps series s) {i : Nat} (hi : i ∉ known series)
    (hany : known series ≠ []) :
    linearFill s i (neighbours (known series) i) = some (some (lineAt (observations series) i)) := by
  obtain ⟨l, r, hcut, hl, hr, hn⟩ := neighbours_cut (known_ascending series) hi
  have hasc := observations_ascending series
  have hpoints : observations series = (l.map fun k : Nat => ((k : ℝ), (series.getD k none).getD 0)) ++
      r.map fun k : Nat => ((k : ℝ), (series.getD k none).getD 0) := by
    rw [observations, hcut, List.map_append]
  rw [hn]
  cases hlast : l.getLast? with
  | some prev =>
    obtain ⟨l, rfl⟩ := List.getLast?_eq_some_iff.mp hlast
    have hprev : prev ∈ known series := by
      rw [hcut]
      simp
    have hlt : (prev : ℝ) < i := Nat.cast_lt.mpr (hl prev (by simp))
    cases r with
    | nil =>
      rw [List.map_nil, List.append_nil, List.map_append, List.map_singleton] at hpoints
      rw [hpoints] at hasc ⊢
      rw [lineAt_after hasc hlt.le, List.head?_nil, linearFill, hs.expect hprev]
      rfl
    | cons nxt r =>
      have hnxt : nxt ∈ known series := by
        rw [hcut]
        simp
      have hgt : (i : ℝ) < nxt := Nat.cast_lt.mpr (hr nxt (by simp))
      have hjoin : Polyline.Joins (observations series) i (Polyline.chord
          ((prev : ℝ), (series.getD prev none).getD 0) ((nxt : ℝ), (series.getD nxt none).getD 0) i) := by
        refine .between ?_ hlt.le hgt.le
        rw [hpoints]
        simp only [List.map_append, List.map_cons, List.map_nil, List.append_assoc]
        exact List.infix_append' _ [_, _] _
      rw [lineAt_joins hasc hjoin, List.head?_cons, linearFill, hs.expect hprev, hs.expect hnxt]
      simp only [Option.bind_eq_bind, Option.bind_some, Option.pure_def, Polyline.chord]
      have hpi := Nat.cast_lt.mp hlt
      have hin := Nat.cast_lt.mp hgt
      rw [Nat.cast_sub hpi.le, Nat.cast_sub (hpi.trans hin).le]
      congr 2
      ring
  | none =>
    rw [List.getLast?_eq_none_iff] at hlast
    rw [hlast] at hcut hpoints
    cases r with
    | nil => exact absurd hcut hany
    | cons nxt r =>
      have hnxt : nxt ∈ known series := by
        rw [hcut]
        simp
      have hgt : (i : ℝ) ≤ nxt := Nat.cast_le.mpr (hr nxt (by simp)).le
      rw [List.map_nil, List.nil_append, List.map_cons] at hpoints
      rw [hpoints] at hasc ⊢
      rw [lineAt_before hasc hgt, List.head?_cons, linearFill, hs.expect hnxt]
      rfl

/-- The linear fill draws the line through the observations. -/
theorem linear_fill (series : Series ℝ) (maxGap : Nat) (name : String) :
    (fillLinear series maxGap name).run.isSome ∧
      ∀ out count, (fillLinear series maxGap name).run = some (.ok (out, count)) ↔
        Bridged series maxGap ∧
          out = (List.range series.length).map (fun i : Nat => some (lineAt (observations series) i)) ∧
            count = UInt16.ofNat (series.countP Option.isNone) := by
  have hline : ∀ i < series.length,
      filled series (fun i => some (lineAt (observations series) i)) i =
        some (some (lineAt (observations series) i)) := by
    intro i hi
    rw [filled, List.getElem?_eq_getElem hi]
    cases hx : series[i] with
    | none => rfl
    | some v =>
      have hmem : ((i : ℝ), v) ∈ observations series :=
        mem_observations.mpr (by rw [List.getElem?_eq_getElem hi, hx])
      rw [lineAt_joins (observations_ascending series) (.listed hmem)]
      rfl
  have hread : known series ≠ [] → ∀ s, Keeps series s → ∀ i < series.length, i ∉ known series →
      linearFill s i (neighbours (known series) i) = some (some (lineAt (observations series) i)) :=
    fun hany s hs i _ hi => linearFill_line hs hi hany
  obtain ⟨hsome, hiff⟩ := fillWith_iff hread maxGap name
  refine ⟨hsome, fun out count => (hiff (out, count)).trans (and_congr_right fun _ => ?_)⟩
  constructor
  · intro h
    have hcount := h.count
    rw [List.take_length] at hcount
    refine ⟨List.ext_getElem? fun i => ?_, hcount⟩
    by_cases hi : i < series.length
    · rw [h.done i hi, hline i hi, List.getElem?_map, List.getElem?_range hi]
      rfl
    · rw [h.ahead i (not_lt.mp hi), List.getElem?_eq_none (not_lt.mp hi),
        List.getElem?_eq_none (by simpa using hi)]
  · rintro ⟨rfl, rfl⟩
    refine ⟨by simp, fun i hi => ?_, fun i hi => ?_, by rw [List.take_length]⟩
    · rw [hline i hi, List.getElem?_map, List.getElem?_range hi]
      rfl
    · rw [List.getElem?_eq_none hi, List.getElem?_eq_none (by simpa using hi)]

section

variable {F : Type} {series : Series F}

/-- An observed hour as near as any, the earliest of those as near. -/
structure Nearest (series : Series F) (i k : Nat) : Prop where
  observed : k ∈ known series
  near : ∀ j ∈ known series, Nat.dist i k < Nat.dist i j ∨ Nat.dist i k = Nat.dist i j ∧ k ≤ j

theorem Nearest.unique {i k m : Nat} (h : Nearest series i k) (h' : Nearest series i m) : k = m := by
  have hk := h.near m h'.observed
  have hm := h'.near k h.observed
  omega

theorem nearest_self {i : Nat} (h : i ∈ known series) : Nearest series i i := by
  refine ⟨h, fun j _ => ?_⟩
  simp only [Nat.dist]
  omega

/-- What the nearest fill puts into a missing hour stands at the nearest observation. -/
theorem nearestFill_nearest {i : Nat} (hi : i ∉ known series) (hany : known series ≠ []) :
    ∃ k, Nearest series i k ∧ ∀ s, Keeps series s →
      nearestFill s i (neighbours (known series) i) = series[k]? := by
  obtain ⟨l, r, hcut, hl, hr, hn⟩ := neighbours_cut (known_ascending series) hi
  have hasc := known_ascending series
  have hmem : ∀ j, j ∈ known series ↔ j ∈ l ∨ j ∈ r := by
    intro j
    rw [hcut, List.mem_append]
  rw [hcut, List.pairwise_append] at hasc
  rw [hn]
  cases hlast : l.getLast? with
  | none =>
    have hlnil := List.getLast?_eq_none_iff.mp hlast
    cases r with
    | nil => exact absurd (by rw [hcut, hlnil]; rfl) hany
    | cons nxt r =>
      have hknown : nxt ∈ known series := (hmem nxt).mpr (.inr List.mem_cons_self)
      refine ⟨nxt, ⟨hknown, fun j hj => ?_⟩, fun s hs => hs.observed nxt hknown⟩
      have hin := hr nxt List.mem_cons_self
      rcases (hmem j).mp hj with hj | hj
      · rw [hlnil] at hj
        cases hj
      · have hle : nxt ≤ j := by
          rcases List.mem_cons.mp hj with rfl | hj
          · exact le_refl _
          · exact (List.rel_of_pairwise_cons hasc.2.1 hj).le
        simp only [Nat.dist]
        omega
  | some prev =>
    obtain ⟨l, rfl⟩ := List.getLast?_eq_some_iff.mp hlast
    have hprev : prev ∈ known series := (hmem prev).mpr (.inl (by simp))
    have hpi := hl prev (by simp)
    have hbefore : ∀ j ∈ l ++ [prev], j ≤ prev := by
      intro j hj
      rcases List.mem_append.mp hj with hj | hj
      · exact ((List.pairwise_append.mp hasc.1).2.2 j hj prev (by simp)).le
      · exact (List.mem_singleton.mp hj).le
    cases r with
    | nil =>
      refine ⟨prev, ⟨hprev, fun j hj => ?_⟩, fun s hs => hs.observed prev hprev⟩
      rcases (hmem j).mp hj with hj | hj
      · have := hbefore j hj
        simp only [Nat.dist]
        omega
      · cases hj
    | cons nxt r =>
      have hnxt : nxt ∈ known series := (hmem nxt).mpr (.inr List.mem_cons_self)
      have hin := hr nxt List.mem_cons_self
      have hafter : ∀ j ∈ nxt :: r, nxt ≤ j := by
        intro j hj
        rcases List.mem_cons.mp hj with rfl | hj
        · exact le_refl _
        · exact (List.rel_of_pairwise_cons hasc.2.1 hj).le
      have hsource : (if i - prev ≤ nxt - i then prev else nxt) ∈ known series := by
        split
        · exact hprev
        · exact hnxt
      refine ⟨if i - prev ≤ nxt - i then prev else nxt, ⟨hsource, fun j hj => ?_⟩,
        fun s hs => hs.observed _ hsource⟩
      have hside : j ≤ prev ∨ nxt ≤ j := ((hmem j).mp hj).imp (hbefore j) (hafter j)
      simp only [Nat.dist]
      split <;> omega

/-- The nearest fill copies the nearest observation, the earlier of two as near. -/
theorem nearest_fill (series : Series F) (maxGap : Nat) (name : String) :
    (fillNearest series maxGap name).run.isSome ∧
      ∀ out count, (fillNearest series maxGap name).run = some (.ok (out, count)) ↔
        Bridged series maxGap ∧ out.length = series.length ∧
          (∀ i < series.length, ∃ k, Nearest series i k ∧ out[i]? = series[k]?) ∧
            count = UInt16.ofNat (series.countP Option.isNone) := by
  have hread : known series ≠ [] → ∀ s, Keeps series s → ∀ i < series.length, i ∉ known series →
      nearestFill s i (neighbours (known series) i) =
        some (nearestFill series i (neighbours (known series) i)).join := by
    intro hany s hs i _ hi
    obtain ⟨k, hk, hfill⟩ := nearestFill_nearest hi hany
    obtain ⟨v, hv⟩ := mem_known.mp hk.observed
    rw [hfill s hs, hfill series ⟨rfl, fun _ _ => rfl⟩, hv]
    rfl
  obtain ⟨hsome, hiff⟩ := fillWith_iff hread maxGap name
  refine ⟨hsome, fun out count => (hiff (out, count)).trans (and_congr_right fun hb => ?_)⟩
  have hany : known series ≠ [] := by
    intro h
    have := observed_iff.mpr hb.observed
    rw [h] at this
    cases this
  have hfilled : ∀ i < series.length, ∃ k, Nearest series i k ∧
      filled series (fun i => (nearestFill series i (neighbours (known series) i)).join) i =
        series[k]? := by
    intro i hi
    by_cases hmem : i ∈ known series
    · exact ⟨i, nearest_self hmem, filled_known hmem⟩
    · obtain ⟨k, hk, hfill⟩ := nearestFill_nearest hmem hany
      obtain ⟨v, hv⟩ := mem_known.mp hk.observed
      have hnone : series[i]? = some none := by
        rw [List.getElem?_eq_getElem hi]
        cases hx : series[i] with
        | none => rfl
        | some w => exact absurd (mem_known.mpr ⟨w, by rw [List.getElem?_eq_getElem hi, hx]⟩) hmem
      refine ⟨k, hk, ?_⟩
      rw [filled, hnone, hfill series ⟨rfl, fun _ _ => rfl⟩, hv]
      rfl
  constructor
  · intro h
    have hcount := h.count
    rw [List.take_length] at hcount
    refine ⟨h.length, fun i hi => ?_, hcount⟩
    obtain ⟨k, hk, hfill⟩ := hfilled i hi
    exact ⟨k, hk, (h.done i hi).trans hfill⟩
  · rintro ⟨hlength, hnear, rfl⟩
    refine ⟨hlength, fun i hi => ?_, fun i hi => ?_, by rw [List.take_length]⟩
    · obtain ⟨k, hk, hout⟩ := hnear i hi
      obtain ⟨m, hm, hfill⟩ := hfilled i hi
      rw [hfill, ← hk.unique hm]
      exact hout
    · rw [List.getElem?_eq_none hi, List.getElem?_eq_none (hlength.le.trans hi)]

end

end BessGaps
