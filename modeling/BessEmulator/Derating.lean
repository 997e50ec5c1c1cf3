import BessEmulator.Bms
import Mathlib.Order.Bounds.Basic

/-!
# The derating shortcut

A temperature curve keeps the longest run of its listed points at full rate
(`longestFullRun_widest`) and answers one inside it without a scan. The run is a stretch of neighbours
of the table, so the line is at its peak from one end of it to the other, and
the factor is the plain reading of the table at every temperature.
-/
namespace Bess

open Polyline

theorem rateBetween_chord (a b : ℝ × ℝ) (t : ℝ) : rateBetween a b t = chord a b t := by
  simp only [rateBetween, chord]
  ring

theorem rateScan_eq (t : ℝ) (a : ℝ × ℝ) (rest : List (ℝ × ℝ)) :
    rateScan t a rest = scan t a rest := by
  induction rest generalizing a with
  | nil => rfl
  | cons b rest ih => simp only [rateScan, scan, rateBetween_chord, ih]

theorem TempCurve.rateAt_outside {points : List (ℝ × ℝ)} (hasc : Ascending points) {t : ℝ}
    (h : ¬Spans points t) : (TempCurve.new points).rateAt t = 0 := by
  cases points with
  | nil => rfl
  | cons p rest =>
    simp only [TempCurve.rateAt, TempCurve.new, getLastD_last]
    rw [if_neg (mt (spans_cons hasc).mpr h)]

/-- Within the table the rate is the line's. -/
theorem TempCurve.rateAt_joins {points : List (ℝ × ℝ)} (hasc : Ascending points) {t : ℝ}
    (h : Spans points t) : Joins points t ((TempCurve.new points).rateAt t) := by
  cases points with
  | nil =>
    obtain ⟨a, ha, -⟩ := h
    cases ha
  | cons p rest =>
    have hin := (spans_cons hasc).mp h
    simp only [TempCurve.rateAt, TempCurve.new, getLastD_last, if_pos hin, rateScan_eq]
    exact scan_joins hin.1 hin.2

theorem le_peak {points : List (ℝ × ℝ)} {m : ℝ} :
    m ≤ points.foldl (fun m p => max m p.2) m ∧
      ∀ p ∈ points, p.2 ≤ points.foldl (fun m p => max m p.2) m := by
  induction points generalizing m with
  | nil => exact ⟨le_refl m, by simp⟩
  | cons q points ih =>
    obtain ⟨hm, hp⟩ := @ih (max m q.2)
    constructor
    · exact (le_max_left _ _).trans hm
    · intro p h
      rcases List.mem_cons.mp h with rfl | h
      · exact (le_max_right _ _).trans hm
      · exact hp p h

theorem peak_attained (points : List (ℝ × ℝ)) (m : ℝ) :
    points.foldl (fun m p => max m p.2) m = m ∨
      ∃ p ∈ points, p.2 = points.foldl (fun m p => max m p.2) m := by
  induction points generalizing m with
  | nil => exact .inl rfl
  | cons q points ih =>
    rcases ih (max m q.2) with h | ⟨p, hp, h⟩
    · rw [List.foldl_cons, h]
      rcases max_choice m q.2 with hm | hm
      · exact .inl hm
      · exact .inr ⟨q, by simp, hm.symm⟩
    · exact .inr ⟨p, by simp [hp], h⟩

/-- The highest listed rate, when there is a positive one. -/
theorem TempCurve.peak_greatest {points : List (ℝ × ℝ)} (h : 0 < (TempCurve.new points).peak) :
    IsGreatest {r | ∃ p ∈ points, p.2 = r} (TempCurve.new points).peak := by
  constructor
  · rcases peak_attained points 0 with hm | hp
    · exact absurd hm h.ne'
    · exact hp
  · rintro r ⟨p, hp, rfl⟩
    exact le_peak.2 p hp

theorem TempCurve.peak_nonpos {points : List (ℝ × ℝ)} :
    (TempCurve.new points).peak ≤ 0 ↔ ∀ p ∈ points, p.2 ≤ 0 := by
  constructor
  · intro h p hp
    exact (le_peak.2 p hp).trans h
  · intro h
    rcases peak_attained points 0 with hm | ⟨p, hp, he⟩
    · exact hm.le
    · exact he.symm.le.trans (h p hp)

/-- Neighbours of the table at `peak` or over it, from one temperature to another. -/
inductive Plateau (points : List (ℝ × ℝ)) (peak : ℝ) : ℝ → ℝ → Prop
  | run {p : ℝ × ℝ} {rest : List (ℝ × ℝ)} (h : p :: rest <:+: points)
    (hpeak : ∀ q ∈ p :: rest, peak ≤ q.2) : Plateau points peak p.1 (last p rest).1

/-- Such a run with the table's last point, from a temperature on. -/
inductive Ending (points : List (ℝ × ℝ)) (peak : ℝ) : ℝ → Prop
  | run {p : ℝ × ℝ} {rest : List (ℝ × ℝ)} (h : p :: rest <:+ points)
    (hpeak : ∀ q ∈ p :: rest, peak ≤ q.2) : Ending points peak p.1

theorem ending_concat {points : List (ℝ × ℝ)} {peak : ℝ} {x : ℝ × ℝ} {lo : ℝ} :
    Ending (points ++ [x]) peak lo ↔ peak ≤ x.2 ∧ (lo = x.1 ∨ Ending points peak lo) := by
  constructor
  · rintro ⟨h, hpeak⟩
    rcases List.suffix_concat_iff.mp h with hnil | ⟨t, ht, hsuf⟩
    · cases hnil
    · have hx : peak ≤ x.2 := hpeak x (by simp [ht])
      refine ⟨hx, ?_⟩
      cases t with
      | nil =>
        cases ht
        exact .inl rfl
      | cons q t =>
        cases ht
        exact .inr (.run hsuf fun r hr => hpeak r (List.mem_append_left [x] hr))
  · rintro ⟨hx, rfl | hend⟩
    · exact @Ending.run _ _ x [] (List.suffix_append points [x]) (by simpa using hx)
    · obtain @⟨p, rest, h, hpeak⟩ := hend
      refine @Ending.run _ _ p (rest ++ [x]) ?_ ?_
      · exact List.suffix_concat_iff.mpr (.inr ⟨p :: rest, rfl, h⟩)
      · intro q hq
        rcases List.mem_append.mp (show q ∈ (p :: rest) ++ [x] from hq) with hq | hq
        · exact hpeak q hq
        · rw [List.mem_singleton.mp hq]
          exact hx

/-- A run with the table's last point ends at it. -/
theorem last_of_suffix {points : List (ℝ × ℝ)} {x p : ℝ × ℝ} {rest : List (ℝ × ℝ)}
    (h : p :: rest <:+ points ++ [x]) : last p rest = x := by
  rcases List.suffix_concat_iff.mp h with hnil | ⟨t, ht, -⟩
  · cases hnil
  · cases t with
    | nil =>
      cases ht
      rfl
    | cons q t =>
      cases ht
      exact last_concat p t x

theorem plateau_concat {points : List (ℝ × ℝ)} {peak : ℝ} {x : ℝ × ℝ} {lo hi : ℝ} :
    Plateau (points ++ [x]) peak lo hi ↔
      (Ending (points ++ [x]) peak lo ∧ hi = x.1) ∨ Plateau points peak lo hi := by
  constructor
  · rintro ⟨h, hpeak⟩
    rcases List.infix_concat_iff.mp h with hsuf | hin
    · exact .inl ⟨.run hsuf hpeak, by rw [last_of_suffix hsuf]⟩
    · exact .inr (.run hin hpeak)
  · rintro (⟨⟨hsuf, hpeak⟩, rfl⟩ | ⟨h, hpeak⟩)
    · have hrun := Plateau.run hsuf.isInfix hpeak
      rwa [last_of_suffix hsuf] at hrun
    · exact .run (h.trans (List.prefix_append points [x]).isInfix) hpeak

/-- What the scan carries after the points `passed`: the run under way and the longest one. -/
structure FullRun.Sound (peak : ℝ) (passed : List (ℝ × ℝ)) (run : FullRun ℝ) : Prop where
  current : ∀ first, run.start = some first → Ending passed peak first
  earliest : ∀ lo, Ending passed peak lo → ∃ first, run.start = some first ∧ first ≤ lo
  best : ∀ b, run.best = some b → Plateau passed peak b.1 b.2
  widest : ∀ lo hi, Plateau passed peak lo hi → lo < hi →
    ∃ b, run.best = some b ∧ hi - lo ≤ b.2 - b.1

theorem FullRun.sound_init (peak : ℝ) : FullRun.Sound peak [] ⟨none, none⟩ where
  current := by
    intro first h
    cases h
  earliest := by
    rintro lo ⟨h, -⟩
    cases List.suffix_nil.mp h
  best := by
    intro b h
    cases h
  widest := by
    rintro lo hi ⟨h, -⟩
    cases List.infix_nil.mp h

variable {peak : ℝ} {passed : List (ℝ × ℝ)} {run : FullRun ℝ} {x : ℝ × ℝ}

/-- The run a full-rate point extends or starts: no run ending there starts before it. -/
theorem FullRun.Sound.first (h : run.Sound peak passed) (hx : ∀ q ∈ passed, q.1 < x.1)
    (hpeak : peak ≤ x.2) :
    Ending (passed ++ [x]) peak (run.start.getD x.1) ∧
      ∀ lo, Ending (passed ++ [x]) peak lo → run.start.getD x.1 ≤ lo := by
  cases hs : run.start with
  | none =>
    rw [Option.getD_none]
    constructor
    · exact ending_concat.mpr ⟨hpeak, .inl rfl⟩
    · intro lo hlo
      rcases (ending_concat.mp hlo).2 with rfl | hend
      · exact le_refl _
      · obtain ⟨first, hfirst, -⟩ := h.earliest lo hend
        rw [hs] at hfirst
        cases hfirst
  | some first =>
    rw [Option.getD_some]
    have hcur := h.current first hs
    constructor
    · exact ending_concat.mpr ⟨hpeak, .inr hcur⟩
    · intro lo hlo
      rcases (ending_concat.mp hlo).2 with rfl | hend
      · obtain ⟨hsuf, -⟩ := hcur
        exact (hx _ (hsuf.subset List.mem_cons_self)).le
      · obtain ⟨first', hfirst, hle⟩ := h.earliest lo hend
        rw [hs] at hfirst
        cases hfirst
        exact hle

/-- What a full-rate point does: it moves the best run when its own is longer. -/
theorem FullRun.extend_cases (run : FullRun ℝ) (hpeak : peak ≤ x.2) {first : ℝ}
    (hfirst : run.start.getD x.1 = first) :
    (run.extend peak x).start = some first ∧
      ((run.extend peak x).best = some (first, x.1) ∧
          (∀ b, run.best = some b → b.2 - b.1 < x.1 - first) ∨
        (run.extend peak x).best = run.best ∧
          (first < x.1 → ∃ b, run.best = some b ∧ x.1 - first ≤ b.2 - b.1)) := by
  rw [FullRun.extend, if_pos hpeak, hfirst]
  refine ⟨rfl, ?_⟩
  cases run.best with
  | none =>
    by_cases hlt : first < x.1
    · simp [hlt]
    · simp [hlt]
  | some b =>
    by_cases hlt : first < x.1
    · by_cases hlen : b.2 - b.1 < x.1 - first
      · simp [hlt, hlen]
      · exact .inr ⟨by simp [hlt, hlen], fun _ => ⟨b, rfl, not_lt.mp hlen⟩⟩
    · simp [hlt]

/-- The next point keeps both. -/
theorem FullRun.Sound.extend (h : run.Sound peak passed) (hx : ∀ q ∈ passed, q.1 < x.1) :
    (run.extend peak x).Sound peak (passed ++ [x]) := by
  by_cases hpeak : peak ≤ x.2
  · -- the point goes on with a run, or starts one
    obtain ⟨hend, hleast⟩ := h.first hx hpeak
    obtain ⟨hstart, hbest⟩ := run.extend_cases hpeak rfl
    generalize run.start.getD x.1 = first at hend hleast hstart hbest
    have hfull : Plateau (passed ++ [x]) peak first x.1 := plateau_concat.mpr (.inl ⟨hend, rfl⟩)
    constructor
    · intro first' hfirst
      rw [hstart] at hfirst
      cases hfirst
      exact hend
    · intro lo hlo
      exact ⟨first, hstart, hleast lo hlo⟩
    · intro b hb
      rcases hbest with ⟨hnew, -⟩ | ⟨hold, -⟩
      · rw [hnew] at hb
        cases hb
        exact hfull
      · rw [hold] at hb
        exact plateau_concat.mpr (.inr (h.best b hb))
    · intro lo hi hrun hlt
      rcases plateau_concat.mp hrun with ⟨hlo, rfl⟩ | hpast
      · have hle := hleast lo hlo
        rcases hbest with ⟨hnew, -⟩ | ⟨hold, hlong⟩
        · exact ⟨_, hnew, by linarith⟩
        · obtain ⟨b, hb, hlen⟩ := hlong (by linarith)
          exact ⟨b, hold.trans hb, by linarith⟩
      · obtain ⟨b, hb, hlen⟩ := h.widest lo hi hpast hlt
        rcases hbest with ⟨hnew, hlong⟩ | ⟨hold, -⟩
        · exact ⟨_, hnew, hlen.trans (hlong b hb).le⟩
        · exact ⟨b, hold.trans hb, hlen⟩
  · -- below the peak no run ends
    have hnone : ∀ lo, ¬Ending (passed ++ [x]) peak lo := by
      intro lo hlo
      exact hpeak (ending_concat.mp hlo).1
    rw [FullRun.extend, if_neg hpeak]
    constructor
    · intro first hfirst
      cases hfirst
    · intro lo hlo
      exact absurd hlo (hnone lo)
    · intro b hb
      exact plateau_concat.mpr (.inr (h.best b hb))
    · intro lo hi hrun hlt
      rcases plateau_concat.mp hrun with ⟨hlo, -⟩ | hpast
      · exact absurd hlo (hnone lo)
      · exact h.widest lo hi hpast hlt

/-- A scan of the rest keeps both. -/
theorem FullRun.Sound.foldl (h : run.Sound peak passed) {points : List (ℝ × ℝ)}
    (hasc : Ascending (passed ++ points)) :
    (points.foldl (FullRun.extend peak) run).Sound peak (passed ++ points) := by
  induction points generalizing run passed with
  | nil =>
    rw [List.append_nil]
    exact h
  | cons x points ih =>
    have hx : ∀ q ∈ passed, q.1 < x.1 := by
      intro q hq
      exact (List.pairwise_append.mp hasc).2.2 q hq x List.mem_cons_self
    have happ : passed ++ x :: points = passed ++ [x] ++ points := by simp
    rw [happ] at hasc ⊢
    exact ih (h.extend hx) hasc

theorem longestFullRun_sound {points : List (ℝ × ℝ)} (hasc : Ascending points) (peak : ℝ) :
    (points.foldl (FullRun.extend peak) ⟨none, none⟩).Sound peak points := by
  have hasc' : Ascending ([] ++ points) := hasc
  exact (FullRun.sound_init peak).foldl hasc'

/-- No run at full rate is longer than the one kept. -/
theorem longestFullRun_widest {points : List (ℝ × ℝ)} (hasc : Ascending points) {lo hi : ℝ}
    (h : Plateau points peak lo hi) (hlt : lo < hi) :
    ∃ b, longestFullRun points peak = some b ∧ hi - lo ≤ b.2 - b.1 :=
  (longestFullRun_sound hasc peak).widest lo hi h hlt

/-- Inside the kept run the line is at its peak. -/
theorem TempCurve.atFull_joins {points : List (ℝ × ℝ)} (hasc : Ascending points) {t : ℝ}
    (h : (TempCurve.new points).atFull t = true) : Joins points t (TempCurve.new points).peak := by
  simp only [TempCurve.atFull] at h
  cases hf : (TempCurve.new points).full with
  | none =>
    rw [hf] at h
    cases h
  | some b =>
    rw [hf] at h
    simp only [Bool.and_eq_true, decide_eq_true_eq] at h
    have hrun := (longestFullRun_sound hasc _).best b hf
    obtain ⟨lo, hi⟩ := b
    cases hrun with
    | @run p rest hsub hpeak =>
      have hjoin : Joins (p :: rest) t (scan t p rest) := scan_joins h.1 h.2
      have hflat := hjoin.flat fun q hq => le_antisymm (le_peak.2 q (hsub.subset hq)) (hpeak q hq)
      rw [hflat] at hjoin
      exact hjoin.mono hsub

/-- The plain reading of a table: the share `f` permitted at temperature `t`. -/
structure PlainShare (points : List (ℝ × ℝ)) (t f : ℝ) : Prop where
  idle : (∀ p ∈ points, p.2 ≤ 0) → f = 0
  outside : ¬Spans points t → f = 0
  inside : ∀ peak rate, IsGreatest {r | ∃ p ∈ points, p.2 = r} peak → 0 < peak →
    Joins points t rate → f = max 0 (min 1 (rate / peak))

/-- With a positive peak the shortcut gives what the scan would. -/
theorem TempCurve.factor_scan {points : List (ℝ × ℝ)} (hasc : Ascending points)
    (hpos : 0 < (TempCurve.new points).peak) (t : ℝ) :
    (TempCurve.new points).factor t =
      max 0 (min 1 ((TempCurve.new points).rateAt t / (TempCurve.new points).peak)) := by
  rw [TempCurve.factor, if_neg hpos.not_ge]
  split
  · next hfull =>
    have hjoin := atFull_joins hasc hfull
    have hrate := hjoin.unique hasc (rateAt_joins hasc hjoin.spans)
    rw [← hrate, div_self hpos.ne', min_self, max_eq_right zero_le_one]
  · exact Scalar.clamp_eq zero_le_one

theorem TempCurve.factor_idle {points : List (ℝ × ℝ)} (h : ∀ p ∈ points, p.2 ≤ 0) (t : ℝ) :
    (TempCurve.new points).factor t = 0 := by
  rw [TempCurve.factor, if_pos (peak_nonpos.mpr h)]

theorem TempCurve.factor_outside {points : List (ℝ × ℝ)} (hasc : Ascending points) {t : ℝ}
    (h : ¬Spans points t) : (TempCurve.new points).factor t = 0 := by
  by_cases hpos : 0 < (TempCurve.new points).peak
  · rw [factor_scan hasc hpos, rateAt_outside hasc h, zero_div, min_eq_right zero_le_one, max_self]
  · exact factor_idle (peak_nonpos.mp (not_lt.mp hpos)) t

/-- The factor is the plain reading, and the only one. -/
theorem TempCurve.factor_plain {points : List (ℝ × ℝ)} (hasc : Ascending points) (t f : ℝ) :
    PlainShare points t f ↔ f = (TempCurve.new points).factor t := by
  constructor
  · intro h
    by_cases hpos : 0 < (TempCurve.new points).peak
    · by_cases hl : Spans points t
      · rw [factor_scan hasc hpos]
        exact h.inside _ _ (peak_greatest hpos) hpos (rateAt_joins hasc hl)
      · rw [h.outside hl, factor_outside hasc hl]
    · have hidle := peak_nonpos.mp (not_lt.mp hpos)
      rw [h.idle hidle, factor_idle hidle]
  · rintro rfl
    constructor
    · intro hidle
      exact factor_idle hidle t
    · intro hl
      exact factor_outside hasc hl
    · intro peak rate hgreat hpos hjoin
      obtain ⟨p, hp, hpeak⟩ := hgreat.1
      have hpos' : 0 < (TempCurve.new points).peak := by
        have hle : p.2 ≤ (TempCurve.new points).peak := le_peak.2 p hp
        linarith
      have hrate := hjoin.unique hasc (rateAt_joins hasc hjoin.spans)
      rw [factor_scan hasc hpos', hgreat.unique (peak_greatest hpos'), hrate]

/-- Two plateaus with a dip between them: the longer one is the shortcut, the dip is read. -/
theorem TempCurve.factor_plain_dip :
    PlainShare [(0, 2), (1, 4), (2, 4), (3, 1), (4, 4), (6, 4), (7, 4), (9, 0)] 2.5 0.625 := by
  apply (TempCurve.factor_plain _ _ _).mpr
  · norm_num [TempCurve.factor, TempCurve.new, TempCurve.atFull, TempCurve.rateAt, longestFullRun,
      FullRun.extend, rateScan, rateBetween, Scalar.clamp]
  · norm_num [Ascending]

/-- The cell maker's tables are such tables. -/
example : Ascending (EVE_MB31_CHARGE_P : List (ℝ × ℝ)) ∧
    Ascending (EVE_MB31_DISCHARGE_P : List (ℝ × ℝ)) := by
  norm_num [Ascending, EVE_MB31_CHARGE_P, EVE_MB31_DISCHARGE_P]

end Bess
