import BessEmulator.Scalar

/-!
# Tabulated curves

A curve given by its points, read by a linear scan, and its integral from the
first point, trapezoid by trapezoid. For a rising table of bounded slope: the
curve rises no faster than the slope, and the integral stays within a
quadratic of either tangent rectangle. An ascending table has one line through
its points, and the scan reads it.
-/
namespace Polyline

section

variable {F : Type} [Scalar F]

/-- Value on the chord from `a` to `b`. -/
def chord (a b : F × F) (s : F) : F :=
  let t := (s - a.1) / (b.1 - a.1)
  a.2 + t * (b.2 - a.2)

/-- Value at `s`, scanning from the point `prev` on; past the end, the last value. -/
def scan (s : F) : F × F → List (F × F) → F
  | prev, [] => prev.2
  | prev, p :: rest => if s ≤ p.1 then chord prev p s else scan s p rest

/-- Area up to `s`, where the curve has the value `v`. -/
def scanArea (s v : F) : F → F × F → List (F × F) → F
  | acc, _, [] => acc
  | acc, prev, p :: rest =>
    if s ≤ p.1 then acc + (s - prev.1) * (prev.2 + v) * 0.5
    else scanArea s v (acc + (p.1 - prev.1) * (prev.2 + p.2) * 0.5) p rest

end

/-- Consecutive points advance, rise, and rise no faster than `slope`. -/
def Rising (slope : ℝ) : ℝ × ℝ → List (ℝ × ℝ) → Prop
  | _, [] => True
  | a, b :: rest =>
    a.1 < b.1 ∧ a.2 ≤ b.2 ∧ b.2 - a.2 ≤ slope * (b.1 - a.1) ∧ Rising slope b rest

/-- The last point of a table. -/
def last : ℝ × ℝ → List (ℝ × ℝ) → ℝ × ℝ
  | p, [] => p
  | _, p :: rest => last p rest

variable {slope : ℝ}

/-- A chord between two points of a rising table. -/
theorem chord_sub {a b : ℝ × ℝ} (h : a.1 < b.1) (x y : ℝ) :
    chord a b y - chord a b x = (y - x) * ((b.2 - a.2) / (b.1 - a.1)) := by
  have hd : b.1 - a.1 ≠ 0 := by linarith
  simp only [chord]
  field_simp
  ring

theorem chord_left {a b : ℝ × ℝ} : chord a b a.1 = a.2 := by simp [chord]

theorem chord_right {a b : ℝ × ℝ} (h : a.1 < b.1) : chord a b b.1 = b.2 := by
  have hd : b.1 - a.1 ≠ 0 := by linarith
  simp only [chord]
  field_simp
  ring

theorem chord_rise {a b : ℝ × ℝ} (h : a.1 < b.1) (hv : a.2 ≤ b.2)
    (hs : b.2 - a.2 ≤ slope * (b.1 - a.1)) {x y : ℝ} (hxy : x ≤ y) :
    0 ≤ chord a b y - chord a b x ∧ chord a b y - chord a b x ≤ slope * (y - x) := by
  have hd : 0 < b.1 - a.1 := by linarith
  have hk0 : 0 ≤ (b.2 - a.2) / (b.1 - a.1) := div_nonneg (by linarith) hd.le
  have hk : (b.2 - a.2) / (b.1 - a.1) ≤ slope := (div_le_iff₀ hd).mpr hs
  rw [chord_sub h]
  constructor
  · exact mul_nonneg (by linarith) hk0
  · calc (y - x) * ((b.2 - a.2) / (b.1 - a.1)) ≤ (y - x) * slope :=
          mul_le_mul_of_nonneg_left hk (by linarith)
      _ = slope * (y - x) := mul_comm _ _

/-- The scan starts at its first point. -/
theorem scan_start {p : ℝ × ℝ} {rest : List (ℝ × ℝ)} (h : Rising slope p rest) :
    scan p.1 p rest = p.2 := by
  cases rest with
  | nil => rfl
  | cons q rest =>
    rw [scan, if_pos h.1.le]
    exact chord_left

/-- Between two abscissae the curve rises, by at most the slope. -/
theorem scan_rise (hslope : 0 ≤ slope) {p : ℝ × ℝ} {rest : List (ℝ × ℝ)} (h : Rising slope p rest)
    {x y : ℝ} (hx : p.1 ≤ x) (hxy : x ≤ y) :
    0 ≤ scan y p rest - scan x p rest ∧ scan y p rest - scan x p rest ≤ slope * (y - x) := by
  induction rest generalizing p x with
  | nil =>
    simp only [scan, sub_self, le_refl, true_and]
    exact mul_nonneg hslope (by linarith)
  | cons q rest ih =>
    obtain ⟨hpq, hv, hs, hrest⟩ := h
    by_cases hxq : x ≤ q.1
    · by_cases hyq : y ≤ q.1
      · simp only [scan, if_pos hxq, if_pos hyq]
        exact chord_rise hpq hv hs hxy
      · have hfirst := chord_rise hpq hv hs hxq
        have hlast := ih hrest (le_refl q.1) (by linarith : q.1 ≤ y)
        rw [scan_start hrest] at hlast
        rw [chord_right hpq] at hfirst
        simp only [scan, if_pos hxq, if_neg hyq]
        constructor
        · linarith [hfirst.1, hlast.1]
        · linarith [hfirst.2, hlast.2]
    · have hyq : ¬y ≤ q.1 := by linarith [not_le.mp hxq]
      simp only [scan, if_neg hxq, if_neg hyq]
      exact ih hrest (not_le.mp hxq).le hxy

theorem scan_mono (hslope : 0 ≤ slope) {p : ℝ × ℝ} {rest : List (ℝ × ℝ)} (h : Rising slope p rest)
    {x y : ℝ} (hx : p.1 ≤ x) (hxy : x ≤ y) : scan x p rest ≤ scan y p rest := by
  linarith [(scan_rise hslope h hx hxy).1]

theorem first_le_scan (hslope : 0 ≤ slope) {p : ℝ × ℝ} {rest : List (ℝ × ℝ)}
    (h : Rising slope p rest) {x : ℝ} (hx : p.1 ≤ x) : p.2 ≤ scan x p rest := by
  have hm := scan_mono hslope h (le_refl p.1) hx
  rwa [scan_start h] at hm

theorem first_le_last {p : ℝ × ℝ} {rest : List (ℝ × ℝ)} (h : Rising slope p rest) :
    p.2 ≤ (last p rest).2 := by
  induction rest generalizing p with
  | nil => exact le_refl _
  | cons q rest ih => exact h.2.1.trans (ih h.2.2.2)

theorem scan_le_last {p : ℝ × ℝ} {rest : List (ℝ × ℝ)} (h : Rising slope p rest) {x : ℝ}
    (hx : p.1 ≤ x) : scan x p rest ≤ (last p rest).2 := by
  induction rest generalizing p with
  | nil => exact le_refl _
  | cons q rest ih =>
    obtain ⟨hpq, hv, hs, hrest⟩ := h
    by_cases hxq : x ≤ q.1
    · have hc := (chord_rise hpq hv hs hxq).1
      rw [chord_right hpq] at hc
      simp only [scan, if_pos hxq, last]
      linarith [first_le_last hrest]
    · simp only [scan, if_neg hxq, last]
      exact ih hrest (not_le.mp hxq).le

/-- Area under the curve from the first point to `s`. -/
noncomputable def area (s : ℝ) (p : ℝ × ℝ) (rest : List (ℝ × ℝ)) : ℝ :=
  scanArea s (scan s p rest) 0 p rest

theorem scanArea_acc (s v acc : ℝ) (p : ℝ × ℝ) (rest : List (ℝ × ℝ)) :
    scanArea s v acc p rest = acc + scanArea s v 0 p rest := by
  induction rest generalizing acc p with
  | nil => simp [scanArea]
  | cons q rest ih =>
    simp only [scanArea]
    split
    · ring
    · rw [ih, ih (0 + _)]
      ring

theorem area_cons (s : ℝ) (p q : ℝ × ℝ) (rest : List (ℝ × ℝ)) :
    area s p (q :: rest) =
      if s ≤ q.1 then (s - p.1) * (p.2 + chord p q s) / 2
      else (q.1 - p.1) * (p.2 + q.2) / 2 + area s q rest := by
  simp only [area]
  by_cases h : s ≤ q.1
  · simp only [scanArea, scan, if_pos h]
    norm_num
    ring
  · simp only [scanArea, scan, if_neg h]
    rw [scanArea_acc]
    norm_num
    ring

theorem area_start {p : ℝ × ℝ} {rest : List (ℝ × ℝ)} (h : Rising slope p rest) :
    area p.1 p rest = 0 := by
  cases rest with
  | nil => rfl
  | cons q rest =>
    rw [area_cons, if_pos h.1.le]
    ring

/-- Two areas from the left end of one chord differ by the mean of its values between. -/
theorem chord_area {p q : ℝ × ℝ} (hpq : p.1 < q.1) (x y : ℝ) :
    (y - p.1) * (p.2 + chord p q y) / 2 - (x - p.1) * (p.2 + chord p q x) / 2 =
      (y - x) * (chord p q x + chord p q y) / 2 := by
  have hpx := chord_sub hpq p.1 x
  have hpy := chord_sub hpq p.1 y
  rw [chord_left] at hpx hpy
  rw [show chord p q x = p.2 + (x - p.1) * ((q.2 - p.2) / (q.1 - p.1)) by linarith,
    show chord p q y = p.2 + (y - p.1) * ((q.2 - p.2) / (q.1 - p.1)) by linarith]
  ring

/-- What the area between two abscissae is held between: the curve there is
between its end values, and leaves each end at most at the slope. -/
structure Enclosed (slope x y vx vy d : ℝ) : Prop where
  low : vx * (y - x) ≤ d
  high : d ≤ vy * (y - x)
  fromLeft : d ≤ vx * (y - x) + slope / 2 * (y - x) ^ 2
  fromRight : vy * (y - x) - slope / 2 * (y - x) ^ 2 ≤ d

/-- A single chord: its area is the mean of its ends. -/
theorem enclosed_chord {x y vx vy : ℝ} (hxy : x ≤ y) (h0 : 0 ≤ vy - vx)
    (h1 : vy - vx ≤ slope * (y - x)) : Enclosed slope x y vx vy ((y - x) * (vx + vy) / 2) := by
  have hd : 0 ≤ y - x := by linarith
  have hl := mul_nonneg hd h0
  have hu := mul_le_mul_of_nonneg_left h1 hd
  constructor
  · nlinarith
  · nlinarith
  · nlinarith
  · nlinarith

/-- Two enclosed areas side by side. -/
theorem Enclosed.append {x m y vx vm vy d e : ℝ} (hxm : x ≤ m) (hmy : m ≤ y)
    (h : Enclosed slope x m vx vm d) (h' : Enclosed slope m y vm vy e) (h0 : 0 ≤ vm - vx)
    (h1 : vm - vx ≤ slope * (m - x)) (h0' : 0 ≤ vy - vm) (h1' : vy - vm ≤ slope * (y - m)) :
    Enclosed slope x y vx vy (d + e) := by
  have hd : 0 ≤ m - x := by linarith
  have he : 0 ≤ y - m := by linarith
  have a1 := mul_nonneg h0 he
  have a2 := mul_nonneg h0' hd
  have a3 := mul_le_mul_of_nonneg_right h1 he
  have a4 := mul_le_mul_of_nonneg_right h1' hd
  constructor
  · nlinarith [h.low, h'.low]
  · nlinarith [h.high, h'.high]
  · nlinarith [h.fromLeft, h'.fromLeft]
  · nlinarith [h.fromRight, h'.fromRight]

/-- The area between two abscissae of the table. -/
theorem area_enclosed (hslope : 0 ≤ slope) {p : ℝ × ℝ} {rest : List (ℝ × ℝ)}
    (h : Rising slope p rest) {x y : ℝ} (hx : p.1 ≤ x) (hxy : x ≤ y) (hy : y ≤ (last p rest).1) :
    Enclosed slope x y (scan x p rest) (scan y p rest) (area y p rest - area x p rest) := by
  induction rest generalizing p x with
  | nil =>
    have he : x = y := by
      simp only [last] at hy
      linarith
    subst he
    constructor <;> simp
  | cons q rest ih =>
    obtain ⟨hpq, hv, hs, hrest⟩ := h
    simp only [last] at hy
    by_cases hxq : x ≤ q.1
    · by_cases hyq : y ≤ q.1
      · have hc := chord_rise hpq hv hs hxy
        rw [area_cons, area_cons, if_pos hxq, if_pos hyq, chord_area hpq]
        simp only [scan, if_pos hxq, if_pos hyq]
        exact enclosed_chord hxy hc.1 hc.2
      · have hqy : q.1 ≤ y := by linarith
        have hc := chord_rise hpq hv hs hxq
        have hr := scan_rise hslope hrest (le_refl q.1) hqy
        have hi := ih hrest (le_refl q.1) hqy hy
        have hxarea := chord_area hpq x q.1
        rw [chord_right hpq] at hc hxarea
        rw [scan_start hrest] at hr
        rw [scan_start hrest, area_start hrest, sub_zero] at hi
        have harea : area y p (q :: rest) - area x p (q :: rest) =
            (q.1 - x) * (chord p q x + q.2) / 2 + area y q rest := by
          rw [area_cons, area_cons, if_pos hxq, if_neg hyq]
          linarith
        rw [harea]
        simp only [scan, if_pos hxq, if_neg hyq]
        exact (enclosed_chord hxq hc.1 hc.2).append hxq hqy hi hc.1 hc.2 hr.1 hr.2
    · have hyq : ¬y ≤ q.1 := by linarith [not_le.mp hxq]
      have hi := ih hrest (not_le.mp hxq).le hxy hy
      have harea : area y p (q :: rest) - area x p (q :: rest) = area y q rest - area x q rest := by
        rw [area_cons, area_cons, if_neg hxq, if_neg hyq]
        ring
      rw [harea]
      simp only [scan, if_neg hxq, if_neg hyq]
      exact hi

/-- The line through neighbouring points: at `s` it has the value `v`. -/
inductive Joins (points : List (ℝ × ℝ)) : ℝ → ℝ → Prop
  | listed {p : ℝ × ℝ} (h : p ∈ points) : Joins points p.1 p.2
  | between {a b : ℝ × ℝ} {s : ℝ} (h : [a, b] <:+: points) (ha : a.1 ≤ s) (hb : s ≤ b.1) :
    Joins points s (chord a b s)

theorem Joins.mono {part points : List (ℝ × ℝ)} (hsub : part <:+: points) {s v : ℝ}
    (h : Joins part s v) : Joins points s v := by
  cases h with
  | listed hp => exact .listed (hsub.subset hp)
  | between hab ha hb => exact .between (hab.trans hsub) ha hb

/-- The line through points of one height stays at it. -/
theorem Joins.flat {points : List (ℝ × ℝ)} {m : ℝ} (hm : ∀ p ∈ points, p.2 = m) {s v : ℝ}
    (h : Joins points s v) : v = m := by
  cases h with
  | listed hp => exact hm _ hp
  | @between a b _ hab ha hb =>
    have ham : a.2 = m := hm a (hab.subset (by simp))
    have hbm : b.2 = m := hm b (hab.subset (by simp))
    simp [chord, ham, hbm]

/-- Within the table the scan reads the line. -/
theorem scan_joins {p : ℝ × ℝ} {rest : List (ℝ × ℝ)} {s : ℝ} (hlo : p.1 ≤ s)
    (hhi : s ≤ (last p rest).1) : Joins (p :: rest) s (scan s p rest) := by
  induction rest generalizing p with
  | nil =>
    have hs : s = p.1 := le_antisymm hhi hlo
    rw [hs, scan]
    exact .listed (by simp)
  | cons q rest ih =>
    rw [scan]
    split
    · next hq => exact .between ⟨[], rest, rfl⟩ hlo hq
    · next hq => exact (ih (not_le.mp hq).le hhi).mono (List.suffix_cons p _).isInfix

/-- The line from a first point on: at the point, on the first chord, or later. -/
theorem Joins.cons_inv {p : ℝ × ℝ} {rest : List (ℝ × ℝ)} {s v : ℝ} (h : Joins (p :: rest) s v) :
    (s = p.1 ∧ v = p.2) ∨
      (∃ q l, rest = q :: l ∧ p.1 ≤ s ∧ s ≤ q.1 ∧ v = chord p q s) ∨ Joins rest s v := by
  cases h with
  | listed hp =>
    rcases List.mem_cons.mp hp with rfl | hp
    · exact .inl ⟨rfl, rfl⟩
    · exact .inr (.inr (.listed hp))
  | @between a b _ hab ha hb =>
    rcases List.infix_cons_iff.mp hab with hpre | hin
    · obtain ⟨rfl, l, rfl⟩ := List.cons_prefix_cons.mp hpre
      exact .inr (.inl ⟨b, l, rfl, ha, hb, rfl⟩)
    · exact .inr (.inr (.between hin ha hb))

/-- The abscissae advance. -/
def Ascending (points : List (ℝ × ℝ)) : Prop := points.Pairwise fun a b => a.1 < b.1

theorem Ascending.first_le {p : ℝ × ℝ} {rest : List (ℝ × ℝ)} (h : Ascending (p :: rest)) {q : ℝ × ℝ}
    (hq : q ∈ p :: rest) : p.1 ≤ q.1 := by
  rcases List.mem_cons.mp hq with rfl | hq
  · exact le_refl _
  · exact (List.rel_of_pairwise_cons h hq).le

theorem Ascending.le_last {p : ℝ × ℝ} {rest : List (ℝ × ℝ)} (h : Ascending (p :: rest)) {q : ℝ × ℝ}
    (hq : q ∈ p :: rest) : q.1 ≤ (last p rest).1 := by
  induction rest generalizing p q with
  | nil =>
    rw [List.mem_singleton.mp hq, last]
  | cons r rest ih =>
    have htail : Ascending (r :: rest) := (List.pairwise_cons.mp h).2
    rcases List.mem_cons.mp hq with rfl | hq
    · exact (h.first_le (by simp)).trans (ih htail List.mem_cons_self)
    · exact ih htail hq

theorem last_mem (p : ℝ × ℝ) (rest : List (ℝ × ℝ)) : last p rest ∈ p :: rest := by
  induction rest generalizing p with
  | nil => exact List.mem_cons_self
  | cons q rest ih => exact List.mem_cons_of_mem p (ih q)

theorem getLastD_last (p : ℝ × ℝ) (rest : List (ℝ × ℝ)) : rest.getLastD p = last p rest := by
  induction rest generalizing p with
  | nil => rfl
  | cons q rest ih =>
    rw [List.getLastD_cons, ih]
    rfl

theorem last_concat (p : ℝ × ℝ) (rest : List (ℝ × ℝ)) (x : ℝ × ℝ) :
    last p (rest ++ [x]) = x := by
  induction rest generalizing p with
  | nil => rfl
  | cons q rest ih => exact ih q

theorem Joins.first_le {p : ℝ × ℝ} {rest : List (ℝ × ℝ)} (hasc : Ascending (p :: rest)) {s v : ℝ}
    (h : Joins (p :: rest) s v) : p.1 ≤ s := by
  cases h with
  | listed hp => exact hasc.first_le hp
  | between hab ha hb => exact (hasc.first_le (hab.subset (by simp))).trans ha

theorem scan_first {p : ℝ × ℝ} {rest : List (ℝ × ℝ)} (hasc : Ascending (p :: rest)) :
    scan p.1 p rest = p.2 := by
  cases rest with
  | nil => rfl
  | cons q rest =>
    rw [scan, if_pos (hasc.first_le (by simp))]
    exact chord_left

theorem scan_past {p : ℝ × ℝ} {rest : List (ℝ × ℝ)} (hasc : Ascending (p :: rest)) {s : ℝ}
    (h : (last p rest).1 ≤ s) : scan s p rest = (last p rest).2 := by
  induction rest generalizing p with
  | nil => rfl
  | cons q rest ih =>
    have htail : Ascending (q :: rest) := (List.pairwise_cons.mp hasc).2
    rw [last] at h ⊢
    rw [scan]
    split
    · next hle =>
      -- the last point itself, which is the first of the rest
      have hq : s = q.1 := le_antisymm hle ((htail.le_last List.mem_cons_self).trans h)
      rw [← ih htail h, hq, scan_first htail, chord_right (List.rel_of_pairwise_cons hasc (by simp))]
    · exact ih htail h

/-- An ascending table has one line through it, and the scan reads it. -/
theorem Joins.eq_scan {p : ℝ × ℝ} {rest : List (ℝ × ℝ)} (hasc : Ascending (p :: rest)) {s v : ℝ}
    (h : Joins (p :: rest) s v) : v = scan s p rest := by
  induction rest generalizing p with
  | nil =>
    rcases h.cons_inv with ⟨rfl, rfl⟩ | ⟨q, l, hl, -⟩ | hin
    · rfl
    · cases hl
    · cases hin with
      | listed hp => cases hp
      | between hab => cases List.infix_nil.mp hab
  | cons q rest ih =>
    have htail : Ascending (q :: rest) := (List.pairwise_cons.mp hasc).2
    rcases h.cons_inv with ⟨rfl, rfl⟩ | ⟨r, l, hl, hps, hsr, rfl⟩ | hin
    · exact (scan_first hasc).symm
    · cases hl
      rw [scan, if_pos hsr]
    · have hqs : q.1 ≤ s := hin.first_le htail
      rw [ih htail hin, scan]
      split
      · next hsq =>
        -- the shared point: both neighbours' chords end there
        have hs : s = q.1 := le_antisymm hsq hqs
        rw [hs, scan_first htail, chord_right (List.rel_of_pairwise_cons hasc (by simp))]
      · rfl

/-- The abscissa is in the table's range. -/
def Spans (points : List (ℝ × ℝ)) (s : ℝ) : Prop :=
  ∃ a ∈ points, ∃ b ∈ points, a.1 ≤ s ∧ s ≤ b.1

theorem spans_cons {p : ℝ × ℝ} {rest : List (ℝ × ℝ)} (hasc : Ascending (p :: rest)) {s : ℝ} :
    Spans (p :: rest) s ↔ p.1 ≤ s ∧ s ≤ (last p rest).1 := by
  constructor
  · rintro ⟨a, ha, b, hb, has, hsb⟩
    exact ⟨(hasc.first_le ha).trans has, hsb.trans (hasc.le_last hb)⟩
  · rintro ⟨hlo, hhi⟩
    exact ⟨p, by simp, last p rest, last_mem p rest, hlo, hhi⟩

theorem Joins.spans {points : List (ℝ × ℝ)} {s v : ℝ} (h : Joins points s v) : Spans points s := by
  cases h with
  | listed hp => exact ⟨_, hp, _, hp, le_refl _, le_refl _⟩
  | between hab ha hb =>
    exact ⟨_, hab.subset (by simp), _, hab.subset (by simp), ha, hb⟩

/-- There is one line. -/
theorem Joins.unique {points : List (ℝ × ℝ)} (hasc : Ascending points) {s v w : ℝ}
    (hv : Joins points s v) (hw : Joins points s w) : v = w := by
  cases points with
  | nil =>
    obtain ⟨a, ha, -⟩ := hv.spans
    cases ha
  | cons p rest => rw [hv.eq_scan hasc, hw.eq_scan hasc]

end Polyline
