import BessEmulator.SolarRows
import BessEmulator.Tiling

/-!
# Solar energy over hour buckets

Each row closes an interval that starts where the row before it ended, so the
intervals tile time. What the buckets hold is, interval by interval, its energy
by how long it lies in the bucket, and over the year that adds up.
-/
namespace BessSolar

open Bess EdgeLog Tiling

/-- What a row is the sum over. -/
structure Interval where
  startS : Int
  endS : Int
  fg : Option ℝ

/-- A row's interval runs from the previous row's end, the first one's an hour. -/
def intervals : Option Int → List (SolarRow ℝ) → List Interval
  | _, [] => []
  | prevEnd, row :: rows =>
    ⟨prevEnd.getD (row.endS - 3600), row.endS, row.fg⟩ :: intervals (some row.endS) rows

namespace Interval

def durationS (i : Interval) : Int := i.endS - i.startS

/-- The energy of an interval, in J/m2. -/
def energyJm2 (i : Interval) : ℝ := i.fg.getD 0 * 10000

/-- The seconds of an interval in an hour of the year. -/
def inHour (i : Interval) (hour : Nat) : Int :=
  overlap i.startS i.endS (hour * 3600) ((hour + 1 : Nat) * 3600)

/-- The seconds of an interval in the year. -/
def inYear (i : Interval) : Int := overlap i.startS i.endS 0 spanS

/-- What an hour gets of an interval's energy. -/
noncomputable def shareJm2 (i : Interval) (hour : Nat) : ℝ :=
  i.energyJm2 * ((i.inHour hour : ℝ) / (i.durationS : ℝ))

end Interval

/-- The returned means are what the intervals hold, in every hour and over the year. -/
structure Conserved (is : List Interval) (means : List ℝ) : Prop where
  hours : means.length = HOURS_2024
  tiles : ∃ a b, Path a (is.map fun i => (i.startS, i.endS)) b
  durations : ∀ i ∈ is, 1800 ≤ i.durationS ∧ i.durationS ≤ 5400
  once : ∀ t, 0 ≤ t → t < spanS → is.countP (fun i => decide (i.startS ≤ t ∧ t < i.endS)) = 1
  covered : ∀ hour < HOURS_2024, (is.map fun i => i.inHour hour).sum = 3600
  measured : ∀ i ∈ is, 0 < i.inYear → i.fg.isSome
  mean : ∀ hour < HOURS_2024,
    means[hour]? = some ((is.map fun i => i.shareJm2 hour).sum / 3600)
  energy : 3600 * means.sum =
    (is.map fun i => i.energyJm2 * ((i.inYear : ℝ) / (i.durationS : ℝ))).sum

theorem overlapS_eq (i : Interval) (hour : Nat) : overlapS i.startS i.endS hour = i.inHour hour := by
  have hend : (hour : Int) * 3600 + 3600 = ((hour + 1 : Nat) : Int) * 3600 := by omega
  rw [overlapS, Interval.inHour, overlap, hend, max_comm]

/-- An interval in the year reaches no hour outside the range its loop goes through. -/
theorem inHour_outside {i : Interval} (hend : 0 < i.endS) (hstart : i.startS < spanS) {hour : Nat}
    (hhour : hour < HOURS_2024) (hlt : i.startS < i.endS) {first last : Nat}
    (hfirst : first = ((max i.startS 0).tdiv 3600).toNat)
    (hlast : last = min ((min i.endS spanS - 1).tdiv 3600).toNat (HOURS_2024 - 1))
    (hout : ¬(first ≤ hour ∧ hour < first + (last + 1 - first))) : i.inHour hour = 0 := by
  rw [Int.tdiv_eq_ediv_of_nonneg (by omega)] at hfirst
  rw [Int.tdiv_eq_ediv_of_nonneg (by rw [spanS, HOURS_2024] at *; omega)] at hlast
  simp only [spanS, HOURS_2024] at *
  simp only [Interval.inHour, overlap]
  omega

/-- An interval before or after the year reaches none of its hours. -/
theorem inHour_away {i : Interval} (haway : i.endS ≤ 0 ∨ spanS ≤ i.startS) {hour : Nat}
    (hhour : hour < HOURS_2024) : i.inHour hour = 0 := by
  simp only [spanS, HOURS_2024] at *
  simp only [Interval.inHour, overlap]
  omega

theorem inYear_away {i : Interval} (haway : i.endS ≤ 0 ∨ spanS ≤ i.startS) : i.inYear = 0 := by
  simp only [Interval.inYear, overlap]
  omega

theorem monotone_hours : Monotone fun hour : Nat => (hour : Int) * 3600 := by
  intro a b hab
  simp only
  omega

/-- The hours of the year hold what lies in the year. -/
theorem sum_inHour (i : Interval) :
    ((List.range HOURS_2024).map fun hour => i.inHour hour).sum = i.inYear := by
  have hsum := sum_buckets monotone_hours i.startS i.endS HOURS_2024
  rw [Nat.cast_zero, zero_mul] at hsum
  exact hsum

/-- The loop over the buckets writes the two series, each on its own. -/
theorem foldl_addTo (intervalJm2 : ℝ) (startS endS : Int) (hours : List Nat) (b : SolarBuckets ℝ) :
    hours.foldl (SolarBuckets.addTo intervalJm2 startS endS) b =
      { energyJm2 := hours.foldl (fun xs hour => xs.modify hour fun e => e + intervalJm2 *
          Scalar.ofInt (overlapS startS endS hour) / Scalar.ofInt (endS - startS)) b.energyJm2
        coveredS := hours.foldl (fun xs hour => xs.modify hour fun s =>
          s + overlapS startS endS hour) b.coveredS
        prevEnd := b.prevEnd } := by
  induction hours generalizing b with
  | nil => rfl
  | cons hour hours ih =>
    rw [List.foldl_cons, ih]
    rfl

theorem rowStart_ok {prevEnd : Option Int} {row : SolarRow ℝ} {startS : Int}
    (h : rowStart prevEnd row = .ok startS) :
    startS = prevEnd.getD (row.endS - 3600) ∧ 1800 ≤ row.endS - startS ∧
      row.endS - startS ≤ 5400 := by
  cases prevEnd with
  | none =>
    cases h
    simp
  | some prev =>
    simp only [rowStart] at h
    split at h
    · cases h
      exact ⟨rfl, ‹_›⟩
    · cases h

/-- What an accepted row does: it closes an interval, and its buckets are written
unless the interval lies outside the year. -/
theorem add_ok {b b' : SolarBuckets ℝ} {row : SolarRow ℝ} (h : b.add row = .ok b') :
    ∃ startS, rowStart b.prevEnd row = .ok startS ∧
      ((row.endS ≤ 0 ∨ spanS ≤ startS) ∧ b' = { b with prevEnd := some row.endS } ∨
        (0 < row.endS ∧ startS < spanS) ∧ ∃ fg first last, row.fg = some fg ∧
          first = ((max startS 0).tdiv 3600).toNat ∧
          last = min ((min row.endS spanS - 1).tdiv 3600).toNat (HOURS_2024 - 1) ∧
          b' = (List.range' first (last + 1 - first)).foldl
            (SolarBuckets.addTo (fg * 10000) startS row.endS) { b with prevEnd := some row.endS }) := by
  rw [SolarBuckets.add] at h
  cases hstart : rowStart b.prevEnd row with
  | error e =>
    rw [hstart] at h
    cases h
  | ok startS =>
    rw [hstart] at h
    refine ⟨startS, rfl, ?_⟩
    by_cases haway : row.endS ≤ 0 ∨ spanS ≤ startS
    · left
      simp only [bind, Except.bind, haway, if_true] at h
      cases h
      exact ⟨haway, rfl⟩
    · right
      simp only [bind, Except.bind, haway, if_false] at h
      cases hfg : row.fg with
      | none =>
        rw [hfg] at h
        cases h
      | some fg =>
        rw [hfg] at h
        refine ⟨by omega, fg, _, _, rfl, rfl, rfl, ?_⟩
        have hten : fg * (10000.0 : ℝ) = fg * 10000 := by norm_num
        rw [← hten]
        cases h
        rfl

/-- The buckets hold what the intervals so far have in each hour. -/
structure Accounts (is : List Interval) (b : SolarBuckets ℝ) : Prop where
  energy : b.energyJm2 =
    (List.range HOURS_2024).map fun hour => (is.map fun i => i.shareJm2 hour).sum
  covered : b.coveredS =
    (List.range HOURS_2024).map fun hour => (is.map fun i => i.inHour hour).sum
  durations : ∀ i ∈ is, 1800 ≤ i.durationS ∧ i.durationS ≤ 5400
  measured : ∀ i ∈ is, 0 < i.inYear → i.fg.isSome

theorem accounts_empty : Accounts [] SolarBuckets.empty where
  energy := by simp [SolarBuckets.empty, List.map_const']
  covered := by simp [SolarBuckets.empty, List.map_const']
  durations := by simp
  measured := by simp

/-- Both series moved by what an interval has in each hour. -/
theorem Accounts.snoc {is : List Interval} {b b' : SolarBuckets ℝ} {i : Interval}
    (ha : Accounts is b)
    (henergy : b'.energyJm2 =
      (List.range HOURS_2024).map fun hour => (is.map fun i => i.shareJm2 hour).sum + i.shareJm2 hour)
    (hcovered : b'.coveredS =
      (List.range HOURS_2024).map fun hour => (is.map fun i => i.inHour hour).sum + i.inHour hour)
    (hlong : 1800 ≤ i.durationS ∧ i.durationS ≤ 5400) (hmeasured : 0 < i.inYear → i.fg.isSome) :
    Accounts (is ++ [i]) b' where
  energy := by simpa using henergy
  covered := by simpa using hcovered
  durations := by
    simp only [List.forall_mem_append, List.forall_mem_singleton]
    exact ⟨ha.durations, hlong⟩
  measured := by
    simp only [List.forall_mem_append, List.forall_mem_singleton]
    exact ⟨ha.measured, hmeasured⟩

/-- What the loop adds to a bucket in its range. -/
theorem share_eq {i : Interval} {fg : ℝ} (hfg : i.fg = some fg) (hour : Nat) :
    fg * 10000 * Scalar.ofInt (overlapS i.startS i.endS hour) / Scalar.ofInt (i.endS - i.startS) =
      i.shareJm2 hour := by
  rw [overlapS_eq, Scalar.ofInt_real, Scalar.ofInt_real, Interval.shareJm2, Interval.energyJm2, hfg,
    Option.getD_some, mul_div_assoc, Interval.durationS]

/-- The interval a row closes. -/
def closed (b : SolarBuckets ℝ) (row : SolarRow ℝ) : Interval :=
  ⟨b.prevEnd.getD (row.endS - 3600), row.endS, row.fg⟩

/-- A row outside the year writes nothing, and its interval has no second in it. -/
theorem Accounts.away {is : List Interval} {b b' : SolarBuckets ℝ} {i : Interval}
    (ha : Accounts is b) (hlong : 1800 ≤ i.durationS ∧ i.durationS ≤ 5400)
    (haway : i.endS ≤ 0 ∨ spanS ≤ i.startS) (henergy : b'.energyJm2 = b.energyJm2)
    (hcovered : b'.coveredS = b.coveredS) : Accounts (is ++ [i]) b' := by
  have hzero : ∀ hour ∈ List.range HOURS_2024, i.inHour hour = 0 := fun hour hhour =>
    inHour_away haway (List.mem_range.mp hhour)
  apply ha.snoc
  · rw [henergy, ha.energy]
    apply List.map_congr_left
    intro hour hhour
    rw [Interval.shareJm2, hzero hour hhour]
    simp
  · rw [hcovered, ha.covered]
    apply List.map_congr_left
    intro hour hhour
    rw [hzero hour hhour, add_zero]
  · exact hlong
  · rw [inYear_away haway]
    exact fun h => absurd h (lt_irrefl 0)

/-- A row that reaches into the year writes the buckets of its range; outside
the range its interval has no second in an hour. -/
theorem Accounts.within {is : List Interval} {b : SolarBuckets ℝ} {i : Interval} {fg : ℝ}
    (ha : Accounts is b) (hlong : 1800 ≤ i.durationS ∧ i.durationS ≤ 5400)
    (hin : 0 < i.endS ∧ i.startS < spanS) (hfg : i.fg = some fg) {first last : Nat}
    (hfirst : first = ((max i.startS 0).tdiv 3600).toNat)
    (hlast : last = min ((min i.endS spanS - 1).tdiv 3600).toNat (HOURS_2024 - 1)) :
    Accounts (is ++ [i]) ((List.range' first (last + 1 - first)).foldl
      (SolarBuckets.addTo (fg * 10000) i.startS i.endS) { b with prevEnd := some i.endS }) := by
  have hlt : i.startS < i.endS := by
    rw [Interval.durationS] at hlong
    omega
  have hzero : ∀ hour ∈ List.range HOURS_2024,
      ¬(first ≤ hour ∧ hour < first + (last + 1 - first)) → i.inHour hour = 0 := fun hour hhour hout =>
    inHour_outside hin.1 hin.2 (List.mem_range.mp hhour) hlt hfirst hlast hout
  rw [foldl_addTo]
  apply ha.snoc
  · simp only [ha.energy]
    rw [foldl_modify_range]
    apply List.map_congr_left
    intro hour hhour
    split
    · rw [share_eq hfg]
    · rw [Interval.shareJm2, hzero hour hhour ‹_›]
      simp
  · simp only [ha.covered]
    rw [foldl_modify_range]
    apply List.map_congr_left
    intro hour hhour
    split
    · rw [← overlapS_eq]
    · rw [hzero hour hhour ‹_›, add_zero]
  · exact hlong
  · intro _
    rw [hfg]
    rfl

/-- One row adds the interval it closes. -/
theorem accounts_add {is : List Interval} {b b' : SolarBuckets ℝ} {row : SolarRow ℝ}
    (ha : Accounts is b) (h : b.add row = .ok b') : Accounts (is ++ [closed b row]) b' := by
  obtain ⟨startS, hstart, hcases⟩ := add_ok h
  obtain ⟨hstartS, hlong⟩ := rowStart_ok hstart
  have hclosed : closed b row = ⟨startS, row.endS, row.fg⟩ := by rw [closed, hstartS]
  rw [hclosed]
  obtain ⟨haway, rfl⟩ | ⟨hin, fg, first, last, hfg, hfirst, hlast, rfl⟩ := hcases
  · exact ha.away hlong haway rfl rfl
  · exact ha.within (i := ⟨startS, row.endS, row.fg⟩) hlong hin hfg hfirst hlast

theorem add_prevEnd {b b' : SolarBuckets ℝ} {row : SolarRow ℝ} (h : b.add row = .ok b') :
    b'.prevEnd = some row.endS := by
  obtain ⟨startS, -, ⟨-, rfl⟩ | ⟨-, fg, first, last, -, -, -, rfl⟩⟩ := add_ok h
  · rfl
  · rw [foldl_addTo]

theorem accounts_rows {is : List Interval} {b b' : SolarBuckets ℝ} {rows : List (SolarRow ℝ)}
    (ha : Accounts is b) (h : rows.foldlM SolarBuckets.add b = .ok b') :
    Accounts (is ++ intervals b.prevEnd rows) b' := by
  induction rows generalizing is b with
  | nil =>
    cases h
    rw [intervals, List.append_nil]
    exact ha
  | cons row rows ih =>
    rw [List.foldlM_cons] at h
    cases hadd : b.add row with
    | error e =>
      rw [hadd] at h
      cases h
    | ok b₁ =>
      rw [hadd] at h
      have hrest := ih (accounts_add ha hadd) h
      rw [add_prevEnd hadd, List.append_assoc] at hrest
      exact hrest

/-- The intervals of rows lie end to end. -/
theorem path_intervals (start : Int) (rows : List (SolarRow ℝ)) :
    ∃ last, Path start ((intervals (some start) rows).map fun i => (i.startS, i.endS)) last := by
  induction rows generalizing start with
  | nil => exact ⟨start, rfl⟩
  | cons row rows ih =>
    obtain ⟨last, hpath⟩ := ih row.endS
    exact ⟨last, rfl, hpath⟩

theorem path_rows (rows : List (SolarRow ℝ)) :
    ∃ first last, Path first ((intervals none rows).map fun i => (i.startS, i.endS)) last := by
  cases rows with
  | nil => exact ⟨0, 0, rfl⟩
  | cons row rows =>
    obtain ⟨last, hpath⟩ := path_intervals row.endS rows
    exact ⟨row.endS - 3600, last, rfl, hpath⟩

/-- Buckets whose means are asked are covered whole. -/
theorem means_ok {b : SolarBuckets ℝ} {means : List ℝ} (h : b.means = .ok means) :
    (∀ s ∈ b.coveredS, s = 3600) ∧ means = b.energyJm2.map fun e => e / 3600 := by
  rw [SolarBuckets.means] at h
  split at h
  · cases h
  · rename_i hnone
    cases h
    constructor
    · intro s hs
      obtain ⟨n, hn⟩ := List.mem_iff_getElem?.mp hs
      have := List.find?_eq_none.mp hnone (s, n) (List.mk_mem_zipIdx_iff_getElem?.mpr hn)
      simpa using this
    · norm_num

/-- The hours of the year share out what an interval has in it. -/
theorem sum_share (i : Interval) :
    ((List.range HOURS_2024).map fun hour => i.shareJm2 hour).sum =
      i.energyJm2 * ((i.inYear : ℝ) / (i.durationS : ℝ)) := by
  have hcast : ((List.range HOURS_2024).map fun hour => (i.inHour hour : ℝ)).sum = (i.inYear : ℝ) := by
    rw [← sum_inHour, Int.cast_list_sum, List.map_map]
    rfl
  simp only [Interval.shareJm2, ← mul_div_assoc]
  simp only [mul_comm i.energyJm2, mul_div_assoc, List.sum_map_mul_right, hcast]

theorem sum_sum_comm {α β : Type} (f : α → β → ℝ) (as : List α) (bs : List β) :
    (bs.map fun b => (as.map fun a => f a b).sum).sum =
      (as.map fun a => (bs.map fun b => f a b).sum).sum := by
  induction as with
  | nil => simp
  | cons a as ih => simp only [List.map_cons, List.sum_cons, List.sum_map_add, ih]

theorem sum_means {is : List Interval} {b : SolarBuckets ℝ} (ha : Accounts is b) :
    3600 * (b.energyJm2.map fun e => e / 3600).sum =
      (is.map fun i => i.energyJm2 * ((i.inYear : ℝ) / (i.durationS : ℝ))).sum := by
  simp only [← sum_share]
  rw [← sum_sum_comm, ← ha.energy, ← List.sum_map_mul_left]
  simp [mul_div_cancel₀]

/-- The tiles cover every hour whole where they reach from before the year to after it. -/
theorem covered_iff {is : List Interval} {first last : Int}
    (hpath : Path first (is.map fun i => (i.startS, i.endS)) last)
    (hms : ∀ m ∈ is.map fun i => (i.startS, i.endS), m.1 ≤ m.2) :
    (∀ hour < HOURS_2024, (is.map fun i => i.inHour hour).sum = 3600) ↔
      first ≤ 0 ∧ spanS ≤ last := by
  have hsum : ∀ hour : Nat, (is.map fun i => i.inHour hour).sum =
      overlap first last (hour * 3600) ((hour + 1 : Nat) * 3600) := by
    intro hour
    rw [overlap_comm, ← sum_overlap hpath hms, List.map_map]
    exact congrArg List.sum (List.map_congr_left fun i _ => overlap_comm _ _ _ _)
  constructor
  · intro hcovered
    have hin : ∀ hour < HOURS_2024,
        first ≤ (hour : Int) * 3600 ∧ ((hour + 1 : Nat) : Int) * 3600 ≤ last := by
      intro hour hhour
      have hwhole := (hsum hour).symm.trans (hcovered hour hhour)
      apply inside_of_overlap
      · omega
      · omega
    constructor
    · simpa using (hin 0 (by decide)).1
    · exact (hin (HOURS_2024 - 1) (by decide)).2
  · rintro ⟨hfirst, hlast⟩ hour hhour
    rw [hsum, overlap]
    simp only [spanS, HOURS_2024] at *
    omega

/-- Buckets that account for some tiles, and are all covered whole, conserve them. -/
theorem conserved {is : List Interval} {b : SolarBuckets ℝ} {means : List ℝ} {first last : Int}
    (hpath : Path first (is.map fun i => (i.startS, i.endS)) last) (ha : Accounts is b)
    (hmeans : b.means = .ok means) : Conserved is means := by
  obtain ⟨hwhole, rfl⟩ := means_ok hmeans
  have hcovered : ∀ hour < HOURS_2024, (is.map fun i => i.inHour hour).sum = 3600 := by
    intro hour hhour
    apply hwhole
    rw [ha.covered]
    exact List.mem_map.mpr ⟨hour, List.mem_range.mpr hhour, rfl⟩
  have hms : ∀ m ∈ is.map fun i => (i.startS, i.endS), m.1 ≤ m.2 := by
    rw [List.forall_mem_map]
    intro i hi
    have := (ha.durations i hi).1
    rw [Interval.durationS] at this
    simp only
    omega
  exact
    { hours := by rw [ha.energy, List.length_map, List.length_map, List.length_range]
      tiles := ⟨first, last, hpath⟩
      durations := ha.durations
      once := by
        intro t h0 h1
        obtain ⟨hfirst, hlast⟩ := (covered_iff hpath hms).mp hcovered
        have hcount := countP_tiles hpath hms t
        rw [List.countP_map, if_pos ⟨by omega, by omega⟩] at hcount
        exact hcount
      covered := hcovered
      measured := ha.measured
      mean := by
        intro hour hhour
        rw [ha.energy, List.getElem?_map, List.getElem?_map, List.getElem?_range hhour]
        rfl
      energy := sum_means ha }

theorem distribute_ok {rows : List (SolarRow ℝ)} {means : List ℝ} (h : distribute rows = .ok means) :
    ∃ b, rows.foldlM SolarBuckets.add (SolarBuckets.empty : SolarBuckets ℝ) = .ok b ∧
      b.means = .ok means := by
  rw [distribute] at h
  cases hrows : rows.foldlM SolarBuckets.add (SolarBuckets.empty : SolarBuckets ℝ) with
  | error e =>
    rw [hrows] at h
    cases h
  | ok b =>
    rw [hrows] at h
    exact ⟨b, rfl, h⟩

/-- Whatever rows are accepted, the energy of their intervals is what the
returned means hold. -/
theorem solar_conserved {rows : List (SolarRow ℝ)} {means : List ℝ}
    (h : distribute rows = .ok means) : Conserved (intervals none rows) means := by
  obtain ⟨b, hrows, hmeans⟩ := distribute_ok h
  obtain ⟨first, last, hpath⟩ := path_rows rows
  exact conserved hpath (accounts_rows accounts_empty hrows) hmeans

/-- An interval the reader lets pass: of a fair length, and read if it lies in the year. -/
structure Fair (i : Interval) : Prop where
  atLeast : 1800 ≤ i.durationS
  atMost : i.durationS ≤ 5400
  measured : 0 < i.inYear → i.fg.isSome

theorem rowStart_fair {b : SolarBuckets ℝ} {row : SolarRow ℝ} (h : Fair (closed b row)) :
    rowStart b.prevEnd row = .ok (b.prevEnd.getD (row.endS - 3600)) := by
  have hlong := And.intro h.atLeast h.atMost
  rw [Interval.durationS, closed] at hlong
  cases hprev : b.prevEnd with
  | none => rfl
  | some prev =>
    rw [hprev] at hlong
    exact if_pos hlong

theorem add_accepts {b : SolarBuckets ℝ} {row : SolarRow ℝ} (h : Fair (closed b row)) :
    ∃ b', b.add row = .ok b' := by
  rw [SolarBuckets.add, rowStart_fair h]
  by_cases haway : row.endS ≤ 0 ∨ spanS ≤ b.prevEnd.getD (row.endS - 3600)
  · simp only [bind, Except.bind, haway, if_true]
    exact ⟨_, rfl⟩
  · have hyear : 0 < (closed b row).inYear := by
      have hlong := h.atLeast
      simp only [Interval.durationS, closed] at hlong
      simp only [Interval.inYear, closed, overlap]
      simp only [spanS, HOURS_2024] at *
      omega
    obtain ⟨fg, hfg⟩ := Option.isSome_iff_exists.mp (h.measured hyear)
    have hrow : row.fg = some fg := hfg
    simp only [bind, Except.bind, haway, if_false, hrow]
    exact ⟨_, rfl⟩

theorem rows_accepted {b : SolarBuckets ℝ} {rows : List (SolarRow ℝ)}
    (h : ∀ i ∈ intervals b.prevEnd rows, Fair i) :
    ∃ b', rows.foldlM SolarBuckets.add b = .ok b' := by
  induction rows generalizing b with
  | nil => exact ⟨b, rfl⟩
  | cons row rows ih =>
    obtain ⟨hfair, hrest⟩ := List.forall_mem_cons.mp h
    obtain ⟨b₁, hadd⟩ := add_accepts hfair
    rw [← add_prevEnd hadd] at hrest
    obtain ⟨b', hb'⟩ := ih hrest
    rw [List.foldlM_cons, hadd]
    exact ⟨b', hb'⟩

/-- Buckets covered whole have means. -/
theorem means_accepts {b : SolarBuckets ℝ} (h : ∀ s ∈ b.coveredS, s = 3600) :
    ∃ means, b.means = .ok means := by
  rw [SolarBuckets.means]
  split
  · rename_i s hour hfind
    have hmem := List.fst_mem_of_mem_zipIdx (List.mem_of_find?_eq_some hfind)
    have hne := List.find?_some hfind
    simp [h s hmem] at hne
  · exact ⟨_, rfl⟩

theorem Conserved.fair {is : List Interval} {means : List ℝ} (h : Conserved is means) :
    ∀ i ∈ is, Fair i := fun i hi =>
  ⟨(h.durations i hi).1, (h.durations i hi).2, h.measured i hi⟩

theorem Fair.le {i : Interval} (h : Fair i) : i.startS ≤ i.endS := by
  have := h.atLeast
  rw [Interval.durationS] at this
  omega

/-- The rows accepted are those of fair intervals that reach over the whole year. -/
theorem accepted_iff {rows : List (SolarRow ℝ)} :
    (∃ means, distribute rows = .ok means) ↔
      (∀ i ∈ intervals none rows, Fair i) ∧ ∃ first last, first ≤ 0 ∧ spanS ≤ last ∧
        Path first ((intervals none rows).map fun i => (i.startS, i.endS)) last := by
  constructor
  · rintro ⟨means, h⟩
    obtain ⟨b, hrows, hmeans⟩ := distribute_ok h
    obtain ⟨first, last, hpath⟩ := path_rows rows
    have hcons := conserved hpath (accounts_rows accounts_empty hrows) hmeans
    have hreach := (covered_iff hpath (List.forall_mem_map.mpr fun i hi => (hcons.fair i hi).le)).mp
      hcons.covered
    exact ⟨hcons.fair, first, last, hreach.1, hreach.2, hpath⟩
  · rintro ⟨hfair, first, last, hfirst, hlast, hpath⟩
    obtain ⟨b, hrows⟩ := rows_accepted (b := SolarBuckets.empty) hfair
    have haccounts := accounts_rows accounts_empty hrows
    have hcovered := (covered_iff hpath (List.forall_mem_map.mpr fun i hi => (hfair i hi).le)).mpr
      ⟨hfirst, hlast⟩
    have hwhole : ∀ s ∈ b.coveredS, s = 3600 := by
      rw [haccounts.covered, List.forall_mem_map]
      intro hour hhour
      exact hcovered hour (List.mem_range.mp hhour)
    obtain ⟨means, hmeans⟩ := means_accepts hwhole
    refine ⟨means, ?_⟩
    rw [distribute, hrows]
    exact hmeans

/-- The row that closes the hour around the start of an hour of the year. -/
noncomputable def shiftedRow (hour : Nat) : SolarRow ℝ := ⟨[], hour * 3600 + 1800, some 1⟩

noncomputable def shiftedInterval (hour : Nat) : Interval :=
  ⟨hour * 3600 - 1800, hour * 3600 + 1800, some 1⟩

theorem intervals_shifted (hour n : Nat) {prevEnd : Option Int}
    (h : prevEnd.getD ((shiftedRow hour).endS - 3600) = (shiftedInterval hour).startS) :
    intervals prevEnd ((List.range' hour n).map shiftedRow) =
      (List.range' hour n).map shiftedInterval := by
  induction n generalizing hour prevEnd with
  | zero => rfl
  | succ n ih =>
    have hnext : (some (shiftedRow hour).endS).getD ((shiftedRow (hour + 1)).endS - 3600) =
        (shiftedInterval (hour + 1)).startS := by
      simp only [Option.getD_some, shiftedRow, shiftedInterval]
      omega
    rw [List.range'_succ, List.map_cons, List.map_cons, intervals, h, ih (hour + 1) hnext]
    rfl

theorem path_shifted (n : Nat) : Path (-1800) (((List.range n).map shiftedInterval).map
    fun i => (i.startS, i.endS)) (n * 3600 - 1800) := by
  have hpath := path_marks (fun hour : Nat => (hour : Int) * 3600 - 1800) n
  have hmark : ∀ hour : Nat, ((hour + 1 : Nat) : Int) * 3600 - 1800 = hour * 3600 + 1800 := by
    intro hour
    omega
  simp only [hmark, Nat.cast_zero, zero_mul, zero_sub] at hpath
  rw [List.map_map]
  exact hpath

theorem accepted_shifted {n : Nat} (h : HOURS_2024 < n) :
    ∃ means, distribute ((List.range n).map shiftedRow) = .ok means := by
  have hfirst : (none : Option Int).getD ((shiftedRow 0).endS - 3600) =
      (shiftedInterval 0).startS := by
    simp [shiftedRow, shiftedInterval]
  have hintervals := intervals_shifted 0 n hfirst
  rw [← List.range_eq_range'] at hintervals
  have hfair : ∀ i ∈ (List.range n).map shiftedInterval, Fair i := by
    rw [List.forall_mem_map]
    intro hour _
    constructor
    · simp only [Interval.durationS, shiftedInterval]
      omega
    · simp only [Interval.durationS, shiftedInterval]
      omega
    · intro _
      rfl
  rw [accepted_iff, hintervals]
  refine ⟨hfair, -1800, n * 3600 - 1800, by omega, ?_, path_shifted n⟩
  rw [spanS]
  omega

/-- Every bucket of the year takes half of one interval and half of the next. -/
theorem solar_conserved_shifted : ∃ means,
    distribute ((List.range (HOURS_2024 + 1)).map shiftedRow) = .ok means ∧
      Conserved (intervals none ((List.range (HOURS_2024 + 1)).map shiftedRow)) means := by
  obtain ⟨means, h⟩ := accepted_shifted (Nat.lt_succ_self HOURS_2024)
  exact ⟨means, h, solar_conserved h⟩

/-- What two readings in a row come to, both came to. -/
theorem read_bind {α β : Type} {x : Read α} {f : α → Read β} {b : β}
    (h : (x >>= f).run = some (.ok b)) :
    ∃ a, x.run = some (.ok a) ∧ (f a).run = some (.ok b) := by
  rw [ExceptT.run_bind] at h
  obtain ⟨read, hx, hf⟩ := Option.bind_eq_some_iff.mp h
  cases read with
  | error e => cases hf
  | ok a => exact ⟨a, hx, hf⟩

section

variable {parse : List Char → Option ℝ}

theorem distributeLine_ok {b b' : SolarBuckets ℝ} {line : List Char}
    (h : (distributeLine parse b line).run = some (.ok b')) :
    (rowOf parse line).toList.foldlM SolarBuckets.add b = .ok b' := by
  obtain ⟨row, hrow, h⟩ := read_bind h
  rw [rowOf, hrow]
  cases row with
  | none =>
    cases h
    rfl
  | some row =>
    have hadd : b.add row = .ok b' := Option.some.inj h
    simp [hadd]

theorem foldlM_lines {b b' : SolarBuckets ℝ} {texts : List (List Char)}
    (h : (texts.foldlM (distributeLine parse) b).run = some (.ok b')) :
    (texts.filterMap (rowOf parse)).foldlM SolarBuckets.add b = .ok b' := by
  induction texts generalizing b with
  | nil =>
    cases h
    rfl
  | cons line texts ih =>
    obtain ⟨b₁, hline, hrest⟩ := read_bind h
    have hline := distributeLine_ok hline
    have hcons : (line :: texts).filterMap (rowOf parse) =
        (rowOf parse line).toList ++ texts.filterMap (rowOf parse) := by
      cases hrow : rowOf parse line with
      | none => simp [hrow]
      | some row => simp [hrow]
    rw [hcons, List.foldlM_append, hline]
    exact ih hrest

/-- What is read off a file is what its rows give. -/
theorem distributeSolar_rows {text : List Char} {means : List ℝ}
    (h : (distributeSolar parse text).run = some (.ok means)) :
    distribute (solarRows parse text) = .ok means := by
  obtain ⟨b, hlines, hmeans⟩ := read_bind h
  have hrows : (solarRows parse text).foldlM SolarBuckets.add SolarBuckets.empty = .ok b :=
    foldlM_lines hlines
  rw [distribute, hrows]
  exact Option.some.inj hmeans

end

end BessSolar
