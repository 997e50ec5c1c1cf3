import BessEmulator.CompiledWeather
import BessEmulator.CyclicLine
import BessEmulator.ReferenceHours
import BessEmulator.WeatherYear

/-!
# What is replayed

The driver reads the line through the year's hours, the year a loop. From one
second to the next it moves by no more than a 3600th of an hour's change, and a
leap year replayed second by second sums to what the hours hold.
-/
namespace BessReplayed

open Bess Calendar Gregorian BessCivil BessReference CyclicLine

/-- An hourly series as a loop. -/
def loop (series : List ℝ) (i : ℤ) : ℝ := series.getD (i % series.length).toNat 0

variable {series : List ℝ}

theorem loop_turn (series : List ℝ) (i : ℤ) : loop series (i + series.length) = loop series i := by
  rw [loop, loop, Int.add_emod_right]

/-- The hour a place of the loop is at. -/
theorem get_loop (h : series ≠ []) (i : ℤ) :
    series[(i % series.length).toNat]? = some (loop series i) := by
  have hpos : (0 : ℤ) < series.length := by
    exact_mod_cast List.length_pos_of_ne_nil h
  have hlo := Int.emod_nonneg i hpos.ne'
  have hhi := Int.emod_lt_of_pos i hpos
  have hlt : (i % series.length).toNat < series.length := by omega
  rw [loop, List.getD_eq_getElem?_getD, List.getElem?_eq_getElem hlt, Option.getD_some]

theorem trunc_real (x : ℝ) : Scalar.trunc x = if 0 ≤ x then ⌊x⌋ else ⌈x⌉ := rfl

theorem remEuclid_eq (x : ℝ) {m : ℝ} (hm : 0 < m) : remEuclid x m = x - ⌊x / m⌋ * m := by
  have hx : x / m * m = x := div_mul_cancel₀ x hm.ne'
  have hlow := mul_le_mul_of_nonneg_right (Int.floor_le (x / m)) hm.le
  rw [hx] at hlow
  rw [remEuclid, trunc_real, Scalar.ofInt_real, Scalar.abs_real, abs_of_pos hm]
  by_cases h : 0 ≤ x / m
  · rw [if_pos h, if_neg (by linarith)]
  · rw [if_neg h]
    by_cases hwhole : (⌈x / m⌉ : ℝ) = x / m
    · -- a whole quotient leaves nothing
      have hfloor : ⌊x / m⌋ = ⌈x / m⌉ := by
        rw [← hwhole, Int.floor_intCast, Int.ceil_intCast]
      rw [hfloor, if_neg]
      rw [hwhole, hx, sub_self]
      exact lt_irrefl 0
    · have hlt : x / m < ⌈x / m⌉ := lt_of_le_of_ne (Int.le_ceil _) (Ne.symm hwhole)
      have hmul := mul_lt_mul_of_pos_right hlt hm
      rw [hx] at hmul
      have hfloor : ⌊x / m⌋ = ⌈x / m⌉ - 1 := by
        rw [Int.floor_eq_iff]
        have := Int.ceil_lt_add_one (x / m)
        push_cast
        constructor <;> linarith
      rw [if_pos (by linarith), hfloor]
      push_cast
      ring

/-- Interpolation reads the line through the loop, at every place. -/
theorem interpolate_line (h : series ≠ []) (x : ℝ) :
    interpolate series x = some (line (loop series) x) := by
  have hlen : 0 < series.length := List.length_pos_of_ne_nil h
  have hn : (0 : ℝ) < (series.length : ℝ) := Nat.cast_pos.mpr hlen
  obtain ⟨r, hr⟩ : ∃ r, r = remEuclid x (series.length : ℝ) := ⟨_, rfl⟩
  have hrem := hr.trans (remEuclid_eq x hn)
  have hr0 : 0 ≤ r := by
    have := mul_le_mul_of_nonneg_right (Int.floor_le (x / series.length)) hn.le
    rw [div_mul_cancel₀ x hn.ne'] at this
    linarith
  have hrn : r < series.length := by
    have := mul_lt_mul_of_pos_right (Int.lt_floor_add_one (x / series.length)) hn
    rw [div_mul_cancel₀ x hn.ne'] at this
    linarith
  have hcast : ((⌊x / series.length⌋ * series.length : ℤ) : ℝ) =
      ⌊x / series.length⌋ * series.length := by push_cast; ring
  rw [← hcast] at hrem
  have hfloor : ⌊r⌋ = ⌊x⌋ - ⌊x / series.length⌋ * series.length := by
    rw [hrem, Int.floor_sub_intCast]
  have hfract : Int.fract r = Int.fract x := by rw [hrem, Int.fract_sub_intCast]
  have hf0 : 0 ≤ ⌊r⌋ := Int.floor_nonneg.mpr hr0
  have hfn : ⌊r⌋ < series.length := Int.floor_lt.mpr (by exact_mod_cast hrn)
  have hmod : ⌊r⌋ = ⌊x⌋ % series.length := by
    rw [← Int.emod_eq_of_lt hf0 hfn, hfloor, Int.sub_mul_emod_self_right]
  have hidx : min (Scalar.trunc r).toNat (series.length - 1) = (⌊x⌋ % series.length).toNat := by
    rw [trunc_real, if_pos hr0, ← hmod]
    omega
  have hfrac : Scalar.clamp (r - ((⌊x⌋ % series.length).toNat : ℝ)) 0 1 = Int.fract x := by
    have hnat : (((⌊x⌋ % series.length).toNat : ℕ) : ℝ) = (⌊r⌋ : ℝ) := by
      rw [← hmod]
      exact_mod_cast Int.toNat_of_nonneg hf0
    rw [hnat, ← Int.fract, hfract,
      Scalar.clamp_of_mem (Int.fract_nonneg x) (Int.fract_lt_one x).le]
  have hnext : ((⌊x⌋ % series.length).toNat + 1) % series.length =
      ((⌊x⌋ + 1) % series.length).toNat := by
    obtain ⟨k, hk⟩ := Int.eq_ofNat_of_zero_le hf0
    have hcasts : ((k : ℤ) + 1) % series.length = ((k + 1) % series.length : ℕ) := by norm_cast
    rw [← Int.emod_add_emod, ← hmod, hk, Int.toNat_natCast, hcasts, Int.toNat_natCast]
  rw [interpolate]
  simp only [← hr, hidx, hfrac, hnext, get_loop h, Option.bind_eq_bind, Option.bind_some]
  rfl

/-- A year with its quantities for every hour. -/
structure Whole (y : WeatherYear ℝ) : Prop where
  tempC : y.tempC.length = hoursOf y.year.toNat
  ghiWm2 : y.ghiWm2.length = hoursOf y.year.toNat

theorem hoursOf_pos (year : Nat) : 0 < hoursOf year := by
  rw [hoursOf]
  split <;> decide

variable {w : HistoricalWeather ℝ} {sin : ℝ → ℝ}

theorem Whole.ne_nil {y : WeatherYear ℝ} (h : Whole y) : y.tempC ≠ [] ∧ y.ghiWm2 ≠ [] := by
  have hpos := hoursOf_pos y.year.toNat
  constructor
  · apply List.ne_nil_of_length_pos
    rwa [h.tempC]
  · apply List.ne_nil_of_length_pos
    rwa [h.ghiWm2]

/-- The inputs at a timestamp are read off two lines. -/
theorem inputsAt_line (h : Whole w.year) (t : Int) :
    w.inputsAt sin t = some
      { weather :=
          { ambientC := line (loop w.year.tempC) (w.positionH t)
            irradianceWm2 := line (loop w.year.ghiWm2) (w.positionH t - 1 / 2) }
        gridFrequencyHz := syntheticGridFrequencyHz sin t } := by
  have hhalf : (0.5 : ℝ) = 1 / 2 := by norm_num
  rw [HistoricalWeather.inputsAt, interpolate_line h.ne_nil.1, interpolate_line h.ne_nil.2, hhalf]
  rfl

theorem position_eq {t : Int} {d : Date} (h : civilFromDays (t / 86400) = fields d) :
    w.positionH t = (refDay w.year.year.toNat d : ℝ) * 24 + (t % 86400 : Int) / 3600 := by
  have hsixty : (3600.0 : ℝ) = 3600 := by norm_num
  rw [HistoricalWeather.positionH, referencePositionH, referenceDay_eq h]
  simp only [Scalar.ofInt_real, hsixty]
  push_cast
  ring

/-- The last second of a February that one of the two years has a day more of. -/
def OddFebruary (w : HistoricalWeather ℝ) (t : Int) (d : Date) : Prop :=
  EndsFebruary d ∧ t % 86400 = 86399 ∧ ¬(IsLeap d.year ↔ IsLeap w.year.year.toNat)

/-- A second on, around the end of the year. -/
theorem position_next {t : Int} {d : Date} (h : civilFromDays (t / 86400) = fields d)
    (hodd : ¬OddFebruary w t d) :
    w.positionH (t + 1) = w.positionH t + 1 / 3600 ∨
      w.positionH (t + 1) + hoursOf w.year.year.toNat = w.positionH t + 1 / 3600 := by
  by_cases hlast : t % 86400 = 86399
  · have hday : t / 86400 + 1 = (t + 1) / 86400 := by omega
    have hsecs : (t + 1) % 86400 = 0 := by omega
    have hnext := fields_next h
    rw [hday] at hnext
    rw [position_eq hnext, position_eq h, hsecs, hlast]
    by_cases hyear : EndsYear d
    · right
      have hwhole := refDay_lastDay w.year.year.toNat d hyear
      rw [refDay_newYear _ d hyear, ← hwhole]
      push_cast
      ring
    · left
      have hstep : refDay w.year.year.toNat d.next = refDay w.year.year.toNat d + 1 := by
        by_cases hfeb : EndsFebruary d
        · have hmarch := refDay_march w.year.year.toNat d hfeb
          have hsame : IsLeap d.year ↔ IsLeap w.year.year.toNat := by
            by_contra hne
            exact hodd ⟨hfeb, hlast, hne⟩
          by_cases hleap : IsLeap d.year
          · rw [if_pos hleap, if_pos (hsame.mp hleap)] at hmarch
            omega
          · rw [if_neg hleap, if_neg (mt hsame.mpr hleap)] at hmarch
            omega
        · exact refDay_next _ d hfeb hyear
      rw [hstep]
      push_cast
      ring
  · left
    have hday : (t + 1) / 86400 = t / 86400 := by omega
    have hsecs : (t + 1) % 86400 = t % 86400 + 1 := by omega
    rw [position_eq (d := d) (by rw [hday]; exact h), position_eq h, hsecs]
    push_cast
    ring

/-- From an hour to the next, the year a loop, a series changes by at most so much. -/
def Changes (series : List ℝ) (most : ℝ) : Prop := ∀ i, |loop series (i + 1) - loop series i| ≤ most

/-- A line along a loop moves slowly from second to second. -/
theorem line_second {most x y : ℝ} {n : Nat} (hlen : series.length = n) (hmost : Changes series most)
    (h : y = x + 1 / 3600 ∨ y + n = x + 1 / 3600) :
    |line (loop series) y - line (loop series) x| ≤ most / 3600 := by
  have hrise := line_rise hmost (by linarith : x ≤ x + 1 / 3600)
  have hstep : most * (x + 1 / 3600 - x) = most / 3600 := by ring
  rw [hstep] at hrise
  rcases h with rfl | h
  · exact hrise
  · rw [← line_turn (n := n) (by rw [← hlen]; exact loop_turn series) y, h]
    exact hrise

/-- Replayed weather has no seam. From each second to the next, over the end of the year too,
neither input moves by more than a 3600th of an hour's change; only a leap day that one of the
years lacks is passed over. -/
theorem replay_no_seam {mostK mostWm2 : ℝ} (hw : Whole w.year) (htemp : Changes w.year.tempC mostK)
    (hghi : Changes w.year.ghiWm2 mostWm2) (t : Int) (d : Date)
    (hd : civilFromDays (t / 86400) = fields d) (hodd : ¬OddFebruary w t d) :
    ∃ now next, w.inputsAt sin t = some now ∧ w.inputsAt sin (t + 1) = some next ∧
      |next.weather.ambientC - now.weather.ambientC| ≤ mostK / 3600 ∧
        |next.weather.irradianceWm2 - now.weather.irradianceWm2| ≤ mostWm2 / 3600 := by
  refine ⟨_, _, inputsAt_line hw t, inputsAt_line hw (t + 1), ?_, ?_⟩
  · exact line_second hw.tempC htemp (position_next hd hodd)
  · refine line_second hw.ghiWm2 hghi ((position_next hd hodd).imp ?_ ?_)
    · intro h
      rw [h]
      ring
    · intro h
      linarith

/-- Hours that take turns. -/
noncomputable def turns (n : Nat) (high : ℝ) : List ℝ :=
  (List.range n).map fun i => if i % 2 = 0 then 0 else high

theorem length_turns (n : Nat) (high : ℝ) : (turns n high).length = n := by
  rw [turns, List.length_map, List.length_range]

theorem turns_changes {n : Nat} {high : ℝ} (h : 0 ≤ high) : Changes (turns n high) high := by
  have hloop : ∀ i, 0 ≤ loop (turns n high) i ∧ loop (turns n high) i ≤ high := by
    intro i
    rw [loop, List.getD_eq_getElem?_getD]
    cases hget : (turns n high)[(i % (turns n high).length).toNat]? with
    | none => exact ⟨le_refl 0, h⟩
    | some x =>
      rw [turns] at hget
      obtain ⟨k, -, rfl⟩ := List.mem_map.mp (List.mem_of_getElem? hget)
      rw [Option.getD_some]
      split
      · exact ⟨le_refl 0, h⟩
      · exact ⟨h, le_refl high⟩
  intro i
  rw [abs_le]
  constructor <;> linarith [hloop i, hloop (i + 1)]

/-- A leap year of such hours. -/
noncomputable def turning : HistoricalWeather ℝ where
  year := {
    year := 2024
    stationId := 3015
    fills := ⟨0, 0, 0, 0, 0, 0, 0, 0⟩
    tempC := turns (hoursOf 2024) 1
    relHumidityPct := []
    ghiWm2 := turns (hoursOf 2024) 100
    precipMm := []
    precipForm := []
    windMs := []
    windDirDeg := []
    cloudOkta := [] }

theorem turning_whole : Whole turning.year :=
  ⟨by rw [turning, length_turns]; rfl, by rw [turning, length_turns]; rfl⟩

/-- From the last second of a year into the first of the next. -/
theorem replay_no_seam_turning : ∃ now next, turning.inputsAt id (-1) = some now ∧
    turning.inputsAt id (-1 + 1) = some next ∧
      |next.weather.ambientC - now.weather.ambientC| ≤ 1 / 3600 ∧
        |next.weather.irradianceWm2 - now.weather.irradianceWm2| ≤ 100 / 3600 := by
  have htemp : turning.year.tempC = turns (hoursOf 2024) 1 := by rw [turning]
  have hghi : turning.year.ghiWm2 = turns (hoursOf 2024) 100 := by rw [turning]
  refine replay_no_seam turning_whole (htemp ▸ turns_changes zero_le_one)
    (hghi ▸ turns_changes (by norm_num)) (-1)
    ⟨1969, 12, 31, by decide, by decide, by decide, by decide⟩ (by decide) ?_
  rintro ⟨⟨hmonth, -⟩, -⟩
  exact absurd hmonth (by decide)

/-- The first second of a year. -/
def yearBegins (year : Nat) : Int := daysFromCivil year 1 1 * 86400

/-- A year's days are the days up to its end. -/
theorem day_of_year (year n : Nat) (hn : n * 24 + 24 ≤ hoursOf year) :
    ∃ d : Date, d.year = year ∧ d.number = (newYear year).number + n := by
  induction n with
  | zero => exact ⟨newYear year, rfl, by simp⟩
  | succ n ih =>
    obtain ⟨d, hyear, hnumber⟩ := ih (by omega)
    refine ⟨d.next, ?_, by rw [Date.number_next, hnumber]; push_cast; ring⟩
    have hends : ¬EndsYear d := by
      intro h
      have hlast := refDay_lastDay year d h
      have hown := refDay_own hyear
      omega
    rw [Date.next]
    split
    · exact hyear
    · next hday =>
      split
      · exact hyear
      · next hmonth =>
        have hlength : monthLength d.year 12 = 31 := rfl
        have h12 : d.month = 12 := le_antisymm d.month_le (not_lt.mp hmonth)
        have hle := d.day_le
        rw [h12] at hday hle
        exact absurd ⟨h12, by omega⟩ hends

/-- In a leap year replayed from a leap year, the place is the time since its beginning. -/
theorem position_leap {year : Nat} (hleap : IsLeap year) (hw : IsLeap w.year.year.toNat) {n : Nat}
    (hn : n < 8784 * 3600) : w.positionH (yearBegins year + n) = n / 3600 := by
  obtain ⟨d, hyear, hnumber⟩ := day_of_year year (n / 86400) (by rw [hoursOf, if_pos hleap]; omega)
  have hbegin : daysFromCivil year 1 1 = (newYear year).number - EPOCH :=
    daysFromCivil_date (newYear year)
  have hday : (yearBegins year + n) / 86400 = d.number - EPOCH := by
    rw [yearBegins, hbegin, hnumber]
    omega
  have hsecs : (yearBegins year + n) % 86400 = (n % 86400 : Nat) := by
    rw [yearBegins]
    omega
  have hown := refDay_own hyear
  have hsame : refDay w.year.year.toNat d = refDay year d := by
    simp only [refDay, hleap, hw]
  have href : refDay year d = n / 86400 := by omega
  rw [position_eq (d := d) (by rw [hday, civilFromDays_number]), hsecs, hsame, href]
  have hsplit : (n : ℝ) = (n / 86400 : Nat) * 86400 + (n % 86400 : Nat) := by
    exact_mod_cast (Nat.div_add_mod' n 86400).symm
  rw [Int.cast_natCast, hsplit]
  ring

/-- The irradiance replayed at a timestamp; zero where there is none. -/
noncomputable def irradianceAt (w : HistoricalWeather ℝ) (sin : ℝ → ℝ) (t : Int) : ℝ :=
  ((w.inputsAt sin t).map fun i => i.weather.irradianceWm2).getD 0

noncomputable def ambientAt (w : HistoricalWeather ℝ) (sin : ℝ → ℝ) (t : Int) : ℝ :=
  ((w.inputsAt sin t).map fun i => i.weather.ambientC).getD 0

theorem sum_getD (series : List ℝ) :
    ∑ k ∈ Finset.range series.length, series.getD k 0 = series.sum := by
  induction series with
  | nil => rfl
  | cons x series ih =>
    rw [List.length_cons, Finset.sum_range_succ', List.sum_cons, ← ih]
    simp only [List.getD_cons_succ, List.getD_cons_zero]
    ring

theorem sum_loop (series : List ℝ) :
    ∑ k ∈ Finset.range series.length, loop series k = series.sum := by
  rw [← sum_getD]
  refine Finset.sum_congr rfl fun k hk => ?_
  have hlt := Finset.mem_range.mp hk
  have hmod : (k : ℤ) % series.length = k := Int.emod_eq_of_lt (by omega) (by omega)
  rw [loop, hmod, Int.toNat_natCast]

/-- A series read once a second, so many seconds late, over as many hours as it has. -/
theorem sum_seconds (late : ℤ) (series : List ℝ) :
    ∑ n ∈ Finset.range (series.length * 3600), line (loop series) (((n : ℝ) + late) / 3600) =
      3600 * series.sum := by
  have hsum := sum_grid_turn (f := loop series) (loop_turn series) (m := 3600) (by decide) late
  rw [sum_loop] at hsum
  exact_mod_cast hsum

/-- A leap year's replay loses nothing. Second by second, the irradiance sums to the hours'
means times their seconds, though it is spread between midpoints and around the end of the year;
so does the temperature. -/
theorem replay_leap_year {year : Nat} (hw : Whole w.year) (hleap : IsLeap year)
    (hwleap : IsLeap w.year.year.toNat) :
    ∑ n ∈ Finset.range (8784 * 3600), irradianceAt w sin (yearBegins year + n) =
        3600 * w.year.ghiWm2.sum ∧
      ∑ n ∈ Finset.range (8784 * 3600), ambientAt w sin (yearBegins year + n) =
        3600 * w.year.tempC.sum := by
  have hhours : hoursOf w.year.year.toNat = 8784 := if_pos hwleap
  have htemp := hw.tempC
  have hghi := hw.ghiWm2
  rw [hhours] at htemp hghi
  constructor
  · rw [← sum_seconds (-1800), hghi]
    refine Finset.sum_congr rfl fun n hn => ?_
    have hplace := position_leap (w := w) hleap hwleap (Finset.mem_range.mp hn)
    have hlate : (n : ℝ) / 3600 - 1 / 2 = ((n : ℝ) + (-1800 : ℤ)) / 3600 := by
      push_cast
      ring
    rw [irradianceAt, inputsAt_line hw, Option.map_some, Option.getD_some, hplace, hlate]
  · rw [← sum_seconds 0, htemp]
    refine Finset.sum_congr rfl fun n hn => ?_
    have hplace := position_leap (w := w) hleap hwleap (Finset.mem_range.mp hn)
    rw [ambientAt, inputsAt_line hw, Option.map_some, Option.getD_some, hplace, Int.cast_zero, add_zero]

/-- 2028, replayed. -/
theorem replay_leap_year_turning :
    ∑ n ∈ Finset.range (8784 * 3600), irradianceAt turning id (yearBegins 2028 + n) =
        3600 * turning.year.ghiWm2.sum ∧
      ∑ n ∈ Finset.range (8784 * 3600), ambientAt turning id (yearBegins 2028 + n) =
        3600 * turning.year.tempC.sum :=
  replay_leap_year turning_whole (by decide) (show IsLeap ((2024 : Nat) : Int) by decide)

open BessGaps BessCompile

/-- The hour as the scenery shows it: as observed, but for the rounding. -/
structure Shows (o : Observed) (hour : Nat) (s : HourSample ℝ) : Prop where
  temp : |s.tempC - lineAt (observations o.temp) hour| ≤ 1 / 20
  rh : |s.relHumidityPct - lineAt (observations o.rh) hour| ≤ 1 / 20
  ghi : ∃ v, o.ghi[hour]? = some v ∧ |s.ghiWm2 - v| ≤ 1 / 20
  precipMm : |s.precipMm - (o.precipMm.getD hour none).getD 0| ≤ 1 / 20
  precipForm : ∃ v q, FallenAs o.precipForm o.precipMm hour v ∧ ((q : UInt8).toNat : Int) = whole v ∧
    s.precipForm = PrecipForm.fromCode q
  windMs : |s.windMs - lineAt (observations o.windMs) hour| ≤ 1 / 20
  windDir : ∃ v, AtNearest o.windDir hour v ∧ |s.windDirDeg - v| ≤ 1 / 2
  cloud : ∃ v, AtNearest o.cloud hour v ∧ (s.cloudOkta.toNat : Int) = whole v

theorem tenth_real (q : Int16) : (WeatherYear.tenth q : ℝ) = q.toInt / 10 := by
  have hten : (10.0 : ℝ) = 10 := by norm_num
  rw [WeatherYear.tenth, Scalar.ofInt_real, hten]

/-- A value stored in tenths is read back to half a tenth. -/
theorem stored_tenth {lo hi : Int} {R : Nat → ℝ → Prop} {qs : List Int16}
    (h : Stored Int16.toInt 10 lo hi R qs) {hour : Nat} (hhour : hour < HOURS_2024) :
    ∃ v x, R hour v ∧ (qs.map WeatherYear.tenth)[hour]? = some x ∧ |x - v| ≤ 1 / 20 ∧
      (lo : ℝ) / 10 ≤ x ∧ x ≤ (hi : ℝ) / 10 := by
  obtain ⟨v, q, hR, hq, hwhole, hlo, hhi⟩ := h.value hour hhour
  refine ⟨v, WeatherYear.tenth q, hR, by rw [List.getElem?_map, hq]; rfl, ?_, ?_, ?_⟩
  · have hround := abs_whole_sub (v * 10)
    rw [← hwhole] at hround
    have hsplit : (q.toInt : ℝ) / 10 - v = ((q.toInt : ℝ) - v * 10) / 10 := by ring
    rw [tenth_real, hsplit, abs_div, abs_of_pos (by norm_num : (0 : ℝ) < 10)]
    linarith
  · rw [tenth_real]
    have : (lo : ℝ) ≤ q.toInt := Int.cast_le.mpr hlo
    linarith
  · rw [tenth_real]
    have : (q.toInt : ℝ) ≤ hi := Int.cast_le.mpr hhi
    linarith

/-- Read as a loop, what is stored in tenths stays within its limits. -/
theorem stored_between {lo hi : Int} {R : Nat → ℝ → Prop} {qs : List Int16}
    (h : Stored Int16.toInt 10 lo hi R qs) (x : ℝ) :
    (lo : ℝ) / 10 ≤ line (loop (qs.map WeatherYear.tenth)) x ∧
      line (loop (qs.map WeatherYear.tenth)) x ≤ (hi : ℝ) / 10 := by
  refine line_between (fun i => ?_) x
  have hlen : (qs.map (WeatherYear.tenth (F := ℝ))).length = HOURS_2024 := by
    rw [List.length_map, h.length]
  have hne : qs.map (WeatherYear.tenth (F := ℝ)) ≠ [] := by
    apply List.ne_nil_of_length_pos
    rw [hlen]
    decide
  have hget := get_loop hne i
  have hhour := (List.getElem?_eq_some_iff.mp hget).1
  rw [hlen] at hhour
  obtain ⟨v, y, -, hy, -, hbounds⟩ := stored_tenth h hhour
  rw [hlen, hy, Option.some_inj] at hget
  rw [← hget]
  exact hbounds

/-- The whole bucket of a timestamp is its hour of the reference year. -/
theorem hourAt_eq {y : WeatherYear ℝ} (hlen : y.tempC.length = hoursOf y.year.toNat) (t : Int) :
    HistoricalWeather.hourAt ⟨y⟩ t = y.hour (referenceHour t y.year.toNat) := by
  obtain ⟨d, hd, -⟩ := consecutive_fields (t / 86400)
  have hlt : referenceHour t y.year.toNat < hoursOf y.year.toNat := by
    have hday := refDay_lt y.year.toNat d
    have hhour := hourOf_lt t
    rw [referenceHour_eq hd]
    omega
  have hpos : (0 : ℝ) ≤ referencePositionH t y.year.toNat := by
    rw [← Int.floor_nonneg, hour_floor]
    exact Int.natCast_nonneg _
  rw [HistoricalWeather.hourAt, HistoricalWeather.positionH]
  dsimp only
  rw [trunc_real, if_pos hpos, hour_floor, Int.toNat_natCast, WeatherYear.len, hlen,
    min_eq_left (by omega)]

/-- At the stroke of an hour the place is the hour's. -/
theorem position_stroke {t : Int} (h : t % 3600 = 0) : w.positionH t =
    ((referenceHour t w.year.year.toNat : ℤ) : ℝ) := by
  obtain ⟨d, hd, -⟩ := consecutive_fields (t / 86400)
  have hsecs : t % 86400 = 3600 * hourOf t := by
    rw [hourOf]
    omega
  rw [position_eq hd, referenceHour_eq hd, hsecs]
  push_cast
  ring

/-- An artifact that holds what was observed loads under its own hash; replayed at any second of
any year it stays within the limits it was stored under, and shows each hour as observed. -/
theorem compiled_replays {o : Observed} {data : WeatherCodec.ArtifactData} (h : Holds o data)
    {bytes : List UInt8} (hbytes : WeatherCodec.encode data = .ok bytes) :
    ∃ y : WeatherYear ℝ, WeatherYear.bundled bytes (fnvFold fnvOffset bytes) = some y ∧
      ∀ t, ∃ inputs sample, HistoricalWeather.inputsAt sin ⟨y⟩ t = some inputs ∧
        HistoricalWeather.hourAt ⟨y⟩ t = some sample ∧
          (-50 ≤ inputs.weather.ambientC ∧ inputs.weather.ambientC ≤ 50) ∧
            (0 ≤ inputs.weather.irradianceWm2 ∧ inputs.weather.irradianceWm2 ≤ 1500) ∧
              Shows o (referenceHour t 2024) sample ∧
                (t % 3600 = 0 → inputs.weather.ambientC = sample.tempC) := by
  have hyear : (WeatherYear.ofData data : WeatherYear ℝ).year.toNat = 2024 := by
    rw [WeatherYear.ofData, h.year]
    rfl
  have hhours : hoursOf 2024 = HOURS_2024 := if_pos (by decide)
  have hwhole : Whole (WeatherYear.ofData data : WeatherYear ℝ) := by
    constructor
    · rw [hyear, hhours, WeatherYear.ofData, List.length_map, h.temp.length]
    · rw [hyear, hhours, WeatherYear.ofData, List.length_map, h.ghi.length]
  refine ⟨WeatherYear.ofData data, ?_, fun t => ?_⟩
  · have hstorable := BessWeather.storable_of_encode hbytes
    rw [BessWeather.encode_storable hstorable] at hbytes
    cases hbytes
    rw [WeatherYear.bundled, if_pos rfl, BessWeather.decode_written hstorable]
  · have hhour : referenceHour t 2024 < HOURS_2024 := by
      obtain ⟨d, hd, -⟩ := consecutive_fields (t / 86400)
      have hday := refDay_lt 2024 d
      have hlt := hourOf_lt t
      rw [referenceHour_eq hd, ← hhours]
      omega
    obtain ⟨vt, xt, ht, htget, htclose, -⟩ := stored_tenth h.temp hhour
    obtain ⟨vr, xr, hr, hrget, hrclose, -⟩ := stored_tenth h.rh hhour
    obtain ⟨vg, xg, hg, hgget, hgclose, -⟩ := stored_tenth h.ghi hhour
    obtain ⟨vp, xp, hp, hpget, hpclose, -⟩ := stored_tenth h.precipMm hhour
    obtain ⟨vw, xw, hw, hwget, hwclose, -⟩ := stored_tenth h.windMs hhour
    obtain ⟨vd, qd, hd, hdget, hdwhole, -⟩ := h.windDir.value _ hhour
    obtain ⟨vf, qf, hf, hfget, hfwhole, -⟩ := h.precipForm.value _ hhour
    obtain ⟨vc, qc, hc, hcget, hcwhole, -⟩ := h.cloud.value _ hhour
    rw [mul_one] at hdwhole hfwhole hcwhole
    have hsample : HistoricalWeather.hourAt ⟨WeatherYear.ofData data⟩ t =
        some ⟨xt, xr, xg, xp, PrecipForm.fromCode qf, xw, (qd.toInt : ℝ), qc⟩ := by
      have htemp : (WeatherYear.ofData data : WeatherYear ℝ).tempC.length =
          hoursOf (WeatherYear.ofData data : WeatherYear ℝ).year.toNat := hwhole.tempC
      rw [hourAt_eq htemp, hyear, WeatherYear.hour, WeatherYear.ofData]
      simp only [htget, hrget, hgget, hpget, hwget, List.getElem?_map, hdget, hfget, hcget,
        Scalar.ofInt_real, Option.map_some, Option.bind_eq_bind, Option.bind_some]
      rfl
    refine ⟨_, _, inputsAt_line hwhole t, hsample, ?_, ?_, ?_, ?_⟩
    · have hbounds := stored_between h.temp (HistoricalWeather.positionH ⟨WeatherYear.ofData data⟩ t)
      norm_num at hbounds
      exact hbounds
    · have hbounds := stored_between h.ghi
        (HistoricalWeather.positionH ⟨WeatherYear.ofData data⟩ t - 1 / 2)
      norm_num at hbounds
      exact hbounds
    · exact
        { temp := by rwa [← show vt = _ from ht]
          rh := by rwa [← show vr = _ from hr]
          ghi := ⟨vg, hg, hgclose⟩
          precipMm := by rwa [← show vp = _ from hp]
          precipForm := ⟨vf, qf, hf, hfwhole, rfl⟩
          windMs := by rwa [← show vw = _ from hw]
          windDir := ⟨vd, hd, by rw [hdwhole]; exact abs_whole_sub vd⟩
          cloud := ⟨vc, hc, hcwhole⟩ }
    · intro hstroke
      have hplace := position_stroke (w := ⟨WeatherYear.ofData data⟩) hstroke
      dsimp only at hplace
      rw [hyear] at hplace
      have hmod : (referenceHour t 2024 : ℤ) % (data.tempCX10.map (WeatherYear.tenth (F := ℝ))).length =
          referenceHour t 2024 := by
        rw [List.length_map, h.temp.length]
        exact Int.emod_eq_of_lt (Int.natCast_nonneg _) (by exact_mod_cast hhour)
      change line (loop (data.tempCX10.map WeatherYear.tenth))
        (HistoricalWeather.positionH ⟨WeatherYear.ofData data⟩ t) = xt
      rw [hplace, line_whole, loop, hmod, Int.toNat_natCast, List.getD_eq_getElem?_getD, htget]
      rfl

/-- A series observed in every hour. -/
noncomputable def observed (v : Nat → ℝ) : Series ℝ := (List.range HOURS_2024).map fun hour : Nat => some (v hour)

section

variable {v : Nat → ℝ} {hour : Nat}

theorem observed_get (h : hour < HOURS_2024) : (observed v)[hour]? = some (some (v hour)) := by
  rw [observed, List.getElem?_map, List.getElem?_range h, Option.map_some]

theorem observed_line (h : hour < HOURS_2024) : OnLine (observed v) hour (v hour) :=
  (lineAt_joins (observations_ascending _) (.listed (mem_observations.mpr (observed_get h)))).symm

theorem observed_nearest (h : hour < HOURS_2024) : AtNearest (observed v) hour (v hour) :=
  ⟨hour, nearest_self (mem_known.mpr ⟨v hour, observed_get h⟩), observed_get h⟩

theorem observed_fallen (h : hour < HOURS_2024) : Fallen (observed v) hour (v hour) := by
  rw [Fallen, List.getD_eq_getElem?_getD, observed_get h]
  rfl

theorem observed_fallenAs {mm : Series ℝ} (h : hour < HOURS_2024) : FallenAs (observed v) mm hour (v hour) := by
  rw [FallenAs, List.getD_eq_getElem?_getD, observed_get h]
  rfl

theorem whole_int (n : Int) : whole (n : ℝ) = n := by
  have hclose := abs_lt.mp ((abs_whole_sub (n : ℝ)).trans_lt (show (1 / 2 : ℝ) < 1 by norm_num))
  have hlo : (-1 : Int) < whole (n : ℝ) - n := by exact_mod_cast hclose.1
  have hhi : whole (n : ℝ) - n < 1 := by exact_mod_cast hclose.2
  omega

/-- Values that are whole counts of the unit are stored as those counts. -/
theorem stored_counts {β : Type} {toInt : β → Int} {q : Nat → β} {n : Nat → Int} {unit : ℝ} {lo hi : Int}
    {R : Nat → ℝ → Prop} (hunit : unit ≠ 0) (hR : ∀ hour < HOURS_2024, R hour ((n hour : ℝ) / unit))
    (hq : ∀ hour, toInt (q hour) = n hour) (hbounds : ∀ hour, lo ≤ n hour ∧ n hour ≤ hi) :
    Stored toInt unit lo hi R ((List.range HOURS_2024).map q) := by
  refine ⟨by rw [List.length_map, List.length_range], fun hour hhour => ?_⟩
  refine ⟨_, q hour, hR hour hhour, ?_, ?_, ?_⟩
  · rw [List.getElem?_map, List.getElem?_range hhour, Option.map_some]
  · rw [div_mul_cancel₀ _ hunit, whole_int, hq]
  · rw [hq]
    exact hbounds hour

end

/-- A count that climbs from `low` and falls back every `period` hours. -/
def ramp (low : Int) (period hour : Nat) : Int := low + ((hour % period : Nat) : Int)

theorem ramp_between (low : Int) {period : Nat} (h : 0 < period) (hour : Nat) :
    low ≤ ramp low period hour ∧ ramp low period hour < low + period := by
  have hlt := Nat.mod_lt hour h
  rw [ramp]
  omega

def words (low : Int) (period : Nat) : List Int16 :=
  (List.range HOURS_2024).map fun hour : Nat => Int16.ofInt (ramp low period hour)

def codes (low : Int) (period : Nat) : List UInt8 :=
  (List.range HOURS_2024).map fun hour : Nat => UInt8.ofNat (ramp low period hour).toNat

section

variable {low lo hi : Int} {period : Nat} {unit : ℝ} {R : Nat → ℝ → Prop}

theorem words_stored (hunit : unit ≠ 0) (hR : ∀ hour < HOURS_2024, R hour ((ramp low period hour : ℝ) / unit))
    (hpos : 0 < period) (hlow : lo ≤ low) (hhigh : low + period ≤ hi + 1) (hlo : -(2 ^ 15) ≤ lo)
    (hhi : hi < 2 ^ 15) : Stored Int16.toInt unit lo hi R (words low period) := by
  rw [words]
  apply stored_counts hunit hR
  · intro hour
    have hbounds := ramp_between low hpos hour
    exact Int16.toInt_ofInt_of_le (by omega) (by omega)
  · intro hour
    have hbounds := ramp_between low hpos hour
    omega

theorem codes_stored (hR : ∀ hour < HOURS_2024, R hour ((ramp low period hour : ℝ) / 1)) (hpos : 0 < period)
    (hlow : 0 ≤ low) (hhigh : low + period ≤ 256) :
    Stored (fun q : UInt8 => (q.toNat : Int)) 1 0 255 R (codes low period) := by
  rw [codes]
  apply stored_counts one_ne_zero hR
  · intro hour
    have hbounds := ramp_between low hpos hour
    have hbyte : (ramp low period hour).toNat < UInt8.size := by
      rw [UInt8.size]
      omega
    change ((UInt8.ofNat (ramp low period hour).toNat).toNat : Int) = _
    rw [UInt8.toNat_ofNat', Nat.mod_eq_of_lt hbyte]
    omega
  · intro hour
    have hbounds := ramp_between low hpos hour
    omega

end

/-- A year of ramps, each of its own period: thirty degrees of frost to forty of heat, and back. -/
noncomputable def rampObserved : Observed where
  temp := observed fun hour : Nat => (ramp (-300) 700 hour : ℝ) / 10
  rh := observed fun hour : Nat => (ramp 200 800 hour : ℝ) / 10
  windMs := observed fun hour : Nat => (ramp 0 250 hour : ℝ) / 10
  windDir := observed fun hour : Nat => (ramp 0 360 hour : ℝ) / 1
  cloud := observed fun hour : Nat => (ramp 0 9 hour : ℝ) / 1
  precipMm := observed fun hour : Nat => (ramp 0 60 hour : ℝ) / 10
  precipForm := observed fun hour : Nat => (ramp 6 3 hour : ℝ) / 1
  ghi := (List.range HOURS_2024).map fun hour : Nat => (ramp 0 9000 hour : ℝ) / 10

def rampData : WeatherCodec.ArtifactData where
  stationId := 3015
  year := 2024
  fills := ⟨0, 0, 0, 0, 0, 0, 0, 0⟩
  tempCX10 := words (-300) 700
  rhPctX10 := words 200 800
  ghiWm2X10 := words 0 9000
  precipMmX10 := words 0 60
  windMsX10 := words 0 250
  windDirDeg := words 0 360
  precipForm := codes 6 3
  cloudOkta := codes 0 9

theorem observed_missing (v : Nat → ℝ) : missing (observed v) = 0 := by
  have hnone : (observed v).countP Option.isNone = 0 := by
    rw [List.countP_eq_zero]
    intro x hx
    obtain ⟨hour, -, rfl⟩ := List.mem_map.mp hx
    exact Bool.false_ne_true
  rw [missing, hnone]
  rfl

theorem ramp_holds : Holds rampObserved rampData := by
  rw [rampObserved, rampData]
  have hten : (10 : ℝ) ≠ 0 := by norm_num
  have hlisted : ∀ hour < HOURS_2024, 
      Listed ((List.range HOURS_2024).map fun hour : Nat => (ramp 0 9000 hour : ℝ) / 10) hour
        ((ramp 0 9000 hour : ℝ) / 10) := by
    intro hour h
    rw [Listed, List.getElem?_map, List.getElem?_range h, Option.map_some]
  constructor <;> dsimp only
  · simp only [observed_missing]
  · exact words_stored hten (fun _ h => observed_line h) (by decide) (by decide) (by decide) (by decide) (by decide)
  · exact words_stored hten (fun _ h => observed_line h) (by decide) (by decide) (by decide) (by decide) (by decide)
  · exact words_stored hten hlisted (by decide) (by decide) (by decide) (by decide) (by decide)
  · exact words_stored hten (fun _ h => observed_fallen h) (by decide) (by decide) (by decide) (by decide)
      (by decide)
  · exact words_stored hten (fun _ h => observed_line h) (by decide) (by decide) (by decide) (by decide) (by decide)
  · exact words_stored one_ne_zero (fun _ h => observed_nearest h) (by decide) (by decide) (by decide) (by decide)
      (by decide)
  · exact codes_stored (fun _ h => observed_fallenAs h) (by decide) (by decide) (by decide)
  · exact codes_stored (fun _ h => observed_nearest h) (by decide) (by decide) (by decide)

/-- 31 March 2024, one o'clock: 23.9 degrees of frost. -/
theorem compiled_replays_ramp : ∃ y : WeatherYear ℝ,
    WeatherYear.bundled (BessWeather.writtenBytes rampData)
      (fnvFold fnvOffset (BessWeather.writtenBytes rampData)) = some y ∧
      ∃ inputs sample, HistoricalWeather.inputsAt id ⟨y⟩ 1711846800 = some inputs ∧
        HistoricalWeather.hourAt ⟨y⟩ 1711846800 = some sample ∧
          |inputs.weather.ambientC + 23.9| ≤ 1 / 20 ∧ sample.cloudOkta = 1 := by
  have hstorable : BessWeather.Storable rampData := by
    refine ⟨⟨rfl, ?_, ?_, ?_, ?_, ?_, ?_, ?_⟩, ?_⟩ <;>
      simp only [rampData, words, codes, List.length_map, List.length_range]
    decide
  obtain ⟨y, hload, hreplay⟩ := @compiled_replays id _ _ ramp_holds _
    (BessWeather.encode_storable hstorable)
  obtain ⟨inputs, sample, hinputs, hsample, -, -, hshown, hstroke⟩ := hreplay 1711846800
  have hhour : referenceHour 1711846800 2024 = 2161 := by decide
  have hinside : 2161 < HOURS_2024 := by decide
  rw [hhour, rampObserved] at hshown
  refine ⟨y, hload, inputs, sample, hinputs, hsample, ?_, ?_⟩
  · have hline : _ = lineAt _ 2161 := @observed_line (fun hour => (ramp (-300) 700 hour : ℝ) / 10) 2161 hinside
    have hramp : (ramp (-300) 700 2161 : ℝ) / 10 = -23.9 := by norm_num [ramp]
    have htemp := hshown.temp
    dsimp only at htemp hline
    rw [Nat.cast_ofNat, ← hline, hramp] at htemp
    rw [hstroke (by decide), ← sub_neg_eq_add]
    exact htemp
  · obtain ⟨v, hv, hcode⟩ := hshown.cloud
    have hnear := @observed_nearest (fun hour => (ramp 0 9 hour : ℝ) / 1) 2161 hinside
    have hramp : (ramp 0 9 2161 : ℝ) / 1 = ((1 : Int) : ℝ) := by norm_num [ramp]
    dsimp only at hv hnear
    rw [single_atNearest _ 2161 _ _ hv hnear, hramp, whole_int] at hcode
    exact UInt8.toNat_inj.mp (Int.ofNat_inj.mp hcode)

end BessReplayed
