import BessEmulator.FirstBest
import BessEmulator.Stops
import BessEmulator.WeatherReplay

/-!
# A stop shows what it says

A stop is found in the dataset and mapped onto the plant's year by date. Opened there, the
plant sees the very hours the stop was found by: the whole day from nine hours before, or
the hour of the rain an hour on.
-/
namespace BessStops

open Bess Viewer Calendar Gregorian BessCivil BessReference BessReplayed FirstBest

/-- What a day of the series sums to. -/
def totalOf (hourly : List ℝ) (day : Nat) : ℝ := ((hourly.drop (24 * day)).take 24).sum

/-- A day is further out than another. -/
def Beats (want : Extreme) (a b : ℝ) : Prop :=
  match want with
  | .highest => b < a
  | .lowest => a < b

/-- The first of the most extreme days of a series. -/
structure ExtremeAt (hourly : List ℝ) (want : Extreme) (day : Nat) : Prop where
  inside : day < hourly.length / 24
  best : ∀ other < hourly.length / 24, ¬Beats want (totalOf hourly other) (totalOf hourly day)
  first : ∀ other < day, Beats want (totalOf hourly day) (totalOf hourly other)

theorem dayTotals_numbered (hourly : List ℝ) :
    dayTotals hourly = (List.range (hourly.length / 24)).map fun day => (day, totalOf hourly day) := by
  simp only [dayTotals, totalOf, List.sum_eq_foldl]

/-- Both searches are the scan that keeps the first of the best, by the total or by its opposite. -/
theorem scan_keep :
    (fun (best : Option (Nat × ℝ)) p => if better .highest best p.2 then some p else best) =
        keep (fun p : Nat × ℝ => p.2) ∧
      (fun (best : Option (Nat × ℝ)) p => if better .lowest best p.2 then some p else best) =
        keep (fun p : Nat × ℝ => OrderDual.toDual p.2) := by
  constructor
  · funext best p
    cases best <;> simp [better, keep]
  · funext best p
    cases best <;> simp [better, keep]

/-- The search finds the first of the most extreme days. -/
theorem extremeDay_first {hourly : List ℝ} (hlong : 24 ≤ hourly.length) (want : Extreme) :
    ∃ day, extremeDay hourly want = some day ∧ ExtremeAt hourly want day := by
  have hdays : 0 < hourly.length / 24 := by omega
  rw [extremeDay, if_neg (by omega), dayTotals_numbered]
  cases want with
  | highest =>
    rw [scan_keep.1]
    obtain ⟨day, hday, hfound, hbest, hfirst⟩ := numbered_keep (totalOf hourly) (fun total : ℝ => total) hdays
    exact ⟨day, hfound, hday, fun other hother => not_lt.mpr (hbest other hother), hfirst⟩
  | lowest =>
    rw [scan_keep.2]
    obtain ⟨day, hday, hfound, hbest, hfirst⟩ := numbered_keep (totalOf hourly) OrderDual.toDual hdays
    exact ⟨day, hfound, hday,
      fun other hother => not_lt.mpr (OrderDual.toDual_le_toDual.mp (hbest other hother)),
      fun other hother => OrderDual.toDual_lt_toDual.mp (hfirst other hother)⟩

/-- The precipitation of an hour that is wet and accepted. -/
def Wet (y : WeatherYear ℝ) (accept : HourSample ℝ → Bool) (hour : Nat) (mm : ℝ) : Prop :=
  ∃ sample, y.hour hour = some sample ∧ 0.05 < sample.precipMm ∧ accept sample = true ∧
    mm = sample.precipMm

/-- The first of the wettest hours. -/
structure WettestAt (y : WeatherYear ℝ) (accept : HourSample ℝ → Bool) (hour : Nat) : Prop where
  inside : hour < y.len
  best : ∃ most, Wet y accept hour most ∧ (∀ other < y.len, ∀ mm, Wet y accept other mm → mm ≤ most) ∧
    ∀ other < hour, ∀ mm, Wet y accept other mm → mm < most

/-- The wet hours of the first few. -/
noncomputable def wetHours (y : WeatherYear ℝ) (accept : HourSample ℝ → Bool) (n : Nat) : List (Nat × ℝ) :=
  (List.range n).filterMap fun hour =>
    (y.hour hour).bind fun sample =>
      if decide (sample.precipMm ≤ 0.05) || !accept sample then none else some (hour, sample.precipMm)

theorem mem_wetHours {y : WeatherYear ℝ} {accept : HourSample ℝ → Bool} {n : Nat} {p : Nat × ℝ} :
    p ∈ wetHours y accept n ↔ p.1 < n ∧ Wet y accept p.1 p.2 := by
  obtain ⟨hour, mm⟩ := p
  simp only [wetHours, List.mem_filterMap, List.mem_range, Option.bind_eq_some_iff, Wet]
  constructor
  · rintro ⟨h, hn, sample, hsample, hwet⟩
    split at hwet
    · cases hwet
    · next hnot =>
      cases hwet
      simp only [Bool.or_eq_true, decide_eq_true_eq, Bool.not_eq_true', not_or, not_le,
        Bool.not_eq_false] at hnot
      exact ⟨hn, sample, hsample, hnot.1, hnot.2, rfl⟩
  · rintro ⟨hn, sample, hsample, hmm, haccept, rfl⟩
    refine ⟨hour, hn, sample, hsample, ?_⟩
    rw [if_neg]
    simp [haccept, hmm]

theorem wetHours_sorted (y : WeatherYear ℝ) (accept : HourSample ℝ → Bool) (n : Nat) :
    (wetHours y accept n).Pairwise fun a b => a.1 < b.1 := by
  rw [wetHours, List.pairwise_filterMap]
  apply List.pairwise_lt_range.imp
  intro a b hab p hp q hq
  obtain ⟨s, -, hp⟩ := Option.bind_eq_some_iff.mp hp
  obtain ⟨s', -, hq⟩ := Option.bind_eq_some_iff.mp hq
  split at hp
  · cases hp
  · split at hq
    · cases hq
    · cases hp
      cases hq
      exact hab

/-- The search over readable hours is the scan over the wet ones. -/
theorem keepHour_scan {y : WeatherYear ℝ} (accept : HourSample ℝ → Bool) {n : Nat}
    (hread : ∀ hour < n, (y.hour hour).isSome) :
    (List.range n).foldlM (keepHour y accept) none =
      some ((wetHours y accept n).foldl (keep fun p => p.2) none) := by
  induction n with
  | zero => rfl
  | succ n ih =>
    obtain ⟨sample, hsample⟩ := Option.isSome_iff_exists.mp (hread n (Nat.lt_succ_self n))
    have hlast : wetHours y accept (n + 1) = wetHours y accept n ++
        (if decide (sample.precipMm ≤ 0.05) || !accept sample then [] else [(n, sample.precipMm)]) := by
      rw [wetHours, List.range_succ, List.filterMap_append, ← wetHours]
      congr 1
      rw [List.filterMap_cons, hsample, Option.bind_some]
      split <;> simp_all
    rw [List.range_succ, List.foldlM_append, ih fun hour hhour => hread hour (Nat.lt_succ_of_lt hhour), hlast,
      List.foldl_append]
    generalize (wetHours y accept n).foldl (keep fun p => p.2) none = best
    simp only [Option.bind_eq_bind, Option.bind_some, List.foldlM_cons, List.foldlM_nil, keepHour, hsample]
    split
    · rfl
    · cases best with
      | none => rfl
      | some b => by_cases h : b.2 < sample.precipMm <;> simp [keep, h]

/-- The search finds the first of the wettest hours, if one is wet. -/
theorem wettestHour_first {y : WeatherYear ℝ} (hread : ∀ hour < y.len, (y.hour hour).isSome)
    (accept : HourSample ℝ → Bool) :
    ∃ found, wettestHour y accept = some found ∧ (∀ hour, found = some hour → WettestAt y accept hour) ∧
      (found = none → ∀ hour < y.len, ∀ mm, ¬Wet y accept hour mm) := by
  rw [wettestHour, keepHour_scan accept hread]
  obtain ⟨hnil, hnone⟩ | ⟨⟨hour, most⟩, hsome, hfirst⟩ :=
    foldl_keep (fun p : Nat × ℝ => p.2) (wetHours y accept y.len)
  · rw [hnone]
    refine ⟨none, rfl, ⟨by simp, ?_⟩⟩
    intro _ hour hhour mm hwet
    have hmem : (hour, mm) ∈ wetHours y accept y.len := mem_wetHours.mpr ⟨hhour, hwet⟩
    rw [hnil] at hmem
    cases hmem
  · rw [hsome]
    obtain ⟨hinside, hwet⟩ := mem_wetHours.mp hfirst.mem
    refine ⟨some hour, rfl, ⟨?_, by simp⟩⟩
    rintro _ ⟨rfl⟩
    refine ⟨hinside, most, hwet, fun other hother mm hmm => ?_, fun other hother mm hmm => ?_⟩
    · exact hfirst.best (other, mm) (mem_wetHours.mpr ⟨hother, hmm⟩)
    · exact hfirst.first (wetHours_sorted y accept y.len) (other, mm)
        (mem_wetHours.mpr ⟨hother.trans hinside, hmm⟩) hother

/-- Every year has the date of an hour of the reference year, but for the leap day's. -/
def Has (year : Int) (hour : Nat) : Prop := IsLeap year ∨ hour / 24 ≠ 59

/-- A day of the reference year as a date. -/
theorem reference_day {day : Nat} (h : day < 366) : ∃ d : Date, d.year = 2024 ∧ refDay 2024 d = day ∧
    d.number - EPOCH = REFERENCE_YEAR_START / 86400 + (day : Int) := by
  have hhours : hoursOf 2024 = 8784 := rfl
  obtain ⟨d, hyear, hnumber⟩ := day_of_year 2024 day (by omega)
  have hown := refDay_own hyear
  have hbegin : (newYear (2024 : Nat)).number - EPOCH = 19723 := by decide
  have hstart : REFERENCE_YEAR_START / 86400 = 19723 := by decide
  exact ⟨d, hyear, by omega, by omega⟩

/-- An hour of the reference year as a date. -/
theorem reference_date {hour : Nat} (h : hour < 8784) : ∃ d : Date, refDay 2024 d = hour / 24 ∧
    civilFromUnix (REFERENCE_YEAR_START + (hour : Int) * 3600) =
      (2024, d.month.toNat, d.day.toNat, hour % 24, 0, 0) := by
  obtain ⟨d, hyear, href, hnumber⟩ := reference_day (show hour / 24 < 366 by omega)
  have hlt : hour % 24 < 24 := Nat.mod_lt _ (by decide)
  obtain ⟨c, hc⟩ : ∃ c : TimeOfDay, c = ⟨hour % 24, 0, 0, hlt, by decide, by decide⟩ := ⟨_, rfl⟩
  have hseconds : c.seconds = (hour % 24 : Nat) * 3600 := by
    rw [hc, TimeOfDay.seconds]
    simp
  rw [REFERENCE_YEAR_START] at hnumber
  have hread := civilFromUnix_reading (d := d) (c := c)
    (t := REFERENCE_YEAR_START + (hour : Int) * 3600) (by rw [hyear, FitsI32]; decide)
    (by rw [REFERENCE_YEAR_START]; omega) (by rw [REFERENCE_YEAR_START, hseconds]; omega)
  refine ⟨d, href, ?_⟩
  rw [hread, reading, hyear, hc]

/-- A year that has the hour's date has the date. -/
theorem date_in {year : Int} {hour : Nat} (h : Has year hour) {d : Date} (hday : refDay 2024 d = hour / 24) :
    d.day ≤ monthLength year d.month := by
  apply day_le_year
  rcases h with h | h
  · exact Or.inl h
  · right
    rintro ⟨hmonth, hlast⟩
    apply h
    rw [← hday, refDay, hmonth, hlast]
    rfl

/-- A date asked for in a year that has it, at any second of the day. -/
theorem asked_day {year : Int} {d : Date} (h : d.day ≤ monthLength year d.month) (hour : Nat) (late : Int)
    (h0 : 0 ≤ hour * 3600 + late) (h1 : hour * 3600 + late < 86400) :
    civilFromDays ((unixFromCivil year d.month.toNat d.day.toNat hour 0 0 + late) / 86400) =
        fields (inYear year d h) ∧
      (unixFromCivil year d.month.toNat d.day.toNat hour 0 0 + late) % 86400 = hour * 3600 + late := by
  have hm : (d.month.toNat : Int) = d.month := Int.toNat_of_nonneg (by have := d.month_pos; omega)
  have hd : (d.day.toNat : Int) = d.day := Int.toNat_of_nonneg (by have := d.day_pos; omega)
  have hdays : daysFromCivil year d.month d.day = (inYear year d h).number - EPOCH :=
    daysFromCivil_date (inYear year d h)
  rw [unixFromCivil_eq, hm, hd, hdays, ← civilFromDays_number]
  constructor
  · congr 1
    omega
  · omega

theorem refDay_inYear {year : Int} {d : Date} (h : d.day ≤ monthLength year d.month) :
    refDay 2024 (inYear year d h) = refDay 2024 d := rfl

/-- The day after a date of the reference year is the next one's in any year that has both. -/
theorem next_day {year : Int} {d : Date} (h : d.day ≤ monthLength year d.month) (hinside : refDay 2024 d < 365)
    (hnext : Has year (24 * (refDay 2024 d + 1))) :
    refDay 2024 (inYear year d h).next = refDay 2024 d + 1 := by
  have hhours : hoursOf 2024 = 8784 := rfl
  have hyear : ¬EndsYear (inYear year d h) := by
    intro hends
    have hlast := refDay_lastDay 2024 _ hends
    rw [refDay_inYear] at hlast
    omega
  by_cases hfeb : EndsFebruary (inYear year d h)
  · have hmarch := refDay_march 2024 _ hfeb
    have href : IsLeap (2024 : Nat) := by decide
    rw [refDay_inYear, if_pos href] at hmarch
    by_cases hleap : IsLeap year
    · have hthis : IsLeap (inYear year d h).year := hleap
      rw [if_pos hthis] at hmarch
      omega
    · -- the twenty-eighth, and the next is the leap day
      have hlength : monthLength year 2 = 28 := by rw [monthLength, if_pos rfl, if_neg hleap]
      have hmonth : d.month = 2 := hfeb.1
      have hday : d.day = 28 := hfeb.2.trans hlength
      have hday58 : refDay 2024 d = 58 := by
        rw [refDay, hmonth, hday]
        rfl
      rw [Has, hday58] at hnext
      exact absurd rfl (hnext.resolve_left hleap)
  · rw [refDay_next 2024 _ hfeb hyear, refDay_inYear]

section

variable {y : WeatherYear ℝ}

/-- Opened nine hours into a day found, the plant sees that day, at every second. -/
def ShowsDay (y : WeatherYear ℝ) (year opened : Int) (day : Nat) : Prop :=
  Has year (24 * day) → ∀ second : Nat, second < 86400 →
    HistoricalWeather.hourAt ⟨y⟩ (opened - 9 * 3600 + second) = y.hour (24 * day + second / 3600)

/-- Opened before an hour found, the plant sees the hour before it, and then the hour; the year's
first hour has none before it. -/
def ShowsHour (y : WeatherYear ℝ) (year opened : Int) (hour : Nat) : Prop :=
  Has year (hour - 1) → ∀ second : Nat, second < 3600 →
    HistoricalWeather.hourAt ⟨y⟩ (opened + second) = y.hour (hour - 1) ∧
      (0 < hour → Has year hour →
        HistoricalWeather.hourAt ⟨y⟩ (opened + 3600 + second) = y.hour hour)

theorem day_shown (hyear : y.year = 2024) (hwhole : Whole y) {day : Nat} (hday : day < 366) (label : String)
    (now : Int) : ShowsDay y (civilFromUnix now).1 ((fromDay label day).target now) day := by
  intro hhas second hsecond
  have hyear' : y.year.toNat = 2024 := by rw [hyear]; rfl
  obtain ⟨d, href, hread⟩ := reference_date (show 24 * day < 8784 by omega)
  have hmul : ((24 * day : Nat) : Int) * 3600 = (day : Int) * 86400 := by omega
  have hstop : fromDay label day = ⟨label, d.month.toNat, d.day.toNat, OPENING_HOUR⟩ := by
    rw [hmul] at hread
    simp only [fromDay, hread]
  obtain ⟨hfields, hsecs⟩ := asked_day (date_in hhas href) OPENING_HOUR (second - 9 * 3600)
    (by rw [OPENING_HOUR]; omega) (by rw [OPENING_HOUR]; omega)
  rw [hstop, Stop.target, hourAt_eq hwhole.tempC, hyear', sub_add_eq_add_sub, add_sub_assoc,
    referenceHour_eq hfields, refDay_inYear, href, hourOf, hsecs, OPENING_HOUR]
  congr 1
  omega

theorem hour_shown (hyear : y.year = 2024) (hwhole : Whole y) {hour : Nat} (hhour : hour < 8784)
    (label : String) (now : Int) :
    ShowsHour y (civilFromUnix now).1 ((fromHour label hour).target now) hour := by
  intro hhas second hsecond
  have hyear' : y.year.toNat = 2024 := by rw [hyear]; rfl
  obtain ⟨d, href, hread⟩ := reference_date (show hour - 1 < 8784 by omega)
  have hstop : fromHour label hour = ⟨label, d.month.toNat, d.day.toNat, (hour - 1) % 24⟩ := by
    simp only [fromHour, hread]
  obtain ⟨hfields, hsecs⟩ := asked_day (date_in hhas href) ((hour - 1) % 24) second (by omega)
    (by omega)
  rw [hstop, Stop.target]
  generalize unixFromCivil (civilFromUnix now).1 d.month.toNat d.day.toNat ((hour - 1) % 24) 0 0 = opened at *
  have hof : hourOf (opened + second) = (hour - 1) % 24 := by
    rw [hourOf, hsecs]
    omega
  have hnow : referenceHour (opened + second) 2024 = hour - 1 := by
    rw [referenceHour_eq hfields, refDay_inYear, href, hof]
    omega
  constructor
  · rw [hourAt_eq hwhole.tempC, hyear', hnow]
  · intro hpos hnext
    have hlate : opened + 3600 + second = opened + second + 3600 := by ring
    rw [hourAt_eq hwhole.tempC, hyear', hlate]
    by_cases hmidnight : hourOf (opened + second) = 23
    · -- the hour found is the first of its day
      have hfirst : hour = 24 * (refDay 2024 d + 1) := by omega
      rw [(hour_midnight hfields 2024 hmidnight).1, next_day _ (by omega) (by rwa [← hfirst]), hfirst]
      congr 1
      omega
    · rw [hour_step hfields 2024 hmidnight, hnow]
      congr 1
      omega

end

/-- A stop of a day: the first of the most extreme days of a series. -/
def DayStop (y : WeatherYear ℝ) (year : Int) (opened : Stop → Int) (series : List ℝ) (want : Extreme)
    (label : String) (stop : Stop) : Prop :=
  ∃ day, stop = fromDay label day ∧ ExtremeAt series want day ∧ ShowsDay y year (opened stop) day

/-- A stop of an hour: the first of the wettest, or no stop where no hour is wet. -/
def HourStop (y : WeatherYear ℝ) (year : Int) (opened : Stop → Int) (accept : HourSample ℝ → Bool)
    (label : String) : Option Stop → Prop
  | none => ∀ hour < y.len, ∀ mm, ¬Wet y accept hour mm
  | some stop =>
    ∃ hour, stop = fromHour label hour ∧ WettestAt y accept hour ∧ ShowsHour y year (opened stop) hour

section

variable {y : WeatherYear ℝ}

theorem dayStop_found (hyear : y.year = 2024) (hwhole : Whole y) {series : List ℝ}
    (hseries : series.length = 8784) (want : Extreme) (label : String) (now : Int) :
    ∃ stop, (extremeDay series want).map (fromDay label) = some stop ∧
      DayStop y (civilFromUnix now).1 (fun stop => stop.target now) series want label stop := by
  obtain ⟨day, hfound, hextreme⟩ := extremeDay_first (show 24 ≤ series.length by omega) want
  have hinside := hextreme.inside
  rw [hfound]
  exact ⟨_, rfl, day, rfl, hextreme, day_shown hyear hwhole (by omega) label now⟩

theorem hourStop_found (hyear : y.year = 2024) (hwhole : Whole y)
    (hread : ∀ hour < y.len, (y.hour hour).isSome) (accept : HourSample ℝ → Bool) (label : String) (now : Int) :
    ∃ found, wettestHour y accept = some found ∧
      HourStop y (civilFromUnix now).1 (fun stop => stop.target now) accept label
        (found.map (fromHour label)) := by
  obtain ⟨found, hfound, hwettest, hdry⟩ := wettestHour_first hread accept
  refine ⟨found, hfound, ?_⟩
  cases found with
  | none => exact hdry rfl
  | some hour =>
    have hat := hwettest hour rfl
    have hlen : y.len = 8784 := by
      rw [WeatherYear.len, hwhole.tempC, hyear]
      rfl
    exact ⟨hour, rfl, hat, hour_shown hyear hwhole (hlen ▸ hat.inside) label now⟩

/-- A stop shows what it says. The warmest, the coldest and the sunniest day and, where an hour
is wet, the heaviest rain and snow are offered, each the first of its kind. Clicked, the plant
is restarted in its own year where it sees the very hours of the dataset the stop was found by. -/
theorem stops_land (hyear : y.year = 2024) (hwhole : Whole y) (hread : ∀ hour < y.len, (y.hour hour).isSome)
    (site : Site ℝ) (s : Session ℝ) :
    let year := (civilFromUnix s.run.unixTimeS).1
    let opened := fun stop => (s.pick site stop).run.unixTimeS
    ∃ warmest coldest sunniest rain snow,
      stops y = some ([warmest, coldest, sunniest] ++ rain.toList ++ snow.toList) ∧
      DayStop y year opened y.tempC .highest "Warmest day" warmest ∧
      DayStop y year opened y.tempC .lowest "Coldest day" coldest ∧
      DayStop y year opened y.ghiWm2 .highest "Sunniest day" sunniest ∧
      HourStop y year opened (fun _ => true) "Heaviest rain" rain ∧
      HourStop y year opened (fun sample => sample.precipForm = .snow) "Snowfall" snow := by
  intro year opened
  have hopened : opened = fun stop => stop.target s.run.unixTimeS := by
    funext stop
    change stop.target s.run.unixTimeS + ((0 : Nat) : Int) = _
    simp
  have hhours : hoursOf y.year.toNat = 8784 := by rw [hyear]; rfl
  have htemp := hwhole.tempC.trans hhours
  have hghi := hwhole.ghiWm2.trans hhours
  obtain ⟨warmest, hwarm, hwarmest⟩ :=
    dayStop_found hyear hwhole htemp .highest "Warmest day" s.run.unixTimeS
  obtain ⟨coldest, hcold, hcoldest⟩ :=
    dayStop_found hyear hwhole htemp .lowest "Coldest day" s.run.unixTimeS
  obtain ⟨sunniest, hsun, hsunniest⟩ :=
    dayStop_found hyear hwhole hghi .highest "Sunniest day" s.run.unixTimeS
  obtain ⟨rain, hrain, hraining⟩ :=
    hourStop_found hyear hwhole hread (fun _ => true) "Heaviest rain" s.run.unixTimeS
  obtain ⟨snow, hsnow, hsnowing⟩ := hourStop_found hyear hwhole hread
    (fun sample => sample.precipForm = .snow) "Snowfall" s.run.unixTimeS
  rw [hopened]
  refine ⟨warmest, coldest, sunniest, _, _, ?_, hwarmest, hcoldest, hsunniest, hraining, hsnowing⟩
  rw [stops, hwarm, hcold, hsun, hrain, hsnow]
  rfl

end

/-- A series that is the same at every hour of a day. -/
theorem totalOf_daily (g : Nat → ℝ) {n day : Nat} (h : day < n / 24) :
    totalOf ((List.range n).map fun hour : Nat => g (hour / 24)) day = 24 * g day := by
  have hsame : ((((List.range n).map fun hour : Nat => g (hour / 24)).drop (24 * day)).take 24) =
      List.replicate 24 (g day) := by
    apply List.ext_getElem
    · simp only [List.length_take, List.length_drop, List.length_map, List.length_range,
        List.length_replicate]
      omega
    · intro i hi hi'
      rw [List.length_replicate] at hi'
      simp only [List.getElem_take, List.getElem_drop, List.getElem_map, List.getElem_range,
        List.getElem_replicate]
      congr 1
      omega
  rw [totalOf, hsame, List.sum_replicate, nsmul_eq_mul]
  norm_num

/-- The most extreme day of such a series is the one that is further out than any other. -/
theorem extremeAt_daily {g : Nat → ℝ} {n day peak : Nat} {want : Extreme} (hpeak : peak < n / 24)
    (h : ∀ other < n / 24, other ≠ peak → Beats want (24 * g peak) (24 * g other))
    (hday : ExtremeAt ((List.range n).map fun hour : Nat => g (hour / 24)) want day) : day = peak := by
  have hinside := hday.inside
  have hbest := hday.best peak
  rw [List.length_map, List.length_range] at hinside hbest
  by_contra hne
  have hbeats := h day hinside hne
  rw [← totalOf_daily g hpeak, ← totalOf_daily g hinside] at hbeats
  exact hbest hpeak hbeats

/-- Degrees of a day: warmest on 19 July. -/
noncomputable def dayTempC (day : Nat) : ℝ := 30.0 - |(day : ℝ) - 200.0| / 10.0

/-- Irradiance of a day: sunniest on 21 June. -/
noncomputable def dayGhi (day : Nat) : ℝ := 300 - |(day : ℝ) - 172|

/-- Snow at noon on 13 January, and a cloudburst in June. -/
noncomputable def hourPrecip (hour : Nat) : ℝ :=
  if hour = 300 then 3.0 else if hour = 4000 then 12.0 else 0

/-- A year with its seasons, of so many hours. -/
noncomputable def seasons (n : Nat) : WeatherYear ℝ where
  year := 2024
  stationId := 1270
  fills := ⟨0, 0, 0, 0, 0, 0, 0, 0⟩
  tempC := (List.range n).map fun hour : Nat => dayTempC (hour / 24)
  relHumidityPct := List.replicate n 60.0
  ghiWm2 := (List.range n).map fun hour : Nat => dayGhi (hour / 24)
  precipMm := (List.range n).map hourPrecip
  precipForm := (List.range n).map fun hour : Nat => if hour < 2000 then .snow else .rain
  windMs := List.replicate n 4.0
  windDirDeg := List.replicate n 270.0
  cloudOkta := List.replicate n 5

theorem dayTempC_eq (day : Nat) : dayTempC day = 30 - |(day : ℝ) - 200| / 10 := by
  norm_num [dayTempC]

theorem seasons_hour {n hour : Nat} (h : hour < n) :
    (seasons n).hour hour = some
      ⟨dayTempC (hour / 24), 60.0, dayGhi (hour / 24), hourPrecip hour,
        if hour < 2000 then .snow else .rain, 4.0, 270.0, 5⟩ := by
  simp only [WeatherYear.hour, seasons, List.getElem?_map, List.getElem?_range h, Option.map_some,
    List.getElem?_replicate_of_lt h]
  rfl

theorem seasons_length (n : Nat) :
    (seasons n).tempC.length = n ∧ (seasons n).ghiWm2.length = n := by
  simp [seasons]

theorem seasons_wet {n hour : Nat} {accept : HourSample ℝ → Bool} {mm : ℝ} (hinside : hour < n)
    (h : Wet (seasons n) accept hour mm) : (hour = 300 ∧ mm = 3.0) ∨ (hour = 4000 ∧ mm = 12.0) := by
  obtain ⟨sample, hsample, hwet, -, rfl⟩ := h
  rw [seasons_hour hinside, Option.some_inj] at hsample
  subst hsample
  dsimp only [hourPrecip] at hwet ⊢
  split at hwet
  · next h300 =>
    rw [if_pos h300]
    exact Or.inl ⟨h300, rfl⟩
  · next h300 =>
    split at hwet
    · next h4000 =>
      rw [if_neg h300, if_pos h4000]
      exact Or.inr ⟨h4000, rfl⟩
    · exact absurd hwet (by norm_num)

theorem warmest_seasons {n day : Nat} (hn : 366 ≤ n / 24) (h : ExtremeAt (seasons n).tempC .highest day) :
    day = 200 := by
  refine extremeAt_daily (by omega) (fun other _ hne => ?_) h
  have hoff : 0 < |(other : ℝ) - 200| := abs_pos.mpr (sub_ne_zero.mpr (by exact_mod_cast hne))
  change 24 * dayTempC other < 24 * dayTempC 200
  rw [dayTempC_eq, dayTempC_eq, Nat.cast_ofNat, sub_self, abs_zero]
  linarith

theorem coldest_seasons {n day : Nat} (hn : n / 24 = 366) (h : ExtremeAt (seasons n).tempC .lowest day) :
    day = 0 := by
  refine extremeAt_daily (by omega) (fun other hother hne => ?_) h
  have hfirst : (1 : ℝ) ≤ other := by exact_mod_cast Nat.one_le_iff_ne_zero.mpr hne
  have hlast : (other : ℝ) ≤ 365 := by exact_mod_cast (show other ≤ 365 by omega)
  have hnear : |(other : ℝ) - 200| < 200 := abs_lt.mpr ⟨by linarith, by linarith⟩
  have hzero : |((0 : Nat) : ℝ) - 200| = 200 := by norm_num
  change 24 * dayTempC 0 < 24 * dayTempC other
  rw [dayTempC_eq, dayTempC_eq, hzero]
  linarith

theorem sunniest_seasons {n day : Nat} (hn : 366 ≤ n / 24) (h : ExtremeAt (seasons n).ghiWm2 .highest day) :
    day = 172 := by
  refine extremeAt_daily (by omega) (fun other _ hne => ?_) h
  have hoff : 0 < |(other : ℝ) - 172| := abs_pos.mpr (sub_ne_zero.mpr (by exact_mod_cast hne))
  change 24 * dayGhi other < 24 * dayGhi 172
  rw [dayGhi, dayGhi, Nat.cast_ofNat, sub_self, abs_zero]
  linarith

theorem seasons_rain {n : Nat} (h : 4000 < n) : Wet (seasons n) (fun _ => true) 4000 12.0 :=
  ⟨_, seasons_hour h, by norm_num [hourPrecip], rfl, by norm_num [hourPrecip]⟩

theorem seasons_snow {n : Nat} (h : 300 < n) :
    Wet (seasons n) (fun sample => sample.precipForm = .snow) 300 3.0 :=
  ⟨_, seasons_hour h, by norm_num [hourPrecip], rfl, by norm_num [hourPrecip]⟩

/-- The June hour is the wettest of all. -/
theorem wettest_seasons {n hour : Nat} (hn : 4000 < n) (h : WettestAt (seasons n) (fun _ => true) hour) :
    hour = 4000 := by
  have hlen : (seasons n).len = n := (seasons_length n).1
  obtain ⟨most, hwet, hbest, -⟩ := h.best
  rcases seasons_wet (hlen ▸ h.inside) hwet with ⟨-, rfl⟩ | ⟨hhour, -⟩
  · have hle := hbest 4000 (hlen.symm ▸ hn) 12.0 (seasons_rain hn)
    norm_num at hle
  · exact hhour

/-- Of the two wet hours only the January one is snow. -/
theorem snowiest_seasons {n hour : Nat}
    (h : WettestAt (seasons n) (fun sample => sample.precipForm = .snow) hour) : hour = 300 := by
  have hlen : (seasons n).len = n := (seasons_length n).1
  have hinside : hour < n := hlen ▸ h.inside
  obtain ⟨most, hwet, -⟩ := h.best
  rcases seasons_wet hinside hwet with ⟨hhour, -⟩ | ⟨rfl, -⟩
  · exact hhour
  · obtain ⟨sample, hsample, -, hsnow, -⟩ := hwet
    rw [seasons_hour hinside, Option.some_inj] at hsample
    subst hsample
    cases hsnow

/-- The opening session's stops in a year with seasons: five dates, and what is seen on the warmest. -/
theorem stops_land_seasons :
    let site : Site ℝ := { Reference.idle with library := fun _ _ => none }
    let s := Session.new site PlantConfig.gw01
    let warmest : Stop := ⟨"Warmest day", 7, 19, 9⟩
    stops (seasons 8784) = some [warmest, ⟨"Coldest day", 1, 1, 9⟩, ⟨"Sunniest day", 6, 21, 9⟩,
        ⟨"Heaviest rain", 6, 15, 15⟩, ⟨"Snowfall", 1, 13, 11⟩] ∧
      ∀ second : Nat, second < 86400 → HistoricalWeather.hourAt ⟨seasons 8784⟩
          ((s.pick site warmest).run.unixTimeS - 9 * 3600 + (second : Int)) =
        (seasons 8784).hour (24 * 200 + second / 3600) := by
  intro site s first
  obtain ⟨htemp, hghi⟩ := seasons_length 8784
  have hread : ∀ hour < (seasons 8784).len, ((seasons 8784).hour hour).isSome := by
    intro hour hhour
    rw [seasons_hour (hhour.trans_eq htemp)]
    rfl
  obtain ⟨warmest, coldest, sunniest, rain, snow, hstops, hwarm, hcold, hsun, hrain, hsnow⟩ :=
    stops_land (y := seasons 8784) rfl ⟨htemp, hghi⟩ hread site s
  obtain ⟨day, rfl, hday, hshown⟩ := hwarm
  obtain rfl := warmest_seasons (by decide) hday
  obtain ⟨day, rfl, hday, -⟩ := hcold
  obtain rfl := coldest_seasons (by decide) hday
  obtain ⟨day, rfl, hday, -⟩ := hsun
  obtain rfl := sunniest_seasons (by decide) hday
  have hrainy : 4000 < (seasons 8784).len := (show 4000 < 8784 by decide).trans_eq htemp.symm
  have hsnowy : 300 < (seasons 8784).len := (show 300 < 8784 by decide).trans_eq htemp.symm
  cases rain with
  | none => exact absurd (seasons_rain (by decide)) (hrain 4000 hrainy 12.0)
  | some rain =>
    obtain ⟨hour, rfl, hhour, -⟩ := hrain
    obtain rfl := wettest_seasons (by decide) hhour
    cases snow with
    | none => exact absurd (seasons_snow (by decide)) (hsnow 300 hsnowy 3.0)
    | some snow =>
      obtain ⟨hour, rfl, hhour, -⟩ := hsnow
      obtain rfl := snowiest_seasons hhour
      exact ⟨hstops, hshown (Or.inr (by decide))⟩

end BessStops
