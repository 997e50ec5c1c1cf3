import BessEmulator.Meters
import BessEmulator.Periods
import BessEmulator.PriceLookup
import BessEmulator.WeatherReplay

/-!
# Every quarter-hour is settled once

The collector's rows are the periods the meter closed, none twice and none left
out; over a whole year they are the quarters of the local days, one row each, but
for a leap day the year does not have.
-/
namespace BessPeriods

open Calendar Gregorian Bess BessMeters BessPrices BessReference BessReplayed BessCivil

variable {P : Type}

/-- Where the k-th period begins: at the start of the run, then at every quarter-hour. -/
def startOf (start : Int) (k : Nat) : Int := if k = 0 then start else (start / 900 + k) * 900

/-- Hours of a local day. -/
def dayLength (y : PriceYear P) (d : Nat) : Nat :=
  match y.dayHours d with
  | some (first, last) => last - first
  | none => 0

/-- Rows on days of so many hours. -/
def onDaysOf (y : PriceYear P) (hours : Nat) (rows : List (ClosedPeriod ℝ)) : Nat :=
  rows.countP fun row => dayLength y row.localDay == hours

/-- What a collector holds beside the tree it has read. -/
structure Settled (y : PriceYear P) (start : Int) (s : SiteState ℝ) (c : PeriodCollector ℝ P) : Prop where
  year : c.year = y
  count : (c.rows.length : Int) = s.unixTimeS / 900 - start / 900
  meter : s.substation.revenue.periodsClosed = c.rows.length
  seen : c.seen = c.rows.length
  opened : s.substation.revenue.periodStartS = startOf start c.rows.length
  since : c.openSinceS = startOf start c.rows.length
  starts : c.rows.map ClosedPeriod.startUnixS = (List.range c.rows.length).map (startOf start)
  labeled : ∀ row ∈ c.rows, label y row.startUnixS = some (row.localDay, row.quarter)
  inDay : ∀ row ∈ c.rows, row.quarter < 4 * dayLength y row.localDay
  closed : c.kpis.closed = c.rows.length
  onShort : c.kpis.onShortDstDay = onDaysOf y 23 c.rows
  onLong : c.kpis.onLongDstDay = onDaysOf y 25 c.rows
  imported : (c.rows.map ClosedPeriod.importKwh).sum * 1000 + s.substation.revenue.periodImportWh =
    s.substation.importWh
  exported : (c.rows.map ClosedPeriod.exportKwh).sum * 1000 + s.substation.revenue.periodExportWh =
    s.substation.exportWh

/-- A label names a quarter of its day. -/
theorem label_some (y : PriceYear P) (hlen : 0 < y.len) (t : Int) :
    ∃ idx d a b, y.indexAt t = some idx ∧ y.dayHours d = some (a, b) ∧ a ≤ idx ∧ idx < b ∧
      label y t = some (d, (idx - a) * 4 + (t % 3600 / 900).toNat) := by
  obtain ⟨idx, hidx, hlt⟩ := indexAt_lt hlen t
  obtain ⟨d, a, b, -, hab, ha, hb⟩ := exists_dayOf y hlt
  exact ⟨idx, d, a, b, hidx, hab, ha, hb, label_eq hidx hab ha hb⟩

theorem dayLength_eq {y : PriceYear P} {d a b : Nat} (h : y.dayHours d = some (a, b)) :
    dayLength y d = b - a := by
  rw [dayLength, h]

theorem onDaysOf_append (y : PriceYear P) (hours : Nat) (rows : List (ClosedPeriod ℝ))
    (row : ClosedPeriod ℝ) : onDaysOf y hours (rows ++ [row]) =
      if dayLength y row.localDay = hours then onDaysOf y hours rows + 1 else onDaysOf y hours rows := by
  rw [onDaysOf, onDaysOf, List.countP_append, List.countP_singleton]
  by_cases h : dayLength y row.localDay = hours <;> simp [h]

/-- A tick between quarter-hours leaves the collector as it is. -/
theorem settled_between {y : PriceYear P} {start : Int} {s s' : SiteState ℝ} {wh : ℝ}
    {c : PeriodCollector ℝ P} (h : Settled y start s c) (ht : MeterTick s s' wh)
    (hq : ¬(s.unixTimeS + 1) % 900 = 0) : c.observe s' = some c ∧ Settled y start s' c := by
  have hrev : s'.substation.revenue = s.substation.revenue.book wh := by
    rw [ht.revenue]
    exact if_neg hq
  have hbook := booked s.substation.revenue wh
  have hclosed : s'.substation.revenue.periodsClosed = c.rows.length := by
    rw [hrev, hbook.periodsClosed, h.meter]
  constructor
  · rw [PeriodCollector.observe]
    simp only [hclosed, h.seen, if_true]
  · have hnow := ht.now
    have hcount := h.count
    constructor
    · exact h.year
    · omega
    · exact hclosed
    · exact h.seen
    · rw [hrev, hbook.periodStartS, h.opened]
    · exact h.since
    · exact h.starts
    · exact h.labeled
    · exact h.inDay
    · exact h.closed
    · exact h.onShort
    · exact h.onLong
    · rw [hrev, hbook.periodImportWh, ← add_assoc, h.imported, ht.importWh]
    · rw [hrev, hbook.periodExportWh, ← add_assoc, h.exported, ht.exportWh]

/-- A tick on a quarter-hour adds the row of the period that ends. -/
theorem settled_quarter {y : PriceYear P} (hlen : 0 < y.len) {start : Int} {s s' : SiteState ℝ} {wh : ℝ}
    {c : PeriodCollector ℝ P} (h : Settled y start s c) (ht : MeterTick s s' wh)
    (hq : (s.unixTimeS + 1) % 900 = 0) :
    ∃ c', c.observe s' = some c' ∧ Settled y start s' c' := by
  have hrev := ht.revenue
  rw [if_pos (show (s.unixTimeS + 1) % RevenueMeter.PERIOD_S = 0 from hq)] at hrev
  simp only at hrev
  have hbook := booked s.substation.revenue wh
  have hclosed : s'.substation.revenue.periodsClosed = c.rows.length + 1 := by
    rw [hrev, ← h.meter, ← hbook.periodsClosed]
  obtain ⟨idx, d, a, b, -, hab, ha, hb, hlabel⟩ := label_some y hlen c.openSinceS
  obtain ⟨quarter, hquarter⟩ : ∃ q, q = (idx - a) * 4 + (c.openSinceS % 3600 / 900).toNat := ⟨_, rfl⟩
  rw [← hquarter] at hlabel
  have hlength := dayLength_eq hab
  have hnow := ht.now
  have hcount := h.count
  have hgrown : (c.rows.length + 1 : Nat) = s'.unixTimeS / 900 - start / 900 := by
    push_cast
    omega
  have hstart : s'.unixTimeS = startOf start (c.rows.length + 1) := by
    rw [startOf, if_neg (Nat.succ_ne_zero _)]
    omega
  have hobserve : c.observe s' = some { c with
      seen := c.rows.length + 1
      openSinceS := s'.substation.revenue.periodStartS
      kpis := c.kpis.count (b - a)
      rows := c.rows ++ [⟨c.openSinceS, d, quarter, s'.substation.revenue.lastImportWh / 1000.0,
        s'.substation.revenue.lastExportWh / 1000.0⟩] } := by
    rw [PeriodCollector.observe]
    simp only [hclosed, h.seen, h.year, hlabel, hab, Option.bind_some, Option.map_some]
    rw [if_neg (Nat.succ_ne_self _)]
  have hkilo : (1000.0 : ℝ) = 1000 := by norm_num
  refine ⟨_, hobserve, ?_⟩
  · constructor
    · exact h.year
    · simpa using hgrown
    · simpa using hclosed
    · simp
    · rw [hrev, ← hnow, hstart]
      simp
    · rw [hrev, ← hnow, hstart]
      simp
    · simp only [List.map_append, h.starts, List.length_append, List.length_singleton,
        List.range_succ, List.map_cons, List.map_nil, h.since]
    · intro row hrow
      rcases List.mem_append.mp hrow with hold | hnew
      · exact h.labeled row hold
      · rw [List.mem_singleton.mp hnew]
        exact hlabel
    · intro row hrow
      rcases List.mem_append.mp hrow with hold | hnew
      · exact h.inDay row hold
      · rw [List.mem_singleton.mp hnew, hlength, hquarter]
        have hfour : (c.openSinceS % 3600 / 900).toNat < 4 := by omega
        change (idx - a) * 4 + (c.openSinceS % 3600 / 900).toNat < 4 * (b - a)
        omega
    · simp [PeriodKpis.count, h.closed]
    · simp only [PeriodKpis.count, h.onShort, onDaysOf_append, hlength]
    · simp only [PeriodKpis.count, h.onLong, onDaysOf_append, hlength]
    · rw [ht.importWh, ← h.imported, hrev]
      simp only [hbook.periodImportWh, List.map_append, List.sum_append, List.map_cons, List.map_nil,
        List.sum_cons, List.sum_nil, hkilo]
      ring
    · rw [ht.exportWh, ← h.exported, hrev]
      simp only [hbook.periodExportWh, List.map_append, List.sum_append, List.map_cons, List.map_nil,
        List.sum_cons, List.sum_nil, hkilo]
      ring

theorem settled_new (y : PriceYear P) (cfg : PlantConfig ℝ) (models : Models ℝ) (seed : UInt64)
    (t : Int) : Settled y t (Simulation.new cfg models seed t).state (.new y t) := by
  have hnow : (Simulation.new cfg models seed t).state.unixTimeS = t := add_zero t
  constructor
  · rfl
  · rw [hnow, sub_self]
    rfl
  · rfl
  · rfl
  · rfl
  · rfl
  · rfl
  · intro row hrow
    cases hrow
  · intro row hrow
    cases hrow
  · rfl
  · rfl
  · rfl
  · change (0 : ℝ) * 1000 + 0 = 0
    ring
  · change (0 : ℝ) * 1000 + 0 = 0
    ring

variable {cfg : PlantConfig ℝ} {ems : EmsStrategy ℝ}

/-- The collector keeps up with any run. -/
theorem settled_ticks (ref : Reference ℝ) {y : PriceYear P} (hlen : 0 < y.len) {start : Int}
    {sim : Simulation ℝ} (hs : Sound sim) (hpl : sim.plant = gw01Plant cfg ems)
    {c : PeriodCollector ℝ P} (h : Settled y start sim.state c) (n : Nat) :
    ∃ sim' c', periodTicks ref n (sim, c) = some (sim', c') ∧ Sound sim' ∧
      sim'.plant = gw01Plant cfg ems ∧ sim'.state.unixTimeS = sim.state.unixTimeS + n ∧
        Settled y start sim'.state c' := by
  induction n with
  | zero => exact ⟨sim, c, rfl, hs, hpl, by simp, h⟩
  | succ n ih =>
    obtain ⟨sim', c', hrun, hs', hpl', hnow, h'⟩ := ih
    have ht := step_meterTick hs' hpl' (ref.inputsAt sim'.state.unixTimeS)
    obtain ⟨c'', hobserve, h''⟩ : ∃ c'', c'.observe
        (sim'.step (ref.inputsAt sim'.state.unixTimeS)).state = some c'' ∧
          Settled y start (sim'.step (ref.inputsAt sim'.state.unixTimeS)).state c'' := by
      by_cases hq : (sim'.state.unixTimeS + 1) % 900 = 0
      · exact settled_quarter hlen h' ht hq
      · exact ⟨c', settled_between h' ht hq⟩
    have hmove := sound_move hs' (.step (ref.inputsAt sim'.state.unixTimeS))
    have hplant := (move_plant hs' (.step (ref.inputsAt sim'.state.unixTimeS))).trans hpl'
    refine ⟨_, c'', ?_, hmove, hplant, ?_, h''⟩
    · rw [periodTicks, hrun, Option.bind_some, periodTick]
      simp only [hobserve, Option.map_some]
      rfl
    · have hstep : ((sim'.move (.step (ref.inputsAt sim'.state.unixTimeS))).state).unixTimeS =
          sim'.state.unixTimeS + 1 := ht.now
      rw [hstep, hnow]
      push_cast
      ring

theorem settled_pass (ref : Reference ℝ) (cfg : PlantConfig ℝ) (ems : EmsStrategy ℝ) (seed : UInt64)
    (t : Int) {y : PriceYear P} (hlen : 0 < y.len) (n : Nat) :
    ∃ sim c, periodTicks ref n (Simulation.new cfg (gw01Models cfg ems) seed t, .new y t) = some (sim, c) ∧
      sim.state.unixTimeS = t + n ∧ Settled y t sim.state c := by
  have hnow : (Simulation.new cfg (gw01Models cfg ems) seed t).state.unixTimeS = t := add_zero t
  obtain ⟨sim, c, hrun, -, -, hend, h⟩ := settled_ticks ref hlen
    (sound_new cfg (gw01Models cfg ems) seed t) rfl (settled_new y cfg (gw01Models cfg ems) seed t) n
  exact ⟨sim, c, hrun, by rw [hend, hnow], h⟩

/-- The rows are the periods the meter closed. However long a pass runs and from whatever
second, it reads every close once: the rows follow on one another from its start, each in its
own day and quarter; they are what the meter counted, and with the open period they sum to what
the substation metered. -/
theorem periods_settle (ref : Reference ℝ) (cfg : PlantConfig ℝ) (ems : EmsStrategy ℝ) (seed : UInt64)
    (t : Int) {y : PriceYear P} (hlen : 0 < y.len) (n : Nat) :
    ∃ sim c, periodTicks ref n (Simulation.new cfg (gw01Models cfg ems) seed t, .new y t) = some (sim, c) ∧
      (c.rows.length : Int) = (t + n) / 900 - t / 900 ∧
      c.rows.map ClosedPeriod.startUnixS = (List.range c.rows.length).map (startOf t) ∧
      (∀ row ∈ c.rows, label y row.startUnixS = some (row.localDay, row.quarter) ∧
        row.quarter < 4 * dayLength y row.localDay) ∧
      c.rows.length = sim.state.substation.revenue.periodsClosed ∧
      c.kpis = ⟨sim.state.substation.revenue.periodsClosed, onDaysOf y 23 c.rows, onDaysOf y 25 c.rows⟩ ∧
      (c.rows.map ClosedPeriod.importKwh).sum * 1000 + sim.state.substation.revenue.periodImportWh =
        sim.state.substation.importWh ∧
      (c.rows.map ClosedPeriod.exportKwh).sum * 1000 + sim.state.substation.revenue.periodExportWh =
        sim.state.substation.exportWh := by
  obtain ⟨sim, c, hrun, hnow, h⟩ := settled_pass ref cfg ems seed t hlen n
  have hcount := h.count
  rw [hnow] at hcount
  have hkpis : c.kpis =
      ⟨sim.state.substation.revenue.periodsClosed, onDaysOf y 23 c.rows, onDaysOf y 25 c.rows⟩ := by
    rw [h.meter, ← h.closed, ← h.onShort, ← h.onLong]
  exact ⟨sim, c, hrun, hcount, h.starts, fun row hrow => ⟨h.labeled row hrow, h.inDay row hrow⟩,
    h.meter.symm, hkpis, h.imported, h.exported⟩

/-- Half an hour into a pass off the quarter, by a table of two days. -/
theorem periods_settle_late : ∃ (y : PriceYear Nat) (sim : Simulation ℝ) (c : PeriodCollector ℝ Nat),
    periodTicks .idle 1800 (Simulation.new .gw01 (gw01Models .gw01 ⟨fun _ _ => 0⟩) 7 600, .new y 600) =
      some (sim, c) ∧ c.rows.map ClosedPeriod.startUnixS = [600, 900] := by
  obtain ⟨sim, c, hrun, hcount, hstarts, -⟩ := periods_settle .idle .gw01 ⟨fun _ _ => 0⟩ 7 600
    (show 0 < (⟨2024, 1, List.range 47, [0, 23, 47], by decide⟩ : PriceYear Nat).len by decide) 1800
  have hrows : c.rows.length = 2 := by omega
  refine ⟨_, sim, c, hrun, ?_⟩
  rw [hstarts, hrows]
  rfl

/-- The hours of the reference year a year's own hours read: a common year passes over the leap day. -/
def readHour (leap : Prop) [Decidable leap] (h : Nat) : Nat := if leap ∨ h < 1416 then h else h + 24

theorem refDay_common {year ref : Nat} {d : Date} (hyear : d.year = year) (href : IsLeap ref)
    (hcommon : ¬IsLeap year) :
    refDay ref d = if refDay year d < 59 then refDay year d else refDay year d + 1 := by
  have hpos := d.day_pos
  have hmonth := d.month_pos
  have hle := d.month_le
  have hfeb : d.month = 2 → d.day ≤ 28 := by
    intro h
    have hlast := d.day_le
    rw [h, hyear, monthLength, if_pos rfl, if_neg hcommon] at hlast
    exact hlast
  have hown : refDay year d = DAYS_BEFORE_MONTH.getD (d.month.toNat - 1) 0 + d.day.toNat - 1 := by
    rw [refDay, if_neg fun h => hcommon h.2]
    rfl
  by_cases hmarch : 2 < d.month
  · have htable : 59 ≤ DAYS_BEFORE_MONTH.getD (d.month.toNat - 1) 0 := by
      have hall : ∀ n ≤ 11, 2 ≤ n → 59 ≤ DAYS_BEFORE_MONTH.getD n 0 := by decide
      exact hall _ (by omega) (by omega)
    rw [if_neg (by omega), hown, refDay, if_pos ⟨hmarch, href⟩]
  · have htable : DAYS_BEFORE_MONTH.getD (d.month.toNat - 1) 0 + d.day.toNat - 1 < 59 := by
      have hjan : ∀ day : Nat, day ≤ 31 → DAYS_BEFORE_MONTH.getD 0 0 + day - 1 < 59 := by
        simp [DAYS_BEFORE_MONTH]
        omega
      have hcases : d.month = 1 ∨ d.month = 2 := by omega
      have hday := day_le_month d
      rcases hcases with h | h
      · rw [h]
        exact hjan _ (by omega)
      · have hshort := hfeb h
        have hjanuary : DAYS_BEFORE_MONTH.getD (d.month.toNat - 1) 0 = 31 := by rw [h]; rfl
        omega
    rw [if_pos (by omega), hown, refDay, if_neg fun h => hmarch h.1]
    rfl

/-- What the k-th hour of a year reads in a leap reference year. -/
theorem referenceHour_year {year ref : Nat} (href : IsLeap ref) {h : Nat} (hh : h < hoursOf year)
    {t : Int} (ht : t / 3600 = yearBegins year / 3600 + h) :
    referenceHour t ref = readHour (IsLeap year) h := by
  have hwhole : h / 24 * 24 + 24 ≤ hoursOf year := by
    rw [hoursOf] at hh ⊢
    split at hh <;> simp_all <;> omega
  obtain ⟨d, hyear, hnumber⟩ := day_of_year year (h / 24) hwhole
  have hbegin : daysFromCivil year 1 1 = (newYear year).number - EPOCH :=
    daysFromCivil_date (newYear year)
  have hfields : civilFromDays (t / 86400) = fields d := by
    have hday : t / 86400 = d.number - EPOCH := by
      rw [yearBegins] at ht
      omega
    rw [hday, civilFromDays_number]
  have hour : hourOf t = h % 24 := by
    rw [yearBegins] at ht
    rw [hourOf]
    omega
  have hown := refDay_own hyear
  have hday : refDay year d = h / 24 := by omega
  rw [referenceHour_eq hfields, hour, readHour]
  by_cases hleap : IsLeap year
  · have hsame : refDay ref d = refDay year d := by simp only [refDay, hleap, href]
    rw [hsame, hday, if_pos (.inl hleap)]
    omega
  · rw [refDay_common hyear href hleap, hday]
    by_cases hmarch : h < 1416
    · rw [if_pos (by omega), if_pos (.inr hmarch)]
      omega
    · rw [if_neg (by omega), if_neg (by simp [hleap, hmarch])]
      omega

theorem readHour_lt {year h : Nat} (hh : h < hoursOf year) : readHour (IsLeap year) h < 8784 := by
  rw [hoursOf] at hh
  rw [readHour]
  split at hh
  · next hleap => rw [if_pos (.inl hleap)]; exact hh
  · split <;> omega

/-- A common year reads every hour but the leap day's. -/
theorem readHour_iff {year g : Nat} (hg : g < 8784) :
    (∃ h < hoursOf year, readHour (IsLeap year) h = g) ↔ IsLeap year ∨ g < 1416 ∨ 1440 ≤ g := by
  by_cases hleap : IsLeap year
  · simp only [hleap, true_or, iff_true]
    exact ⟨g, by rw [hoursOf, if_pos hleap]; exact hg, by simp [readHour]⟩
  · simp only [hoursOf, readHour, hleap, false_or, if_false]
    constructor
    · rintro ⟨h, hh, rfl⟩
      split <;> omega
    · rintro (hlow | hhigh)
      · exact ⟨g, by omega, by rw [if_pos hlow]⟩
      · exact ⟨g - 24, by omega, by rw [if_neg (by omega)]; omega⟩

theorem readHour_inj {leap : Prop} [Decidable leap] {h h' : Nat} (he : readHour leap h = readHour leap h') :
    h = h' := by
  rw [readHour, readHour] at he
  by_cases hleap : leap
  · simpa [hleap] using he
  · simp only [hleap, false_or] at he
    split at he <;> split at he <;> omega

/-- Whether an hour of the series is one the leap day reads. -/
def OnLeapDay (y : PriceYear P) (idx : Nat) : Prop :=
  ∃ h, 1416 ≤ h ∧ h < 1440 ∧ y.indexAtUtcHour h = some idx

section

variable {y : PriceYear P}

theorem index_eq (hlen : y.len = 8784) (h : Nat) :
    y.indexAtUtcHour h = some ((h + y.startOffsetH) % 8784).toNat := by
  rw [PriceYear.indexAtUtcHour, hlen]
  rfl

theorem index_inj (hlen : y.len = 8784) {h h' : Nat} (hh : h < 8784) (hh' : h' < 8784)
    (he : y.indexAtUtcHour h = y.indexAtUtcHour h') : h = h' := by
  rw [index_eq hlen, index_eq hlen, Option.some.injEq] at he
  omega

theorem index_surj (hlen : y.len = 8784) {idx : Nat} (h : idx < 8784) :
    ∃ g < 8784, y.indexAtUtcHour g = some idx := by
  refine ⟨((idx - y.startOffsetH) % 8784).toNat, by omega, ?_⟩
  rw [index_eq hlen]
  congr 1
  omega

/-- The k-th quarter-hour of a year, as it is labeled. -/
theorem label_quarter (href : IsLeap y.year) (hlen : y.len = 8784) {year k : Nat}
    (hk : k < 4 * hoursOf year) : ∃ idx d a b,
      y.indexAtUtcHour (readHour (IsLeap year) (k / 4)) = some idx ∧ y.dayHours d = some (a, b) ∧
        a ≤ idx ∧ idx < b ∧ label y (startOf (yearBegins year) k) = some (d, (idx - a) * 4 + k % 4) := by
  obtain ⟨t, ht⟩ : ∃ t, t = startOf (yearBegins year) k := ⟨_, rfl⟩
  have hstart : t = yearBegins year + 900 * k := by
    rw [ht, startOf]
    split
    · next hzero => rw [hzero]; simp
    · rw [yearBegins]
      omega
  obtain ⟨idx, d, a, b, hidx, hab, ha, hb, hlabel⟩ := label_some y (by omega) t
  have hhour : t / 3600 = yearBegins year / 3600 + (k / 4 : Nat) := by
    rw [hstart, yearBegins]
    omega
  have hquarter : (t % 3600 / 900).toNat = k % 4 := by
    rw [hstart, yearBegins]
    omega
  rw [PriceYear.indexAt, referenceHour_year href (by omega : k / 4 < hoursOf year) hhour] at hidx
  rw [hquarter] at hlabel
  rw [← ht]
  exact ⟨idx, d, a, b, hidx, hab, ha, hb, hlabel⟩

theorem day_unique {d d' a a' b b' idx : Nat} (hab : y.dayHours d = some (a, b)) (ha : a ≤ idx)
    (hb : idx < b) (hab' : y.dayHours d' = some (a', b')) (ha' : a' ≤ idx) (hb' : idx < b') :
    d = d' ∧ a = a' := by
  have h := slotOf_eq y hab ha hb
  rw [slotOf_eq y hab' ha' hb', Option.some.injEq, Prod.mk.injEq] at h
  omega

/-- Two quarter-hours of a year have different labels. -/
theorem label_inj (href : IsLeap y.year) (hlen : y.len = 8784) {year k k' : Nat}
    (hk : k < 4 * hoursOf year) (hk' : k' < 4 * hoursOf year)
    (he : label y (startOf (yearBegins year) k) = label y (startOf (yearBegins year) k')) : k = k' := by
  obtain ⟨idx, d, a, b, hidx, hab, ha, hb, hlabel⟩ := label_quarter href hlen hk
  obtain ⟨idx', d', a', b', hidx', hab', ha', hb', hlabel'⟩ := label_quarter href hlen hk'
  rw [hlabel, hlabel', Option.some.injEq, Prod.mk.injEq] at he
  obtain ⟨hd, hq⟩ := he
  rw [hd, hab', Option.some.injEq, Prod.mk.injEq] at hab
  have hsame : idx = idx' := by omega
  have hread := index_inj hlen (readHour_lt (by omega : k / 4 < hoursOf year))
    (readHour_lt (by omega : k' / 4 < hoursOf year)) (by rw [hidx, hidx', hsame])
  have hhour := readHour_inj hread
  omega

/-- A quarter of a day is the label of a quarter-hour of the year, unless the year has no such hour. -/
theorem labeled_iff (href : IsLeap y.year) (hlen : y.len = 8784) {year d a b quarter : Nat}
    (hab : y.dayHours d = some (a, b)) (hq : quarter < 4 * (b - a)) :
    (∃ k < 4 * hoursOf year, label y (startOf (yearBegins year) k) = some (d, quarter)) ↔
      IsLeap year ∨ ¬OnLeapDay y (a + quarter / 4) := by
  obtain ⟨-, -, -, -, hle⟩ := dayHours_some y hab
  obtain ⟨g, hg, hidx⟩ := index_surj hlen (by omega : a + quarter / 4 < 8784)
  have hleapDay : OnLeapDay y (a + quarter / 4) ↔ 1416 ≤ g ∧ g < 1440 := by
    constructor
    · rintro ⟨h, hlow, hhigh, hh⟩
      have := index_inj hlen (by omega : h < 8784) hg (hh.trans hidx.symm)
      omega
    · rintro ⟨hlow, hhigh⟩
      exact ⟨g, hlow, hhigh, hidx⟩
  have hread : (IsLeap year ∨ ¬OnLeapDay y (a + quarter / 4)) ↔
      ∃ h < hoursOf year, readHour (IsLeap year) h = g := by
    rw [readHour_iff hg, hleapDay]
    exact or_congr_right (by omega)
  rw [hread]
  constructor
  · rintro ⟨k, hk, hlabel⟩
    obtain ⟨idx, d', a', b', hidx', hab', ha', hb', hlabel'⟩ := label_quarter href hlen hk
    rw [hlabel, Option.some.injEq, Prod.mk.injEq] at hlabel'
    rw [← hlabel'.1, hab, Option.some.injEq, Prod.mk.injEq] at hab'
    have hsame : idx = a + quarter / 4 := by omega
    refine ⟨k / 4, by omega, ?_⟩
    apply index_inj hlen (readHour_lt (by omega)) hg
    rw [hidx', hidx, hsame]
  · rintro ⟨h, hh, hgh⟩
    refine ⟨4 * h + quarter % 4, by omega, ?_⟩
    obtain ⟨idx, d', a', b', hidx', hab', ha', hb', hlabel'⟩ :=
      label_quarter href hlen (by omega : 4 * h + quarter % 4 < 4 * hoursOf year)
    have hdiv : (4 * h + quarter % 4) / 4 = h := by omega
    rw [hdiv, hgh, hidx, Option.some.injEq] at hidx'
    obtain ⟨rfl, rfl⟩ := day_unique hab (by omega) (by omega) hab' ha' hb'
    rw [hlabel', Option.some.injEq, Prod.mk.injEq]
    omega

end

/-- Where a row settles. -/
def settledIn (row : ClosedPeriod ℝ) : Nat × Nat := (row.localDay, row.quarter)

/-- The days of so many hours. -/
def daysOf (y : PriceYear P) (hours : Nat) : Finset Nat :=
  (Finset.range y.days).filter fun d => dayLength y d = hours

/-- Whether a year reads every hour of the days of so many hours. -/
def Visited (y : PriceYear P) (year hours : Nat) : Prop :=
  ∀ d a b, y.dayHours d = some (a, b) → b - a = hours → ∀ idx, a ≤ idx → idx < b →
    IsLeap year ∨ ¬OnLeapDay y idx

/-- Rows with each label once are counted by their labels. -/
theorem onDaysOf_card {y : PriceYear P} {rows : List (ClosedPeriod ℝ)} (hnodup : (rows.map settledIn).Nodup)
    (hours : Nat) : onDaysOf y hours rows =
      ((rows.map settledIn).toFinset.filter fun at_ => dayLength y at_.1 = hours).card := by
  have hfilter : (rows.map settledIn).toFinset.filter (fun at_ => dayLength y at_.1 = hours) =
      ((rows.map settledIn).filter fun at_ => dayLength y at_.1 == hours).toFinset := by
    ext at_
    simp
  rw [hfilter, List.toFinset_card_of_nodup (hnodup.filter _), ← List.countP_eq_length_filter,
    List.countP_map, onDaysOf]
  rfl

theorem dayHours_of_length {y : PriceYear P} {d : Nat} (h : dayLength y d ≠ 0) :
    ∃ a b, y.dayHours d = some (a, b) := by
  rw [dayLength] at h
  split at h
  · next a b hab => exact ⟨a, b, hab⟩
  · exact absurd rfl h

/-- A year settles every quarter of its local days once. -/
theorem year_settled (ref : Reference ℝ) (cfg : PlantConfig ℝ) (ems : EmsStrategy ℝ) (seed : UInt64)
    (year : Nat) {y : PriceYear P} (href : IsLeap y.year) (hlen : y.len = 8784) :
    ∃ sim c, periodTicks ref (hoursOf year * 3600)
        (Simulation.new cfg (gw01Models cfg ems) seed (yearBegins year), .new y (yearBegins year)) =
          some (sim, c) ∧
      c.kpis.closed = 4 * hoursOf year ∧ (c.rows.map settledIn).Nodup ∧
        (∀ d a b, y.dayHours d = some (a, b) → ∀ quarter < 4 * (b - a),
          ((d, quarter) ∈ c.rows.map settledIn ↔ IsLeap year ∨ ¬OnLeapDay y (a + quarter / 4))) ∧
        (Visited y year 23 → c.kpis.onShortDstDay = (daysOf y 23).card * 92) ∧
        (Visited y year 25 → c.kpis.onLongDstDay = (daysOf y 25).card * 100) := by
  obtain ⟨sim, c, hrun, hnow, h⟩ := settled_pass ref cfg ems seed (yearBegins year)
    (by omega : 0 < y.len) (hoursOf year * 3600)
  have hcount : c.rows.length = 4 * hoursOf year := by
    have hrows := h.count
    rw [hnow, yearBegins] at hrows
    push_cast at hrows
    omega
  have hlabels : (c.rows.map settledIn).map some =
      (List.range (4 * hoursOf year)).map fun k => label y (startOf (yearBegins year) k) := by
    have hsome : (c.rows.map settledIn).map some =
        c.rows.map fun row => label y row.startUnixS := by
      rw [List.map_map]
      apply List.map_congr_left
      intro row hrow
      exact (h.labeled row hrow).symm
    have hstarts := congrArg (List.map (label y)) h.starts
    rw [List.map_map, List.map_map, hcount] at hstarts
    rw [hsome]
    exact hstarts
  have hnodup : (c.rows.map settledIn).Nodup := by
    apply List.Nodup.of_map some
    rw [hlabels]
    apply List.Nodup.map_on _ List.nodup_range
    intro k hk k' hk' he
    exact label_inj href hlen (List.mem_range.mp hk) (List.mem_range.mp hk') he
  have hmem : ∀ d a b, y.dayHours d = some (a, b) → ∀ quarter < 4 * (b - a),
      ((d, quarter) ∈ c.rows.map settledIn ↔ IsLeap year ∨ ¬OnLeapDay y (a + quarter / 4)) := by
    intro d a b hab quarter hq
    rw [← labeled_iff href hlen hab hq, ← List.mem_map_of_injective (Option.some_injective _), hlabels]
    simp [List.mem_map]
  have hdays : ∀ hours, Visited y year hours → onDaysOf y hours c.rows = (daysOf y hours).card * (4 * hours) := by
    intro hours hvisited
    rw [onDaysOf_card hnodup, ← Finset.card_range (4 * hours), ← Finset.card_product]
    congr 1
    ext ⟨d, quarter⟩
    simp only [Finset.mem_filter, List.mem_toFinset, Finset.mem_product, daysOf, Finset.mem_range]
    constructor
    · rintro ⟨hrow, hlength⟩
      obtain ⟨row, hin, he⟩ := List.mem_map.mp hrow
      have hquarter := h.inDay row hin
      cases he
      obtain ⟨a, b, hab⟩ := dayHours_of_length (by omega : dayLength y row.localDay ≠ 0)
      exact ⟨⟨dayHours_lt y hab, hlength⟩, by omega⟩
    · rintro ⟨⟨hd, hlength⟩, hquarter⟩
      obtain ⟨a, b, hab⟩ := exists_dayHours y hd
      have hlong := dayLength_eq hab
      exact ⟨(hmem d a b hab quarter (by omega)).mpr
        (hvisited d a b hab (by omega) _ (by omega) (by omega)), hlength⟩
  refine ⟨sim, c, hrun, h.closed.trans hcount, hnodup, hmem, ?_, ?_⟩
  · intro hvisited
    rw [h.onShort, hdays 23 hvisited]
  · intro hvisited
    rw [h.onLong, hdays 25 hvisited]

/-- Where a local day of 2024 starts: the day from 90 on is an hour short, that from
300 on an hour long. -/
def dayStart2024 (d : Nat) : Nat := 24 * d + (if 300 < d then 1 else 0) - if 90 < d then 1 else 0

theorem days_2024_accepted : checkDayStarts ((List.range 367).map dayStart2024) 8784 = .ok () := by
  decide +kernel

/-- A price year by that table. -/
def flat2024 : PriceYear Nat where
  year := 2024
  startOffsetH := 1
  eurMwh := List.replicate 8784 0
  dayStarts := (List.range 367).map dayStart2024
  described := by
    rw [List.length_replicate]
    exact days_2024_accepted

theorem flat2024_len : flat2024.len = 8784 := List.length_replicate

theorem flat2024_days : flat2024.days = 366 := by
  rw [PriceYear.days, flat2024, List.length_map, List.length_range]

theorem flat2024_hours {d : Nat} (h : d < 366) :
    flat2024.dayHours d = some (dayStart2024 d, dayStart2024 (d + 1)) := by
  have hstart : ∀ d < 367, flat2024.dayStarts[d]? = some (dayStart2024 d) := by
    intro d hd
    rw [flat2024, List.getElem?_map, List.getElem?_range hd, Option.map_some]
  rw [PriceYear.dayHours, hstart d (by omega), hstart (d + 1) (by omega)]

theorem flat2024_spring : flat2024.dayHours 90 = some (2160, 2183) ∧
    ∀ d < 366, dayLength flat2024 d = 23 ↔ d = 90 := by
  refine ⟨flat2024_hours (by decide), fun d hd => ?_⟩
  rw [dayLength_eq (flat2024_hours hd), dayStart2024, dayStart2024]
  split_ifs <;> omega

theorem flat2024_autumn : flat2024.dayHours 300 = some (7199, 7224) ∧
    ∀ d < 366, dayLength flat2024 d = 25 ↔ d = 300 := by
  refine ⟨flat2024_hours (by decide), fun d hd => ?_⟩
  rw [dayLength_eq (flat2024_hours hd), dayStart2024, dayStart2024]
  split_ifs <;> omega

/-- Its one day of so many hours is past the leap day. -/
theorem flat2024_visited {hours day first last : Nat}
    (h : flat2024.dayHours day = some (first, last) ∧ ∀ d < 366, dayLength flat2024 d = hours ↔ d = day)
    (hlate : 1440 < first) : (daysOf flat2024 hours).card = 1 ∧ Visited flat2024 2026 hours := by
  obtain ⟨hday, hodd⟩ := h
  have hlt : day < 366 := by
    rw [← flat2024_days]
    exact dayHours_lt _ hday
  constructor
  · rw [Finset.card_eq_one]
    refine ⟨day, ?_⟩
    ext d
    simp only [daysOf, flat2024_days, Finset.mem_filter, Finset.mem_range, Finset.mem_singleton]
    constructor
    · rintro ⟨hd, hlength⟩
      exact (hodd d hd).mp hlength
    · rintro rfl
      exact ⟨hlt, (hodd d hlt).mpr rfl⟩
  · intro d a b hab hlength idx ha hb
    right
    rintro ⟨g, hlow, hhigh, hidx⟩
    have hd := dayHours_lt _ hab
    rw [flat2024_days] at hd
    have hsame := (hodd d hd).mp (by rw [dayLength_eq hab, hlength])
    rw [hsame, hday, Option.some.injEq, Prod.mk.injEq] at hab
    have hoffset : flat2024.startOffsetH = 1 := rfl
    rw [index_eq flat2024_len, hoffset, Option.some.injEq] at hidx
    omega

/-- The gates of the annual run. -/
theorem year_settled_2026 : ∃ (sim : Simulation ℝ) (c : PeriodCollector ℝ Nat),
    periodTicks .idle (hoursOf 2026 * 3600) (Simulation.new .gw01 (gw01Models .gw01 ⟨fun _ _ => 0⟩) 7
      (yearBegins 2026), .new flat2024 (yearBegins 2026)) = some (sim, c) ∧
      c.kpis = ⟨35040, 92, 100⟩ := by
  obtain ⟨sim, c, hrun, hclosed, -, -, hshort, hlong⟩ := year_settled .idle .gw01 ⟨fun _ _ => 0⟩ 7 2026
    (show IsLeap ((flat2024.year : Nat) : Int) by decide) flat2024_len
  obtain ⟨hcard23, hvisited23⟩ := flat2024_visited flat2024_spring (by decide)
  obtain ⟨hcard25, hvisited25⟩ := flat2024_visited flat2024_autumn (by decide)
  have hyear : c.kpis.closed = 35040 := hclosed
  have hspring := hshort hvisited23
  have hautumn := hlong hvisited25
  rw [hcard23] at hspring
  rw [hcard25] at hautumn
  refine ⟨sim, c, hrun, ?_⟩
  rw [← hyear, ← Nat.one_mul 92, ← Nat.one_mul 100, ← hspring, ← hautumn]

end BessPeriods
