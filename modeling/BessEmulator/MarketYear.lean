import BessEmulator.ChartText
import BessEmulator.PeriodBooks
import BessEmulator.PriceCompile
import Mathlib.Data.List.ReduceOption

/-!
# The market's year

From the market's weekly blocks to the price the planner reads at a second. A week's
days have 24 hours but for its last one, where the clocks are set; the compiler, which
knows no dates, then finds every local day.
-/
namespace Bess

/-- The price year bundled with a release: `none` when the bytes do not hash to the pin, do
not decode or do not make a year. -/
def PriceYear.bundled {F : Type} [Scalar F] (raw : List UInt8) (pin : UInt64) : Option (PriceYear F) :=
  if fnvFold fnvOffset raw = pin then
    match PriceCodec.decode raw with
    | some (.ok data) =>
      (PriceYear.fromParts data.year.toNat data.startOffsetH.toInt
        (data.priceCtMwh.map fun ct => Scalar.ofInt ct.toInt / 100.0)
        (data.dayStarts.map UInt16.toNat)).toOption
    | _ => none
  else none

end Bess

namespace BessMarket

open Bess Smard BessArtifact BessPrices BessPeriods BessReference BessReplayed BessChart Gregorian

variable {F : Type}

/-- A week of local days: 24 hours each, the last one 23 to 25. -/
def Week (week : List (List F)) : Prop :=
  ∃ days last, week = days ++ [last] ∧ (∀ day ∈ days, day.length = 24) ∧
    23 ≤ last.length ∧ last.length ≤ 25

/-- The hours days start at. -/
def firstHours (k : Nat) : List (List F) → List Nat
  | [] => []
  | day :: days => k :: firstHours (k + day.length) days

/-- The hours of a number of days. -/
def hoursIn (days : List (List F)) : Nat := days.flatten.length

/-- The stamps weeks start at. -/
def weekStarts (startMs : Int) (k : Nat) : List (List (List F)) → List Int
  | [] => []
  | week :: weeks => (startMs + k * HOUR_MS) :: weekStarts startMs (k + hoursIn week) weeks

/-- Blocks that hold weeks: each starts where its week does and has, of the year, the week's hours. -/
inductive Filed (startMs endMs : Int) : Nat → List (List (List F)) → List (PriceBlock F) → Prop
  | done {k : Nat} : Filed startMs endMs k [] []
  | week {k : Nat} {week : List (List F)} {weeks : List (List (List F))} {block : PriceBlock F}
      {blocks : List (PriceBlock F)} : Week week → block.startMs = startMs + k * HOUR_MS →
    inYear startMs endMs [block] = stamped startMs k week.flatten →
      Filed startMs endMs (k + hoursIn week) weeks blocks →
        Filed startMs endMs k (week :: weeks) (block :: blocks)

variable {startMs endMs : Int} {k : Nat} {weeks : List (List (List F))} {blocks : List (PriceBlock F)}

theorem inYear_append (blocks blocks' : List (PriceBlock F)) :
    inYear startMs endMs (blocks ++ blocks') = inYear startMs endMs blocks ++ inYear startMs endMs blocks' := by
  simp [inYear]

theorem filed_hours (h : Filed startMs endMs k weeks blocks) :
    inYear startMs endMs blocks = stamped startMs k weeks.flatten.flatten := by
  induction h with
  | done => rfl
  | @week k week weeks block blocks _ _ hhours _ ih =>
    rw [← List.singleton_append, inYear_append, hhours, ih, List.flatten_cons, List.flatten_append,
      stamped_append]
    rfl

theorem filed_starts (h : Filed startMs endMs k weeks blocks) :
    blocks.map PriceBlock.startMs = weekStarts startMs k weeks := by
  induction h with
  | done => rfl
  | week _ hstart _ _ ih => rw [List.map_cons, hstart, ih]; rfl

theorem filed_weeks (h : Filed startMs endMs k weeks blocks) : ∀ week ∈ weeks, Week week := by
  induction h with
  | done => simp
  | week hweek _ _ _ ih => exact List.forall_mem_cons.mpr ⟨hweek, ih⟩

theorem hoursIn_days {days : List (List F)} (h : ∀ day ∈ days, day.length = 24) :
    hoursIn days = 24 * days.length := by
  induction days with
  | nil => rfl
  | cons day days ih =>
    obtain ⟨hday, hdays⟩ := List.forall_mem_cons.mp h
    have hrest := ih hdays
    rw [hoursIn] at hrest ⊢
    rw [List.flatten_cons, List.length_append, hday, hrest, List.length_cons]
    omega

theorem hoursIn_append (days days' : List (List F)) : hoursIn (days ++ days') = hoursIn days + hoursIn days' := by
  simp [hoursIn]

theorem hoursIn_week {days : List (List F)} {last : List F} (h : ∀ day ∈ days, day.length = 24) :
    hoursIn (days ++ [last]) = 24 * days.length + last.length := by
  rw [hoursIn_append, hoursIn_days h, hoursIn]
  simp

theorem length_firstHours (k : Nat) (days : List (List F)) : (firstHours k days).length = days.length := by
  induction days generalizing k with
  | nil => rfl
  | cons day days ih => rw [firstHours, List.length_cons, ih, List.length_cons]

theorem firstHours_append (k : Nat) (days days' : List (List F)) :
    firstHours k (days ++ days') = firstHours k days ++ firstHours (k + hoursIn days) days' := by
  induction days generalizing k with
  | nil => rfl
  | cons day days ih =>
    rw [List.cons_append, firstHours, ih, firstHours, List.cons_append, hoursIn, hoursIn,
      List.flatten_cons, List.length_append, Nat.add_assoc]

theorem firstHours_days {days : List (List F)} (h : ∀ day ∈ days, day.length = 24) (k : Nat) :
    firstHours k days = (List.range days.length).map fun i => k + 24 * i := by
  induction days generalizing k with
  | nil => rfl
  | cons day days ih =>
    obtain ⟨hday, hdays⟩ := List.forall_mem_cons.mp h
    rw [firstHours, ih hdays, List.length_cons, List.range_succ_eq_map, List.map_cons, List.map_map]
    congr 1
    apply List.map_congr_left
    intro i _
    simp only [Function.comp]
    omega

/-- The midnights of a week, whatever its last day. -/
theorem midnights_week {week : List (List F)} (h : Week week) (startMs : Int) (k : Nat) :
    midnights (startMs + k * HOUR_MS) (startMs + (k + hoursIn week : Nat) * HOUR_MS) =
      (firstHours k week).map fun n : Nat => startMs + n * HOUR_MS := by
  obtain ⟨days, last, rfl, hdays, hlow, hhigh⟩ := h
  have hhours : hoursIn (days ++ [last]) = _ := hoursIn_week hdays
  have hlength : (startMs + (k + hoursIn (days ++ [last]) : Nat) * HOUR_MS - (startMs + k * HOUR_MS) +
      DAY_MS.tdiv 2).tdiv DAY_MS = (days.length + 1 : Nat) := by
    have hhalf : DAY_MS.tdiv 2 = 43200000 := by decide
    have hday : DAY_MS = 86400000 := by decide
    rw [hhours, hhalf, hday, HOUR_MS, Int.tdiv_eq_ediv_of_nonneg (by omega)]
    omega
  have hfirst : firstHours k (days ++ [last]) =
      (List.range (days.length + 1)).map fun i => k + 24 * i := by
    rw [firstHours_append, firstHours_days hdays, hoursIn_days hdays, List.range_succ, List.map_append]
    rfl
  rw [midnights, hlength, Int.toNat_natCast, hfirst, List.map_map]
  apply List.map_congr_left
  intro i _
  simp only [Function.comp, DAY_MS, HOUR_MS]
  omega

theorem allMidnights_weeks (startMs : Int) (k : Nat) {weeks : List (List (List F))}
    (h : ∀ week ∈ weeks, Week week) :
    allMidnights (startMs + (k + hoursIn weeks.flatten : Nat) * HOUR_MS) (weekStarts startMs k weeks) =
      (firstHours k weeks.flatten).map fun n : Nat => startMs + n * HOUR_MS := by
  induction weeks generalizing k with
  | nil => rfl
  | cons week weeks ih =>
    obtain ⟨hweek, hweeks⟩ := List.forall_mem_cons.mp h
    have hrest := ih (k + hoursIn week) hweeks
    have hnext : (weekStarts startMs (k + hoursIn week) weeks).head?.getD
        (startMs + (k + hoursIn (week :: weeks).flatten : Nat) * HOUR_MS) =
          startMs + (k + hoursIn week : Nat) * HOUR_MS := by
      cases weeks with
      | nil => simp [weekStarts]
      | cons next weeks => rfl
    rw [weekStarts, allMidnights, hnext, midnights_week hweek, List.flatten_cons, firstHours_append,
      List.map_append, ← hrest, hoursIn_append, Nat.add_assoc]

/-- Weeks start in the year, one after the other. -/
theorem weekStarts_ascend (startMs : Int) (k : Nat) {weeks : List (List (List F))}
    (h : ∀ week ∈ weeks, Week week) :
    (weekStarts startMs k weeks).Pairwise (· < ·) ∧ ∀ ms ∈ weekStarts startMs k weeks,
      startMs + k * HOUR_MS ≤ ms ∧ ms < startMs + (k + hoursIn weeks.flatten : Nat) * HOUR_MS := by
  induction weeks generalizing k with
  | nil => simp [weekStarts]
  | cons week weeks ih =>
    obtain ⟨hweek, hweeks⟩ := List.forall_mem_cons.mp h
    obtain ⟨hascend, hbetween⟩ := ih (k + hoursIn week) hweeks
    have hpos : 0 < hoursIn week := by
      obtain ⟨days, last, rfl, hdays, hlow, -⟩ := hweek
      rw [hoursIn_week hdays]
      omega
    rw [weekStarts, List.flatten_cons, hoursIn_append]
    simp only [HOUR_MS] at hbetween ⊢
    constructor
    · apply List.pairwise_cons.mpr
      refine ⟨fun ms hms => ?_, hascend⟩
      have := (hbetween ms hms).1
      omega
    · intro ms hms
      rcases List.mem_cons.mp hms with rfl | hms
      · omega
      · have := hbetween ms hms
        omega

/-- The starts of the days and the end of the last. -/
def tableOf (days : List (List F)) : List Nat := firstHours 0 days ++ [hoursIn days]

/-- A day of 23 to 25 hours. -/
def Day (day : List F) : Prop := 23 ≤ day.length ∧ day.length ≤ 25

theorem week_days {weeks : List (List (List F))} (h : ∀ week ∈ weeks, Week week) :
    ∀ day ∈ weeks.flatten, Day day := by
  intro day hday
  obtain ⟨week, hweek, hmem⟩ := List.mem_flatten.mp hday
  obtain ⟨days, last, rfl, hdays, hlast⟩ := h week hweek
  rcases List.mem_append.mp hmem with hmem | hmem
  · rw [Day, hdays day hmem]
    decide
  · rw [List.mem_singleton.mp hmem]
    exact hlast

theorem steps_of_days {days : List (List F)} (h : ∀ day ∈ days, Day day) (k : Nat) :
    (firstHours k days ++ [k + hoursIn days]).IsChain DayStep := by
  induction days generalizing k with
  | nil => exact List.isChain_singleton _
  | cons day days ih =>
    obtain ⟨hday, hdays⟩ := List.forall_mem_cons.mp h
    have hrest := ih hdays (k + day.length)
    have hend : k + hoursIn (day :: days) = k + day.length + hoursIn days := by
      rw [hoursIn, hoursIn, List.flatten_cons, List.length_append, Nat.add_assoc]
    have hstep : DayStep k (k + day.length) := ⟨by have := hday.1; omega, by have := hday.2; omega⟩
    rw [firstHours, hend]
    cases days with
    | nil => exact List.isChain_cons_cons.mpr ⟨hstep, hrest⟩
    | cons next days => exact List.isChain_cons_cons.mpr ⟨hstep, hrest⟩

theorem table_days {days : List (List F)} (h : ∀ day ∈ days, Day day) :
    DayTable (tableOf days) (hoursIn days) where
  first := by cases days <;> rfl
  last := List.getLast?_concat
  steps := by
    have hsteps := steps_of_days h 0
    rwa [Nat.zero_add] at hsteps

theorem table_get (k : Nat) {days : List (List F)} {d : Nat} (hd : d ≤ days.length) :
    (firstHours k days ++ [k + hoursIn days])[d]? = some (k + hoursIn (days.take d)) := by
  induction days generalizing k d with
  | nil =>
    obtain rfl := Nat.le_zero.mp hd
    rfl
  | cons day days ih =>
    cases d with
    | zero => rfl
    | succ d =>
      have hend : ∀ rest : List (List F), k + hoursIn (day :: rest) = k + day.length + hoursIn rest := by
        intro rest
        rw [hoursIn, hoursIn, List.flatten_cons, List.length_append, Nat.add_assoc]
      rw [firstHours, List.cons_append, List.getElem?_cons_succ, hend, List.take_succ_cons, hend]
      exact ih (k + day.length) (Nat.le_of_succ_le_succ hd)

/-- A day of a list of days is a piece of their hours. -/
theorem day_piece {days : List (List F)} {d : Nat} {day : List F} (h : days[d]? = some day) :
    hoursIn (days.take (d + 1)) = hoursIn (days.take d) + day.length ∧
      (days.flatten.drop (hoursIn (days.take d))).take day.length = day ∧
        hoursIn (days.take d) + day.length ≤ days.flatten.length := by
  obtain ⟨hd, hday⟩ := List.getElem?_eq_some_iff.mp h
  have hsplit : days = days.take d ++ day :: days.drop (d + 1) := by
    rw [← hday, ← List.drop_eq_getElem_cons hd, List.take_append_drop]
  have hflat : days.flatten = (days.take d).flatten ++ (day ++ (days.drop (d + 1)).flatten) := by
    conv_lhs => rw [hsplit]
    rw [List.flatten_append, List.flatten_cons]
  refine ⟨?_, ?_, ?_⟩
  · rw [List.take_add_one, h, Option.toList_some, hoursIn_append]
    simp [hoursIn]
  · rw [hflat, hoursIn, List.drop_left, List.take_left]
  · rw [hflat, hoursIn, List.length_append, List.length_append]
    omega

/-- An hour of a day is that many hours after the day's first. -/
theorem day_price {days : List (List F)} {d hour : Nat} {day : List F} {v : F} (h : days[d]? = some day)
    (hv : day[hour]? = some v) : days.flatten[hoursIn (days.take d) + hour]? = some v := by
  obtain ⟨hlt, -⟩ := List.getElem?_eq_some_iff.mp hv
  rw [← (day_piece h).2.1, List.getElem?_take_of_lt hlt, List.getElem?_drop] at hv
  exact hv

/-- What the market has published: the weeks of the year, each in its block, and blocks of
other years. -/
structure Published [Scalar F] (weeks : List (List (List F))) (blocks others : List (PriceBlock F)) : Prop where
  hours : hoursIn weeks.flatten = HOURS
  within : ∀ v ∈ weeks.flatten.flatten, Within v
  filed : Filed (localMidnightMs YEAR) (localMidnightMs (YEAR + 1)) 0 weeks blocks
  starts : ∀ block ∈ others,
    ¬(localMidnightMs YEAR ≤ block.startMs ∧ block.startMs < localMidnightMs (YEAR + 1))
  entries : inYear (localMidnightMs YEAR) (localMidnightMs (YEAR + 1)) others = []

/-- The local year has that many hours. -/
theorem year_end : localMidnightMs (YEAR + 1) = localMidnightMs YEAR + HOURS * HOUR_MS := by decide

variable [Scalar F] {others : List (PriceBlock F)}

theorem startsOf_weeks (h : Published weeks blocks others) :
    startsOf (localMidnightMs YEAR) (localMidnightMs (YEAR + 1)) (blocks ++ others) =
      weekStarts (localMidnightMs YEAR) 0 weeks := by
  obtain ⟨hascend, hbetween⟩ := weekStarts_ascend (localMidnightMs YEAR) 0 (filed_weeks h.filed)
  have hothers : (others.map PriceBlock.startMs).filter
      (fun ms => decide (localMidnightMs YEAR ≤ ms ∧ ms < localMidnightMs (YEAR + 1))) = [] := by
    apply List.filter_eq_nil_iff.mpr
    intro ms hms
    obtain ⟨block, hblock, rfl⟩ := List.mem_map.mp hms
    rw [decide_eq_true_eq]
    exact h.starts block hblock
  have hblocks : (weekStarts (localMidnightMs YEAR) 0 weeks).filter
      (fun ms => decide (localMidnightMs YEAR ≤ ms ∧ ms < localMidnightMs (YEAR + 1))) =
        weekStarts (localMidnightMs YEAR) 0 weeks := by
    apply List.filter_eq_self.mpr
    intro ms hms
    have hms' := hbetween ms hms
    rw [h.hours, Nat.zero_add, ← year_end] at hms'
    rw [decide_eq_true_eq]
    constructor
    · have := hms'.1
      rwa [Nat.cast_zero, zero_mul, add_zero] at this
    · exact hms'.2
  rw [startsOf, List.map_append, List.filter_append, hothers, List.append_nil, filed_starts h.filed, hblocks]
  apply List.mergeSort_of_pairwise
  apply hascend.imp
  intro a b hab
  rw [decide_eq_true_eq]
  exact hab.le

/-- Its blocks say of the year what the compiler asks for. -/
theorem says_of_published (h : Published weeks blocks others) :
    Says (blocks ++ others) weeks.flatten.flatten (tableOf weeks.flatten) where
  hours := h.hours
  within := h.within
  entries := by
    rw [inYear_append, h.entries, List.append_nil, filed_hours h.filed]
  first := by
    rw [startsOf_weeks h]
    have hhours := h.hours
    cases weeks with
    | nil => cases hhours
    | cons week weeks =>
      rw [weekStarts, List.head?_cons, Nat.cast_zero, zero_mul, add_zero]
  midnights := by
    have hall := allMidnights_weeks (localMidnightMs YEAR) 0 (filed_weeks h.filed)
    rw [h.hours, Nat.zero_add, ← year_end] at hall
    rw [startsOf_weeks h, hall, tableOf, List.map_append, h.hours, year_end]
    rfl
  days := by
    have htable := table_days (week_days (filed_weeks h.filed))
    rwa [h.hours] at htable

/-- A stored price. -/
noncomputable def price (v : ℝ) : ℝ := ((cents v).toInt : ℝ) / 100.0

/-- What an artifact loads as, under its own hash. -/
theorem says_bundled {blocks : List (PriceBlock ℝ)} {prices : List ℝ} {table : List Nat}
    (h : Says blocks prices table) : ∃ y : PriceYear ℝ,
      PriceYear.bundled (writtenBytes (dataOf prices table))
        (fnvFold fnvOffset (writtenBytes (dataOf prices table))) = some y ∧
          y.year = 2024 ∧ y.startOffsetH = 1 ∧ y.eurMwh = prices.map price ∧ y.dayStarts = table := by
  have hfits : ∀ n ∈ table, n < 65536 := by
    intro n hn
    have hle := (bounds_of_table h.days).2 n hn
    rw [HOURS] at hle
    omega
  have hprices : (dataOf prices table).priceCtMwh.map (fun ct => (Scalar.ofInt ct.toInt / 100.0 : ℝ)) =
      prices.map price := by
    rw [dataOf, List.map_map]
    apply List.map_congr_left
    intro v _
    simp only [Function.comp, price, Scalar.ofInt_real]
  have htable : (dataOf prices table).dayStarts.map UInt16.toNat = table := map_toNat hfits
  have hcheck : checkDayStarts table (prices.map price).length = .ok () := by
    rw [List.length_map, h.hours]
    exact (checkDayStarts_iff table HOURS).mpr h.days
  refine ⟨⟨2024, 1, prices.map price, table, hcheck⟩, ?_, rfl, rfl, rfl, rfl⟩
  rw [PriceYear.bundled, if_pos rfl, decode_written (says_storable h)]
  simp only [hprices, htable]
  rw [PriceYear.fromParts]
  split
  · rfl
  · next hbad =>
    rw [hcheck] at hbad
    cases hbad

theorem price_close {v : ℝ} (h : Within v) : |price v - v| ≤ 1 / 200 := by
  have hhundred : (100.0 : ℝ) = 100 := by norm_num
  rw [price, hhundred]
  exact cents_within h

/-- The hour of the local year a timestamp reads. Its first hour is still the old year's in UTC. -/
theorem indexAt_local {y : PriceYear ℝ} (hyear : y.year = 2024) (hoffset : y.startOffsetH = 1)
    (hlen : y.len = 8784) {t : Int} {i : Nat} (hi : i < 8784)
    (ht : t / 3600 = localMidnightMs YEAR / HOUR_MS + i) : y.indexAt t = some i := by
  have hstart : localMidnightMs YEAR / HOUR_MS = 473351 := by decide
  have hleap : IsLeap (2024 : Nat) := by decide
  rw [hstart] at ht
  rw [PriceYear.indexAt, index_eq hlen, hyear, hoffset]
  by_cases hfirst : i = 0
  · have hbegin : yearBegins 2023 / 3600 = 464592 := by decide
    have hcommon : ¬ IsLeap (2023 : Nat) := by decide
    have hhour : referenceHour t 2024 = readHour (IsLeap (2023 : Nat)) 8759 := by
      apply referenceHour_year hleap
      · rw [hoursOf, if_neg hcommon]
        decide
      · rw [hbegin, ht, hfirst]
        rfl
    rw [hhour, readHour, if_neg (not_or.mpr ⟨hcommon, by decide⟩), hfirst]
    rfl
  · have hbegin : yearBegins 2024 / 3600 = 473352 := by decide
    have hhour : referenceHour t 2024 = readHour (IsLeap (2024 : Nat)) (i - 1) := by
      apply referenceHour_year hleap
      · rw [hoursOf, if_pos hleap]
        omega
      · rw [hbegin, ht]
        omega
    rw [hhour, readHour, if_pos (Or.inl hleap)]
    congr 1
    omega

/-- At that second the planner's year has that price. -/
def Reads (y : PriceYear ℝ) (t : Int) (v : ℝ) : Prop :=
  ∃ idx p, y.indexAt t = some idx ∧ y.eurMwh[idx]? = some p ∧ |p - v| ≤ 1 / 200

/-- The stamp of the hour a second is in. -/
def hourStamp (t : Int) : Int := t / 3600 * HOUR_MS

theorem compile_published (display : ℝ → String) {parse : List Char → Option ℝ} (rawDir : String)
    {files : List (List Char × List Char)} {read : List (Option (PriceBlock ℝ))}
    {weeks : List (List (List ℝ))} {blocks others : List (PriceBlock ℝ)}
    (hread : files.mapM (readBlock parse) = .ok read)
    (hperm : read.reduceOption.Perm (blocks ++ others)) (h : Published weeks blocks others) :
    compilePrices display parse rawDir files =
      some (.ok (writtenBytes (dataOf weeks.flatten.flatten (tableOf weeks.flatten)))) :=
  (compilePrices_iff display parse rawDir files _).mpr
    ⟨read, _, _, hread, says_perm hperm.symm (says_of_published h), rfl⟩

/-- The blocks of weeks. -/
def blocksOf (startMs : Int) (k : Nat) : List (List (List F)) → List (PriceBlock F)
  | [] => []
  | week :: weeks =>
    ⟨startMs + k * HOUR_MS, stamped startMs k week.flatten⟩ :: blocksOf startMs (k + hoursIn week) weeks

omit [Scalar F] in
theorem filed_blocksOf {k : Nat} {weeks : List (List (List F))} (h : ∀ week ∈ weeks, Week week)
    (hend : startMs + (k + hoursIn weeks.flatten : Nat) * HOUR_MS ≤ endMs) :
    Filed startMs endMs k weeks (blocksOf startMs k weeks) := by
  induction weeks generalizing k with
  | nil => exact Filed.done
  | cons week weeks ih =>
    obtain ⟨hweek, hweeks⟩ := List.forall_mem_cons.mp h
    rw [List.flatten_cons, hoursIn_append, ← Nat.add_assoc] at hend
    refine Filed.week hweek rfl ?_ (ih hweeks hend)
    rw [inYear, List.flatMap_cons, List.flatMap_nil, List.append_nil, List.filter_eq_self]
    intro e he
    obtain ⟨i, v, hv, rfl⟩ := mem_stamped.mp he
    obtain ⟨hi, -⟩ := List.getElem?_eq_some_iff.mp hv
    rw [decide_eq_true_eq]
    simp only [hoursIn, HOUR_MS] at hi hend ⊢
    omega

omit [Scalar F] in
theorem mem_blocksOf {k : Nat} {weeks : List (List (List F))} {block : PriceBlock F}
    (h : block ∈ blocksOf startMs k weeks) : ∃ i, ∃ week ∈ weeks, i + hoursIn week ≤ k + hoursIn weeks.flatten ∧
      block = ⟨startMs + i * HOUR_MS, stamped startMs i week.flatten⟩ := by
  induction weeks generalizing k with
  | nil => cases h
  | cons week weeks ih =>
    rw [List.flatten_cons, hoursIn_append]
    rcases List.mem_cons.mp h with rfl | h
    · exact ⟨k, week, List.mem_cons_self, by omega, rfl⟩
    · obtain ⟨i, week', hweek', hle, hblock⟩ := ih h
      exact ⟨i, week', List.mem_cons_of_mem _ hweek', by omega, hblock⟩

/-- Paid to take it at midnight, dearer by three euros every hour. -/
def hourlyPrice (hour : Nat) : Int := 3 * hour - 10

noncomputable def climbing (hours : Nat) : List ℝ := (List.range hours).map fun hour : Nat => (hourlyPrice hour : ℝ)

/-- A week of so many full days and a last one. -/
noncomputable def climbingWeek (days last : Nat) : List (List ℝ) :=
  List.replicate days (climbing 24) ++ [climbing last]

/-- The weeks of 2024, from its first Monday to its last: the clocks go forward on the last day of
the thirteenth and back on the last day of the forty-third. -/
noncomputable def weeks2024 : List (List (List ℝ)) :=
  List.replicate 12 (climbingWeek 6 24) ++ [climbingWeek 6 23] ++ List.replicate 29 (climbingWeek 6 24) ++
    [climbingWeek 6 25] ++ List.replicate 9 (climbingWeek 6 24) ++ [climbingWeek 1 24]

theorem climbing_length (hours : Nat) : (climbing hours).length = hours := by
  rw [climbing, List.length_map, List.length_range]

theorem climbingWeek_week {days last : Nat} (hlow : 23 ≤ last) (hhigh : last ≤ 25) :
    Week (climbingWeek days last) := by
  refine ⟨List.replicate days (climbing 24), climbing last, rfl, fun day hday => ?_, ?_⟩
  · rw [List.eq_of_mem_replicate hday, climbing_length]
  · rw [climbing_length]
    exact ⟨hlow, hhigh⟩

theorem mem_weeks2024 {week : List (List ℝ)} (h : week ∈ weeks2024) :
    ∃ days last, week = climbingWeek days last ∧ 23 ≤ last ∧ last ≤ 25 := by
  simp only [weeks2024, List.mem_append, List.mem_replicate, List.mem_singleton] at h
  rcases h with ((((h | h) | h) | h) | h) | h
  · exact ⟨6, 24, h.2, by decide, by decide⟩
  · exact ⟨6, 23, h, by decide, by decide⟩
  · exact ⟨6, 24, h.2, by decide, by decide⟩
  · exact ⟨6, 25, h, by decide, by decide⟩
  · exact ⟨6, 24, h.2, by decide, by decide⟩
  · exact ⟨1, 24, h, by decide, by decide⟩

theorem climbingWeek_hours (days last : Nat) : hoursIn (climbingWeek days last) = 24 * days + last := by
  rw [climbingWeek, hoursIn_week, List.length_replicate, climbing_length]
  intro day hday
  rw [List.eq_of_mem_replicate hday, climbing_length]

theorem hoursIn_replicate (n : Nat) (week : List (List ℝ)) :
    hoursIn (List.replicate n week).flatten = n * hoursIn week := by
  induction n with
  | zero => rw [Nat.zero_mul]; rfl
  | succ n ih =>
    rw [List.replicate_succ, List.flatten_cons, hoursIn_append, ih, Nat.succ_mul]
    omega

theorem weeks2024_hours : hoursIn weeks2024.flatten = HOURS := by
  simp only [weeks2024, List.flatten_append, hoursIn_append, hoursIn_replicate, List.flatten_singleton,
    climbingWeek_hours]
  rfl

theorem weeks2024_days : weeks2024.flatten.length = 366 := by
  simp only [weeks2024, climbingWeek, List.flatten_append, List.flatten_singleton, List.length_append,
    List.length_flatten, List.map_replicate, List.sum_replicate, List.length_replicate,
    List.length_singleton]
  rfl

/-- An hour's price is that of its place in the day. -/
theorem weeks2024_price {week : List (List ℝ)} (hweek : week ∈ weeks2024) {v : ℝ} (h : v ∈ week.flatten) :
    ∃ hour < 25, v = (hourlyPrice hour : ℝ) := by
  obtain ⟨day, hday, hv⟩ := List.mem_flatten.mp h
  obtain ⟨days, last, rfl, hlow, hhigh⟩ := mem_weeks2024 hweek
  have hclimb : ∃ hours ≤ 25, day = climbing hours := by
    rcases List.mem_append.mp hday with hday | hday
    · exact ⟨24, by decide, List.eq_of_mem_replicate hday⟩
    · exact ⟨last, hhigh, List.mem_singleton.mp hday⟩
  obtain ⟨hours, hle, rfl⟩ := hclimb
  obtain ⟨hour, hhour, rfl⟩ := List.mem_map.mp hv
  exact ⟨hour, (List.mem_range.mp hhour).trans_le hle, rfl⟩

noncomputable def blocks2024 : List (PriceBlock ℝ) := blocksOf (localMidnightMs YEAR) 0 weeks2024

theorem published2024 : Published weeks2024 blocks2024 [] where
  hours := weeks2024_hours
  within v hv := by
    obtain ⟨day, hday, hv⟩ := List.mem_flatten.mp hv
    obtain ⟨week, hweek, hday⟩ := List.mem_flatten.mp hday
    obtain ⟨hour, hhour, rfl⟩ := weeks2024_price hweek (List.mem_flatten.mpr ⟨day, hday, hv⟩)
    have hlow : (-10 : ℝ) ≤ hourlyPrice hour := by exact_mod_cast (show -10 ≤ hourlyPrice hour by rw [hourlyPrice]; omega)
    have hhigh : (hourlyPrice hour : ℝ) ≤ 62 := by exact_mod_cast (show hourlyPrice hour ≤ 62 by rw [hourlyPrice]; omega)
    rw [Within]
    norm_num
    constructor <;> linarith
  filed := by
    apply filed_blocksOf
    · intro week hweek
      obtain ⟨days, last, rfl, hlow, hhigh⟩ := mem_weeks2024 hweek
      exact climbingWeek_week hlow hhigh
    · rw [weeks2024_hours, Nat.zero_add, ← year_end]
  starts _ h := absurd h List.not_mem_nil
  entries := rfl

/-- A whole number as it is written. -/
def wholeText (n : Int) : List Char :=
  if n < 0 then '-' :: Nat.toDigits 10 n.natAbs else Nat.toDigits 10 n.natAbs

/-- Reads whole numbers. -/
def readWhole (text : List Char) : Option Int :=
  let number := fun digits : List Char =>
    if digits ≠ [] ∧ digits.all Char.isDigit then
      some ((digits.foldl (fun n c => 10 * n + U64.digit c) 0 : Nat) : Int)
    else none
  match text with
  | '-' :: digits => (number digits).map fun n => -n
  | digits => number digits

noncomputable def spellEuros (v : ℝ) : List Char := wholeText ⌊v⌋

noncomputable def readEuros (text : List Char) : Option ℝ := (readWhole text).map fun n => (n : ℝ)

theorem spelled_euros {hour : Nat} (h : hour < 25) : Spelled readEuros spellEuros (hourlyPrice hour : ℝ) := by
  have htext : spellEuros (hourlyPrice hour : ℝ) = wholeText (hourlyPrice hour) := by
    rw [spellEuros, Int.floor_intCast]
  have hplain : ∀ hour < 25, trim (wholeText (hourlyPrice hour)) = wholeText (hourlyPrice hour) ∧
      ']' ∉ wholeText (hourlyPrice hour) ∧ wholeText (hourlyPrice hour) ≠ "null".toList ∧
        readWhole (wholeText (hourlyPrice hour)) = some (hourlyPrice hour) := by decide
  obtain ⟨htrim, hinside, hnamed, hread⟩ := hplain hour h
  constructor
  · rw [htext, htrim]
  · rw [htext]
    exact hinside
  · rw [htext]
    exact hnamed
  · rw [htext, readEuros, hread]
    rfl

/-- The chart data of a block. -/
noncomputable def chartFile (block : PriceBlock ℝ) : List Char × List Char :=
  (PREFIX ++ Utf8.pad 13 block.startMs.toNat ++ SUFFIX, chartText spellEuros block.entries)

theorem read2024 : (blocks2024.map chartFile).mapM (readBlock readEuros) = .ok (blocks2024.map some) := by
  apply BessCompile.mapM_accepts.mpr
  rw [List.forall₂_map_left_iff, List.forall₂_map_right_iff, List.forall₂_same]
  intro block hblock
  obtain ⟨i, week, hweek, hle, rfl⟩ := mem_blocksOf hblock
  rw [weeks2024_hours, Nat.zero_add, HOURS] at hle
  have hstart : localMidnightMs YEAR = 1704063600000 := by decide
  apply readBlock_chart
  · intro e he
    obtain ⟨j, v, hv, rfl⟩ := mem_stamped.mp he
    obtain ⟨hj, -⟩ := List.getElem?_eq_some_iff.mp hv
    refine ⟨?_, fun w hw => ?_⟩
    · rw [hoursIn] at hle
      simp only [hstart, HOUR_MS]
      omega
    · cases hw
      obtain ⟨hour, hhour, rfl⟩ := weeks2024_price hweek (List.mem_of_getElem? hv)
      exact spelled_euros hhour
  · obtain ⟨days, last, rfl, hlow, -⟩ := mem_weeks2024 hweek
    have hany : (climbingWeek days last).flatten ≠ [] := by
      intro hnil
      have hhours := climbingWeek_hours days last
      rw [hoursIn, hnil, List.length_nil] at hhours
      omega
    obtain ⟨v, rest, hrest⟩ := List.exists_cons_of_ne_nil hany
    simp only [hrest, stamped, List.head?_cons, Option.map_some]

theorem reduceOption_some {β : Type} (l : List β) : (l.map some).reduceOption = l := by
  induction l with
  | nil => rfl
  | cons x l ih => rw [List.map_cons, List.reduceOption_cons_of_some, ih]

theorem blocks2024_read : (blocks2024.map some).reduceOption.Perm (blocks2024 ++ []) := by
  rw [reduceOption_some, List.append_nil]

/-- Ahead of the day the clocks go forward there are ninety days of twenty-four hours. -/
theorem weeks2024_spring : weeks2024.flatten[90]? = some (climbing 23) ∧
    hoursIn (weeks2024.flatten.take 90) = 2160 := by
  have htake : weeks2024.flatten.take 90 = (List.replicate 90 [climbing 24]).flatten := rfl
  refine ⟨rfl, ?_⟩
  rw [htake, hoursIn_replicate, hoursIn, List.flatten_singleton, climbing_length]

/-- What the compiler wrote loads under its own hash; and at every second of the local year the
planner reads, to half a cent, the one price the market's files have for the hour the second is
in. -/
theorem market_replayed (display : ℝ → String) (parse : List Char → Option ℝ) (rawDir : String)
    (files : List (List Char × List Char)) (bytes : List UInt8)
    (h : compilePrices display parse rawDir files = some (.ok bytes)) :
    ∃ y read, PriceYear.bundled bytes (fnvFold fnvOffset bytes) = some y ∧
      files.mapM (readBlock parse) = .ok read ∧
        ∀ t : Int, localMidnightMs YEAR ≤ 1000 * t → 1000 * t < localMidnightMs (YEAR + 1) →
          ∃ v, Reads y t v ∧ ∀ value,
            (∃ block ∈ read.reduceOption, (hourStamp t, value) ∈ block.entries) ↔ value = some v := by
  obtain ⟨read, prices, table, hread, hsaid, rfl⟩ := (compilePrices_iff display parse rawDir files bytes).mp h
  obtain ⟨y, hy, hyear, hoffset, hprices, -⟩ := says_bundled hsaid
  refine ⟨y, read, hy, hread, fun t hlow hhigh => ?_⟩
  have hstart : localMidnightMs YEAR = 1704063600000 := by decide
  have hend : localMidnightMs (YEAR + 1) = 1735686000000 := by decide
  have hlen : y.len = 8784 := by
    rw [PriceYear.len, hprices, List.length_map, hsaid.hours]
    rfl
  -- the hour of the year the second is in
  obtain ⟨i, hi, hstamp⟩ : ∃ i : Nat, i < 8784 ∧ hourStamp t = localMidnightMs YEAR + i * HOUR_MS := by
    rw [hstart] at hlow ⊢
    rw [hend] at hhigh
    exact ⟨(t / 3600 - 473351).toNat, by omega, by rw [hourStamp, HOUR_MS]; omega⟩
  have hhour : t / 3600 = localMidnightMs YEAR / HOUR_MS + i := by
    rw [hourStamp, hstart, HOUR_MS] at hstamp
    rw [hstart, HOUR_MS]
    omega
  have hget : i < prices.length := by
    rw [hsaid.hours]
    exact hi
  have hv : prices[i]? = some (prices.get ⟨i, hget⟩) := List.getElem?_eq_getElem hget
  refine ⟨prices.get ⟨i, hget⟩, ⟨i, price (prices.get ⟨i, hget⟩), ?_, ?_, ?_⟩, fun value => ?_⟩
  · exact indexAt_local hyear hoffset hlen hi hhour
  · rw [hprices, List.getElem?_map, hv]
    rfl
  · exact price_close (hsaid.within _ (List.get_mem prices ⟨i, hget⟩))
  · have hyears : localMidnightMs YEAR ≤ hourStamp t ∧ hourStamp t < localMidnightMs (YEAR + 1) := by
      rw [hstamp, hend, hstart, HOUR_MS]
      omega
    have hmem := hsaid.entries.mem_iff (a := (hourStamp t, value))
    rw [inYear, List.mem_filter, List.mem_flatMap, decide_eq_true_eq, and_iff_left hyears, mem_stamped] at hmem
    rw [hmem]
    constructor
    · rintro ⟨j, w, hw, he⟩
      rw [Nat.zero_add, Prod.mk.injEq, hstamp, HOUR_MS] at he
      obtain ⟨hsame, hvalue⟩ := he
      have hij : i = j := by omega
      rw [hvalue, ← hw, ← hij, hv]
    · intro hvalue
      exact ⟨i, _, hv, by rw [Nat.zero_add, hstamp, hvalue]⟩

/-- 31 March 2024 at three o'clock, the third hour of a day of twenty-three: four euros below zero. -/
theorem market_replayed_spring : ∃ (bytes : List UInt8) (y : PriceYear ℝ),
    compilePrices (fun _ => "") readEuros "prices" (blocks2024.map chartFile) = some (.ok bytes) ∧
      PriceYear.bundled bytes (fnvFold fnvOffset bytes) = some y ∧ Reads y 1711846800 (hourlyPrice 2) := by
  have hcompiled := compile_published (fun _ => "") "prices" read2024 blocks2024_read published2024
  obtain ⟨y, read, hy, hread, hreads⟩ := market_replayed (fun _ => "") readEuros "prices" _ _ hcompiled
  obtain ⟨v, hv, hvalue⟩ := hreads 1711846800 (by decide) (by decide)
  obtain rfl : blocks2024.map some = read := Except.ok.inj (read2024.symm.trans hread)
  have hstamp : hourStamp 1711846800 = localMidnightMs YEAR + ((0 + 2162 : Nat) : Int) * HOUR_MS := by decide
  have hprice : weeks2024.flatten.flatten[2162]? = some (hourlyPrice 2 : ℝ) := by
    have hclimb : (climbing 23)[2]? = some (hourlyPrice 2 : ℝ) := rfl
    have hget := day_price weeks2024_spring.1 hclimb
    rwa [weeks2024_spring.2] at hget
  have hmem : (hourStamp 1711846800, some (hourlyPrice 2 : ℝ)) ∈
      inYear (localMidnightMs YEAR) (localMidnightMs (YEAR + 1)) (blocks2024 ++ []) :=
    (says_of_published published2024).entries.mem_iff.mpr (mem_stamped.mpr ⟨2162, _, hprice, by rw [hstamp]⟩)
  rw [inYear, List.mem_filter, List.mem_flatMap, List.append_nil] at hmem
  have hsame : some (hourlyPrice 2 : ℝ) = some v := (hvalue _).mp (by rw [reduceOption_some]; exact hmem.1)
  rw [← Option.some_inj.mp hsame] at hv
  exact ⟨_, y, hcompiled, hy, hv⟩

/-- If the market's weeks are in their blocks, the directory compiles, in whatever order it is
listed and whatever other years' blocks are in it; and the year then loaded has the market's
days one for one, each with its own hours, 23 or 25 where the clocks are set, and their prices
to half a cent. -/
theorem weeks_compile (display : ℝ → String) (parse : List Char → Option ℝ) (rawDir : String)
    {files : List (List Char × List Char)} {read : List (Option (PriceBlock ℝ))}
    {weeks : List (List (List ℝ))} {blocks others : List (PriceBlock ℝ)}
    (hread : files.mapM (readBlock parse) = .ok read)
    (hperm : read.reduceOption.Perm (blocks ++ others)) (h : Published weeks blocks others) :
    ∃ bytes y, compilePrices display parse rawDir files = some (.ok bytes) ∧
      PriceYear.bundled bytes (fnvFold fnvOffset bytes) = some y ∧ y.days = weeks.flatten.length ∧
        ∀ d day, weeks.flatten[d]? = some day → ∃ a, y.dayHours d = some (a, a + day.length) ∧
          sliceAt y.eurMwh (a, a + day.length) = some (day.map price) ∧
            ∀ v ∈ day, |price v - v| ≤ 1 / 200 := by
  have hsaid := says_perm hperm.symm (says_of_published h)
  obtain ⟨y, hy, -, -, hprices, htable⟩ := says_bundled hsaid
  refine ⟨_, y, compile_published display rawDir hread hperm h, hy, ?_,
    fun d day hday => ⟨hoursIn (weeks.flatten.take d), ?_, ?_, fun v hv => ?_⟩⟩
  · rw [PriceYear.days, htable, tableOf, List.length_append, length_firstHours]
    rfl
  · obtain ⟨hd, -⟩ := List.getElem?_eq_some_iff.mp hday
    have hfirst := table_get 0 (Nat.le_of_lt hd)
    have hsecond := table_get 0 (Nat.succ_le_of_lt hd)
    simp only [Nat.zero_add] at hfirst hsecond
    rw [PriceYear.dayHours, htable, tableOf, hfirst, hsecond, (day_piece hday).1]
  · obtain ⟨-, hpiece, hle⟩ := day_piece hday
    rw [sliceAt, hprices, if_pos ⟨Nat.le_add_right _ _, by rw [List.length_map]; exact hle⟩,
      Nat.add_sub_cancel_left, ← List.map_drop, ← List.map_take, hpiece]
  · exact price_close (h.within v (List.mem_flatten.mpr ⟨day, List.mem_of_getElem? hday, hv⟩))

/-- The weeks of 2024 as text: 366 days, and the ninety-first has twenty-three hours. -/
theorem weeks_compile_spring : ∃ (bytes : List UInt8) (y : PriceYear ℝ),
    compilePrices (fun _ => "") readEuros "prices" (blocks2024.map chartFile) = some (.ok bytes) ∧
      PriceYear.bundled bytes (fnvFold fnvOffset bytes) = some y ∧ y.days = 366 ∧
        ∃ a, y.dayHours 90 = some (a, a + 23) ∧ sliceAt y.eurMwh (a, a + 23) = some ((climbing 23).map price) := by
  obtain ⟨bytes, y, hbytes, hy, hdays, hslices⟩ :=
    weeks_compile (fun _ => "") readEuros "prices" read2024 blocks2024_read published2024
  obtain ⟨a, hhours, hslice, -⟩ := hslices 90 _ weeks2024_spring.1
  rw [climbing_length] at hhours hslice
  exact ⟨bytes, y, hbytes, hy, hdays.trans weeks2024_days, a, hhours, hslice⟩

end BessMarket
