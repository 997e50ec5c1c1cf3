import BessEmulator.DaySlots
import BessEmulator.Prices
import BessEmulator.ReferenceHours

/-!
# The price lookup

The day table of an accepted year climbs from 0 to the number of hours in days
of 23 to 25. A binary search then finds the one day an hour lies in, and
everything read at that day and slot is there.
-/
namespace BessPrices

open Bess BessPlan

/-- A day of 23 to 25 hours. -/
def DayStep (a b : Nat) : Prop := a + 23 ≤ b ∧ b ≤ a + 25

/-- What a day table has to be. -/
structure DayTable (starts : List Nat) (hours : Nat) : Prop where
  first : starts.head? = some 0
  last : starts.getLast? = some hours
  steps : starts.IsChain DayStep

theorem checkDayLengths_iff (d : Nat) (starts : List Nat) :
    checkDayLengths d starts = .ok () ↔ starts.IsChain DayStep := by
  induction starts generalizing d with
  | nil => simp [checkDayLengths]
  | cons a rest ih =>
    cases rest with
    | nil => simp [checkDayLengths]
    | cons b rest =>
      have hlength : (23 ≤ b - a ∧ b - a ≤ 25) ↔ DayStep a b := by
        rw [DayStep]
        omega
      rw [checkDayLengths, List.isChain_cons_cons, ← ih (d + 1), ← hlength]
      split
      · rename_i hday
        rw [and_iff_right hday]
      · rename_i hday
        constructor
        · intro h
          cases h
        · intro h
          exact absurd h.1 hday

/-- What the check accepts is a day table, and all of them. -/
theorem checkDayStarts_iff (starts : List Nat) (hours : Nat) :
    checkDayStarts starts hours = .ok () ↔ DayTable starts hours := by
  rw [checkDayStarts]
  split
  · rename_i first last hfirst hlast
    split
    · rename_i hspan
      simp only [reduceCtorEq, false_iff]
      rintro ⟨hzero, hend, -⟩
      rw [hfirst, Option.some.injEq] at hzero
      rw [hlast, Option.some.injEq] at hend
      omega
    · rename_i hspan
      rw [checkDayLengths_iff]
      constructor
      · intro hsteps
        exact ⟨by rw [hfirst]; congr 1; omega, by rw [hlast]; congr 1; omega, hsteps⟩
      · intro h
        exact h.steps
  · rename_i hnone
    simp only [reduceCtorEq, false_iff]
    rintro ⟨hzero, hend, -⟩
    exact hnone _ _ hzero hend

theorem fromParts_ok {P : Type} {year : Nat} {startOffsetH : Int} {eurMwh : List P}
    {dayStarts : List Nat} {y : PriceYear P}
    (h : PriceYear.fromParts year startOffsetH eurMwh dayStarts = .ok y) :
    y.year = year ∧ y.startOffsetH = startOffsetH ∧ y.eurMwh = eurMwh ∧ y.dayStarts = dayStarts := by
  rw [PriceYear.fromParts] at h
  split at h
  · cases h
    exact ⟨rfl, rfl, rfl, rfl⟩
  · cases h

variable {P : Type} (y : PriceYear P)

theorem dayTable : DayTable y.dayStarts y.len := (checkDayStarts_iff _ _).mp y.described

theorem starts_increase : y.dayStarts.Pairwise (· < ·) := by
  refine List.isChain_iff_pairwise.mp ((dayTable y).steps.imp fun a b h => ?_)
  have := h.1
  omega

theorem starts_partitioned (idx : Nat) : Bisect.Partitioned (fun s => s ≤ idx) y.dayStarts := by
  refine (starts_increase y).imp fun hlt hle => ?_
  rw [decide_eq_true_eq] at hle ⊢
  omega

/-- No start is past the end. -/
theorem start_le {i a : Nat} (h : y.dayStarts[i]? = some a) : a ≤ y.len := by
  obtain ⟨hi, ha⟩ := List.getElem?_eq_some_iff.mp h
  have hlast := (dayTable y).last
  rw [List.getLast?_eq_getElem?] at hlast
  obtain ⟨hj, hlen⟩ := List.getElem?_eq_some_iff.mp hlast
  by_cases heq : i = y.dayStarts.length - 1
  · subst heq
    omega
  · have := List.pairwise_iff_getElem.mp (starts_increase y) i (y.dayStarts.length - 1) hi hj
      (by omega)
    omega

/-- A day's bounds, and how long it is. -/
theorem dayHours_some {d a b : Nat} (h : y.dayHours d = some (a, b)) :
    y.dayStarts[d]? = some a ∧ y.dayStarts[d + 1]? = some b ∧ a + 23 ≤ b ∧ b ≤ a + 25 ∧
      b ≤ y.len := by
  rw [PriceYear.dayHours] at h
  split at h
  · rename_i first second hfirst hsecond
    cases h
    obtain ⟨hd, ha⟩ := List.getElem?_eq_some_iff.mp hfirst
    obtain ⟨hd', hb⟩ := List.getElem?_eq_some_iff.mp hsecond
    have hstep := List.isChain_iff_getElem.mp (dayTable y).steps d hd'
    rw [ha, hb] at hstep
    exact ⟨hfirst, hsecond, hstep.1, hstep.2, start_le y hsecond⟩
  · cases h

theorem exists_dayHours {d : Nat} (h : d < y.days) : ∃ a b, y.dayHours d = some (a, b) := by
  rw [PriceYear.days] at h
  refine ⟨y.dayStarts.get ⟨d, by omega⟩, y.dayStarts.get ⟨d + 1, by omega⟩, ?_⟩
  rw [PriceYear.dayHours, List.getElem?_eq_getElem (by omega), List.getElem?_eq_getElem (by omega)]
  rfl

theorem dayHours_lt {d a b : Nat} (h : y.dayHours d = some (a, b)) : d < y.days := by
  obtain ⟨-, hsecond, -⟩ := dayHours_some y h
  obtain ⟨hlt, -⟩ := List.getElem?_eq_some_iff.mp hsecond
  rw [PriceYear.days]
  omega

/-- The search passes exactly the starts up to the hour. -/
theorem start_le_iff (idx : Nat) {i a : Nat} (h : y.dayStarts[i]? = some a) :
    a ≤ idx ↔ i < Bisect.partitionPoint (fun s => s ≤ idx) y.dayStarts := by
  have hpart := starts_partitioned y idx
  have hholds := Bisect.holdsAt_takeWhile hpart i
  rw [Bisect.holdsAt, h, Option.map_some, Option.getD_some, decide_eq_decide] at hholds
  rw [Bisect.partitionPoint_eq hpart]
  exact hholds

/-- The search stops inside the table. -/
theorem partitionPoint_bounds {idx : Nat} (h : idx < y.len) :
    0 < Bisect.partitionPoint (fun s => s ≤ idx) y.dayStarts ∧
      Bisect.partitionPoint (fun s => s ≤ idx) y.dayStarts ≤ y.days := by
  have hfirst := (dayTable y).first
  have hlast := (dayTable y).last
  rw [List.head?_eq_getElem?] at hfirst
  rw [List.getLast?_eq_getElem?] at hlast
  have hlow := start_le_iff y idx hfirst
  have hhigh := start_le_iff y idx hlast
  rw [PriceYear.days]
  omega

theorem dayOf_eq {idx : Nat} (h : idx < y.len) :
    y.dayOf idx = some (Bisect.partitionPoint (fun s => s ≤ idx) y.dayStarts - 1) := by
  have hpos : 1 ≤ Bisect.partitionPoint (fun s => s ≤ idx) y.dayStarts :=
    (partitionPoint_bounds y h).1
  rw [PriceYear.dayOf, if_pos h, checkedSub, if_pos hpos]

/-- `day_of` and `day_hours` are inverse. -/
theorem dayOf_iff {idx : Nat} (h : idx < y.len) (d : Nat) :
    y.dayOf idx = some d ↔ ∃ a b, y.dayHours d = some (a, b) ∧ a ≤ idx ∧ idx < b := by
  obtain ⟨hpos, hle⟩ := partitionPoint_bounds y h
  rw [dayOf_eq y h, Option.some.injEq]
  constructor
  · intro heq
    obtain ⟨a, b, hab⟩ := exists_dayHours y (by omega : d < y.days)
    obtain ⟨ha, hb, -⟩ := dayHours_some y hab
    have hlow := start_le_iff y idx ha
    have hhigh := start_le_iff y idx hb
    exact ⟨a, b, hab, by omega, by omega⟩
  · rintro ⟨a, b, hab, hlow, hhigh⟩
    obtain ⟨ha, hb, -⟩ := dayHours_some y hab
    have hlow' := start_le_iff y idx ha
    have hhigh' := start_le_iff y idx hb
    omega

theorem exists_dayOf {idx : Nat} (h : idx < y.len) :
    ∃ d a b, y.dayOf idx = some d ∧ y.dayHours d = some (a, b) ∧ a ≤ idx ∧ idx < b := by
  obtain ⟨d, hd⟩ : ∃ d, y.dayOf idx = some d := ⟨_, dayOf_eq y h⟩
  obtain ⟨a, b, hab⟩ := (dayOf_iff y h d).mp hd
  exact ⟨d, a, b, hd, hab⟩

/-- The day and slot of an hour of a day. -/
theorem slotOf_eq {d a b idx : Nat} (hab : y.dayHours d = some (a, b)) (ha : a ≤ idx)
    (hb : idx < b) : y.slotOf idx = some (d, idx - a) := by
  obtain ⟨-, -, -, -, hle⟩ := dayHours_some y hab
  have hday := (dayOf_iff y (by omega : idx < y.len) d).mpr ⟨a, b, hab, ha, hb⟩
  rw [PriceYear.slotOf, hday, Option.bind_some, hab, Option.bind_some, checkedSub, if_pos ha]
  rfl

theorem indexAtUtcHour_lt (h : 0 < y.len) (utcHour : Nat) :
    ∃ idx, y.indexAtUtcHour utcHour = some idx ∧ idx < y.len := by
  refine ⟨_, if_neg (by omega), ?_⟩
  have hlen : (0 : Int) < y.len := by exact_mod_cast h
  have hnonneg := Int.emod_nonneg (utcHour + y.startOffsetH) hlen.ne'
  have hlt := Int.emod_lt_of_pos (utcHour + y.startOffsetH) hlen
  omega

section

variable {α β : Type} {f : α → Option β}

theorem mapM_some {xs : List α} (h : ∀ x ∈ xs, ∃ z, f x = some z) : ∃ zs, xs.mapM f = some zs := by
  induction xs with
  | nil => exact ⟨[], rfl⟩
  | cons x xs ih =>
    obtain ⟨z, hz⟩ := h x List.mem_cons_self
    obtain ⟨zs, hzs⟩ := ih fun w hw => h w (List.mem_cons_of_mem x hw)
    exact ⟨z :: zs, by rw [List.mapM_cons, hz, hzs]; rfl⟩

theorem getElem_mapM {xs : List α} {zs : List β} (h : xs.mapM f = some zs) {i : Nat} {x : α}
    (hx : xs[i]? = some x) : ∃ z, zs[i]? = some z ∧ f x = some z := by
  induction xs generalizing zs i with
  | nil => cases hx
  | cons w xs ih =>
    rw [List.mapM_cons] at h
    obtain ⟨z, hz, h⟩ := Option.bind_eq_some_iff.mp h
    obtain ⟨rest, hrest, h⟩ := Option.bind_eq_some_iff.mp h
    cases h
    cases i with
    | zero =>
      cases hx
      exact ⟨z, rfl, hz⟩
    | succ i => exact ih hrest hx

end

variable [LinearOrder P]

/-- The prices of a day are there, and few enough to plan. -/
theorem planDay_some {d a b : Nat} (hab : y.dayHours d = some (a, b)) (c e : Nat) :
    ∃ day plan, sliceAt y.eurMwh (a, b) = some day ∧ day.length = b - a ∧
      DayPlan.rank day c e = some plan ∧ DayAheadEms.planDay y c e d = some plan := by
  obtain ⟨-, -, hlow, hhigh, hle⟩ := dayHours_some y hab
  have hle' : b ≤ y.eurMwh.length := hle
  obtain ⟨day, hday⟩ : ∃ day, day = (y.eurMwh.drop a).take (b - a) := ⟨_, rfl⟩
  have hslice : sliceAt y.eurMwh (a, b) = some day := by
    rw [hday, sliceAt, if_pos ⟨by omega, hle'⟩]
  have hlength : day.length = b - a := by
    rw [hday, List.length_take, List.length_drop]
    omega
  obtain ⟨plan, hplan⟩ := exists_rank (by omega : day.length ≤ 32) c e
  refine ⟨day, plan, hslice, hlength, hplan, ?_⟩
  rw [DayAheadEms.planDay, hab, Option.bind_some, hslice, Option.bind_some, hplan]

theorem fromPriceYear_some {F : Type} (powerW : F) (c e : Nat) :
    ∃ ems, DayAheadEms.fromPriceYear y powerW c e = some ems := by
  have hall : ∀ d ∈ List.range y.days, ∃ plan, DayAheadEms.planDay y c e d = some plan := by
    intro d hd
    obtain ⟨a, b, hab⟩ := exists_dayHours y (List.mem_range.mp hd)
    obtain ⟨-, plan, -, -, -, hplan⟩ := planDay_some y hab c e
    exact ⟨plan, hplan⟩
  obtain ⟨plans, hplans⟩ := mapM_some hall
  exact ⟨⟨powerW, y, plans⟩, by rw [DayAheadEms.fromPriceYear, hplans]; rfl⟩

variable {y}

/-- What a planner is made of. -/
theorem fromPriceYear_eq {F : Type} {powerW : F} {c e : Nat} {ems : DayAheadEms F P}
    (h : DayAheadEms.fromPriceYear y powerW c e = some ems) :
    ems.powerW = powerW ∧ ems.prices = y ∧
      ∀ d, d < y.days → ∃ plan, ems.plans[d]? = some plan ∧
        DayAheadEms.planDay y c e d = some plan := by
  obtain ⟨plans, hplans, heq⟩ := Option.map_eq_some_iff.mp h
  subst heq
  refine ⟨rfl, rfl, fun d hd => getElem_mapM hplans ?_⟩
  rw [List.getElem?_range hd]

omit [LinearOrder P] in
theorem indexAt_lt (h : 0 < y.len) (t : Int) : ∃ idx, y.indexAt t = some idx ∧ idx < y.len :=
  indexAtUtcHour_lt y h (referenceHour t y.year)

/-- What the plan of a planned hour asks for. -/
theorem targetAt_eq {F : Type} [Scalar F] {powerW : F} {c e : Nat} {ems : DayAheadEms F P}
    (h : DayAheadEms.fromPriceYear y powerW c e = some ems) {d a b idx : Nat}
    (hab : y.dayHours d = some (a, b)) (ha : a ≤ idx) (hb : idx < b) :
    ∃ day plan, sliceAt y.eurMwh (a, b) = some day ∧ DayPlan.rank day c e = some plan ∧
      ems.targetAt idx = some (if plan.charges (idx - a) = some true then -powerW
        else if plan.discharges (idx - a) = some true then powerW else 0) := by
  obtain ⟨day, plan, hslice, hlength, hrank, hplan⟩ := planDay_some y hab c e
  obtain ⟨hpower, hprices, hplans⟩ := fromPriceYear_eq h
  obtain ⟨plan', hget, hplan'⟩ := hplans d (dayHours_lt y hab)
  obtain rfl : plan = plan' := Option.some.inj (hplan.symm.trans hplan')
  obtain ⟨-, -, -, hhigh, -⟩ := dayHours_some y hab
  have hslot : idx - a < 32 := by omega
  refine ⟨day, plan, hslice, hrank, ?_⟩
  rw [DayAheadEms.targetAt, hprices, slotOf_eq y hab ha hb]
  simp only [Option.bind_some, hget, charges_eq hrank hslot, discharges_eq hrank hslot, hpower,
    Option.some.injEq, Option.map_some]
  split <;> rfl

theorem siteTargetW_some (hlen : 0 < y.len) {F : Type} [Scalar F] {powerW : F} {c e : Nat}
    {ems : DayAheadEms F P} (h : DayAheadEms.fromPriceYear y powerW c e = some ems) (t : Int) :
    ∃ w, ems.siteTargetW t = some w := by
  obtain ⟨idx, hidx, hlt⟩ := indexAt_lt hlen t
  obtain ⟨d, a, b, -, hab, ha, hb⟩ := exists_dayOf y hlt
  obtain ⟨-, plan, -, -, htarget⟩ := targetAt_eq h hab ha hb
  rw [DayAheadEms.siteTargetW, (fromPriceYear_eq h).2.1, hidx, Option.bind_some, htarget]
  exact ⟨_, rfl⟩

omit [LinearOrder P] in
theorem label_eq {t : Int} {idx d a b : Nat} (hidx : y.indexAt t = some idx)
    (hab : y.dayHours d = some (a, b)) (ha : a ≤ idx) (hb : idx < b) :
    label y t = some (d, (idx - a) * 4 + (t % 3600 / 900).toNat) := by
  have hsecs : 0 ≤ t % 3600 := Int.emod_nonneg t (by decide)
  rw [label, hidx, Option.bind_some, slotOf_eq y hab ha hb]
  simp only [Option.map_some, RevenueMeter.PERIOD_S, Int.tdiv_eq_ediv_of_nonneg hsecs]

/-- Every lookup, by every user of the year, stays in the tables. -/
structure InTables (y : PriceYear P) : Prop where
  index : ∀ t, ∃ idx, y.indexAtUtcHour (referenceHour t y.year) = some idx ∧ idx < y.len
  day : ∀ idx, idx < y.len → ∃ d a b, y.dayOf idx = some d ∧ y.dayHours d = some (a, b) ∧
    a ≤ idx ∧ idx < b ∧ idx - a < b - a ∧ b - a ≤ 25 ∧
    ∀ d' a' b', y.dayHours d' = some (a', b') → a' ≤ idx → idx < b' → d' = d
  hours : ∀ d a b, y.dayHours d = some (a, b) → ∀ idx, a ≤ idx → idx < b → y.dayOf idx = some d
  planner : ∀ {F : Type} [Scalar F] (powerW : F) (c e : Nat),
    ∃ ems, DayAheadEms.fromPriceYear y powerW c e = some ems ∧
      ∀ t s, ems.siteTargetW t = some (ems.emsStrategy.siteTargetW t s)
  period : ∀ t, ∃ d quarter a b, label y t = some (d, quarter) ∧ y.dayHours d = some (a, b) ∧
    quarter < 4 * (b - a)

/-- The price lookup never leaves its tables. -/
theorem accepted_in_tables {year : Nat} {startOffsetH : Int} {eurMwh : List P}
    {dayStarts : List Nat} {y : PriceYear P}
    (haccepted : PriceYear.fromParts year startOffsetH eurMwh dayStarts = .ok y)
    (hhour : 0 < eurMwh.length) : InTables y := by
  have hlen : 0 < y.len := by
    rw [PriceYear.len, (fromParts_ok haccepted).2.2.1]
    exact hhour
  constructor
  · exact indexAt_lt hlen
  · intro idx h
    obtain ⟨d, a, b, hd, hab, ha, hb⟩ := exists_dayOf y h
    obtain ⟨-, -, -, hhigh, -⟩ := dayHours_some y hab
    refine ⟨d, a, b, hd, hab, ha, hb, by omega, by omega, ?_⟩
    intro d' a' b' hab' ha' hb'
    have hd' := (dayOf_iff y h d').mpr ⟨a', b', hab', ha', hb'⟩
    exact Option.some.inj (hd'.symm.trans hd)
  · intro d a b hab idx ha hb
    obtain ⟨-, -, -, -, hle⟩ := dayHours_some y hab
    exact (dayOf_iff y (by omega) d).mpr ⟨a, b, hab, ha, hb⟩
  · intro F _ powerW c e
    obtain ⟨ems, hems⟩ := fromPriceYear_some y powerW c e
    refine ⟨ems, hems, fun t s => ?_⟩
    obtain ⟨w, hw⟩ := siteTargetW_some hlen hems t
    change ems.siteTargetW t = some ((ems.siteTargetW t).getD 0)
    rw [hw, Option.getD_some]
  · intro t
    obtain ⟨idx, hidx, hlt⟩ := indexAt_lt hlen t
    obtain ⟨d, a, b, -, hab, ha, hb⟩ := exists_dayOf y hlt
    refine ⟨d, _, a, b, label_eq hidx hab ha hb, hab, ?_⟩
    have hquarter : (t % 3600 / 900).toNat < 4 := by omega
    omega

/-- Two days, the first a day of 23 hours. -/
theorem accepted_spring : ∃ y : PriceYear Nat,
    PriceYear.fromParts 2024 1 (List.range 47) [0, 23, 47] = .ok y ∧ 0 < (List.range 47).length ∧
      InTables y :=
  ⟨⟨2024, 1, List.range 47, [0, 23, 47], by decide⟩, rfl, by decide,
    accepted_in_tables (rfl : PriceYear.fromParts 2024 1 (List.range 47) [0, 23, 47] = _)
      (by decide)⟩

end BessPrices
