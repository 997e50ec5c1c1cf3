import BessEmulator.PriceLookup

/-!
# The plan that is executed

A slot that both rankings pick charges, so it is one discharge slot fewer. That
happens exactly when some price of the day has few slots below it and few
above it: the two rankings both take the first slots of a tie.
-/
namespace BessExecuted

open Bess BessPlan BessPrices Ranking Finset

/-- The hours from `a` up to `b` in which the planner asks for charging. -/
def chargingHours {P : Type} (ems : DayAheadEms ℝ P) (a b : Nat) : Set Nat :=
  {idx | a ≤ idx ∧ idx < b ∧ ∃ w, ems.targetAt idx = some w ∧ w < 0}

def dischargingHours {P : Type} (ems : DayAheadEms ℝ P) (a b : Nat) : Set Nat :=
  {idx | a ≤ idx ∧ idx < b ∧ ∃ w, ems.targetAt idx = some w ∧ 0 < w}

/-- So many slots of the day charge and so many discharge. -/
def Executes {P : Type} (ems : DayAheadEms ℝ P) (a b chargeHours dischargeHours : Nat) : Prop :=
  (chargingHours ems a b).ncard = chargeHours ∧ (dischargingHours ems a b).ncard = dischargeHours

variable {P : Type} [LinearOrder P]

/-- A price that has too few below it and too few above it to be left out of
either end. -/
def Contested (day : List P) (chargeHours dischargeHours : Nat) : Prop :=
  ∃ p ∈ day, day.countP (fun q => q < p) < chargeHours ∧
    day.countP (fun q => p < q) < dischargeHours

/-- Hours of a day are its slots. -/
theorem ncard_hours {n a b : Nat} (hn : n = b - a) (q : Nat → Prop) (slots : Finset (Fin n))
    (h : ∀ i : Fin n, q (a + i) ↔ i ∈ slots) :
    ({idx | a ≤ idx ∧ idx < b ∧ q idx} : Set Nat).ncard = slots.card := by
  have hset : ({idx | a ≤ idx ∧ idx < b ∧ q idx} : Set Nat) =
      ↑(slots.image fun i => a + i.val) := by
    ext idx
    simp only [Set.mem_ofPred_eq, coe_image, Set.mem_image, SetLike.mem_coe]
    constructor
    · rintro ⟨hlow, hhigh, hq⟩
      refine ⟨⟨idx - a, by omega⟩, (h _).mp ?_, Nat.add_sub_cancel' hlow⟩
      rwa [Nat.add_sub_cancel' hlow]
    · rintro ⟨i, hi, rfl⟩
      exact ⟨by omega, by omega, (h i).mpr hi⟩
  have hinj : Function.Injective fun i : Fin n => a + i.val := fun i j hij => by
    simp only [Nat.add_left_cancel_iff] at hij
    exact Fin.ext hij
  rw [hset, Set.ncard_coe_finset, card_image_of_injective _ hinj]

section

variable {y : PriceYear P} {ems : DayAheadEms ℝ P} {powerW : ℝ} {c e : Nat}
  (hems : DayAheadEms.fromPriceYear y powerW c e = some ems) (hpower : 0 < powerW) {d a b : Nat}
  (hab : y.dayHours d = some (a, b)) {day : List P} (hday : sliceAt y.eurMwh (a, b) = some day)

include hems hpower hab hday

/-- A slot charges if it is among the cheapest, else discharges if it is among
the dearest. -/
theorem asked (i : Fin day.length) :
    ((∃ w, ems.targetAt (a + i) = some w ∧ w < 0) ↔ i ∈ charging day c) ∧
      ((∃ w, ems.targetAt (a + i) = some w ∧ 0 < w) ↔
        i ∈ discharging day e \ charging day c) := by
  obtain ⟨-, -, hlow, hhigh, hle⟩ := dayHours_some y hab
  obtain ⟨day', plan, hslice, hlength, hrank, -⟩ := planDay_some y hab c e
  obtain rfl : day = day' := Option.some.inj (hday.symm.trans hslice)
  obtain ⟨day', plan', hslice', hrank', htarget⟩ :=
    targetAt_eq hems hab (by omega : a ≤ a + i.val) (by omega)
  obtain rfl : day = day' := Option.some.inj (hslice.symm.trans hslice')
  obtain rfl : plan = plan' := Option.some.inj (hrank.symm.trans hrank')
  rw [Nat.add_sub_cancel_left] at htarget
  rw [htarget]
  simp only [charges_iff hrank i, discharges_iff hrank i, Option.some.injEq, exists_eq_left',
    mem_sdiff]
  by_cases hcharge : i ∈ charging day c
  · rw [if_pos hcharge]
    simp only [hcharge, not_true_eq_false, and_false, iff_true, iff_false, not_lt]
    exact ⟨by linarith, by linarith⟩
  · rw [if_neg hcharge]
    by_cases hdischarge : i ∈ discharging day e
    · rw [if_pos hdischarge]
      simp only [hcharge, hdischarge, not_false_eq_true, and_self, iff_false, iff_true, not_lt]
      exact ⟨hpower.le, hpower⟩
    · rw [if_neg hdischarge]
      simp only [hcharge, hdischarge, lt_irrefl, false_and, and_self]

theorem ncard_asked : (chargingHours ems a b).ncard = #(charging day c) ∧
    (dischargingHours ems a b).ncard = #(discharging day e \ charging day c) := by
  obtain ⟨day', -, hslice, hlength, -⟩ := planDay_some y hab c e
  obtain rfl : day = day' := Option.some.inj (hday.symm.trans hslice)
  exact ⟨ncard_hours hlength _ _ fun i => (asked hems hpower hab hday i).1,
    ncard_hours hlength _ _ fun i => (asked hems hpower hab hday i).2⟩

end

omit [LinearOrder P] in
theorem countP_get (day : List P) (q : P → Prop) [DecidablePred q] :
    day.countP (fun p => q p) = #{i : Fin day.length | q (day.get i)} := by
  have hfin := countP_eq_card (List.nodup_finRange day.length) List.mem_finRange
    fun i => q (day.get i)
  rw [← hfin]
  nth_rewrite 1 [← List.map_get_finRange day]
  rw [List.countP_map]
  rfl

theorem contested_iff (day : List P) (c e : Nat) :
    Contested day c e ↔ ∃ i, below day.get i < c ∧ below (falling day.get) i < e := by
  rw [Contested]
  constructor
  · rintro ⟨p, hp, hbelow, habove⟩
    obtain ⟨i, rfl⟩ := List.mem_iff_get.mp hp
    rw [countP_get day fun q => q < day.get i] at hbelow
    rw [countP_get day fun q => day.get i < q] at habove
    exact ⟨i, hbelow, habove⟩
  · rintro ⟨i, hbelow, habove⟩
    refine ⟨day.get i, List.get_mem day i, ?_, ?_⟩
    · rw [countP_get day fun q => q < day.get i]
      exact hbelow
    · rw [countP_get day fun q => day.get i < q]
      exact habove

omit [LinearOrder P] in
/-- An instant asks for what its hour does. -/
theorem siteTargetW_eq {F : Type} [Scalar F] {ems : DayAheadEms F P} {t : Int} {idx : Nat}
    (h : ems.prices.indexAt t = some idx) : ems.siteTargetW t = ems.targetAt idx := by
  rw [DayAheadEms.siteTargetW, h, Option.bind_some]

/-- The plan is executed unless a price is contested. On a day of enough slots the charge slots
are as many as planned; the discharge slots are exactly when no price of the day is contested. -/
theorem plan_executed {y : PriceYear P} {ems : DayAheadEms ℝ P} {powerW : ℝ}
    {chargeHours dischargeHours : Nat}
    (hems : DayAheadEms.fromPriceYear y powerW chargeHours dischargeHours = some ems)
    (hpower : 0 < powerW) {d a b : Nat} (hab : y.dayHours d = some (a, b))
    (hslots : chargeHours + dischargeHours ≤ b - a) :
    ∃ day, sliceAt y.eurMwh (a, b) = some day ∧
      (∀ t idx, ems.prices.indexAt t = some idx → ems.siteTargetW t = ems.targetAt idx) ∧
      (Executes ems a b chargeHours dischargeHours ↔ ¬Contested day chargeHours dischargeHours) := by
  obtain ⟨day, -, hday, hlength, -⟩ := planDay_some y hab chargeHours dischargeHours
  refine ⟨day, hday, fun t idx => siteTargetW_eq, ?_⟩
  obtain ⟨hcharge, hdischarge⟩ := ncard_asked hems hpower hab hday
  have hcard : Fintype.card (Fin day.length) = b - a := by rw [Fintype.card_fin, hlength]
  have hall : #(charging day chargeHours) = chargeHours := by
    rw [card_first, hcard]
    omega
  have hleft := left_iff day.get chargeHours dischargeHours (by omega)
  rw [← not_exists, ← contested_iff] at hleft
  rw [Executes, hcharge, hdischarge, hall, eq_self_iff_true, true_and]
  exact hleft

/-- A day on which prices climb: three hours charge and two discharge. -/
theorem plan_executed_climbing : ∃ (y : PriceYear Nat) (ems : DayAheadEms ℝ Nat),
    DayAheadEms.fromPriceYear y (1.0e6 : ℝ) 3 2 = some ems ∧ y.dayHours 0 = some (0, 23) ∧
      sliceAt y.eurMwh (0, 23) = some (List.range 23) ∧ Executes ems 0 23 3 2 := by
  obtain ⟨ems, hems⟩ :=
    fromPriceYear_some ⟨2024, 0, List.range 23, [0, 23], by decide⟩ (1.0e6 : ℝ) 3 2
  obtain ⟨day, hday, -, hexecutes⟩ :=
    plan_executed (d := 0) hems (by norm_num) (show _ = some (0, 23) from rfl) (by decide)
  obtain rfl : List.range 23 = day := Option.some.inj hday
  have hcalm : ¬Contested (List.range 23) 3 2 := by
    rw [Contested]
    decide
  exact ⟨_, ems, hems, rfl, rfl, hexecutes.mpr hcalm⟩

/-- A year of one day of 23 hours at one price. -/
def flatYear : PriceYear Nat := ⟨2024, 0, List.replicate 23 7, [0, 23], by decide⟩

/-- Three charge slots and, among them, the two discharge slots. -/
def flatPlan : DayPlan := ⟨7#32, 3#32⟩

def flatEms (powerW : ℝ) : DayAheadEms ℝ Nat := ⟨powerW, flatYear, [flatPlan]⟩

theorem flatEms_planned (powerW : ℝ) :
    DayAheadEms.fromPriceYear flatYear powerW 3 2 = some (flatEms powerW) := by
  have hplans : (List.range flatYear.days).mapM (DayAheadEms.planDay flatYear 3 2) =
      some [flatPlan] := by
    decide
  rw [DayAheadEms.fromPriceYear, hplans]
  rfl

/-- The reference site's two discharge hours of a flat day are charge hours
too: nothing is discharged. -/
theorem flat_day_charges_only :
    PriceYear.fromParts 2024 0 (List.replicate 23 7) [0, 23] = .ok flatYear ∧
    DayAheadEms.fromPriceYear flatYear (1.0e6 : ℝ) 3 2 = some (flatEms 1.0e6) ∧
    flatYear.dayHours 0 = some (0, 23) ∧ 3 + 2 ≤ 23 ∧
    (chargingHours (flatEms 1.0e6) 0 23).ncard = 3 ∧
    (dischargingHours (flatEms 1.0e6) 0 23).ncard = 0 ∧ ¬Executes (flatEms 1.0e6) 0 23 3 2 := by
  have hab : flatYear.dayHours 0 = some (0, 23) := rfl
  have hday : sliceAt flatYear.eurMwh (0, 23) = some (List.replicate 23 7) := rfl
  obtain ⟨hcharge, hdischarge⟩ := ncard_asked (flatEms_planned 1.0e6) (by norm_num) hab hday
  have hthree : #(charging (List.replicate 23 7) 3) = 3 := by rw [card_first]; rfl
  have hnone : #(discharging (List.replicate 23 7) 2 \ charging (List.replicate 23 7) 3) = 0 := by
    decide
  rw [hthree] at hcharge
  rw [hnone] at hdischarge
  refine ⟨rfl, flatEms_planned 1.0e6, hab, by decide, hcharge, hdischarge, ?_⟩
  rintro ⟨-, htwo⟩
  rw [hdischarge] at htwo
  cases htwo

end BessExecuted
