import BessEmulator.Taps
import Mathlib.Data.List.DropRight

/-!
# What a lying point reads

The documented composition, frozen, then scaled, then NaN, against the fold
in schedule order. A freeze hides whatever stands before it in the schedule.
-/
namespace BessLying

open Bess

section

variable {F : Type} [Scalar F]

/-- What a freeze that has captured holds for a point. -/
def captured (index : Nat) (w : Window F) : Option F :=
  if w.kind = .freeze then w.frozen.map fun frozen => frozen.getD index 0 else none

/-- The frozen value, the last freeze's where there are several; the truth without one. -/
def held (index : Nat) (ws : List (Window F)) (truth : F) : F :=
  (ws.filterMap (captured index)).getLastD truth

def scaled (ws : List (Window F)) (x : F) : F :=
  ws.foldl (fun x w => if w.kind = .unitError then x * powTen w.exponent else x) x

def anyNan (ws : List (Window F)) : Bool := ws.any fun w => decide (w.kind = .nanBurst)

/-- Frozen where a freeze has captured, then scaled by every unit error, then
NaN if a burst is open: the order the windows were scheduled in plays no part. -/
def documented (t : Taps F) (surface : Surface) (index tick : Nat) (truth : F) : Reading F :=
  let ws := t.onPoint surface index tick
  if anyNan ws then none else some (scaled ws (held index ws truth))

/-- The windows scheduled after the last captured freeze; all of them without one. -/
def after (index : Nat) (ws : List (Window F)) : List (Window F) :=
  ws.rtakeWhile fun w => (captured index w).isNone

/-- The windows scheduled before the last captured freeze; none without one. -/
def shadowed (index : Nat) (ws : List (Window F)) : List (Window F) :=
  (ws.rdropWhile fun w => (captured index w).isNone).dropLast

variable {index : Nat} {w : Window F} {ws : List (Window F)} {truth : F}

theorem held_concat : held index (ws ++ [w]) truth = (captured index w).getD (held index ws truth) := by
  simp only [held]
  rw [List.filterMap_append]
  cases hc : captured index w with
  | none => simp [hc]
  | some x => simp [hc]

theorem after_concat : after index (ws ++ [w]) =
    if (captured index w).isNone then after index ws ++ [w] else [] := by
  simp only [after]
  rw [List.rtakeWhile_concat]

theorem shadowed_concat : shadowed index (ws ++ [w]) =
    if (captured index w).isNone then shadowed index ws else ws := by
  rw [shadowed]
  rw [List.rdropWhile_concat]
  split
  · rfl
  · rw [List.dropLast_concat]

theorem scaled_concat (x : F) : scaled (ws ++ [w]) x =
    if w.kind = .unitError then scaled ws x * powTen w.exponent else scaled ws x := by
  rw [scaled]
  rw [List.foldl_append]
  rfl

omit [Scalar F] in
theorem anyNan_concat : anyNan (ws ++ [w]) = (anyNan ws || decide (w.kind = .nanBurst)) := by
  simp [anyNan]

/-- The fold reads the last captured freeze and what was scheduled after it. -/
theorem fold_after (ws : List (Window F)) :
    ws.foldl (Taps.corrupt index) (some truth) =
      if anyNan (after index ws) then none else some (scaled (after index ws) (held index ws truth)) := by
  induction ws using List.reverseRecOn with
  | nil => rfl
  | append_singleton ws w ih =>
    rw [List.foldl_append, List.foldl_cons, List.foldl_nil, ih, after_concat, held_concat]
    cases hk : w.kind with
    | freeze =>
      cases hf : w.frozen with
      | none =>
        have hc : captured index w = none := by simp [captured, hk, hf]
        simp [Taps.corrupt, hk, hf, hc, anyNan_concat, scaled_concat]
      | some frozen =>
        have hc : captured index w = some (frozen.getD index 0) := by simp [captured, hk, hf]
        simp [Taps.corrupt, hk, hf, hc, anyNan, scaled]
    | unitError =>
      have hc : captured index w = none := by simp [captured, hk]
      cases hn : anyNan (after index ws) with
      | true => simp [Taps.corrupt, hk, hc, hn, anyNan_concat]
      | false => simp [Taps.corrupt, hk, hc, hn, anyNan_concat, scaled_concat]
    | nanBurst =>
      have hc : captured index w = none := by simp [captured, hk]
      simp [Taps.corrupt, hk, hc, anyNan_concat]
    | dropout =>
      have hc : captured index w = none := by simp [captured, hk]
      simp [Taps.corrupt, hk, hc, anyNan_concat, scaled_concat]
    | chatter =>
      have hc : captured index w = none := by simp [captured, hk]
      simp [Taps.corrupt, hk, hc, anyNan_concat, scaled_concat]
    | timestampDrift =>
      have hc : captured index w = none := by simp [captured, hk]
      simp [Taps.corrupt, hk, hc, anyNan_concat, scaled_concat]
    | backfillBurst =>
      have hc : captured index w = none := by simp [captured, hk]
      simp [Taps.corrupt, hk, hc, anyNan_concat, scaled_concat]

/-- A NaN burst is shadowed, or it is after the last captured freeze. -/
theorem anyNan_split (index : Nat) (ws : List (Window F)) :
    anyNan ws = (anyNan (shadowed index ws) || anyNan (after index ws)) := by
  induction ws using List.reverseRecOn with
  | nil => rfl
  | append_singleton ws w ih =>
    rw [anyNan_concat, shadowed_concat, after_concat]
    cases hc : captured index w with
    | none =>
      simp only [Option.isNone_none, if_true]
      rw [ih, anyNan_concat, Bool.or_assoc]
    | some x =>
      have hk : w.kind = .freeze := by
        by_contra hne
        rw [captured, if_neg hne] at hc
        cases hc
      simp [hk, anyNan]

/-- Powers of ten of the unit errors among some windows, added up. -/
def exponents (ws : List (Window F)) : Int :=
  (ws.map fun w => if w.kind = .unitError then w.exponent else 0).sum

theorem exponents_split (index : Nat) (ws : List (Window F)) :
    exponents ws = exponents (shadowed index ws) + exponents (after index ws) := by
  induction ws using List.reverseRecOn with
  | nil => rfl
  | append_singleton ws w ih =>
    have hconcat : ∀ vs : List (Window F), exponents (vs ++ [w]) =
        exponents vs + if w.kind = .unitError then w.exponent else 0 := by
      intro vs
      simp [exponents]
    rw [hconcat, shadowed_concat, after_concat]
    cases hc : captured index w with
    | none =>
      simp only [Option.isNone_none, if_true]
      rw [ih, hconcat]
      omega
    | some x =>
      have hk : w.kind = .freeze := by
        by_contra hne
        rw [captured, if_neg hne] at hc
        cases hc
      simp [hk, exponents]

end

theorem powTen_real (n : Int) : (powTen n : ℝ) = 10 ^ n := by
  cases n with
  | ofNat n =>
    change ((10 ^ n : Nat) : ℝ) = _
    simp
  | negSucc n =>
    change 1 / ((10 ^ (n + 1) : Nat) : ℝ) = _
    rw [zpow_negSucc, one_div]
    simp

theorem scaled_real (ws : List (Window ℝ)) (x : ℝ) : scaled ws x = x * 10 ^ exponents ws := by
  induction ws using List.reverseRecOn with
  | nil => simp [scaled, exponents]
  | append_singleton ws w ih =>
    have hconcat : exponents (ws ++ [w]) =
        exponents ws + if w.kind = .unitError then w.exponent else 0 := by
      simp [exponents]
    rw [scaled_concat, ih, hconcat]
    split
    · rw [powTen_real, zpow_add₀ (by norm_num), mul_assoc]
    · rw [add_zero]

/-- Scaling by a power of ten leaves zero alone, and by the zeroth everything. -/
theorem scale_fixed (x : ℝ) (a b : Int) : x * 10 ^ b = x * 10 ^ (a + b) ↔ x = 0 ∨ a = 0 := by
  have hb : (10 : ℝ) ^ b ≠ 0 := by positivity
  have hone : (10 : ℝ) ^ a = 1 ↔ a = 0 := by
    constructor
    · intro h
      exact zpow_right_injective₀ (by norm_num) (by norm_num) (h.trans (zpow_zero (10 : ℝ)).symm)
    · rintro rfl
      exact zpow_zero _
  rw [zpow_add₀ (by norm_num), mul_comm ((10 : ℝ) ^ a), ← mul_assoc]
  constructor
  · intro h
    by_cases hx : x = 0
    · exact Or.inl hx
    · right
      have hne : x * (10 : ℝ) ^ b ≠ 0 := mul_ne_zero hx hb
      exact hone.mp (mul_left_cancel₀ hne (by rw [← h, mul_one]))
  · rintro (rfl | rfl)
    · simp
    · simp

/-- A point reads as documented exactly when no open window scheduled before
the last captured freeze would still have shown: a burst after the freeze
covers everything; otherwise no burst may stand before it, and the unit errors
before it must cancel, or find a zero to scale. -/
theorem value_as_documented (t : Taps ℝ) (surface : Surface) (index tick : Nat) (truth : ℝ) :
    t.value surface index tick truth = documented t surface index tick truth ↔
      anyNan (after index (t.onPoint surface index tick)) = true ∨
        (anyNan (shadowed index (t.onPoint surface index tick)) = false ∧
          (held index (t.onPoint surface index tick) truth = 0 ∨
            exponents (shadowed index (t.onPoint surface index tick)) = 0)) := by
  set ws := t.onPoint surface index tick with hws
  have hval : t.value surface index tick truth =
      if anyNan (after index ws) then none
      else some (scaled (after index ws) (held index ws truth)) := fold_after ws
  have hdoc : documented t surface index tick truth =
      if anyNan ws then none else some (scaled ws (held index ws truth)) := rfl
  rw [hval, hdoc, anyNan_split index ws]
  cases ha : anyNan (after index ws) with
  | true => simp
  | false =>
    cases hs : anyNan (shadowed index ws) with
    | true => simp
    | false =>
      simp only [Bool.or_false, Bool.false_eq_true, if_false, Option.some.injEq, false_or, true_and]
      rw [scaled_real, scaled_real, exponents_split index ws]
      exact scale_fixed _ _ _

/-- The site's active power, as the map has it. -/
def poiActivePower : Point ℝ where
  name := "site.poi.active_power_w"
  unit := "W"
  pointClass := .fast
  encoding := .i32
  scale := 1
  addr := 0
  space := .input
  extract := fun s => s.substation.poiActivePowerW

/-- A unit error from the start, then a freeze of everything. -/
noncomputable def scaleThenFreeze : Resolved ℝ where
  id := ⟨"scale-then-freeze", 1⟩
  params := ⟨42, 0, 1⟩
  ticks := none
  schedule :=
    [⟨0, 0, 0, .data ⟨.modbus, .unitError, none, some .all, some 3, none, none⟩⟩,
      ⟨1, 5, 5, .data ⟨.modbus, .freeze, some 600, some .all, none, none, none⟩⟩]

/-- The tap once the freeze has found 40 W on the point. -/
noncomputable def frozenAtForty : Taps ℝ := (Taps.new scaleThenFreeze [poiActivePower]).open 1 [40]

/-- The freeze, scheduled after the open unit error, erases it: the point
reads the frozen 40, not the 40000 its scale would make of it. -/
theorem freeze_erases_unit_error :
    frozenAtForty.value .modbus 0 6 12 ≠ documented frozenAtForty .modbus 0 6 12 := by
  have hon : frozenAtForty.onPoint .modbus 0 6 =
      [⟨0, .modbus, .unitError, 0, none, [true], 3, 0.0, 0.0, none⟩,
        ⟨1, .modbus, .freeze, 5, some 605, [true], 0, 0.0, 0.0, some [40]⟩] := by
    simp [frozenAtForty, Taps.onPoint, Taps.openAt, Taps.open, Taps.new, scaleThenFreeze,
      Scheduled.window, windowOf, Window.capture, Window.covers, selects, Selector.names,
      DataFaultKind.reaches, poiActivePower, TICK_SECONDS, U64.add, U64.SIZE]
  have hread : frozenAtForty.value .modbus 0 6 12 = some 40 := by
    rw [Taps.value, hon]
    rfl
  have hdoc : documented frozenAtForty .modbus 0 6 12 = some (40 * powTen 3) := by
    rw [documented]
    rw [hon]
    rfl
  rw [hread, hdoc, powTen_real]
  norm_num

end BessLying
