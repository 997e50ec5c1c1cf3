import BessEmulator.GapFill
import BessEmulator.SolarEnergy

/-!
# What the weather artifact holds

The compiler accepts five product files just when every series it reads can be
bridged and stored. What the written bytes decode to is then determined by the
observations: each series rounded where it was observed, and from the line, the
nearest observation or the default in the hours between.
-/
namespace BessCompile

open Bess BessGaps

section

variable {α β : Type}

theorem read_bind_iff {x : Read α} {f : α → Read β} {b : β} :
    (x >>= f).run = some (.ok b) ↔ ∃ a, x.run = some (.ok a) ∧ (f a).run = some (.ok b) := by
  constructor
  · exact BessSolar.read_bind
  · rintro ⟨a, hx, hf⟩
    rw [ExceptT.run_bind, hx]
    exact hf

theorem run_pure_iff {a b : α} : (pure a : Read α).run = some (.ok b) ↔ a = b := by
  constructor
  · intro h
    cases h
    rfl
  · rintro rfl
    rfl

theorem run_some_iff {x : Except String α} {a : α} :
    (ExceptT.mk (some x) : Read α).run = some (.ok a) ↔ x = .ok a := Option.some_inj

theorem run_ok_iff {x : Option α} {a : α} :
    (ExceptT.mk (x.map .ok) : Read α).run = some (.ok a) ↔ x = some a := by
  cases x with
  | none =>
    constructor
    · intro h
      cases h
    · intro h
      cases h
  | some b =>
    constructor
    · intro h
      cases h
      rfl
    · intro h
      cases h
      rfl

/-- What `mapM` accepts, it accepts one by one. -/
theorem mapM_accepts {f : α → Except String β} {xs : List α} {ys : List β} :
    xs.mapM f = .ok ys ↔ List.Forall₂ (fun x y => f x = .ok y) xs ys := by
  induction xs generalizing ys with
  | nil =>
    rw [List.mapM_nil, List.forall₂_nil_left_iff]
    constructor
    · intro h
      cases h
      rfl
    · rintro rfl
      rfl
  | cons x xs ih =>
    rw [List.mapM_cons]
    cases hx : f x with
    | error e =>
      refine ⟨fun h => ?_, fun h => ?_⟩
      · cases h
      · cases h with
        | cons h _ =>
          rw [hx] at h
          cases h
    | ok y =>
      cases hxs : xs.mapM f with
      | error e =>
        refine ⟨fun h => ?_, fun h => ?_⟩
        · cases h
        · cases h with
          | cons _ h =>
            rw [ih.mpr h] at hxs
            cases hxs
      | ok zs =>
        constructor
        · intro h
          cases h
          exact .cons hx (ih.mp hxs)
        · intro h
          cases h with
          | cons h hrest =>
            rw [hx] at h
            rw [ih.mpr hrest] at hxs
            cases h
            cases hxs
            rfl

end

/-- A row of a product: its hour and its fields. -/
abbrev Row := Nat × List (List Char)

/-- The rows that a product's lines hold, every line read. -/
def Rows (text : List Char) (colA colB : Nat) (rows : List Row) : Prop :=
  ∃ read, List.Forall₂ (fun line row => (rowHour line colA colB).run = some (.ok row))
    ((lines text).drop 1) read ∧ rows = read.reduceOption

/-- A column of the rows as hours of the year; the last row of an hour counts. -/
noncomputable def column (parse : List Char → Option ℝ) (rows : List Row) (col : Nat) : Series ℝ :=
  (List.range HOURS_2024).map fun hour =>
    (rows.reverse.find? fun row => row.1 = hour).bind fun row => parseValue parse (row.2.getD col [])

variable {parse : List Char → Option ℝ} {colA colB : Nat}

/-- A row written into the two series. -/
noncomputable def write (parse : List Char → Option ℝ) (colA colB : Nat) (s : Series ℝ × Series ℝ)
    (row : Row) : Series ℝ × Series ℝ :=
  (s.1.set row.1 (parseValue parse (row.2.getD colA [])),
    s.2.set row.1 (parseValue parse (row.2.getD colB [])))

theorem readLine_iff {line : List Char} {s s' : Series ℝ × Series ℝ} :
    (readLine parse colA colB s line).run = some (.ok s') ↔
      ∃ row, (rowHour line colA colB).run = some (.ok row) ∧
        s' = row.toList.foldl (write parse colA colB) s := by
  rw [readLine, read_bind_iff]
  refine exists_congr fun row => and_congr_right fun _ => ?_
  cases row with
  | none => exact run_pure_iff.trans eq_comm
  | some row => exact run_pure_iff.trans eq_comm

theorem foldlM_readLine {texts : List (List Char)} {s s' : Series ℝ × Series ℝ} :
    (texts.foldlM (readLine parse colA colB) s).run = some (.ok s') ↔
      ∃ read, List.Forall₂ (fun line row => (rowHour line colA colB).run = some (.ok row)) texts read ∧
        s' = read.reduceOption.foldl (write parse colA colB) s := by
  induction texts generalizing s with
  | nil =>
    rw [List.foldlM_nil, run_pure_iff]
    constructor
    · rintro rfl
      exact ⟨[], .nil, rfl⟩
    · rintro ⟨read, hread, rfl⟩
      rw [List.forall₂_nil_left_iff.mp hread]
      rfl
  | cons line texts ih =>
    have hcons : ∀ (row : Option Row) (read : List (Option Row)),
        (row :: read).reduceOption = row.toList ++ read.reduceOption := by
      intro row read
      cases row <;> rfl
    rw [List.foldlM_cons, read_bind_iff]
    constructor
    · rintro ⟨s₁, hline, hrest⟩
      obtain ⟨row, hrow, rfl⟩ := readLine_iff.mp hline
      obtain ⟨read, hread, rfl⟩ := ih.mp hrest
      exact ⟨row :: read, .cons hrow hread, by rw [hcons, List.foldl_append]⟩
    · rintro ⟨read, hread, rfl⟩
      cases hread with
      | @cons _ row _ read hrow hread =>
        refine ⟨_, readLine_iff.mpr ⟨row, hrow, rfl⟩, ih.mpr ⟨read, hread, ?_⟩⟩
        rw [hcons, List.foldl_append]

/-- Written one after the other, the rows leave their columns. -/
theorem foldl_write (rows : List Row) :
    rows.foldl (write parse colA colB)
      (List.replicate HOURS_2024 none, List.replicate HOURS_2024 none) =
      (column parse rows colA, column parse rows colB) := by
  have hset : ∀ (rows : List Row) (row : Row) (col : Nat),
      (column parse rows col).set row.1 (parseValue parse (row.2.getD col [])) =
        column parse (rows ++ [row]) col := by
    intro rows row col
    refine List.ext_getElem? fun i => ?_
    by_cases hi : i < HOURS_2024
    · simp only [column, List.getElem?_set, List.length_map, List.length_range, List.getElem?_map,
        List.getElem?_range hi, List.reverse_append, List.reverse_singleton, List.singleton_append,
        Option.map_some, List.find?_cons]
      by_cases he : row.1 = i
      · simp [he, hi]
      · simp [he]
    · rw [List.getElem?_eq_none (by simpa [column] using hi),
        List.getElem?_eq_none (by simpa [column] using hi)]
  induction rows using List.reverseRecOn with
  | nil =>
    have hempty : ∀ col, List.replicate HOURS_2024 none = column parse [] col := by
      intro col
      refine List.ext_getElem? fun i => ?_
      simp only [column, List.reverse_nil, List.find?_nil, Option.bind_none, List.getElem?_map,
        List.getElem?_replicate]
      by_cases hi : i < HOURS_2024
      · rw [if_pos hi, List.getElem?_range hi]
        rfl
      · rw [if_neg hi, List.getElem?_eq_none (by simpa using hi)]
        rfl
    rw [List.foldl_nil, ← hempty colA, ← hempty colB]
  | append_singleton rows row ih =>
    rw [List.foldl_append, ih, List.foldl_cons, List.foldl_nil, write, hset, hset]

/-- What is read of a product are two columns of its rows. -/
theorem parseTwoColumns_iff {text : List Char} {a b : Series ℝ} :
    (parseTwoColumns parse text colA colB).run = some (.ok (a, b)) ↔
      ∃ rows, Rows text colA colB rows ∧ a = column parse rows colA ∧ b = column parse rows colB := by
  rw [parseTwoColumns, foldlM_readLine]
  constructor
  · rintro ⟨read, hread, h⟩
    rw [foldl_write, Prod.mk.injEq] at h
    exact ⟨_, ⟨read, hread, rfl⟩, h⟩
  · rintro ⟨rows, ⟨read, hread, rfl⟩, h⟩
    refine ⟨read, hread, ?_⟩
    rw [foldl_write, Prod.mk.injEq]
    exact h

theorem length_column (rows : List Row) (col : Nat) : (column parse rows col).length = HOURS_2024 := by
  rw [column, List.length_map, List.length_range]

theorem length_columns {text : List Char} {a b : Series ℝ}
    (h : ∃ rows, Rows text colA colB rows ∧ a = column parse rows colA ∧ b = column parse rows colB) :
    a.length = HOURS_2024 ∧ b.length = HOURS_2024 := by
  obtain ⟨rows, -, ha, hb⟩ := h
  rw [ha, hb]
  exact ⟨length_column rows colA, length_column rows colB⟩

/-- The nearest whole number, halves away from zero. -/
noncomputable def whole (x : ℝ) : Int := if 0 ≤ x then ⌊x + 1 / 2⌋ else ⌈x - 1 / 2⌉

theorem trunc_round (x : ℝ) : Scalar.trunc (Scalar.round x) = whole x := by
  have hround : Scalar.round x = ((whole x : Int) : ℝ) := by
    rw [whole]
    split
    · next h => exact if_pos h
    · next h => exact if_neg h
  rw [hround, Scalar.trunc_whole]

/-- Half a unit at most is lost. -/
theorem abs_whole_sub (x : ℝ) : |(whole x : ℝ) - x| ≤ 1 / 2 := by
  rw [whole, abs_le]
  split
  · have h1 := Int.floor_le (x + 1 / 2)
    have h2 := Int.lt_floor_add_one (x + 1 / 2)
    constructor <;> linarith
  · have h1 := Int.le_ceil (x - 1 / 2)
    have h2 := Int.ceil_lt_add_one (x - 1 / 2)
    constructor <;> linarith

/-- Every hour of the year has a value `R` names, stored in units within limits. -/
structure Stored {β : Type} (toInt : β → Int) (unit : ℝ) (lo hi : Int) (R : Nat → ℝ → Prop)
    (qs : List β) : Prop where
  length : qs.length = HOURS_2024
  value : ∀ hour < HOURS_2024, ∃ v q, R hour v ∧ qs[hour]? = some q ∧
    toInt q = whole (v * unit) ∧ lo ≤ toInt q ∧ toInt q ≤ hi

/-- A value for every hour of the year, the one `R` names. -/
structure Valued (R : Nat → ℝ → Prop) (vs : List ℝ) : Prop where
  length : vs.length = HOURS_2024
  value : ∀ hour v, vs[hour]? = some v ↔ hour < HOURS_2024 ∧ R hour v

theorem stored_iff {β : Type} {toInt : β → Int} {unit : ℝ} {lo hi : Int} {R : Nat → ℝ → Prop}
    {f : ℝ → Except String β}
    (hf : ∀ v q, f v = .ok q ↔ toInt q = whole (v * unit) ∧ lo ≤ toInt q ∧ toInt q ≤ hi)
    {vs : List ℝ} (hvs : Valued R vs) {qs : List β} :
    vs.mapM f = .ok qs ↔ Stored toInt unit lo hi R qs := by
  rw [mapM_accepts, List.forall₂_iff_get]
  constructor
  · rintro ⟨hlength, hq⟩
    have hqs : qs.length = HOURS_2024 := hlength.symm.trans hvs.length
    refine ⟨hqs, fun hour hhour => ?_⟩
    have hv : hour < vs.length := by rwa [hvs.length]
    have hlt : hour < qs.length := by rwa [hqs]
    refine ⟨vs[hour], qs[hour], ?_, List.getElem?_eq_getElem hlt, (hf _ _).mp (hq hour hv hlt)⟩
    exact ((hvs.value hour _).mp (List.getElem?_eq_getElem hv)).2
  · intro h
    refine ⟨hvs.length.trans h.length.symm, fun hour hv hlt => (hf _ _).mpr ?_⟩
    obtain ⟨v, q, hR, hq, hstored⟩ := h.value hour (by rwa [hvs.length] at hv)
    have hvalue := (hvs.value hour v).mpr ⟨by rwa [hvs.length] at hv, hR⟩
    rw [List.getElem?_eq_getElem hv, Option.some_inj] at hvalue
    rw [List.getElem?_eq_getElem hlt, Option.some_inj] at hq
    simp only [List.get_eq_getElem, hvalue, hq]
    exact hstored

theorem quantized_iff {n lo hi : Int} (hlo : -32768 ≤ lo) (hhi : hi ≤ 32767) {e : String} {q : Int16} :
    (if max (-2147483648) (min n 2147483647) < lo ∨ hi < max (-2147483648) (min n 2147483647) then
      .error e else .ok (Int16.ofInt (max (-2147483648) (min n 2147483647))) : Except String Int16) =
        .ok q ↔ q.toInt = n ∧ lo ≤ q.toInt ∧ q.toInt ≤ hi := by
  constructor
  · intro h
    split at h
    · cases h
    · next hin =>
      have hn : max (-2147483648) (min n 2147483647) = n := by omega
      rw [hn] at h hin
      cases h
      rw [Int16.toInt_ofInt_of_le (by omega) (by omega)]
      omega
  · rintro ⟨rfl, hl, hh⟩
    have hn : max (-2147483648) (min q.toInt 2147483647) = q.toInt := by omega
    rw [hn, if_neg (by omega), Int16.ofInt_toInt]

variable {display : ℝ → String} {R : Nat → ℝ → Prop} {vs : List ℝ} {lo hi : Int} {name : String}

theorem quantizeX10_iff (hlo : -32768 ≤ lo) (hhi : hi ≤ 32767) (hvs : Valued R vs) {qs : List Int16} :
    quantizeX10 display vs lo hi name = .ok qs ↔ Stored Int16.toInt 10 lo hi R qs := by
  refine stored_iff (fun v q => ?_) hvs
  have hten : (10.0 : ℝ) = 10 := by norm_num
  simp only [toI32, hten, trunc_round]
  exact quantized_iff hlo hhi

theorem quantizeX1_iff (hlo : -32768 ≤ lo) (hhi : hi ≤ 32767) (hvs : Valued R vs) {qs : List Int16} :
    quantizeX1 display vs lo hi name = .ok qs ↔ Stored Int16.toInt 1 lo hi R qs := by
  refine stored_iff (fun v q => ?_) hvs
  simp only [toI32, trunc_round, mul_one]
  exact quantized_iff hlo hhi

theorem quantizeCode_iff (hvs : Valued R vs) {qs : List UInt8} :
    quantizeCode display vs name = .ok qs ↔ Stored (fun q => (q.toNat : Int)) 1 0 255 R qs := by
  refine stored_iff (fun v q => ?_) hvs
  simp only [toI64, trunc_round, mul_one]
  generalize whole v = n
  constructor
  · intro h
    split at h
    · cases h
    · next hin =>
      have hn : max (-9223372036854775808) (min n 9223372036854775807) = n := by omega
      rw [hn] at h hin
      cases h
      rw [UInt8.toNat_ofNat_of_lt' (by simp only [UInt8.size]; omega)]
      omega
  · rintro ⟨rfl, -, hh⟩
    have hn : max (-9223372036854775808) (min (q.toNat : Int) 9223372036854775807) = q.toNat := by omega
    rw [hn, if_neg (by omega), Int.toNat_natCast, UInt8.ofNat_toNat]

/-- At most one value for an hour. -/
def Single (R : Nat → ℝ → Prop) : Prop := ∀ hour v w, R hour v → R hour w → v = w

/-- The line through the observations. -/
def OnLine (series : Series ℝ) : Nat → ℝ → Prop :=
  fun hour v => v = lineAt (observations series) hour

/-- The nearest observation. -/
def AtNearest (series : Series ℝ) : Nat → ℝ → Prop :=
  fun hour v => ∃ k, Nearest series hour k ∧ series[k]? = some (some v)

/-- What was observed, or nothing fell. -/
def Fallen (series : Series ℝ) : Nat → ℝ → Prop :=
  fun hour v => v = (series.getD hour none).getD 0

/-- The form observed; without one, unknown if something fell and none if not. -/
def FallenAs (form mm : Series ℝ) : Nat → ℝ → Prop :=
  fun hour v => v = (form.getD hour none).getD (if 0 < (mm.getD hour none).getD 0 then 4.0 else 0)

/-- A given value. -/
def Listed (values : List ℝ) : Nat → ℝ → Prop := fun hour v => values[hour]? = some v

theorem single_onLine (series : Series ℝ) : Single (OnLine series) := by
  rintro hour v w rfl rfl
  rfl

theorem single_atNearest (series : Series ℝ) : Single (AtNearest series) := by
  rintro hour v w ⟨k, hk, hv⟩ ⟨m, hm, hw⟩
  rw [hk.unique hm, hw] at hv
  cases hv
  rfl

theorem single_fallen (series : Series ℝ) : Single (Fallen series) := by
  rintro hour v w rfl rfl
  rfl

theorem single_fallenAs (form mm : Series ℝ) : Single (FallenAs form mm) := by
  rintro hour v w rfl rfl
  rfl

theorem valued_map (f : Nat → ℝ) :
    Valued (fun hour v => v = f hour) ((List.range HOURS_2024).map f) := by
  refine ⟨by rw [List.length_map, List.length_range], fun hour v => ?_⟩
  rw [List.getElem?_map, Option.map_eq_some_iff]
  constructor
  · rintro ⟨i, hi, rfl⟩
    obtain ⟨hlt, rfl⟩ := List.getElem?_eq_some_iff.mp hi
    rw [List.length_range] at hlt
    rw [List.getElem_range]
    exact ⟨hlt, rfl⟩
  · rintro ⟨hlt, rfl⟩
    exact ⟨hour, List.getElem?_range hlt, rfl⟩

theorem Valued.unique {vs ws : List ℝ} (h : Valued R vs) (h' : Valued R ws) : vs = ws := by
  refine List.ext_getElem? fun hour => Option.ext fun v => ?_
  rw [h.value, h'.value]

/-- What is stored was there to store. -/
theorem Stored.valued {β : Type} {toInt : β → Int} {unit : ℝ} {qs : List β} (hR : Single R)
    (h : Stored toInt unit lo hi R qs) : ∃ vs, Valued R vs := by
  choose! value q hvalue using h.value
  have hmap := valued_map value
  refine ⟨_, hmap.length, fun hour v => (hmap.value hour v).trans (and_congr_right fun hhour => ?_)⟩
  constructor
  · rintro rfl
    exact (hvalue hour hhour).1
  · exact fun hv => hR hour _ _ hv (hvalue hour hhour).1

theorem unwrapAll_iff {series : Series ℝ} :
    (unwrapAll series).run = some (.ok vs) ↔ series = vs.map some := by
  rw [unwrapAll, run_ok_iff]
  induction series generalizing vs with
  | nil =>
    rw [List.mapM_nil, eq_comm (a := ([] : Series ℝ)), List.map_eq_nil_iff]
    exact Option.some_inj.trans eq_comm
  | cons x series ih =>
    rw [List.mapM_cons, eq_comm (b := vs.map some), List.map_eq_cons_iff]
    cases x with
    | none =>
      constructor
      · intro h
        cases h
      · rintro ⟨v, ws, -, hv, -⟩
        cases hv
    | some v =>
      cases hm : series.mapM id with
      | none =>
        constructor
        · intro h
          cases h
        · rintro ⟨w, ws, -, -, hws⟩
          rw [ih.mpr hws.symm] at hm
          cases hm
      | some us =>
        have hus : series = us.map some := ih.mp hm
        constructor
        · intro h
          cases h
          exact ⟨v, us, rfl, rfl, hus.symm⟩
        · rintro ⟨w, ws, rfl, hw, hws⟩
          rw [ih.mpr hws.symm] at hm
          cases hm
          cases hw
          rfl

theorem map_some_iff {f : Nat → ℝ} (hours : List Nat) :
    hours.map (fun hour => some (f hour)) = vs.map some ↔ vs = hours.map f := by
  have hsome : hours.map (fun hour => some (f hour)) = (hours.map f).map some := by
    rw [List.map_map]
    rfl
  rw [hsome, (List.map_injective_iff.mpr (Option.some_injective ℝ)).eq_iff, eq_comm]

/-- The hours of a series that nobody observed. -/
def missing (series : Series ℝ) : UInt16 := UInt16.ofNat (series.countP Option.isNone)

variable {series : Series ℝ} {maxGap : Nat} {out : Series ℝ} {count : UInt16}

theorem linear_valued (hlength : series.length = HOURS_2024) :
    (fillLinear series maxGap name).run = some (.ok (out, count)) ∧
        (unwrapAll out).run = some (.ok vs) ↔
      Bridged series maxGap ∧ count = missing series ∧ out = vs.map some ∧ Valued (OnLine series) vs := by
  have hvalued : Valued (OnLine series) _ := valued_map fun hour => lineAt (observations series) hour
  rw [(linear_fill series maxGap name).2, unwrapAll_iff, missing, hlength, and_assoc, and_assoc]
  refine and_congr_right fun _ => ?_
  constructor
  · intro h
    have hvs := (map_some_iff (List.range HOURS_2024)).mp (h.1.symm.trans h.2.2)
    rw [hvs]
    exact ⟨h.2.1, h.2.2.trans (congrArg (List.map some) hvs), hvalued⟩
  · intro h
    exact ⟨h.2.1.trans ((map_some_iff _).mpr (h.2.2.unique hvalued)).symm, h.1, h.2.1⟩

theorem nearest_valued (hlength : series.length = HOURS_2024) :
    (fillNearest series maxGap name).run = some (.ok (out, count)) ∧
        (unwrapAll out).run = some (.ok vs) ↔
      Bridged series maxGap ∧ count = missing series ∧ out = vs.map some ∧
        Valued (AtNearest series) vs := by
  rw [(nearest_fill series maxGap name).2, unwrapAll_iff, missing, and_assoc]
  refine and_congr_right fun _ => ?_
  have hout : ∀ {i : Nat} {v : ℝ}, (vs.map some)[i]? = some (some v) ↔ vs[i]? = some v := by
    intro i v
    rw [List.getElem?_map, Option.map_eq_some_iff]
    constructor
    · rintro ⟨w, hw, he⟩
      cases he
      exact hw
    · exact fun h => ⟨v, h, rfl⟩
  constructor
  · rintro ⟨⟨hlen, hnear, hcount⟩, rfl⟩
    rw [List.length_map, hlength] at hlen
    refine ⟨hcount, rfl, hlen, fun hour v => ⟨fun h => ?_, fun ⟨hhour, k, hk, hv⟩ => ?_⟩⟩
    · have hhour := (List.getElem?_eq_some_iff.mp h).1
      rw [hlen] at hhour
      obtain ⟨k, hk, he⟩ := hnear hour (hlength ▸ hhour)
      exact ⟨hhour, k, hk, he.symm.trans (hout.mpr h)⟩
    · obtain ⟨m, hm, he⟩ := hnear hour (hlength ▸ hhour)
      rw [hm.unique hk, hv] at he
      exact hout.mp he
  · rintro ⟨hcount, rfl, hv⟩
    refine ⟨⟨by rw [List.length_map, hv.length, hlength], fun i hi => ?_, hcount⟩, rfl⟩
    have hlt : i < vs.length := by rwa [hv.length, ← hlength]
    obtain ⟨-, k, hk, he⟩ := (hv.value i vs[i]).mp (List.getElem?_eq_getElem hlt)
    exact ⟨k, hk, (hout.mpr (List.getElem?_eq_getElem hlt)).trans he.symm⟩

theorem fillZero_eq (series : Series ℝ) :
    fillZero series = (series.map fun slot => some (slot.getD 0), missing series) := by
  rw [fillZero]
  induction series using List.reverseRecOn with
  | nil => rfl
  | append_singleton series slot ih =>
    rw [List.foldl_append, ih, List.foldl_cons, List.foldl_nil, missing, missing, List.countP_append]
    cases slot with
    | none => simp [UInt16.ofNat_add]
    | some v => simp

theorem zero_valued (hlength : series.length = HOURS_2024) :
    fillZero series = (out, count) ∧ (unwrapAll out).run = some (.ok vs) ↔
      count = missing series ∧ out = vs.map some ∧ Valued (Fallen series) vs := by
  have hvalued : Valued (Fallen series) (series.map fun slot => slot.getD 0) := by
    refine ⟨by rw [List.length_map, hlength], fun hour v => ?_⟩
    rw [List.getElem?_map, Option.map_eq_some_iff, ← hlength, Fallen, List.getD_eq_getElem?_getD]
    constructor
    · rintro ⟨slot, hslot, rfl⟩
      rw [hslot]
      exact ⟨(List.getElem?_eq_some_iff.mp hslot).1, rfl⟩
    · rintro ⟨hhour, rfl⟩
      rw [List.getElem?_eq_getElem hhour]
      exact ⟨_, rfl, rfl⟩
  have hmap : (series.map fun slot => some (slot.getD 0)) =
      (series.map fun slot => slot.getD 0).map some := by
    rw [List.map_map]
    rfl
  rw [fillZero_eq, unwrapAll_iff, Prod.mk.injEq, hmap]
  constructor
  · rintro ⟨⟨rfl, rfl⟩, hout⟩
    have hvs := List.map_injective_iff.mpr (Option.some_injective ℝ) hout
    rw [← hvs]
    exact ⟨rfl, rfl, hvalued⟩
  · rintro ⟨rfl, rfl, hv⟩
    rw [hv.unique hvalued]
    exact ⟨⟨rfl, rfl⟩, rfl⟩

/-- The loop over form and amount, where every amount is there. -/
theorem fillPrecipForm_eq {form : Series ℝ} {ms : List ℝ} (hlength : form.length = ms.length) :
    fillPrecipForm form (ms.map some) =
      some ((form.zip ms).map fun x => some (x.1.getD (if 0 < x.2 then 4.0 else 0)), missing form) := by
  have hloop : ∀ (form : Series ℝ) (ms : List ℝ), form.length = ms.length →
      (form.zip (ms.map some)).foldlM (fun s (x : Option ℝ × Option ℝ) =>
        if x.1.isNone then do
          let amount ← x.2
          return (s.1 ++ [some (if 0 < amount then 4.0 else 0)], s.2 + 1)
        else some (s.1 ++ [x.1], s.2)) (([], 0) : Series ℝ × UInt16) =
      some ((form.zip ms).map fun x => some (x.1.getD (if 0 < x.2 then 4.0 else 0)), missing form) := by
    intro form ms
    induction form using List.reverseRecOn generalizing ms with
    | nil =>
      intro _
      rfl
    | append_singleton form slot ih =>
      intro h
      obtain ⟨ms, m, rfl⟩ : ∃ ms' m, ms = ms' ++ [m] := by
        refine ⟨ms.dropLast, ms.getLast ?_, (List.dropLast_append_getLast _).symm⟩
        rintro rfl
        simp at h
      have hlen : form.length = ms.length := by simpa using h
      rw [List.map_append, List.zip_append (by rw [List.length_map, hlen]), List.foldlM_append, ih ms hlen,
        List.zip_append hlen, missing, missing, List.countP_append]
      cases slot with
      | none => simp [UInt16.ofNat_add]
      | some v => simp
  rw [fillPrecipForm, hloop form ms hlength, Option.map_some, List.length_map, hlength.symm,
    List.drop_length, List.append_nil]

theorem form_valued {mm : Series ℝ} {ms : List ℝ} (hlength : series.length = HOURS_2024)
    (hms : Valued (Fallen mm) ms) :
    fillPrecipForm series (ms.map some) = some (out, count) ∧ (unwrapAll out).run = some (.ok vs) ↔
      count = missing series ∧ out = vs.map some ∧ Valued (FallenAs series mm) vs := by
  have hlen : series.length = ms.length := hlength.trans hms.length.symm
  have hvalued : Valued (FallenAs series mm)
      ((series.zip ms).map fun x => x.1.getD (if 0 < x.2 then 4.0 else 0)) := by
    refine ⟨by rw [List.length_map, List.length_zip, ← hlen, hlength, min_self], fun hour v => ?_⟩
    rw [List.getElem?_map, Option.map_eq_some_iff, FallenAs, List.getD_eq_getElem?_getD]
    constructor
    · rintro ⟨x, hx, rfl⟩
      obtain ⟨hslot, hm⟩ := List.getElem?_zip_eq_some.mp hx
      obtain ⟨hhour, hfallen⟩ := (hms.value hour x.2).mp hm
      rw [hslot, ← hfallen]
      exact ⟨hhour, rfl⟩
    · rintro ⟨hhour, rfl⟩
      have hlt : hour < series.length := by rwa [hlength]
      have hm := (hms.value hour ((mm.getD hour none).getD 0)).mpr ⟨hhour, rfl⟩
      refine ⟨(series[hour], (mm.getD hour none).getD 0),
        List.getElem?_zip_eq_some.mpr ⟨List.getElem?_eq_getElem hlt, hm⟩, ?_⟩
      rw [List.getElem?_eq_getElem hlt]
      rfl
  have hmap : ((series.zip ms).map fun x => some (x.1.getD (if 0 < x.2 then 4.0 else 0))) =
      ((series.zip ms).map fun x => x.1.getD (if 0 < x.2 then 4.0 else 0)).map some := by
    rw [List.map_map]
    rfl
  rw [fillPrecipForm_eq hlen, unwrapAll_iff, Option.some_inj, Prod.mk.injEq, hmap]
  constructor
  · rintro ⟨⟨rfl, rfl⟩, hout⟩
    have hvs := List.map_injective_iff.mpr (Option.some_injective ℝ) hout
    rw [← hvs]
    exact ⟨rfl, rfl, hvalued⟩
  · rintro ⟨rfl, rfl, hv⟩
    rw [hv.unique hvalued]
    exact ⟨⟨rfl, rfl⟩, rfl⟩

/-- What is read of the product files. -/
structure Observed where
  temp : Series ℝ
  rh : Series ℝ
  windMs : Series ℝ
  windDir : Series ℝ
  cloud : Series ℝ
  precipMm : Series ℝ
  precipForm : Series ℝ
  ghi : List ℝ

/-- The observations are those of the files' rows. -/
structure Reads (parse : List Char → Option ℝ) (products : Products) (o : Observed) : Prop where
  tu : ∃ rows, Rows products.tu 3 4 rows ∧ o.temp = column parse rows 3 ∧ o.rh = column parse rows 4
  ff : ∃ rows, Rows products.ff 3 4 rows ∧ o.windMs = column parse rows 3 ∧
    o.windDir = column parse rows 4
  n : ∃ rows, Rows products.n 4 4 rows ∧ o.cloud = column parse rows 4
  rr : ∃ rows, Rows products.rr 3 5 rows ∧ o.precipMm = column parse rows 3 ∧
    o.precipForm = column parse rows 5
  st : (distributeSolar parse products.st).run = some (.ok o.ghi)

/-- The gaps in the observations are short enough. -/
structure Complete (o : Observed) : Prop where
  temp : Bridged o.temp 24
  rh : Bridged o.rh 24
  windMs : Bridged o.windMs 72
  windDir : Bridged o.windDir 72
  cloud : Bridged o.cloud 72

/-- The data hold what was observed, and the values between. -/
structure Holds (o : Observed) (data : WeatherCodec.ArtifactData) : Prop where
  station : data.stationId = 3015
  year : data.year = 2024
  fills : data.fills = ⟨missing o.temp, missing o.rh, 0, missing o.precipMm, missing o.precipForm,
    missing o.windMs, missing o.windDir, missing o.cloud⟩
  temp : Stored Int16.toInt 10 (-500) 500 (OnLine o.temp) data.tempCX10
  rh : Stored Int16.toInt 10 0 1000 (OnLine o.rh) data.rhPctX10
  ghi : Stored Int16.toInt 10 0 15000 (Listed o.ghi) data.ghiWm2X10
  precipMm : Stored Int16.toInt 10 0 1000 (Fallen o.precipMm) data.precipMmX10
  windMs : Stored Int16.toInt 10 0 600 (OnLine o.windMs) data.windMsX10
  windDir : Stored Int16.toInt 1 0 360 (AtNearest o.windDir) data.windDirDeg
  precipForm : Stored (fun q => (q.toNat : Int)) 1 0 255 (FallenAs o.precipForm o.precipMm)
    data.precipForm
  cloud : Stored (fun q => (q.toNat : Int)) 1 0 255 (AtNearest o.cloud) data.cloudOkta

theorem listed_valued {text : List Char} {means : List ℝ}
    (h : (distributeSolar parse text).run = some (.ok means)) : Valued (Listed means) means := by
  obtain ⟨b, hrows, hmeans⟩ := BessSolar.distribute_ok (BessSolar.distributeSolar_rows h)
  obtain ⟨first, last, hpath⟩ := BessSolar.path_rows (solarRows parse text)
  have hconserved := BessSolar.conserved hpath
    (BessSolar.accounts_rows BessSolar.accounts_empty hrows) hmeans
  refine ⟨hconserved.hours, fun hour v => ⟨fun hv => ⟨?_, hv⟩, fun hv => hv.2⟩⟩
  have hlt := (List.getElem?_eq_some_iff.mp hv).1
  rwa [hconserved.hours] at hlt

variable {display : ℝ → String}

/-- What the compiler puts together, from its steps and back. -/
theorem compileData_iff {products : Products} {data : WeatherCodec.ArtifactData} :
    (compileData display parse products).run = some (.ok data) ↔
      ∃ o, Reads parse products o ∧ Complete o ∧ Holds o data := by
  rw [compileData]
  simp only [read_bind_iff, Prod.exists, run_some_iff, run_pure_iff, run_ok_iff, parseTwoColumns_iff]
  constructor
  · rintro ⟨temp, rh, htu, temp', ftemp, htemp, rh', frh, hrh, windMs, windDir, hff, windMs', fwindMs,
      hwindMs, windDir', fwindDir, hwindDir, cloud, cloud₂, hn, cloud', fcloud, hcloud, mm, form, hrr,
      form', fform, hform, ghi, hst, temps, htemps, rhs, hrhs, winds, hwinds, dirs, hdirs, clouds,
      hclouds, mms, hmms, forms, hforms, qtemp, hqtemp, qrh, hqrh, qghi, hqghi, qmm, hqmm, qwind, hqwind,
      qdir, hqdir, qform, hqform, qcloud, hqcloud, rfl⟩
    obtain ⟨ltemp, lrh⟩ := length_columns htu
    obtain ⟨lwindMs, lwindDir⟩ := length_columns hff
    obtain ⟨lcloud, -⟩ := length_columns hn
    obtain ⟨lmm, lform⟩ := length_columns hrr
    obtain ⟨btemp, rfl, -, vtemp⟩ := (linear_valued ltemp).mp ⟨htemp, htemps⟩
    obtain ⟨brh, rfl, -, vrh⟩ := (linear_valued lrh).mp ⟨hrh, hrhs⟩
    obtain ⟨bwindMs, rfl, -, vwindMs⟩ := (linear_valued lwindMs).mp ⟨hwindMs, hwinds⟩
    obtain ⟨bwindDir, rfl, -, vwindDir⟩ := (nearest_valued lwindDir).mp ⟨hwindDir, hdirs⟩
    obtain ⟨bcloud, rfl, -, vcloud⟩ := (nearest_valued lcloud).mp ⟨hcloud, hclouds⟩
    have hzero : fillZero mm = ((fillZero mm).1, (fillZero mm).2) := rfl
    obtain ⟨hmissing, hmm', vmm⟩ := (zero_valued lmm).mp ⟨hzero, hmms⟩
    rw [hmm'] at hform
    obtain ⟨rfl, -, vform⟩ := (form_valued lform vmm).mp ⟨hform, hforms⟩
    refine ⟨⟨temp, rh, windMs, windDir, cloud, mm, form, ghi⟩, ⟨htu, hff, ?_, hrr, hst⟩,
      ⟨btemp, brh, bwindMs, bwindDir, bcloud⟩, ?_⟩
    · obtain ⟨rows, hrows, hcol, -⟩ := hn
      exact ⟨rows, hrows, hcol⟩
    · refine ⟨rfl, rfl, ?_, ?_, ?_, ?_, ?_, ?_, ?_, ?_, ?_⟩
      · rw [hmissing]
      · exact (quantizeX10_iff (by decide) (by decide) vtemp).mp hqtemp
      · exact (quantizeX10_iff (by decide) (by decide) vrh).mp hqrh
      · exact (quantizeX10_iff (by decide) (by decide) (listed_valued hst)).mp hqghi
      · exact (quantizeX10_iff (by decide) (by decide) vmm).mp hqmm
      · exact (quantizeX10_iff (by decide) (by decide) vwindMs).mp hqwind
      · exact (quantizeX1_iff (by decide) (by decide) vwindDir).mp hqdir
      · exact (quantizeCode_iff vform).mp hqform
      · exact (quantizeCode_iff vcloud).mp hqcloud
  · rintro ⟨⟨temp, rh, windMs, windDir, cloud, mm, form, ghi⟩, ⟨htu, hff, hn, hrr, hst⟩,
      ⟨btemp, brh, bwindMs, bwindDir, bcloud⟩, hd⟩
    obtain ⟨nrows, hnrows, hcol⟩ := hn
    have hn : ∃ rows, Rows products.n 4 4 rows ∧ cloud = column parse rows 4 ∧
        column parse nrows 4 = column parse rows 4 := ⟨nrows, hnrows, hcol, rfl⟩
    obtain ⟨ltemp, lrh⟩ := length_columns htu
    obtain ⟨lwindMs, lwindDir⟩ := length_columns hff
    obtain ⟨lcloud, -⟩ := length_columns hn
    obtain ⟨lmm, lform⟩ := length_columns hrr
    obtain ⟨temps, vtemp⟩ := hd.temp.valued (single_onLine temp)
    obtain ⟨rhs, vrh⟩ := hd.rh.valued (single_onLine rh)
    obtain ⟨winds, vwindMs⟩ := hd.windMs.valued (single_onLine windMs)
    obtain ⟨dirs, vwindDir⟩ := hd.windDir.valued (single_atNearest windDir)
    obtain ⟨clouds, vcloud⟩ := hd.cloud.valued (single_atNearest cloud)
    obtain ⟨mms, vmm⟩ := hd.precipMm.valued (single_fallen mm)
    obtain ⟨forms, vform⟩ := hd.precipForm.valued (single_fallenAs form mm)
    obtain ⟨htemp, htemps⟩ := (linear_valued ltemp).mpr ⟨btemp, rfl, rfl, vtemp⟩
    obtain ⟨hrh, hrhs⟩ := (linear_valued lrh).mpr ⟨brh, rfl, rfl, vrh⟩
    obtain ⟨hwindMs, hwinds⟩ := (linear_valued lwindMs).mpr ⟨bwindMs, rfl, rfl, vwindMs⟩
    obtain ⟨hwindDir, hdirs⟩ := (nearest_valued lwindDir).mpr ⟨bwindDir, rfl, rfl, vwindDir⟩
    obtain ⟨hcloud, hclouds⟩ := (nearest_valued lcloud).mpr ⟨bcloud, rfl, rfl, vcloud⟩
    obtain ⟨hmm, hmms⟩ := (zero_valued lmm).mpr ⟨rfl, rfl, vmm⟩
    obtain ⟨hform, hforms⟩ := (form_valued lform vmm).mpr ⟨rfl, rfl, vform⟩
    have hform' : fillPrecipForm form (fillZero mm).1 = some (forms.map some, missing form) := by
      rw [hmm]
      exact hform
    refine ⟨_, _, htu, _, _, htemp, _, _, hrh, _, _, hff, _, _, hwindMs, _, _, hwindDir, _, _, hn, _,
      _, hcloud, _, _, hrr, _, _, hform', _, hst, _,
      htemps, _, hrhs, _, hwinds, _, hdirs, _, hclouds, mms, ?_, _, hforms,
      _, (quantizeX10_iff (by decide) (by decide) vtemp).mpr hd.temp,
      _, (quantizeX10_iff (by decide) (by decide) vrh).mpr hd.rh,
      _, (quantizeX10_iff (by decide) (by decide) (listed_valued hst)).mpr hd.ghi,
      _, (quantizeX10_iff (by decide) (by decide) vmm).mpr hd.precipMm,
      _, (quantizeX10_iff (by decide) (by decide) vwindMs).mpr hd.windMs,
      _, (quantizeX1_iff (by decide) (by decide) vwindDir).mpr hd.windDir,
      _, (quantizeCode_iff vform).mpr hd.precipForm,
      _, (quantizeCode_iff vcloud).mpr hd.cloud, ?_⟩
    · rw [hmm]
      exact hmms
    · have hstation := hd.station
      have hyear := hd.year
      have hfills := hd.fills
      rw [hmm]
      cases data
      cases hstation
      cases hyear
      cases hfills
      rfl

/-- The compiled artifact decodes to the observations and the values between. The files are
accepted just when their gaps can be bridged and every value stored. -/
theorem compiled_decodes (display : ℝ → String) (parse : List Char → Option ℝ) (products : Products)
    (bytes : List UInt8) :
    (compileWeather display parse products).run = some (.ok bytes) ↔
      ∃ o data, Reads parse products o ∧ Complete o ∧ Holds o data ∧
        WeatherCodec.encode data = .ok bytes ∧ WeatherCodec.decode bytes = some (.ok data) := by
  rw [compileWeather, read_bind_iff]
  constructor
  · rintro ⟨data, hdata, hencode⟩
    obtain ⟨o, hreads, hcomplete, hholds⟩ := compileData_iff.mp hdata
    have hencode := run_some_iff.mp hencode
    have hstorable := BessWeather.storable_of_encode hencode
    have hbytes := hencode
    rw [BessWeather.encode_storable hstorable] at hbytes
    cases hbytes
    exact ⟨o, data, hreads, hcomplete, hholds, hencode, BessWeather.decode_written hstorable⟩
  · rintro ⟨o, data, hreads, hcomplete, hholds, hencode, -⟩
    exact ⟨data, compileData_iff.mpr ⟨o, hreads, hcomplete, hholds⟩, run_some_iff.mpr hencode⟩

end BessCompile
