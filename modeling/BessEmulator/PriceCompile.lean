import BessEmulator.CompiledWeather
import BessEmulator.Ranking
import BessEmulator.SmardBlocks

/-!
# What the price artifact holds

The compiler accepts a directory just when its blocks hold each hour of the year
once, with a price within the limits, and when the midnights read off their starts
make a day table. The bytes then decode to these prices in cents and that table.
-/
namespace BessMarket

open Bess Smard BessArtifact BessPrices BessCompile PriceCodec

variable {F : Type}

/-- Prices with the stamps of consecutive hours, from the k-th on. -/
def stamped (startMs : Int) (k : Nat) : List F → List (Int × Option F)
  | [] => []
  | v :: prices => (startMs + k * HOUR_MS, some v) :: stamped startMs (k + 1) prices

theorem stamped_append (startMs : Int) (k : Nat) (xs ys : List F) :
    stamped startMs k (xs ++ ys) = stamped startMs k xs ++ stamped startMs (k + xs.length) ys := by
  induction xs generalizing k with
  | nil => rfl
  | cons x xs ih =>
    rw [List.cons_append, stamped, stamped, ih, List.cons_append, List.length_cons]
    congr 3
    omega

theorem mem_stamped {startMs : Int} {k : Nat} {prices : List F} {e : Int × Option F} :
    e ∈ stamped startMs k prices ↔
      ∃ (i : Nat) (v : F), prices[i]? = some v ∧ e = (startMs + (k + i : Nat) * HOUR_MS, some v) := by
  induction prices generalizing k with
  | nil => simp [stamped]
  | cons v prices ih =>
    rw [stamped, List.mem_cons, ih]
    constructor
    · rintro (rfl | ⟨i, w, hw, rfl⟩)
      · exact ⟨0, v, rfl, rfl⟩
      · exact ⟨i + 1, w, hw, by rw [Nat.add_right_comm k 1 i, Nat.add_assoc]⟩
    · rintro ⟨i, w, hw, rfl⟩
      cases i with
      | zero =>
        cases hw
        exact Or.inl rfl
      | succ i => exact Or.inr ⟨i, w, hw, by rw [Nat.add_right_comm k 1 i, Nat.add_assoc]⟩

theorem stamped_increase (startMs : Int) (k : Nat) (prices : List F) :
    (stamped startMs k prices).Pairwise fun a b => a.1 < b.1 := by
  induction prices generalizing k with
  | nil => exact List.Pairwise.nil
  | cons v prices ih =>
    refine List.pairwise_cons.mpr ⟨fun e he => ?_, ih (k + 1)⟩
    obtain ⟨i, w, -, rfl⟩ := mem_stamped.mp he
    simp only [HOUR_MS]
    omega

variable [Scalar F]

/-- A price the market allows. -/
def Within (v : F) : Prop := (-500.0 : F) ≤ v ∧ v ≤ 4000.0

variable {display : F → String}

theorem strictHour_iff {startMs : Int} {k : Nat} {entry : Int × Option F} {v : F} :
    strictHour display startMs k entry = .ok v ↔ entry = (startMs + k * HOUR_MS, some v) ∧ Within v := by
  obtain ⟨ms, value⟩ := entry
  simp only [strictHour, Prod.mk.injEq]
  by_cases hms : ms = startMs + k * HOUR_MS
  · simp only [hms, ne_eq, not_true_eq_false, if_false]
    cases value with
    | none => simp
    | some w =>
      simp only
      constructor
      · intro h
        split at h
        · next hlimits =>
          cases h
          exact ⟨⟨trivial, rfl⟩, hlimits⟩
        · cases h
      · rintro ⟨⟨-, he⟩, hv⟩
        cases he
        exact if_pos hv
  · simp [hms]

theorem strictHours_iff {startMs : Int} {k : Nat} {entries : List (Int × Option F)} {prices : List F} :
    strictHours display startMs k entries = .ok prices ↔
      entries = stamped startMs k prices ∧ ∀ v ∈ prices, Within v := by
  induction entries generalizing k prices with
  | nil =>
    cases prices with
    | nil => simp [strictHours, stamped]
    | cons v prices => simp [strictHours, stamped]
  | cons e entries ih =>
    rw [strictHours]
    constructor
    · intro h
      split at h
      · cases h
      · next v hv =>
        obtain ⟨he, hwithin⟩ := strictHour_iff.mp hv
        cases hrest : strictHours display startMs (k + 1) entries with
        | error m =>
          rw [hrest] at h
          cases h
        | ok rest =>
          rw [hrest] at h
          cases h
          obtain ⟨hentries, hall⟩ := ih.mp hrest
          rw [stamped, he, ← hentries]
          exact ⟨rfl, List.forall_mem_cons.mpr ⟨hwithin, hall⟩⟩
    · rintro ⟨h, hall⟩
      cases prices with
      | nil => cases h
      | cons v prices =>
        obtain ⟨hwithin, hall⟩ := List.forall_mem_cons.mp hall
        rw [stamped, List.cons.injEq] at h
        rw [strictHour_iff.mpr ⟨h.1, hwithin⟩, ih.mpr ⟨h.2, hall⟩]
        rfl

/-- The entries of a year. -/
def inYear (startMs endMs : Int) (blocks : List (PriceBlock F)) : List (Int × Option F) :=
  (blocks.flatMap PriceBlock.entries).filter fun e => startMs ≤ e.1 ∧ e.1 < endMs

theorem hourlySeries_iff {blocks : List (PriceBlock F)} {startMs endMs : Int} {prices : List F} :
    hourlySeries display blocks startMs endMs = .ok prices ↔
      prices.length = HOURS ∧ (∀ v ∈ prices, Within v) ∧
        (inYear startMs endMs blocks).Perm (stamped startMs 0 prices) := by
  have hsort : strictHours display startMs 0
      ((inYear startMs endMs blocks).mergeSort fun a b => a.1 ≤ b.1) = .ok prices ↔
        (inYear startMs endMs blocks).Perm (stamped startMs 0 prices) ∧ ∀ v ∈ prices, Within v := by
    rw [strictHours_iff]
    refine and_congr_left fun _ => ⟨fun h => ?_, fun h => ?_⟩
    · rw [← h]
      exact (List.mergeSort_perm _ _).symm
    · exact Ranking.mergeSort_eq_of_perm Prod.fst h (stamped_increase startMs 0 prices)
  have hentries : (blocks.flatMap PriceBlock.entries).filter (fun e => startMs ≤ e.1 ∧ e.1 < endMs) =
      inYear startMs endMs blocks := rfl
  simp only [hourlySeries, hentries]
  constructor
  · intro h
    split at h
    · cases h
    · next read hread =>
      split at h
      · cases h
      · next hlength =>
        cases h
        obtain ⟨hperm, hall⟩ := hsort.mp hread
        exact ⟨not_not.mp hlength, hall, hperm⟩
  · rintro ⟨hlength, hall, hperm⟩
    rw [hsort.mpr ⟨hperm, hall⟩]
    exact if_neg (not_not.mpr hlength)

/-- The stamp of an hour that has an index. -/
theorem hourIndex_iff {ms startMs : Int} {n : Nat} :
    hourIndex ms startMs = .ok n ↔ ms = startMs + n * HOUR_MS ∧ n < 65536 := by
  have hsplit := Int.mul_tdiv_add_tmod (ms - startMs) HOUR_MS
  rw [Smard.hourIndex]
  constructor
  · intro h
    split at h
    · cases h
    · next hwhole =>
      simp only at h
      split at h
      · next hfits =>
        cases h
        rw [not_not.mp hwhole, add_zero] at hsplit
        have hnat : (((ms - startMs).tdiv HOUR_MS).toNat : Int) = (ms - startMs).tdiv HOUR_MS :=
          Int.toNat_of_nonneg hfits.1
        constructor
        · rw [hnat, mul_comm]
          omega
        · omega
      · cases h
  · rintro ⟨rfl, hn⟩
    have hdiff : startMs + n * HOUR_MS - startMs = n * HOUR_MS := by ring
    have hzero : (n * HOUR_MS : Int).tmod HOUR_MS = 0 := Int.mul_tmod_left _ _
    have hdiv : (n * HOUR_MS : Int).tdiv HOUR_MS = n := Int.mul_tdiv_cancel _ (by decide)
    rw [hdiff, hzero, if_neg (not_not.mpr rfl), hdiv]
    simp only
    rw [if_pos (by omega), Int.toNat_natCast]

/-- The starts of a year's blocks, in order. -/
def startsOf (startMs endMs : Int) (blocks : List (PriceBlock F)) : List Int :=
  ((blocks.map PriceBlock.startMs).filter fun ms => startMs ≤ ms ∧ ms < endMs).mergeSort fun a b => a ≤ b

omit [Scalar F] in
/-- The table of a day is read off blocks in order: hour indices of the midnights. -/
theorem dayTable_iff {blocks : List (PriceBlock F)} {startMs endMs : Int} {table : List Nat} :
    dayTable (blocks.mergeSort fun a b => a.startMs ≤ b.startMs) startMs endMs = .ok table ↔
      (startsOf startMs endMs blocks).head? = some startMs ∧
        allMidnights endMs (startsOf startMs endMs blocks) ++ [endMs] =
          table.map (fun n : Nat => startMs + n * HOUR_MS) ∧ ∀ n ∈ table, n < 65536 := by
  have hstarts := Ranking.filter_map_mergeSort PriceBlock.startMs
    (fun ms => decide (startMs ≤ ms ∧ ms < endMs)) blocks
  rw [Smard.dayTable]
  simp only [hstarts]
  change (if (startsOf startMs endMs blocks).head? ≠ some startMs then _ else _) = _ ↔ _
  have hindex : ∀ (xs : List Int) (table : List Nat),
      List.Forall₂ (fun ms n => hourIndex ms startMs = .ok n) xs table ↔
        xs = table.map (fun n : Nat => startMs + n * HOUR_MS) ∧ ∀ n ∈ table, n < 65536 := by
    intro xs
    induction xs with
    | nil =>
      intro table
      cases table <;> simp
    | cons x xs ih =>
      intro table
      cases table with
      | nil => simp
      | cons n table =>
        rw [List.forall₂_cons, hourIndex_iff, ih, List.map_cons, List.cons.injEq, List.forall_mem_cons]
        tauto
  by_cases hfirst : (startsOf startMs endMs blocks).head? = some startMs
  · rw [if_neg (not_not.mpr hfirst), mapM_accepts, hindex, and_iff_right hfirst]
    exact Iff.rfl
  · rw [if_pos hfirst]
    simp [hfirst]

/-- No day starts past the end, and each is at least 23 hours. -/
theorem bounds_of_steps {a : Nat} {starts : List Nat} {hours : Nat} (h : (a :: starts).IsChain DayStep)
    (hlast : (a :: starts).getLast? = some hours) :
    a + 23 * starts.length ≤ hours ∧ ∀ n ∈ a :: starts, n ≤ hours := by
  induction starts generalizing a with
  | nil =>
    cases hlast
    simp
  | cons b starts ih =>
    obtain ⟨hstep, hrest⟩ := List.isChain_cons_cons.mp h
    obtain ⟨hbound, hall⟩ := ih hrest (by rwa [List.getLast?_cons_cons] at hlast)
    have hday := hstep.1
    constructor
    · rw [List.length_cons]
      omega
    · intro n hn
      rcases List.mem_cons.mp hn with rfl | hn
      · omega
      · exact hall n hn

theorem bounds_of_table {table : List Nat} {hours : Nat} (h : DayTable table hours) :
    table.length - 1 ≤ hours ∧ ∀ n ∈ table, n ≤ hours := by
  cases table with
  | nil => simp
  | cons a starts =>
    obtain ⟨hbound, hall⟩ := bounds_of_steps h.steps h.last
    constructor
    · rw [List.length_cons]
      omega
    · exact hall

/-- The artifact of prices and a day table. -/
def dataOf (prices : List F) (table : List Nat) : ArtifactData where
  year := 2024
  startOffsetH := 1
  priceCtMwh := prices.map cents
  dayStarts := table.map UInt16.ofNat

theorem map_toNat {table : List Nat} (h : ∀ n ∈ table, n < 65536) :
    (table.map UInt16.ofNat).map UInt16.toNat = table := by
  rw [List.map_map]
  conv_rhs => rw [← List.map_id table]
  apply List.map_congr_left
  intro n hn
  exact UInt16.toNat_ofNat_of_lt' (h n hn)

/-- Such an artifact is stored exactly if the table is a day table. -/
theorem storable_iff {prices : List F} {table : List Nat} (hhours : prices.length = HOURS)
    (htable : ∀ n ∈ table, n < 65536) : Storable (dataOf prices table) ↔ DayTable table HOURS := by
  have hlength : (dataOf prices table).priceCtMwh.length = HOURS := by
    rw [dataOf, List.length_map, hhours]
  have hstarts : (dataOf prices table).dayStarts.map UInt16.toNat = table := map_toNat htable
  constructor
  · intro h
    have hcheck := h.described
    rw [hlength, hstarts] at hcheck
    exact (checkDayStarts_iff table HOURS).mp hcheck
  · intro h
    constructor
    · rw [hlength, hstarts]
      exact (checkDayStarts_iff table HOURS).mpr h
    · rw [hlength]
      decide
    · rw [dataOf, List.length_map]
      have hbound := (bounds_of_table h).1
      rw [HOURS] at hbound
      omega

/-- What a directory's blocks say of the year: each of its hours once, with a price
within the limits, and midnights that make a day table. -/
structure Says (blocks : List (PriceBlock F)) (prices : List F) (table : List Nat) : Prop where
  hours : prices.length = HOURS
  within : ∀ v ∈ prices, Within v
  entries : (inYear (localMidnightMs YEAR) (localMidnightMs (YEAR + 1)) blocks).Perm
    (stamped (localMidnightMs YEAR) 0 prices)
  first : (startsOf (localMidnightMs YEAR) (localMidnightMs (YEAR + 1)) blocks).head? =
    some (localMidnightMs YEAR)
  midnights : allMidnights (localMidnightMs (YEAR + 1))
      (startsOf (localMidnightMs YEAR) (localMidnightMs (YEAR + 1)) blocks) ++
        [localMidnightMs (YEAR + 1)] =
    table.map fun n : Nat => localMidnightMs YEAR + n * HOUR_MS
  days : DayTable table HOURS

theorem bind_ok_iff {α β : Type} {x : Except String α} {f : α → Except String β} {b : β} :
    (x >>= f) = .ok b ↔ ∃ a, x = .ok a ∧ f a = .ok b := by
  cases x with
  | error e =>
    constructor
    · intro h
      cases h
    · rintro ⟨a, h, -⟩
      cases h
  | ok a =>
    constructor
    · intro h
      exact ⟨a, rfl, h⟩
    · rintro ⟨a', h, hf⟩
      cases h
      exact hf

theorem pure_ok_iff {α : Type} {a b : α} : (pure a : Except String α) = .ok b ↔ a = b := by
  constructor
  · intro h
    cases h
    rfl
  · rintro rfl
    rfl

omit [Scalar F] in
theorem readBlocks_iff {parse : List Char → Option F} {rawDir : String}
    {files : List (List Char × List Char)} {blocks : List (PriceBlock F)} :
    readBlocks parse rawDir files = .ok blocks ↔
      ∃ read, files.mapM (readBlock parse) = .ok read ∧ read.reduceOption ≠ [] ∧
        blocks = read.reduceOption.mergeSort fun a b => a.startMs ≤ b.startMs := by
  rw [readBlocks, bind_ok_iff]
  apply exists_congr
  intro read
  apply and_congr_right
  intro _
  have hempty : (read.reduceOption.mergeSort fun a b => a.startMs ≤ b.startMs).isEmpty = true ↔
      read.reduceOption = [] := by
    rw [List.isEmpty_iff, ← List.length_eq_zero_iff, List.length_mergeSort, List.length_eq_zero_iff]
  simp only
  constructor
  · intro h
    split at h
    · cases h
    · next hne =>
      cases h
      exact ⟨fun hnil => hne (hempty.mpr hnil), rfl⟩
  · rintro ⟨hne, rfl⟩
    exact if_neg fun hnil => hne (hempty.mp hnil)

/-- What the compiler makes its artifact of. -/
theorem compileData_iff (display : F → String) (parse : List Char → Option F) (rawDir : String)
    (files : List (List Char × List Char)) (data : ArtifactData) :
    (Smard.compileData display parse rawDir files = .ok data ∧ Storable data) ↔
      ∃ read prices table, files.mapM (readBlock parse) = .ok read ∧ Says read.reduceOption prices table ∧
        data = dataOf prices table := by
  simp only [Smard.compileData, bind_ok_iff, pure_ok_iff, readBlocks_iff, hourlySeries_iff]
  constructor
  · rintro ⟨⟨blocks, ⟨read, hread, -, rfl⟩, prices, ⟨hhours, hwithin, hperm⟩, table, htable, rfl⟩, hstorable⟩
    obtain ⟨hfirst, hmidnights, hfits⟩ := dayTable_iff.mp htable
    have hdays : DayTable table HOURS := (storable_iff hhours hfits).mp hstorable
    refine ⟨read, prices, table, hread, ⟨hhours, hwithin, ?_, hfirst, hmidnights, hdays⟩, rfl⟩
    exact ((((List.mergeSort_perm _ _).flatMap_right _).filter _).symm).trans hperm
  · rintro ⟨read, prices, table, hread, h, rfl⟩
    have hfits : ∀ n ∈ table, n < 65536 := by
      intro n hn
      have := (bounds_of_table h.days).2 n hn
      rw [HOURS] at this
      omega
    have hany : read.reduceOption ≠ [] := by
      intro hnil
      have hfirst := h.first
      rw [hnil] at hfirst
      simp [startsOf] at hfirst
    refine ⟨⟨_, ⟨read, hread, hany, rfl⟩, prices, ⟨h.hours, h.within, ?_⟩, table,
      dayTable_iff.mpr ⟨h.first, h.midnights, hfits⟩, rfl⟩, (storable_iff h.hours hfits).mpr h.days⟩
    exact (((List.mergeSort_perm _ _).flatMap_right _).filter _).trans h.entries

omit [Scalar F] in
/-- A directory listed in another order holds the same blocks. -/
theorem read_perm {parse : List Char → Option F} {files files' : List (List Char × List Char)}
    (hperm : files.Perm files') {read : List (Option (PriceBlock F))}
    (h : files.mapM (readBlock parse) = .ok read) :
    ∃ read', files'.mapM (readBlock parse) = .ok read' ∧ read.Perm read' := by
  rw [mapM_accepts] at h
  obtain ⟨read', hread', hall⟩ := List.perm_comp_forall₂ hperm.symm h
  exact ⟨read', mapM_accepts.mpr hread', hall.symm⟩

theorem says_perm {blocks blocks' : List (PriceBlock F)} (hperm : blocks.Perm blocks') {prices : List F}
    {table : List Nat} (h : Says blocks prices table) : Says blocks' prices table := by
  have hstarts : ∀ startMs endMs, startsOf startMs endMs blocks = startsOf startMs endMs blocks' := by
    intro startMs endMs
    have hsame : (startsOf startMs endMs blocks).Perm (startsOf startMs endMs blocks') :=
      (List.mergeSort_perm _ _).trans
        ((((hperm.map _).filter _)).trans (List.mergeSort_perm _ _).symm)
    apply hsame.eq_of_pairwise
    · intro a b _ _ hab hba
      exact le_antisymm hab hba
    · exact Ranking.pairwise_mergeSort_key id _
    · exact Ranking.pairwise_mergeSort_key id _
  have hfirst := h.first
  have hmidnights := h.midnights
  rw [hstarts] at hfirst hmidnights
  exact ⟨h.hours, h.within, (((hperm.flatMap_right _).filter _).symm).trans h.entries, hfirst, hmidnights,
    h.days⟩

theorem compilePrices_iff (display : F → String) (parse : List Char → Option F) (rawDir : String)
    (files : List (List Char × List Char)) (bytes : List UInt8) :
    compilePrices display parse rawDir files = some (.ok bytes) ↔
      ∃ read prices table, files.mapM (readBlock parse) = .ok read ∧ Says read.reduceOption prices table ∧
        bytes = writtenBytes (dataOf prices table) := by
  rw [compilePrices]
  constructor
  · intro h
    split at h
    · cases h
    · next data hdata =>
      have hstorable := storable_of_encode h
      obtain ⟨read, prices, table, hread, hsaid, rfl⟩ :=
        (compileData_iff display parse rawDir files data).mp ⟨hdata, hstorable⟩
      rw [encode_storable hstorable] at h
      cases h
      exact ⟨read, prices, table, hread, hsaid, rfl⟩
  · rintro ⟨read, prices, table, hread, hsaid, rfl⟩
    obtain ⟨hdata, hstorable⟩ := (compileData_iff display parse rawDir files _).mpr
      ⟨read, prices, table, hread, hsaid, rfl⟩
    rw [hdata]
    exact encode_storable hstorable

theorem says_storable {blocks : List (PriceBlock F)} {prices : List F} {table : List Nat}
    (h : Says blocks prices table) : Storable (dataOf prices table) := by
  apply (storable_iff h.hours _).mpr h.days
  intro n hn
  have hle := (bounds_of_table h.days).2 n hn
  rw [HOURS] at hle
  omega

/-- A price within the limits is stored to half a cent. -/
theorem cents_within {v : ℝ} (h : Within v) : |((cents v).toInt : ℝ) / 100 - v| ≤ 1 / 200 := by
  obtain ⟨hlow, hhigh⟩ := h
  have hround := abs_whole_sub (v * 100)
  rw [abs_le] at hround
  norm_num at hlow hhigh
  have hmin : (-50001 : Int) ≤ whole (v * 100) := by
    have : (-50001 : ℝ) ≤ whole (v * 100) := by linarith
    exact_mod_cast this
  have hmax : whole (v * 100) ≤ 400001 := by
    have : (whole (v * 100) : ℝ) ≤ 400001 := by linarith
    exact_mod_cast this
  have hhundred : (100.0 : ℝ) = 100 := by norm_num
  have hsat : toI32 (Scalar.round (v * 100.0)) = whole (v * 100) := by
    rw [toI32, hhundred, trunc_round]
    omega
  rw [cents, hsat, Int32.toInt_ofInt_of_le (by omega) (by omega), abs_le]
  constructor <;> linarith

/-- The compiler never panics; it writes bytes just when every block of the directory reads and
they say of the year what they have to, whatever order the directory is listed in; and these bytes decode
to the prices, each to half a cent, and to the table of local midnights. -/
theorem prices_compile (display : ℝ → String) (parse : List Char → Option ℝ) (rawDir : String)
    (files : List (List Char × List Char)) :
    (compilePrices display parse rawDir files).isSome ∧
      (∀ bytes, compilePrices display parse rawDir files = some (.ok bytes) ↔
        ∃ read prices table, files.mapM (readBlock parse) = .ok read ∧
          Says read.reduceOption prices table ∧ bytes = writtenBytes (dataOf prices table)) ∧
      (∀ files', files.Perm files' → ∀ bytes,
        compilePrices display parse rawDir files = some (.ok bytes) →
          compilePrices display parse rawDir files' = some (.ok bytes)) ∧
      ∀ (blocks : List (PriceBlock ℝ)) (prices : List ℝ) (table : List Nat), Says blocks prices table →
        decode (writtenBytes (dataOf prices table)) = some (.ok (dataOf prices table)) ∧
          (dataOf prices table).dayStarts.map UInt16.toNat = table ∧
          ∀ v ∈ prices, |((cents v).toInt : ℝ) / 100 - v| ≤ 1 / 200 := by
  refine ⟨?_, compilePrices_iff display parse rawDir files, fun files' hperm bytes h => ?_,
    fun blocks prices table h => ⟨decode_written (says_storable h), ?_, ?_⟩⟩
  · rw [compilePrices]
    split
    · rfl
    · exact encode_isSome _
  · obtain ⟨read, prices, table, hread, hsaid, rfl⟩ := (compilePrices_iff display parse rawDir files bytes).mp h
    obtain ⟨read', hread', hperm'⟩ := read_perm hperm hread
    exact (compilePrices_iff display parse rawDir files' _).mpr
      ⟨read', prices, table, hread', says_perm (hperm'.filterMap id) hsaid, rfl⟩
  · apply map_toNat
    intro n hn
    have hle := (bounds_of_table h.days).2 n hn
    rw [HOURS] at hle
    omega
  · exact fun v hv => cents_within (h.within v hv)

end BessMarket
