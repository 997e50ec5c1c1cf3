import BessEmulator.Publication

/-!
# What a current record is

A record is current when the run, the counts and the periods are the measured ones and
every figure is near the measured one. The comparison says so: it looks at every place
of the two records, and has a line for each that differs.
-/
namespace BessPublished

open Bess Bench BessDrift

/-- Two values nowhere differ. -/
def Agree (a b : Json ℝ) : Prop := ∀ keys change, ¬Differs a b keys change

theorem agree_leaf {a b : Json ℝ} (hnot : ∀ as bs, a = .object as → b = .object bs → False) :
    Agree a b ↔ ¬Moved a b := by
  constructor
  · intro h hmoved
    exact h [] _ (differs_nil.mpr ⟨hmoved, rfl⟩)
  · intro h keys change hdiffers
    cases keys with
    | nil => exact h (differs_nil.mp hdiffers).1
    | cons key keys =>
      obtain ⟨as, bs, ha, hb⟩ := differs_objects hdiffers
      exact hnot as bs ha hb

theorem agree_objects {as bs : List (String × Json ℝ)} : Agree (.object as) (.object bs) ↔
    ∀ key keys change, ¬Below (as.lookup key) (bs.lookup key) keys change := by
  constructor
  · intro h key keys change hbelow
    exact h (key :: keys) change (differs_cons.mpr hbelow)
  · intro h keys change hdiffers
    cases keys with
    | nil => exact (differs_nil.mp hdiffers).1
    | cons key keys => exact h key keys change (differs_cons.mp hdiffers)

/-- Objects with one key more on both sides. -/
theorem agree_cons {key : String} {a b : Json ℝ} {as bs : List (String × Json ℝ)}
    (ha : key ∉ as.map Prod.fst) (hb : key ∉ bs.map Prod.fst) :
    Agree (.object ((key, a) :: as)) (.object ((key, b) :: bs)) ↔
      Agree a b ∧ Agree (.object as) (.object bs) := by
  rw [agree_objects, agree_objects]
  constructor
  · intro h
    constructor
    · intro keys change hdiffers
      apply h key keys change
      rw [List.lookup_cons_self, List.lookup_cons_self]
      exact hdiffers
    · intro other keys change hbelow
      by_cases hother : other = key
      · rw [hother, lookup_absent ha, lookup_absent hb] at hbelow
        exact hbelow
      · apply h other keys change
        rw [List.lookup_cons, List.lookup_cons, beq_false_of_ne hother]
        exact hbelow
  · rintro ⟨hab, hrest⟩ other keys change hbelow
    by_cases hother : other = key
    · rw [hother, List.lookup_cons_self, List.lookup_cons_self] at hbelow
      exact hab keys change hbelow
    · rw [List.lookup_cons, List.lookup_cons, beq_false_of_ne hother] at hbelow
      exact hrest other keys change hbelow

theorem agree_nil : Agree (.object []) (.object []) := agree_objects.mpr fun _ _ _ h => h

/-- Objects of the same keys agree where their values do. -/
theorem agree_fields {as bs : List (String × Json ℝ)} (hkeys : as.map Prod.fst = bs.map Prod.fst)
    (hnodup : (as.map Prod.fst).Nodup) :
    Agree (.object as) (.object bs) ↔ List.Forall₂ Agree (as.map Prod.snd) (bs.map Prod.snd) := by
  induction as generalizing bs with
  | nil =>
    cases bs with
    | nil => exact iff_of_true agree_nil List.Forall₂.nil
    | cons b bs => cases hkeys
  | cons a as ih =>
    cases bs with
    | nil => cases hkeys
    | cons b bs =>
      obtain ⟨key, a⟩ := a
      obtain ⟨key', b⟩ := b
      obtain ⟨rfl, hrest⟩ := List.cons.inj hkeys
      obtain ⟨hnot, hnodup⟩ := List.nodup_cons.mp hnodup
      rw [agree_cons hnot (hrest ▸ hnot), ih hrest hnodup, List.map_cons, List.map_cons, List.forall₂_cons]

/-- Figures within a thousandth of the larger, or of a thousandth; or neither a number. -/
def Near : Option ℝ → Option ℝ → Prop
  | some x, some y => |x - y| ≤ max (max |x| |y|) (1 / 1000) / 1000
  | none, none => True
  | _, _ => False

theorem not_stale {x y : ℝ} : ¬Stale x y ↔ Near (some x) (some y) := by
  rw [Stale, not_lt, Near]
  have hscale : (STALE_TOLERANCE : ℝ) * max (max (Scalar.abs x) (Scalar.abs y)) 1.0e-3 =
      max (max |x| |y|) (1 / 1000) / 1000 := by
    rw [STALE_TOLERANCE, Scalar.abs_real, Scalar.abs_real]
    norm_num
    ring
  rw [hscale]
  rfl

theorem agree_figure {key : String} {x y : Option ℝ} :
    Agree (figure (key, x)).2 (figure (key, y)).2 ↔ Near x y := by
  cases x with
  | some x =>
    cases y with
    | some y =>
      rw [agree_leaf fun _ _ h => by cases h]
      exact not_stale
    | none =>
      rw [agree_leaf fun _ _ h => by cases h]
      simp [figure, Moved, Near]
  | none =>
    cases y with
    | some y =>
      rw [agree_leaf fun _ _ h => by cases h]
      simp [figure, Moved, Near]
    | none =>
      rw [agree_leaf fun _ _ h => by cases h]
      simp [figure, Moved, Near]

theorem figure_keys (l : List (String × Option ℝ)) : (l.map figure).map Prod.fst = l.map Prod.fst := by
  rw [List.map_map]
  apply List.map_congr_left
  rintro ⟨key, x⟩ -
  cases x <;> rfl

/-- The figures of a section. -/
theorem agree_figures {ks ls : List (String × Option ℝ)} (hkeys : ks.map Prod.fst = ls.map Prod.fst)
    (hnodup : (ks.map Prod.fst).Nodup) :
    Agree (.object (ks.map figure)) (.object (ls.map figure)) ↔
      List.Forall₂ Near (ks.map Prod.snd) (ls.map Prod.snd) := by
  rw [agree_fields (by rw [figure_keys, figure_keys, hkeys]) (by rw [figure_keys]; exact hnodup)]
  simp only [List.forall₂_map_left_iff, List.forall₂_map_right_iff]
  induction ks generalizing ls with
  | nil =>
    cases ls with
    | nil => exact iff_of_true List.Forall₂.nil List.Forall₂.nil
    | cons l ls => cases hkeys
  | cons k ks ih =>
    cases ls with
    | nil => cases hkeys
    | cons l ls =>
      obtain ⟨key, x⟩ := k
      obtain ⟨key', y⟩ := l
      obtain ⟨rfl, hrest⟩ := List.cons.inj hkeys
      rw [List.forall₂_cons, List.forall₂_cons]
      exact and_congr agree_figure (ih hrest (List.nodup_cons.mp hnodup).2)

/-- Two ascending lists of counts with the same count for each name are one list. -/
theorem counts_ext {l l' : List (String × Nat)} (h : (l.map Prod.fst).Pairwise (· < ·))
    (h' : (l'.map Prod.fst).Pairwise (· < ·)) (hlookup : ∀ name, l.lookup name = l'.lookup name) : l = l' := by
  have hmem : ∀ l : List (String × Nat), (l.map Prod.fst).Pairwise (· < ·) →
      ∀ p : String × Nat, p ∈ l ↔ l.lookup p.1 = some p.2 := by
    intro l
    induction l with
    | nil => simp
    | cons q l ih =>
      obtain ⟨name, count⟩ := q
      intro hsorted p
      obtain ⟨hfirst, hrest⟩ := List.pairwise_cons.mp hsorted
      rw [List.mem_cons, ih hrest, List.lookup_cons]
      by_cases hp : p.1 = name
      · have habsent : l.lookup p.1 = none := by
          rw [List.lookup_eq_none_iff]
          intro q hq
          rw [bne_iff_ne, hp]
          intro hname
          have hlt := hfirst q.1 (List.mem_map_of_mem hq)
          rw [← hname] at hlt
          exact String.lt_irrefl _ hlt
        rw [habsent, hp, beq_self_eq_true]
        simp [Prod.ext_iff, hp, eq_comm]
      · rw [beq_false_of_ne hp]
        simp [Prod.ext_iff, hp]
  have hpairs : ∀ l : List (String × Nat), (l.map Prod.fst).Pairwise (· < ·) →
      l.Pairwise fun p q => p.1 < q.1 := fun l hl => List.pairwise_map.mp hl
  have : Std.Irrefl fun p q : String × Nat => p.1 < q.1 := ⟨fun p => String.lt_irrefl p.1⟩
  apply List.Pairwise.eq_of_mem_iff (hpairs l h) (hpairs l' h')
  intro p
  rw [hmem l h, hmem l' h', hlookup]

theorem agree_counts {k l : AlarmCounts} :
    Agree (.object (k.raisedByAlarm.map fun (name, count) => (name, .int count)))
        (.object (l.raisedByAlarm.map fun (name, count) => (name, .int count))) ↔
      k.raisedByAlarm = l.raisedByAlarm := by
  have hlookup : ∀ (l : List (String × Nat)) (name : String),
      (l.map fun (name, count) => (name, (.int count : Json ℝ))).lookup name =
        (l.lookup name).map fun count => .int count := by
    intro l name
    induction l with
    | nil => rfl
    | cons p l ih =>
      obtain ⟨other, count⟩ := p
      rw [List.map_cons, List.lookup_cons, List.lookup_cons]
      cases name == other with
      | true => rfl
      | false => exact ih
  rw [agree_objects]
  simp only [hlookup]
  constructor
  · intro h
    apply counts_ext k.ascending l.ascending
    intro name
    cases hk : k.raisedByAlarm.lookup name with
    | some x =>
      cases hl : l.raisedByAlarm.lookup name with
      | some y =>
        by_contra hne
        apply h name [] (.moved (.int x) (.int y))
        rw [hk, hl]
        apply differs_nil.mpr
        constructor
        · intro heq
          cases heq
          exact hne rfl
        · rfl
      | none =>
        refine (h name [] .missing ?_).elim
        rw [hk, hl]
        exact ⟨rfl, rfl⟩
    | none =>
      cases hl : l.raisedByAlarm.lookup name with
      | some y =>
        refine (h name [] .unmeasured ?_).elim
        rw [hk, hl]
        exact ⟨rfl, rfl⟩
      | none => rfl
  · intro h name keys change
    rw [h]
    cases l.raisedByAlarm.lookup name with
    | some x =>
      apply (agree_leaf fun _ _ h => by cases h).mpr
      exact fun hmoved => hmoved rfl
    | none => exact id

/-- A published record a measurement bears out. -/
structure Current (m p : Kpis ℝ) : Prop where
  run : m.run = p.run
  alarms : m.alarms = p.alarms
  periods : m.periods = p.periods
  energy : List.Forall₂ Near ((energyFigures m.energy).map Prod.snd) ((energyFigures p.energy).map Prod.snd)
  losses : List.Forall₂ Near ((lossFigures m.losses).map Prod.snd) ((lossFigures p.losses).map Prod.snd)
  thermal : List.Forall₂ Near ((thermalFigures m.thermal).map Prod.snd) ((thermalFigures p.thermal).map Prod.snd)
  hvac : List.Forall₂ Near ((hvacFigures m.hvac).map Prod.snd) ((hvacFigures p.hvac).map Prod.snd)

theorem agree_int {x y : Int} : Agree (.int x) (.int y) ↔ x = y := by
  rw [agree_leaf fun _ _ h => by cases h]
  simp [Moved]

theorem agree_string {x y : String} : Agree (.string x) (.string y) ↔ x = y := by
  rw [agree_leaf fun _ _ h => by cases h]
  simp [Moved]

theorem agree_run {r r' : RunRecord} : Agree (runValue r) (runValue r') ↔ r = r' := by
  rw [runValue, runValue, agree_fields (by rfl) (by simp)]
  simp only [List.map_cons, List.map_nil, List.forall₂_cons, List.forall₂_nil_right_iff, agree_int,
    agree_string, and_true, Nat.cast_inj]
  constructor
  · rintro ⟨hdays, hversion, hseed, hsite, hstart, hticks⟩
    obtain ⟨site, version, seed, start, days, ticks⟩ := r
    obtain rfl := UInt64.toNat_inj.mp hseed
    subst hdays hversion hsite hstart hticks
    rfl
  · rintro rfl
    exact ⟨rfl, rfl, rfl, rfl, rfl, rfl⟩

theorem agree_periods {k l : PeriodKpis} : Agree (periodsValue k) (periodsValue l) ↔ k = l := by
  rw [periodsValue, periodsValue, agree_fields (by rfl) (by simp)]
  simp only [List.map_cons, List.map_nil, List.forall₂_cons, List.forall₂_nil_right_iff, agree_int,
    and_true, Nat.cast_inj]
  constructor
  · rintro ⟨hclosed, hlong, hshort⟩
    obtain ⟨closed, short, long⟩ := k
    subst hclosed hlong hshort
    rfl
  · rintro rfl
    exact ⟨rfl, rfl, rfl⟩

theorem agree_alarms {k l : AlarmCounts} : Agree k.toValue l.toValue ↔ k = l := by
  rw [AlarmCounts.toValue, AlarmCounts.toValue, agree_fields (by rfl) (by simp)]
  simp only [List.map_cons, List.map_nil, List.forall₂_cons, List.forall₂_nil_right_iff, agree_int,
    and_true, Nat.cast_inj]
  rw [agree_counts]
  constructor
  · rintro ⟨hcounts, htrips, hwarnings⟩
    obtain ⟨trips, warnings, counts, hascending⟩ := k
    obtain ⟨trips', warnings', counts', hascending'⟩ := l
    subst hcounts htrips hwarnings
    rfl
  · rintro rfl
    exact ⟨rfl, rfl, rfl⟩

theorem energy_keys (k : EnergyKpis ℝ) : ((energyFigures k).map Prod.fst).Nodup := by simp [energyFigures]

theorem loss_keys (k : LossKpis ℝ) : ((lossFigures k).map Prod.fst).Nodup := by simp [lossFigures]

theorem thermal_keys (k : ThermalKpis ℝ) : ((thermalFigures k).map Prod.fst).Nodup := by
  simp [thermalFigures]

theorem hvac_keys (k : HvacKpis ℝ) : ((hvacFigures k).map Prod.fst).Nodup := by simp [hvacFigures]

theorem agree_records {m p : Kpis ℝ} : Agree m.toValue p.toValue ↔ Current m p := by
  rw [Kpis.toValue, Kpis.toValue, agree_fields (by rfl) (by simp)]
  simp only [List.map_cons, List.map_nil, List.forall₂_cons, List.forall₂_nil_right_iff, and_true]
  rw [agree_alarms, agree_periods, agree_run, agree_figures (by rfl) (energy_keys m.energy),
    agree_figures (by rfl) (hvac_keys m.hvac), agree_figures (by rfl) (loss_keys m.losses),
    agree_figures (by rfl) (thermal_keys m.thermal)]
  constructor
  · rintro ⟨halarms, henergy, hhvac, hlosses, hperiods, hrun, hthermal⟩
    exact ⟨hrun, halarms, hperiods, henergy, hlosses, hthermal, hhvac⟩
  · intro h
    exact ⟨h.alarms, h.energy, h.hvac, h.losses, h.periods, h.run, h.thermal⟩

/-- Fields whose values have nothing below them. -/
theorem keyed_leaves {fields : List (String × Json ℝ)} (hnodup : (fields.map Prod.fst).Nodup)
    (h : ∀ f ∈ fields, ∀ below, f.2 ≠ .object below) : Keyed (.object fields) := by
  have hfields : ∀ fields : List (String × Json ℝ), (∀ f ∈ fields, ∀ below, f.2 ≠ .object below) →
      KeyedFields fields := by
    intro fields
    induction fields with
    | nil => exact fun _ => trivial
    | cons f fields ih =>
      intro h
      obtain ⟨hf, hrest⟩ := List.forall_mem_cons.mp h
      obtain ⟨key, a⟩ := f
      constructor
      · cases a with
        | object below => exact absurd rfl (hf below)
        | null | bool | int | float | string | array => trivial
      · exact ih hrest
  exact ⟨hnodup, hfields fields h⟩

theorem keyed_figures {l : List (String × Option ℝ)} (hnodup : (l.map Prod.fst).Nodup) :
    Keyed (.object (l.map figure)) := by
  apply keyed_leaves
  · rw [figure_keys]
    exact hnodup
  · intro f hf below h
    obtain ⟨⟨key, x⟩, -, rfl⟩ := List.mem_map.mp hf
    cases x <;> cases h

theorem keyed_counts (k : AlarmCounts) :
    Keyed (.object (k.raisedByAlarm.map fun (name, count) => (name, .int count))) := by
  apply keyed_leaves
  · rw [List.map_map]
    have hnodup : (k.raisedByAlarm.map Prod.fst).Nodup := by
      apply k.ascending.imp
      rintro name _ hlt rfl
      exact String.lt_irrefl name hlt
    exact hnodup
  · intro f hf below h
    obtain ⟨⟨name, count⟩, -, rfl⟩ := List.mem_map.mp hf
    cases h

/-- A record has each key once. -/
theorem keyed_record (k : Kpis ℝ) : Keyed k.toValue := by
  have hrun : Keyed (runValue k.run) := keyed_leaves (by simp) (by simp)
  have hperiods : Keyed (periodsValue k.periods) := keyed_leaves (by simp) (by simp)
  have halarms : Keyed k.alarms.toValue := ⟨by simp, keyed_counts k.alarms, trivial, trivial, trivial⟩
  exact ⟨by simp, halarms, keyed_figures (energy_keys k.energy), keyed_figures (hvac_keys k.hvac),
    keyed_figures (loss_keys k.losses), hperiods, hrun, keyed_figures (thermal_keys k.thermal), trivial⟩

theorem drift_lists (m p : Kpis ℝ) : Lists "" (drift m p) (Differs m.toValue p.toValue) :=
  compare_places m.toValue p.toValue "" (keyed_record m) (keyed_record p)

theorem drift_empty {m p : Kpis ℝ} : drift m p = [] ↔ Agree m.toValue p.toValue := by
  obtain ⟨places, hlines, -, hmem⟩ := drift_lists m p
  rw [hlines, List.map_eq_nil_iff, List.eq_nil_iff_forall_not_mem]
  constructor
  · intro h keys change hdiffers
    exact h (keys, change) ((hmem keys change).mpr hdiffers)
  · rintro h ⟨keys, change⟩ hplace
    exact h keys change ((hmem keys change).mp hplace)

/-- The comparison of two records has one line for each place where they differ, and no
other: a figure off by more than a thousandth of the larger (of a thousandth where both
are smaller), another count or word, an alarm counted in one of them. So it is empty
exactly if the published record is current. -/
theorem drift_watches (m p : Kpis ℝ) :
    (∃ places : List (List String × Change ℝ),
      drift m p = places.map (fun place => ⟨place.1.foldl childPath "", place.2⟩) ∧
      (places.map Prod.fst).Nodup ∧
      ∀ keys change, (keys, change) ∈ places ↔ Differs m.toValue p.toValue keys change) ∧
    (drift m p = [] ↔ Current m p) :=
  ⟨drift_lists m p, drift_empty.trans agree_records⟩

end BessPublished
