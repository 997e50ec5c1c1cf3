import BessEmulator.Accepted
import BessEmulator.Taps

/-!
# Offsets and durations

Two places add an offset and a duration as machine words: the check of a
backfill burst, and the end of a tap's window. Both are right exactly as long
as what they add fits a word.
-/
namespace BessOffsets

open Bess BessAccepted

variable {F : Type} [Scalar F]

omit [Scalar F] in
/-- The offset and the duration of an event that is a dropout on a surface. -/
def dropoutOn (surface : Surface) (e : ScenarioEvent F) : Option (Nat × Nat) :=
  match e.fault with
  | .physical _ _ => none
  | .data f =>
    if f.surface = surface ∧ f.fault = .dropout then some (e.atS, f.durationS.getD 0) else none

omit [Scalar F] in
/-- The dropouts on a surface, in file order. -/
def dropouts (surface : Surface) (es : List (ScenarioEvent F)) : List (Nat × Nat) :=
  es.filterMap (dropoutOn surface)

/-- Whether a dropout is over by an offset, added up as machine words. -/
def wrapsBy (atS : Nat) (p : Nat × Nat) : Bool := decide (U64.add p.1 p.2 ≤ atS)

/-- Whether it is over, as integers. -/
def overBy (atS : Nat) (p : Nat × Nat) : Bool := decide (p.1 + p.2 ≤ atS)

def fits (p : Nat × Nat) : Prop := p.1 + p.2 < U64.SIZE

omit [Scalar F] in
/-- An event is the burst `burst`. -/
def IsBurst (e : ScenarioEvent F) (burst : DataFault F) : Prop :=
  e.fault = .data burst ∧ burst.fault = .backfillBurst

omit [Scalar F] in
/-- The rule of bursts passes the whole list, as it did of an accepted file (`validate_passes`). -/
def Passes (es : List (ScenarioEvent F)) : Prop := ∀ i, backfillHasNothingToReplay i es = false

omit [Scalar F] in
/-- The ticks a fault lasts: an instant has none, and one without a duration goes on. -/
def Lasts (f : DataFault F) (start t : Nat) : Prop :=
  match f.fault, f.durationS with
  | .backfillBurst, _ => False
  | _, some d => start ≤ t ∧ t < start + d
  | _, none => start ≤ t

/-- Every sum fits a word, every burst is judged and every window laid as the integers have it. -/
structure NeverWraps (es : List (ScenarioEvent F)) : Prop where
  verdict : ∀ i e burst, es[i]? = some e → IsBurst e burst →
    (backfillHasNothingToReplay i es = false ↔
      ∃ p ∈ dropouts burst.surface es, p.1 + p.2 ≤ e.atS)
  /-- The check of a burst stops at the first dropout it finds over. -/
  checked : ∀ e ∈ es, ∀ burst, IsBurst e burst →
    ∀ p ∈ Bisect.looked (wrapsBy e.atS) (dropouts burst.surface es), fits p
  window : Passes es → ∀ (scenario : Scenario F) params points, scenario.events = es →
    ∀ w ∈ (Taps.new (scenario.resolve params) points).windows, ∃ e ∈ es, ∃ f,
      e.fault = .data f ∧ w = windowOf e.index e.atS f points ∧
      ∀ t < U64.SIZE, w.covers t = true ↔ Lasts f e.atS t
  laid : Passes es → ∀ e ∈ es, ∀ f d, e.fault = .data f → f.durationS = some d → fits (e.atS, d)

omit [Scalar F] in
/-- Up to the first dropout that is over by then, what a burst's check adds
fits; and where every burst finds one, so does what every data fault adds. -/
structure Fits (es : List (ScenarioEvent F)) : Prop where
  reached : ∀ e ∈ es, ∀ burst, IsBurst e burst →
    ∀ p ∈ Bisect.looked (overBy e.atS) (dropouts burst.surface es), fits p
  whole : (∀ e ∈ es, ∀ burst, IsBurst e burst → ∃ p ∈ dropouts burst.surface es, p.1 + p.2 ≤ e.atS) →
    ∀ e ∈ es, ∀ f d, e.fault = .data f → f.durationS = some d → fits (e.atS, d)

omit [Scalar F] in
theorem backfill_eq {es : List (ScenarioEvent F)} {i : Nat} {e : ScenarioEvent F}
    {burst : DataFault F} (he : es[i]? = some e) (hb : IsBurst e burst) :
    backfillHasNothingToReplay i es = !(dropouts burst.surface es).any (wrapsBy e.atS) := by
  rw [backfillHasNothingToReplay, he]
  simp only [hb.1, hb.2, decide_true, Bool.true_and]
  rw [dropouts, List.any_filterMap]
  congr 2
  funext d
  rw [dropoutOn]
  cases d.fault with
  | physical target action => rfl
  | data f =>
    by_cases hs : f.surface = burst.surface
    · by_cases hk : f.fault = .dropout <;> simp [hs, hk, wrapsBy]
    · simp [hs]

omit [Scalar F] in
/-- No other event is ever refused by the rule. -/
theorem passes_iff {es : List (ScenarioEvent F)} :
    Passes es ↔ ∀ i e burst, es[i]? = some e → IsBurst e burst →
      backfillHasNothingToReplay i es = false := by
  refine ⟨fun h i _ _ _ _ => h i, fun h i => ?_⟩
  cases he : es[i]? with
  | none => rw [backfillHasNothingToReplay, he]
  | some e =>
    cases hf : e.fault with
    | physical target action =>
      rw [backfillHasNothingToReplay, he]
      simp only [hf]
    | data burst =>
      by_cases hkind : burst.fault = .backfillBurst
      · exact h i e burst he ⟨hf, hkind⟩
      · rw [backfillHasNothingToReplay, he]
        simp [hf, hkind]

/-- An accepted file has passed it. -/
theorem validate_passes {file : File F} {cfg : PlantConfig F} {hash : UInt64}
    {scenario : Scenario F} (h : validate file cfg hash = .ok scenario) :
    Passes scenario.events := by
  obtain ⟨-, hevents, hbursts⟩ := validate_ok h
  intro i
  by_cases hi : i < file.events.length
  · have hmem : (file.events[i], i) ∈ file.events.zipIdx :=
      List.mem_zipIdx_iff_getElem?.mpr (List.getElem?_eq_getElem hi)
    simpa using List.find?_eq_none.mp hbursts _ hmem
  · rw [← accepted_length (checkEvents_accepted hevents), not_lt] at hi
    rw [backfillHasNothingToReplay, List.getElem?_eq_none hi]

theorem over_iff {atS : Nat} {ps : List (Nat × Nat)} :
    ps.any (overBy atS) = true ↔ ∃ p ∈ ps, p.1 + p.2 ≤ atS := by
  simp [overBy]

/-- Where the sums fit, machine words and integers agree. -/
theorem wraps_eq_over {atS : Nat} {p : Nat × Nat} (h : fits p) : wrapsBy atS p = overBy atS p := by
  rw [wrapsBy, overBy, U64.add_of_lt h]

/-- What one search adds fits just when what the other adds does. -/
theorem checked_iff {atS : Nat} {ps : List (Nat × Nat)} :
    (∀ p ∈ Bisect.looked (wrapsBy atS) ps, fits p) ↔
      ∀ p ∈ Bisect.looked (overBy atS) ps, fits p := by
  constructor
  · intro h
    rw [(Bisect.looked_congr fun p hp => wraps_eq_over (h p hp)).1]
    exact h
  · intro h
    rw [(Bisect.looked_congr fun p hp => (wraps_eq_over (h p hp)).symm).1]
    exact h

omit [Scalar F] in
/-- Where the sums it adds fit, the check is right. -/
theorem verdict_of_fits {es : List (ScenarioEvent F)} {i : Nat} {e : ScenarioEvent F}
    {burst : DataFault F} (he : es[i]? = some e) (hb : IsBurst e burst)
    (h : ∀ p ∈ Bisect.looked (overBy e.atS) (dropouts burst.surface es), fits p) :
    backfillHasNothingToReplay i es = false ↔
      ∃ p ∈ dropouts burst.surface es, p.1 + p.2 ≤ e.atS := by
  have hsame := (Bisect.looked_congr fun p hp => (wraps_eq_over (h p hp)).symm).2
  rw [backfill_eq he hb, hsame, ← over_iff, Bool.not_eq_false']

/-- Where its end fits, a window covers what the fault lasts. -/
theorem window_covers {f : DataFault F} {index start : Nat} (points : List (Point F))
    (h : ∀ d, f.durationS = some d → fits (start, d)) (t : Nat) :
    (windowOf index start f points).covers t = true ↔ Lasts f start t := by
  have hend : ∀ d, f.durationS = some d → U64.add start (d / TICK_SECONDS) = start + d := by
    intro d hd
    rw [TICK_SECONDS, Nat.div_one]
    exact U64.add_of_lt (h d hd)
  rw [Window.covers, windowOf, Lasts]
  dsimp only
  cases f.fault with
  | backfillBurst =>
    simp only [Bool.and_eq_true, decide_eq_true_eq, iff_false, not_and, not_lt]
    exact fun h => h
  | _ =>
    cases hd : f.durationS with
    | none => simp
    | some d => simp [hend d hd]

/-- Where it does not, the window ends before it starts. -/
theorem wrapped_empty {f : DataFault F} {index start d : Nat} (points : List (Point F))
    (hkind : f.fault ≠ .backfillBurst) (hd : f.durationS = some d) (hstart : start < U64.SIZE)
    (hlt : d < U64.SIZE) (h : ¬ fits (start, d)) (t : Nat) :
    (windowOf index start f points).covers t = false := by
  have hend : U64.add start (d / TICK_SECONDS) < start := by
    rw [TICK_SECONDS, Nat.div_one]
    exact U64.add_lt_left hlt (not_lt.mp h) hstart
  have hstop : (windowOf index start f points).stop = some (U64.add start (d / TICK_SECONDS)) := by
    rw [windowOf]
    dsimp only
    rw [hd]
    split
    · exact absurd ‹_› hkind
    · rfl
  rw [Window.covers, hstop]
  change (decide (start ≤ t) && decide (t < U64.add start (d / TICK_SECONDS))) = false
  by_cases ht : start ≤ t
  · simp [ht, (hend.trans_le ht).le]
  · simp [ht]

/-- The windows of a scenario are those of its data events. -/
theorem windows_of {scenario : Scenario F} {params : RunParams F} {points : List (Point F)}
    {w : Window F} (hw : w ∈ (Taps.new (scenario.resolve params) points).windows) :
    ∃ e ∈ scenario.events, ∃ f, e.fault = .data f ∧ w = windowOf e.index e.atS f points := by
  obtain ⟨s, hs, hsw⟩ := List.mem_filterMap.mp hw
  obtain ⟨e, he, rfl⟩ := List.mem_map.mp (List.mem_mergeSort.mp hs)
  rw [Scheduled.window] at hsw
  cases hf : e.fault with
  | physical target action => simp [ScenarioEvent.scheduled, hf] at hsw
  | data f =>
    simp only [ScenarioEvent.scheduled, hf, Option.some.injEq] at hsw
    refine ⟨e, he, f, hf, ?_⟩
    rw [← hsw, TICK_SECONDS, Nat.div_one]

/-- Offsets and durations that are read are words, and only spans have durations. -/
theorem accepted_words {cfg : PlantConfig F} {lengthS : Option Nat}
    {specs : List (Spanned (EventSpec F))} {index : Nat} {lastOn : LastOn}
    {es : List (ScenarioEvent F)} (h : Accepted cfg lengthS specs index lastOn es) :
    ∀ e ∈ es, e.atS < U64.SIZE ∧ ∀ f d, e.fault = .data f → f.durationS = some d →
      d < U64.SIZE ∧ f.fault ≠ .backfillBurst := by
  induction h with
  | nil index lastOn => exact fun e he => absurd he List.not_mem_nil
  | cons read within order more ih =>
    intro e he
    rcases List.mem_cons.mp he with rfl | he
    · obtain ⟨-, hat, hphysical | hdata⟩ := event_ok read
      · obtain ⟨path, -, hp⟩ := hphysical
        obtain ⟨target, action, hfault, -⟩ := physical_ok hp
        refine ⟨Duration.parse_lt hat, fun f d hf => ?_⟩
        rw [hfault] at hf
        cases hf
      · obtain ⟨surface, fault, hread, hfault⟩ := hdata
        refine ⟨Duration.parse_lt hat, fun f d hf hd => ?_⟩
        rw [hfault] at hf
        cases hf
        exact data_duration hread hd
    · exact ih e he

/-- In an accepted file, a fault whose end does not fit is never seen on its surface. -/
theorem wrapped_never_covers {file : File F} {cfg : PlantConfig F} {hash : UInt64}
    {scenario : Scenario F} (h : validate file cfg hash = .ok scenario) (points : List (Point F))
    {e : ScenarioEvent F} (he : e ∈ scenario.events) {f : DataFault F} (hf : e.fault = .data f)
    {d : Nat} (hd : f.durationS = some d) (hwrap : ¬ fits (e.atS, d)) (t : Nat) :
    (windowOf e.index e.atS f points).covers t = false := by
  obtain ⟨hat, hwords⟩ := accepted_words (checkEvents_accepted (validate_ok h).2.1) e he
  obtain ⟨hlt, hkind⟩ := hwords f d hf hd
  exact wrapped_empty points hkind hd hat hlt hwrap t

/-- For every list of events, nothing wraps just when what is added fits. -/
theorem never_wraps_iff (es : List (ScenarioEvent F)) : NeverWraps es ↔ Fits es := by
  constructor
  · intro h
    refine ⟨fun e he burst hb => checked_iff.mp (h.checked e he burst hb), fun hall => ?_⟩
    apply h.laid
    rw [passes_iff]
    intro i e burst he hb
    exact (h.verdict i e burst he hb).mpr (hall e (List.mem_of_getElem? he) burst hb)
  · intro h
    have hverdict : ∀ i e burst, es[i]? = some e → IsBurst e burst →
        (backfillHasNothingToReplay i es = false ↔
          ∃ p ∈ dropouts burst.surface es, p.1 + p.2 ≤ e.atS) := by
      intro i e burst he hb
      exact verdict_of_fits he hb (h.reached e (List.mem_of_getElem? he) burst hb)
    have hlaid : Passes es → ∀ e ∈ es, ∀ f d, e.fault = .data f → f.durationS = some d →
        fits (e.atS, d) := by
      intro hpasses
      apply h.whole
      intro e he burst hb
      obtain ⟨i, hi, rfl⟩ := List.getElem_of_mem he
      exact (hverdict i _ burst (List.getElem?_eq_getElem hi) hb).mp (hpasses i)
    refine ⟨hverdict, fun e he burst hb => checked_iff.mpr (h.reached e he burst hb), ?_, hlaid⟩
    rintro hpasses scenario params points rfl w hw
    obtain ⟨e, he, f, hf, rfl⟩ := windows_of hw
    exact ⟨e, he, f, hf, rfl, fun t _ =>
      window_covers points (fun d hd => hlaid hpasses e he f d hf hd) t⟩

/-- A dropout of every second a word can count, from the first on, and a burst after it. -/
def endlessFile : File ℝ where
  schema := ⟨1, 1, 9⟩
  name := ⟨"endless-dropout", 2, 7⟩
  seed := none
  start := none
  speed := none
  length := none
  events :=
    [⟨{ «at» := "PT1S"
        target := none
        surface := some .mqtt
        fault := "dropout"
        duration := some "PT18446744073709551615S"
        ratePctPerMonth := none
        points := none
        exponent := none
        ratePerMin := none
        driftSPerH := none }, 4, 5⟩,
      ⟨{ «at» := "PT2S"
         target := none
         surface := some .mqtt
         fault := "backfill_burst"
         duration := none
         ratePctPerMonth := none
         points := none
         exponent := none
         ratePerMin := none
         driftSPerH := none }, 5, 5⟩]

/-- Validation accepts the burst, though its dropout never ends; what the taps
make of it covers no tick (`wrapped_never_covers`). -/
theorem endless_dropout_accepted :
    ∃ scenario, validate endlessFile PlantConfig.gw01 1 = .ok scenario ∧
      ¬ NeverWraps scenario.events := by
  refine ⟨⟨⟨"endless-dropout", 1⟩, none, none, none, none,
    [⟨0, 1, .data ⟨.mqtt, .dropout, some 18446744073709551615, none, none, none, none⟩⟩,
      ⟨1, 2, .data ⟨.mqtt, .backfillBurst, none, none, none, none, none⟩⟩]⟩, rfl, fun h => ?_⟩
  obtain ⟨p, hp, hle⟩ := (h.verdict 1 _ _ rfl ⟨rfl, rfl⟩).mp rfl
  simp only [dropouts, dropoutOn, List.filterMap_cons, List.filterMap_nil, reduceCtorEq, and_true,
    and_false, if_true, if_false, Option.getD_some, List.mem_singleton] at hp
  subst hp
  change 1 + 18446744073709551615 ≤ 2 at hle
  omega

end BessOffsets
