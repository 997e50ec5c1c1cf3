import BessEmulator.Accepted
import BessEmulator.ViewerRuns
import Std.Data.String.ToInt

/-!
# The headless run

A case played for its length as fast as the machine allows, at the seed and start
of its file and the command line, the record of what it left, and the record held
against a committed one. The digest of the tree and the engine's version are
parameters; reading and writing the committed file is left out.
-/
namespace Bess.Headless

variable {F : Type} [Scalar F]

/-- The seed when neither a flag nor a file states one. -/
def DEFAULT_SEED : UInt64 := 42

/-- 2026-01-01 00:00:00 UTC. -/
def DEFAULT_START_UNIX_S : Int := 1767225600

/-- One simulated day in 24 wall-clock minutes. -/
def DEFAULT_SPEED : F := 60.0

/-- The flags a run is told its parameters by. -/
structure Args (F : Type) where
  seed : Option UInt64
  startUnix : Option Int
  speed : Option F

/-- A flag and the scenario disagree. -/
structure PrecedenceError where
  flag : String
  given : String
  field : String
  stated : String
  deriving DecidableEq, Repr

def PrecedenceError.display (err : PrecedenceError) : String :=
  err.flag ++ " " ++ err.given ++ " conflicts with the scenario's " ++ err.field ++ ", " ++
    err.stated ++ "; drop the flag or change the file"

/-- One parameter: the file's value when it states one, else the flag's, else the
default; a flag that disagrees with the file is refused. -/
def pick {T : Type} (same : T → T → Bool) (text : T → String) (flag : String × Option T)
    (field : String × Option T) (default : T) : Except PrecedenceError T :=
  match flag.2, field.2 with
  | some given, some stated =>
    if same given stated then .ok stated
    else .error ⟨flag.1, text given, field.1, text stated⟩
  | none, some stated => .ok stated
  | some given, none => .ok given
  | none, none => .ok default

/-- The run's parameters from the flags and the file, if any. `text` prints a speed. -/
def resolveParams (text : F → String) (args : Args F) (scenario : Option (Scenario F)) :
    Except PrecedenceError (RunParams F) := do
  let seed ← pick (fun x y => x == y) (fun x => Nat.repr x.toNat) ("--seed", args.seed)
    ("seed", scenario.bind Scenario.seed) DEFAULT_SEED
  let startUnixS ← pick (fun x y => x == y) Int.repr ("--start-unix", args.startUnix)
    ("start", scenario.bind Scenario.startUnixS) DEFAULT_START_UNIX_S
  let speed ← pick (fun x y => decide (x ≤ y) && decide (y ≤ x)) text ("--speed", args.speed)
    ("speed", scenario.bind Scenario.speed) DEFAULT_SPEED
  return ⟨seed, startUnixS, speed⟩

/-- The run's parameters and the scenario, if the command line names one. -/
def prepare (text : F → String) (args : Args F) (scenario : Option (Scenario F)) :
    Except PrecedenceError (RunParams F × Option (Resolved F)) := do
  let params ← resolveParams text args scenario
  return (params, scenario.map fun scenario => scenario.resolve params)

/-- The event log at the end: how many, and the hash of all. -/
structure EventLog where
  count : Nat
  digest : String
  deriving DecidableEq, Repr

/-- What a headless run leaves behind. -/
structure Record where
  scenario : String
  contentHash : String
  engineVersion : String
  seed : UInt64
  startUnixS : Int
  ticks : Nat
  stateDigest : String
  eventLog : EventLog
  revenuePeriodsClosed : Nat
  deriving DecidableEq, Repr

/-- Why a case has no record. -/
inductive RunError where
  | noLength
  | refused (refused : Refused)
  deriving DecidableEq, Repr

/-- `0x` and sixteen hex digits. -/
def hex (value : UInt64) : String :=
  let digits := Nat.toDigits 16 value.toNat
  "0x" ++ String.ofList (List.replicate (16 - digits.length) '0' ++ digits)

/-- The engine: its version, and the digest it takes of a tree. -/
structure Engine (F : Type) where
  version : String
  stateDigest : SiteState F → UInt64

/-- The record of a tree. -/
def record (engine : Engine F) (resolved : Resolved F) (ticks : Nat) (state : SiteState F) : Record where
  scenario := resolved.id.name
  contentHash := hex resolved.id.contentHash
  engineVersion := engine.version
  seed := resolved.params.seed
  startUnixS := resolved.params.startUnixS
  ticks := ticks
  stateDigest := hex (engine.stateDigest state)
  eventLog := ⟨state.eventLog.count, hex state.eventLog.digest⟩
  revenuePeriodsClosed := state.substation.revenue.periodsClosed

/-- So many ticks, up to the first refusal. -/
def playTicks (weather : Int → Inputs F) : Nat → Play F → Except Refused (Play F)
  | 0, p => .ok p
  | n + 1, p =>
    let (player, sim, fired) := p.player.fireDue p.sim
    match fired.refused with
    | some refused => .error refused
    | none => playTicks weather n ⟨sim.step (weather sim.state.unixTimeS), player⟩

/-- Play the scenario for its length and take the digest. -/
def run (engine : Engine F) (site : Reference F) (cfg : PlantConfig F) (resolved : Resolved F) :
    Except RunError Record :=
  match resolved.ticks with
  | none => .error .noLength
  | some ticks =>
    match playTicks site.inputsAt ticks (resolved.play cfg (site.models cfg)) with
    | .error refused => .error (.refused refused)
    | .ok p => .ok (record engine resolved ticks p.sim.state)

/-- Every field with its two texts. -/
def fields (recorded got : Record) : List (String × String × String) :=
  [("scenario", recorded.scenario, got.scenario),
    ("content_hash", recorded.contentHash, got.contentHash),
    ("engine_version", recorded.engineVersion, got.engineVersion),
    ("seed", Nat.repr recorded.seed.toNat, Nat.repr got.seed.toNat),
    ("start_unix_s", Int.repr recorded.startUnixS, Int.repr got.startUnixS),
    ("ticks", Nat.repr recorded.ticks, Nat.repr got.ticks),
    ("state_digest", recorded.stateDigest, got.stateDigest),
    ("event_log.count", Nat.repr recorded.eventLog.count, Nat.repr got.eventLog.count),
    ("event_log.digest", recorded.eventLog.digest, got.eventLog.digest),
    ("revenue_periods_closed", Nat.repr recorded.revenuePeriodsClosed,
      Nat.repr got.revenuePeriodsClosed)]

def differences (recorded got : Record) : List (String × String × String) :=
  (fields recorded got).filter fun f => f.2.1 ≠ f.2.2

/-- Compare with the record read from `path`: every field that differs, in one message. -/
def assert (path : String) (recorded digest : Record) : Except String Unit :=
  let differences := differences recorded digest
  if differences.isEmpty then .ok ()
  else
    .error (differences.foldl
        (fun why f => why ++ "  " ++ f.1 ++ ": recorded " ++ f.2.1 ++ ", got " ++ f.2.2 ++ "\n")
        (digest.scenario ++ " drifted from " ++ path ++ ":\n") ++
      "a deliberate physics change regenerates the record with --record; " ++
      "anything else is a regression")

end Bess.Headless

namespace BessHeadless

open Bess Bess.Viewer Bess.Headless BessCheckpoint BessViewer BessAccepted

variable {F : Type} [Scalar F]

/-- What a file states is what is picked, whatever the flag: one that disagrees is refused. -/
theorem pick_stated {T : Type} {same : T → T → Bool} {text : T → String} {flag : String × Option T}
    {field : String × Option T} {stated default v : T} (hfield : field.2 = some stated)
    (h : pick same text flag field default = .ok v) : v = stated := by
  rw [pick, hfield] at h
  cases hflag : flag.2 with
  | none =>
    rw [hflag] at h
    cases h
    rfl
  | some given =>
    simp only [hflag] at h
    split at h
    · cases h
      rfl
    · cases h

/-- A file that states its seed and its start is run at them, whatever flags are accepted. -/
theorem prepare_stated {text : F → String} {args : Args F} {scenario : Scenario F}
    {params : RunParams F} {resolved : Option (Resolved F)} {seed : UInt64} {startUnixS : Int}
    (hseed : scenario.seed = some seed) (hstart : scenario.startUnixS = some startUnixS)
    (h : prepare text args (some scenario) = .ok (params, resolved)) :
    resolved = some (scenario.resolve params) ∧ params.seed = seed ∧
      params.startUnixS = startUnixS := by
  rw [prepare] at h
  cases hparams : resolveParams text args (some scenario) with
  | error err =>
    rw [hparams] at h
    cases h
  | ok found =>
    rw [hparams] at h
    cases h
    simp only [resolveParams, bind, Except.bind] at hparams
    split at hparams
    · cases hparams
    next seed' hpick =>
    split at hparams
    · cases hparams
    next start' hpick' =>
    split at hparams
    · cases hparams
    cases hparams
    exact ⟨rfl, pick_stated hseed hpick, pick_stated hstart hpick'⟩

/-- On a plant that has every node its schedule names, the loop is the play's ticks. -/
theorem playTicks_ok {r : Resolved F} {pl : Plant F} {m : SiteMeta} {n : Nat} (weather : Int → Inputs F)
    (hr : ∀ s ∈ r.schedule, ∀ a, s.due = .physical a → (Target.of a).Exists pl.cfg) (ticks : Nat)
    {p : Play F} (h : OnTime r pl m n p) :
    playTicks weather ticks p = .ok (p.run weather (List.replicate ticks .tick)) := by
  induction ticks generalizing p n with
  | zero => rfl
  | succ ticks ih =>
    have hnever : (p.player.fireDue p.sim).2.2.refused = none := by
      refine fire_accepts h.sound ?_ none
      intro s hs a ha
      have hcfg : p.sim.cfg = pl.cfg := congrArg Plant.cfg h.plant
      have hmem : s ∈ p.player.schedule.drop p.player.cursor := List.takeWhile_subset _ hs
      rw [h.schedule] at hmem
      rw [hcfg]
      exact hr s (List.mem_of_mem_drop hmem) a ha
    rw [playTicks]
    simp only [hnever]
    exact ih (onTime_op weather h .tick)

/-- Ticks under the viewer are the play's. -/
theorem playOf_ticks (weather : Int → Inputs F) (n : Nat) (v : Run F × Journal) :
    playOf ((Run.tick weather)^[n] v).1 = (playOf v.1).run weather (List.replicate n .tick) := by
  induction n generalizing v with
  | zero => rfl
  | succ n ih =>
    rw [Function.iterate_succ_apply, ih, playOf_tick, List.replicate_succ]
    rfl

/-- Texts tell their values apart, so nothing differs exactly where the records agree. -/
theorem differences_nil_iff (recorded got : Record) : differences recorded got = [] ↔ recorded = got := by
  rw [differences, List.filter_eq_nil_iff]
  constructor
  · intro h
    simp only [fields, List.forall_mem_cons, decide_eq_true_eq, not_not, Nat.repr_inj, Int.repr_inj,
      UInt64.toNat_inj] at h
    obtain ⟨h1, h2, h3, h4, h5, h6, h7, h8, h9, h10, -⟩ := h
    obtain ⟨scenario, contentHash, engineVersion, seed, startUnixS, ticks, stateDigest, ⟨count, digest⟩,
      periods⟩ := recorded
    subst h1 h2 h3 h4 h5 h6 h7 h8 h9 h10
    rfl
  · intro h f hf
    rw [h] at hf
    simp only [fields, List.mem_cons, List.not_mem_nil, or_false] at hf
    rcases hf with rfl | rfl | rfl | rfl | rfl | rfl | rfl | rfl | rfl | rfl <;> simp

theorem assert_ok_iff (path : String) (recorded digest : Record) :
    Headless.assert path recorded digest = .ok () ↔ recorded = digest := by
  rw [← differences_nil_iff, Headless.assert]
  simp only [List.isEmpty_iff]
  split
  · next h => exact ⟨fun _ => h, fun _ => rfl⟩
  · next h => exact ⟨nofun, fun hnil => absurd hnil h⟩

section

variable {site : Site F} {cfg : PlantConfig F} {s : Session F}

/-- What a case's file leaves out comes from the session. -/
def paramsOf (s : Session F) (scenario : Scenario F) : RunParams F where
  seed := scenario.seed.getD s.seed
  startUnixS := scenario.startUnixS.getD s.run.unixTimeS
  speed := scenario.speed.getD s.speed

theorem play_run (site : Site F) (hcfg : s.run.sim.cfg = cfg) (scenario : Scenario F) :
    (s.play site scenario).run =
      Run.playing (scenario.resolve (paramsOf s scenario)) cfg (site.models cfg) := by
  rw [← hcfg]
  rfl

/-- A case run to its end: a jump over its length, none where there is nothing to run. -/
theorem runToEnd_jump (site : Site F) (hcfg : s.run.sim.cfg = cfg) (scenario : Scenario F) {ticks : Nat}
    (hticks : (scenario.resolve (paramsOf s scenario)).ticks = some ticks) :
    let start := (scenario.resolve (paramsOf s scenario)).params.startUnixS
    (s.play site scenario).apply site .runToEnd =
      { s.play site scenario with
        jump := if ticks = 0 then none else some ⟨start, start + ticks⟩ } := by
  intro start
  have hrun := play_run site hcfg scenario
  have hnow : (s.play site scenario).run.unixTimeS = start := by
    rw [hrun]
    exact add_zero start
  have hend : (s.play site scenario).run.endUnixS = some (start + ticks) := by
    rw [hrun]
    change (do
      let ticks ← (scenario.resolve (paramsOf s scenario)).ticks
      return start + ((ticks * TICK_SECONDS : Nat) : Int)) = _
    rw [hticks]
    change some (start + ((ticks * 1 : Nat) : Int)) = _
    rw [Nat.mul_one]
  have hjump : (s.play site scenario).jump = none := rfl
  rw [Session.apply, hend, Session.jumpTo, hjump]
  simp only [Option.bind_some, FastForward.toward, hnow]
  by_cases hzero : ticks = 0
  · rw [if_neg (by omega), if_pos hzero]
  · rw [if_pos (by omega), if_neg hzero]

/-- The tree of a session that played a case to its end. -/
theorem shown_play (hcfg : s.run.sim.cfg = cfg) (scenario : Scenario F) {ticks : Nat}
    (hticks : (scenario.resolve (paramsOf s scenario)).ticks = some ticks) (dts : List F)
    (hframes : dts.length = (ticks + (JUMP_TICKS_PER_FRAME - 1)) / JUMP_TICKS_PER_FRAME) :
    playOf (s.inputs site (.load scenario :: .command .runToEnd :: dts.map .frame)).run =
      ((scenario.resolve (paramsOf s scenario)).play cfg (site.models cfg)).run site.inputsAt
        (List.replicate ticks .tick) := by
  have hrun := play_run site hcfg scenario
  have hjump := runToEnd_jump site hcfg scenario hticks
  rw [JUMP_TICKS_PER_FRAME] at hframes
  rw [Session.inputs, List.foldl_cons, List.foldl_cons, Session.input, Session.input, hjump,
    ← Session.inputs]
  rcases Nat.eq_zero_or_pos ticks with hzero | hpos
  · rw [hzero] at hframes
    have hnil : dts = [] := List.length_eq_zero_iff.mp (by omega)
    rw [hnil, hzero]
    exact congrArg playOf hrun
  · have hpositive : ticks ≠ 0 := by omega
    rw [if_neg hpositive]
    let start := (scenario.resolve (paramsOf s scenario)).params.startUnixS
    let jump : FastForward := ⟨start, start + ticks⟩
    let ready : Session F := { s.play site scenario with jump := some jump }
    have hnow : ready.run.unixTimeS = start := by
      change (s.play site scenario).run.unixTimeS = start
      rw [hrun]
      exact add_zero start
    have hdistance : distance jump ready.run = ticks := by
      rw [distance, hnow]
      change (start + ticks - start).toNat = ticks
      omega
    have hahead : ready.run.unixTimeS < jump.targetUnixS := by
      rw [hnow]
      change start < start + ticks
      omega
    have hset : ready.jump = some jump := rfl
    obtain ⟨hticked, -⟩ := frames_jump site hset hahead dts (by
      rw [hdistance, JUMP_TICKS_PER_FRAME]
      omega)
    have hall : min (dts.length * JUMP_TICKS_PER_FRAME) ticks = ticks := by
      rw [JUMP_TICKS_PER_FRAME]
      omega
    rw [hdistance, hall] at hticked
    have hshown := congrArg Prod.fst hticked
    have hready : playOf ready.run =
        (scenario.resolve (paramsOf s scenario)).play cfg (site.models cfg) := congrArg playOf hrun
    change playOf (ready.inputs site (dts.map .frame)).run = _
    change (ready.inputs site (dts.map .frame)).run = _ at hshown
    rw [hshown, playOf_ticks, hready]

end

/-- The speed decides how fast a run is watched, not what is run. -/
theorem resolve_play (scenario : Scenario F) (models : Models F) {p q : RunParams F}
    (hseed : p.seed = q.seed) (hstart : p.startUnixS = q.startUnixS) :
    (scenario.resolve p).play cfg models = (scenario.resolve q).play cfg models := by
  obtain ⟨seed, startUnixS, speed⟩ := p
  obtain ⟨seed', startUnixS', speed'⟩ := q
  cases hseed
  cases hstart
  rfl

/-- An accepted file that states a length plays to its end, no node being missing. -/
theorem run_ok (engine : Engine F) (site : Reference F) {file : File F} {hash : UInt64}
    {scenario : Scenario F} (h : validate file cfg hash = .ok scenario) (params : RunParams F)
    {ticks : Nat} (hticks : (scenario.resolve params).ticks = some ticks) :
    Headless.run engine site cfg (scenario.resolve params) =
      .ok (record engine (scenario.resolve params) ticks
        (((scenario.resolve params).play cfg (site.models cfg)).run site.inputsAt
          (List.replicate ticks .tick)).sim.state) := by
  have hplayed := playTicks_ok site.inputsAt (accepted_exists h params) ticks
    (onTime_play (scenario.resolve params) cfg (site.models cfg))
  rw [Headless.run, hticks]
  simp only [hplayed]

/-- What a committed record holds is what is shown. An accepted file that states its seed, its
start and a length, on any command line that does not contradict it, plays headless without a
refusal, and its record passes exactly if it is the record of the tree a viewer shows after loading
the file and running it to its end, whatever its session did before and however long its frames; a
file that states no length has no record. -/
theorem headless_is_shown (engine : Engine F) (site : Site F) {file : File F} {cfg : PlantConfig F}
    {hash : UInt64} {scenario : Scenario F} (h : validate file cfg hash = .ok scenario)
    {seed : UInt64} {startUnixS : Int} (hseed : scenario.seed = some seed)
    (hstart : scenario.startUnixS = some startUnixS) {text : F → String} {args : Args F}
    {params : RunParams F} {prepared : Option (Resolved F)}
    (hargs : prepare text args (some scenario) = .ok (params, prepared))
    (is : List (Session.Input F)) :
    ∃ resolved, prepared = some resolved ∧
      let s := (Session.new site cfg).inputs site is
      let digest := Headless.run engine site.toReference cfg resolved
      (resolved.ticks = none → digest = .error .noLength) ∧
        ∀ (ticks : Nat) (dts : List F), resolved.ticks = some ticks →
          dts.length = (ticks + (JUMP_TICKS_PER_FRAME - 1)) / JUMP_TICKS_PER_FRAME →
          let shown := s.inputs site (.load scenario :: .command .runToEnd :: dts.map .frame)
          ∃ got, digest = .ok got ∧ ∀ path recorded, Headless.assert path recorded got = .ok () ↔
            recorded = record engine resolved ticks shown.run.sim.state := by
  obtain ⟨rfl, hparamsSeed, hparamsStart⟩ := prepare_stated hseed hstart hargs
  refine ⟨scenario.resolve params, rfl, ?_⟩
  intro s digest
  have hcfg : s.run.sim.cfg = cfg := genuine_cfg (genuine_inputs (genuine_new site cfg) is)
  constructor
  · intro hnone
    change Headless.run engine site.toReference cfg (scenario.resolve params) = _
    rw [Headless.run, hnone]
  · intro ticks dts hticks hframes shown
    have hsameSeed : params.seed = (paramsOf s scenario).seed := by
      rw [hparamsSeed, paramsOf, hseed]
      rfl
    have hsameStart : params.startUnixS = (paramsOf s scenario).startUnixS := by
      rw [hparamsStart, paramsOf, hstart]
      rfl
    have hshown : playOf shown.run =
        ((scenario.resolve params).play cfg (site.models cfg)).run site.inputsAt
          (List.replicate ticks .tick) := by
      rw [resolve_play scenario (site.models cfg) hsameSeed hsameStart]
      exact shown_play hcfg scenario hticks dts hframes
    have hsim : shown.run.sim = (playOf shown.run).sim := rfl
    refine ⟨record engine (scenario.resolve params) ticks shown.run.sim.state, ?_,
      fun path recorded => assert_ok_iff path recorded _⟩
    rw [hsim, hshown]
    exact run_ok engine site.toReference h params hticks

/-- Half a second watched, then the shift at its own seed and start, the speed a
flag's; the seed a flag states is the file's. -/
theorem headless_is_shown_shift :
    let engine : Engine ℝ := ⟨"0.6.1", fun state => UInt64.ofNat state.tick⟩
    let site : Site ℝ := { Reference.idle with library := fun _ _ => none }
    let before : List (Session.Input ℝ) := [.frame 0.5, .command (.setSpeed 3600)]
    let s := (Session.new site PlantConfig.gw01).inputs site before
    let dts : List ℝ := [0.016]
    let shown := s.inputs site (.load shiftScenario :: .command .runToEnd :: dts.map .frame)
    ∃ resolved got,
      prepare (fun _ => "3600") ⟨some 42, none, some 3600.0⟩ (some shiftScenario) =
        .ok (⟨42, 1767225600, 3600.0⟩, some resolved) ∧
      Headless.run engine site.toReference PlantConfig.gw01 resolved = .ok got ∧
      Headless.assert "shift-2.digest.json" (record engine resolved 120 shown.run.sim.state) got =
        .ok () := by
  intro engine site before s dts shown
  subst shown s
  have h : validate shiftFile PlantConfig.gw01 1 = .ok shiftScenario := rfl
  have hargs : prepare (fun _ => "3600") ⟨some 42, none, some 3600.0⟩ (some shiftScenario) =
      .ok (⟨42, 1767225600, 3600.0⟩, some (shiftScenario.resolve ⟨42, 1767225600, 3600.0⟩)) := rfl
  obtain ⟨resolved, hresolved, -, hlength⟩ :=
    headless_is_shown engine site h rfl rfl hargs before
  cases hresolved
  have hticks : (shiftScenario.resolve ⟨42, 1767225600, 3600.0⟩).ticks = some 120 := rfl
  have hframes : dts.length = (120 + (JUMP_TICKS_PER_FRAME - 1)) / JUMP_TICKS_PER_FRAME := by
    rw [JUMP_TICKS_PER_FRAME, List.length_singleton]
  obtain ⟨got, hgot, hholds⟩ := hlength 120 dts hticks hframes
  have hpasses := (hholds "shift-2.digest.json" _).mpr (Eq.refl _)
  exact ⟨_, got, hargs, hgot, hpasses⟩

end BessHeadless
