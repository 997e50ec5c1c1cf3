import BessEmulator.Calendar
import BessEmulator.Duration
import BessEmulator.TargetPath

/-!
# Validation of a scenario file

Every rule a parsed file must pass before it is a scenario: the top-level
fields, the one-of rule, the (kind, fault) table of physical events, the
(surface, fault) matrix of data events, each target's order, and the dropout a
backfill burst needs.
-/
namespace Bess

/-- A value and where the file has it. -/
structure Spanned (α : Type) where
  value : α
  line : Nat
  column : Nat

section

variable (F : Type)

structure EventSpec where
  «at» : String
  target : Option String
  surface : Option Surface
  fault : String
  duration : Option String
  ratePctPerMonth : Option (Rate F)
  points : Option String
  exponent : Option Int
  ratePerMin : Option F
  driftSPerH : Option F

structure File where
  schema : Spanned Nat
  name : Spanned String
  seed : Option UInt64
  start : Option (Spanned String)
  speed : Option (Spanned F)
  length : Option (Spanned String)
  events : List (Spanned (EventSpec F))

/-- Where a file breaks a rule. -/
inductive Position where
  | line (line column : Nat)
  | event (index : Nat) (field : String) (line : Nat)
  deriving DecidableEq, Repr

inductive Reason where
  | unsupportedSchema (schema : Nat)
  | badName (name : String)
  | badStart (value why : String)
  | zeroLength
  | eventAfterLength (lengthS : Nat)
  | speedOutOfRange (speed : F)
  | bothTargetAndSurface
  | neitherTargetNorSurface
  | badDuration (e : DurationError)
  | badTarget (e : TargetError)
  | badPoints (e : TargetError)
  | backfillWithoutDropout
  | faultNotForTarget (fault kind allowed : String)
  | unknownDataFault (fault : String)
  | faultNotForSurface (fault surface why : String)
  | durationRequired (fault : String)
  | durationForbidden (fault : String)
  | zeroDuration (fault : String)
  | parameterMissing (fault parameter : String)
  | parameterNotTaken (fault parameter : String)
  | parameterOutOfRange (parameter : String) (value : F) (range : String)
  | sharedTick (other : Nat)
  | outOfOrder (other : Nat)

structure LoadError where
  position : Position
  reason : Reason F

/-- A rule broken by one event: the field at fault and why. -/
abbrev Refusal := String × Reason F

end

def Surface.name : Surface → String
  | .mqtt => "mqtt"
  | .modbus => "modbus"

namespace DataFaultKind

def name : DataFaultKind → String
  | .dropout => "dropout"
  | .freeze => "freeze"
  | .unitError => "unit_error"
  | .chatter => "chatter"
  | .timestampDrift => "timestamp_drift"
  | .nanBurst => "nan_burst"
  | .backfillBurst => "backfill_burst"

/-- `DataFaultKind::ALL`. -/
def all : List DataFaultKind :=
  [.dropout, .freeze, .unitError, .chatter, .timestampDrift, .nanBurst, .backfillBurst]

/-- The kind a name spells, if any. -/
def fromName (name : String) : Option DataFaultKind := all.find? fun k => k.name = name

end DataFaultKind

/-- The fault's name as a file spells it. -/
def FaultAction.name : FaultAction → String
  | .hvacFailure _ _ => "failure"
  | .hvacRepair _ _ => "repair"
  | .pcsTrip _ => "trip"
  | .protectionTrip => "protection_trip"
  | .rackSelfDischarge _ _ _ _ => "self_discharge"
  | .rackIsolate _ _ _ => "isolate"
  | .rackRestore _ _ _ => "restore"
  | .blockMaintenanceEnter _ => "maintenance_enter"
  | .blockMaintenanceExit _ => "maintenance_exit"
  | .alarmReset _ => "alarm_reset"

variable {F : Type} [Scalar F]

omit [Scalar F] in
/-- Refuse any parameter the fault does not take. -/
def onlyTaken (spec : EventSpec F) (fault : String) (takes : List String) :
    Except (Refusal F) Unit :=
  let given :=
    [("rate_pct_per_month", spec.ratePctPerMonth.isSome), ("points", spec.points.isSome),
      ("exponent", spec.exponent.isSome), ("rate_per_min", spec.ratePerMin.isSome),
      ("drift_s_per_h", spec.driftSPerH.isSome)]
  match given.find? fun p => p.2 && !takes.contains p.1 with
  | some (parameter, _) => .error (parameter, .parameterNotTaken fault parameter)
  | none => .ok ()

/-- A leak's rate is in range, and a range rises. -/
def checkRate (rate : Rate F) : Except (Refusal F) Unit :=
  let out := fun value : F =>
    .error ("rate_pct_per_month", .parameterOutOfRange "rate_pct_per_month" value
      "0.1 to 100 (a range as [lo, hi] with lo below hi)")
  let ok := fun v : F => decide (0.1 ≤ v) && decide (v ≤ 100.0)
  match rate with
  | .fixed v => if !ok v then out v else .ok ()
  | .range lo hi =>
    if !ok lo then out lo
    else if !ok hi || decide (hi ≤ lo) then out hi
    else .ok ()

def allowed : Target → String
  | .site => "protection_trip or alarm_reset"
  | .block _ => "maintenance_enter, maintenance_exit or alarm_reset"
  | .pcs _ => "trip"
  | .hvac _ _ => "failure or repair"
  | .rack _ _ _ => "self_discharge, isolate, restore or alarm_reset"

omit [Scalar F] in
def notFor {α : Type} (spec : EventSpec F) (target : Target) : Except (Refusal F) α :=
  .error ("fault", .faultNotForTarget spec.fault target.kind (allowed target))

omit [Scalar F] in
/-- A reset, on a node that has a scope for one. -/
def resetAction (spec : EventSpec F) (target : Target) : Except (Refusal F) (PendingAction F) :=
  match target.resetScope with
  | some scope => .ok (.ready (.alarmReset scope))
  | none => notFor spec target

def leakAction (spec : EventSpec F) (b c r : Nat) : Except (Refusal F) (PendingAction F) :=
  match spec.ratePctPerMonth with
  | none => .error ("rate_pct_per_month", .parameterMissing "self_discharge" "rate_pct_per_month")
  | some rate =>
    match checkRate rate with
    | .error e => .error e
    | .ok _ => .ok (.selfDischarge b c r rate)

/-- The (kind, fault) table. -/
def pendingAction (spec : EventSpec F) (target : Target) :
    Except (Refusal F) (PendingAction F) :=
  if spec.fault = "alarm_reset" then resetAction spec target
  else
    match target with
    | .hvac b c =>
      if spec.fault = "failure" then .ok (.ready (.hvacFailure b c))
      else if spec.fault = "repair" then .ok (.ready (.hvacRepair b c))
      else notFor spec target
    | .pcs b =>
      if spec.fault = "trip" then .ok (.ready (.pcsTrip b)) else notFor spec target
    | .site =>
      if spec.fault = "protection_trip" then .ok (.ready .protectionTrip) else notFor spec target
    | .block b =>
      if spec.fault = "maintenance_enter" then .ok (.ready (.blockMaintenanceEnter b))
      else if spec.fault = "maintenance_exit" then .ok (.ready (.blockMaintenanceExit b))
      else notFor spec target
    | .rack b c r =>
      if spec.fault = "isolate" then .ok (.ready (.rackIsolate b c r))
      else if spec.fault = "restore" then .ok (.ready (.rackRestore b c r))
      else if spec.fault = "self_discharge" then leakAction spec b c r
      else notFor spec target

omit [Scalar F] in
def PendingAction.name : PendingAction F → String
  | .ready a => a.name
  | .selfDischarge _ _ _ _ => "self_discharge"

/-- `physical::physical`. -/
def physical (spec : EventSpec F) (path : String) (cfg : PlantConfig F) :
    Except (Refusal F) (Fault F) :=
  match Target.parse path cfg with
  | .error e => .error ("target", .badTarget e)
  | .ok target =>
    match pendingAction spec target with
    | .error e => .error e
    | .ok action =>
      let fault := action.name
      if spec.duration.isSome then .error ("duration", .durationForbidden fault)
      else
        let takes := if fault = "self_discharge" then ["rate_pct_per_month"] else []
        match onlyTaken spec fault takes with
        | .error e => .error e
        | .ok _ => .ok (.physical target action)

/-- Why Modbus cannot have a fault, if it cannot. -/
def modbusLacks : DataFaultKind → Option String
  | .timestampDrift => some "Modbus has no wire timestamp"
  | .nanBurst => some "a u16 register cannot say NaN"
  | .backfillBurst => some "a register bank has no replay"
  | _ => none

omit [Scalar F] in
/-- The duration rule of a kind. -/
def durationS (spec : EventSpec F) (kind : DataFaultKind) : Except (Refusal F) (Option Nat) :=
  match spec.duration, kind with
  | some _, .backfillBurst => .error ("duration", .durationForbidden kind.name)
  | none, .unitError | none, .backfillBurst => .ok none
  | none, _ => .error ("duration", .durationRequired kind.name)
  | some d, _ =>
    match Duration.parse d with
    | .error e => .error ("duration", .badDuration e)
    | .ok 0 => .error ("duration", .zeroDuration kind.name)
    | .ok seconds => .ok (some seconds)

/-- The parameters a kind takes. -/
def DataFaultKind.takes : DataFaultKind → List String
  | .dropout | .backfillBurst => []
  | .freeze | .nanBurst => ["points"]
  | .unitError => ["points", "exponent"]
  | .chatter => ["points", "rate_per_min"]
  | .timestampDrift => ["drift_s_per_h"]

omit [Scalar F] in
/-- The points of a kind that takes a selection, all of them by default. -/
def selection (spec : EventSpec F) (kind : DataFaultKind) (cfg : PlantConfig F) :
    Except (Refusal F) (Option Selector) :=
  match spec.points, kind.takes.contains "points" with
  | some text, true =>
    match Selector.parse text cfg with
    | .error e => .error ("points", .badPoints e)
    | .ok selector => .ok (some selector)
  | none, true => .ok (some .all)
  | _, false => .ok none

/-- The one parameter beside the points, by kind. -/
def withParameter (spec : EventSpec F) (fault : DataFault F) : Except (Refusal F) (DataFault F) :=
  let name := fault.fault.name
  match fault.fault with
  | .unitError =>
    let exponent := spec.exponent.getD 3
    if exponent = 0 then
      .error ("exponent", .parameterOutOfRange "exponent" 0.0 "the nonzero integers")
    else .ok { fault with exponent := some exponent }
  | .chatter =>
    match spec.ratePerMin with
    | none => .error ("rate_per_min", .parameterMissing name "rate_per_min")
    | some rate =>
      if decide (0.1 ≤ rate) && decide (rate ≤ 60.0) then
        .ok { fault with ratePerMin := some rate }
      else .error ("rate_per_min", .parameterOutOfRange "rate_per_min" rate "0.1 to 60")
  | .timestampDrift =>
    match spec.driftSPerH with
    | none => .error ("drift_s_per_h", .parameterMissing name "drift_s_per_h")
    | some drift =>
      -- a finite number less itself is zero, an infinity or a NaN is not
      if (decide (drift ≤ 0.0) && decide (0.0 ≤ drift)) || !decide (drift - drift ≤ 0.0) then
        .error ("drift_s_per_h",
          .parameterOutOfRange "drift_s_per_h" drift "the nonzero finite numbers")
      else .ok { fault with driftSPerH := some drift }
  | _ => .ok fault

/-- `data::data`. -/
def data (spec : EventSpec F) (surface : Surface) (cfg : PlantConfig F) :
    Except (Refusal F) (DataFault F) :=
  match DataFaultKind.fromName spec.fault with
  | none => .error ("fault", .unknownDataFault spec.fault)
  | some kind =>
    match surface, modbusLacks kind with
    | .modbus, some why => .error ("fault", .faultNotForSurface kind.name surface.name why)
    | _, _ =>
      match durationS spec kind with
      | .error e => .error e
      | .ok durationS =>
        match onlyTaken spec kind.name kind.takes with
        | .error e => .error e
        | .ok _ =>
          match selection spec kind cfg with
          | .error e => .error e
          | .ok points =>
            withParameter spec
              { surface := surface
                fault := kind
                durationS := durationS
                points := points
                exponent := none
                ratePerMin := none
                driftSPerH := none }

def event (index : Nat) (spec : EventSpec F) (cfg : PlantConfig F) :
    Except (Refusal F) (ScenarioEvent F) :=
  match Duration.parse spec.at with
  | .error e => .error ("at", .badDuration e)
  | .ok atS =>
    match spec.target, spec.surface with
    | some _, some _ => .error ("surface", .bothTargetAndSurface)
    | none, none => .error ("target", .neitherTargetNorSurface)
    | some path, none => (physical spec path cfg).map fun fault => ⟨index, atS, fault⟩
    | none, some surface => (data spec surface cfg).map fun fault => ⟨index, atS, .data fault⟩

/-- What the characters of a start stamp must be, by place. -/
def stampShape (chars : List Char) : Bool :=
  chars.length = 20 && chars.zipIdx.all fun (c, i) =>
    match i with
    | 4 | 7 => c = '-'
    | 10 => c = 'T'
    | 13 | 16 => c = ':'
    | 19 => c = 'Z'
    | _ => c.isDigit

/-- `YYYY-MM-DDThh:mm:ssZ` to unix seconds. -/
def parseStart (text : String) : Except String Int :=
  let chars := text.toList
  if chars.any fun c => c = '.' ∨ c = ',' then .error "whole seconds only, no fraction"
  else if chars.getLast? ≠ some 'Z' then .error "UTC only: end with Z, no offset"
  else if !stampShape chars then .error "the form is YYYY-MM-DDThh:mm:ssZ"
  else
    let num := fun lo hi : Nat =>
      (((chars.drop lo).take (hi - lo)).foldl (fun n c => 10 * n + U64.digit c) 0 : Int)
    let date := (num 0 4, num 5 7, num 8 10)
    let hour := num 11 13
    let minute := num 14 16
    let second := num 17 19
    let days := Calendar.daysFromCivil date.1 date.2.1 date.2.2
    let realDate := decide (1 ≤ date.2.1 ∧ date.2.1 ≤ 12) &&
      decide (Calendar.civilFromDays days = date)
    if !realDate || 23 < hour || 59 < minute || 59 < second then
      .error "not a calendar date and time"
    else .ok (days * 86400 + hour * 3600 + minute * 60 + second)

omit [Scalar F] in
/-- A refusal of the value at a place. -/
def refuseAt {α β : Type} (spanned : Spanned α) (reason : Reason F) : Except (LoadError F) β :=
  .error ⟨.line spanned.line spanned.column, reason⟩

def nameOk (name : String) : Bool :=
  let chars := name.toList
  decide (1 ≤ chars.length) && decide (chars.length ≤ 64) &&
    chars.all fun c => (decide ('a' ≤ c) && decide (c ≤ 'z')) || c.isDigit || c = '-'

omit [Scalar F] in
def startOf (file : File F) : Except (LoadError F) (Option Int) :=
  match file.start with
  | none => .ok none
  | some s =>
    match parseStart s.value with
    | .error why => refuseAt s (.badStart s.value why)
    | .ok t => .ok (some t)

def checkSpeed (file : File F) : Except (LoadError F) Unit :=
  match file.speed with
  | none => .ok ()
  | some speed =>
    if decide (1.0 ≤ speed.value) && decide (speed.value ≤ 3600.0) then .ok ()
    else refuseAt speed (.speedOutOfRange speed.value)

omit [Scalar F] in
def lengthOf (file : File F) : Except (LoadError F) (Option Nat) :=
  match file.length with
  | none => .ok none
  | some length =>
    match Duration.parse length.value with
    | .ok 0 => refuseAt length .zeroLength
    | .ok seconds => .ok (some seconds)
    | .error e => refuseAt length (.badDuration e)

/-- The last event so far on each target: its place in the file and its offset. -/
abbrev LastOn := Target → Option (Nat × Nat)

omit [Scalar F] in
/-- Each target's events come in time order, no two at one offset. -/
def inOrder (lastOn : LastOn) (e : ScenarioEvent F) : Except (Refusal F) LastOn :=
  match e.fault with
  | .data _ => .ok lastOn
  | .physical target _ =>
    let lastOn' : LastOn := Function.update lastOn target (some (e.index, e.atS))
    match lastOn target with
    | none => .ok lastOn'
    | some (other, otherAt) =>
      if e.atS = otherAt then .error ("at", .sharedTick other)
      else if e.atS < otherAt then .error ("at", .outOfOrder other)
      else .ok lastOn'

omit [Scalar F] in
def refuse {β : Type} (index line : Nat) (r : Refusal F) : Except (LoadError F) β :=
  .error ⟨.event index r.1 line, r.2⟩

/-- The events from place `index` on, each read and checked against those before it. -/
def checkEvents (cfg : PlantConfig F) (lengthS : Option Nat) :
    List (Spanned (EventSpec F)) → Nat → LastOn → Except (LoadError F) (List (ScenarioEvent F))
  | [], _, _ => .ok []
  | spanned :: rest, index, lastOn =>
    match event index spanned.value cfg with
    | .error r => refuse index spanned.line r
    | .ok e =>
      match lengthS.filter fun lengthS => lengthS ≤ e.atS with
      | some lengthS => refuse index spanned.line ("at", .eventAfterLength lengthS)
      | none =>
        match inOrder lastOn e with
        | .error r => refuse index spanned.line r
        | .ok lastOn =>
          match checkEvents cfg lengthS rest (index + 1) lastOn with
          | .error e => .error e
          | .ok es => .ok (e :: es)

omit [Scalar F] in
/-- Whether event `index` is a backfill burst with no dropout on its surface
that has ended by its offset, wherever in the file the dropout is listed. -/
def backfillHasNothingToReplay (index : Nat) (events : List (ScenarioEvent F)) : Bool :=
  match events[index]? with
  | none => false
  | some e =>
    match e.fault with
    | .physical _ _ => false
    | .data burst =>
      decide (burst.fault = .backfillBurst) && !events.any fun d =>
        match d.fault with
        | .physical _ _ => false
        | .data f =>
          decide (f.surface = burst.surface) && decide (f.fault = .dropout) &&
            decide (U64.add d.atS (f.durationS.getD 0) ≤ e.atS)

/-- Turn a parsed file into a scenario, or name the first rule it breaks. -/
def validate (file : File F) (cfg : PlantConfig F) (contentHash : UInt64) :
    Except (LoadError F) (Scenario F) :=
  if file.schema.value ≠ 1 then refuseAt file.schema (.unsupportedSchema file.schema.value)
  else if !nameOk file.name.value then refuseAt file.name (.badName file.name.value)
  else
    match startOf file with
    | .error e => .error e
    | .ok startUnixS =>
      match checkSpeed file with
      | .error e => .error e
      | .ok _ =>
        match lengthOf file with
        | .error e => .error e
        | .ok lengthS =>
          match checkEvents cfg lengthS file.events 0 fun _ => none with
          | .error e => .error e
          | .ok events =>
            match file.events.zipIdx.find? fun p => backfillHasNothingToReplay p.2 events with
            | some (spanned, index) => refuse index spanned.line ("at", .backfillWithoutDropout)
            | none =>
              .ok
                { id := ⟨file.name.value, contentHash⟩
                  seed := file.seed
                  startUnixS := startUnixS
                  speed := file.speed.map Spanned.value
                  lengthS := lengthS
                  events := events }

theorem leakAction_of {spec : EventSpec F} {b c r : Nat} {action : PendingAction F}
    (h : leakAction spec b c r = .ok action) (seed : UInt64) (index : Nat) :
    Target.of (draw action seed index) = .rack b c r := by
  rw [leakAction] at h
  split at h
  · cases h
  · split at h
    · cases h
    · cases h
      rfl

/-- The table pairs each target with actions on it. -/
theorem pendingAction_of {spec : EventSpec F} {target : Target} {action : PendingAction F}
    (h : pendingAction spec target = .ok action) (seed : UInt64) (index : Nat) :
    Target.of (draw action seed index) = target := by
  unfold pendingAction at h
  split at h
  · cases target <;> cases h <;> rfl
  · cases target with
    | rack b c r =>
      dsimp only at h
      split_ifs at h
      · cases h
        rfl
      · cases h
        rfl
      · exact leakAction_of h seed index
      · cases h
    | site | block | pcs | hvac =>
      dsimp only at h
      split_ifs at h
      all_goals
        cases h
        try rfl

/-- A physical event is an action of the table on a node the plant has. -/
theorem physical_ok {spec : EventSpec F} {path : String} {cfg : PlantConfig F} {fault : Fault F}
    (h : physical spec path cfg = .ok fault) :
    ∃ target action, fault = .physical target action ∧ Target.parse path cfg = .ok target ∧
      pendingAction spec target = .ok action := by
  rw [physical] at h
  split at h
  · cases h
  · rename_i target htarget
    split at h
    · cases h
    · rename_i action haction
      dsimp only at h
      split at h
      · cases h
      · split at h
        · cases h
        · cases h
          exact ⟨target, action, rfl, htarget, haction⟩

theorem event_ok {index : Nat} {spec : EventSpec F} {cfg : PlantConfig F} {e : ScenarioEvent F}
    (h : event index spec cfg = .ok e) :
    e.index = index ∧ Duration.parse spec.at = .ok e.atS ∧
      ((∃ path, spec.target = some path ∧ physical spec path cfg = .ok e.fault) ∨
        ∃ surface fault, data spec surface cfg = .ok fault ∧ e.fault = .data fault) := by
  rw [event] at h
  split at h
  · cases h
  · rename_i atS hat
    split at h
    · cases h
    · cases h
    · rename_i path htarget _
      cases hp : physical spec path cfg with
      | error r =>
        rw [hp] at h
        cases h
      | ok fault =>
        rw [hp] at h
        cases h
        exact ⟨rfl, hat, .inl ⟨path, htarget, hp⟩⟩
    · rename_i surface _ _
      cases hd : data spec surface cfg with
      | error r =>
        rw [hd] at h
        cases h
      | ok fault =>
        rw [hd] at h
        cases h
        exact ⟨rfl, hat, .inr ⟨surface, fault, hd, rfl⟩⟩

omit [Scalar F] in
/-- A duration that is stated is a word, and a burst states none. -/
theorem durationS_ok {spec : EventSpec F} {kind : DataFaultKind} {d : Nat}
    (h : durationS spec kind = .ok (some d)) : d < U64.SIZE ∧ kind ≠ .backfillBurst := by
  unfold durationS at h
  split at h
  · cases h
  · cases h
  · cases h
  · cases h
  · rename_i hkind
    split at h
    · cases h
    · cases h
    · rename_i seconds _ hparse
      cases h
      exact ⟨Duration.parse_lt hparse, hkind⟩

theorem withParameter_keeps {spec : EventSpec F} {fault fault' : DataFault F}
    (h : withParameter spec fault = .ok fault') :
    fault'.durationS = fault.durationS ∧ fault'.fault = fault.fault := by
  dsimp only [withParameter] at h
  split at h
  · split at h
    · cases h
    · cases h
      exact ⟨rfl, rfl⟩
  · split at h
    · cases h
    · split at h
      · cases h
        exact ⟨rfl, rfl⟩
      · cases h
  · split at h
    · cases h
    · split at h
      · cases h
      · cases h
        exact ⟨rfl, rfl⟩
  · cases h
    exact ⟨rfl, rfl⟩

theorem data_duration {spec : EventSpec F} {surface : Surface} {cfg : PlantConfig F}
    {fault : DataFault F} (h : data spec surface cfg = .ok fault) {d : Nat}
    (hd : fault.durationS = some d) : d < U64.SIZE ∧ fault.fault ≠ .backfillBurst := by
  rw [data] at h
  split at h
  · cases h
  · split at h
    · cases h
    · split at h
      · cases h
      · rename_i durationS hduration
        split at h
        · cases h
        · split at h
          · cases h
          · obtain ⟨hkeeps, hkind⟩ := withParameter_keeps h
            rw [hd] at hkeeps
            rw [hkind]
            exact durationS_ok (hduration.trans (congrArg Except.ok hkeeps.symm))

/-- What an accepted file's events passed. -/
theorem validate_ok {file : File F} {cfg : PlantConfig F} {contentHash : UInt64}
    {scenario : Scenario F} (h : validate file cfg contentHash = .ok scenario) :
    lengthOf file = .ok scenario.lengthS ∧
    checkEvents cfg scenario.lengthS file.events 0 (fun _ => none) = .ok scenario.events ∧
      (file.events.zipIdx.find? fun p => backfillHasNothingToReplay p.2 scenario.events) = none := by
  rw [validate] at h
  split at h
  · cases h
  · split at h
    · cases h
    · split at h
      · cases h
      · split at h
        · cases h
        · split at h
          · cases h
          · rename_i lengthS hlength
            split at h
            · cases h
            · rename_i events hevents
              split at h
              · cases h
              · rename_i hnone
                cases h
                exact ⟨hlength, hevents, hnone⟩

omit [Scalar F] in
/-- A length stated is a length in force. -/
theorem lengthOf_isSome {file : File F} {lengthS : Option Nat} (h : lengthOf file = .ok lengthS) :
    lengthS.isSome = file.length.isSome := by
  rw [lengthOf] at h
  cases hl : file.length with
  | none =>
    rw [hl] at h
    cases h
    rfl
  | some length =>
    rw [hl] at h
    dsimp only at h
    split at h
    · cases h
    · cases h
      rfl
    · cases h

end Bess
