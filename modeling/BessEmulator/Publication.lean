import BessEmulator.AlarmList
import BessEmulator.Occurrence
import BessEmulator.Periods
import BessEmulator.RecordDrift
import BessEmulator.SolarRows
import BessEmulator.Tallies

/-!
# The published record and its document

The record of a run, the gates it is held to, the block of the calibration document
rendered from it, and the three files that publish and check them.
-/
namespace Bess.Bench

/-- Alarm raises over a run, an alarm's count under its name, in the order of the names. -/
structure AlarmCounts where
  tripsRaised : Nat
  warningsRaised : Nat
  raisedByAlarm : List (String × Nat)
  ascending : (raisedByAlarm.map Prod.fst).Pairwise (· < ·)

/-- Everything one run measured. -/
structure Kpis (F : Type) where
  run : RunRecord
  energy : EnergyKpis F
  losses : LossKpis F
  thermal : ThermalKpis F
  hvac : HvacKpis F
  alarms : AlarmCounts
  periods : PeriodKpis

section

variable {F : Type}

/-- A figure that is no number is serialized as null. -/
def figure : String × Option F → String × Json F
  | (key, some x) => (key, .float x)
  | (key, none) => (key, .null)

def runValue (run : RunRecord) : Json F :=
  .object
    [("days", .int run.days),
      ("engine_version", .string run.engineVersion),
      ("seed", .int run.seed.toNat),
      ("site_id", .string run.siteId),
      ("start_unix_s", .int run.startUnixS),
      ("ticks", .int run.ticks)]

def energyFigures (k : EnergyKpis F) : List (String × Option F) :=
  [("aux_share_of_export", some k.auxShareOfExport),
    ("aux_share_of_import", some k.auxShareOfImport),
    ("balance_residual_share", some k.balanceResidualShare),
    ("equivalent_full_cycles", some k.equivalentFullCycles),
    ("export_mwh", some k.exportMwh),
    ("import_mwh", some k.importMwh),
    ("round_trip_efficiency", some k.roundTripEfficiency),
    ("round_trip_efficiency_excluding_aux", some k.roundTripEfficiencyExcludingAux),
    ("stored_delta_mwh", some k.storedDeltaMwh)]

def lossFigures (k : LossKpis F) : List (String × Option F) :=
  [("aux_bms_mwh", some k.auxBmsMwh),
    ("aux_controls_mwh", some k.auxControlsMwh),
    ("aux_hvac_mwh", some k.auxHvacMwh),
    ("aux_lighting_and_safety_mwh", some k.auxLightingAndSafetyMwh),
    ("aux_pcs_standby_mwh", some k.auxPcsStandbyMwh),
    ("battery_mwh", some k.batteryMwh),
    ("pcs_mwh", some k.pcsMwh),
    ("transformer_mwh", some k.transformerMwh)]

def thermalFigures (k : ThermalKpis F) : List (String × Option F) :=
  [("ambient_max_c", k.ambientMaxC),
    ("ambient_min_c", k.ambientMinC),
    ("cell_max_c", k.cellMaxC),
    ("cell_min_c", k.cellMinC),
    ("container_air_max_c", k.containerAirMaxC),
    ("container_air_min_c", k.containerAirMinC)]

def hvacFigures (k : HvacKpis F) : List (String × Option F) :=
  [("compressor_starts_per_container", some k.compressorStartsPerContainer),
    ("heat_duty", some k.heatDuty),
    ("stage1_duty", some k.stage1Duty),
    ("stage2_duty", some k.stage2Duty)]

def AlarmCounts.toValue (k : AlarmCounts) : Json F :=
  .object
    [("raised_by_alarm", .object (k.raisedByAlarm.map fun (name, count) => (name, .int count))),
      ("trips_raised", .int k.tripsRaised),
      ("warnings_raised", .int k.warningsRaised)]

def periodsValue (k : PeriodKpis) : Json F :=
  .object
    [("closed", .int k.closed),
      ("on_long_dst_day", .int k.onLongDstDay),
      ("on_short_dst_day", .int k.onShortDstDay)]

/-- A record as it is serialized. -/
def Kpis.toValue (k : Kpis F) : Json F :=
  .object
    [("alarms", k.alarms.toValue),
      ("energy", .object ((energyFigures k.energy).map figure)),
      ("hvac", .object ((hvacFigures k.hvac).map figure)),
      ("losses", .object ((lossFigures k.losses).map figure)),
      ("periods", periodsValue k.periods),
      ("run", runValue k.run),
      ("thermal", .object ((thermalFigures k.thermal).map figure))]

variable [Scalar F]

/-- A fresh measurement against the committed record, field by field. -/
def drift (measured published : Kpis F) : List (Drift F) :=
  Bess.compare "" measured.toValue published.toValue

/-- A closed interval a measurement has to land in. -/
structure Band (F : Type) where
  lo : F
  hi : F

def Band.contains (b : Band F) (value : F) : Bool := decide (b.lo ≤ value) && decide (value ≤ b.hi)

/-- What a bound is entitled to claim. -/
inductive Bound where
  | sourced | sanity
  deriving DecidableEq, Repr

def Bound.label : Bound → String
  | .sourced => "sourced"
  | .sanity => "sanity bound"

/-- One gated reading. -/
structure Gate (F : Type) where
  name : String
  band : Band F
  bound : Bound
  source : String
  read : Kpis F → F

def ANNUAL_RTE : Band F := ⟨0.80, 0.85⟩

def AUX_SHARE_OF_IMPORT : Band F := ⟨0.01, 0.08⟩

def BALANCE_RESIDUAL_MAX : F := 2.0e-3

def PERIODS_IN_THE_RUN : Nat := 35040

def PERIODS_ON_SHORT_DST_DAY : Nat := 92

def PERIODS_ON_LONG_DST_DAY : Nat := 100

/-- The gates CI enforces. -/
def GATES : List (Gate F) :=
  [{ name := "Annual round-trip efficiency at the POI"
     band := ANNUAL_RTE
     bound := .sourced
     source := "EIA-923 fleet average 82% (2019); NREL ATB 2024 design assumption 85%"
     read := fun k => k.energy.roundTripEfficiency },
   { name := "Auxiliary share of energy imported"
     band := AUX_SHARE_OF_IMPORT
     bound := .sanity
     source := "no public dataset publishes this at plant scale; see the note below"
     read := fun k => k.energy.auxShareOfImport }]

/-- A gate that does not hold. -/
inductive Failure (F : Type) where
  | outside (gate : Gate F) (value : F)
  | residual (value : F)
  | periods (counted : Nat × Nat × Nat)
  | trips (raised : Nat)

/-- Check every gate; a line for each that does not hold. -/
def checkGates (k : Kpis F) : List (Failure F) :=
  let counted := (k.periods.closed, k.periods.onShortDstDay, k.periods.onLongDstDay)
  (GATES.filter fun gate => !gate.band.contains (gate.read k)).map (fun gate => .outside gate (gate.read k)) ++
    (if BALANCE_RESIDUAL_MAX < k.energy.balanceResidualShare then
      [.residual k.energy.balanceResidualShare] else []) ++
    (if counted ≠ (PERIODS_IN_THE_RUN, PERIODS_ON_SHORT_DST_DAY, PERIODS_ON_LONG_DST_DAY) then
      [.periods counted] else []) ++
    (if 0 < k.alarms.tripsRaised then [.trips k.alarms.tripsRaised] else [])

/-- Opening marker of the generated block. -/
def BEGIN : List Char := "<!-- bess-bench:begin m1-annual -->".toList

/-- Closing marker. -/
def END : List Char := "<!-- bess-bench:end m1-annual -->".toList

/-- How figures are printed. -/
structure Decimal (F : Type) where
  /-- To so many decimals. -/
  fixed : Nat → F → List Char
  /-- As short as reads back. -/
  shown : F → List Char

/-- `str::split_whitespace`. -/
def splitWhitespace (text : List Char) : List (List Char) :=
  (text.splitOnP isWhitespace).filter fun word => !word.isEmpty

/-- Greedy wrap, over the words: the text so far and the column it stands at. -/
def wrapWords (width : Nat) : List Char × Nat → List (List Char) → List Char
  | (out, _), [] => out
  | (out, column), word :: words =>
    if column = 0 then wrapWords width (out ++ word, word.length) words
    else if width < column + 1 + word.length then
      wrapWords width (out ++ '\n' :: word, word.length) words
    else wrapWords width (out ++ ' ' :: word, column + 1 + word.length) words

def wrap (text : List Char) (width : Nat) : List Char := wrapWords width ([], 0) (splitWhitespace text)

/-- A space before each digit that has a multiple of three digits from it on. -/
def spaced (digits : List Char) : List Char :=
  digits.zipIdx.flatMap fun (c, idx) =>
    if 0 < idx ∧ (digits.length - idx) % 3 = 0 then [' ', c] else [c]

/-- Separate thousands with a space; a leading sign is carried through. -/
def group : List Char → List Char
  | '-' :: digits => '-' :: spaced digits
  | digits => spaced digits

def numeral (n : Nat) : List Char := (toString n).toList

/-- A count with thousands separated. -/
def thousandsInt (n : Nat) : List Char := group (numeral n)

/-- A line of a table. -/
def row (cells : List (List Char)) : List Char :=
  "| ".toList ++ " | ".toList.intercalate cells ++ " |\n".toList

section

variable (digits : Decimal F)

/-- A share as a percentage, at two decimals. -/
def percent (share : F) : List Char := digits.fixed 2 (share * 100.0) ++ ['%']

/-- A megawatt-hour figure with thousands separated, at one decimal. -/
def thousands (value : F) : List Char :=
  let text := digits.fixed 1 value
  let fraction :=
    match text.dropWhile fun c => c ≠ '.' with
    | '.' :: fraction => fraction
    | _ => ['0']
  group (text.takeWhile fun c => c ≠ '.') ++ '.' :: fraction

/-- An extreme; infinite before a reading. -/
def extreme (infinite : String) (x : Option F) : List Char := x.elim infinite.toList (digits.fixed 1)

/-- A band as it is published. -/
def bandText (band : Band F) : List Char :=
  percent digits band.lo ++ " to ".toList ++ percent digits band.hi

def writeHeader (k : Kpis F) : List Char :=
  let sentence :=
    "Measured by `bess-bench` on kernel ".toList ++ k.run.engineVersion.toList ++ ": ".toList ++
      k.run.siteId.toList ++ " on the internal dispatch plan, seed ".toList ++ numeral k.run.seed.toNat ++
      ", ".toList ++ numeral k.run.days ++ " simulated days (".toList ++ thousandsInt k.run.ticks ++
      (" ticks) of the replayed weather year. Regenerate with " ++
        "`cargo run --release -p bess-bench -- --write`; CI fails if this block is stale.").toList
  '\n' :: wrap sentence 76 ++ "\n\n".toList

def writeGates (k : Kpis F) : List Char :=
  "| Gate | Band | Measured | Verdict | Band drawn from |\n|---|---|---|---|---|\n".toList ++
    GATES.flatMap (fun gate =>
      row
        [gate.name.toList,
          bandText digits gate.band ++ " (".toList ++ gate.bound.label.toList ++ [')'],
          percent digits (gate.read k),
          (if gate.band.contains (gate.read k) then "inside" else "**outside**").toList,
          gate.source.toList]) ++ ['\n']

def writeEnergy (k : Kpis F) : List Char :=
  let e := k.energy
  "Energy at the point of interconnection over the run:\n\n| Quantity | Value |\n|---|---|\n".toList ++
    row ["Imported".toList, thousands digits e.importMwh ++ " MWh".toList] ++
    row ["Exported".toList, thousands digits e.exportMwh ++ " MWh".toList] ++
    row ["Round-trip efficiency".toList, digits.fixed 4 e.roundTripEfficiency] ++
    row ["Round-trip efficiency, house load removed from import".toList,
      digits.fixed 4 e.roundTripEfficiencyExcludingAux] ++
    row ["Equivalent full cycles, exported energy over nameplate energy".toList,
      digits.fixed 1 e.equivalentFullCycles] ++
    row ["Stored energy, end minus start".toList, digits.fixed 1 e.storedDeltaMwh ++ " MWh".toList] ++
    row ["Auxiliary share of import / of export".toList,
      percent digits e.auxShareOfImport ++ " / ".toList ++ percent digits e.auxShareOfExport] ++
    row ["Unexplained residual".toList,
      digits.fixed 5 (e.balanceResidualShare * 100.0) ++ "% of throughput, gate below ".toList ++
        digits.shown (BALANCE_RESIDUAL_MAX * 100.0) ++ ['%']] ++ ['\n'] ++
    wrap
      ("Three definitions the figures above depend on. The round-trip ratio " ++
        "is uncorrected for the stored-energy endpoints, matching how the " ++
        "fleet figure it is gated against is computed; the row below it takes " ++
        "the house load back out of import arithmetically rather than by " ++
        "re-running the plant without it. Cycles count exported energy " ++
        "against nameplate energy, not against the smaller window the BMS " ++
        "keeps the plant inside. Container air is read every tick; the " ++
        "rack-level temperatures below are sampled once a minute, which is " ++
        "far inside their thermal time constant.").toList 76 ++ "\n\n".toList

/-- The loss waterfall in publication order, coarsest first. -/
def waterfall (k : LossKpis F) : List (String × F) :=
  [("Battery", k.batteryMwh),
    ("PCS conversion", k.pcsMwh),
    ("Transformer", k.transformerMwh),
    ("Auxiliary: HVAC", k.auxHvacMwh),
    ("Auxiliary: rack electronics", k.auxBmsMwh),
    ("Auxiliary: PCS standby", k.auxPcsStandbyMwh),
    ("Auxiliary: controls and protection", k.auxControlsMwh),
    ("Auxiliary: lighting and safety", k.auxLightingAndSafetyMwh)]

def auxTotalMwh (k : LossKpis F) : F :=
  k.auxHvacMwh + k.auxBmsMwh + k.auxPcsStandbyMwh + k.auxControlsMwh + k.auxLightingAndSafetyMwh

def totalMwh (k : LossKpis F) : F := k.batteryMwh + k.pcsMwh + k.transformerMwh + auxTotalMwh k

def writeWaterfall (k : Kpis F) : List Char :=
  let imported := max k.energy.importMwh 1.0e-9
  let total := totalMwh k.losses
  "Where the energy went, each category on its own meter:\n\n".toList ++
    "| Category | MWh | Share of import |\n|---|---|---|\n".toList ++
    (waterfall k.losses).flatMap (fun (name, value) =>
      row [name.toList, thousands digits value, percent digits (value / imported)]) ++
    row
      ["**Total**".toList,
        "**".toList ++ thousands digits total ++ "**".toList,
        "**".toList ++ percent digits (total / imported) ++ "**".toList] ++ ['\n']

def writeThermal (k : Kpis F) : List Char :=
  let t := k.thermal
  let h := k.hvac
  let span := fun lo hi => extreme digits "inf" lo ++ " to ".toList ++ extreme digits "-inf" hi ++ " C".toList
  "Temperatures and HVAC over the run:\n\n| Reading | Value |\n|---|---|\n".toList ++
    row ["Ambient, coldest to warmest".toList, span t.ambientMinC t.ambientMaxC] ++
    row ["Container air, coldest to warmest".toList, span t.containerAirMinC t.containerAirMaxC] ++
    row ["Cells, coldest to warmest".toList, span t.cellMinC t.cellMaxC] ++
    row ["Duty, one unit / both units / heating".toList,
      percent digits h.stage1Duty ++ " / ".toList ++ percent digits h.stage2Duty ++ " / ".toList ++
        percent digits h.heatDuty] ++
    row ["Cooling starts per container".toList, thousands digits h.compressorStartsPerContainer] ++ ['\n']

end

def writeAlarms (k : Kpis F) : List Char :=
  let a := k.alarms
  "Alarms raised over the run: ".toList ++ thousandsInt a.tripsRaised ++ " trips (gate: none), ".toList ++
    thousandsInt a.warningsRaised ++ " warnings.\n\n".toList ++
    if a.raisedByAlarm.isEmpty then []
    else
      "| Alarm | Raised |\n|---|---|\n".toList ++
        a.raisedByAlarm.flatMap (fun (name, count) =>
          row ["`".toList ++ name.toList ++ "`".toList, thousandsInt count]) ++ ['\n']

def writePeriods (k : Kpis F) : List Char :=
  let p := k.periods
  "Fiscal quarter-hours closed: ".toList ++ thousandsInt p.closed ++ " (gate: exactly ".toList ++
    thousandsInt PERIODS_IN_THE_RUN ++ "), ".toList ++ numeral p.onShortDstDay ++
    " on the 23-hour day and ".toList ++ numeral p.onLongDstDay ++ " on the 25-hour day (gates: ".toList ++
    numeral PERIODS_ON_SHORT_DST_DAY ++ " and ".toList ++ numeral PERIODS_ON_LONG_DST_DAY ++ ").\n\n".toList

/-- Render the generated block from a record. -/
def render (digits : Decimal F) (k : Kpis F) : List Char :=
  BEGIN ++ '\n' :: (writeHeader k ++ writeGates digits k ++ writeEnergy digits k ++
    writeWaterfall digits k ++ writeThermal digits k ++ writeAlarms k ++ writePeriods k) ++ END

end

/-- Where the generated block of a document is. -/
def markers (document : List Char) : Except String (Nat × Nat) :=
  match Occurrence.find BEGIN document with
  | none => .error ("no `" ++ String.ofList BEGIN ++ "` marker in the document")
  | some start =>
    match Occurrence.find END document with
    | none => .error ("no `" ++ String.ofList END ++ "` marker in the document")
    | some stop =>
      if stop < start then .error "the generated-block markers are out of order" else .ok (start, stop)

/-- Replace the generated block in a document, keeping everything else. -/
def splice (document block : List Char) : Except String (List Char) := do
  let (start, stop) ← markers document
  return document.take start ++ block ++ document.drop (stop + END.length)

/-- Read the generated block out of a document. -/
def extract (document : List Char) : Except String (List Char) := do
  let (start, stop) ← markers document
  return (document.take (stop + END.length)).drop start

/-- The files, by path; one that cannot be read is none. -/
abbrev Files := String → Option (List Char)

/-- Where the record, the document and the series are. -/
structure Paths where
  record : String
  calibration : String
  series : String
  deriving DecidableEq

/-- The committed paths. -/
def Paths.default : Paths := ⟨"calibration/m1-annual.json", "CALIBRATION.md", "calibration/m1-study-series.json"⟩

/-- How records and series are serialized and read. -/
structure Codec (F : Type) where
  toJson : Kpis F → List Char
  fromJson : List Char → Except String (Kpis F)
  seriesToJson : StudySeries F → List Char
  seriesFromJson : List Char → Except String (StudySeries F)

def readFile (files : Files) (path : String) : Except String (List Char) :=
  match files path with
  | some text => .ok text
  | none => .error ("cannot read " ++ path)

def writeFile (files : Files) (path : String) (contents : List Char) : Files :=
  Function.update files path (some contents)

/-- An error under the path it came from. -/
def within {α : Type} (path : String) : Except String α → Except String α
  | .ok a => .ok a
  | .error err => .error (path ++ ": " ++ err)

section

variable {F : Type} [Scalar F] (codec : Codec F) (digits : Decimal F) (paths : Paths)

def readRecord (files : Files) : Except String (Kpis F) := do
  let text ← readFile files paths.record
  within paths.record (codec.fromJson text)

/-- Render the generated block from whatever the record on disk says. -/
def renderDocument (files : Files) : Except String Files := do
  let published ← readRecord codec paths files
  let document ← readFile files paths.calibration
  let spliced ← within paths.calibration (splice document (render digits published))
  return writeFile files paths.calibration spliced

/-- Write the record and the series, then render the document from what was written. -/
def writePublished (files : Files) (k : Kpis F) (series : StudySeries F) : Files × Except String Unit :=
  let files := writeFile files paths.record (codec.toJson k)
  let files := writeFile files paths.series (codec.seriesToJson series)
  match renderDocument codec digits paths files with
  | .ok files => (files, .ok ())
  | .error err => (files, .error err)

/-- Whether the generated block still is what the record renders to. -/
def checkDocs (files : Files) : Except String Unit := do
  let published ← readRecord codec paths files
  let document ← readFile files paths.calibration
  let block ← within paths.calibration (extract document)
  if block = render digits published then .ok ()
  else .error ("the generated block of " ++ paths.calibration ++ " does not match " ++ paths.record ++
    "; regenerate with `cargo run --release -p bess-bench -- --write`")

/-- A line of the CI gate. -/
inductive Finding (F : Type) where
  | gate (failure : Failure F)
  | otherRun (path : String)
  | unreadable (message : String)
  | stale (path : String) (lines : List (Drift F))
  | document (message : String)

/-- The CI gate: bands hold, the record is current, the document matches it. -/
def check (files : Files) (k : Kpis F) : List (Finding F) :=
  (checkGates k).map .gate ++
    (match readFile files paths.series >>= codec.seriesFromJson with
      | .ok series => if series.run ≠ k.run then [.otherRun paths.series] else []
      | .error message => [.unreadable message]) ++
    (match readRecord codec paths files with
      | .ok published =>
        let lines := drift k published
        if lines.isEmpty then [] else [.stale paths.record lines]
      | .error message => [.unreadable message]) ++
    (match checkDocs codec digits paths files with
      | .ok () => []
      | .error message => [.document message])

end

end Bess.Bench
