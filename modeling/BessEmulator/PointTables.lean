import BessEmulator.AlarmMap

/-!
# The point tables

Every signal of the map with its unit, class, encoding, scale and address: the
site's telemetry, the fiscal meter and each block's telemetry, beside the alarm
and control points; and the map they are sorted into.
-/
namespace Bess

section

variable {F : Type} [Scalar F]

/-- Mean state of charge over the racks in service; zero without one. -/
def averageSoc (racks : List (RackState F)) : F :=
  let counted := racks.foldl
    (fun acc r => if r.inService then (acc.1 + r.soc, acc.2 + 1) else acc) ((0.0 : F), (0 : Nat))
  if counted.2 = 0 then 0.0 else counted.1 / (counted.2 : F)

/-- Least and greatest cell temperature of the block; zeros without a rack. -/
def BlockState.cellTempMinMaxC (b : BlockState F) : F × F :=
  match b.racks.map fun r => r.cellTempC with
  | [] => (0.0, 0.0)
  | t :: ts => (ts.foldl min t, ts.foldl max t)

/-- Air temperature of the hottest container; zero without one. -/
def blockAirTempMaxC (block : BlockState F) : F :=
  match block.containers.map fun c => c.airTempC with
  | [] => 0.0
  | t :: ts => ts.foldl max t

/-- Mode of the container drawing the most power, the lower index on a tie. -/
def blockHvacMode (block : BlockState F) : HvacMode :=
  (block.containers.foldl (fun (acc : Option F × HvacMode) c =>
    match acc.1 with
    | none => (some c.hvac.electricalW, c.hvac.mode)
    | some heaviestW =>
      if heaviestW < c.hvac.electricalW then (some c.hvac.electricalW, c.hvac.mode) else acc)
    (none, .off)).2

def hvacModeCode : HvacMode → F
  | .off => 0.0
  | .cool1 => 1.0
  | .cool2 => 2.0
  | .heat => 3.0

def blockModeCode : BlockMode → Nat
  | .inService => 0
  | .maintenance => 1

/-- Widest cell voltage spread among the block's racks. -/
def blockCellDvMaxV (block : BlockState F) : F := (block.racks.map fun r => r.cellDvV).foldl max 0.0

def pcsStateCode : PcsOpState → F
  | .standby => 0.0
  | .run => 1.0
  | .fault => 2.0

/-- Output over input in the direction of flow; zero when idle. -/
def pcsEfficiencyPct (pcs : PcsState F) : F :=
  if Scalar.epsilon < pcs.pDcW ∧ 0.0 < pcs.pAcW then 100.0 * pcs.pAcW / pcs.pDcW
  else if pcs.pDcW < -Scalar.epsilon ∧ pcs.pAcW < 0.0 then 100.0 * pcs.pDcW / pcs.pAcW
  else 0.0

/-- A bool as a number. -/
def flag (b : Prop) [Decidable b] : F := if b then 1.0 else 0.0

/-- A point in the input space. -/
def inputPoint (name unit : String) (pointClass : PointClass) (encoding : Encoding) (scale : F)
    (addr : Nat) (extract : SiteState F → F) : Point F where
  name := name
  unit := unit
  pointClass := pointClass
  encoding := encoding
  scale := scale
  addr := addr
  space := .input
  extract := extract

/-- The site's telemetry. -/
def sitePoints : List (Point F) :=
  [inputPoint "site.poi.active_power_w" "W" .fast .i32 1.0 0
      fun s => s.substation.poiActivePowerW,
    inputPoint "site.poi.reactive_power_var" "var" .fast .i32 1.0 2
      fun s => s.substation.poiReactivePowerVar,
    inputPoint "site.poi.voltage_kv" "kV" .fast .u16 100.0 4 fun s => s.substation.poiVoltageKv,
    inputPoint "site.poi.frequency_hz" "Hz" .fast .u16 1000.0 5 fun s => s.substation.frequencyHz,
    inputPoint "site.soc_pct" "%" .medium .u16 100.0 6 fun s => averageSoc s.racks * 100.0,
    inputPoint "site.soh_pct" "%" .slow .u16 100.0 7 fun _ => 100.0,
    inputPoint "site.available_discharge_kw" "kW" .fast .u32 1.0 8
      fun s => s.ems.availableDischargeW / 1000.0,
    inputPoint "site.available_charge_kw" "kW" .fast .u32 1.0 10
      fun s => s.ems.availableChargeW / 1000.0,
    inputPoint "site.meter.export_kwh" "kWh" .slow .u32 1.0 12
      fun s => s.substation.exportWh / 1000.0,
    inputPoint "site.meter.import_kwh" "kWh" .slow .u32 1.0 14
      fun s => s.substation.importWh / 1000.0,
    inputPoint "site.meter.station_service_kwh" "kWh" .slow .u32 1.0 44
      fun s => s.substation.stationServiceWh / 1000.0,
    inputPoint "site.substation.hv_breaker_closed" "bool" .medium .u16 1.0 16
      fun s => flag (s.substation.hvBreaker = .closed),
    inputPoint "site.ems.mode" "enum" .medium .u16 1.0 17 fun s => flag (s.ems.mode = .external),
    inputPoint "site.ems.setpoint_w" "W" .fast .i32 1.0 18 fun s => s.ems.siteSetpointW,
    inputPoint "site.weather.ambient_c" "degC" .medium .i16 10.0 20 fun s => s.weather.ambientC,
    inputPoint "site.weather.irradiance_wm2" "W/m2" .medium .u16 1.0 21
      fun s => s.weather.irradianceWm2,
    inputPoint "site.aux_power_w" "W" .medium .u32 1.0 22 fun s => s.substation.auxPowerW,
    inputPoint "site.transformer_loss_w" "W" .medium .u32 1.0 24
      fun s => s.substation.transformerLossW,
    inputPoint "site.sim.tick" "count" .fast .u32 1.0 26
      fun s => ((s.tick % 4294967295 : Nat) : F),
    inputPoint "site.sim.unix_time_s" "s" .fast .u32 1.0 28 fun s => Scalar.ofInt s.unixTimeS,
    inputPoint "site.pcs_online_count" "count" .medium .u16 1.0 30
      fun s => ((s.blocks.countP fun b => b.pcs.opState = .run : Nat) : F),
    inputPoint "site.aux.hvac_w" "W" .medium .u32 1.0 32 fun s => s.aux.hvacW,
    inputPoint "site.aux.bms_w" "W" .medium .u32 1.0 34 fun s => s.aux.bmsW,
    inputPoint "site.aux.pcs_standby_w" "W" .medium .u32 1.0 36 fun s => s.aux.pcsStandbyW,
    inputPoint "site.aux.controls_w" "W" .medium .u32 1.0 38 fun s => s.aux.controlsW,
    inputPoint "site.aux.lighting_and_safety_w" "W" .medium .u32 1.0 40
      fun s => s.aux.lightingAndSafetyW]

/-- The fiscal meter's points. -/
def revenuePoints : List (Point F) :=
  [inputPoint "site.revenue.period_import_kwh" "kWh" .slow .u32 1.0 46
      fun s => s.substation.revenue.lastImportWh / 1000.0,
    inputPoint "site.revenue.period_export_kwh" "kWh" .slow .u32 1.0 48
      fun s => s.substation.revenue.lastExportWh / 1000.0,
    inputPoint "site.revenue.periods_closed" "count" .slow .u32 1.0 50
      fun s => ((s.substation.revenue.periodsClosed : Nat) : F)]

/-- Block `b`'s telemetry, in both per-block ranges. -/
def blockPoints (b : Nat) : List (Point F) :=
  let base := blockBase b
  let ext := blockExtBase b
  let name := fun suffix => blockPrefix b ++ suffix
  [inputPoint (name ".pcs.p_ac_kw") "kW" .fast .i16 1.0 base
      (ofBlock b fun block => block.pcs.pAcW / 1000.0),
    inputPoint (name ".pcs.p_dc_kw") "kW" .fast .i16 1.0 (base + 1)
      (ofBlock b fun block => block.pcs.pDcW / 1000.0),
    inputPoint (name ".pcs.state") "enum" .fast .u16 1.0 (base + 2)
      (ofBlock b fun block => pcsStateCode block.pcs.opState),
    inputPoint (name ".soc_pct") "%" .medium .u16 100.0 (base + 3)
      (ofBlock b fun block => averageSoc block.racks * 100.0),
    inputPoint (name ".cell_temp_min_c") "degC" .medium .i16 10.0 (base + 4)
      (ofBlock b fun block => block.cellTempMinMaxC.1),
    inputPoint (name ".cell_temp_max_c") "degC" .medium .i16 10.0 (base + 5)
      (ofBlock b fun block => block.cellTempMinMaxC.2),
    inputPoint (name ".pcs.efficiency_pct") "%" .fast .u16 100.0 (base + 7)
      (ofBlock b fun block => pcsEfficiencyPct block.pcs),
    inputPoint (name ".container.air_temp_c") "degC" .medium .i16 10.0 (base + 8)
      (ofBlock b blockAirTempMaxC),
    inputPoint (name ".hvac.state") "enum" .medium .u16 1.0 (base + 9)
      (ofBlock b fun block => hvacModeCode (blockHvacMode block)),
    inputPoint (name ".mode") "enum" .medium .u16 1.0 (ext + 3)
      (ofBlock b fun block => ((blockModeCode block.mode : Nat) : F)),
    inputPoint (name ".cell_dv_mv") "mV" .medium .u16 1.0 (ext + 2)
      (ofBlock b fun block => blockCellDvMaxV block * 1000.0)]

/-- `(space == Holding, addr)` of one point is not after another's. -/
def Point.before (p q : Point F) : Bool :=
  if p.space = q.space then decide (p.addr ≤ q.addr) else decide (p.space = .input)

/-- The tables, one after the other. -/
def tables (cfg : PlantConfig F) : List (Point F) :=
  sitePoints ++ revenuePoints ++ controlPoints ++ siteAlarmPoints ++
    (List.range cfg.blocks).flatMap fun b => blockPoints b ++ blockAlarmPoints b

/-- The full signal map, in address order: input space first, then holding. -/
def buildPoints (cfg : PlantConfig F) : List (Point F) := (tables cfg).mergeSort Point.before

end

end Bess
