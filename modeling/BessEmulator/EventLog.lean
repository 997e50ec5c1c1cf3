import BessEmulator.Alarms

/-!
# The event log's footprint

Count and digest of every event handed out. The digest folds the canonical
JSON of each event, as the derived serializer writes it.
-/
namespace Bess

def fnvOffset : UInt64 := 0xcbf29ce484222325

def fnvPrime : UInt64 := 0x00000100000001b3

/-- FNV-1a, continued over more bytes. -/
def fnvFold (hash : UInt64) (bytes : List UInt8) : UInt64 :=
  bytes.foldl (fun h b => (h ^^^ b.toUInt64) * fnvPrime) hash

def jsonField (name value : String) : String := "\"" ++ name ++ "\":" ++ value

def jsonObject (fields : List String) : String := "\x7b" ++ ",".intercalate fields ++ "\x7d"

def jsonNat (name : String) (n : Nat) : String := jsonField name (toString n)

/-- An enum variant without data is its name; one with data an object of one field. -/
def jsonUnit (variant : String) : String := "\"" ++ variant ++ "\""

def jsonVariant (variant : String) (fields : List String) : String :=
  jsonObject [jsonField variant (jsonObject fields)]

def Severity.json : Severity → String
  | .warning => jsonUnit "Warning"
  | .trip => jsonUnit "Trip"

def PcsOpState.json : PcsOpState → String
  | .standby => jsonUnit "Standby"
  | .run => jsonUnit "Run"
  | .fault => jsonUnit "Fault"

def jsonRack (block container rack : Nat) : List String :=
  [jsonNat "block" block, jsonNat "container" container, jsonNat "rack" rack]

def AlarmNode.json : AlarmNode → String
  | .site => jsonUnit "Site"
  | .block b => jsonVariant "Block" [jsonNat "block" b]
  | .rack b c r => jsonVariant "Rack" (jsonRack b c r)

def ResetScope.json : ResetScope → String
  | .site => jsonUnit "Site"
  | .block b => jsonObject [jsonNat "Block" b]
  | .rack b c r => jsonVariant "Rack" (jsonRack b c r)

def FaultAction.json : FaultAction → String
  | .hvacFailure b c => jsonVariant "HvacFailure" [jsonNat "block" b, jsonNat "container" c]
  | .hvacRepair b c => jsonVariant "HvacRepair" [jsonNat "block" b, jsonNat "container" c]
  | .pcsTrip b => jsonVariant "PcsTrip" [jsonNat "block" b]
  | .protectionTrip => jsonUnit "ProtectionTrip"
  | .rackSelfDischarge b c r ppm =>
    jsonVariant "RackSelfDischarge" (jsonRack b c r ++ [jsonNat "excess_ppm_per_day" ppm.toNat])
  | .rackIsolate b c r => jsonVariant "RackIsolate" (jsonRack b c r)
  | .rackRestore b c r => jsonVariant "RackRestore" (jsonRack b c r)
  | .blockMaintenanceEnter b => jsonVariant "BlockMaintenanceEnter" [jsonNat "block" b]
  | .blockMaintenanceExit b => jsonVariant "BlockMaintenanceExit" [jsonNat "block" b]
  | .alarmReset scope => jsonObject [jsonField "AlarmReset" scope.json]

def Event.json : Event → String
  | .pcsStateChanged b old new =>
    jsonVariant "PcsStateChanged"
      [jsonNat "block" b, jsonField "from" old.json, jsonField "to" new.json]
  | .alarmRaised node bit severity =>
    jsonVariant "AlarmRaised"
      [jsonField "node" node.json, jsonNat "bit" bit, jsonField "severity" severity.json]
  | .alarmCleared node bit severity =>
    jsonVariant "AlarmCleared"
      [jsonField "node" node.json, jsonNat "bit" bit, jsonField "severity" severity.json]
  | .faultApplied action => jsonObject [jsonField "FaultApplied" action.json]

def EventLog.empty : EventLog := ⟨0, 0⟩

def EventLog.record (log : EventLog) (event : Event) : EventLog :=
  let digest := if log.count = 0 then fnvOffset else log.digest
  ⟨log.count + 1, fnvFold digest event.json.toUTF8.data.toList⟩

def EventLog.recordAll (log : EventLog) (events : List Event) : EventLog :=
  events.foldl EventLog.record log

@[simp] theorem EventLog.recordAll_count (log : EventLog) (events : List Event) :
    (log.recordAll events).count = log.count + events.length := by
  induction events generalizing log with
  | nil => rfl
  | cons e es ih =>
    have h := ih (log.record e)
    simp only [EventLog.recordAll, List.foldl_cons, List.length_cons] at h ⊢
    rw [h]
    simp only [EventLog.record]
    omega

end Bess
