import BessEmulator.PlantTask

/-!
# The Modbus slave

Input registers carry telemetry, as the tap has the device serve it; holding
registers are the control surface. A write is a command in the task's queue,
and every answer is read off the snapshot published last.
-/
namespace Bess

inductive ExceptionCode where
  | illegalFunction | illegalDataAddress | illegalDataValue | serverDeviceBusy
  deriving DecidableEq, Repr

inductive Request where
  | readInputRegisters (addr count : BitVec 16)
  | readHoldingRegisters (addr count : BitVec 16)
  | writeMultipleRegisters (addr : BitVec 16) (words : List (BitVec 16))
  | writeSingleRegister (addr word : BitVec 16)
  /-- Any other function code. -/
  | other
  deriving DecidableEq

inductive Response where
  | readInputRegisters (words : List (BitVec 16))
  | readHoldingRegisters (words : List (BitVec 16))
  | writeMultipleRegisters (addr count : BitVec 16)
  | writeSingleRegister (addr word : BitVec 16)
  deriving DecidableEq

def readBank (bank : Bank) (addr count : BitVec 16) : Except ExceptionCode (List (BitVec 16)) :=
  let start := addr.toNat
  let stop := start + count.toNat
  if count.toNat = 0 ∨ 125 < count.toNat ∨ bank.length < stop then .error .illegalDataAddress
  else .ok ((bank.drop start).take count.toNat)

/-- Registers of an encoding. -/
def Encoding.words : Encoding → Nat
  | .u16 | .i16 => 1
  | .u32 | .i32 => 2

section

variable {F : Type} [Scalar F]

/-- A NaN saturates to zero. -/
def writeNan (point : Point F) (bank : Bank) : Bank :=
  match point.encoding with
  | .u16 | .i16 => bank.set point.addr 0#16
  | .u32 | .i32 => setPair bank point.addr 0#32

/-- One point of the served bank: re-encoded if the tap reads it otherwise, flipped if it flaps. -/
def servePoint (snap : Snapshot F) (tick : Nat) (bank : Bank) (p : Point F × Nat) : Bank :=
  if p.1.space ≠ .input then bank
  else
    let truth := p.1.extract snap.state
    let bank :=
      match snap.taps.value .modbus p.2 tick truth with
      | none => writeNan p.1 bank
      | some value => if Scalar.sameBits value truth then bank else writePoint p.1 value bank
    if snap.taps.flipped .modbus p.2 tick then
      -- the low word of the encoding carries bit 0
      bank.modify (p.1.addr + p.1.encoding.words - 1) fun word => word ^^^ 1#16
    else bank

/-- The input bank as the device serves it at `tick`. -/
def inputBank (points : List (Point F)) (snap : Snapshot F) (tick : Nat) : Bank :=
  points.zipIdx.foldl (servePoint snap tick) snap.inputRegs

namespace Emulator

/-- The setpoint registers of the snapshot published last, as one value. -/
def shown (e : Emulator F) : BitVec 32 :=
  joinWords (e.snapshot.holdingRegs.getD HOLDING_SETPOINT_ADDR 0#16)
    (e.snapshot.holdingRegs.getD (HOLDING_SETPOINT_ADDR + 1) 0#16)

def currentSetpointW (e : Emulator F) : F := Scalar.ofInt e.shown.toInt

def send (e : Emulator F) (c : Task.Command F) : Except ExceptionCode (Emulator F) :=
  match e.trySend c with
  | some e => .ok e
  | none => .error .serverDeviceBusy

/-- One request and its answer; a refused one leaves the queue alone. -/
def handleRequest (e : Emulator F) : Request → Except ExceptionCode (Emulator F × Response)
  | .readInputRegisters addr count =>
    let snap := e.snapshot
    let bank :=
      if snap.taps.anyOpen .modbus snap.state.tick then
        inputBank e.task.map.points snap snap.state.tick
      else snap.inputRegs
    (readBank bank addr count).map fun words => (e, .readInputRegisters words)
  | .readHoldingRegisters addr count =>
    (readBank e.snapshot.holdingRegs addr count).map fun words =>
      (e, .readHoldingRegisters words)
  | .writeMultipleRegisters addr words =>
    match words with
    | [hi, lo] =>
      if addr.toNat = HOLDING_SETPOINT_ADDR then
        (e.send (.setSetpointW (some (Scalar.ofInt (joinWords hi lo).toInt)))).map fun e =>
          (e, .writeMultipleRegisters addr 2#16)
      else .error .illegalDataAddress
    | _ => .error .illegalDataAddress
  | .writeSingleRegister addr word =>
    if addr.toNat ≠ HOLDING_MODE_ADDR then .error .illegalDataAddress
    else
      match word.toNat with
      | 0 =>
        (e.send (.setSetpointW none)).map fun e => (e, .writeSingleRegister addr word)
      | 1 =>
        (e.send (.setSetpointW (some e.currentSetpointW))).map fun e =>
          (e, .writeSingleRegister addr word)
      | _ => .error .illegalDataValue
  | .other => .error .illegalFunction

end Emulator

def Request.isRead : Request → Bool
  | .readInputRegisters .. | .readHoldingRegisters .. => true
  | .writeMultipleRegisters .. | .writeSingleRegister .. | .other => false

/-- `WriteMultipleRegisters(setpoint registers, v)`. -/
def writeSetpoint (v : BitVec 32) : Request :=
  .writeMultipleRegisters (BitVec.ofNat 16 HOLDING_SETPOINT_ADDR) [highWord v, lowWord v]

/-- `WriteSingleRegister(mode register, 1)`. -/
def writeExternal : Request := .writeSingleRegister (BitVec.ofNat 16 HOLDING_MODE_ADDR) 1#16

namespace Emulator

/-- A read answers, and that is all. -/
theorem read_eq {e e' : Emulator F} {r : Request} {answer : Response} (hr : r.isRead = true)
    (h : e.handleRequest r = .ok (e', answer)) : e' = e := by
  cases r with
  | readInputRegisters addr count =>
    simp only [handleRequest, Except.map] at h
    split at h
    · cases h
    · cases h
      rfl
  | readHoldingRegisters addr count =>
    simp only [handleRequest, Except.map] at h
    split at h
    · cases h
    · cases h
      rfl
  | writeMultipleRegisters addr words => cases hr
  | writeSingleRegister addr word => cases hr
  | other => cases hr

omit [Scalar F] in
theorem send_ok {e e' : Emulator F} {c : Task.Command F} (h : e.send c = .ok e') :
    e.trySend c = some e' := by
  rw [send] at h
  cases ht : e.trySend c with
  | none =>
    rw [ht] at h
    cases h
  | some s =>
    rw [ht] at h
    cases h
    rfl

omit [Scalar F] in
/-- A handler that maps the emulator it sent from has sent the command. -/
theorem sent_of_map {e e' : Emulator F} {c : Task.Command F} {answer a : Response}
    (h : (e.send c).map (fun e => (e, answer)) = .ok (e', a)) : e.trySend c = some e' := by
  cases hs : e.send c with
  | error code =>
    rw [hs] at h
    cases h
  | ok sent =>
    rw [hs] at h
    cases h
    exact send_ok hs

/-- An answered request leaves the emulator alone or sends a setpoint. -/
theorem handleRequest_sends {e e' : Emulator F} {r : Request} {a : Response}
    (h : e.handleRequest r = .ok (e', a)) : e' = e ∨ ∃ w, e.trySend (.setSetpointW w) = some e' := by
  cases r with
  | readInputRegisters addr count => exact .inl (read_eq rfl h)
  | readHoldingRegisters addr count => exact .inl (read_eq rfl h)
  | other => cases h
  | writeMultipleRegisters addr words =>
    simp only [handleRequest] at h
    split at h
    · split at h
      · exact .inr ⟨_, sent_of_map h⟩
      · cases h
    · cases h
  | writeSingleRegister addr word =>
    rw [handleRequest] at h
    split at h
    · cases h
    · split at h
      · exact .inr ⟨_, sent_of_map h⟩
      · exact .inr ⟨_, sent_of_map h⟩
      · cases h

theorem writeSetpoint_eq (e : Emulator F) (v : BitVec 32) :
    e.handleRequest (writeSetpoint v) =
      (e.send (.setSetpointW (some (Scalar.ofInt v.toInt)))).map
        fun e => (e, .writeMultipleRegisters (BitVec.ofNat 16 HOLDING_SETPOINT_ADDR) 2#16) := by
  have hjoin : e.handleRequest (writeSetpoint v) =
      (e.send (.setSetpointW (some (Scalar.ofInt (joinWords (highWord v) (lowWord v)).toInt)))).map
        fun e => (e, .writeMultipleRegisters (BitVec.ofNat 16 HOLDING_SETPOINT_ADDR) 2#16) := rfl
  rw [hjoin, joinWords_split]

theorem writeExternal_eq (e : Emulator F) :
    e.handleRequest writeExternal =
      (e.send (.setSetpointW (some e.currentSetpointW))).map
        fun e => (e, .writeSingleRegister (BitVec.ofNat 16 HOLDING_MODE_ADDR) 1#16) := rfl

/-- An acknowledged setpoint write is owed to the plant. -/
theorem owed_writeSetpoint {e e' : Emulator F} {v : BitVec 32} {answer : Response}
    (h : e.handleRequest (writeSetpoint v) = .ok (e', answer)) :
    e'.owed = (.external, Scalar.ofInt v.toInt) := by
  rw [writeSetpoint_eq] at h
  exact owed_trySend (sent_of_map h)

/-- An acknowledged mode write owes the plant the setpoint the last snapshot showed. -/
theorem owed_writeExternal {e e' : Emulator F} {answer : Response}
    (h : e.handleRequest writeExternal = .ok (e', answer)) :
    e'.owed = (.external, e.currentSetpointW) := by
  rw [writeExternal_eq] at h
  exact owed_trySend (sent_of_map h)

/-- An emulator with one command more in its queue. -/
def push (e : Emulator F) (c : Task.Command F) : Emulator F := { e with queue := e.queue ++ [c] }

omit [Scalar F] in
theorem send_room {e : Emulator F} (h : e.queue.length < COMMAND_QUEUE) (c : Task.Command F) :
    e.send c = .ok (e.push c) := by
  simp only [send, trySend, h, if_true]
  rfl

/-- A setpoint write is acknowledged while the queue has room. -/
theorem writeSetpoint_room {e : Emulator F} (h : e.queue.length < COMMAND_QUEUE) (v : BitVec 32) :
    e.handleRequest (writeSetpoint v) =
      .ok (e.push (.setSetpointW (some (Scalar.ofInt v.toInt))),
        .writeMultipleRegisters (BitVec.ofNat 16 HOLDING_SETPOINT_ADDR) 2#16) := by
  rw [writeSetpoint_eq, send_room h]
  rfl

/-- So is a mode write. -/
theorem writeExternal_room {e : Emulator F} (h : e.queue.length < COMMAND_QUEUE) :
    e.handleRequest writeExternal =
      .ok (e.push (.setSetpointW (some e.currentSetpointW)),
        .writeSingleRegister (BitVec.ofNat 16 HOLDING_MODE_ADDR) 1#16) := by
  rw [writeExternal_eq, send_room h]
  rfl

end Emulator

end

/-- What a snapshot shows of a whole setpoint is that setpoint. -/
theorem shown_snapshot {e : Emulator ℝ} {v : BitVec 32} (t : Task ℝ) (hs : e.snapshot = t.snapshot)
    (hv : t.sim.state.ems.externalSetpointW = Scalar.ofInt v.toInt) : e.shown = v := by
  have hregs := holding_eq t.map t.sim.state
  rw [hv] at hregs
  simp only [wholeIn_setpoint] at hregs
  have hbank : e.snapshot.holdingRegs = (writeBanks t.map.points t.sim.state).holding := by
    rw [hs]
    rfl
  rw [Emulator.shown, hbank, hregs]
  exact joinWords_split v

end Bess
