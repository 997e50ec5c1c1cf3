import BessEmulator.Kernel

/-!
# The signal map

Points, how each reads the tree, and how it is written into the register
banks. The telemetry points are a parameter; the control points, the holding
registers a dispatch application writes, are here in full.
-/
namespace Bess

/-- Register space a point lives in. -/
inductive Space where
  | input | holding
  deriving DecidableEq, Repr

/-- Publication class: when MQTT publishes a point. -/
inductive PointClass where
  | fast | medium | slow | event
  deriving DecidableEq, Repr

/-- Least simulated seconds between publications; none for a point published on change. -/
def PointClass.periodS : PointClass → Option Int
  | .fast => some 1
  | .medium => some 10
  | .slow => some 60
  | .event => none

inductive Encoding where
  | u16 | i16 | u32 | i32
  deriving DecidableEq, Repr

structure Point (F : Type) where
  name : String
  unit : String
  pointClass : PointClass
  encoding : Encoding
  scale : F
  addr : Nat
  space : Space
  extract : SiteState F → F

/-- A register bank. -/
abbrev Bank := List (BitVec 16)

def highWord (v : BitVec 32) : BitVec 16 := v.extractLsb' 16 16

def lowWord (v : BitVec 32) : BitVec 16 := v.extractLsb' 0 16

/-- A two-register value, high word first. -/
def joinWords (hi lo : BitVec 16) : BitVec 32 := hi ++ lo

theorem joinWords_split (v : BitVec 32) : joinWords (highWord v) (lowWord v) = v := by
  rw [joinWords, highWord, lowWord]
  rw [BitVec.extractLsb'_append_extractLsb'_eq_extractLsb' (by omega)]
  exact BitVec.extractLsb'_eq_self

section

variable {F : Type} [Scalar F]

/-- A rounded value inside a band, as a whole number. -/
def wholeIn (scaled : F) (lo hi : Int) : Int :=
  Scalar.trunc (Scalar.clamp (Scalar.round scaled) (Scalar.ofInt lo) (Scalar.ofInt hi))

/-- Two registers from `addr` on, high word first. -/
def setPair (bank : Bank) (addr : Nat) (v : BitVec 32) : Bank :=
  (bank.set addr (highWord v)).set (addr + 1) (lowWord v)

/-- Encode one physical value into registers at the point's address. -/
def writePoint (point : Point F) (value : F) (bank : Bank) : Bank :=
  let scaled := value * point.scale
  match point.encoding with
  | .u16 => bank.set point.addr (BitVec.ofInt 16 (wholeIn scaled 0 65535))
  | .i16 => bank.set point.addr (BitVec.ofInt 16 (wholeIn scaled (-32768) 32767))
  | .u32 => setPair bank point.addr (BitVec.ofInt 32 (wholeIn scaled 0 4294967295))
  | .i32 => setPair bank point.addr (BitVec.ofInt 32 (wholeIn scaled (-2147483648) 2147483647))

def INPUT_BANK_LEN : Nat := 2000 + 20 * 10

def HOLDING_BANK_LEN : Nat := 3

structure Banks where
  input : Bank
  holding : Bank

def writeInto (state : SiteState F) (banks : Banks) (point : Point F) : Banks :=
  let value := point.extract state
  match point.space with
  | .input => { banks with input := writePoint point value banks.input }
  | .holding => { banks with holding := writePoint point value banks.holding }

/-- The state tree projected into fresh banks. -/
def writeBanks (points : List (Point F)) (state : SiteState F) : Banks :=
  points.foldl (writeInto state)
    ⟨List.replicate INPUT_BANK_LEN 0#16, List.replicate HOLDING_BANK_LEN 0#16⟩

/-- Site external setpoint, W. -/
def HOLDING_SETPOINT_ADDR : Nat := 0

/-- EMS mode: 0 follows the plan, 1 is external. -/
def HOLDING_MODE_ADDR : Nat := 2

def controlPoints : List (Point F) :=
  [{ name := "control.site_setpoint_w"
     unit := "W"
     pointClass := .fast
     encoding := .i32
     scale := 1.0
     addr := HOLDING_SETPOINT_ADDR
     space := .holding
     extract := fun s => s.ems.externalSetpointW },
    { name := "control.ems_mode"
      unit := "enum"
      pointClass := .fast
      encoding := .u16
      scale := 1.0
      addr := HOLDING_MODE_ADDR
      space := .holding
      extract := fun s => if s.ems.mode = .external then 1 else 0 }]

end

/-- A signal map: the telemetry, all of it in the input space, then the control points. -/
structure SignalMap (F : Type) where
  telemetry : List (Point F)
  telemetry_input : ∀ p ∈ telemetry, p.space = .input

/-- The control points alone. -/
def SignalMap.bare {F : Type} : SignalMap F := ⟨[], fun _ h => absurd h List.not_mem_nil⟩

def SignalMap.points {F : Type} [Scalar F] (m : SignalMap F) : List (Point F) :=
  m.telemetry ++ controlPoints

section

variable {F : Type} [Scalar F]

/-- Telemetry leaves the holding bank alone. -/
theorem holding_telemetry (state : SiteState F) (ps : List (Point F))
    (h : ∀ p ∈ ps, p.space = .input) (banks : Banks) :
    (ps.foldl (writeInto state) banks).holding = banks.holding := by
  induction ps generalizing banks with
  | nil => rfl
  | cons p ps ih =>
    rw [List.foldl_cons, ih fun q hq => h q (List.mem_cons_of_mem _ hq), writeInto,
      h p List.mem_cons_self]

/-- The holding bank is the setpoint, high word first, and the mode. -/
theorem holding_eq (m : SignalMap F) (state : SiteState F) :
    let v : BitVec 32 :=
      BitVec.ofInt 32 (wholeIn (state.ems.externalSetpointW * 1.0) (-2147483648) 2147483647)
    let mode : F := if state.ems.mode = .external then 1 else 0
    (writeBanks m.points state).holding =
      [highWord v, lowWord v, BitVec.ofInt 16 (wholeIn (mode * 1.0) 0 65535)] := by
  rw [writeBanks, SignalMap.points]
  rw [List.foldl_append]
  have h := holding_telemetry state m.telemetry m.telemetry_input
    ⟨List.replicate INPUT_BANK_LEN 0#16, List.replicate HOLDING_BANK_LEN 0#16⟩
  simp only [controlPoints, List.foldl_cons, List.foldl_nil, writeInto, writePoint, setPair, h]
  rfl

end

/-- A whole number inside the band is written as it is. -/
theorem wholeIn_whole {n lo hi : Int} (hlo : lo ≤ n) (hhi : n ≤ hi) :
    wholeIn (n : ℝ) lo hi = n := by
  rw [wholeIn, Scalar.round_whole, Scalar.ofInt_real, Scalar.ofInt_real, Scalar.clamp_of_mem,
    Scalar.trunc_whole]
  · exact_mod_cast hlo
  · exact_mod_cast hhi

/-- A setpoint that came from a register pair goes back into it unchanged. -/
theorem wholeIn_setpoint (v : BitVec 32) :
    BitVec.ofInt 32 (wholeIn (Scalar.ofInt v.toInt * (1.0 : ℝ)) (-2147483648) 2147483647) = v := by
  have hlo : -2147483648 ≤ v.toInt := by
    have := BitVec.le_toInt v
    norm_num at this
    exact this
  have hhi : v.toInt ≤ 2147483647 := by
    have := BitVec.toInt_lt (x := v)
    norm_num at this
    omega
  have hone : Scalar.ofInt v.toInt * (1.0 : ℝ) = ((v.toInt : Int) : ℝ) := by
    rw [Scalar.ofInt_real]
    norm_num
  rw [hone, wholeIn_whole hlo hhi, BitVec.ofInt_toInt]

end Bess
