import BessEmulator.Footprint
import BessEmulator.Modbus
import BessEmulator.PointTables

/-!
# Points in the register banks

What a point's registers hold: the pattern of its value, found again by its
encoding. No two points of the map have a register in common.
-/
namespace BessRegisters

open Bess

section

variable {F : Type}

/-- The registers a point occupies in its space. -/
def registers (p : Point F) : List Nat := List.range' p.addr p.encoding.words

/-- A pattern in a point's registers, high word first. -/
def store (p : Point F) (raw : BitVec 32) (bank : Bank) : Bank :=
  match p.encoding with
  | .u16 | .i16 => bank.set p.addr (lowWord raw)
  | .u32 | .i32 => setPair bank p.addr raw

/-- What a point's registers hold; none outside the bank. -/
def load (p : Point F) (bank : Bank) : Option (BitVec 32) :=
  match p.encoding with
  | .u16 | .i16 => bank[p.addr]?.map fun word => word.setWidth 32
  | .u32 | .i32 =>
    bank[p.addr]?.bind fun hi => bank[p.addr + 1]?.map fun lo => joinWords hi lo

/-- The number a pattern stands for: two's complement where the encoding is signed. -/
def decode : Encoding → BitVec 32 → Int
  | .u16, raw => (lowWord raw).toNat
  | .i16, raw => (lowWord raw).toInt
  | .u32, raw => raw.toNat
  | .i32, raw => raw.toInt

/-- The least number an encoding holds. -/
def least : Encoding → Int
  | .u16 | .u32 => 0
  | .i16 => -32768
  | .i32 => -2147483648

/-- The greatest. -/
def greatest : Encoding → Int
  | .u16 => 65535
  | .i16 => 32767
  | .u32 => 4294967295
  | .i32 => 2147483647

/-- The pattern of a number: one word of it, or two. -/
def encode : Encoding → Int → BitVec 32
  | .u16, n | .i16, n => (BitVec.ofInt 16 n).setWidth 32
  | .u32, n | .i32, n => BitVec.ofInt 32 n

/-- A pattern an encoding's registers can hold. -/
def Holds : Encoding → BitVec 32 → Prop
  | .u16, raw | .i16, raw => (lowWord raw).setWidth 32 = raw
  | .u32, _ | .i32, _ => True

theorem lowWord_eq (raw : BitVec 32) : lowWord raw = raw.setWidth 16 := by
  ext i hi
  simp [lowWord]

theorem lowWord_setWidth (word : BitVec 16) : lowWord (word.setWidth 32) = word := by
  rw [lowWord_eq, BitVec.setWidth_setWidth_of_le word (by decide), BitVec.setWidth_eq]

theorem holds_encode (e : Encoding) (n : Int) : Holds e (encode e n) := by
  cases e with
  | u16 => exact congrArg (BitVec.setWidth 32) (lowWord_setWidth _)
  | i16 => exact congrArg (BitVec.setWidth 32) (lowWord_setWidth _)
  | u32 => trivial
  | i32 => trivial

/-- A number in an encoding's range is decoded as itself. -/
theorem decode_encode (e : Encoding) {n : Int} (hlow : least e ≤ n) (hhigh : n ≤ greatest e) :
    decode e (encode e n) = n := by
  cases e with
  | u16 =>
    simp only [least, greatest] at hlow hhigh
    rw [decode, encode, lowWord_setWidth, BitVec.toNat_ofInt]
    omega
  | i16 =>
    simp only [least, greatest] at hlow hhigh
    rw [decode, encode, lowWord_setWidth, BitVec.toInt_ofInt]
    exact Int.bmod_eq_of_le (by omega) (by omega)
  | u32 =>
    simp only [least, greatest] at hlow hhigh
    rw [decode, encode, BitVec.toNat_ofInt]
    omega
  | i32 =>
    simp only [least, greatest] at hlow hhigh
    rw [decode, encode, BitVec.toInt_ofInt]
    exact Int.bmod_eq_of_le (by omega) (by omega)

/-- A pair is read back as it was set. -/
theorem pair_setPair {bank : Bank} {addr : Nat} (hfits : addr + 2 ≤ bank.length) (raw : BitVec 32) :
    ((setPair bank addr raw)[addr]?.bind fun hi =>
      (setPair bank addr raw)[addr + 1]?.map fun lo => joinWords hi lo) = some raw := by
  simp only [setPair]
  rw [List.getElem?_set_ne (by omega), List.getElem?_set_self (by omega),
    List.getElem?_set_self (by rw [List.length_set]; omega), Option.bind_some, Option.map_some,
    joinWords_split]

theorem load_store {p : Point F} {raw : BitVec 32} (hraw : Holds p.encoding raw) {bank : Bank}
    (hfits : p.addr + p.encoding.words ≤ bank.length) : load p (store p raw bank) = some raw := by
  rw [load, store]
  cases he : p.encoding with
  | u16 =>
    rw [he] at hraw hfits
    simp only [List.getElem?_set_self (show p.addr < bank.length from hfits), Option.map_some]
    exact congrArg some hraw
  | i16 =>
    rw [he] at hraw hfits
    simp only [List.getElem?_set_self (show p.addr < bank.length from hfits), Option.map_some]
    exact congrArg some hraw
  | u32 =>
    rw [he] at hfits
    exact pair_setPair hfits raw
  | i32 =>
    rw [he] at hfits
    exact pair_setPair hfits raw

/-- A bank with something in a point's registers has them. -/
theorem fits_of_load {p : Point F} {bank : Bank} {raw : BitVec 32} (h : load p bank = some raw) :
    p.addr + p.encoding.words ≤ bank.length := by
  have hone : ∀ {a : Nat} {word : BitVec 16}, bank[a]? = some word → a < bank.length := fun h =>
    (List.getElem?_eq_some_iff.mp h).1
  rw [load] at h
  cases he : p.encoding with
  | u16 =>
    simp only [he] at h
    obtain ⟨word, hword, -⟩ := Option.map_eq_some_iff.mp h
    exact hone hword
  | i16 =>
    simp only [he] at h
    obtain ⟨word, hword, -⟩ := Option.map_eq_some_iff.mp h
    exact hone hword
  | u32 =>
    simp only [he] at h
    obtain ⟨hi, -, hlo⟩ := Option.bind_eq_some_iff.mp h
    obtain ⟨lo, hlo, -⟩ := Option.map_eq_some_iff.mp hlo
    exact hone hlo
  | i32 =>
    simp only [he] at h
    obtain ⟨hi, -, hlo⟩ := Option.bind_eq_some_iff.mp h
    obtain ⟨lo, hlo, -⟩ := Option.map_eq_some_iff.mp hlo
    exact hone hlo

theorem mem_registers_one {p : Point F} (h : p.encoding.words = 1) {r : Nat} :
    r ∈ registers p ↔ r = p.addr := by
  rw [registers, h, List.mem_range'_1]
  omega

theorem mem_registers_two {p : Point F} (h : p.encoding.words = 2) {r : Nat} :
    r ∈ registers p ↔ r = p.addr ∨ r = p.addr + 1 := by
  rw [registers, h, List.mem_range'_1]
  omega

theorem words_cases (e : Encoding) : e.words = 1 ∨ e.words = 2 := by
  cases e <;> simp [Encoding.words]

@[simp] theorem length_store (p : Point F) (raw : BitVec 32) (bank : Bank) :
    (store p raw bank).length = bank.length := by
  rw [store]
  cases p.encoding <;> simp [setPair]

/-- The word a pattern puts into a register. -/
def wordAt (p : Point F) (raw : BitVec 32) (r : Nat) : BitVec 16 :=
  if p.encoding.words = 2 ∧ r = p.addr then highWord raw else lowWord raw

/-- A store, register by register. -/
theorem getElem?_store (p : Point F) (raw : BitVec 32) (bank : Bank) (r : Nat) :
    (store p raw bank)[r]? =
      if r ∈ registers p then bank[r]?.map fun _ => wordAt p raw r else bank[r]? := by
  have hone : p.encoding.words = 1 → (bank.set p.addr (lowWord raw))[r]? =
      if r ∈ registers p then bank[r]?.map fun _ => wordAt p raw r else bank[r]? := by
    intro h
    simp only [mem_registers_one h, wordAt, h]
    rw [List.getElem?_set']
    by_cases hr : r = p.addr
    · simp [hr]
      rfl
    · simp [hr, Ne.symm hr]
  have htwo : p.encoding.words = 2 → (setPair bank p.addr raw)[r]? =
      if r ∈ registers p then bank[r]?.map fun _ => wordAt p raw r else bank[r]? := by
    intro h
    simp only [mem_registers_two h, wordAt, h, setPair]
    rw [List.getElem?_set', List.getElem?_set']
    by_cases hr : r = p.addr
    · subst hr
      simp
      rfl
    · by_cases hnext : r = p.addr + 1
      · subst hnext
        simp
        rfl
      · have h0 : ¬p.addr = r := fun h => hr h.symm
        have h1 : ¬p.addr + 1 = r := fun h => hnext h.symm
        simp [hr, hnext, h0, h1]
  rw [store]
  cases he : p.encoding with
  | u16 => exact hone (by rw [he]; rfl)
  | i16 => exact hone (by rw [he]; rfl)
  | u32 => exact htwo (by rw [he]; rfl)
  | i32 => exact htwo (by rw [he]; rfl)

/-- The lowest bit of a point turned over. -/
def flipLow (p : Point F) (bank : Bank) : Bank :=
  bank.modify (p.addr + p.encoding.words - 1) fun word => word ^^^ 1#16

theorem getElem?_flipLow (p : Point F) (bank : Bank) (r : Nat) :
    (flipLow p bank)[r]? =
      if r = p.addr + p.encoding.words - 1 then bank[r]?.map fun word => word ^^^ 1#16 else bank[r]? := by
  rw [flipLow, List.getElem?_modify]
  by_cases hr : r = p.addr + p.encoding.words - 1
  · simp [hr]
  · have hne : ¬p.addr + p.encoding.words - 1 = r := fun h => hr h.symm
    simp [hr, hne]

theorem low_mem_registers (p : Point F) : p.addr + p.encoding.words - 1 ∈ registers p := by
  obtain h | h := words_cases p.encoding
  · rw [mem_registers_one h]
    omega
  · rw [mem_registers_two h]
    omega

/-- A pattern with its lowest bit turned over. -/
def flipIf (flipped : Bool) (raw : BitVec 32) : BitVec 32 := if flipped then raw ^^^ 1#32 else raw

theorem setWidth_flip (word : BitVec 16) : (word ^^^ 1#16).setWidth 32 = word.setWidth 32 ^^^ 1#32 := by
  rw [BitVec.setWidth_xor]
  rfl

theorem joinWords_flip (hi lo : BitVec 16) : joinWords hi (lo ^^^ 1#16) = joinWords hi lo ^^^ 1#32 := by
  have hone : (1#32 : BitVec 32) = (0#16 ++ 1#16 : BitVec (16 + 16)) := by decide
  rw [joinWords, joinWords, hone, BitVec.xor_append, BitVec.xor_zero]

theorem load_flipLow (p : Point F) (bank : Bank) :
    load p (flipLow p bank) = (load p bank).map (· ^^^ 1#32) := by
  simp only [load, getElem?_flipLow]
  cases he : p.encoding with
  | u16 =>
    simp only [Encoding.words, Nat.add_sub_cancel, if_true, Option.map_map]
    exact congrFun (congrArg Option.map (funext setWidth_flip)) _
  | i16 =>
    simp only [Encoding.words, Nat.add_sub_cancel, if_true, Option.map_map]
    exact congrFun (congrArg Option.map (funext setWidth_flip)) _
  | u32 =>
    have hlow : p.addr + Encoding.u32.words - 1 = p.addr + 1 := rfl
    have hhigh : ¬p.addr = p.addr + 1 := by omega
    simp only [hlow, hhigh, if_true, if_false]
    cases bank[p.addr]? <;> cases bank[p.addr + 1]? <;> simp [joinWords_flip]
  | i32 =>
    have hlow : p.addr + Encoding.i32.words - 1 = p.addr + 1 := rfl
    have hhigh : ¬p.addr = p.addr + 1 := by omega
    simp only [hlow, hhigh, if_true, if_false]
    cases bank[p.addr]? <;> cases bank[p.addr + 1]? <;> simp [joinWords_flip]

/-- What a point's registers hold is read from them alone. -/
theorem load_congr {p : Point F} {bank other : Bank} (h : ∀ r ∈ registers p, bank[r]? = other[r]?) :
    load p bank = load p other := by
  have hfirst : bank[p.addr]? = other[p.addr]? := by
    refine h _ ?_
    obtain hw | hw := words_cases p.encoding
    · exact (mem_registers_one hw).mpr rfl
    · exact (mem_registers_two hw).mpr (Or.inl rfl)
  have hsecond : p.encoding.words = 2 → bank[p.addr + 1]? = other[p.addr + 1]? :=
    fun hw => h _ ((mem_registers_two hw).mpr (Or.inr rfl))
  rw [load, load]
  cases he : p.encoding with
  | u16 => simp only [hfirst]
  | i16 => simp only [hfirst]
  | u32 => simp only [hfirst, hsecond (by rw [he]; rfl)]
  | i32 => simp only [hfirst, hsecond (by rw [he]; rfl)]

end

section

variable {F : Type} [Scalar F]

/-- The number a value is written as. -/
def number (p : Point F) (value : F) : Int :=
  wholeIn (value * p.scale) (least p.encoding) (greatest p.encoding)

/-- The pattern of what a point reads; a NaN is written as zero. -/
def pattern (p : Point F) : Reading F → BitVec 32
  | none => 0#32
  | some value => encode p.encoding (number p value)

theorem holds_pattern (p : Point F) (reading : Reading F) : Holds p.encoding (pattern p reading) := by
  cases reading with
  | none =>
    rw [pattern]
    cases p.encoding with
    | u16 => exact (by decide : (lowWord 0#32).setWidth 32 = 0#32)
    | i16 => exact (by decide : (lowWord 0#32).setWidth 32 = 0#32)
    | u32 => trivial
    | i32 => trivial
  | some value => exact holds_encode _ _

theorem writePoint_store (p : Point F) (value : F) (bank : Bank) :
    writePoint p value bank = store p (pattern p (some value)) bank := by
  simp only [writePoint, store, pattern, number]
  cases p.encoding with
  | u16 => simp only [encode, least, greatest, lowWord_setWidth]
  | i16 => simp only [encode, least, greatest, lowWord_setWidth]
  | u32 => rfl
  | i32 => rfl

theorem writeNan_store (p : Point F) (bank : Bank) : writeNan p bank = store p (pattern p none) bank := by
  simp only [writeNan, store, pattern]
  cases p.encoding <;> rfl

def bankOf (banks : Banks) : Space → Bank
  | .input => banks.input
  | .holding => banks.holding

/-- One register of the two spaces. -/
def register (banks : Banks) (i : Space × Nat) : Option (BitVec 16) := (bankOf banks i.1)[i.2]?

/-- The registers a point writes. -/
def places (p : Point F) : Set (Space × Nat) := {i | i.1 = p.space ∧ i.2 ∈ registers p}

theorem bankOf_writeInto (state : SiteState F) (banks : Banks) (p : Point F) (space : Space) :
    bankOf (writeInto state banks p) space =
      if space = p.space then store p (pattern p (some (p.extract state))) (bankOf banks space)
      else bankOf banks space := by
  simp only [writeInto]
  cases hp : p.space <;> cases space <;>
    simp only [bankOf, writePoint_store, reduceCtorEq, if_true, if_false]

/-- Publishing a point keeps to its registers. -/
theorem local_writeInto (state : SiteState F) : Footprint.Local register places (writeInto state) where
  frame banks p i hi := by
    rw [register, register, bankOf_writeInto]
    split
    · rename_i hspace
      rw [getElem?_store, if_neg fun h => hi ⟨hspace, h⟩]
    · rfl
  inside banks banks' p hsame i hi := by
    have hbank : (bankOf banks i.1)[i.2]? = (bankOf banks' i.1)[i.2]? := hsame i hi
    rw [register, register, bankOf_writeInto, bankOf_writeInto, if_pos hi.1, if_pos hi.1, getElem?_store,
      getElem?_store, hbank]

end

end BessRegisters
