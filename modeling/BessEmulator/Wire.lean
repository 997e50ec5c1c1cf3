import Mathlib.Tactic

/-!
# Bytes of fixed-width words

Little-endian words, runs of them, and reads that answer nothing outside the
bytes. A run is written and read back word by word, and bytes of its length are
one run and no other.
-/
namespace Wire

/-- So many bytes of a number, lowest first. -/
def leBytes : Nat → Nat → List UInt8
  | 0, _ => []
  | width + 1, n => UInt8.ofNat (n % 256) :: leBytes width (n / 256)

/-- The number bytes spell, lowest first. -/
def leValue : List UInt8 → Nat
  | [] => 0
  | b :: bytes => b.toNat + 256 * leValue bytes

@[simp] theorem length_leBytes (width n : Nat) : (leBytes width n).length = width := by
  induction width generalizing n with
  | zero => rfl
  | succ width ih => rw [leBytes, List.length_cons, ih]

theorem leValue_leBytes {width n : Nat} (h : n < 256 ^ width) : leValue (leBytes width n) = n := by
  induction width generalizing n with
  | zero =>
    rw [pow_zero] at h
    simp only [leBytes, leValue]
    omega
  | succ width ih =>
    rw [pow_succ] at h
    rw [leBytes, leValue, ih (by omega), UInt8.toNat_ofNat']
    omega

theorem leValue_lt (bytes : List UInt8) : leValue bytes < 256 ^ bytes.length := by
  induction bytes with
  | nil => decide
  | cons b bytes ih =>
    have hb : b.toNat < 256 := b.toNat_lt
    rw [leValue, List.length_cons, pow_succ]
    omega

theorem leBytes_leValue (bytes : List UInt8) : leBytes bytes.length (leValue bytes) = bytes := by
  induction bytes with
  | nil => rfl
  | cons b bytes ih =>
    have hb : b.toNat < 256 := b.toNat_lt
    have hmod : (b.toNat + 256 * leValue bytes) % 256 = b.toNat := by omega
    have hdiv : (b.toNat + 256 * leValue bytes) / 256 = leValue bytes := by omega
    rw [List.length_cons, leValue, leBytes, hmod, hdiv, ih, UInt8.ofNat_toNat]

/-- A type whose values are the numbers of so many bytes. -/
structure Word (α : Type) where
  width : Nat
  toNat : α → Nat
  ofNat : Nat → α
  width_pos : 0 < width
  toNat_lt : ∀ a, toNat a < 256 ^ width
  ofNat_toNat : ∀ a, ofNat (toNat a) = a
  toNat_ofNat : ∀ n, n < 256 ^ width → toNat (ofNat n) = n

def u16 : Word UInt16 where
  width := 2
  toNat := UInt16.toNat
  ofNat := UInt16.ofNat
  width_pos := by decide
  toNat_lt := UInt16.toNat_lt
  ofNat_toNat _ := UInt16.ofNat_toNat
  toNat_ofNat _ h := UInt16.toNat_ofNat_of_lt' h

def i16 : Word Int16 where
  width := 2
  toNat v := v.toUInt16.toNat
  ofNat n := ⟨UInt16.ofNat n⟩
  width_pos := by decide
  toNat_lt v := v.toUInt16.toNat_lt
  ofNat_toNat v := congrArg Int16.ofUInt16 UInt16.ofNat_toNat
  toNat_ofNat _ h := UInt16.toNat_ofNat_of_lt' h

def i32 : Word Int32 where
  width := 4
  toNat v := v.toUInt32.toNat
  ofNat n := ⟨UInt32.ofNat n⟩
  width_pos := by decide
  toNat_lt v := v.toUInt32.toNat_lt
  ofNat_toNat v := congrArg Int32.ofUInt32 UInt32.ofNat_toNat
  toNat_ofNat _ h := UInt32.toNat_ofNat_of_lt' h

@[simp] theorem width_u16 : u16.width = 2 := rfl

@[simp] theorem width_i16 : i16.width = 2 := rfl

@[simp] theorem width_i32 : i32.width = 4 := rfl

/-- `start..end` of the bytes; none when it does not lie in them. -/
def slice (bytes : List UInt8) (lo hi : Nat) : Option (List UInt8) :=
  if lo ≤ hi ∧ hi ≤ bytes.length then some ((bytes.drop lo).take (hi - lo)) else none

/-- `as_chunks`, without the remainder. -/
def chunks (width : Nat) (bytes : List UInt8) : List (List UInt8) :=
  (List.range (bytes.length / width)).map fun i => (bytes.drop (i * width)).take width

namespace Word

variable {α : Type} (w : Word α)

/-- `to_le_bytes`. -/
def toLeBytes (a : α) : List UInt8 := leBytes w.width (w.toNat a)

/-- `from_le_bytes`. -/
def fromLeBytes (bytes : List UInt8) : α := w.ofNat (leValue bytes)

/-- The word at an offset; none when it does not lie in the bytes. -/
def readAt (bytes : List UInt8) (offset : Nat) : Option α :=
  (slice bytes offset (offset + w.width)).map w.fromLeBytes

/-- Words one after the other. -/
def series (values : List α) : List UInt8 := values.flatMap w.toLeBytes

/-- The words of a run of bytes. -/
def readSeries (bytes : List UInt8) : List α := (chunks w.width bytes).map w.fromLeBytes

@[simp] theorem length_toLeBytes (a : α) : (w.toLeBytes a).length = w.width := length_leBytes _ _

@[simp] theorem fromLeBytes_toLeBytes (a : α) : w.fromLeBytes (w.toLeBytes a) = a := by
  rw [fromLeBytes, toLeBytes, leValue_leBytes (w.toNat_lt a), w.ofNat_toNat]

theorem toLeBytes_fromLeBytes {bytes : List UInt8} (h : bytes.length = w.width) :
    w.toLeBytes (w.fromLeBytes bytes) = bytes := by
  have hlt := leValue_lt bytes
  rw [h] at hlt
  rw [toLeBytes, fromLeBytes, w.toNat_ofNat _ hlt, ← h, leBytes_leValue]

@[simp] theorem series_nil : w.series [] = [] := rfl

theorem series_cons (a : α) (values : List α) :
    w.series (a :: values) = w.toLeBytes a ++ w.series values := List.flatMap_cons

@[simp] theorem length_series (values : List α) : (w.series values).length = values.length * w.width := by
  induction values with
  | nil => simp
  | cons a values ih =>
    rw [series_cons, List.length_append, length_toLeBytes, ih, List.length_cons]
    ring

end Word

theorem slice_append (before middle after : List UInt8) {lo hi : Nat}
    (hlo : before.length = lo) (hhi : lo + middle.length = hi) :
    slice (before ++ (middle ++ after)) lo hi = some middle := by
  subst hlo hhi
  rw [slice, if_pos, List.drop_left, Nat.add_sub_cancel_left, List.take_left]
  simp only [List.length_append]
  omega

/-- What stands from an offset on. -/
def TailAt (bytes : List UInt8) (offset : Nat) (tail : List UInt8) : Prop :=
  ∃ front, bytes = front ++ tail ∧ front.length = offset

namespace TailAt

variable {bytes middle after : List UInt8} {offset size : Nat}

/-- The front of the tail is the slice there. -/
theorem slice (h : TailAt bytes offset (middle ++ after)) (hsize : middle.length = size) :
    Wire.slice bytes offset (offset + size) = some middle := by
  obtain ⟨front, rfl, hfront⟩ := h
  exact slice_append front middle after hfront (by rw [hsize])

/-- The whole tail is the last slice. -/
theorem last (h : TailAt bytes offset middle) (hsize : middle.length = size) :
    Wire.slice bytes offset (offset + size) = some middle := by
  obtain ⟨front, rfl, hfront⟩ := h
  have hslice := slice_append front middle [] hfront (congrArg (offset + ·) hsize)
  rwa [List.append_nil] at hslice

theorem skip (h : TailAt bytes offset (middle ++ after)) (hsize : middle.length = size) :
    TailAt bytes (offset + size) after := by
  obtain ⟨front, rfl, rfl⟩ := h
  exact ⟨front ++ middle, by rw [List.append_assoc], by rw [List.length_append, hsize]⟩

end TailAt

theorem chunks_append {width : Nat} (hpos : 0 < width) {chunk : List UInt8} (h : chunk.length = width)
    (bytes : List UInt8) : chunks width (chunk ++ bytes) = chunk :: chunks width bytes := by
  have hcount : (chunk ++ bytes).length / width = bytes.length / width + 1 := by
    rw [List.length_append, h, Nat.add_comm, Nat.add_div_right _ hpos]
  rw [chunks, hcount, List.range_succ_eq_map, List.map_cons, List.map_map]
  congr 1
  · rw [Nat.zero_mul, List.drop_zero, ← h, List.take_left]
  · refine List.map_congr_left fun i _ => ?_
    have hskip : (i + 1) * width = chunk.length + i * width := by
      rw [h]
      ring
    simp only [Function.comp_apply, hskip, List.drop_append]
    rw [List.drop_eq_nil_of_le (Nat.le_add_right _ _), Nat.add_sub_cancel_left, List.nil_append]

namespace Word

variable {α : Type} (w : Word α)

/-- A word is read where it was written. -/
theorem readAt_append (before after : List UInt8) (a : α) {offset : Nat} (h : before.length = offset) :
    w.readAt (before ++ (w.toLeBytes a ++ after)) offset = some a := by
  rw [readAt, slice_append _ _ after h (by rw [length_toLeBytes]), Option.map_some,
    fromLeBytes_toLeBytes]

theorem series_append (values others : List α) :
    w.series (values ++ others) = w.series values ++ w.series others := List.flatMap_append

/-- A word of a run is read where it stands in it. -/
theorem readAt_series (before after : List UInt8) {values : List α} {i : Nat} {a : α}
    (ha : values[i]? = some a) {offset : Nat} (h : before.length + i * w.width = offset) :
    w.readAt (before ++ (w.series values ++ after)) offset = some a := by
  obtain ⟨hi, hget⟩ := List.getElem?_eq_some_iff.mp ha
  have hsplit : values = values.take i ++ a :: values.drop (i + 1) := by
    rw [← hget, List.cons_getElem_drop_succ, List.take_append_drop]
  have hbefore : (before ++ w.series (values.take i)).length = offset := by
    rw [List.length_append, length_series, List.length_take_of_le hi.le, h]
  have hread := w.readAt_append _ (w.series (values.drop (i + 1)) ++ after) a hbefore
  rw [hsplit, series_append, series_cons]
  simpa only [List.append_assoc] using hread

/-- A run is read back as it was written. -/
@[simp] theorem readSeries_series (values : List α) : w.readSeries (w.series values) = values := by
  induction values with
  | nil => simp [readSeries, chunks]
  | cons a values ih =>
    rw [series_cons, readSeries, chunks_append w.width_pos (w.length_toLeBytes a), List.map_cons,
      fromLeBytes_toLeBytes]
    exact congrArg (a :: ·) ih

/-- Bytes of a word's length are a word. -/
theorem exists_word (bytes : List UInt8) (h : w.width ≤ bytes.length) :
    ∃ a rest, bytes = w.toLeBytes a ++ rest ∧ rest.length = bytes.length - w.width := by
  refine ⟨w.fromLeBytes (bytes.take w.width), bytes.drop w.width, ?_, List.length_drop⟩
  rw [w.toLeBytes_fromLeBytes (List.length_take_of_le h), List.take_append_drop]

/-- Bytes of a run's length start with a run. -/
theorem exists_series (count : Nat) (bytes : List UInt8) (h : count * w.width ≤ bytes.length) :
    ∃ values rest, bytes = w.series values ++ rest ∧ values.length = count ∧
      rest.length = bytes.length - count * w.width := by
  induction count generalizing bytes with
  | zero => exact ⟨[], bytes, rfl, rfl, by rw [Nat.zero_mul, Nat.sub_zero]⟩
  | succ count ih =>
    rw [Nat.succ_mul] at h ⊢
    obtain ⟨a, tail, hbytes, htail⟩ := w.exists_word bytes ((Nat.le_add_left _ _).trans h)
    obtain ⟨values, rest, heq, hcount, hrest⟩ := ih tail (by omega)
    refine ⟨a :: values, rest, ?_, by rw [List.length_cons, hcount], by omega⟩
    rw [hbytes, heq, series_cons, List.append_assoc]

end Word

/-- Bytes of one length that agree but for a range. -/
def AgreeOutside (lo hi : Nat) (a b : List UInt8) : Prop :=
  a.length = b.length ∧ ∀ i, i < lo ∨ hi ≤ i → a[i]? = b[i]?

theorem agreeOutside_append (front after : List UInt8) {a b : List UInt8} {lo hi : Nat}
    (hlo : front.length = lo) (ha : lo + a.length = hi) (hb : lo + b.length = hi) :
    AgreeOutside lo hi (front ++ (a ++ after)) (front ++ (b ++ after)) := by
  subst hlo
  refine ⟨by simp only [List.length_append]; omega, fun i hi => ?_⟩
  obtain hi | hi := hi
  · rw [List.getElem?_append_left hi, List.getElem?_append_left hi]
  · rw [List.getElem?_append_right (by omega), List.getElem?_append_right (by omega),
      List.getElem?_append_right (by omega), List.getElem?_append_right (by omega)]
    congr 1
    omega

end Wire
