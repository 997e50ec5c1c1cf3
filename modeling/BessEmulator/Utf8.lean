import Mathlib.Tactic

/-!
# Text as bytes

What the operations on a text's UTF-8 bytes do, and that on ASCII text they are
the operations on its characters.
-/
namespace Utf8

/-- `str::as_bytes`. -/
def bytes (text : List Char) : List UInt8 := text.flatMap String.utf8EncodeChar

/-- `str::is_char_boundary`. -/
def isCharBoundary (b : List UInt8) (i : Nat) : Bool :=
  i = 0 || match b[i]? with
    | none => i = b.length
    | some c => c.toNat < 128 || 192 ≤ c.toNat

/-- `&text[lo..hi]`; `none` where it panics. -/
def slice (b : List UInt8) (lo hi : Nat) : Option (List UInt8) :=
  if lo ≤ hi && isCharBoundary b lo && isCharBoundary b hi then some ((b.drop lo).take (hi - lo))
  else none

def isAsciiDigit (c : UInt8) : Bool := 48 ≤ c.toNat && c.toNat ≤ 57

def checkedI64 (n : Int) : Option Int :=
  if -9223372036854775808 ≤ n ∧ n < 9223372036854775808 then some n else none

/-- The digits of a numeral, after its sign. -/
def magnitude (digits : List UInt8) : Option Nat :=
  if digits.all isAsciiDigit then some (digits.foldl (fun n c => 10 * n + (c.toNat - 48)) 0) else none

/-- `str::parse::<i64>`; `none` where it fails. -/
def parseI64 : List UInt8 → Option Int
  | [] => none
  | [43] => none
  | [45] => none
  | 43 :: digits => (magnitude digits).bind fun n => checkedI64 n
  | 45 :: digits => (magnitude digits).bind fun n => checkedI64 (-n)
  | digits => (magnitude digits).bind fun n => checkedI64 n

/-- Only characters of one byte. -/
def Ascii (text : List Char) : Prop := ∀ c ∈ text, c.toNat < 128

/-- The byte of an ASCII character. -/
def byteOf (c : Char) : UInt8 := UInt8.ofNat c.toNat

theorem encode_ascii {c : Char} (h : c.toNat < 128) : String.utf8EncodeChar c = [byteOf c] := by
  have hv : c.val.toNat ≤ 127 := Nat.le_of_lt_succ h
  rw [String.utf8EncodeChar]
  exact if_pos hv

/-- What is not ASCII starts with a byte that is not either. -/
theorem encode_not_ascii {c : Char} (h : 128 ≤ c.toNat) :
    ∃ b ∈ String.utf8EncodeChar c, 128 ≤ b.toNat := by
  have hv : ¬c.val.toNat ≤ 127 := Nat.not_le_of_lt h
  simp only [String.utf8EncodeChar]
  rw [if_neg hv]
  split_ifs
  · refine ⟨_, List.mem_cons_self, ?_⟩
    rw [UInt8.toNat_ofNat']
    omega
  · refine ⟨_, List.mem_cons_self, ?_⟩
    rw [UInt8.toNat_ofNat']
    omega
  · refine ⟨_, List.mem_cons_self, ?_⟩
    rw [UInt8.toNat_ofNat']
    omega

theorem toNat_byteOf {c : Char} (h : c.toNat < 128) : (byteOf c).toNat = c.toNat := by
  rw [byteOf, UInt8.toNat_ofNat']
  omega

theorem bytes_ascii {text : List Char} (h : Ascii text) : bytes text = text.map byteOf := by
  induction text with
  | nil => rfl
  | cons c text ih =>
    have hc := encode_ascii (h c List.mem_cons_self)
    have hrest := ih fun x hx => h x (List.mem_cons_of_mem c hx)
    rw [bytes, List.flatMap_cons, hc, List.map_cons]
    exact congrArg _ hrest

theorem ascii_of_bytes {text : List Char} (h : ∀ b ∈ bytes text, b.toNat < 128) : Ascii text := by
  intro c hc
  by_contra hlarge
  obtain ⟨b, hb, hbyte⟩ := encode_not_ascii (Nat.le_of_not_lt hlarge)
  have := h b (List.mem_flatMap.mpr ⟨c, hc, hb⟩)
  omega

theorem isAsciiDigit_byteOf {c : Char} (h : c.toNat < 128) : isAsciiDigit (byteOf c) = c.isDigit := by
  rw [isAsciiDigit, toNat_byteOf h, Bool.eq_iff_iff, Char.isDigit_iff_toNat, Bool.and_eq_true,
    decide_eq_true_eq, decide_eq_true_eq]
  exact Iff.rfl

theorem byteOf_inj {c c' : Char} (h : c.toNat < 128) (h' : c'.toNat < 128)
    (heq : byteOf c = byteOf c') : c = c' := by
  have hnat := congrArg UInt8.toNat heq
  rw [toNat_byteOf h, toNat_byteOf h'] at hnat
  rw [← Char.ofNat_toNat c, hnat, Char.ofNat_toNat]

/-- ASCII text is cut anywhere. -/
theorem slice_ascii {text : List Char} (h : Ascii text) {lo hi : Nat} (hle : lo ≤ hi)
    (hlen : hi ≤ text.length) :
    slice (bytes text) lo hi = some (((text.drop lo).take (hi - lo)).map byteOf) := by
  have hboundary : ∀ i ≤ text.length, isCharBoundary (text.map byteOf) i = true := by
    intro i hi
    rw [isCharBoundary, List.getElem?_map]
    cases hget : text[i]? with
    | none =>
      have := List.getElem?_eq_none_iff.mp hget
      simp only [Option.map_none, List.length_map, Bool.or_eq_true, decide_eq_true_eq]
      omega
    | some c =>
      have hc := h c (List.mem_of_getElem? hget)
      simp only [Option.map_some, toNat_byteOf hc, Bool.or_eq_true, decide_eq_true_eq]
      omega
  rw [slice, bytes_ascii h, if_pos, List.map_take, List.map_drop]
  simp only [hboundary lo (hle.trans hlen), hboundary hi hlen, hle, decide_true, Bool.and_self]

/-- The number a run of digits spells. -/
def value (digits : List Char) : Nat := digits.foldl (fun n c => 10 * n + (c.toNat - 48)) 0

/-- A number in so many digits. -/
def pad : Nat → Nat → List Char
  | 0, _ => []
  | width + 1, n => pad width (n / 10) ++ [Char.ofNat (48 + n % 10)]

/-- A field of so many ASCII digits. -/
structure Digits (width : Nat) (field : List Char) : Prop where
  length : field.length = width
  decimal : ∀ c ∈ field, c.isDigit = true

theorem digit_char {n : Nat} (h : n < 10) :
    (Char.ofNat (48 + n)).isDigit = true ∧ (Char.ofNat (48 + n)).toNat - 48 = n := by
  have hall : ∀ n < 10, (Char.ofNat (48 + n)).isDigit = true ∧ (Char.ofNat (48 + n)).toNat - 48 = n := by
    decide
  exact hall n h

theorem digits_pad (width n : Nat) : Digits width (pad width n) := by
  induction width generalizing n with
  | zero => exact ⟨rfl, fun c hc => absurd hc List.not_mem_nil⟩
  | succ width ih =>
    obtain ⟨hlength, hdecimal⟩ := ih (n / 10)
    have hdigit := (digit_char (Nat.mod_lt n (by decide : 0 < 10))).1
    refine ⟨by rw [pad, List.length_append, hlength, List.length_singleton], fun c hc => ?_⟩
    obtain hc | hc := List.mem_append.mp hc
    · exact hdecimal c hc
    · rw [List.mem_singleton.mp hc, hdigit]

theorem value_append (digits : List Char) (c : Char) :
    value (digits ++ [c]) = 10 * value digits + (c.toNat - 48) := by
  rw [value, List.foldl_append]
  rfl

theorem value_pad {width n : Nat} (h : n < 10 ^ width) : value (pad width n) = n := by
  induction width generalizing n with
  | zero =>
    rw [pow_zero] at h
    simp only [pad, value, List.foldl_nil]
    omega
  | succ width ih =>
    have hlast := (digit_char (Nat.mod_lt n (by decide : 0 < 10))).2
    rw [pow_succ] at h
    rw [pad, value_append, ih (by omega), hlast]
    omega

theorem toNat_of_isDigit {c : Char} (h : c.isDigit = true) : 48 ≤ c.toNat ∧ c.toNat ≤ 57 :=
  Char.isDigit_iff_toNat.mp h

/-- A field spells its number, and a number of its width one field. -/
theorem pad_value {width : Nat} {field : List Char} (h : Digits width field) :
    pad width (value field) = field ∧ value field < 10 ^ width := by
  obtain ⟨rfl, hdecimal⟩ := h
  induction field using List.reverseRecOn with
  | nil => exact ⟨rfl, by decide⟩
  | append_singleton field c ih =>
    obtain ⟨hpad, hlt⟩ := ih fun x hx => hdecimal x (List.mem_append_left _ hx)
    obtain ⟨hlow, hhigh⟩ := toNat_of_isDigit (hdecimal c (by simp))
    have hmod : (10 * value field + (c.toNat - 48)) % 10 = c.toNat - 48 := by omega
    have hdiv : (10 * value field + (c.toNat - 48)) / 10 = value field := by omega
    have hchar : 48 + (c.toNat - 48) = c.toNat := by omega
    rw [List.length_append, List.length_singleton, value_append, pow_succ]
    refine ⟨?_, by omega⟩
    rw [pad, hdiv, hmod, hchar, hpad, Char.ofNat_toNat]

/-- A field of digits that fits is read as its number. -/
theorem parseI64_digits {width : Nat} {field : List Char} (h : Digits width field) (hpos : 0 < width)
    (hfits : width ≤ 18) : parseI64 (field.map byteOf) = some (value field : Int) := by
  have hbyte : ∀ c ∈ field, (byteOf c).toNat = c.toNat ∧ isAsciiDigit (byteOf c) = true := by
    intro c hc
    have hascii : c.toNat < 128 := by
      have := toNat_of_isDigit (h.decimal c hc)
      omega
    exact ⟨toNat_byteOf hascii, by rw [isAsciiDigit_byteOf hascii, h.decimal c hc]⟩
  have hfold : (field.map byteOf).foldl (fun n c => 10 * n + (c.toNat - 48)) 0 = value field := by
    rw [value, List.foldl_map]
    exact List.foldl_ext _ _ 0 fun n c hc => by rw [(hbyte c hc).1]
  have hmagnitude : magnitude (field.map byteOf) = some (value field) := by
    rw [magnitude, if_pos, hfold]
    exact List.all_eq_true.mpr (List.forall_mem_map.mpr fun c hc => (hbyte c hc).2)
  have hlt : value field < 10 ^ 18 :=
    (pad_value h).2.trans_le (Nat.pow_le_pow_right (by decide) hfits)
  have hchecked : checkedI64 (value field) = some (value field : Int) :=
    if_pos ⟨by omega, by omega⟩
  -- no sign in front: a digit's byte is neither
  cases field with
  | nil => exact absurd h.length (by simpa using hpos.ne)
  | cons c rest =>
    have hsign : (byteOf c).toNat ≠ 43 ∧ (byteOf c).toNat ≠ 45 := by
      have := toNat_of_isDigit (h.decimal c List.mem_cons_self)
      have := (hbyte c List.mem_cons_self).1
      omega
    have hplus : byteOf c ≠ 43 := fun heq => hsign.1 (by rw [heq]; rfl)
    have hminus : byteOf c ≠ 45 := fun heq => hsign.2 (by rw [heq]; rfl)
    rw [List.map_cons] at hmagnitude ⊢
    rw [parseI64, hmagnitude, Option.bind_some, hchecked]
    · exact List.cons_ne_nil _ _
    · rintro heq
      exact hplus (List.cons.inj heq).1
    · rintro heq
      exact hminus (List.cons.inj heq).1
    · rintro digits heq
      exact hplus (List.cons.inj heq).1
    · rintro digits heq
      exact hminus (List.cons.inj heq).1

end Utf8
