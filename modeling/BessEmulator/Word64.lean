import Mathlib.Tactic

/-!
# Unsigned 64-bit words

The `u64` and `usize` operations the source relies on, over naturals: plain
operators wrap, as a release build compiles them; checked ones answer `none`.
-/
namespace U64

/-- How many values a word has. -/
def SIZE : Nat := 2 ^ 64

/-- Plain `+`. -/
def add (a b : Nat) : Nat := (a + b) % SIZE

/-- Plain `-`. -/
def sub (a b : Nat) : Nat := (a + SIZE - b) % SIZE

def checked (n : Nat) : Option Nat := if n < SIZE then some n else none

def checkedAdd (a b : Nat) : Option Nat := checked (a + b)

def checkedMul (a b : Nat) : Option Nat := checked (a * b)

def digit (c : Char) : Nat := c.toNat - 48

/-- `str::parse` of ASCII digits. -/
def ofDigits (digits : List Char) : Option Nat :=
  checked (digits.foldl (fun n c => 10 * n + digit c) 0)

theorem size_pos : 0 < SIZE := by decide

theorem checked_eq_some {n m : Nat} : checked n = some m ↔ n = m ∧ n < SIZE := by
  rw [checked]
  split
  · simp [*]
  · simp [*]

theorem checked_lt {n m : Nat} (h : checked n = some m) : m < SIZE := by
  obtain ⟨rfl, hlt⟩ := checked_eq_some.mp h
  exact hlt

/-- A sum that fits is the sum. -/
theorem add_of_lt {a b : Nat} (h : a + b < SIZE) : add a b = a + b := Nat.mod_eq_of_lt h

/-- A sum that does not fit comes out below either word. -/
theorem add_lt_left {a b : Nat} (hb : b < SIZE) (h : SIZE ≤ a + b) (ha : a < SIZE) :
    add a b < a := by
  have hsum : a + b = SIZE + (a + b - SIZE) := by omega
  have hlt : a + b - SIZE < SIZE := by omega
  rw [add, hsum, Nat.add_mod_left, Nat.mod_eq_of_lt hlt]
  omega

/-- Digits with no leading zero, but for the one of zero itself. -/
structure Plain (ds : List Char) : Prop where
  nonempty : ds ≠ []
  decimal : ∀ c ∈ ds, c.isDigit = true
  leading : ds = ['0'] ∨ ds.head? ≠ some '0'

theorem digitChar_digit {c : Char} (h : c.isDigit = true) :
    (digit c).digitChar = c ∧ digit c < 10 := by
  obtain ⟨hlow, hhigh⟩ := Char.isDigit_iff_toNat.mp h
  have hall : ∀ n < 10, n.digitChar = Char.ofNat (n + 48) := by decide
  have hlow' : 48 ≤ c.toNat := hlow
  have hhigh' : c.toNat ≤ 57 := hhigh
  have hlt : digit c < 10 := by
    rw [digit]
    omega
  refine ⟨?_, hlt⟩
  rw [hall _ hlt, digit, Nat.sub_add_cancel hlow', Char.ofNat_toNat]

theorem plain_toDigits (n : Nat) : Plain (Nat.toDigits 10 n) where
  nonempty := Nat.toDigits_ne_nil
  decimal _ hc := Nat.isDigit_of_mem_toDigits (by decide) (by decide) hc
  leading := by
    obtain rfl | hpos := Nat.eq_zero_or_pos n
    · exact Or.inl (Nat.toDigits_zero 10)
    · right
      induction n using Nat.strongRecOn with
      | ind n ih =>
        by_cases hn : n < 10
        · rw [Nat.toDigits_of_lt_base hn, List.head?_cons, ne_eq, Option.some.injEq,
            Nat.digitChar_eq_zero]
          omega
        · rw [Nat.toDigits_of_base_le (by decide) (by omega),
            List.head?_append_of_ne_nil _ Nat.toDigits_ne_nil]
          exact ih (n / 10) (by omega) (by omega)

/-- A printed numeral is the digits of its value. -/
theorem toDigits_value {ds : List Char} (h : Plain ds) :
    Nat.toDigits 10 (Nat.ofDigitChars 10 ds 0) = ds := by
  induction ds using List.reverseRecOn with
  | nil => exact absurd rfl h.nonempty
  | append_singleton init c ih =>
    obtain ⟨hchar, hlt⟩ := digitChar_digit (h.decimal c (by simp))
    have hvalue : Nat.ofDigitChars 10 (init ++ [c]) 0 =
        10 * Nat.ofDigitChars 10 init 0 + digit c := by
      rw [Nat.ofDigitChars_append, Nat.ofDigitChars_cons, Nat.ofDigitChars_nil]
      rfl
    rw [hvalue]
    by_cases hinit : init = []
    · rw [hinit, Nat.ofDigitChars_nil, Nat.mul_zero, Nat.zero_add, Nat.toDigits_of_lt_base hlt, hchar]
      rfl
    · have hleading : init.head? ≠ some '0' := by
        obtain heq | hne := h.leading
        · have := congrArg List.length heq
          have := List.length_pos_of_ne_nil hinit
          simp only [List.length_append, List.length_singleton] at *
          omega
        · rwa [List.head?_append_of_ne_nil _ hinit] at hne
      have hdigits := ih ⟨hinit, fun x hx => h.decimal x (List.mem_append_left _ hx), Or.inr hleading⟩
      have hpos : 0 < Nat.ofDigitChars 10 init 0 := by
        by_contra hzero
        rw [Nat.eq_zero_of_not_pos hzero, Nat.toDigits_zero] at hdigits
        rw [← hdigits] at hleading
        exact hleading rfl
      rw [← Nat.toDigits_append_toDigits (by decide) hpos hlt, hdigits,
        Nat.toDigits_of_lt_base hlt, hchar]

/-- A printed numeral is read back as what was printed, if that is a word. -/
theorem ofDigits_plain {ds : List Char} (h : Plain ds) {n : Nat} :
    ofDigits ds = some n ↔ ds = Nat.toDigits 10 n ∧ n < SIZE := by
  have hfold : ds.foldl (fun n c => 10 * n + digit c) 0 = Nat.ofDigitChars 10 ds 0 :=
    Nat.ofDigitChars_eq_foldl.symm
  rw [ofDigits, hfold, checked_eq_some]
  constructor
  · rintro ⟨rfl, hlt⟩
    exact ⟨(toDigits_value h).symm, hlt⟩
  · rintro ⟨hds, hlt⟩
    have hvalue : Nat.ofDigitChars 10 ds 0 = n := by rw [hds, Nat.ofDigitChars_ten_toDigits]
    exact ⟨hvalue, hvalue ▸ hlt⟩

end U64
