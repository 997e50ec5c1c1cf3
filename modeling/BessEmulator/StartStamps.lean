import BessEmulator.Validate
import BessEmulator.CivilDates
import BessEmulator.Utf8

/-!
# Start stamps

The stamp's reader on the bytes of the text, where a slice may fall inside a
character and a numeral may fail; it never does either, and what it accepts is
what a date and a time of day are written as.
-/
namespace Bess

/-- The shape of a stamp's bytes. -/
def startShape (bytes : List UInt8) : Bool :=
  bytes.length = 20 && bytes.zipIdx.all fun (c, i) =>
    match i with
    | 4 | 7 => c = 45
    | 10 => c = 84
    | 13 | 16 => c = 58
    | 19 => c = 90
    | _ => Utf8.isAsciiDigit c

/-- `parse_start` on bytes; `none` where it panics. -/
def parseStartBytes (text : String) : Option (Except String Int) :=
  let chars := text.toList
  if chars.any fun c => c = '.' ∨ c = ',' then some (.error "whole seconds only, no fraction")
  else if chars.getLast? ≠ some 'Z' then some (.error "UTC only: end with Z, no offset")
  else
    let bytes := Utf8.bytes chars
    if !startShape bytes then some (.error "the form is YYYY-MM-DDThh:mm:ssZ")
    else do
      let num := fun lo hi => (Utf8.slice bytes lo hi).bind Utf8.parseI64
      let year ← num 0 4
      let month ← num 5 7
      let day ← num 8 10
      let hour ← num 11 13
      let minute ← num 14 16
      let second ← num 17 19
      let days := Calendar.daysFromCivil year month day
      let realDate := decide (1 ≤ month ∧ month ≤ 12) &&
        decide (Calendar.civilFromDays days = (year, month, day))
      if !realDate || 23 < hour || 59 < minute || 59 < second then
        some (.error "not a calendar date and time")
      else some (.ok (days * 86400 + hour * 3600 + minute * 60 + second))

end Bess

namespace BessStamp

open Bess BessCivil Gregorian Utf8

/-- Six fields of digits, and what stands between them. -/
def written (year month day hour minute second : List Char) : List Char :=
  year ++ '-' :: month ++ '-' :: day ++ 'T' :: hour ++ ':' :: minute ++ ':' :: second ++ ['Z']

/-- The fields of a stamp's characters. -/
structure Fields (chars : List Char) where
  year : List Char
  month : List Char
  day : List Char
  hour : List Char
  minute : List Char
  second : List Char
  year_digits : Digits 4 year
  month_digits : Digits 2 month
  day_digits : Digits 2 day
  hour_digits : Digits 2 hour
  minute_digits : Digits 2 minute
  second_digits : Digits 2 second
  chars_eq : chars = written year month day hour minute second

/-- What the shape asks of one place. -/
def place (c : Char) : Nat → Bool
  | 4 | 7 => c = '-'
  | 10 => c = 'T'
  | 13 | 16 => c = ':'
  | 19 => c = 'Z'
  | _ => c.isDigit

theorem stampShape_eq (chars : List Char) :
    stampShape chars = (decide (chars.length = 20) && chars.zipIdx.all fun (c, i) => place c i) := rfl

theorem stampShape_fields {chars : List Char} (h : stampShape chars = true) :
    Nonempty (Fields chars) := by
  rw [stampShape_eq, Bool.and_eq_true, decide_eq_true_eq] at h
  obtain ⟨hlen, hall⟩ := h
  obtain ⟨f, rfl⟩ : ∃ f : Fin 20 → Char, chars = List.ofFn f := by
    refine ⟨fun i => chars.get (i.cast hlen.symm), List.ext_getElem ?_ fun i _ _ => ?_⟩
    · rw [List.length_ofFn, hlen]
    · rw [List.getElem_ofFn]
      rfl
  have hplace : ∀ i : Fin 20, place (f i) i = true := by
    intro i
    refine List.all_eq_true.mp hall (f i, i) (List.mem_zipIdx_iff_getElem?.mpr ?_)
    rw [List.getElem?_ofFn]
    simp
  have hdash : f 4 = '-' ∧ f 7 = '-' := ⟨of_decide_eq_true (hplace 4), of_decide_eq_true (hplace 7)⟩
  have hcolon : f 13 = ':' ∧ f 16 = ':' :=
    ⟨of_decide_eq_true (hplace 13), of_decide_eq_true (hplace 16)⟩
  have hends : f 10 = 'T' ∧ f 19 = 'Z' :=
    ⟨of_decide_eq_true (hplace 10), of_decide_eq_true (hplace 19)⟩
  have hpair : ∀ a b : Char, a.isDigit = true → b.isDigit = true → Digits 2 [a, b] := by
    intro a b ha hb
    exact ⟨rfl, by simp [ha, hb]⟩
  have hyear : Digits 4 [f 0, f 1, f 2, f 3] := by
    have h0 : (f 0).isDigit = true := hplace 0
    have h1 : (f 1).isDigit = true := hplace 1
    have h2 : (f 2).isDigit = true := hplace 2
    have h3 : (f 3).isDigit = true := hplace 3
    exact ⟨rfl, by simp [h0, h1, h2, h3]⟩
  refine ⟨⟨[f 0, f 1, f 2, f 3], [f 5, f 6], [f 8, f 9], [f 11, f 12], [f 14, f 15], [f 17, f 18],
    hyear, hpair _ _ (hplace 5) (hplace 6), hpair _ _ (hplace 8) (hplace 9),
    hpair _ _ (hplace 11) (hplace 12), hpair _ _ (hplace 14) (hplace 15),
    hpair _ _ (hplace 17) (hplace 18), ?_⟩⟩
  have hwritten : List.ofFn f = [f 0, f 1, f 2, f 3, f 4, f 5, f 6, f 7, f 8, f 9, f 10, f 11, f 12,
      f 13, f 14, f 15, f 16, f 17, f 18, f 19] := rfl
  rw [hwritten, hdash.1, hdash.2, hcolon.1, hcolon.2, hends.1, hends.2]
  rfl

theorem exists_pair {field : List Char} (h : Digits 2 field) :
    ∃ a b : Char, field = [a, b] ∧ a.isDigit = true ∧ b.isDigit = true := by
  obtain ⟨a, b, rfl⟩ := List.length_eq_two.mp h.length
  exact ⟨a, b, rfl, h.decimal a (by simp), h.decimal b (by simp)⟩

theorem exists_four {field : List Char} (h : Digits 4 field) :
    ∃ a b c d : Char, field = [a, b, c, d] ∧ a.isDigit = true ∧ b.isDigit = true ∧
      c.isDigit = true ∧ d.isDigit = true := by
  obtain ⟨a, b, c, d, rfl⟩ : ∃ a b c d : Char, field = [a, b, c, d] := by
    match field, h.length with
    | [a, b, c, d], _ => exact ⟨a, b, c, d, rfl⟩
  exact ⟨a, b, c, d, rfl, h.decimal a (by simp), h.decimal b (by simp), h.decimal c (by simp),
    h.decimal d (by simp)⟩

theorem Fields.stampShape {chars : List Char} (f : Fields chars) : stampShape chars = true := by
  obtain ⟨y₀, y₁, y₂, y₃, hyear, hy₀, hy₁, hy₂, hy₃⟩ := exists_four f.year_digits
  obtain ⟨m₀, m₁, hmonth, hm₀, hm₁⟩ := exists_pair f.month_digits
  obtain ⟨d₀, d₁, hday, hd₀, hd₁⟩ := exists_pair f.day_digits
  obtain ⟨h₀, h₁, hhour, hh₀, hh₁⟩ := exists_pair f.hour_digits
  obtain ⟨n₀, n₁, hminute, hn₀, hn₁⟩ := exists_pair f.minute_digits
  obtain ⟨s₀, s₁, hsecond, hs₀, hs₁⟩ := exists_pair f.second_digits
  rw [f.chars_eq, hyear, hmonth, hday, hhour, hminute, hsecond]
  simp [stampShape_eq, written, place, *]

theorem place_lt {c : Char} {i : Nat} (h : place c i = true) : c.toNat < 128 := by
  rw [place.eq_def] at h
  split at h
  · rw [of_decide_eq_true h]
    decide
  · rw [of_decide_eq_true h]
    decide
  · rw [of_decide_eq_true h]
    decide
  · rw [of_decide_eq_true h]
    decide
  · rw [of_decide_eq_true h]
    decide
  · rw [of_decide_eq_true h]
    decide
  · have := toNat_of_isDigit h
    omega

theorem ascii_of_shape {chars : List Char} (h : stampShape chars = true) : Ascii chars := by
  rw [stampShape_eq, Bool.and_eq_true] at h
  intro c hc
  obtain ⟨i, hi⟩ := List.mem_iff_getElem?.mp hc
  exact place_lt (List.all_eq_true.mp h.2 (c, i) (List.mem_zipIdx_iff_getElem?.mpr hi))

/-- What the shape asks of one byte. -/
def bytePlace (c : UInt8) : Nat → Bool
  | 4 | 7 => c = 45
  | 10 => c = 84
  | 13 | 16 => c = 58
  | 19 => c = 90
  | _ => isAsciiDigit c

theorem startShape_eq (b : List UInt8) :
    startShape b = (decide (b.length = 20) && b.zipIdx.all fun (c, i) => bytePlace c i) := rfl

theorem bytePlace_lt {c : UInt8} {i : Nat} (h : bytePlace c i = true) : c.toNat < 128 := by
  rw [bytePlace.eq_def] at h
  split at h
  · rw [of_decide_eq_true h]
    decide
  · rw [of_decide_eq_true h]
    decide
  · rw [of_decide_eq_true h]
    decide
  · rw [of_decide_eq_true h]
    decide
  · rw [of_decide_eq_true h]
    decide
  · rw [of_decide_eq_true h]
    decide
  · rw [isAsciiDigit, Bool.and_eq_true, decide_eq_true_eq, decide_eq_true_eq] at h
    omega

theorem byteOf_eq_iff {c c' : Char} (h : c.toNat < 128) (h' : c'.toNat < 128) :
    decide (byteOf c = byteOf c') = decide (c = c') :=
  decide_eq_decide.mpr ⟨byteOf_inj h h', congrArg byteOf⟩

theorem bytePlace_byteOf {c : Char} (h : c.toNat < 128) (i : Nat) :
    bytePlace (byteOf c) i = place c i := by
  rw [bytePlace.eq_def, place.eq_def]
  split
  · exact byteOf_eq_iff h (by decide : '-'.toNat < 128)
  · exact byteOf_eq_iff h (by decide : '-'.toNat < 128)
  · exact byteOf_eq_iff h (by decide : 'T'.toNat < 128)
  · exact byteOf_eq_iff h (by decide : ':'.toNat < 128)
  · exact byteOf_eq_iff h (by decide : ':'.toNat < 128)
  · exact byteOf_eq_iff h (by decide : 'Z'.toNat < 128)
  · exact isAsciiDigit_byteOf h

theorem startShape_ascii {chars : List Char} (h : Ascii chars) :
    startShape (bytes chars) = stampShape chars := by
  rw [bytes_ascii h, startShape_eq, stampShape_eq, List.length_map, List.zipIdx_map, List.all_map]
  congr 1
  rw [Bool.eq_iff_iff, List.all_eq_true, List.all_eq_true]
  refine forall₂_congr fun ⟨c, i⟩ hmem => ?_
  have hc : c ∈ chars := List.mem_of_getElem? (List.mem_zipIdx_iff_getElem?.mp hmem)
  exact iff_of_eq (congrArg (· = true) (bytePlace_byteOf (h c hc) i))

/-- A text whose bytes have the shape is ASCII: nothing in it is longer than a byte. -/
theorem startShape_eq_stampShape (chars : List Char) : startShape (bytes chars) = stampShape chars := by
  rw [Bool.eq_iff_iff]
  constructor
  · intro h
    have hascii : Ascii chars := by
      refine ascii_of_bytes fun b hb => ?_
      rw [startShape_eq, Bool.and_eq_true] at h
      obtain ⟨i, hi⟩ := List.mem_iff_getElem?.mp hb
      exact bytePlace_lt (List.all_eq_true.mp h.2 (b, i) (List.mem_zipIdx_iff_getElem?.mpr hi))
    rwa [startShape_ascii hascii] at h
  · intro h
    rwa [startShape_ascii (ascii_of_shape h)]

/-- Where each field stands. -/
theorem Fields.cuts {chars : List Char} (f : Fields chars) :
    (chars.drop 0).take 4 = f.year ∧ (chars.drop 5).take 2 = f.month ∧
      (chars.drop 8).take 2 = f.day ∧ (chars.drop 11).take 2 = f.hour ∧
        (chars.drop 14).take 2 = f.minute ∧ (chars.drop 17).take 2 = f.second := by
  obtain ⟨y₀, y₁, y₂, y₃, hyear, -⟩ := exists_four f.year_digits
  obtain ⟨m₀, m₁, hmonth, -⟩ := exists_pair f.month_digits
  obtain ⟨d₀, d₁, hday, -⟩ := exists_pair f.day_digits
  obtain ⟨h₀, h₁, hhour, -⟩ := exists_pair f.hour_digits
  obtain ⟨n₀, n₁, hminute, -⟩ := exists_pair f.minute_digits
  obtain ⟨s₀, s₁, hsecond, -⟩ := exists_pair f.second_digits
  have hchars := f.chars_eq
  rw [hyear, hmonth, hday, hhour, hminute, hsecond] at hchars
  rw [hyear, hmonth, hday, hhour, hminute, hsecond, hchars]
  exact ⟨rfl, rfl, rfl, rfl, rfl, rfl⟩

theorem Fields.length {chars : List Char} (f : Fields chars) : chars.length = 20 := by
  have := f.stampShape
  rw [stampShape_eq, Bool.and_eq_true, decide_eq_true_eq] at this
  exact this.1

/-- A field's bytes are cut out and read as its number. -/
theorem num_field {chars : List Char} (f : Fields chars) (lo width : Nat) {field : List Char}
    (hhi : lo + width ≤ 20) (hcut : (chars.drop lo).take width = field) (hdigits : Digits width field)
    (hpos : 0 < width) (hfits : width ≤ 18) :
    (slice (bytes chars) lo (lo + width)).bind parseI64 = some (value field : Int) := by
  have hascii := ascii_of_shape f.stampShape
  rw [slice_ascii hascii (Nat.le_add_right lo width) (by rw [f.length]; exact hhi),
    Nat.add_sub_cancel_left, hcut, Option.bind_some]
  exact parseI64_digits hdigits hpos hfits

/-- What the reader makes of the six numbers. -/
def ofNumbers (year month day hour minute second : Int) : Except String Int :=
  let days := Calendar.daysFromCivil year month day
  let realDate := decide (1 ≤ month ∧ month ≤ 12) &&
    decide (Calendar.civilFromDays days = (year, month, day))
  if !realDate || 23 < hour || 59 < minute || 59 < second then .error "not a calendar date and time"
  else .ok (days * 86400 + hour * 3600 + minute * 60 + second)

/-- What the reader makes of six fields. -/
def ofFields {chars : List Char} (f : Fields chars) : Except String Int :=
  ofNumbers (value f.year) (value f.month) (value f.day) (value f.hour) (value f.minute) (value f.second)

theorem foldl_value (digits : List Char) (n : Nat) :
    digits.foldl (fun n c => 10 * n + (U64.digit c : Int)) (n : Int) =
      (digits.foldl (fun n c => 10 * n + (c.toNat - 48)) n : Nat) := by
  induction digits generalizing n with
  | nil => rfl
  | cons c digits ih =>
    rw [List.foldl_cons, List.foldl_cons, ← ih]
    rfl

theorem parseStart_fields {text : String} (f : Fields text.toList)
    (hfraction : ¬(text.toList.any fun c => c = '.' ∨ c = ',') = true)
    (hutc : ¬text.toList.getLast? ≠ some 'Z') : parseStart text = ofFields f := by
  obtain ⟨hyear, hmonth, hday, hhour, hminute, hsecond⟩ := f.cuts
  have hnum : ∀ digits : List Char,
      digits.foldl (fun n c => 10 * n + (U64.digit c : Int)) 0 = (value digits : Int) :=
    fun digits => foldl_value digits 0
  rw [parseStart, if_neg hfraction, if_neg hutc, if_neg (by rw [f.stampShape]; decide)]
  simp only [hnum, Nat.reduceSub, hyear, hmonth, hday, hhour, hminute, hsecond]
  rfl

/-- The reader on the bytes is the reader on the characters, and never panics. -/
theorem parseStartBytes_eq (text : String) : parseStartBytes text = some (parseStart text) := by
  by_cases hfraction : (text.toList.any fun c => c = '.' ∨ c = ',') = true
  · rw [parseStartBytes, parseStart, if_pos hfraction, if_pos hfraction]
  by_cases hutc : text.toList.getLast? ≠ some 'Z'
  · rw [parseStartBytes, parseStart, if_neg hfraction, if_neg hfraction, if_pos hutc, if_pos hutc]
  cases hshape : stampShape text.toList with
  | false =>
    rw [parseStartBytes, parseStart, if_neg hfraction, if_neg hfraction, if_neg hutc, if_neg hutc,
      if_pos (by rw [startShape_eq_stampShape, hshape]; rfl), if_pos (by rw [hshape]; rfl)]
  | true =>
    obtain ⟨f⟩ := stampShape_fields hshape
    obtain ⟨hyear, hmonth, hday, hhour, hminute, hsecond⟩ := f.cuts
    rw [parseStart_fields f hfraction hutc, parseStartBytes, if_neg hfraction, if_neg hutc,
      if_neg (by rw [startShape_eq_stampShape, hshape]; decide)]
    simp only [num_field f 0 4 (by decide) hyear f.year_digits (by decide) (by decide),
      num_field f 5 2 (by decide) hmonth f.month_digits (by decide) (by decide),
      num_field f 8 2 (by decide) hday f.day_digits (by decide) (by decide),
      num_field f 11 2 (by decide) hhour f.hour_digits (by decide) (by decide),
      num_field f 14 2 (by decide) hminute f.minute_digits (by decide) (by decide),
      num_field f 17 2 (by decide) hsecond f.second_digits (by decide) (by decide),
      Option.bind_eq_bind, Option.bind_some]
    rw [ofFields, ofNumbers]
    split
    · rfl
    · rfl

/-- A date and a time of day with a year of four digits. -/
structure Stamp where
  date : Date
  time : TimeOfDay
  year_nonneg : 0 ≤ date.year
  year_le : date.year ≤ 9999

namespace Stamp

/-- `YYYY-MM-DDThh:mm:ssZ`. -/
def text (s : Stamp) : String :=
  String.ofList (written (pad 4 s.date.year.toNat) (pad 2 s.date.month.toNat) (pad 2 s.date.day.toNat)
    (pad 2 s.time.hour) (pad 2 s.time.minute) (pad 2 s.time.second))

/-- So many seconds after the start of a day: the days between are counted one by one. -/
def SecondsAfter (s : Stamp) (day : Date) (t : Int) : Prop :=
  ∃ n, day.Apart s.date n ∧ t = n * 86400 + s.time.seconds

/-- The fields of its text. -/
def fields (s : Stamp) : Fields s.text.toList where
  year := pad 4 s.date.year.toNat
  month := pad 2 s.date.month.toNat
  day := pad 2 s.date.day.toNat
  hour := pad 2 s.time.hour
  minute := pad 2 s.time.minute
  second := pad 2 s.time.second
  year_digits := digits_pad 4 _
  month_digits := digits_pad 2 _
  day_digits := digits_pad 2 _
  hour_digits := digits_pad 2 _
  minute_digits := digits_pad 2 _
  second_digits := digits_pad 2 _
  chars_eq := String.toList_ofList

end Stamp

/-- The first day of the count. -/
def epoch : Date := newYear 1970

theorem secondsAfter_epoch (s : Stamp) (t : Int) :
    s.SecondsAfter epoch t ↔ t = (s.date.number - EPOCH) * 86400 + s.time.seconds := by
  have hepoch : epoch.number = EPOCH := by decide
  constructor
  · rintro ⟨n, hn, rfl⟩
    have hnumber := apart_iff.mp hn
    rw [hnumber, hepoch, add_sub_cancel_left]
  · rintro rfl
    exact ⟨s.date.number - EPOCH, apart_iff.mpr (by rw [hepoch]; ring), rfl⟩

/-- The six numbers of a date and a time of day, and no others, are accepted. -/
theorem ofNumbers_ok {year month day hour minute second t : Int} :
    ofNumbers year month day hour minute second = .ok t ↔
      ∃ d : Date, BessCivil.fields d = (year, month, day) ∧ (hour ≤ 23 ∧ minute ≤ 59 ∧ second ≤ 59) ∧
        t = (d.number - EPOCH) * 86400 + hour * 3600 + minute * 60 + second := by
  rw [ofNumbers]
  constructor
  · intro h
    split at h
    · exact absurd h (by simp)
    · rename_i hreal
      simp only [Bool.or_eq_true, Bool.not_eq_true', Bool.and_eq_false_iff, decide_eq_false_iff_not,
        decide_eq_true_eq, not_or, not_not] at hreal
      obtain ⟨⟨⟨⟨-, hcivil⟩, hhour⟩, hminute⟩, hsecond⟩ := hreal
      obtain ⟨e, hdays, he⟩ := exists_fields (Calendar.daysFromCivil year month day)
      refine ⟨e.date, he.symm.trans hcivil, ⟨by omega, by omega, by omega⟩, ?_⟩
      rw [EraDay.number_date, hdays]
      exact (Except.ok.inj h).symm
  · rintro ⟨d, hfields, ⟨hhour, hminute, hsecond⟩, rfl⟩
    simp only [BessCivil.fields, Prod.mk.injEq] at hfields
    obtain ⟨rfl, rfl, rfl⟩ := hfields
    have hcivil := civilFromDays_number d
    have hrange : 1 ≤ d.month ∧ d.month ≤ 12 := ⟨d.month_pos, d.month_le⟩
    rw [if_neg]
    · rw [daysFromCivil_date]
    · simp only [daysFromCivil_date, hcivil, BessCivil.fields, hrange, decide_true, Bool.and_self,
        Bool.not_true, Bool.false_or, Bool.or_eq_true, decide_eq_true_eq, and_self]
      omega

/-- Fields that spell a date and a time of day are a stamp's. -/
theorem stamp_of_fields {text : String} (f : Fields text.toList) {t : Int} (h : ofFields f = .ok t) :
    ∃ s : Stamp, text = s.text ∧ s.SecondsAfter epoch t := by
  obtain ⟨d, hfields, ⟨hhour, hminute, hsecond⟩, rfl⟩ := ofNumbers_ok.mp h
  simp only [BessCivil.fields, Prod.mk.injEq] at hfields
  obtain ⟨hy, hm, hd⟩ := hfields
  have hyear := pad_value f.year_digits
  have hmonth := pad_value f.month_digits
  have hday := pad_value f.day_digits
  have htime : value f.hour < 24 ∧ value f.minute < 60 ∧ value f.second < 60 := by omega
  let s : Stamp :=
    { date := d
      time := ⟨value f.hour, value f.minute, value f.second, htime.1, htime.2.1, htime.2.2⟩
      year_nonneg := by omega
      year_le := by omega }
  have htext : text.toList = s.text.toList := by
    rw [s.fields.chars_eq, f.chars_eq]
    simp only [Stamp.fields, s, hy, hm, hd, Int.toNat_natCast, hyear.1, hmonth.1, hday.1,
      (pad_value f.hour_digits).1, (pad_value f.minute_digits).1, (pad_value f.second_digits).1]
  refine ⟨s, String.toList_inj.mp htext, (secondsAfter_epoch s _).mpr ?_⟩
  simp only [s, TimeOfDay.seconds]
  ring

theorem ofFields_stamp (s : Stamp) {t : Int} (h : s.SecondsAfter epoch t) :
    ofFields s.fields = .ok t := by
  have hm0 := s.date.month_pos
  have hm1 := s.date.month_le
  have hd0 := s.date.day_pos
  have hd1 := day_le_month s.date
  have hy0 := s.year_nonneg
  have hy1 := s.year_le
  have hh := s.time.hour_lt
  have hmin := s.time.minute_lt
  have hs := s.time.second_lt
  rw [secondsAfter_epoch] at h
  refine ofNumbers_ok.mpr ⟨s.date, ?_, ?_, ?_⟩
  · simp only [Stamp.fields, BessCivil.fields, Prod.mk.injEq]
    rw [value_pad (by omega), value_pad (by omega), value_pad (by omega)]
    omega
  · simp only [Stamp.fields]
    rw [value_pad (by omega), value_pad (by omega), value_pad (by omega)]
    omega
  · simp only [Stamp.fields]
    rw [value_pad (by omega), value_pad (by omega), value_pad (by omega), h, TimeOfDay.seconds]
    ring

/-- A stamp has no fraction, and ends with the zone. -/
theorem stamp_accepted (s : Stamp) : ¬(s.text.toList.any fun c => c = '.' ∨ c = ',') = true ∧
    ¬s.text.toList.getLast? ≠ some 'Z' := by
  have hdigits : ∀ width n, ∀ c ∈ pad width n, ¬(c = '.' ∨ c = ',') := by
    rintro width n c hc (rfl | rfl)
    · exact absurd ((digits_pad width n).decimal _ hc) (by decide)
    · exact absurd ((digits_pad width n).decimal _ hc) (by decide)
  rw [s.fields.chars_eq]
  constructor
  · rw [List.any_eq_true]
    rintro ⟨c, hc, hbad⟩
    have hbad := of_decide_eq_true hbad
    simp only [Stamp.fields, written, List.mem_append, List.mem_cons, List.not_mem_nil, or_false,
      or_assoc] at hc
    obtain hc | rfl | hc | rfl | hc | rfl | hc | rfl | hc | rfl | hc | rfl := hc
    · exact hdigits _ _ c hc hbad
    · exact absurd hbad (by decide)
    · exact hdigits _ _ c hc hbad
    · exact absurd hbad (by decide)
    · exact hdigits _ _ c hc hbad
    · exact absurd hbad (by decide)
    · exact hdigits _ _ c hc hbad
    · exact absurd hbad (by decide)
    · exact hdigits _ _ c hc hbad
    · exact absurd hbad (by decide)
    · exact hdigits _ _ c hc hbad
    · exact absurd hbad (by decide)
  · rw [written, List.getLast?_append]
    exact not_not.mpr rfl

/-- Exactly the stamps are accepted, each as its instant, and no text panics. -/
theorem parse_start_exact (text : String) :
    ∃ answer, parseStartBytes text = some answer ∧
      ∀ t, answer = .ok t ↔ ∃ s : Stamp, text = s.text ∧ s.SecondsAfter epoch t := by
  refine ⟨parseStart text, parseStartBytes_eq text, fun t => ?_⟩
  constructor
  · intro h
    have hshape : stampShape text.toList = true := by
      rw [parseStart] at h
      split_ifs at h with hfraction hutc hform
      simpa using hform
    obtain ⟨f⟩ := stampShape_fields hshape
    refine stamp_of_fields f ?_
    rw [← h]
    refine (parseStart_fields f ?_ ?_).symm
    · intro hfraction
      rw [parseStart, if_pos hfraction] at h
      exact absurd h (by simp)
    · intro hutc
      rw [parseStart] at h
      split_ifs at h
  · rintro ⟨s, rfl, hs⟩
    obtain ⟨hfraction, hutc⟩ := stamp_accepted s
    rw [parseStart_fields s.fields hfraction hutc]
    exact ofFields_stamp s hs

end BessStamp
