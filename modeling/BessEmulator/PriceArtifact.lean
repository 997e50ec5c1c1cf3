import BessEmulator.Prices
import BessEmulator.PriceLookup
import BessEmulator.Wire

/-!
# The price artifact

The bytes of a price year, as the compiler writes them and the loader reads
them. Where the code would index out of range or subtract below zero there is
no answer.
-/
namespace Bess.PriceCodec

open Wire

def MAGIC : List UInt8 := [66, 80, 68, 49]

def VERSION : UInt16 := 1

def HEADER_LEN : Nat := 32

/-- The price year as stored. -/
structure ArtifactData where
  year : UInt16
  startOffsetH : Int16
  priceCtMwh : List Int32
  dayStarts : List UInt16
  deriving DecidableEq

/-- `Vec::resize` with zeros. -/
def resize (bytes : List UInt8) (n : Nat) : List UInt8 :=
  bytes.take n ++ List.replicate (n - bytes.length) 0

def encode (data : ArtifactData) : Option (Except String (List UInt8)) :=
  let hours := data.priceCtMwh.length
  match checkDayStarts (data.dayStarts.map UInt16.toNat) hours with
  | .error e => some (.error e)
  | .ok () =>
    if 65536 ≤ hours then some (.error s!"{hours} hours overflow u16")
    else (checkedSub data.dayStarts.length 1).map fun days =>
      if 65536 ≤ days then .error "days overflow u16"
      else
        let header := MAGIC ++ u16.toLeBytes VERSION ++ u16.toLeBytes data.year ++
          u16.toLeBytes (UInt16.ofNat hours) ++ u16.toLeBytes (UInt16.ofNat days) ++
          i16.toLeBytes data.startOffsetH
        .ok (resize header HEADER_LEN ++ i32.series data.priceCtMwh ++ u16.series data.dayStarts)

def decode (bytes : List UInt8) : Option (Except String ArtifactData) :=
  if bytes.length < HEADER_LEN then some (.error "artifact shorter than its header")
  else do
    let magic ← slice bytes 0 4
    if magic ≠ MAGIC then some (.error "bad artifact magic")
    else
      let version ← u16.readAt bytes 4
      if version ≠ VERSION then
        some (.error s!"artifact version {version}, expected {VERSION}")
      else
        let year ← u16.readAt bytes 6
        let hours ← u16.readAt bytes 8
        let days ← u16.readAt bytes 10
        let startOffsetH ← i16.readAt bytes 12
        let len := bytes.length
        let expected := HEADER_LEN + hours.toNat * 4 + (days.toNat + 1) * 2
        if len ≠ expected then
          some (.error s!"artifact is {len} bytes, layout expects {expected}")
        else
          let pricesEnd := HEADER_LEN + hours.toNat * 4
          let prices ← slice bytes HEADER_LEN pricesEnd
          let starts ← slice bytes pricesEnd len
          let dayStarts := u16.readSeries starts
          match checkDayStarts (dayStarts.map UInt16.toNat) hours.toNat with
          | .error e => some (.error e)
          | .ok () => some (.ok ⟨year, startOffsetH, i32.readSeries prices, dayStarts⟩)

end Bess.PriceCodec

namespace BessArtifact

open Wire Bess PriceCodec

/-- What stands in front of the prices. -/
@[ext] structure PriceHeader where
  magic : List UInt8
  version : UInt16
  year : UInt16
  hours : UInt16
  days : UInt16
  startOffsetH : Int16
  reserved : List UInt8
  magic_length : magic.length = 4
  reserved_length : reserved.length = 18

namespace PriceHeader

/-- Its bytes, and what follows. -/
def before (header : PriceHeader) (body : List UInt8) : List UInt8 :=
  header.magic ++ (u16.series [header.version, header.year, header.hours, header.days] ++
    (i16.toLeBytes header.startOffsetH ++ (header.reserved ++ body)))

variable (header : PriceHeader) (body : List UInt8)

theorem length_before : (header.before body).length = HEADER_LEN + body.length := by
  simp only [before, List.length_append, Word.length_series, Word.length_toLeBytes, width_u16,
    width_i16, header.magic_length, header.reserved_length, List.length_cons, List.length_nil,
    HEADER_LEN]
  omega

theorem slice_magic : slice (header.before body) 0 4 = some header.magic :=
  slice_append [] header.magic _ rfl (by rw [Nat.zero_add, header.magic_length])

/-- The word at each place of the header. -/
theorem read_word {i : Nat} {a : UInt16}
    (ha : [header.version, header.year, header.hours, header.days][i]? = some a) {offset : Nat}
    (h : 4 + i * 2 = offset) : u16.readAt (header.before body) offset = some a :=
  u16.readAt_series _ _ ha (by rw [header.magic_length, width_u16, h])

theorem read_version : u16.readAt (header.before body) 4 = some header.version :=
  header.read_word body (i := 0) rfl rfl

theorem read_year : u16.readAt (header.before body) 6 = some header.year :=
  header.read_word body (i := 1) rfl rfl

theorem read_hours : u16.readAt (header.before body) 8 = some header.hours :=
  header.read_word body (i := 2) rfl rfl

theorem read_days : u16.readAt (header.before body) 10 = some header.days :=
  header.read_word body (i := 3) rfl rfl

theorem read_startOffsetH : i16.readAt (header.before body) 12 = some header.startOffsetH := by
  have hlength : (header.magic ++
      u16.series [header.version, header.year, header.hours, header.days]).length = 12 := by
    rw [List.length_append, header.magic_length, Word.length_series]
    rfl
  simpa only [before, List.append_assoc] using i16.readAt_append _ _ header.startOffsetH hlength

/-- With other bytes in the reserved place. -/
def withReserved (reserved : List UInt8) (h : reserved.length = 18) : PriceHeader :=
  { header with reserved := reserved, reserved_length := h }

/-- Only the reserved place tells two such headers apart. -/
theorem agree_withReserved (reserved : List UInt8) (h : reserved.length = 18) :
    AgreeOutside 14 32 (header.before body) ((header.withReserved reserved h).before body) := by
  have hfront : (header.magic ++ u16.series [header.version, header.year, header.hours, header.days] ++
      i16.toLeBytes header.startOffsetH).length = 14 := by
    rw [List.length_append, List.length_append, header.magic_length, Word.length_series,
      Word.length_toLeBytes]
    rfl
  have hagree := agreeOutside_append _ body hfront (a := header.reserved) (b := reserved)
    (by rw [header.reserved_length]) (by rw [h])
  simpa only [before, withReserved, List.append_assoc] using hagree

theorem exists_before {bytes : List UInt8} (h : 32 ≤ bytes.length) :
    ∃ (header : PriceHeader) (body : List UInt8), bytes = header.before body := by
  obtain ⟨words, rest, hwords, hcount, hrest⟩ := u16.exists_series 4 (bytes.drop 4) (by
    rw [width_u16, List.length_drop]
    omega)
  obtain ⟨version, year, hours, days, rfl⟩ : ∃ a b c d, words = [a, b, c, d] := by
    match words, hcount with
    | [a, b, c, d], _ => exact ⟨a, b, c, d, rfl⟩
  rw [width_u16, List.length_drop] at hrest
  obtain ⟨startOffsetH, tail, htail, hlength⟩ := i16.exists_word rest (by
    rw [width_i16]
    omega)
  rw [width_i16] at hlength
  refine ⟨⟨bytes.take 4, version, year, hours, days, startOffsetH, tail.take 18,
    List.length_take_of_le (by omega), List.length_take_of_le (by omega)⟩, tail.drop 18, ?_⟩
  simp only [before, List.take_append_drop]
  rw [← htail, ← hwords, List.take_append_drop]

end PriceHeader

/-- The length a header asks for. -/
def expected (header : PriceHeader) : Nat :=
  HEADER_LEN + header.hours.toNat * 4 + (header.days.toNat + 1) * 2

/-- What the loader makes of a header and its two arrays. -/
def loaded (header : PriceHeader) (prices : List Int32) (starts : List UInt16) :
    Except String ArtifactData :=
  match checkDayStarts (starts.map UInt16.toNat) header.hours.toNat with
  | .error e => .error e
  | .ok () => .ok ⟨header.year, header.startOffsetH, prices, starts⟩

/-- What the loader reads the header for. -/
theorem decode_before (header : PriceHeader) (body : List UInt8) :
    decode (header.before body) =
      if header.magic ≠ MAGIC then some (.error "bad artifact magic")
      else if header.version ≠ VERSION then
        some (.error s!"artifact version {header.version}, expected {VERSION}")
      else if (header.before body).length ≠ expected header then
        some (.error s!"artifact is {(header.before body).length} bytes, layout expects {expected header}")
      else
        (slice (header.before body) HEADER_LEN (HEADER_LEN + header.hours.toNat * 4)).bind fun prices =>
          (slice (header.before body) (HEADER_LEN + header.hours.toNat * 4)
            (header.before body).length).bind fun starts =>
              some (loaded header (i32.readSeries prices) (u16.readSeries starts)) := by
  rw [decode, if_neg (by rw [header.length_before]; omega)]
  simp only [header.slice_magic, header.read_version, header.read_year, header.read_hours,
    header.read_days, header.read_startOffsetH, Option.bind_eq_bind, Option.bind_some]
  have hloaded : ∀ prices starts,
      (match checkDayStarts ((u16.readSeries starts).map UInt16.toNat) header.hours.toNat with
        | .error e => some (.error e)
        | .ok () => some (.ok ⟨header.year, header.startOffsetH, i32.readSeries prices,
            u16.readSeries starts⟩)) =
          some (loaded header (i32.readSeries prices) (u16.readSeries starts)) := by
    intro prices starts
    rw [loaded]
    split <;> rfl
  simp only [hloaded]
  rfl

/-- Bytes whose length is not the header's are refused. -/
theorem decode_length (header : PriceHeader) (body : List UInt8)
    (h : (header.before body).length ≠ expected header) :
    ∃ e, decode (header.before body) = some (.error e) := by
  rw [decode_before, if_pos h]
  split_ifs
  · exact ⟨_, rfl⟩
  · exact ⟨_, rfl⟩
  · exact ⟨_, rfl⟩

/-- Bytes of the header's length hold its two arrays. -/
theorem exists_arrays (header : PriceHeader) {body : List UInt8}
    (h : (header.before body).length = expected header) :
    ∃ prices starts, body = i32.series prices ++ u16.series starts ∧
      prices.length = header.hours.toNat ∧ starts.length = header.days.toNat + 1 := by
  rw [header.length_before, expected] at h
  obtain ⟨prices, rest, hbody, hprices, hrest⟩ := i32.exists_series header.hours.toNat body
    (by rw [width_i32]; omega)
  rw [width_i32] at hrest
  obtain ⟨starts, tail, hstarts, hcount, htail⟩ := u16.exists_series (header.days.toNat + 1)
    rest (by rw [width_u16]; omega)
  rw [width_u16] at htail
  have hnil : tail = [] := List.length_eq_zero_iff.mp (by omega)
  rw [hnil, List.append_nil] at hstarts
  exact ⟨prices, starts, by rw [hbody, hstarts], hprices, hcount⟩

theorem decode_arrays (header : PriceHeader) {prices : List Int32} {starts : List UInt16}
    (hprices : prices.length = header.hours.toNat) (hstarts : starts.length = header.days.toNat + 1) :
    decode (header.before (i32.series prices ++ u16.series starts)) =
      if header.magic ≠ MAGIC then some (.error "bad artifact magic")
      else if header.version ≠ VERSION then
        some (.error s!"artifact version {header.version}, expected {VERSION}")
      else some (loaded header prices starts) := by
  have hlen : (header.before (i32.series prices ++ u16.series starts)).length = expected header := by
    rw [header.length_before, List.length_append, Word.length_series, Word.length_series, hprices,
      hstarts, width_i32, width_u16, expected, Nat.add_assoc]
  have htail : TailAt (header.before (i32.series prices ++ u16.series starts)) HEADER_LEN
      (i32.series prices ++ u16.series starts) := by
    refine ⟨header.before [], ?_, header.length_before []⟩
    simp only [PriceHeader.before, List.append_nil, List.append_assoc]
  have hsize : (i32.series prices).length = header.hours.toNat * 4 := by
    rw [Word.length_series, hprices, width_i32]
  have hend : (u16.series starts).length = (header.days.toNat + 1) * 2 := by
    rw [Word.length_series, hstarts, width_u16]
  have hfirst := htail.slice hsize
  have hsecond : slice (header.before (i32.series prices ++ u16.series starts))
      (HEADER_LEN + header.hours.toNat * 4) (expected header) = some (u16.series starts) :=
    (htail.skip hsize).last hend
  rw [decode_before, hlen, if_neg (not_not.mpr rfl), hfirst, hsecond, Option.bind_some,
    Option.bind_some, Word.readSeries_series, Word.readSeries_series]

/-- The header the compiler writes. -/
def writtenHeader (data : ArtifactData) : PriceHeader where
  magic := MAGIC
  version := VERSION
  year := data.year
  hours := UInt16.ofNat data.priceCtMwh.length
  days := UInt16.ofNat (data.dayStarts.length - 1)
  startOffsetH := data.startOffsetH
  reserved := List.replicate 18 0
  magic_length := rfl
  reserved_length := rfl

/-- What the compiler writes. -/
def writtenBytes (data : ArtifactData) : List UInt8 :=
  (writtenHeader data).before (i32.series data.priceCtMwh ++ u16.series data.dayStarts)

/-- What the compiler accepts. -/
structure Storable (data : ArtifactData) : Prop where
  described : checkDayStarts (data.dayStarts.map UInt16.toNat) data.priceCtMwh.length = .ok ()
  hours_fit : data.priceCtMwh.length < 65536
  days_fit : data.dayStarts.length - 1 < 65536

theorem length_pos_of_described {starts : List UInt16} {hours : Nat}
    (h : checkDayStarts (starts.map UInt16.toNat) hours = .ok ()) : 1 ≤ starts.length := by
  cases starts with
  | nil => cases h
  | cons a rest => exact Nat.le_add_left 1 rest.length

theorem header_resized (data : ArtifactData) :
    resize (MAGIC ++ u16.toLeBytes VERSION ++ u16.toLeBytes data.year ++
      u16.toLeBytes (UInt16.ofNat data.priceCtMwh.length) ++
        u16.toLeBytes (UInt16.ofNat (data.dayStarts.length - 1)) ++
          i16.toLeBytes data.startOffsetH) HEADER_LEN ++ i32.series data.priceCtMwh ++
            u16.series data.dayStarts = writtenBytes data := by
  have hlength : (MAGIC ++ u16.toLeBytes VERSION ++ u16.toLeBytes data.year ++
      u16.toLeBytes (UInt16.ofNat data.priceCtMwh.length) ++
        u16.toLeBytes (UInt16.ofNat (data.dayStarts.length - 1)) ++
          i16.toLeBytes data.startOffsetH).length = 14 := by
    simp [MAGIC]
  rw [resize, hlength, List.take_of_length_le (by rw [hlength, HEADER_LEN]; decide)]
  simp only [writtenBytes, PriceHeader.before, writtenHeader, Word.series_cons, Word.series_nil,
    List.append_assoc, List.append_nil, HEADER_LEN, Nat.reduceSub]

theorem encode_storable {data : ArtifactData} (h : Storable data) :
    encode data = some (.ok (writtenBytes data)) := by
  have hdays : checkedSub data.dayStarts.length 1 = some (data.dayStarts.length - 1) :=
    if_pos (length_pos_of_described h.described)
  rw [encode]
  simp only [h.described, hdays, Option.map_some]
  rw [if_neg (Nat.not_le_of_lt h.hours_fit), if_neg (Nat.not_le_of_lt h.days_fit), header_resized]

theorem storable_of_encode {data : ArtifactData} {bytes : List UInt8}
    (h : encode data = some (.ok bytes)) : Storable data := by
  rw [encode] at h
  cases hcheck : checkDayStarts (data.dayStarts.map UInt16.toNat) data.priceCtMwh.length with
  | error e =>
    simp only [hcheck] at h
    cases h
  | ok u =>
    have hdays : checkedSub data.dayStarts.length 1 = some (data.dayStarts.length - 1) :=
      if_pos (length_pos_of_described hcheck)
    simp only [hcheck, hdays, Option.map_some] at h
    split at h
    · cases h
    · rename_i hhours
      split at h
      · cases h
      · rename_i hfit
        exact ⟨hcheck, Nat.lt_of_not_le hhours, Nat.lt_of_not_le hfit⟩

theorem encode_isSome (data : ArtifactData) : (encode data).isSome := by
  rw [encode]
  cases hcheck : checkDayStarts (data.dayStarts.map UInt16.toNat) data.priceCtMwh.length with
  | error e => rfl
  | ok u =>
    have hdays : checkedSub data.dayStarts.length 1 = some (data.dayStarts.length - 1) :=
      if_pos (length_pos_of_described hcheck)
    simp only [hdays, Option.map_some]
    split <;> rfl

theorem decode_written {data : ArtifactData} (h : Storable data) :
    decode (writtenBytes data) = some (.ok data) := by
  have hhours : (writtenHeader data).hours.toNat = data.priceCtMwh.length :=
    UInt16.toNat_ofNat_of_lt' h.hours_fit
  have hdays : (writtenHeader data).days.toNat = data.dayStarts.length - 1 :=
    UInt16.toNat_ofNat_of_lt' h.days_fit
  have hpos := length_pos_of_described h.described
  have hmagic : ¬(writtenHeader data).magic ≠ MAGIC := not_not.mpr rfl
  have hversion : ¬(writtenHeader data).version ≠ VERSION := not_not.mpr rfl
  rw [writtenBytes, decode_arrays _ hhours.symm (by rw [hdays]; omega), if_neg hmagic,
    if_neg hversion, loaded, hhours, h.described]
  rfl

/-- What the loader accepts: a header, the arrays it announces, and what they load as. -/
theorem decode_ok {bytes : List UInt8} {data : ArtifactData} (h : decode bytes = some (.ok data)) :
    Storable data ∧ ∃ (reserved : List UInt8) (hreserved : reserved.length = 18),
      bytes = ((writtenHeader data).withReserved reserved hreserved).before
        (i32.series data.priceCtMwh ++ u16.series data.dayStarts) := by
  by_cases hshort : bytes.length < HEADER_LEN
  · rw [decode, if_pos hshort] at h
    cases h
  obtain ⟨header, body, rfl⟩ := PriceHeader.exists_before (Nat.le_of_not_lt hshort)
  by_cases hlength : (header.before body).length = expected header
  · obtain ⟨prices, starts, rfl, hprices, hstarts⟩ := exists_arrays header hlength
    rw [decode_arrays header hprices hstarts] at h
    obtain ⟨hmagic, hversion, hcheck, hdata⟩ : header.magic = MAGIC ∧ header.version = VERSION ∧
        checkDayStarts (starts.map UInt16.toNat) header.hours.toNat = .ok () ∧
          data = ⟨header.year, header.startOffsetH, prices, starts⟩ := by
      split at h
      · cases h
      · rename_i hmagic
        split at h
        · cases h
        · rename_i hversion
          rw [loaded] at h
          split at h
          · cases h
          · rename_i hcheck
            cases h
            exact ⟨not_not.mp hmagic, not_not.mp hversion, hcheck, rfl⟩
    subst hdata
    have hhours : UInt16.ofNat prices.length = header.hours := by
      rw [hprices, UInt16.ofNat_toNat]
    have hdays : UInt16.ofNat (starts.length - 1) = header.days := by
      rw [hstarts, Nat.add_sub_cancel, UInt16.ofNat_toNat]
    have hheader : (writtenHeader ⟨header.year, header.startOffsetH, prices, starts⟩).withReserved
        header.reserved header.reserved_length = header :=
      PriceHeader.ext hmagic.symm hversion.symm rfl hhours hdays rfl rfl
    refine ⟨⟨by rw [hprices, hcheck], ?_, ?_⟩, header.reserved, header.reserved_length, ?_⟩
    · rw [hprices]
      exact header.hours.toNat_lt
    · rw [hstarts, Nat.add_sub_cancel]
      exact header.days.toNat_lt
    · rw [hheader]
  · obtain ⟨e, he⟩ := decode_length header body hlength
    rw [he] at h
    cases h

theorem decode_isSome (bytes : List UInt8) : (decode bytes).isSome := by
  by_cases hshort : bytes.length < HEADER_LEN
  · rw [decode, if_pos hshort]
    rfl
  obtain ⟨header, body, rfl⟩ := PriceHeader.exists_before (Nat.le_of_not_lt hshort)
  by_cases hlength : (header.before body).length = expected header
  · obtain ⟨prices, starts, rfl, hprices, hstarts⟩ := exists_arrays header hlength
    rw [decode_arrays header hprices hstarts]
    split_ifs <;> rfl
  · obtain ⟨e, he⟩ := decode_length header body hlength
    rw [he]
    rfl

/-- What was written reads back as the year it was written from, and what reads was written. -/
theorem price_artifact_codec :
    (∀ data bytes, encode data = some (.ok bytes) → decode bytes = some (.ok data)) ∧
      (∀ bytes data, decode bytes = some (.ok data) →
        BessPrices.DayTable (data.dayStarts.map UInt16.toNat) data.priceCtMwh.length ∧
          ∃ again, encode data = some (.ok again) ∧ AgreeOutside 14 32 again bytes) ∧
      (∀ bytes, (decode bytes).isSome) ∧ ∀ data, (encode data).isSome := by
  refine ⟨fun data bytes h => ?_, fun bytes data h => ?_, decode_isSome, encode_isSome⟩
  · have hstorable := storable_of_encode h
    rw [encode_storable hstorable] at h
    cases h
    exact decode_written hstorable
  · obtain ⟨hstorable, reserved, hreserved, rfl⟩ := decode_ok h
    exact ⟨(BessPrices.checkDayStarts_iff _ _).mp hstorable.described, writtenBytes data,
      encode_storable hstorable, PriceHeader.agree_withReserved _ _ reserved hreserved⟩

/-- A day of 23 hours is written and read back. -/
theorem price_artifact_codec_day : ∃ bytes,
    encode ⟨2024, 1, List.replicate 23 (-500), [0, 23]⟩ = some (.ok bytes) ∧
      decode bytes = some (.ok ⟨2024, 1, List.replicate 23 (-500), [0, 23]⟩) := by
  have hstorable : Storable ⟨2024, 1, List.replicate 23 (-500), [0, 23]⟩ :=
    ⟨rfl, by decide, by decide⟩
  exact ⟨_, encode_storable hstorable, price_artifact_codec.1 _ _ (encode_storable hstorable)⟩

end BessArtifact
