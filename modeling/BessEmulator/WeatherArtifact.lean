import BessEmulator.Wire

/-!
# The weather artifact

The bytes of a weather year: a header with its fill counts and eight series one
after the other, found again by an offset that moves along. Where the code would
index out of range there is no answer.
-/
namespace Bess.WeatherCodec

open Wire

def MAGIC : List UInt8 := [66, 87, 68, 49]

def VERSION : UInt16 := 1

def HEADER_LEN : Nat := 32

/-- Hours filled, by quantity. -/
structure FillCounts where
  temp : UInt16
  relHumidity : UInt16
  ghi : UInt16
  precipMm : UInt16
  precipForm : UInt16
  windMs : UInt16
  windDir : UInt16
  cloud : UInt16
  deriving DecidableEq

/-- The quantized series as stored. -/
structure ArtifactData where
  stationId : UInt16
  year : UInt16
  fills : FillCounts
  tempCX10 : List Int16
  rhPctX10 : List Int16
  ghiWm2X10 : List Int16
  precipMmX10 : List Int16
  windMsX10 : List Int16
  windDirDeg : List Int16
  precipForm : List UInt8
  cloudOkta : List UInt8
  deriving DecidableEq

def fillArray (fills : FillCounts) : List UInt16 :=
  [fills.temp, fills.relHumidity, fills.ghi, fills.precipMm, fills.precipForm, fills.windMs,
    fills.windDir, fills.cloud]

/-- None when the counts are not eight. -/
def fillsFromArray (counts : List UInt16) : Option FillCounts := do
  let temp ← counts[0]?
  let relHumidity ← counts[1]?
  let ghi ← counts[2]?
  let precipMm ← counts[3]?
  let precipForm ← counts[4]?
  let windMs ← counts[5]?
  let windDir ← counts[6]?
  let cloud ← counts[7]?
  some
    { temp := temp
      relHumidity := relHumidity
      ghi := ghi
      precipMm := precipMm
      precipForm := precipForm
      windMs := windMs
      windDir := windDir
      cloud := cloud }

def encode (data : ArtifactData) : Except String (List UInt8) :=
  let hours := data.tempCX10.length
  let allEqual := [data.rhPctX10.length, data.ghiWm2X10.length, data.precipMmX10.length,
    data.windMsX10.length, data.windDirDeg.length, data.precipForm.length,
    data.cloudOkta.length].all fun l => l = hours
  if !allEqual then .error "series lengths disagree"
  else if 65536 ≤ hours then .error s!"{hours} hours overflow u16"
  else .ok (MAGIC ++ u16.toLeBytes VERSION ++ u16.toLeBytes data.stationId ++
    u16.toLeBytes data.year ++ u16.toLeBytes (UInt16.ofNat hours) ++
    (fillArray data.fills).flatMap u16.toLeBytes ++ [0, 0, 0, 0] ++
    [data.tempCX10, data.rhPctX10, data.ghiWm2X10, data.precipMmX10, data.windMsX10,
      data.windDirDeg].flatMap i16.series ++ data.precipForm ++ data.cloudOkta)

/-- The series at the offset, and the offset after it. -/
def nextI16Series (bytes : List UInt8) (hours offset : Nat) : Option (List Int16 × Nat) :=
  (slice bytes offset (offset + hours * 2)).map fun series =>
    (i16.readSeries series, offset + hours * 2)

def decode (bytes : List UInt8) : Option (Except String ArtifactData) :=
  if bytes.length < HEADER_LEN then some (.error "artifact shorter than its header")
  else do
    let magic ← slice bytes 0 4
    if magic ≠ MAGIC then some (.error "bad artifact magic")
    else
      let version ← u16.readAt bytes 4
      if version ≠ VERSION then
        some (.error s!"artifact version {version}, expected {VERSION}")
      else
        let stationId ← u16.readAt bytes 6
        let year ← u16.readAt bytes 8
        let hours ← (u16.readAt bytes 10).map UInt16.toNat
        let counts ← (List.range 8).mapM fun i => u16.readAt bytes (12 + i * 2)
        let len := bytes.length
        let expected := HEADER_LEN + hours * 14
        if len ≠ expected then
          some (.error s!"artifact is {len} bytes, layout expects {expected}")
        else
          let (tempCX10, offset) ← nextI16Series bytes hours HEADER_LEN
          let (rhPctX10, offset) ← nextI16Series bytes hours offset
          let (ghiWm2X10, offset) ← nextI16Series bytes hours offset
          let (precipMmX10, offset) ← nextI16Series bytes hours offset
          let (windMsX10, offset) ← nextI16Series bytes hours offset
          let (windDirDeg, offset) ← nextI16Series bytes hours offset
          let precipForm ← slice bytes offset (offset + hours)
          let offset := offset + hours
          let cloudOkta ← slice bytes offset (offset + hours)
          let fills ← fillsFromArray counts
          some (.ok
            { stationId := stationId
              year := year
              fills := fills
              tempCX10 := tempCX10
              rhPctX10 := rhPctX10
              ghiWm2X10 := ghiWm2X10
              precipMmX10 := precipMmX10
              windMsX10 := windMsX10
              windDirDeg := windDirDeg
              precipForm := precipForm
              cloudOkta := cloudOkta })

end Bess.WeatherCodec

namespace BessWeather

open Wire Bess.WeatherCodec

theorem exists_fills {counts : List UInt16} (h : counts.length = 8) :
    ∃ fills, counts = fillArray fills := by
  match counts, h with
  | [a, b, c, d, e, f, g, i], _ => exact ⟨⟨a, b, c, d, e, f, g, i⟩, rfl⟩

/-- What stands in front of the series. -/
@[ext] structure Header where
  magic : List UInt8
  version : UInt16
  stationId : UInt16
  year : UInt16
  hours : UInt16
  fills : FillCounts
  reserved : List UInt8
  magic_length : magic.length = 4
  reserved_length : reserved.length = 4

namespace Header

variable (header : Header) (body : List UInt8)

/-- Its words. -/
def words : List UInt16 :=
  [header.version, header.stationId, header.year, header.hours] ++ fillArray header.fills

/-- Its bytes, and what follows. -/
def before : List UInt8 :=
  header.magic ++ (u16.series header.words ++ (header.reserved ++ body))

theorem length_before : (header.before body).length = HEADER_LEN + body.length := by
  simp only [before, words, fillArray, List.length_append, Word.length_series, width_u16,
    header.magic_length, header.reserved_length, List.length_cons, List.length_nil, HEADER_LEN]
  omega

theorem slice_magic : slice (header.before body) 0 4 = some header.magic :=
  slice_append [] header.magic _ rfl (by rw [Nat.zero_add, header.magic_length])

/-- The word at each place of the header. -/
theorem read_word {i : Nat} {a : UInt16} (ha : header.words[i]? = some a) {offset : Nat}
    (h : 4 + i * 2 = offset) : u16.readAt (header.before body) offset = some a :=
  u16.readAt_series _ _ ha (by rw [header.magic_length, width_u16, h])

theorem read_version : u16.readAt (header.before body) 4 = some header.version :=
  header.read_word body (i := 0) rfl rfl

theorem read_stationId : u16.readAt (header.before body) 6 = some header.stationId :=
  header.read_word body (i := 1) rfl rfl

theorem read_year : u16.readAt (header.before body) 8 = some header.year :=
  header.read_word body (i := 2) rfl rfl

theorem read_hours : u16.readAt (header.before body) 10 = some header.hours :=
  header.read_word body (i := 3) rfl rfl

theorem read_counts : (List.range 8).mapM (fun i => u16.readAt (header.before body) (12 + i * 2)) =
    some (fillArray header.fills) := by
  have hread : ∀ i a, (fillArray header.fills)[i]? = some a →
      u16.readAt (header.before body) (12 + i * 2) = some a := by
    intro i a ha
    refine header.read_word body (i := 4 + i) ?_ (by omega)
    rw [words, List.getElem?_append_right (Nat.le_add_right 4 i)]
    simpa using ha
  have hrange : List.range 8 = [0, 1, 2, 3, 4, 5, 6, 7] := rfl
  rw [hrange]
  simp only [List.mapM_cons, List.mapM_nil, hread 0 _ rfl, hread 1 _ rfl, hread 2 _ rfl,
    hread 3 _ rfl, hread 4 _ rfl, hread 5 _ rfl, hread 6 _ rfl, hread 7 _ rfl]
  rfl

/-- With other bytes in the reserved place. -/
def withReserved (reserved : List UInt8) (h : reserved.length = 4) : Header :=
  { header with reserved := reserved, reserved_length := h }

/-- Only the reserved place tells two such headers apart. -/
theorem agree_withReserved (reserved : List UInt8) (h : reserved.length = 4) :
    AgreeOutside 28 32 (header.before body) ((header.withReserved reserved h).before body) := by
  have hfront : (header.magic ++ u16.series header.words).length = 28 := by
    rw [List.length_append, header.magic_length, Word.length_series]
    rfl
  have hagree := agreeOutside_append _ body hfront (a := header.reserved) (b := reserved)
    (by rw [header.reserved_length]) (by rw [h])
  simpa only [before, words, withReserved, List.append_assoc] using hagree

theorem exists_before {bytes : List UInt8} (h : 32 ≤ bytes.length) :
    ∃ (header : Header) (body : List UInt8), bytes = header.before body := by
  obtain ⟨four, rest, hfour, hcount, hrest⟩ := u16.exists_series 4 (bytes.drop 4) (by
    rw [width_u16, List.length_drop]
    omega)
  obtain ⟨version, stationId, year, hours, rfl⟩ : ∃ a b c d, four = [a, b, c, d] := by
    match four, hcount with
    | [a, b, c, d], _ => exact ⟨a, b, c, d, rfl⟩
  rw [width_u16, List.length_drop] at hrest
  obtain ⟨counts, tail, htail, hcounts, hlength⟩ := u16.exists_series 8 rest (by
    rw [width_u16]
    omega)
  rw [width_u16] at hlength
  obtain ⟨fills, rfl⟩ := exists_fills hcounts
  refine ⟨⟨bytes.take 4, version, stationId, year, hours, fills, tail.take 4,
    List.length_take_of_le (by omega), List.length_take_of_le (by omega)⟩, tail.drop 4, ?_⟩
  simp only [before, words, Word.series_append, List.append_assoc, List.take_append_drop]
  rw [← htail, ← hfour, List.take_append_drop]

end Header

/-- The eight series, as they stand one after the other. -/
def arrays (data : ArtifactData) : List UInt8 :=
  i16.series data.tempCX10 ++ (i16.series data.rhPctX10 ++ (i16.series data.ghiWm2X10 ++
    (i16.series data.precipMmX10 ++ (i16.series data.windMsX10 ++ (i16.series data.windDirDeg ++
      (data.precipForm ++ data.cloudOkta))))))

/-- Every series has so many hours. -/
structure Hours (data : ArtifactData) (hours : Nat) : Prop where
  tempCX10 : data.tempCX10.length = hours
  rhPctX10 : data.rhPctX10.length = hours
  ghiWm2X10 : data.ghiWm2X10.length = hours
  precipMmX10 : data.precipMmX10.length = hours
  windMsX10 : data.windMsX10.length = hours
  windDirDeg : data.windDirDeg.length = hours
  precipForm : data.precipForm.length = hours
  cloudOkta : data.cloudOkta.length = hours

theorem length_arrays {data : ArtifactData} {hours : Nat} (h : Hours data hours) :
    (arrays data).length = hours * 14 := by
  simp only [arrays, List.length_append, Word.length_series, width_i16, h.tempCX10, h.rhPctX10,
    h.ghiWm2X10, h.precipMmX10, h.windMsX10, h.windDirDeg, h.precipForm, h.cloudOkta]
  omega

/-- A series is read where it stands, and the offset moves behind it. -/
theorem nextI16Series_tail {bytes after : List UInt8} {series : List Int16} {hours offset : Nat}
    (h : TailAt bytes offset (i16.series series ++ after)) (hhours : series.length = hours) :
    nextI16Series bytes hours offset = some (series, offset + hours * 2) ∧
      TailAt bytes (offset + hours * 2) after := by
  have hsize : (i16.series series).length = hours * 2 := by
    rw [Word.length_series, hhours, width_i16]
  refine ⟨?_, h.skip hsize⟩
  rw [nextI16Series, h.slice hsize, Option.map_some, Word.readSeries_series]

/-- Bytes of eight series of a length are eight series. -/
theorem exists_arrays (stationId year : UInt16) (fills : FillCounts) {hours : Nat} {body : List UInt8}
    (h : body.length = hours * 14) :
    ∃ data, body = arrays data ∧ Hours data hours ∧ data.stationId = stationId ∧ data.year = year ∧
      data.fills = fills := by
  have hnext : ∀ (bytes : List UInt8) (left : Nat), bytes.length = hours * 2 + left →
      ∃ series rest, bytes = i16.series series ++ rest ∧ series.length = hours ∧ rest.length = left := by
    intro bytes left hbytes
    obtain ⟨series, rest, hsplit, hseries, hrest⟩ := i16.exists_series hours bytes (by
      rw [width_i16, hbytes]
      exact Nat.le_add_right _ _)
    rw [hbytes, width_i16, Nat.add_sub_cancel_left] at hrest
    exact ⟨series, rest, hsplit, hseries, hrest⟩
  obtain ⟨temp, body₁, rfl, htemp, h₁⟩ := hnext body (hours * 12) (h.trans (by ring))
  obtain ⟨rh, body₂, rfl, hrh, h₂⟩ := hnext body₁ (hours * 10) (h₁.trans (by ring))
  obtain ⟨ghi, body₃, rfl, hghi, h₃⟩ := hnext body₂ (hours * 8) (h₂.trans (by ring))
  obtain ⟨precip, body₄, rfl, hprecip, h₄⟩ := hnext body₃ (hours * 6) (h₃.trans (by ring))
  obtain ⟨wind, body₅, rfl, hwind, h₅⟩ := hnext body₄ (hours * 4) (h₄.trans (by ring))
  obtain ⟨dir, body₆, rfl, hdir, h₆⟩ := hnext body₅ (hours * 2) (h₅.trans (by ring))
  refine ⟨⟨stationId, year, fills, temp, rh, ghi, precip, wind, dir, body₆.take hours,
    body₆.drop hours⟩, ?_, ⟨htemp, hrh, hghi, hprecip, hwind, hdir, ?_, ?_⟩, rfl, rfl, rfl⟩
  · rw [arrays, List.take_append_drop]
  · apply List.length_take_of_le
    rw [h₆]
    exact Nat.le_mul_of_pos_right hours (by decide)
  · rw [List.length_drop, h₆, Nat.mul_two, Nat.add_sub_cancel]

/-- The length a header asks for. -/
def expected (header : Header) : Nat := HEADER_LEN + header.hours.toNat * 14

/-- What the reader does behind a header it takes. -/
def readArrays (header : Header) (bytes : List UInt8) : Option (Except String ArtifactData) := do
  let hours := header.hours.toNat
  let (tempCX10, offset) ← nextI16Series bytes hours HEADER_LEN
  let (rhPctX10, offset) ← nextI16Series bytes hours offset
  let (ghiWm2X10, offset) ← nextI16Series bytes hours offset
  let (precipMmX10, offset) ← nextI16Series bytes hours offset
  let (windMsX10, offset) ← nextI16Series bytes hours offset
  let (windDirDeg, offset) ← nextI16Series bytes hours offset
  let precipForm ← slice bytes offset (offset + hours)
  let offset := offset + hours
  let cloudOkta ← slice bytes offset (offset + hours)
  some (.ok ⟨header.stationId, header.year, header.fills, tempCX10, rhPctX10, ghiWm2X10, precipMmX10,
    windMsX10, windDirDeg, precipForm, cloudOkta⟩)

/-- The header is read back, field by field. -/
theorem decode_before (header : Header) (body : List UInt8) :
    decode (header.before body) =
      if header.magic ≠ MAGIC then some (.error "bad artifact magic")
      else if header.version ≠ VERSION then
        some (.error s!"artifact version {header.version}, expected {VERSION}")
      else if (header.before body).length ≠ expected header then
        some (.error (s!"artifact is {(header.before body).length} bytes, layout expects " ++
          s!"{expected header}"))
      else readArrays header (header.before body) := by
  rw [decode, if_neg (by rw [header.length_before]; omega), header.slice_magic, header.read_version,
    header.read_stationId, header.read_year, header.read_hours, header.read_counts]
  rfl

/-- Bytes whose length is not the header's are refused. -/
theorem decode_length (header : Header) (body : List UInt8)
    (h : (header.before body).length ≠ expected header) :
    ∃ e, decode (header.before body) = some (.error e) := by
  rw [decode_before, if_pos h]
  split
  · exact ⟨_, rfl⟩
  · split
    · exact ⟨_, rfl⟩
    · exact ⟨_, rfl⟩

/-- A header in front of the series it announces is read as them. -/
theorem decode_arrays (header : Header) {data : ArtifactData} (h : Hours data header.hours.toNat)
    (hstation : data.stationId = header.stationId) (hyear : data.year = header.year)
    (hfills : data.fills = header.fills) :
    decode (header.before (arrays data)) =
      if header.magic ≠ MAGIC then some (.error "bad artifact magic")
      else if header.version ≠ VERSION then
        some (.error s!"artifact version {header.version}, expected {VERSION}")
      else some (.ok data) := by
  have hlen : (header.before (arrays data)).length = expected header := by
    rw [header.length_before, length_arrays h, expected]
  have hfront : (header.before []).length = HEADER_LEN := header.length_before []
  have h₀ : TailAt (header.before (arrays data)) HEADER_LEN (arrays data) := by
    refine ⟨header.before [], ?_, hfront⟩
    simp only [Header.before, List.append_nil, List.append_assoc]
  obtain ⟨htemp, h₁⟩ := nextI16Series_tail h₀ h.tempCX10
  obtain ⟨hrh, h₂⟩ := nextI16Series_tail h₁ h.rhPctX10
  obtain ⟨hghi, h₃⟩ := nextI16Series_tail h₂ h.ghiWm2X10
  obtain ⟨hprecip, h₄⟩ := nextI16Series_tail h₃ h.precipMmX10
  obtain ⟨hwind, h₅⟩ := nextI16Series_tail h₄ h.windMsX10
  obtain ⟨hdir, h₆⟩ := nextI16Series_tail h₅ h.windDirDeg
  have hform := h₆.slice h.precipForm
  have hcloud := (h₆.skip h.precipForm).last h.cloudOkta
  have hread : readArrays header (header.before (arrays data)) = some (.ok data) := by
    simp only [readArrays, htemp, hrh, hghi, hprecip, hwind, hdir, hform, hcloud,
      Option.bind_eq_bind, Option.bind_some, ← hstation, ← hyear, ← hfills]
  rw [decode_before, hread, if_neg (not_not.mpr hlen)]

/-- The header the compiler writes. -/
def writtenHeader (data : ArtifactData) : Header where
  magic := MAGIC
  version := VERSION
  stationId := data.stationId
  year := data.year
  hours := UInt16.ofNat data.tempCX10.length
  fills := data.fills
  reserved := [0, 0, 0, 0]
  magic_length := rfl
  reserved_length := rfl

/-- What the compiler writes. -/
def writtenBytes (data : ArtifactData) : List UInt8 := (writtenHeader data).before (arrays data)

/-- What the compiler accepts: eight series of one length that fits a word. -/
structure Storable (data : ArtifactData) : Prop where
  equal : Hours data data.tempCX10.length
  hours_fit : data.tempCX10.length < 65536

theorem written_eq (data : ArtifactData) :
    MAGIC ++ u16.toLeBytes VERSION ++ u16.toLeBytes data.stationId ++ u16.toLeBytes data.year ++
      u16.toLeBytes (UInt16.ofNat data.tempCX10.length) ++
      (fillArray data.fills).flatMap u16.toLeBytes ++ [0, 0, 0, 0] ++
      [data.tempCX10, data.rhPctX10, data.ghiWm2X10, data.precipMmX10, data.windMsX10,
        data.windDirDeg].flatMap i16.series ++ data.precipForm ++ data.cloudOkta =
      writtenBytes data := by
  have hwords : u16.series (writtenHeader data).words = u16.toLeBytes VERSION ++
      (u16.toLeBytes data.stationId ++ (u16.toLeBytes data.year ++
        (u16.toLeBytes (UInt16.ofNat data.tempCX10.length) ++
          (fillArray data.fills).flatMap u16.toLeBytes))) := by
    rw [Header.words, Word.series_append]
    simp only [Word.series_cons, Word.series_nil, writtenHeader, List.append_assoc, List.nil_append]
    rfl
  simp only [writtenBytes, Header.before, hwords, arrays, List.flatMap_cons, List.flatMap_nil,
    List.append_assoc, List.append_nil]
  rfl

theorem allEqual_iff (data : ArtifactData) :
    ([data.rhPctX10.length, data.ghiWm2X10.length, data.precipMmX10.length, data.windMsX10.length,
      data.windDirDeg.length, data.precipForm.length, data.cloudOkta.length].all
        fun l => l = data.tempCX10.length) = true ↔ Hours data data.tempCX10.length := by
  simp only [List.all_cons, List.all_nil, Bool.and_true, Bool.and_eq_true, decide_eq_true_eq]
  constructor
  · rintro ⟨hrh, hghi, hprecip, hwind, hdir, hform, hcloud⟩
    exact ⟨rfl, hrh, hghi, hprecip, hwind, hdir, hform, hcloud⟩
  · intro h
    exact ⟨h.rhPctX10, h.ghiWm2X10, h.precipMmX10, h.windMsX10, h.windDirDeg, h.precipForm,
      h.cloudOkta⟩

theorem encode_storable {data : ArtifactData} (h : Storable data) :
    encode data = .ok (writtenBytes data) := by
  have hequal := (allEqual_iff data).mpr h.equal
  rw [encode]
  simp only [hequal]
  rw [if_neg (by decide), if_neg (Nat.not_le_of_lt h.hours_fit), written_eq]

theorem storable_of_encode {data : ArtifactData} {bytes : List UInt8} (h : encode data = .ok bytes) :
    Storable data := by
  rw [encode] at h
  split at h
  · cases h
  · rename_i hequal
    split at h
    · cases h
    · rename_i hfit
      refine ⟨(allEqual_iff data).mp ?_, Nat.lt_of_not_le hfit⟩
      simpa using hequal

theorem decode_written {data : ArtifactData} (h : Storable data) :
    decode (writtenBytes data) = some (.ok data) := by
  have hhours : (writtenHeader data).hours.toNat = data.tempCX10.length :=
    UInt16.toNat_ofNat_of_lt' h.hours_fit
  have hmagic : ¬(writtenHeader data).magic ≠ MAGIC := not_not.mpr rfl
  have hversion : ¬(writtenHeader data).version ≠ VERSION := not_not.mpr rfl
  rw [writtenBytes, decode_arrays _ (by rw [hhours]; exact h.equal) rfl rfl rfl, if_neg hmagic,
    if_neg hversion]

/-- Bytes are read as what they hold, or refused. -/
theorem decode_cases (bytes : List UInt8) :
    (∃ e, decode bytes = some (.error e)) ∨
      ∃ data, decode bytes = some (.ok data) ∧ Storable data ∧
        ∃ (reserved : List UInt8) (hreserved : reserved.length = 4),
          bytes = ((writtenHeader data).withReserved reserved hreserved).before (arrays data) := by
  by_cases hshort : bytes.length < HEADER_LEN
  · exact Or.inl ⟨_, by rw [decode, if_pos hshort]⟩
  obtain ⟨header, body, rfl⟩ := Header.exists_before (Nat.le_of_not_lt hshort)
  by_cases hlength : (header.before body).length = expected header
  · have hbody : body.length = header.hours.toNat * 14 := by
      rw [header.length_before, expected] at hlength
      omega
    obtain ⟨data, rfl, hhours, hstation, hyear, hfills⟩ :=
      exists_arrays header.stationId header.year header.fills hbody
    rw [decode_arrays header hhours hstation hyear hfills]
    by_cases hmagic : header.magic = MAGIC
    · by_cases hversion : header.version = VERSION
      · right
        have hcount : UInt16.ofNat data.tempCX10.length = header.hours := by
          rw [hhours.tempCX10, UInt16.ofNat_toNat]
        have hheader : (writtenHeader data).withReserved header.reserved header.reserved_length =
            header :=
          Header.ext hmagic.symm hversion.symm hstation hyear hcount hfills rfl
        refine ⟨data, ?_, ⟨by rw [hhours.tempCX10]; exact hhours, ?_⟩, header.reserved,
          header.reserved_length, by rw [hheader]⟩
        · rw [if_neg (not_not.mpr hmagic), if_neg (not_not.mpr hversion)]
        · rw [hhours.tempCX10]
          exact header.hours.toNat_lt
      · left
        exact ⟨_, by rw [if_neg (not_not.mpr hmagic), if_pos hversion]⟩
    · left
      exact ⟨_, by rw [if_pos hmagic]⟩
  · exact Or.inl (decode_length header body hlength)

/-- What was written reads back as the artifact it was written from, and what reads was written. -/
theorem weather_artifact_codec :
    (∀ data bytes, encode data = .ok bytes → decode bytes = some (.ok data)) ∧
      (∀ bytes data, decode bytes = some (.ok data) →
        (∃ hours, u16.readAt bytes 10 = some hours ∧ Hours data hours.toNat) ∧
          ∃ again, encode data = .ok again ∧ AgreeOutside 28 32 again bytes) ∧
      ∀ bytes, (decode bytes).isSome := by
  refine ⟨fun data bytes h => ?_, fun bytes data h => ?_, fun bytes => ?_⟩
  · have hstorable := storable_of_encode h
    rw [encode_storable hstorable] at h
    cases h
    exact decode_written hstorable
  · obtain ⟨e, he⟩ | ⟨_, hdecode, hstorable, reserved, hreserved, rfl⟩ := decode_cases bytes
    · rw [he] at h
      cases h
    · rw [hdecode] at h
      cases h
      refine ⟨⟨UInt16.ofNat data.tempCX10.length, Header.read_hours _ _, ?_⟩, writtenBytes data,
        encode_storable hstorable, Header.agree_withReserved _ _ reserved hreserved⟩
      rw [UInt16.toNat_ofNat_of_lt' hstorable.hours_fit]
      exact hstorable.equal
  · obtain ⟨e, he⟩ | ⟨data, hdata, -⟩ := decode_cases bytes
    · rw [he]
      rfl
    · rw [hdata]
      rfl

/-- Two hours of every quantity are written and read back. -/
theorem weather_artifact_codec_hours : ∃ data bytes, data.fills = ⟨1, 2, 3, 4, 5, 6, 7, 8⟩ ∧
    encode data = .ok bytes ∧ decode bytes = some (.ok data) := by
  let data : ArtifactData := ⟨3015, 2024, ⟨1, 2, 3, 4, 5, 6, 7, 8⟩, [-128, 53], [830, 1000], [0, 8503],
    [0, 17], [33, 0], [190, 360], [0, 7], [8, 4]⟩
  have hstorable : Storable data := ⟨⟨rfl, rfl, rfl, rfl, rfl, rfl, rfl, rfl⟩, by decide⟩
  have hencode := encode_storable hstorable
  exact ⟨data, _, rfl, hencode, weather_artifact_codec.1 _ _ hencode⟩

end BessWeather
