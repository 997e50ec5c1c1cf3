import BessEmulator.PriceArtifact
import BessEmulator.StationRows

/-!
# The price compiler

From the weekly blocks of the market's chart data to the bytes of the price
artifact. No hour is filled: the year's hours have to be there once each, and the
local days are read off the stamps the blocks start at.
-/
namespace Bess.Smard

/-- Calendar year of the local days compiled. -/
def YEAR : Int := 2024

/-- Europe/Berlin is UTC+1 on both ends of the year. -/
def START_OFFSET_H : Int := 1

/-- The local year in hours. -/
def HOURS : Nat := 8784

/-- File name prefix. -/
def PREFIX : List Char := "4169_DE_hour_".toList

def SUFFIX : List Char := ".json".toList

def HOUR_MS : Int := 3600000

def DAY_MS : Int := 24 * HOUR_MS

/-- UTC milliseconds of local midnight on January 1st. -/
def localMidnightMs (year : Int) : Int :=
  (Calendar.daysFromCivil year 1 1 * 86400 - START_OFFSET_H * 3600) * 1000

/-- `{n:0width}`: zeros after the sign, up to the width. -/
def padded (width : Nat) (n : Int) : String :=
  let digits := toString n.natAbs
  let sign := if n < 0 then "-" else ""
  sign ++ String.ofList (List.replicate (width - digits.length - sign.length) '0') ++ digits

/-- A millisecond stamp as the messages spell it. -/
def stamp (ms : Int) : String :=
  let (y, m, d) := Calendar.civilFromDays (ms / DAY_MS)
  let h := (ms % DAY_MS).tdiv HOUR_MS
  s!"{padded 4 y}-{padded 2 m}-{padded 2 d} {padded 2 h}:00 UTC"

/-- `&text[text.find(pattern)?..]`. -/
def fromFirst (pattern : List Char) : List Char → Option (List Char)
  | [] => if pattern.isEmpty then some [] else none
  | c :: text => if pattern.isPrefixOf (c :: text) then some (c :: text) else fromFirst pattern text

/-- `str::split_once` at a character. -/
def splitOnce (sep : Char) : List Char → Option (List Char × List Char)
  | [] => none
  | c :: text =>
    if c = sep then some ([], text)
    else (splitOnce sep text).map fun (before, after) => (c :: before, after)

theorem length_splitOnce {sep : Char} {text before after : List Char}
    (h : splitOnce sep text = some (before, after)) : after.length < text.length := by
  induction text generalizing before after with
  | nil => cases h
  | cons c text ih =>
    rw [splitOnce] at h
    split at h
    · cases h
      exact Nat.lt_succ_self _
    · obtain ⟨⟨before', after'⟩, hrest, he⟩ := Option.map_eq_some_iff.mp h
      cases he
      exact Nat.lt_succ_of_lt (ih hrest)

/-- `str::trim_start`. -/
def trimStart (text : List Char) : List Char := text.dropWhile isWhitespace

/-- `rest.strip_prefix(',').unwrap_or(rest)`. -/
def stripComma : List Char → List Char
  | ',' :: rest => rest
  | rest => rest

theorem length_stripComma (text : List Char) : (stripComma text).length ≤ text.length := by
  rw [stripComma.eq_def]
  split
  · exact Nat.le_succ _
  · exact le_refl _

section

variable {F : Type}

/-- What stands between the brackets of an entry: a stamp and a value. -/
def readEntry (parse : List Char → Option F) (inner : List Char) : Except String (Int × Option F) :=
  match splitOnce ',' inner with
  | none => .error "entry without a value"
  | some (ms, value) =>
    match Utf8.parseI64 (Utf8.bytes (trim ms)) with
    | none => .error s!"bad stamp {String.ofList ms}"
    | some ms =>
      if trim value = "null".toList then .ok (ms, none)
      else
        match parse (trim value) with
        | none => .error s!"bad value {String.ofList (trim value)}"
        | some v => .ok (ms, some v)

/-- The entries from here to the end of the array. -/
def readEntries (parse : List Char → Option F) (rest : List Char) : Except String (List (Int × Option F)) :=
  if (trimStart rest).head? = some ']' then .ok []
  else
    match _h : splitOnce ']' (trimStart rest) with
    | none => .error "unterminated entry"
    | some ('[' :: inner, after) =>
      match readEntry parse inner with
      | .error e => .error e
      | .ok entry => (readEntries parse (stripComma (trimStart after))).map fun entries => entry :: entries
    | some _ => .error "entry is not an array"
termination_by rest.length
decreasing_by
  have hafter := length_splitOnce _h
  have hrest : (trimStart rest).length ≤ rest.length := (List.dropWhile_sublist _).length_le
  have htrim : (trimStart after).length ≤ after.length := (List.dropWhile_sublist _).length_le
  have hcomma := length_stripComma (trimStart after)
  omega

/-- The `series` array of a chart-data file. -/
def parseSeries (parse : List Char → Option F) (text : List Char) : Except String (List (Int × Option F)) :=
  match fromFirst "\"series\"".toList text with
  | none => .error "no series key"
  | some body =>
    match splitOnce '[' body with
    | none => .error "series is not an array"
    | some (_, rest) => readEntries parse rest

/-- One weekly block: its start stamp and its entries. -/
structure PriceBlock (F : Type) where
  startMs : Int
  entries : List (Int × Option F)

/-- The stamp in a block's file name. -/
def nameStamp (name : List Char) : Option (List Char) :=
  (PREFIX.isPrefixOf? name).bind fun s => SUFFIX.isSuffixOf? s

/-- A file of the directory; none if it is no block. -/
def readBlock (parse : List Char → Option F) (file : List Char × List Char) :
    Except String (Option (PriceBlock F)) :=
  let (name, text) := file
  match nameStamp name with
  | none => .ok none
  | some digits =>
    match Utf8.parseI64 (Utf8.bytes digits) with
    | none => .error s!"bad block name {String.ofList name}"
    | some startMs =>
      match parseSeries parse text with
      | .error e => .error s!"{String.ofList name}: {e}"
      | .ok entries =>
        if entries.head?.map Prod.fst ≠ some startMs then
          .error s!"{String.ofList name}: first entry is not the block start"
        else .ok (some ⟨startMs, entries⟩)

/-- The blocks of a directory, in order of their starts. -/
def readBlocks (parse : List Char → Option F) (rawDir : String) (files : List (List Char × List Char)) :
    Except String (List (PriceBlock F)) := do
  let read ← files.mapM (readBlock parse)
  let blocks := read.reduceOption.mergeSort fun a b => a.startMs ≤ b.startMs
  if blocks.isEmpty then .error s!"no {String.ofList PREFIX}*.json blocks in {rawDir}" else .ok blocks

/-- Hour index of a stamp. -/
def hourIndex (ms startMs : Int) : Except String Nat :=
  if (ms - startMs).tmod HOUR_MS ≠ 0 then .error s!"{stamp ms} is not on a whole hour"
  else
    let index := (ms - startMs).tdiv HOUR_MS
    if 0 ≤ index ∧ index < 65536 then .ok index.toNat else .error s!"{stamp ms} overflows u16"

/-- Local midnights from a block's start: every 24 hours, whole days to the nearest. -/
def midnights (blockMs nextMs : Int) : List Int :=
  let days := (nextMs - blockMs + DAY_MS.tdiv 2).tdiv DAY_MS
  (List.range days.toNat).map fun k : Nat => blockMs + k * DAY_MS

/-- Those of every block, each up to the next one. -/
def allMidnights (endMs : Int) : List Int → List Int
  | [] => []
  | blockMs :: starts => midnights blockMs (starts.head?.getD endMs) ++ allMidnights endMs starts

/-- Hour index of every local midnight, and the end. -/
def dayTable (blocks : List (PriceBlock F)) (startMs endMs : Int) : Except String (List Nat) :=
  let starts := (blocks.map PriceBlock.startMs).filter fun ms => startMs ≤ ms ∧ ms < endMs
  if starts.head? ≠ some startMs then
    .error s!"no block starts at the local year's first hour {stamp startMs}"
  else (allMidnights endMs starts ++ [endMs]).mapM fun ms => hourIndex ms startMs

variable [Scalar F] (display : F → String)

/-- The price of the year's next hour: there, not null, within the market's limits. -/
def strictHour (startMs : Int) (idx : Nat) (entry : Int × Option F) : Except String F :=
  let (ms, value) := entry
  let expected := startMs + idx * HOUR_MS
  if ms ≠ expected then
    let what := if ms < expected then "repeated" else "missing"
    .error s!"{what} hour at {stamp (min expected ms)}"
  else
    match value with
    | none => .error s!"null price at {stamp ms}"
    | some v =>
      if (-500.0 : F) ≤ v ∧ v ≤ 4000.0 then .ok v
      else .error s!"{display v} EUR/MWh at {stamp ms} is outside the market limits"

/-- The prices of the entries in order. -/
def strictHours (startMs : Int) : Nat → List (Int × Option F) → Except String (List F)
  | _, [] => .ok []
  | idx, entry :: entries =>
    match strictHour display startMs idx entry with
    | .error e => .error e
    | .ok v => (strictHours startMs (idx + 1) entries).map fun prices => v :: prices

/-- The year's hourly prices. -/
def hourlySeries (blocks : List (PriceBlock F)) (startMs endMs : Int) : Except String (List F) :=
  let entries := (blocks.flatMap PriceBlock.entries).filter fun e => startMs ≤ e.1 ∧ e.1 < endMs
  match strictHours display startMs 0 (entries.mergeSort fun a b => a.1 ≤ b.1) with
  | .error e => .error e
  | .ok prices =>
    if prices.length ≠ HOURS then
      .error s!"{prices.length} hours in the local year, expected {HOURS}"
    else .ok prices

/-- A price in whole cents. -/
def cents (v : F) : Int32 := Int32.ofInt (toI32 (Scalar.round (v * 100.0)))

/-- What the artifact is made of. -/
def compileData (parse : List Char → Option F) (rawDir : String) (files : List (List Char × List Char)) :
    Except String PriceCodec.ArtifactData := do
  let startMs := localMidnightMs YEAR
  let endMs := localMidnightMs (YEAR + 1)
  let blocks ← readBlocks parse rawDir files
  let prices ← hourlySeries display blocks startMs endMs
  let dayStarts ← dayTable blocks startMs endMs
  return {
    year := 2024
    startOffsetH := 1
    priceCtMwh := prices.map cents
    dayStarts := dayStarts.map UInt16.ofNat }

/-- The bytes written to the artifact's file; `none` where the encoder would panic. -/
def compilePrices (parse : List Char → Option F) (rawDir : String)
    (files : List (List Char × List Char)) : Option (Except String (List UInt8)) :=
  match compileData display parse rawDir files with
  | .error e => some (.error e)
  | .ok data => PriceCodec.encode data

end

end Bess.Smard
