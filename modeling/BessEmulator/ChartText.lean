import BessEmulator.SmardBlocks

/-!
# Chart data

What the reader of a block takes for a series: entries between brackets, each a stamp
and a value, with blanks around them and commas between them or not. It reads every
such text, and no other.
-/
namespace BessChart

open Bess Smard

/-- Nothing but white space. -/
def Blank (text : List Char) : Prop := ∀ c ∈ text, isWhitespace c = true

theorem splitOnce_iff {sep : Char} {text before after : List Char} :
    splitOnce sep text = some (before, after) ↔ text = before ++ sep :: after ∧ sep ∉ before := by
  induction text generalizing before with
  | nil => simp [splitOnce]
  | cons c text ih =>
    rw [splitOnce]
    by_cases hc : c = sep
    · rw [if_pos hc]
      cases before with
      | nil => simp [hc]
      | cons b before =>
        simp only [Option.some.injEq, Prod.mk.injEq, List.cons_append, List.cons.injEq, List.mem_cons,
          reduceCtorEq, false_and, false_iff]
        rintro ⟨⟨rfl, -⟩, hnot⟩
        exact hnot (Or.inl hc.symm)
    · rw [if_neg hc]
      cases before with
      | nil =>
        constructor
        · intro h
          obtain ⟨⟨before', after'⟩, -, he⟩ := Option.map_eq_some_iff.mp h
          cases he
        · rintro ⟨h, -⟩
          cases h
          exact absurd rfl hc
      | cons b before =>
        have hne : ∀ x, x = c → sep ≠ x := by
          rintro x rfl rfl
          exact hc rfl
        constructor
        · intro h
          obtain ⟨⟨before', after'⟩, hrest, he⟩ := Option.map_eq_some_iff.mp h
          cases he
          obtain ⟨htext, hnot⟩ := ih.mp hrest
          rw [htext]
          exact ⟨rfl, List.not_mem_cons_of_ne_of_not_mem (hne _ rfl) hnot⟩
        · rintro ⟨h, hnot⟩
          cases h
          rw [ih.mpr ⟨rfl, List.not_mem_of_not_mem_cons hnot⟩]
          rfl

/-- White space in front is taken off, up to the first other character. -/
theorem trimStart_blank {blank : List Char} (h : Blank blank) (text : List Char) :
    trimStart (blank ++ text) = trimStart text := by
  rw [trimStart, List.dropWhile_append_of_pos h]
  rfl

theorem trimStart_mark {c : Char} (hc : isWhitespace c = false) (text : List Char) :
    trimStart (c :: text) = c :: text := by
  rw [trimStart, List.dropWhile_cons_of_neg]
  rw [hc]
  exact Bool.false_ne_true

theorem trimStart_idem (text : List Char) : trimStart (trimStart text) = trimStart text :=
  List.dropWhile_idempotent _ text

/-- The white space in front of a text. -/
theorem blank_front (text : List Char) : ∃ blank, Blank blank ∧ text = blank ++ trimStart text :=
  ⟨text.takeWhile isWhitespace, fun _ hc => List.mem_takeWhile_imp hc,
    (List.takeWhile_append_dropWhile ..).symm⟩

theorem stripComma_iff {text rest : List Char} :
    stripComma text = rest ↔ text = ',' :: rest ∨ (text = rest ∧ text.head? ≠ some ',') := by
  rw [stripComma.eq_def]
  split
  · simp
  · next text hnot =>
    constructor
    · rintro rfl
      right
      refine ⟨rfl, fun hhead => ?_⟩
      obtain ⟨rest, rfl⟩ := List.head?_eq_some_iff.mp hhead
      exact hnot rest rfl
    · rintro (h | ⟨h, -⟩)
      · exact absurd h (hnot rest)
      · exact h

/-- The first place a pattern is at. -/
def FirstAt (pattern before body : List Char) : Prop :=
  pattern <+: body ∧ ∀ earlier later, before = earlier ++ later → later ≠ [] → ¬ pattern <+: later ++ body

theorem fromFirst_iff {pattern text body : List Char} (hpattern : pattern ≠ []) :
    fromFirst pattern text = some body ↔ ∃ before, text = before ++ body ∧ FirstAt pattern before body := by
  induction text with
  | nil =>
    simp only [fromFirst, List.isEmpty_iff, hpattern, if_false, reduceCtorEq, false_iff]
    rintro ⟨before, hnil, hfirst, -⟩
    rw [(List.append_eq_nil_iff.mp hnil.symm).2] at hfirst
    exact hpattern (List.prefix_nil.mp hfirst)
  | cons c text ih =>
    rw [fromFirst]
    by_cases hc : pattern <+: c :: text
    · rw [if_pos (List.isPrefixOf_iff_prefix.mpr hc)]
      constructor
      · intro h
        cases h
        refine ⟨[], rfl, hc, fun earlier later hnil hne => ?_⟩
        exact absurd (List.append_eq_nil_iff.mp hnil.symm).2 hne
      · rintro ⟨before, htext, -, hearlier⟩
        cases before with
        | nil => rw [htext]; rfl
        | cons b before =>
          rw [htext] at hc
          exact absurd hc (hearlier [] (b :: before) rfl (List.cons_ne_nil b before))
    · rw [if_neg (mt List.isPrefixOf_iff_prefix.mp hc), ih]
      constructor
      · rintro ⟨before, rfl, hfirst, hearlier⟩
        refine ⟨c :: before, rfl, hfirst, fun earlier later hsplit hne => ?_⟩
        cases earlier with
        | nil =>
          rw [List.nil_append] at hsplit
          rw [← hsplit]
          exact hc
        | cons e earlier =>
          cases hsplit
          exact hearlier earlier later rfl hne
      · rintro ⟨before, htext, hfirst, hearlier⟩
        cases before with
        | nil =>
          rw [htext] at hc
          exact absurd hfirst hc
        | cons b before =>
          cases htext
          refine ⟨before, rfl, hfirst, fun earlier later hsplit hne => ?_⟩
          exact hearlier (c :: earlier) later (by rw [hsplit]; rfl) hne

variable {F : Type}

/-- What a value's text says; `null` is no value. -/
def Value (parse : List Char → Option F) (text : List Char) : Option F → Prop
  | none => trim text = "null".toList
  | some v => trim text ≠ "null".toList ∧ parse (trim text) = some v

/-- The text of an entry, between its brackets. -/
inductive Entry (parse : List Char → Option F) : List Char → Int × Option F → Prop
  | pair {ms value : List Char} {stamp : Int} {v : Option F} : ',' ∉ ms →
    Utf8.parseI64 (Utf8.bytes (trim ms)) = some stamp → Value parse value v →
      Entry parse (ms ++ ',' :: value) (stamp, v)

/-- The text of an array from the next entry on. What follows its end is not looked at. -/
inductive Entries (parse : List Char → Option F) : List Char → List (Int × Option F) → Prop
  | close {blank after : List Char} : Blank blank → Entries parse (blank ++ ']' :: after) []
  | entry {blank inner gap sep rest : List Char} {e : Int × Option F} {entries : List (Int × Option F)} :
    Blank blank → ']' ∉ inner → Entry parse inner e → Blank gap → (sep = [] ∨ sep = [',']) →
      Entries parse rest entries →
        Entries parse (blank ++ '[' :: inner ++ ']' :: (gap ++ sep ++ rest)) (e :: entries)

variable {parse : List Char → Option F}

theorem readEntry_iff {inner : List Char} {e : Int × Option F} :
    readEntry parse inner = .ok e ↔ Entry parse inner e := by
  rw [readEntry]
  constructor
  · intro h
    split at h
    · cases h
    · next ms value hsplit =>
      obtain ⟨rfl, hnot⟩ := splitOnce_iff.mp hsplit
      split at h
      · cases h
      · next stamp hstamp =>
        split at h
        · next hnull =>
          cases h
          exact Entry.pair hnot hstamp hnull
        · next hvalue =>
          split at h
          · cases h
          · next v hv =>
            cases h
            exact Entry.pair hnot hstamp ⟨hvalue, hv⟩
  · rintro ⟨hnot, hstamp, hvalue⟩
    next ms value stamp v =>
    rw [splitOnce_iff.mpr ⟨rfl, hnot⟩]
    simp only [hstamp]
    cases v with
    | none => exact if_pos hvalue
    | some v => rw [if_neg hvalue.1, hvalue.2]

/-- White space in front of the next entry is nothing to the reader. -/
theorem readEntries_trimStart (rest : List Char) :
    readEntries parse (trimStart rest) = readEntries parse rest := by
  rw [readEntries, readEntries, trimStart_idem]

theorem trimStart_opening (blank inner after : List Char) (h : Blank blank) :
    trimStart (blank ++ '[' :: inner ++ after) = '[' :: inner ++ after := by
  rw [List.append_assoc, trimStart_blank h]
  exact trimStart_mark (by decide) _

/-- After an entry the reader is at the next one, a comma between them or not. -/
theorem readEntries_after {gap sep rest : List Char} {entries : List (Int × Option F)} (hgap : Blank gap)
    (hsep : sep = [] ∨ sep = [',']) (hrest : Entries parse rest entries) :
    readEntries parse (stripComma (trimStart (gap ++ sep ++ rest))) = readEntries parse rest := by
  rw [List.append_assoc, trimStart_blank hgap]
  rcases hsep with rfl | rfl
  · rw [List.nil_append]
    have hmark : (trimStart rest).head? ≠ some ',' := by
      cases hrest with
      | close hblank =>
        rw [trimStart_blank hblank, trimStart_mark (by decide)]
        simp
      | entry hblank =>
        rw [trimStart_opening _ _ _ hblank]
        simp
    rw [stripComma_iff.mpr (Or.inr ⟨rfl, hmark⟩), readEntries_trimStart]
  · rw [List.singleton_append, trimStart_mark (by decide), stripComma_iff.mpr (Or.inl rfl)]

theorem readEntries_of_entries {rest : List Char} {entries : List (Int × Option F)}
    (h : Entries parse rest entries) : readEntries parse rest = .ok entries := by
  induction h with
  | close hblank =>
    rw [readEntries, if_pos]
    rw [trimStart_blank hblank, trimStart_mark (by decide)]
    rfl
  | @entry blank inner gap sep rest e entries hblank hinner he hgap hsep hrest ih =>
    have htrim := trimStart_opening blank inner (']' :: (gap ++ sep ++ rest)) hblank
    have hsplit : splitOnce ']' (trimStart (blank ++ '[' :: inner ++ ']' :: (gap ++ sep ++ rest))) =
        some ('[' :: inner, gap ++ sep ++ rest) := by
      rw [htrim, splitOnce_iff]
      exact ⟨rfl, List.not_mem_cons_of_ne_of_not_mem (by decide) hinner⟩
    rw [readEntries, if_neg (by rw [htrim]; simp)]
    split
    · next hnone =>
      rw [hsplit] at hnone
      cases hnone
    · next inner' after hsome =>
      rw [hsplit] at hsome
      cases hsome
      rw [readEntry_iff.mpr he, readEntries_after hgap hsep hrest, ih]
      rfl
    · next hother hsome =>
      exact absurd (Option.some.inj (hsome.symm.trans hsplit)) (hother _ _)

theorem entries_of_readEntries {rest : List Char} {entries : List (Int × Option F)}
    (h : readEntries parse rest = .ok entries) : Entries parse rest entries := by
  induction hlength : rest.length using Nat.strongRecOn generalizing rest entries with
  | ind n ih =>
    obtain ⟨blank, hblank, hrest⟩ := blank_front rest
    rw [readEntries] at h
    split at h
    · next hclose =>
      cases h
      obtain ⟨after, hafter⟩ := List.head?_eq_some_iff.mp hclose
      rw [hrest, hafter]
      exact Entries.close hblank
    · split at h
      · cases h
      · next inner after hsplit =>
        obtain ⟨htrim, hinner⟩ := splitOnce_iff.mp hsplit
        obtain ⟨gap, hgap, hafter⟩ := blank_front after
        split at h
        · cases h
        · next e he =>
          obtain ⟨entries', hnext, hcons⟩ : ∃ entries', readEntries parse (stripComma (trimStart after)) =
              .ok entries' ∧ e :: entries' = entries := by
            cases hnext : readEntries parse (stripComma (trimStart after)) with
            | error m =>
              rw [hnext] at h
              cases h
            | ok entries' =>
              rw [hnext] at h
              cases h
              exact ⟨entries', rfl, rfl⟩
          have hshort : (stripComma (trimStart after)).length < n := by
            have hcomma := length_stripComma (trimStart after)
            have hdrop : (trimStart after).length ≤ after.length := (List.dropWhile_sublist _).length_le
            rw [← hlength, hrest, htrim]
            simp only [List.length_append, List.length_cons]
            omega
          have hentries := ih _ hshort hnext rfl
          obtain ⟨sep, hsep, hstrip⟩ : ∃ sep, (sep = [] ∨ sep = [',']) ∧
              trimStart after = sep ++ stripComma (trimStart after) := by
            rcases stripComma_iff.mp (rfl : stripComma (trimStart after) = _) with hcomma | ⟨hsame, -⟩
            · exact ⟨[','], Or.inr rfl, hcomma⟩
            · exact ⟨[], Or.inl rfl, hsame⟩
          have hwhole : rest = blank ++ '[' :: inner ++ ']' ::
              (gap ++ sep ++ stripComma (trimStart after)) := by
            rw [List.append_assoc gap, ← hstrip, ← hafter, List.append_assoc blank, List.cons_append,
              ← List.cons_append, ← htrim]
            exact hrest
          rw [hwhole, ← hcons]
          exact Entries.entry hblank (List.not_mem_of_not_mem_cons hinner) (readEntry_iff.mp he) hgap hsep hentries
      · cases h

/-- The reader takes the texts of arrays, and no other. -/
theorem readEntries_iff {rest : List Char} {entries : List (Int × Option F)} :
    readEntries parse rest = .ok entries ↔ Entries parse rest entries :=
  ⟨entries_of_readEntries, readEntries_of_entries⟩

/-- The key of the series. -/
def KEY : List Char := "\"series\"".toList

/-- The text of a chart-data file: the array at the first bracket after the first key. -/
inductive Series (parse : List Char → Option F) : List Char → List (Int × Option F) → Prop
  | keyed {before mid rest : List Char} {entries : List (Int × Option F)} :
    FirstAt KEY before (mid ++ '[' :: rest) → '[' ∉ mid → Entries parse rest entries →
      Series parse (before ++ (mid ++ '[' :: rest)) entries

theorem parseSeries_iff {text : List Char} {entries : List (Int × Option F)} :
    parseSeries parse text = .ok entries ↔ Series parse text entries := by
  have hkey : KEY ≠ [] := by decide
  rw [parseSeries]
  constructor
  · intro h
    split at h
    · cases h
    · next body hbody =>
      obtain ⟨before, rfl, hfirst⟩ := (fromFirst_iff hkey).mp hbody
      split at h
      · cases h
      · next mid rest hsplit =>
        obtain ⟨rfl, hnot⟩ := splitOnce_iff.mp hsplit
        exact Series.keyed hfirst hnot (readEntries_iff.mp h)
  · rintro ⟨hfirst, hnot, hentries⟩
    rw [show "\"series\"".toList = KEY from rfl, (fromFirst_iff hkey).mpr ⟨_, rfl, hfirst⟩]
    simp only [splitOnce_iff.mpr ⟨rfl, hnot⟩]
    exact readEntries_iff.mpr hentries

theorem nameStamp_iff {name digits : List Char} :
    nameStamp name = some digits ↔ name = PREFIX ++ digits ++ SUFFIX := by
  rw [nameStamp, Option.bind_eq_some_iff]
  constructor
  · rintro ⟨rest, hprefix, hsuffix⟩
    rw [← List.isPrefixOf?_eq_some_iff_append_eq.mp hprefix,
      ← List.isSuffixOf?_eq_some_iff_append_eq.mp hsuffix, List.append_assoc]
  · rintro rfl
    exact ⟨digits ++ SUFFIX, List.isPrefixOf?_eq_some_iff_append_eq.mpr (List.append_assoc _ _ _).symm,
      List.isSuffixOf?_eq_some_iff_append_eq.mpr rfl⟩

/-- A file whose name is no block's is passed over. -/
theorem readBlock_none {name text : List Char} :
    readBlock parse (name, text) = .ok none ↔ ¬ ∃ digits, name = PREFIX ++ digits ++ SUFFIX := by
  rw [readBlock]
  cases hname : nameStamp name with
  | none =>
    refine iff_of_true rfl ?_
    rintro ⟨digits, hdigits⟩
    rw [nameStamp_iff.mpr hdigits] at hname
    cases hname
  | some digits =>
    refine iff_of_false (fun h => ?_) (not_not.mpr ⟨digits, nameStamp_iff.mp hname⟩)
    simp only at h
    split at h
    · cases h
    · split at h
      · cases h
      · split at h <;> cases h

theorem readBlock_some {name text : List Char} {block : PriceBlock F} :
    readBlock parse (name, text) = .ok (some block) ↔
      ∃ digits, name = PREFIX ++ digits ++ SUFFIX ∧
        Utf8.parseI64 (Utf8.bytes digits) = some block.startMs ∧ Series parse text block.entries ∧
          block.entries.head?.map Prod.fst = some block.startMs := by
  rw [readBlock]
  simp only [← nameStamp_iff]
  cases hname : nameStamp name with
  | none => simp
  | some digits =>
    simp only
    constructor
    · intro h
      split at h
      · cases h
      · next startMs hstart =>
        split at h
        · cases h
        · next entries hseries =>
          split at h
          · cases h
          · next hfirst =>
            cases h
            exact ⟨digits, rfl, hstart, parseSeries_iff.mp hseries, not_not.mp hfirst⟩
    · rintro ⟨digits', hdigits', hstart, hseries, hfirst⟩
      cases hdigits'
      simp only [hstart, parseSeries_iff.mpr hseries]
      exact if_neg (not_not.mpr hfirst)

/-- A file whose name is not one is passed over. Of the others just those are read whose name
spells the stamp of the first entry of an array their text holds: any text of such an array is
read, to its entries, and no other text is. -/
theorem block_accepted (parse : List Char → Option F) (name text : List Char) :
    (readBlock parse (name, text) = .ok none ↔ ¬ ∃ digits, name = PREFIX ++ digits ++ SUFFIX) ∧
      ∀ block, readBlock parse (name, text) = .ok (some block) ↔
        ∃ digits, name = PREFIX ++ digits ++ SUFFIX ∧
          Utf8.parseI64 (Utf8.bytes digits) = some block.startMs ∧ Series parse text block.entries ∧
            block.entries.head?.map Prod.fst = some block.startMs :=
  ⟨readBlock_none, fun _ => readBlock_some⟩

/-- A value as it is spelled. -/
def valueText (spell : F → List Char) : Option F → List Char
  | none => "null".toList
  | some v => spell v

/-- Entries as they are listed, to the end of the array. -/
def listed (spell : F → List Char) : List (Int × Option F) → List Char
  | [] => ['\x5d', '\x7d']
  | (ms, v) :: entries =>
    '[' :: (Utf8.pad 13 ms.toNat ++ ',' :: valueText spell v) ++ ']' ::
      ([] ++ (if entries = [] then [] else [',']) ++ listed spell entries)

/-- A file of entries. -/
def chartText (spell : F → List Char) (entries : List (Int × Option F)) : List Char :=
  ['\x7b'] ++ (KEY ++ [':'] ++ '[' :: listed spell entries)

/-- A spelling the reader takes for the value. -/
structure Spelled (parse : List Char → Option F) (spell : F → List Char) (v : F) : Prop where
  trimmed : trim (spell v) = spell v
  inside : ']' ∉ spell v
  named : spell v ≠ "null".toList
  parsed : parse (spell v) = some v

theorem trim_plain {text : List Char} (h : ∀ c ∈ text, isWhitespace c = false) : trim text = text := by
  have hfront : text.dropWhile isWhitespace = text := by
    cases text with
    | nil => rfl
    | cons c text => exact trimStart_mark (h c List.mem_cons_self) text
  rw [trim, hfront, List.rdropWhile_eq_self_iff]
  intro hne
  rw [h _ (List.getLast_mem hne)]
  exact Bool.false_ne_true

theorem digit_plain {c : Char} (h : c.isDigit = true) : isWhitespace c = false ∧ c ≠ ',' ∧ c ≠ ']' := by
  obtain ⟨hlow, hhigh⟩ := Utf8.toNat_of_isDigit h
  have hmark : ∀ d : Char, d.toNat = 44 ∨ d.toNat = 93 → c ≠ d := by
    rintro d hd rfl
    omega
  refine ⟨?_, hmark _ (Or.inl rfl), hmark _ (Or.inr rfl)⟩
  simp [isWhitespace]
  omega

/-- A stamp in so many digits reads back. -/
theorem stamp_reads {ms : Int} (hlow : 0 ≤ ms) (hhigh : ms < 10 ^ 13) :
    Utf8.parseI64 (Utf8.bytes (Utf8.pad 13 ms.toNat)) = some ms := by
  have hdigits := Utf8.digits_pad 13 ms.toNat
  have hascii : Utf8.Ascii (Utf8.pad 13 ms.toNat) := by
    intro c hc
    have := Utf8.toNat_of_isDigit (hdigits.decimal c hc)
    omega
  rw [Utf8.bytes_ascii hascii, Utf8.parseI64_digits hdigits (by decide) (by decide),
    Utf8.value_pad (by omega), Int.toNat_of_nonneg hlow]

/-- Entries whose stamps have their digits and whose values are spelled. -/
def Listable (parse : List Char → Option F) (spell : F → List Char) (entries : List (Int × Option F)) : Prop :=
  ∀ e ∈ entries, (0 ≤ e.1 ∧ e.1 < 10 ^ 13) ∧ ∀ v, e.2 = some v → Spelled parse spell v

theorem entries_listed {spell : F → List Char} {entries : List (Int × Option F)}
    (h : Listable parse spell entries) : Entries parse (listed spell entries) entries := by
  induction entries with
  | nil =>
    have hblank : Blank [] := fun c hc => absurd hc List.not_mem_nil
    exact Entries.close hblank
  | cons e entries ih =>
    obtain ⟨ms, v⟩ := e
    obtain ⟨⟨⟨hlow, hhigh⟩, hvalue⟩, hrest⟩ := List.forall_mem_cons.mp h
    have hdigit : ∀ c ∈ Utf8.pad 13 ms.toNat, isWhitespace c = false ∧ c ≠ ',' ∧ c ≠ ']' :=
      fun c hc => digit_plain ((Utf8.digits_pad 13 ms.toNat).decimal c hc)
    have hvalue' : Value parse (valueText spell v) v ∧ ']' ∉ valueText spell v := by
      cases v with
      | none =>
        have hnull : trim "null".toList = "null".toList := by decide
        have hinside : ']' ∉ "null".toList := by decide
        exact ⟨hnull, hinside⟩
      | some v =>
        have hv := hvalue v rfl
        exact ⟨⟨by rw [valueText, hv.trimmed]; exact hv.named, by rw [valueText, hv.trimmed]; exact hv.parsed⟩,
          hv.inside⟩
    have hblank : Blank [] := fun c hc => absurd hc List.not_mem_nil
    have hentry : Entry parse (Utf8.pad 13 ms.toNat ++ ',' :: valueText spell v) (ms, v) := by
      apply Entry.pair
      · exact fun hc => (hdigit _ hc).2.1 rfl
      · rw [trim_plain fun c hc => (hdigit c hc).1]
        exact stamp_reads hlow hhigh
      · exact hvalue'.1
    have hinner : ']' ∉ Utf8.pad 13 ms.toNat ++ ',' :: valueText spell v := by
      simp only [List.mem_append, List.mem_cons, not_or]
      exact ⟨fun hc => (hdigit _ hc).2.2 rfl, by decide, hvalue'.2⟩
    have hsep : (if entries = [] then [] else [',']) = ([] : List Char) ∨
        (if entries = [] then [] else [',']) = [','] := by
      split
      · exact Or.inl rfl
      · exact Or.inr rfl
    exact Entries.entry hblank hinner hentry hblank hsep (ih hrest)

/-- A file of entries reads back as the block it is of. -/
theorem readBlock_chart {spell : F → List Char} {block : PriceBlock F}
    (h : Listable parse spell block.entries)
    (hfirst : block.entries.head?.map Prod.fst = some block.startMs) :
    readBlock parse (PREFIX ++ Utf8.pad 13 block.startMs.toNat ++ SUFFIX, chartText spell block.entries) =
      .ok (some block) := by
  have hmem : ∃ v, (block.startMs, v) ∈ block.entries := by
    obtain ⟨⟨ms, v⟩, hhead, hms⟩ := Option.map_eq_some_iff.mp hfirst
    exact ⟨v, by rw [← hms]; exact List.mem_of_mem_head? hhead⟩
  obtain ⟨v, hv⟩ := hmem
  obtain ⟨⟨hlow, hhigh⟩, -⟩ := h _ hv
  have hfound : FirstAt KEY ['\x7b'] (KEY ++ [':'] ++ '[' :: listed spell block.entries) := by
    refine ⟨⟨[':'] ++ '[' :: listed spell block.entries, by rw [List.append_assoc]⟩, ?_⟩
    intro earlier later hsplit hne hprefix
    cases later with
    | nil => exact hne rfl
    | cons c later =>
      have hc : c = '\x7b' := by
        have hmem : c ∈ ['\x7b'] := by rw [hsplit]; simp
        exact List.mem_singleton.mp hmem
      obtain ⟨rest, hrest⟩ := hprefix
      rw [hc] at hrest
      cases hrest
  exact readBlock_some.mpr ⟨_, rfl, stamp_reads hlow hhigh,
    Series.keyed hfound (by decide) (entries_listed h), hfirst⟩

end BessChart
