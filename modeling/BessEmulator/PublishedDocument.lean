import BessEmulator.PublishedRecord

/-!
# What is published passes

A block rendered from a record stands between its markers and has neither inside, so it
is what is read back out of the document it is put into. Whatever stood in the files
before, what one run publishes then fails the check of a run on nothing but the gates
that run misses and the places where the two runs differ.
-/
namespace BessPublished

open Bess Bench Occurrence

theorem markers_iff {document : List Char} {start stop : Nat} : markers document = .ok (start, stop) ↔
    find BEGIN document = some start ∧ find END document = some stop ∧ start ≤ stop := by
  rw [markers]
  cases find BEGIN document with
  | none => simp
  | some s =>
    cases find END document with
    | none => simp
    | some e =>
      by_cases h : e < s
      · simp only [if_pos h, Option.some.injEq, reduceCtorEq, false_iff]
        rintro ⟨rfl, rfl, hle⟩
        exact absurd h hle.not_gt
      · simp only [if_neg h, Except.ok.injEq, Prod.mk.injEq, Option.some.injEq]
        constructor
        · rintro ⟨rfl, rfl⟩
          exact ⟨rfl, rfl, not_lt.mp h⟩
        · rintro ⟨rfl, rfl, -⟩
          exact ⟨rfl, rfl⟩

/-- A block that opens with its marker and has the closing one at its end first. -/
structure Framed (block : List Char) : Prop where
  opens : BEGIN <+: block
  closes : find END block = some (block.length - END.length)

theorem end_le_begin : END.length ≤ BEGIN.length := by decide

section

variable {document block : List Char} {start stop : Nat}

/-- The markers of a document with its block replaced. -/
theorem markers_splice (hm : markers document = .ok (start, stop)) (hb : Framed block) :
    markers (document.take start ++ block ++ document.drop (stop + END.length)) =
      .ok (start, start + (block.length - END.length)) := by
  obtain ⟨hbegin, hend, hle⟩ := markers_iff.mp hm
  obtain ⟨hstart, ⟨rest, hrest⟩, -⟩ := find_iff.mp hbegin
  obtain ⟨-, -, hlast⟩ := find_iff.mp hend
  obtain ⟨after, hafter⟩ := hb.opens
  generalize document.drop (stop + END.length) = tail
  have hpre : (document.take start).length = start := List.length_take_of_le hstart
  -- up to the end of the opening marker nothing changed
  have hagree : document.take (start + BEGIN.length) =
      (document.take start ++ block ++ tail).take (start + BEGIN.length) := by
    have hlength : (document.take start ++ BEGIN).length = start + BEGIN.length := by
      rw [List.length_append, hpre]
    calc document.take (start + BEGIN.length)
        = (document.take start ++ BEGIN ++ rest).take (start + BEGIN.length) := by
          rw [List.append_assoc, hrest, List.take_append_drop]
      _ = (document.take start ++ BEGIN ++ (after ++ tail)).take (start + BEGIN.length) := by
          rw [List.take_left' hlength, List.take_left' hlength]
      _ = _ := by rw [← hafter, List.append_assoc, List.append_assoc, List.append_assoc]
  apply markers_iff.mpr
  constructor
  · apply find_congr hbegin hagree
    rw [List.length_append, List.length_append, hpre]
    omega
  constructor
  · have hinner := @find_inner _ _ _ (document.take start) block tail _ hb.closes (by
      intro j hj hearlier
      rw [hpre] at hj
      -- an occurrence before the block ends before the opening marker does
      have hshort := end_le_begin
      exact hlast j (hj.trans_le hle) ((occurs_congr hagree (by omega)).mpr hearlier))
    rw [hpre] at hinner
    exact hinner
  · exact Nat.le_add_right _ _

/-- What is put into a document is read back out of it. -/
theorem extract_splice {spliced : List Char} (h : splice document block = .ok spliced) (hb : Framed block) :
    extract spliced = .ok block := by
  rw [splice] at h
  cases hm : markers document with
  | error err =>
    rw [hm] at h
    cases h
  | ok places =>
    obtain ⟨start, stop⟩ := places
    rw [hm] at h
    cases h
    have hstart := (find_iff.mp (markers_iff.mp hm).1).1
    have hpre : (document.take start).length = start := List.length_take_of_le hstart
    have hfits : END.length ≤ block.length := by
      obtain ⟨after, rfl⟩ := hb.opens
      rw [List.length_append]
      exact end_le_begin.trans (Nat.le_add_right _ _)
    have hlength : start + (block.length - END.length) + END.length = (document.take start ++ block).length := by
      rw [List.length_append, hpre]
      omega
    rw [extract, markers_splice hm hb]
    change Except.ok _ = Except.ok _
    rw [hlength, List.take_left, List.drop_left' hpre]

end

/-- A text in which no marker starts. -/
def Plain (text : List Char) : Prop := '<' ∉ text

instance (text : List Char) : Decidable (Plain text) := inferInstanceAs (Decidable (¬_))

theorem plain_append {s t : List Char} : Plain (s ++ t) ↔ Plain s ∧ Plain t := by
  rw [Plain, List.mem_append, not_or]
  rfl

theorem plain_cons {c : Char} {t : List Char} : Plain (c :: t) ↔ '<' ≠ c ∧ Plain t := by
  rw [Plain, List.mem_cons, not_or]
  rfl

theorem plain_literal {l : List Char} (h : '<' ∉ l) : Plain (String.ofList l).toList := by
  rw [String.toList_ofList]
  exact h

theorem plain_flatMap {α : Type} {f : α → List Char} {l : List α} (h : ∀ a ∈ l, Plain (f a)) :
    Plain (l.flatMap f) := by
  intro hmem
  obtain ⟨a, ha, hc⟩ := List.mem_flatMap.mp hmem
  exact h a ha hc

theorem plain_row {cells : List (List Char)} : Plain (row cells) ↔ ∀ c ∈ cells, Plain c := by
  have hbar : Plain " | ".toList := plain_literal (by decide)
  have hopen : Plain "| ".toList := plain_literal (by decide)
  have hclose : Plain " |\n".toList := plain_literal (by decide)
  have hcells : Plain (" | ".toList.intercalate cells) ↔ ∀ c ∈ cells, Plain c := by
    induction cells with
    | nil => exact iff_of_true List.not_mem_nil (List.forall_mem_nil _)
    | cons c cells ih =>
      cases cells with
      | nil => rw [List.intercalate_singleton, List.forall_mem_singleton]
      | cons d cells =>
        rw [List.intercalate_cons_cons, plain_append, plain_append, ih, @List.forall_mem_cons _ _ c]
        simp only [hbar, and_true]
  rw [row, plain_append, plain_append, hcells]
  simp only [hopen, hclose, true_and, and_true]

theorem plain_spaced {digits : List Char} (h : Plain digits) : Plain (spaced digits) := by
  apply plain_flatMap
  rintro ⟨c, idx⟩ hc
  have hdigit : '<' ≠ c := by
    rintro rfl
    exact h (List.fst_mem_of_mem_zipIdx hc)
  dsimp only
  split
  · exact plain_cons.mpr ⟨by decide, plain_cons.mpr ⟨hdigit, List.not_mem_nil⟩⟩
  · exact plain_cons.mpr ⟨hdigit, List.not_mem_nil⟩

theorem plain_group {digits : List Char} (h : Plain digits) : Plain (group digits) := by
  rw [group.eq_def]
  split
  · exact plain_cons.mpr ⟨by decide, plain_spaced (plain_cons.mp h).2⟩
  · exact plain_spaced h

theorem plain_numeral (n : Nat) : Plain (numeral n) := by
  intro h
  rw [numeral, Nat.toString_eq_repr, Nat.toList_repr] at h
  have hdigit := Nat.isDigit_of_mem_toDigits (by decide) (by decide) h
  cases hdigit

/-- Splitting makes no new characters. -/
theorem mem_splitOnP {p : Char → Bool} {c : Char} {text word : List Char} (hword : word ∈ text.splitOnP p)
    (hc : c ∈ word) : c ∈ text := by
  induction text generalizing word with
  | nil =>
    rw [List.splitOnP_nil, List.mem_singleton] at hword
    rw [hword] at hc
    exact hc
  | cons x text ih =>
    rw [List.splitOnP_cons_eq_if_modifyHead] at hword
    split at hword
    · rcases List.mem_cons.mp hword with rfl | hrest
      · cases hc
      · exact List.mem_cons_of_mem _ (ih hrest hc)
    · cases hparts : text.splitOnP p with
      | nil =>
        rw [hparts] at hword
        cases hword
      | cons head parts =>
        rw [hparts, List.modifyHead_cons] at hword
        rw [hparts] at ih
        rcases List.mem_cons.mp hword with rfl | hrest
        · rcases List.mem_cons.mp hc with rfl | hc
          · exact List.mem_cons_self
          · exact List.mem_cons_of_mem _ (ih List.mem_cons_self hc)
        · exact List.mem_cons_of_mem _ (ih (List.mem_cons_of_mem _ hrest) hc)

theorem plain_thousandsInt (n : Nat) : Plain (thousandsInt n) := plain_group (plain_numeral n)

theorem plain_wrap {text : List Char} (h : Plain text) (width : Nat) : Plain (wrap text width) := by
  have hwords : ∀ word ∈ splitWhitespace text, Plain word := by
    intro word hword hmem
    exact h (mem_splitOnP (List.mem_of_mem_filter hword) hmem)
  have hfold : ∀ (words : List (List Char)) (out : List Char) (column : Nat), (∀ word ∈ words, Plain word) →
      Plain out → Plain (wrapWords width (out, column) words) := by
    intro words
    induction words with
    | nil => exact fun _ _ _ hout => hout
    | cons word words ih =>
      intro out column hall hout
      obtain ⟨hword, hrest⟩ := List.forall_mem_cons.mp hall
      rw [wrapWords]
      split
      · exact ih _ _ hrest (plain_append.mpr ⟨hout, hword⟩)
      · split
        · exact ih _ _ hrest (plain_append.mpr ⟨hout, plain_cons.mpr ⟨by decide, hword⟩⟩)
        · exact ih _ _ hrest (plain_append.mpr ⟨hout, plain_cons.mpr ⟨by decide, hword⟩⟩)
  exact hfold _ _ _ hwords List.not_mem_nil

/-- Figures are printed without the character markers start with. -/
def Printing (digits : Decimal ℝ) : Prop := (∀ d x, Plain (digits.fixed d x)) ∧ ∀ x, Plain (digits.shown x)

/-- A record whose names and words have no marker in them. -/
structure Named (k : Kpis ℝ) : Prop where
  version : Plain k.run.engineVersion.toList
  site : Plain k.run.siteId.toList
  alarms : ∀ p ∈ k.alarms.raisedByAlarm, Plain p.1.toList

section

variable {digits : Decimal ℝ} {k : Kpis ℝ}

theorem plain_percent (hd : Printing digits) (x : ℝ) : Plain (percent digits x) :=
  plain_append.mpr ⟨hd.1 2 _, by decide⟩

theorem plain_thousands (hd : Printing digits) (x : ℝ) : Plain (thousands digits x) := by
  have htext := hd.1 1 x
  rw [thousands, plain_append, plain_cons]
  refine ⟨plain_group ?_, by decide, ?_⟩
  · exact fun hmem => htext ((List.takeWhile_sublist _).subset hmem)
  · split
    · next fraction hdrop =>
      intro hmem
      have hin : '<' ∈ (digits.fixed 1 x).dropWhile fun c => c ≠ '.' := by
        rw [hdrop]
        exact List.mem_cons_of_mem _ hmem
      exact htext ((List.dropWhile_sublist _).subset hin)
    · decide

theorem plain_extreme (hd : Printing digits) {infinite : String} (h : Plain infinite.toList) (x : Option ℝ) :
    Plain (extreme digits infinite x) := by
  cases x with
  | none => exact h
  | some x => exact hd.1 1 x

theorem plain_header (hn : Named k) : Plain (writeHeader k) := by
  rw [writeHeader, plain_append, plain_cons]
  refine ⟨⟨by decide, plain_wrap ?_ 76⟩, plain_literal (by decide)⟩
  simp only [String.toList_append, plain_append, plain_numeral, plain_thousandsInt, hn.version, hn.site,
    and_true]
  and_intros <;> exact plain_literal (by decide)

theorem plain_gates (hd : Printing digits) : Plain (writeGates digits k) := by
  unfold writeGates
  rw [plain_append, plain_append]
  refine ⟨⟨plain_literal (by decide), plain_flatMap fun gate hgate => ?_⟩, by decide⟩
  have hlabel : Plain gate.bound.label.toList := by
    cases gate.bound <;> exact plain_literal (by decide)
  have hverdict : ∀ inside : Bool, Plain (if inside then "inside" else "**outside**").toList := by
    intro inside
    cases inside <;> exact plain_literal (by decide)
  have htexts : Plain gate.name.toList ∧ Plain gate.source.toList := by
    simp only [GATES, List.mem_cons, List.not_mem_nil, or_false] at hgate
    rcases hgate with rfl | rfl
    · exact ⟨plain_literal (by decide), plain_literal (by decide)⟩
    · exact ⟨plain_literal (by decide), plain_literal (by decide)⟩
  simp only [plain_row, bandText, List.forall_mem_cons, List.not_mem_nil, IsEmpty.forall_iff, implies_true,
    plain_append, plain_percent hd, hlabel, hverdict, htexts, true_and, and_true]
  and_intros
  · exact plain_literal (by decide)
  · exact plain_literal (by decide)
  · decide

theorem plain_energy (hd : Printing digits) : Plain (writeEnergy digits k) := by
  have hprose : Plain
      ("Three definitions the figures above depend on. The round-trip ratio " ++
        "is uncorrected for the stored-energy endpoints, matching how the " ++
        "fleet figure it is gated against is computed; the row below it takes " ++
        "the house load back out of import arithmetically rather than by " ++
        "re-running the plant without it. Cycles count exported energy " ++
        "against nameplate energy, not against the smaller window the BMS " ++
        "keeps the plant inside. Container air is read every tick; the " ++
        "rack-level temperatures below are sampled once a minute, which is " ++
        "far inside their thermal time constant.").toList := by
    simp only [String.toList_append, plain_append]
    and_intros <;> exact plain_literal (by decide)
  unfold writeEnergy
  simp only [plain_row, List.forall_mem_cons, List.not_mem_nil, IsEmpty.forall_iff, implies_true,
    plain_append, plain_percent hd, plain_thousands hd, hd.1, hd.2, plain_wrap hprose, true_and, and_true]
  and_intros <;> first | exact plain_literal (by decide) | decide

theorem plain_waterfall (hd : Printing digits) : Plain (writeWaterfall digits k) := by
  have hlosses : Plain ((waterfall k.losses).flatMap fun (name, value) =>
      row [name.toList, thousands digits value, percent digits (value / max k.energy.importMwh 1.0e-9)]) := by
    apply plain_flatMap
    rintro ⟨name, value⟩ hloss
    have hname : Plain name.toList := by
      simp only [waterfall, List.mem_cons, Prod.mk.injEq, List.not_mem_nil, or_false] at hloss
      rcases hloss with ⟨rfl, -⟩ | ⟨rfl, -⟩ | ⟨rfl, -⟩ | ⟨rfl, -⟩ | ⟨rfl, -⟩ | ⟨rfl, -⟩ | ⟨rfl, -⟩ | ⟨rfl, -⟩
      all_goals exact plain_literal (by decide)
    simp only [plain_row, List.forall_mem_cons, List.not_mem_nil, IsEmpty.forall_iff, implies_true,
      plain_percent hd, plain_thousands hd, hname, and_true]
  unfold writeWaterfall
  simp only [plain_row, List.forall_mem_cons, List.not_mem_nil, IsEmpty.forall_iff, implies_true,
    plain_append, plain_percent hd, plain_thousands hd, hlosses, and_true]
  and_intros <;> first | exact plain_literal (by decide) | decide

theorem plain_thermal (hd : Printing digits) : Plain (writeThermal digits k) := by
  have hinf : ∀ x, Plain (extreme digits "inf" x) := plain_extreme hd (plain_literal (by decide))
  have hneg : ∀ x, Plain (extreme digits "-inf" x) := plain_extreme hd (plain_literal (by decide))
  unfold writeThermal
  simp only [plain_row, List.forall_mem_cons, List.not_mem_nil, IsEmpty.forall_iff, implies_true,
    plain_append, plain_percent hd, plain_thousands hd, hinf, hneg, true_and, and_true]
  and_intros <;> first | exact plain_literal (by decide) | decide

theorem plain_alarms (hn : Named k) : Plain (writeAlarms k) := by
  unfold writeAlarms
  simp only [plain_append, plain_thousandsInt, and_true]
  and_intros
  · exact plain_literal (by decide)
  · exact plain_literal (by decide)
  · exact plain_literal (by decide)
  · split
    · exact List.not_mem_nil
    · rw [plain_append, plain_append]
      refine ⟨⟨plain_literal (by decide), plain_flatMap ?_⟩, by decide⟩
      rintro ⟨name, count⟩ hcount
      simp only [plain_row, List.forall_mem_cons, List.not_mem_nil, IsEmpty.forall_iff, implies_true,
        plain_append, hn.alarms _ hcount, plain_thousandsInt, and_true]
      exact ⟨plain_literal (by decide), plain_literal (by decide)⟩

theorem plain_periods : Plain (writePeriods k) := by
  unfold writePeriods
  simp only [plain_append, plain_numeral, plain_thousandsInt, and_true]
  and_intros <;> exact plain_literal (by decide)

/-- In a plain text no marker starts, whatever follows it. -/
theorem no_marker {marker before : List Char} (hopen : marker = '<' :: marker.tail) (h : Plain before)
    (rest : List Char) {j : Nat} (hj : j < before.length) : ¬marker <+: (before ++ rest).drop j := by
  rintro ⟨after, hafter⟩
  rw [List.drop_append_of_le_length hj.le, hopen, List.cons_append, List.drop_eq_getElem_cons hj,
    List.cons_append] at hafter
  exact h ((List.cons.inj hafter).1 ▸ List.getElem_mem hj)

/-- A plain text between the markers is framed by them. -/
theorem framed_plain {body : List Char} (h : Plain body) : Framed (BEGIN ++ body ++ END) := by
  have hbegin : BEGIN = '<' :: BEGIN.tail := by decide
  have htail : Plain BEGIN.tail := by decide
  have hmarker : END = '<' :: END.tail := by decide
  have hother : ¬END <+: BEGIN := by decide
  constructor
  · rw [List.append_assoc]
    exact List.prefix_append _ _
  · rw [List.length_append, Nat.add_sub_cancel]
    apply find_iff.mpr
    constructor
    · exact (List.prefix_append _ _).length_le
    constructor
    · rw [List.drop_left]
    · intro j hj hearlier
      cases j with
      | zero =>
        rw [List.drop_zero, List.append_assoc] at hearlier
        exact hother (List.prefix_of_prefix_length_le hearlier (List.prefix_append _ _) end_le_begin)
      | succ j =>
        -- past the first character there is none a marker could start with
        rw [hbegin, List.cons_append, List.length_cons, Nat.succ_lt_succ_iff] at hj
        rw [hbegin, List.cons_append, List.cons_append, List.drop_succ_cons] at hearlier
        exact no_marker hmarker (plain_append.mpr ⟨htail, h⟩) END hj hearlier

/-- The markers of a document that is plain up to its block. -/
theorem markers_plain {before body : List Char} (hb : Plain before) (h : Plain body) (after : List Char) :
    markers (before ++ (BEGIN ++ body ++ END) ++ after) =
      .ok (before.length, before.length + (BEGIN ++ body).length) := by
  have hframed := framed_plain h
  have hopens : find BEGIN (BEGIN ++ body ++ END) = some 0 :=
    find_iff.mpr ⟨Nat.zero_le _, hframed.opens, fun j hj => absurd hj (Nat.not_lt_zero j)⟩
  have hcloses := hframed.closes
  rw [List.length_append, Nat.add_sub_cancel] at hcloses
  have hnone : ∀ {marker : List Char}, marker = '<' :: marker.tail → ∀ j < before.length,
      ¬marker <+: (before ++ (BEGIN ++ body ++ END) ++ after).drop j := by
    intro marker hopen j hj
    rw [List.append_assoc]
    exact no_marker hopen hb _ hj
  apply markers_iff.mpr
  exact ⟨find_inner hopens (hnone (by decide)), find_inner hcloses (hnone (by decide)), Nat.le_add_right _ _⟩

/-- A rendered block is framed by its markers. -/
theorem framed_render (hd : Printing digits) (hn : Named k) : Framed (render digits k) := by
  apply framed_plain
  apply plain_cons.mpr
  simp only [plain_append, plain_header hn, plain_gates hd, plain_energy hd, plain_waterfall hd,
    plain_thermal hd, plain_alarms hn, plain_periods, and_true]
  decide

end

theorem near_refl (x : Option ℝ) : Near x x := by
  cases x with
  | none => trivial
  | some x =>
    rw [Near, sub_self, abs_zero]
    positivity

theorem current_refl (k : Kpis ℝ) : Current k k where
  run := rfl
  alarms := rfl
  periods := rfl
  energy := List.forall₂_same.mpr fun x _ => near_refl x
  losses := List.forall₂_same.mpr fun x _ => near_refl x
  thermal := List.forall₂_same.mpr fun x _ => near_refl x
  hvac := List.forall₂_same.mpr fun x _ => near_refl x

section

variable {codec : Codec ℝ} {digits : Decimal ℝ} {paths : Paths} {files : Files} {k : Kpis ℝ}
  {series : StudySeries ℝ}

theorem readRecord_written (hrecord : files paths.record = some (codec.toJson k))
    (hk : codec.fromJson (codec.toJson k) = .ok k) : readRecord codec paths files = .ok k := by
  rw [readRecord, readFile, hrecord]
  change within paths.record (codec.fromJson (codec.toJson k)) = _
  rw [hk]
  rfl

/-- The document after the record was written: the one before with its block replaced, if it has one. -/
theorem renderDocument_written (hrecord : files paths.record = some (codec.toJson k))
    (hk : codec.fromJson (codec.toJson k) = .ok k) (files' : Files) :
    renderDocument codec digits paths files = .ok files' ↔
      ∃ document start stop, files paths.calibration = some document ∧
        markers document = .ok (start, stop) ∧
        files' = writeFile files paths.calibration
          (document.take start ++ render digits k ++ document.drop (stop + END.length)) := by
  rw [renderDocument, readRecord_written hrecord hk, readFile]
  cases files paths.calibration with
  | none => simp [bind, Except.bind]
  | some document =>
    cases hm : markers document with
    | error err => simp [splice, hm, within, bind, Except.bind]
    | ok places =>
      obtain ⟨start, stop⟩ := places
      simp [splice, hm, within, bind, Except.bind, pure, Except.pure, eq_comm]

/-- The three files a publication leaves. -/
structure Left (codec : Codec ℝ) (digits : Decimal ℝ) (paths : Paths) (files files' : Files) (k : Kpis ℝ)
    (series : StudySeries ℝ) : Prop where
  record : files' paths.record = some (codec.toJson k)
  series : files' paths.series = some (codec.seriesToJson series)
  document : ∃ document start stop, files paths.calibration = some document ∧
    markers document = .ok (start, stop) ∧
    files' paths.calibration =
      some (document.take start ++ render digits k ++ document.drop (stop + END.length))

theorem writePublished_iff (hpaths : [paths.record, paths.series, paths.calibration].Nodup)
    (hk : codec.fromJson (codec.toJson k) = .ok k) :
    ((writePublished codec digits paths files k series).2 = .ok () ↔
      ∃ document start stop, files paths.calibration = some document ∧
        markers document = .ok (start, stop)) ∧
    ((writePublished codec digits paths files k series).2 = .ok () →
      Left codec digits paths files (writePublished codec digits paths files k series).1 k series) := by
  simp only [List.nodup_cons, List.mem_cons, List.not_mem_nil, or_false, not_or, not_false_eq_true,
    List.nodup_nil, and_true] at hpaths
  obtain ⟨⟨hseries, hcalibration⟩, hdocument⟩ := hpaths
  obtain ⟨written, hwritten⟩ : ∃ written, written =
      writeFile (writeFile files paths.record (codec.toJson k)) paths.series (codec.seriesToJson series) :=
    ⟨_, rfl⟩
  have hrecord : written paths.record = some (codec.toJson k) := by
    rw [hwritten, writeFile, writeFile, Function.update_of_ne hseries, Function.update_self]
  have htrace : written paths.series = some (codec.seriesToJson series) := by
    rw [hwritten, writeFile, Function.update_self]
  have hkept : written paths.calibration = files paths.calibration := by
    rw [hwritten, writeFile, writeFile, Function.update_of_ne (Ne.symm hdocument),
      Function.update_of_ne (Ne.symm hcalibration)]
  have hrendered := @renderDocument_written codec digits paths written k hrecord hk
  rw [hkept] at hrendered
  simp only [writePublished, ← hwritten]
  cases hresult : renderDocument codec digits paths written with
  | error err =>
    constructor
    · simp only [reduceCtorEq, false_iff]
      rintro ⟨document, start, stop, hread, hmarkers⟩
      have hok := (hrendered _).mpr ⟨document, start, stop, hread, hmarkers, rfl⟩
      rw [hresult] at hok
      cases hok
    · intro h
      cases h
  | ok files' =>
    obtain ⟨document, start, stop, hread, hmarkers, hfiles⟩ := (hrendered files').mp hresult
    constructor
    · simp only [true_iff]
      exact ⟨document, start, stop, hread, hmarkers⟩
    · intro _
      constructor
      · change files' paths.record = _
        rw [hfiles, writeFile, Function.update_of_ne hcalibration, hrecord]
      · change files' paths.series = _
        rw [hfiles, writeFile, Function.update_of_ne hdocument, htrace]
      · refine ⟨document, start, stop, hread, hmarkers, ?_⟩
        change files' paths.calibration = _
        rw [hfiles, writeFile, Function.update_self]

/-- The check reads back what was published. -/
theorem check_left {files' : Files} (h : Left codec digits paths files files' k series)
    (hd : Printing digits) (hn : Named k) (hk : codec.fromJson (codec.toJson k) = .ok k)
    (hs : codec.seriesFromJson (codec.seriesToJson series) = .ok series) :
    checkDocs codec digits paths files' = .ok () ∧
    ∀ k', check codec digits paths files' k' = (checkGates k').map .gate ++
      (if series.run ≠ k'.run then [.otherRun paths.series] else []) ++
      (if (drift k' k).isEmpty then [] else [.stale paths.record (drift k' k)]) := by
  have hrecord := readRecord_written h.record hk
  obtain ⟨document, start, stop, -, hmarkers, hdocument⟩ := h.document
  have hspliced : splice document (render digits k) =
      .ok (document.take start ++ render digits k ++ document.drop (stop + END.length)) := by
    rw [splice, hmarkers]
    rfl
  have hblock := extract_splice hspliced (framed_render hd hn)
  have hdocs : checkDocs codec digits paths files' = .ok () := by
    obtain ⟨block, hrender⟩ : ∃ block, render digits k = block := ⟨_, rfl⟩
    rw [hrender] at hblock hdocument
    rw [checkDocs, hrecord, readFile, hdocument]
    simp only [bind, Except.bind, hblock, within, hrender, if_true]
  constructor
  · exact hdocs
  · intro k'
    have hseries : (readFile files' paths.series >>= codec.seriesFromJson) = .ok series := by
      rw [readFile, h.series]
      exact hs
    rw [check, hrecord, hdocs, hseries, List.append_nil]

end

/-- A figure to so many decimals, a tie to the even digit. -/
noncomputable def fixedReal (d : Nat) (x : ℝ) : List Char :=
  let scaled := |x| * 10.0 ^ d
  let part := scaled - ⌊scaled⌋
  let n := (if part < 0.5 ∨ part = 0.5 ∧ ⌊scaled⌋ % 2 = 0 then ⌊scaled⌋ else ⌊scaled⌋ + 1).toNat
  let fraction := numeral (n % 10 ^ d)
  (if x < 0 then ['-'] else []) ++ numeral (n / 10 ^ d) ++
    if d = 0 then [] else '.' :: (List.replicate (d - fraction.length) '0' ++ fraction)

/-- The one figure printed in full is the bound of the residual. -/
noncomputable def printed : Decimal ℝ := ⟨fixedReal, fun _ => "0.2".toList⟩

theorem printing_printed : Printing printed := by
  constructor
  · intro d x
    have hzeros : ∀ n : Nat, Plain (List.replicate n '0') := by
      intro n hmem
      exact absurd (List.eq_of_mem_replicate hmem) (by decide)
    change Plain (fixedReal d x)
    simp only [fixedReal, plain_append, plain_numeral, and_true]
    constructor
    · split <;> decide
    · split
      · decide
      · simp only [plain_cons, plain_append, hzeros, plain_numeral, and_true]
        decide
  · intro x
    exact plain_literal (by decide)

/-- The run of the committed record. -/
def annualRun : RunRecord := ⟨"GW-01", "0.6.1", 7, 1767225600, 365, 31536000⟩

/-- The committed record. -/
noncomputable def annualRecord : Kpis ℝ where
  run := annualRun
  energy := ⟨66484.8, 55622.2, 0.8366, 0.8599, 277.2, 93.8, 0.02712, 0.03242, 6.7e-6⟩
  losses := ⟨4562.7, 2812.4, 1591.3, 1235.1, 301.9, 47.1, 131.4, 87.6⟩
  thermal := ⟨some (-12.1), some 33.3, some 10.0, some 29.0, some 8.7, some 38.1⟩
  hvac := ⟨0.15657, 0.00446, 0.00261, 4847.9⟩
  alarms := ⟨0, 40449, [("block.setpoint_not_met", 15300), ("rack.derate_active", 24384),
    ("site.power_limited", 765)], by decide⟩
  periods := ⟨35040, 92, 100⟩

/-- The first month and the first sample of the committed series. -/
noncomputable def annualSeries : StudySeries ℝ where
  run := annualRun
  months := [⟨1, 31.0, 5809.1, 4832.6, 0.8319, 93.8, 0.8481, 105.0, 0.01807, 56.7, 1.0, 0.07631, 0.01333⟩]
  hotWeek := ⟨"The week around the warmest day of the replayed year, 29-08", 900,
    [⟨1787702400, 14.4, 0.0, some 24.0, some 24.0, 22.9, 25.9, 0, 0, 0, -0.17, 74.3⟩]⟩

def annualText : List Char :=
  ("\x7b\n  \"run\": \x7b\n    \"site_id\": \"GW-01\",\n" ++
    "    \"engine_version\": \"0.6.1\",\n    \"seed\": 7,\n" ++
    "    \"start_unix_s\": 1767225600,\n    \"days\": 365,\n    \"ticks\": 31536000\n" ++
    "  \x7d,\n  \"energy\": \x7b\n    \"import_mwh\": 66484.8,\n" ++
    "    \"export_mwh\": 55622.2,\n    \"round_trip_efficiency\": 0.8366,\n" ++
    "    \"round_trip_efficiency_excluding_aux\": 0.8599,\n" ++
    "    \"equivalent_full_cycles\": 277.2,\n    \"stored_delta_mwh\": 93.8,\n" ++
    "    \"aux_share_of_import\": 0.02712,\n    \"aux_share_of_export\": 0.03242,\n" ++
    "    \"balance_residual_share\": 6.7e-6\n  \x7d,\n  \"losses\": \x7b\n" ++
    "    \"battery_mwh\": 4562.7,\n    \"pcs_mwh\": 2812.4,\n" ++
    "    \"transformer_mwh\": 1591.3,\n    \"aux_hvac_mwh\": 1235.1,\n" ++
    "    \"aux_bms_mwh\": 301.9,\n    \"aux_pcs_standby_mwh\": 47.1,\n" ++
    "    \"aux_controls_mwh\": 131.4,\n    \"aux_lighting_and_safety_mwh\": 87.6\n" ++
    "  \x7d,\n  \"thermal\": \x7b\n    \"ambient_min_c\": -12.1,\n" ++
    "    \"ambient_max_c\": 33.3,\n    \"container_air_min_c\": 10.0,\n" ++
    "    \"container_air_max_c\": 29.0,\n    \"cell_min_c\": 8.7,\n" ++
    "    \"cell_max_c\": 38.1\n  \x7d,\n  \"hvac\": \x7b\n    \"stage1_duty\": 0.15657,\n" ++
    "    \"stage2_duty\": 0.00446,\n    \"heat_duty\": 0.00261,\n" ++
    "    \"compressor_starts_per_container\": 4847.9\n  \x7d,\n  \"alarms\": \x7b\n" ++
    "    \"trips_raised\": 0,\n    \"warnings_raised\": 40449,\n" ++
    "    \"raised_by_alarm\": \x7b\n      \"block.setpoint_not_met\": 15300,\n" ++
    "      \"rack.derate_active\": 24384,\n      \"site.power_limited\": 765\n    \x7d\n" ++
    "  \x7d,\n  \"periods\": \x7b\n    \"closed\": 35040,\n" ++
    "    \"on_short_dst_day\": 92,\n    \"on_long_dst_day\": 100\n  \x7d\n\x7d\n").toList

def annualSeriesText : List Char :=
  ("\x7b\n  \"run\": \x7b\n    \"site_id\": \"GW-01\",\n" ++
    "    \"engine_version\": \"0.6.1\",\n    \"seed\": 7,\n" ++
    "    \"start_unix_s\": 1767225600,\n    \"days\": 365,\n    \"ticks\": 31536000\n" ++
    "  \x7d,\n  \"months\": [\n    \x7b\n      \"month\": 1,\n      \"days\": 31.0,\n" ++
    "      \"import_mwh\": 5809.1,\n      \"export_mwh\": 4832.6,\n" ++
    "      \"round_trip_efficiency\": 0.8319,\n      \"stored_delta_mwh\": 93.8,\n" ++
    "      \"round_trip_efficiency_endpoint_corrected\": 0.8481,\n" ++
    "      \"aux_mwh\": 105.0,\n      \"aux_share_of_import\": 0.01807,\n" ++
    "      \"hvac_mwh\": 56.7,\n      \"ambient_mean_c\": 1.0,\n" ++
    "      \"cooling_duty\": 0.07631,\n      \"heating_duty\": 0.01333\n    \x7d\n  ],\n" ++
    "  \"hot_week\": \x7b\n" ++
    "    \"label\": \"The week around the warmest day of the replayed year, 29-08\",\n" ++
    "    \"interval_s\": 900,\n    \"samples\": [\n      \x7b\n" ++
    "        \"unix_s\": 1787702400,\n        \"ambient_c\": 14.4,\n" ++
    "        \"irradiance_wm2\": 0.0,\n        \"air_min_c\": 24.0,\n" ++
    "        \"air_max_c\": 24.0,\n        \"cell_min_c\": 22.9,\n" ++
    "        \"cell_max_c\": 25.9,\n        \"cooling_1\": 0,\n" ++
    "        \"cooling_2\": 0,\n        \"heating\": 0,\n        \"poi_mw\": -0.17,\n" ++
    "        \"aux_kw\": 74.3\n      \x7d\n    ]\n  \x7d\n\x7d\n").toList

/-- Reads and writes those two. -/
noncomputable def annualCodec : Codec ℝ where
  toJson _ := annualText
  fromJson text := if text = annualText then .ok annualRecord else .error "cannot read the calibration record"
  seriesToJson _ := annualSeriesText
  seriesFromJson text :=
    if text = annualSeriesText then .ok annualSeries else .error "cannot read the study series"

/-- What is written by hand, above the block and below it. -/
def above : List Char := "# Calibration record\n\n## M1: the annual run\n\n".toList

def below : List Char := "\n\n- **Known gaps:** none.\n".toList

def document : Files :=
  Function.update (fun _ => none) Paths.default.calibration
    (some (above ++ (BEGIN ++ "\nstale\n".toList ++ END) ++ below))

/-- Publishing succeeds exactly if the document has its two markers in order; the document is then
the one before with its block replaced, the document check passes, a check of the published run
fails on the gates it misses alone, and a check of any run passes exactly if that run meets the
gates and bears the published record out. -/
theorem published_checks (codec : Codec ℝ) (digits : Decimal ℝ) (paths : Paths) (files : Files)
    (k : Kpis ℝ) (series : StudySeries ℝ)
    (hpaths : [paths.record, paths.series, paths.calibration].Nodup)
    (hk : codec.fromJson (codec.toJson k) = .ok k)
    (hs : codec.seriesFromJson (codec.seriesToJson series) = .ok series)
    (hrun : series.run = k.run) (hd : Printing digits) (hn : Named k) :
    let published := writePublished codec digits paths files k series
    (published.2 = .ok () ↔ ∃ document start stop, files paths.calibration = some document ∧
      markers document = .ok (start, stop)) ∧
    (published.2 = .ok () →
      (∃ document start stop, files paths.calibration = some document ∧
        markers document = .ok (start, stop) ∧
        published.1 paths.calibration =
          some (document.take start ++ render digits k ++ document.drop (stop + END.length))) ∧
      checkDocs codec digits paths published.1 = .ok () ∧
      check codec digits paths published.1 k = (checkGates k).map .gate ∧
      ∀ k', check codec digits paths published.1 k' = [] ↔ checkGates k' = [] ∧ Current k' k) := by
  intro published
  obtain ⟨hsuccess, hleft⟩ := @writePublished_iff codec digits paths files k series hpaths hk
  refine ⟨hsuccess, fun hok => ?_⟩
  have hfiles := hleft hok
  obtain ⟨hdocs, hcheck⟩ := check_left hfiles hd hn hk hs
  have hcurrent : ∀ k', drift k' k = [] ↔ Current k' k := by
    intro k'
    rw [← agree_records, drift_empty]
  refine ⟨hfiles.document, hdocs, ?_, fun k' => ?_⟩
  · rw [hcheck k, hrun, (hcurrent k).mpr (current_refl k)]
    simp
  · rw [hcheck k', ← hcurrent k', hrun]
    by_cases hsame : k.run = k'.run
    · simp [hsame]
    · have hstale : drift k' k ≠ [] := by
        intro hempty
        exact hsame ((hcurrent k').mp hempty).run.symm
      simp [hsame, hstale]

theorem annual_gates : checkGates annualRecord = [] := by
  norm_num [checkGates, GATES, Band.contains, ANNUAL_RTE, AUX_SHARE_OF_IMPORT, BALANCE_RESIDUAL_MAX,
    PERIODS_IN_THE_RUN, PERIODS_ON_SHORT_DST_DAY, PERIODS_ON_LONG_DST_DAY, annualRecord]

theorem annual_named : Named annualRecord := by
  refine ⟨plain_literal (by decide), plain_literal (by decide), ?_⟩
  simp only [annualRecord, List.forall_mem_cons, List.not_mem_nil, IsEmpty.forall_iff, implies_true, and_true]
  exact ⟨plain_literal (by decide), plain_literal (by decide), plain_literal (by decide)⟩

/-- The committed record is published between what is written by hand, and passes. -/
theorem published_checks_annual :
    let published := writePublished annualCodec printed .default document annualRecord annualSeries
    published.2 = .ok () ∧
      published.1 Paths.default.calibration = some (above ++ render printed annualRecord ++ below) ∧
        check annualCodec printed .default published.1 annualRecord = [] := by
  intro published
  subst published
  have hreads : annualCodec.fromJson (annualCodec.toJson annualRecord) = .ok annualRecord := by
    simp only [annualCodec, if_true]
  have htraces : annualCodec.seriesFromJson (annualCodec.seriesToJson annualSeries) = .ok annualSeries := by
    simp only [annualCodec, if_true]
  obtain ⟨hsuccess, hchecks⟩ := published_checks annualCodec printed .default document annualRecord
    annualSeries (by decide) hreads htraces rfl printing_printed annual_named
  have hmarkers := @markers_plain above "\nstale\n".toList (plain_literal (by decide))
    (plain_literal (by decide)) below
  have hdocument : document Paths.default.calibration =
      some (above ++ (BEGIN ++ "\nstale\n".toList ++ END) ++ below) := by
    rw [document, Function.update_self]
  have hok := hsuccess.mpr ⟨_, _, _, hdocument, hmarkers⟩
  obtain ⟨⟨text, start, stop, htext, hplaces, hwritten⟩, -, hcheck, -⟩ := hchecks hok
  refine ⟨hok, ?_, hcheck.trans ?_⟩
  · obtain rfl : _ = text := Option.some_inj.mp (hdocument.symm.trans htext)
    rw [hmarkers] at hplaces
    cases hplaces
    have hend : above.length + (BEGIN ++ "\nstale\n".toList).length + END.length =
        (above ++ (BEGIN ++ "\nstale\n".toList ++ END)).length := by
      simp only [List.length_append]
      omega
    rw [hend, List.drop_left, List.append_assoc above, List.take_left] at hwritten
    exact hwritten
  · rw [annual_gates]
    rfl

end BessPublished
