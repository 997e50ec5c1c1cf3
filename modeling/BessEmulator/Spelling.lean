import BessEmulator.Accepted

/-!
# One spelling a node

A path parses to a node exactly when it is the one spelling of it and the
plant has it: each part is a name or a name with a printed index, and nothing
follows the last.
-/
namespace BessSpelling

open Bess BessAccepted

variable {F : Type}

/-- `name[n]`, the index as it is printed. -/
def label (name : String) (n : Nat) : List Char :=
  name.toList ++ '[' :: (Nat.toDigits 10 n ++ [']'])

/-- The parts of a node's path. -/
def parts : Target → List (List Char)
  | .site => ["site".toList]
  | .block b => [label "block" b]
  | .pcs b => [label "block" b, "pcs".toList]
  | .hvac b c => [label "block" b, label "container" c, "hvac".toList]
  | .rack b c r => [label "block" b, label "container" c, label "rack" r]

theorem plain_iff (ds : List Char) :
    (!ds.isEmpty && ds.all Char.isDigit && (ds = ['0'] || ds.head? ≠ some '0')) = true ↔
      U64.Plain ds := by
  simp only [Bool.and_eq_true, Bool.not_eq_true', List.isEmpty_eq_false_iff, List.all_eq_true,
    Bool.or_eq_true, decide_eq_true_eq]
  constructor
  · rintro ⟨⟨hne, hdigits⟩, hleading⟩
    exact ⟨hne, hdigits, hleading⟩
  · rintro ⟨hne, hdigits, hleading⟩
    exact ⟨⟨hne, hdigits⟩, hleading⟩

/-- A part is read as an index exactly when it is spelled with it. -/
theorem indexed_iff (part : List Char) (name : String) (n : Nat) :
    indexed part name = some (.ok n) ↔ part = label name n ∧ n < U64.SIZE := by
  constructor
  · intro h
    rw [indexed] at h
    split at h
    · cases h
    · rename_i inner hinner
      obtain ⟨rest, hrest, hbracket⟩ := Option.bind_eq_some_iff.mp hinner
      have hpart : part = name.toList ++ '[' :: inner := by
        rw [← List.isPrefixOf?_eq_some_iff_append_eq.mp hrest,
          ← List.isPrefixOf?_eq_some_iff_append_eq.mp hbracket]
        rfl
      split at h
      · rename_i hlast
        obtain ⟨digits, rfl⟩ := List.getLast?_eq_some_iff.mp hlast
        simp only [List.dropLast_concat, Option.some.injEq] at h
        split at h
        · rename_i hplain
          split at h
          · rename_i m hm
            cases h
            obtain ⟨hdigits, hlt⟩ := (U64.ofDigits_plain ((plain_iff digits).mp hplain)).mp hm
            rw [hpart, label, hdigits]
            exact ⟨rfl, hlt⟩
          · cases h
        · cases h
      · cases h
  · rintro ⟨rfl, hlt⟩
    have hplain := U64.plain_toDigits n
    have hdigits := (U64.ofDigits_plain hplain).mpr ⟨rfl, hlt⟩
    have hprefix : (name.toList.isPrefixOf? (label name n)).bind
        (fun rest => ['['].isPrefixOf? rest) = some (Nat.toDigits 10 n ++ [']']) := by
      rw [label, List.isPrefixOf?_eq_some_iff_append_eq.mpr rfl, Option.bind_some]
      exact List.isPrefixOf?_eq_some_iff_append_eq.mpr rfl
    rw [indexed, hprefix]
    simp only [List.getLast?_append, List.getLast?_singleton, Option.some_or, if_true,
      List.dropLast_concat]
    rw [if_pos ((plain_iff _).mpr hplain), hdigits]

theorem getLast?_label (name : String) (n : Nat) : (label name n).getLast? = some ']' := by
  have hconcat : label name n = (name.toList ++ '[' :: Nat.toDigits 10 n) ++ [']'] := by
    rw [label, List.append_assoc, List.cons_append]
  rw [hconcat, List.getLast?_concat]

theorem ne_label {name : String} {word : List Char} (h : word.getLast? ≠ some ']') (n : Nat) :
    word ≠ label name n := by
  rintro rfl
  exact h (getLast?_label name n)

theorem dot_notMem_label (name : String) (h : '.' ∉ name.toList) (n : Nat) :
    '.' ∉ label name n := by
  have hdigits : '.' ∉ Nat.toDigits 10 n := fun hmem =>
    absurd (Nat.isDigit_of_mem_toDigits (by decide) (by decide) hmem) (by decide)
  simp [label, h, hdigits]

theorem display_toList (t : Target) : t.display.toList = ['.'].intercalate (parts t) := by
  have hself : ∀ s : String, toString s = s := fun _ => rfl
  cases t <;> simp [Target.display, parts, label, List.intercalate, Nat.toString_eq_repr, hself]

theorem dot_notMem_parts (t : Target) : ∀ part ∈ parts t, '.' ∉ part := by
  have hblock := dot_notMem_label "block" (by decide)
  have hcontainer := dot_notMem_label "container" (by decide)
  have hrack := dot_notMem_label "rack" (by decide)
  cases t <;> simp [parts, hblock, hcontainer, hrack]

/-- A printed path splits into the parts it was printed from. -/
theorem split_display (t : Target) : t.display.toList.splitOn '.' = parts t := by
  rw [display_toList]
  refine List.splitOn_intercalate '.' (dot_notMem_parts t) ?_
  cases t <;> simp [parts]

/-- No two paths have the same parts. -/
theorem display_of_parts {path : String} {t : Target} (h : path.toList.splitOn '.' = parts t) :
    t.display = path := by
  apply String.toList_injective
  rw [display_toList, ← h, List.intercalate_splitOn]

/-- A container's unit is named by the third part, and nothing follows it. -/
theorem parseUnit_parts {ps : List (List Char)} {cfg : PlantConfig F} {b c : Nat} {t : Target}
    (h : Target.parseUnit ps cfg b c = .ok t) : ∃ third, ps[2]? = some third ∧ ps.length = 3 ∧
      ((third = "hvac".toList ∧ t = .hvac b c) ∨
        ∃ r, third = label "rack" r ∧ t = .rack b c r) := by
  dsimp only [Target.parseUnit] at h
  split at h
  · cases h
  · rename_i target htarget
    split at h
    · cases h
    · rename_i hlength
      cases h
      split at htarget
      · cases htarget
      · rename_i third hthird
        obtain ⟨hlt, -⟩ := List.getElem?_eq_some_iff.mp hthird
        refine ⟨third, hthird, by omega, ?_⟩
        split at htarget
        · rename_i hname
          cases htarget
          exact Or.inl ⟨hname, rfl⟩
        · split at htarget
          · rename_i r hindex
            split at htarget
            · cases htarget
              exact Or.inr ⟨r, ((indexed_iff third "rack" r).mp hindex).1, rfl⟩
            · cases htarget
          · cases htarget
          · cases htarget

theorem parseContainer_parts {ps : List (List Char)} {cfg : PlantConfig F} {b : Nat} {t : Target}
    (h : Target.parseContainer ps cfg b = .ok t) :
    (ps[1]? = none ∧ t = .block b) ∨
      (ps[1]? = some "pcs".toList ∧ ps.length = 2 ∧ t = .pcs b) ∨
        ∃ c, ps[1]? = some (label "container" c) ∧ Target.parseUnit ps cfg b c = .ok t := by
  dsimp only [Target.parseContainer] at h
  split at h
  · rename_i hnone
    cases h
    exact Or.inl ⟨hnone, rfl⟩
  · rename_i second hsecond
    split at h
    · rename_i hname
      split at h
      · rename_i hlength
        cases h
        exact Or.inr (Or.inl ⟨hname ▸ hsecond, hlength, rfl⟩)
      · cases h
    · split at h
      · rename_i c hindex
        split at h
        · obtain ⟨hlabel, -⟩ := (indexed_iff second "container" c).mp hindex
          exact Or.inr (Or.inr ⟨c, hlabel ▸ hsecond, h⟩)
        · cases h
      · cases h
      · cases h

/-- What parses is spelled part by part. -/
theorem parse_parts {path : String} {cfg : PlantConfig F} {t : Target}
    (h : Target.parse path cfg = .ok t) : path.toList.splitOn '.' = parts t := by
  dsimp only [Target.parse] at h
  generalize path.toList.splitOn '.' = ps at h ⊢
  split at h
  · rename_i hsite
    cases h
    exact hsite
  · split at h
    · rename_i b hindex
      split at h
      · obtain ⟨hlabel, -⟩ := (indexed_iff _ "block" b).mp hindex
        cases ps with
        | nil => exact absurd hlabel (ne_label (by decide) b)
        | cons first rest =>
          rw [List.headD_cons] at hlabel
          subst hlabel
          obtain ⟨hnone, rfl⟩ | ⟨hpcs, hlength, rfl⟩ | ⟨c, hcontainer, hunit⟩ :=
            parseContainer_parts h
          · cases rest with
            | nil => rfl
            | cons second rest => cases hnone
          · obtain ⟨second, rfl⟩ : ∃ second, rest = [second] :=
              List.length_eq_one_iff.mp (by simpa using hlength)
            cases hpcs
            rfl
          · obtain ⟨third, hthird, hlength, hname⟩ := parseUnit_parts hunit
            obtain ⟨second, third', rfl⟩ : ∃ second third', rest = [second, third'] :=
              List.length_eq_two.mp (by simpa using hlength)
            cases hcontainer
            cases hthird
            obtain ⟨rfl, rfl⟩ | ⟨r, rfl, rfl⟩ := hname
            · rfl
            · rfl
      · cases h
    · cases h
    · cases h

/-- The counts of a configuration: machine words, and none of them zero. -/
structure Counted (cfg : PlantConfig F) : Prop where
  blocks : 1 ≤ cfg.blocks ∧ cfg.blocks < U64.SIZE
  containers : 1 ≤ cfg.containersPerBlock ∧ cfg.containersPerBlock < U64.SIZE
  racks : 1 ≤ cfg.racksPerContainer ∧ cfg.racksPerContainer < U64.SIZE

section

variable {cfg : PlantConfig F} (hcfg : Counted cfg)

theorem indexed_label (name : String) {n m : Nat} (hn : n < m) (hm : m < U64.SIZE) :
    indexed (label name n) name = some (.ok n) :=
  (indexed_iff _ name n).mpr ⟨rfl, hn.trans hm⟩

include hcfg

theorem parse_block {path : String} {b : Nat} {rest : List (List Char)}
    (h : path.toList.splitOn '.' = label "block" b :: rest) (hb : b < cfg.blocks) :
    Target.parse path cfg = Target.parseContainer (label "block" b :: rest) cfg b := by
  have hsite : label "block" b :: rest ≠ ["site".toList] := fun heq =>
    ne_label (by decide) b (List.cons.inj heq).1.symm
  rw [Target.parse, h]
  simp only [hsite, if_false, List.headD_cons, indexed_label "block" hb hcfg.blocks.2]
  rw [if_pos hb]

theorem parseContainer_container {first : List Char} {b c : Nat} {rest : List (List Char)}
    (hc : c < cfg.containersPerBlock) :
    Target.parseContainer (first :: label "container" c :: rest) cfg b =
      Target.parseUnit (first :: label "container" c :: rest) cfg b c := by
  have hpcs : label "container" c ≠ "pcs".toList := (ne_label (by decide) c).symm
  rw [Target.parseContainer]
  simp only [List.getElem?_cons_succ, List.getElem?_cons_zero, hpcs, if_false,
    indexed_label "container" hc hcfg.containers.2]
  rw [if_pos hc]

theorem parseUnit_rack {first second : List Char} {b c r : Nat} (hr : r < cfg.racksPerContainer) :
    Target.parseUnit [first, second, label "rack" r] cfg b c = .ok (.rack b c r) := by
  have hhvac : label "rack" r ≠ "hvac".toList := (ne_label (by decide) r).symm
  rw [Target.parseUnit]
  simp only [List.getElem?_cons_succ, List.getElem?_cons_zero, hhvac, if_false,
    indexed_label "rack" hr hcfg.racks.2]
  rw [if_pos hr]
  rfl

/-- A node the plant has parses from its parts. -/
theorem parse_of_parts {path : String} {t : Target} (h : path.toList.splitOn '.' = parts t)
    (ht : t.Exists cfg) : Target.parse path cfg = .ok t := by
  cases t with
  | site =>
    rw [Target.parse, h]
    rfl
  | block b =>
    rw [parse_block hcfg h ht]
    rfl
  | pcs b =>
    rw [parse_block hcfg h ht]
    rfl
  | hvac b c =>
    rw [parse_block hcfg h ht.1, parseContainer_container hcfg ht.2]
    rfl
  | rack b c r =>
    rw [parse_block hcfg h ht.1, parseContainer_container hcfg ht.2.1, parseUnit_rack hcfg ht.2.2]

end

section

variable [Scalar F]

/-- Paths and nodes of a plant answer to each other, and a schedule shows the
paths its file wrote. -/
structure OneSpelling (cfg : PlantConfig F) : Prop where
  parses : ∀ t : Target, t.Exists cfg → Target.parse t.display cfg = .ok t
  displays : ∀ path t, Target.parse path cfg = .ok t → t.display = path
  lacks : ∀ path t, Target.parse path cfg = .ok t → t.Exists cfg
  resolved : ∀ spec path fault, physical spec path cfg = .ok fault →
    ∃ target action, fault = .physical target action ∧ Target.parse path cfg = .ok target ∧
      ∀ seed index, Target.of (draw action seed index) = target
  shown : ∀ file hash scenario params, validate file cfg hash = .ok scenario →
    ∀ s ∈ (scenario.resolve params).schedule, ∀ a, s.due = .physical a →
      ∃ spanned path, file.events[s.index]? = some spanned ∧ spanned.value.target = some path ∧
        Target.parse path cfg = .ok (Target.of a) ∧ (Target.of a).display = path

/-- A path reads as a target exactly if it is the target's one spelling. -/
theorem one_spelling {cfg : PlantConfig F} (hcfg : Counted cfg) : OneSpelling cfg where
  parses t ht := parse_of_parts hcfg (split_display t) ht
  displays _ _ h := display_of_parts (parse_parts h)
  lacks _ _ h := Target.parse_exists h
  resolved _ _ _ h := by
    obtain ⟨target, action, hfault, htarget, haction⟩ := physical_ok h
    exact ⟨target, action, hfault, htarget, pendingAction_of haction⟩
  shown file hash scenario params h s hs a ha := by
    obtain ⟨spanned, path, hspanned, hpath, hparse⟩ := accepted_parses h params s hs a ha
    exact ⟨spanned, path, hspanned, hpath, hparse, display_of_parts (parse_parts hparse)⟩

end

/-- The reference plant. -/
theorem one_spelling_gw01 :
    Counted (PlantConfig.gw01 : PlantConfig ℝ) ∧ OneSpelling (PlantConfig.gw01 : PlantConfig ℝ) := by
  have hcfg : Counted (PlantConfig.gw01 : PlantConfig ℝ) :=
    ⟨by decide, by decide, by decide⟩
  exact ⟨hcfg, one_spelling hcfg⟩

end BessSpelling
