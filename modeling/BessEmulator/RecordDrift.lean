import BessEmulator.Scalar

/-!
# The drift of a record

Two serialized records walked together, and one line for each place where they
differ: a figure that moved, a key the published record lacks, a key nothing
measures any more.
-/
namespace Bess

/-- A serialized value; the fields of an object are in the order of their keys. -/
inductive Json (F : Type) where
  | null
  | bool (b : Bool)
  | int (n : Int)
  | float (x : F)
  | string (s : String)
  | array (items : List (Json F))
  | object (fields : List (String × Json F))

/-- What a line says of its place. -/
inductive Change (F : Type) where
  | missing
  | unmeasured
  | moved (measured published : Json F)

/-- One line of the comparison. -/
structure Drift (F : Type) where
  path : String
  change : Change F

section

variable {F : Type} [Scalar F]

mutual

/-- Equality of values. -/
def Json.same : Json F → Json F → Bool
  | .null, .null => true
  | .bool a, .bool b => a == b
  | .int a, .int b => a == b
  | .float a, .float b => !decide (a < b) && !decide (b < a)
  | .string a, .string b => a == b
  | .array a, .array b => Json.sameItems a b
  | .object a, .object b => Json.sameFields a b
  | _, _ => false

def Json.sameItems : List (Json F) → List (Json F) → Bool
  | [], [] => true
  | a :: as, b :: bs => a.same b && Json.sameItems as bs
  | _, _ => false

def Json.sameFields : List (String × Json F) → List (String × Json F) → Bool
  | [], [] => true
  | (k, a) :: as, (l, b) :: bs => k == l && a.same b && Json.sameFields as bs
  | _, _ => false

end

/-- How far a published figure may sit from a fresh one, as a share of the larger. -/
def STALE_TOLERANCE : F := 1.0e-3

/-- The path of a key under a path. -/
def childPath (path key : String) : String := if path.isEmpty then key else path ++ "." ++ key

/-- The figures are too far apart. -/
def Stale (a b : F) : Prop :=
  STALE_TOLERANCE * max (max (Scalar.abs a) (Scalar.abs b)) 1.0e-3 < Scalar.abs (a - b)

instance (a b : F) : Decidable (Stale a b) := inferInstanceAs (Decidable (_ < _))

mutual

/-- Walk two serialized records together. -/
def compare (path : String) : Json F → Json F → List (Drift F)
  | .object a, .object b =>
    compareFields path a b ++
      (b.filter fun f => !a.any fun g => g.1 == f.1).map fun f => ⟨childPath path f.1, .unmeasured⟩
  | .float a, .float b => if Stale a b then [⟨path, .moved (.float a) (.float b)⟩] else []
  | a, b => if a.same b then [] else [⟨path, .moved a b⟩]

/-- The measured fields, each against the published one of its key. -/
def compareFields (path : String) : List (String × Json F) → List (String × Json F) → List (Drift F)
  | [], _ => []
  | (key, a) :: rest, published =>
    (match published.lookup key with
      | some b => compare (childPath path key) a b
      | none => [⟨childPath path key, .missing⟩]) ++ compareFields path rest published

end

end

end Bess

namespace BessDrift

open Bess

mutual

theorem same_iff : ∀ a b : Json ℝ, a.same b = true ↔ a = b
  | .null, b => by cases b <;> simp [Json.same]
  | .bool x, b => by cases b <;> simp [Json.same]
  | .int x, b => by cases b <;> simp [Json.same]
  | .float x, b => by
    cases b
    case float y =>
      rw [Json.same, Bool.and_eq_true, Bool.not_eq_true', decide_eq_false_iff_not, Bool.not_eq_true',
        decide_eq_false_iff_not, not_lt, not_lt, Json.float.injEq]
      constructor
      · rintro ⟨hle, hge⟩
        exact le_antisymm hge hle
      · rintro rfl
        exact ⟨le_refl x, le_refl x⟩
    all_goals simp [Json.same]
  | .string x, b => by cases b <;> simp [Json.same]
  | .array x, b => by
    cases b
    case array y => simp [Json.same, sameItems_iff x y]
    all_goals simp [Json.same]
  | .object x, b => by
    cases b
    case object y => simp [Json.same, sameFields_iff x y]
    all_goals simp [Json.same]

theorem sameItems_iff : ∀ as bs : List (Json ℝ), Json.sameItems as bs = true ↔ as = bs
  | [], bs => by cases bs <;> simp [Json.sameItems]
  | a :: as, [] => by simp [Json.sameItems]
  | a :: as, b :: bs => by simp [Json.sameItems, same_iff a b, sameItems_iff as bs]

theorem sameFields_iff : ∀ as bs : List (String × Json ℝ), Json.sameFields as bs = true ↔ as = bs
  | [], bs => by cases bs <;> simp [Json.sameFields]
  | (k, a) :: as, [] => by simp [Json.sameFields]
  | (k, a) :: as, (l, b) :: bs => by
    simp [Json.sameFields, same_iff a b, sameFields_iff as bs]

end

mutual

/-- Every object has each key once. -/
def Keyed : Json ℝ → Prop
  | .object fields => (fields.map Prod.fst).Nodup ∧ KeyedFields fields
  | _ => True

def KeyedFields : List (String × Json ℝ) → Prop
  | [] => True
  | (_, a) :: rest => Keyed a ∧ KeyedFields rest

end

/-- What stands where some keys lead. -/
def reached : Json ℝ → List String → Option (Json ℝ)
  | a, [] => some a
  | .object fields, key :: keys => (fields.lookup key).bind fun a => reached a keys
  | _, _ :: _ => none

/-- Two values that are no pair of objects, and differ: figures by more than the tolerance. -/
def Moved : Json ℝ → Json ℝ → Prop
  | .object _, .object _ => False
  | .float x, .float y => Stale x y
  | a, b => a ≠ b

/-- The places where two records differ. -/
inductive Differs (a b : Json ℝ) : List String → Change ℝ → Prop
  | moved {keys : List String} {x y : Json ℝ} : reached a keys = some x → reached b keys = some y → Moved x y →
      Differs a b keys (.moved x y)
  | missing {keys : List String} {key : String} {x : Json ℝ} {fields : List (String × Json ℝ)} :
      reached a (keys ++ [key]) = some x → reached b keys = some (.object fields) → fields.lookup key = none →
      Differs a b (keys ++ [key]) .missing
  | unmeasured {keys : List String} {key : String} {y : Json ℝ} {fields : List (String × Json ℝ)} :
      reached a keys = some (.object fields) → fields.lookup key = none → reached b (keys ++ [key]) = some y →
      Differs a b (keys ++ [key]) .unmeasured

/-- What differs at the top is a value that moved. -/
theorem differs_nil {a b : Json ℝ} {change : Change ℝ} :
    Differs a b [] change ↔ Moved a b ∧ change = .moved a b := by
  constructor
  · intro h
    generalize hkeys : ([] : List String) = keys at h
    cases h with
    | moved hx hy hmoved =>
      subst hkeys
      cases hx
      cases hy
      exact ⟨hmoved, rfl⟩
    | missing => simp at hkeys
    | unmeasured => simp at hkeys
  · rintro ⟨hmoved, rfl⟩
    exact Differs.moved rfl rfl hmoved

/-- What differs below a key of two objects. -/
def Below (a b : Option (Json ℝ)) (keys : List String) (change : Change ℝ) : Prop :=
  match a, b with
  | some a, some b => Differs a b keys change
  | some _, none => keys = [] ∧ change = .missing
  | none, some _ => keys = [] ∧ change = .unmeasured
  | none, none => False

theorem differs_cons {as bs : List (String × Json ℝ)} {key : String} {keys : List String}
    {change : Change ℝ} :
    Differs (.object as) (.object bs) (key :: keys) change ↔
      Below (as.lookup key) (bs.lookup key) keys change := by
  constructor
  · intro h
    generalize hpath : key :: keys = path at h
    cases h with
    | moved hx hy hmoved =>
      subst hpath
      obtain ⟨a, ha, hx⟩ := Option.bind_eq_some_iff.mp hx
      obtain ⟨b, hb, hy⟩ := Option.bind_eq_some_iff.mp hy
      rw [ha, hb]
      exact Differs.moved hx hy hmoved
    | @missing init last x fields hx hy hnone =>
      cases init with
      | nil =>
        cases hpath
        cases hy
        obtain ⟨a, ha, -⟩ := Option.bind_eq_some_iff.mp hx
        rw [ha, hnone]
        exact ⟨rfl, rfl⟩
      | cons head init =>
        cases hpath
        obtain ⟨a, ha, hx⟩ := Option.bind_eq_some_iff.mp hx
        obtain ⟨b, hb, hy⟩ := Option.bind_eq_some_iff.mp hy
        rw [ha, hb]
        exact Differs.missing hx hy hnone
    | @unmeasured init last y fields hx hnone hy =>
      cases init with
      | nil =>
        cases hpath
        cases hx
        obtain ⟨b, hb, -⟩ := Option.bind_eq_some_iff.mp hy
        rw [hb, hnone]
        exact ⟨rfl, rfl⟩
      | cons head init =>
        cases hpath
        obtain ⟨a, ha, hx⟩ := Option.bind_eq_some_iff.mp hx
        obtain ⟨b, hb, hy⟩ := Option.bind_eq_some_iff.mp hy
        rw [ha, hb]
        exact Differs.unmeasured hx hnone hy
  · intro h
    have hat : ∀ (fields : List (String × Json ℝ)) (a : Json ℝ) (rest : List String),
        fields.lookup key = some a → reached (.object fields) (key :: rest) = reached a rest := by
      intro fields a rest ha
      rw [reached, ha, Option.bind_some]
    cases ha : as.lookup key with
    | some a =>
      cases hb : bs.lookup key with
      | some b =>
        rw [ha, hb] at h
        cases h with
        | moved hx hy hmoved => exact Differs.moved ((hat _ _ _ ha).trans hx) ((hat _ _ _ hb).trans hy) hmoved
        | missing hx hy hnone =>
          rw [← List.cons_append]
          exact Differs.missing ((hat _ _ _ ha).trans hx) ((hat _ _ _ hb).trans hy) hnone
        | unmeasured hx hnone hy =>
          rw [← List.cons_append]
          exact Differs.unmeasured ((hat _ _ _ ha).trans hx) hnone ((hat _ _ _ hb).trans hy)
      | none =>
        rw [ha, hb] at h
        obtain ⟨rfl, rfl⟩ := h
        exact @Differs.missing _ _ [] key a bs ((hat _ _ _ ha).trans rfl) rfl hb
    | none =>
      cases hb : bs.lookup key with
      | some b =>
        rw [ha, hb] at h
        obtain ⟨rfl, rfl⟩ := h
        exact @Differs.unmeasured _ _ [] key b as rfl ha ((hat _ _ _ hb).trans rfl)
      | none =>
        rw [ha, hb] at h
        exact h.elim

/-- Only two objects have anything below them. -/
theorem differs_objects {a b : Json ℝ} {key : String} {keys : List String} {change : Change ℝ}
    (h : Differs a b (key :: keys) change) : ∃ as bs, a = .object as ∧ b = .object bs := by
  have hobject : ∀ (c : Json ℝ) (key : String) (keys : List String) (x : Json ℝ),
      reached c (key :: keys) = some x → ∃ fields, c = .object fields := by
    intro c key keys x hx
    cases c with
    | object fields => exact ⟨fields, rfl⟩
    | null | bool | int | float | string | array => cases hx
  generalize hpath : key :: keys = path at h
  have hboth : (∃ as, a = .object as) ∧ ∃ bs, b = .object bs := by
    cases h with
    | moved hx hy hmoved =>
      subst hpath
      exact ⟨hobject _ _ _ _ hx, hobject _ _ _ _ hy⟩
    | @missing init last x fields hx hy hnone =>
      cases init with
      | nil =>
        cases hy
        exact ⟨hobject _ _ _ _ hx, _, rfl⟩
      | cons head init => exact ⟨hobject _ _ _ _ hx, hobject _ _ _ _ hy⟩
    | @unmeasured init last y fields hx hnone hy =>
      cases init with
      | nil =>
        cases hx
        exact ⟨⟨_, rfl⟩, hobject _ _ _ _ hy⟩
      | cons head init => exact ⟨hobject _ _ _ _ hx, hobject _ _ _ _ hy⟩
  obtain ⟨⟨as, ha⟩, bs, hb⟩ := hboth
  exact ⟨as, bs, ha, hb⟩

/-- The line of a place. -/
def lineOf (path : String) (place : List String × Change ℝ) : Drift ℝ :=
  ⟨place.1.foldl childPath path, place.2⟩

/-- A place below a key. -/
def under (key : String) (place : List String × Change ℝ) : List String × Change ℝ :=
  (key :: place.1, place.2)

/-- The lines are those of some places, each once, and the places are the ones with the property. -/
def Lists (path : String) (lines : List (Drift ℝ)) (P : List String → Change ℝ → Prop) : Prop :=
  ∃ places : List (List String × Change ℝ), lines = places.map (lineOf path) ∧
    (places.map Prod.fst).Nodup ∧ ∀ keys change, (keys, change) ∈ places ↔ P keys change

section

variable {path : String} {P Q : List String → Change ℝ → Prop}

theorem lists_nil (h : ∀ keys change, ¬P keys change) : Lists path [] P := by
  exists []
  simp [h]

theorem lists_here {change : Change ℝ} (h : ∀ keys c, P keys c ↔ keys = [] ∧ c = change) :
    Lists path [⟨path, change⟩] P := by
  exists [([], change)]
  simp [h, lineOf]

theorem lists_append {lines lines' : List (Drift ℝ)} (h : Lists path lines P) (h' : Lists path lines' Q)
    (hapart : ∀ keys c c', P keys c → ¬Q keys c') :
    Lists path (lines ++ lines') fun keys change => P keys change ∨ Q keys change := by
  obtain ⟨places, rfl, hnodup, hmem⟩ := h
  obtain ⟨places', rfl, hnodup', hmem'⟩ := h'
  exists places ++ places'
  constructor
  · rw [List.map_append]
  constructor
  · rw [List.map_append, List.nodup_append]
    constructor
    · exact hnodup
    constructor
    · exact hnodup'
    · rintro keys hkeys keys' hkeys' rfl
      obtain ⟨⟨_, c⟩, hc, rfl⟩ := List.mem_map.mp hkeys
      obtain ⟨⟨_, c'⟩, hc', rfl⟩ := List.mem_map.mp hkeys'
      exact hapart _ c c' ((hmem _ _).mp hc) ((hmem' _ _).mp hc')
  · intro keys change
    rw [List.mem_append, hmem, hmem']

theorem lists_under {key : String} {lines : List (Drift ℝ)} (h : Lists (childPath path key) lines P) :
    Lists path lines fun keys change => ∃ rest, keys = key :: rest ∧ P rest change := by
  obtain ⟨places, rfl, hnodup, hmem⟩ := h
  exists places.map (under key)
  constructor
  · rw [List.map_map]
    rfl
  constructor
  · rw [List.map_map]
    have hfst : Prod.fst ∘ under key = List.cons key ∘ Prod.fst := rfl
    rw [hfst, ← List.map_map]
    exact hnodup.map (List.cons_injective)
  · intro keys change
    simp only [List.mem_map, under, Prod.exists, Prod.mk.injEq, hmem]
    constructor
    · rintro ⟨rest, c, hP, rfl, rfl⟩
      exact ⟨rest, rfl, hP⟩
    · rintro ⟨rest, rfl, hP⟩
      exact ⟨rest, change, hP, rfl, rfl⟩

end

theorem lookup_absent {fields : List (String × Json ℝ)} {key : String} (h : key ∉ fields.map Prod.fst) :
    fields.lookup key = none := by
  rw [List.lookup_eq_none_iff]
  intro p hp
  rw [bne_iff_ne]
  rintro rfl
  exact h (List.mem_map.mpr ⟨p, hp, rfl⟩)

/-- A value under a key is keyed. -/
theorem keyed_lookup {fields : List (String × Json ℝ)} {key : String} {a : Json ℝ} (h : KeyedFields fields)
    (ha : fields.lookup key = some a) : Keyed a := by
  induction fields with
  | nil => cases ha
  | cons field fields ih =>
    obtain ⟨k, b⟩ := field
    rw [List.lookup_cons] at ha
    split at ha
    · cases ha
      exact h.1
    · exact ih h.2 ha

/-- The keys published that nothing measures. -/
theorem unmeasured_places (path : String) (as : List (String × Json ℝ)) {bs : List (String × Json ℝ)}
    (hb : (bs.map Prod.fst).Nodup) :
    Lists path ((bs.filter fun f => !as.any fun g => g.1 == f.1).map
        fun f => ⟨childPath path f.1, .unmeasured⟩)
      fun keys change => ∃ key, keys = [key] ∧ as.lookup key = none ∧ (bs.lookup key).isSome ∧
        change = .unmeasured := by
  have hnone : ∀ key, as.lookup key = none ↔ (as.any fun g => g.1 == key) = false := by
    intro key
    rw [List.lookup_eq_none_iff, List.any_eq_false]
    simp only [bne_iff_ne, beq_iff_eq, ne_comm, Ne]
  have hsome : ∀ key, (bs.lookup key).isSome ↔ ∃ b, (key, b) ∈ bs := by
    intro key
    rw [Option.isSome_iff_ne_none, Ne, List.lookup_eq_none_iff]
    simp
  exists (bs.filter fun f => !as.any fun g => g.1 == f.1).map fun f => ([f.1], .unmeasured)
  constructor
  · rw [List.map_map]
    rfl
  constructor
  · rw [List.map_map]
    have hfst : Prod.fst ∘ (fun f : String × Json ℝ => ([f.1], (.unmeasured : Change ℝ))) =
        (fun key => [key]) ∘ Prod.fst := rfl
    rw [hfst, ← List.map_map]
    apply (List.Nodup.sublist (List.filter_sublist.map _) hb).map
    exact List.singleton_injective
  · intro keys change
    simp only [List.mem_map, List.mem_filter, Bool.not_eq_true', Prod.exists, Prod.mk.injEq]
    constructor
    · rintro ⟨key, b, ⟨hmem, hnot⟩, rfl, rfl⟩
      exact ⟨key, rfl, (hnone key).mpr hnot, (hsome key).mpr ⟨b, hmem⟩, rfl⟩
    · rintro ⟨key, rfl, hlookup, hpub, rfl⟩
      obtain ⟨b, hmem⟩ := (hsome key).mp hpub
      exact ⟨key, b, ⟨hmem, (hnone key).mp hlookup⟩, rfl, rfl⟩

/-- Values that are no pair of objects make at most one line, where they stand. -/
theorem compare_leaf {a b : Json ℝ} (hnot : ∀ as bs, a = .object as → b = .object bs → False)
    (path : String) :
    Moved a b ∧ Bess.compare path a b = [⟨path, .moved a b⟩] ∨
      ¬Moved a b ∧ Bess.compare path a b = [] := by
  have hother : (Moved a b ↔ a ≠ b) →
      Bess.compare path a b = (if a.same b then [] else [⟨path, .moved a b⟩]) →
      Moved a b ∧ Bess.compare path a b = [⟨path, .moved a b⟩] ∨
        ¬Moved a b ∧ Bess.compare path a b = [] := by
    intro hmoved hcompare
    rw [hmoved, hcompare]
    by_cases h : a = b
    · rw [if_pos ((same_iff a b).mpr h)]
      exact Or.inr ⟨not_not.mpr h, rfl⟩
    · rw [if_neg (mt (same_iff a b).mp h)]
      exact Or.inl ⟨h, rfl⟩
  cases a with
  | object as =>
    cases b with
    | object bs => exact (hnot as bs rfl rfl).elim
    | null | bool | int | float | string | array => exact hother Iff.rfl rfl
  | float x =>
    cases b with
    | float y =>
      rw [Bess.compare, Moved]
      by_cases h : Stale x y
      · rw [if_pos h]
        exact Or.inl ⟨h, rfl⟩
      · rw [if_neg h]
        exact Or.inr ⟨h, rfl⟩
    | null | bool | int | object | string | array => exact hother Iff.rfl rfl
  | null | bool | int | string | array => exact hother Iff.rfl rfl

theorem leaf_places {a b : Json ℝ} (hnot : ∀ as bs, a = .object as → b = .object bs → False)
    (path : String) : Lists path (Bess.compare path a b) (Differs a b) := by
  have hhere : ∀ keys change, Differs a b keys change ↔ keys = [] ∧ Moved a b ∧ change = .moved a b := by
    intro keys change
    cases keys with
    | nil =>
      rw [differs_nil]
      simp
    | cons key keys =>
      constructor
      · intro h
        obtain ⟨as, bs, ha, hb⟩ := differs_objects h
        exact (hnot as bs ha hb).elim
      · rintro ⟨h, -⟩
        cases h
  obtain ⟨hmoved, hlines⟩ | ⟨hsame, hlines⟩ := compare_leaf hnot path
  · rw [hlines]
    apply lists_here
    intro keys change
    rw [hhere]
    simp [hmoved]
  · rw [hlines]
    apply lists_nil
    intro keys change
    rw [hhere]
    simp [hsame]

/-- What differs below two objects: below a field, or a field nothing measures. -/
theorem differs_fields {as bs : List (String × Json ℝ)} {keys : List String} {change : Change ℝ} :
    Differs (.object as) (.object bs) keys change ↔
      (∃ key rest a, keys = key :: rest ∧ as.lookup key = some a ∧
        Below (some a) (bs.lookup key) rest change) ∨
      ∃ key, keys = [key] ∧ as.lookup key = none ∧ (bs.lookup key).isSome ∧ change = .unmeasured := by
  cases keys with
  | nil =>
    rw [differs_nil]
    simp [Moved]
  | cons key rest =>
    rw [differs_cons]
    constructor
    · intro h
      cases hlookup : as.lookup key with
      | some a =>
        rw [hlookup] at h
        exact Or.inl ⟨key, rest, a, rfl, hlookup, h⟩
      | none =>
        cases hpub : bs.lookup key with
        | some b =>
          rw [hlookup, hpub] at h
          obtain ⟨rfl, rfl⟩ := h
          exact Or.inr ⟨key, rfl, hlookup, Option.isSome_of_eq_some hpub, rfl⟩
        | none =>
          rw [hlookup, hpub] at h
          exact h.elim
    · rintro (⟨key', rest', a, hkeys, hlookup, h⟩ | ⟨key', hkeys, hnone, hpub, rfl⟩)
      · cases hkeys
        rw [hlookup]
        exact h
      · cases hkeys
        obtain ⟨b, hb⟩ := Option.isSome_iff_exists.mp hpub
        rw [hnone, hb]
        exact ⟨rfl, rfl⟩

mutual

/-- One line for each place where two records differ. -/
theorem compare_places (a b : Json ℝ) (path : String) (ha : Keyed a) (hb : Keyed b) :
    Lists path (Bess.compare path a b) (Differs a b) := by
  cases a with
  | object as =>
    cases b with
    | object bs =>
      have hfields := fields_places as bs path ha.1 ha.2 hb.2
      have hlines := lists_append hfields (unmeasured_places path as hb.1) (by
        rintro keys c c' ⟨key, rest, a, rfl, hlookup, -⟩ ⟨key', hkey, hnone, -⟩
        cases hkey
        rw [hnone] at hlookup
        cases hlookup)
      have hdiffers : Differs (.object as) (.object bs) = _ :=
        funext fun keys => funext fun change => propext differs_fields
      rw [hdiffers]
      exact hlines
    | null | bool | int | float | string | array =>
      exact leaf_places (fun _ _ _ h => by cases h) path
  | null | bool | int | float | string | array =>
    exact leaf_places (fun _ _ h _ => by cases h) path

theorem fields_places (as bs : List (String × Json ℝ)) (path : String) (hnodup : (as.map Prod.fst).Nodup)
    (ha : KeyedFields as) (hb : KeyedFields bs) :
    Lists path (compareFields path as bs) fun keys change =>
      ∃ key rest a, keys = key :: rest ∧ as.lookup key = some a ∧
        Below (some a) (bs.lookup key) rest change := by
  cases as with
  | nil =>
    apply lists_nil
    rintro keys change ⟨key, rest, a, -, h, -⟩
    cases h
  | cons field as =>
    obtain ⟨key, a⟩ := field
    obtain ⟨hnot, hnodup⟩ := List.nodup_cons.mp hnodup
    have hrest := fields_places as bs path hnodup ha.2 hb
    obtain ⟨head, hcompare, hhead⟩ : ∃ head,
        compareFields path ((key, a) :: as) bs = head ++ compareFields path as bs ∧
        Lists (childPath path key) head (Below (some a) (bs.lookup key)) := by
      rw [compareFields]
      cases hpub : bs.lookup key with
      | some b => exact ⟨_, rfl, compare_places a b _ ha.1 (keyed_lookup hb hpub)⟩
      | none => exact ⟨_, rfl, lists_here fun keys c => Iff.rfl⟩
    have habsent : as.lookup key = none := lookup_absent hnot
    have hlines := lists_append (lists_under hhead) hrest (by
      rintro keys c c' ⟨rest, rfl, -⟩ ⟨key', rest', a', hkeys, hlookup, -⟩
      cases hkeys
      rw [habsent] at hlookup
      cases hlookup)
    have hkeys : (fun keys change => ∃ key' rest a', keys = key' :: rest ∧
        ((key, a) :: as).lookup key' = some a' ∧ Below (some a') (bs.lookup key') rest change) =
        fun keys change => (∃ rest, keys = key :: rest ∧ Below (some a) (bs.lookup key) rest change) ∨
          ∃ key' rest a', keys = key' :: rest ∧ as.lookup key' = some a' ∧
            Below (some a') (bs.lookup key') rest change := by
      funext keys change
      apply propext
      constructor
      · rintro ⟨key', rest, a', rfl, hlookup, hbelow⟩
        rw [List.lookup_cons] at hlookup
        by_cases hkey : key' = key
        · subst hkey
          simp only [beq_self_eq_true, Option.some.injEq] at hlookup
          subst hlookup
          exact Or.inl ⟨rest, rfl, hbelow⟩
        · rw [beq_false_of_ne hkey] at hlookup
          exact Or.inr ⟨key', rest, a', rfl, hlookup, hbelow⟩
      · rintro (⟨rest, rfl, hbelow⟩ | ⟨key', rest, a', rfl, hlookup, hbelow⟩)
        · exact ⟨key, rest, a, rfl, List.lookup_cons_self, hbelow⟩
        · refine ⟨key', rest, a', rfl, ?_, hbelow⟩
          have hkey : key' ≠ key := by
            rintro rfl
            rw [habsent] at hlookup
            cases hlookup
          rw [List.lookup_cons, beq_false_of_ne hkey]
          exact hlookup
    rw [hcompare, hkeys]
    exact hlines

end

end BessDrift
