import BessEmulator.RegisterMap

/-!
# A device that lies where it is told to

The input bank as a lying device serves it: the truth in every register of a
point no window selects, and in a selected point's registers what the tap says
the point reads, its lowest bit turned over when it flaps.
-/
namespace BessRegisters

open Bess

section

variable {F : Type} [Scalar F]

theorem value_unselected {t : Taps F} {surface : Surface} {i tick : Nat} (h : t.onPoint surface i tick = [])
    (truth : F) : t.value surface i tick truth = some truth := by
  rw [Taps.value, h]
  rfl

theorem flipped_unselected {t : Taps F} {surface : Surface} {i tick : Nat}
    (h : t.onPoint surface i tick = []) : t.flipped surface i tick = false := by
  have hnone : (t.openAt surface tick).filter
      (fun w => decide (w.kind = .chatter) && w.selected.getD i false) = [] := by
    rw [List.filter_eq_nil_iff]
    intro w hw hselected
    rw [Bool.and_eq_true] at hselected
    exact List.filter_eq_nil_iff.mp h w hw hselected.2
  rw [Taps.flipped, hnone]
  rfl

/-- A window of a scenario never selects a control point. -/
theorem windowOf_holding {points : List (Point F)} {i : Nat} {p : Point F} (hi : points[i]? = some p)
    (hspace : p.space = .holding) (index start : Nat) (fault : DataFault F) :
    (windowOf index start fault points).selected.getD i false = false := by
  have hget : ((points.map (selects fault.fault fault.points))[i]?) = some false := by
    rw [List.getElem?_map, hi, Option.map_some, selects, if_pos hspace]
  rw [windowOf, List.getD_eq_getElem?_getD, hget, Option.getD_some]

/-- One register of the served bank. -/
def word (bank : Bank) (r : Nat) : Option (BitVec 16) := bank[r]?

/-- The registers a lying device rewrites for a point. -/
def servedPlaces (p : Point F × Nat) : Set Nat := {r | p.1.space = .input ∧ r ∈ registers p.1}

/-- The bank with a point as the tap reads it, before its bit flaps. -/
def told (snap : Snapshot F) (tick : Nat) (bank : Bank) (p : Point F × Nat) : Bank :=
  match snap.taps.value .modbus p.2 tick (p.1.extract snap.state) with
  | none => store p.1 (pattern p.1 none) bank
  | some value =>
    if Scalar.sameBits value (p.1.extract snap.state) then bank
    else store p.1 (pattern p.1 (some value)) bank

theorem servePoint_input {snap : Snapshot F} {tick : Nat} {p : Point F × Nat} (hspace : p.1.space = .input)
    (bank : Bank) : servePoint snap tick bank p =
      if snap.taps.flipped .modbus p.2 tick then flipLow p.1 (told snap tick bank p)
      else told snap tick bank p := by
  simp only [servePoint, hspace, ne_eq, not_true_eq_false, if_false, told, writeNan_store, writePoint_store]
  rfl

theorem servePoint_holding {snap : Snapshot F} {tick : Nat} {p : Point F × Nat} (hspace : p.1.space ≠ .input)
    (bank : Bank) : servePoint snap tick bank p = bank := by
  rw [servePoint, if_pos hspace]

theorem told_frame {snap : Snapshot F} {tick : Nat} {p : Point F × Nat} {r : Nat} (hr : r ∉ registers p.1)
    (bank : Bank) : (told snap tick bank p)[r]? = bank[r]? := by
  have hstore : ∀ raw, (store p.1 raw bank)[r]? = bank[r]? := by
    intro raw
    rw [getElem?_store, if_neg hr]
  rw [told]
  split
  · exact hstore _
  · split
    · rfl
    · exact hstore _

theorem told_inside {snap : Snapshot F} {tick : Nat} {p : Point F × Nat} {r : Nat} {bank other : Bank}
    (hsame : bank[r]? = other[r]?) : (told snap tick bank p)[r]? = (told snap tick other p)[r]? := by
  have hstore : ∀ raw, (store p.1 raw bank)[r]? = (store p.1 raw other)[r]? := by
    intro raw
    rw [getElem?_store, getElem?_store, hsame]
  rw [told, told]
  split
  · exact hstore _
  · split
    · exact hsame
    · exact hstore _

/-- Serving a point keeps to its registers. -/
theorem local_servePoint (snap : Snapshot F) (tick : Nat) :
    Footprint.Local word servedPlaces (servePoint snap tick) where
  frame bank p r hr := by
    by_cases hspace : p.1.space = .input
    · have hr : r ∉ registers p.1 := fun h => hr ⟨hspace, h⟩
      have hlow : r ≠ p.1.addr + p.1.encoding.words - 1 := fun h => hr (h ▸ low_mem_registers p.1)
      rw [word, word, servePoint_input hspace]
      split
      · rw [getElem?_flipLow, if_neg hlow, told_frame hr]
      · exact told_frame hr bank
    · rw [servePoint_holding hspace]
  inside bank other p hsame r hr := by
    have htold : (told snap tick bank p)[r]? = (told snap tick other p)[r]? := told_inside (hsame r hr)
    rw [word, word, servePoint_input hr.1, servePoint_input hr.1]
    split
    · rw [getElem?_flipLow, getElem?_flipLow, htold]
    · exact htold

/-- A point of the served bank, where the bank told the truth before. -/
theorem load_servePoint (hbits : ∀ x y : F, Scalar.sameBits x y = true → x = y) {snap : Snapshot F} {tick : Nat}
    {p : Point F × Nat} (hspace : p.1.space = .input) {bank : Bank}
    (hfits : p.1.addr + p.1.encoding.words ≤ bank.length)
    (htruth : load p.1 bank = some (pattern p.1 (some (p.1.extract snap.state)))) :
    load p.1 (servePoint snap tick bank p) = some (flipIf (snap.taps.flipped .modbus p.2 tick)
      (pattern p.1 (snap.taps.value .modbus p.2 tick (p.1.extract snap.state)))) := by
  have htold : load p.1 (told snap tick bank p) =
      some (pattern p.1 (snap.taps.value .modbus p.2 tick (p.1.extract snap.state))) := by
    rw [told]
    cases snap.taps.value .modbus p.2 tick (p.1.extract snap.state) with
    | none => exact load_store (holds_pattern p.1 none) hfits
    | some value =>
      simp only
      split
      · rename_i hsame
        rw [hbits _ _ hsame]
        exact htruth
      · exact load_store (holds_pattern p.1 (some value)) hfits
  rw [servePoint_input hspace]
  cases snap.taps.flipped .modbus p.2 tick with
  | true =>
    rw [if_pos rfl, load_flipLow, htold]
    rfl
  | false =>
    rw [if_neg Bool.false_ne_true, htold]
    rfl

/-- A register of no selected point is served as it is. -/
theorem served_frame (hself : ∀ x : F, Scalar.sameBits x x = true) {points : List (Point F)}
    {snap : Snapshot F} {tick r : Nat} (h : ∀ i p, points[i]? = some p → p.space = .input → r ∈ registers p →
      snap.taps.onPoint .modbus i tick = []) :
    (inputBank points snap tick)[r]? = snap.inputRegs[r]? := by
  have hsame : ∀ p ∈ points.zipIdx, ∀ bank : Bank, word (servePoint snap tick bank p) r = word bank r := by
    intro p hp bank
    by_cases hr : r ∈ servedPlaces p
    · have hnone := h p.2 p.1 (List.mem_zipIdx_iff_getElem?.mp hp) hr.1 hr.2
      rw [word, word, servePoint_input hr.1, flipped_unselected hnone, told, value_unselected hnone]
      simp [hself]
    · exact (local_servePoint snap tick).frame bank p r hr
  exact Footprint.foldl_same hsame snap.inputRegs

/-- What a point's registers hold in the served bank, whatever else the device lies about. -/
theorem served_point (hbits : ∀ x y : F, Scalar.sameBits x y = true → x = y) {cfg : PlantConfig F}
    (hblocks : cfg.blocks ≤ 20) {snap : Snapshot F}
    (hregs : snap.inputRegs = (writeBanks (buildPoints cfg) snap.state).input) (tick : Nat) {i : Nat}
    {p : Point F} (hi : (buildPoints cfg)[i]? = some p) (hspace : p.space = .input) :
    load p (inputBank (buildPoints cfg) snap tick) = some (flipIf (snap.taps.flipped .modbus i tick)
      (pattern p (snap.taps.value .modbus i tick (p.extract snap.state)))) := by
  have hp : p ∈ buildPoints cfg := List.mem_of_getElem? hi
  have htruth : load p snap.inputRegs = some (pattern p (some (p.extract snap.state))) := by
    have h := load_writeBanks hblocks snap.state hp
    rw [hspace] at h
    rw [hregs]
    exact h
  have hapart : (buildPoints cfg).zipIdx.Pairwise fun p q =>
      ∀ r ∈ servedPlaces p, r ∉ servedPlaces q := by
    have hfst := buildPoints_apart hblocks
    rw [← List.zipIdx_map_fst 0 (buildPoints cfg), List.pairwise_map] at hfst
    refine hfst.imp fun h => ?_
    rintro r ⟨hpspace, hpr⟩ ⟨hqspace, hqr⟩
    exact disjoint_registers h (hpspace.trans hqspace.symm) hpr hqr
  have hmem : (p, i) ∈ (buildPoints cfg).zipIdx := List.mem_zipIdx_iff_getElem?.mpr hi
  have hsame : ∀ r ∈ registers p, (inputBank (buildPoints cfg) snap tick)[r]? =
      (servePoint snap tick snap.inputRegs (p, i))[r]? := fun r hr =>
    Footprint.foldl_inside (local_servePoint snap tick) hapart hmem (i := r) ⟨hspace, hr⟩ snap.inputRegs
  rw [load_congr hsame]
  exact load_servePoint hbits (p := (p, i)) hspace (fits_of_load htruth) htruth

/-- What a poller reads is the served bank's, also while no window is open. -/
theorem read_served (hself : ∀ x : F, Scalar.sameBits x x = true) (e : Emulator F) (addr count : BitVec 16) :
    e.handleRequest (.readInputRegisters addr count) =
      (readBank (inputBank e.task.map.points e.snapshot e.snapshot.state.tick) addr count).map
        fun words => (e, .readInputRegisters words) := by
  cases hopen : e.snapshot.taps.anyOpen .modbus e.snapshot.state.tick with
  | true => simp only [Emulator.handleRequest, hopen, if_true]
  | false =>
    have hnone : e.snapshot.taps.openAt .modbus e.snapshot.state.tick = [] := by
      rw [Taps.anyOpen, Bool.not_eq_false', List.isEmpty_iff] at hopen
      exact hopen
    have hbank : inputBank e.task.map.points e.snapshot e.snapshot.state.tick = e.snapshot.inputRegs := by
      refine List.ext_getElem? fun r => served_frame hself fun i p _ _ _ => ?_
      rw [Taps.onPoint, hnone, List.filter_nil]
    simp only [Emulator.handleRequest, hopen, Bool.false_eq_true, if_false, hbank]

end

/-- On the reference plant's map no two points of a space share a register. A bank
published under any faults is served as it is in every register of no selected
point; a point's registers hold the pattern of what the tap has it read, its
lowest bit turned over exactly when it flaps. No fault selects a control point,
and the holding registers are answered as they were published. -/
theorem lies_only_where_selected (sim : Simulation ℝ) (speed : ℝ) (story : Option (Active ℝ)) (tick : Nat) :
    let points := buildPoints (PlantConfig.gw01 : PlantConfig ℝ)
    let task : Bess.Task ℝ := ⟨sim, speed, story, signalMap PlantConfig.gw01⟩
    let snap := task.snapshot
    points.Pairwise (fun p q => p.space = q.space → List.Disjoint (registers p) (registers q)) ∧
      (∀ r, (∀ i p, points[i]? = some p → p.space = .input → r ∈ registers p →
          snap.taps.onPoint .modbus i tick = []) →
        (inputBank points snap tick)[r]? = (writeBanks points sim.state).input[r]?) ∧
      (∀ i p, points[i]? = some p → p.space = .input →
        load p (inputBank points snap tick) = some (flipIf (snap.taps.flipped .modbus i tick)
          (pattern p (snap.taps.value .modbus i tick (p.extract sim.state))))) ∧
      (∀ i p, points[i]? = some p → p.space = .holding → ∀ index start fault,
        (windowOf index start fault points).selected.getD i false = false) ∧
      ∀ (latest : Bess.Task ℝ) (queue : List (Bess.Task.Command ℝ)) (addr count : BitVec 16),
        latest.map = task.map →
        (Emulator.mk latest queue snap).handleRequest (.readInputRegisters addr count) =
            (readBank (inputBank points snap sim.state.tick) addr count).map
              (fun words => (⟨latest, queue, snap⟩, .readInputRegisters words)) ∧
          (Emulator.mk latest queue snap).handleRequest (.readHoldingRegisters addr count) =
            (readBank (writeBanks points sim.state).holding addr count).map
              (fun words => (⟨latest, queue, snap⟩, .readHoldingRegisters words)) := by
  intro points task snap
  have hbits : ∀ x y : ℝ, Scalar.sameBits x y = true → x = y := fun x y h => of_decide_eq_true h
  have hself : ∀ x : ℝ, Scalar.sameBits x x = true := fun x => decide_eq_true rfl
  have hpoints : task.map.points = points := signalMap_points _
  have hregs : snap.inputRegs = (writeBanks points sim.state).input := by
    rw [← hpoints]
    rfl
  constructor
  · exact (buildPoints_apart (le_refl 20)).imp fun h => disjoint_registers h
  constructor
  · intro r hr
    rw [served_frame hself hr, hregs]
  constructor
  · intro i p hi hspace
    exact served_point hbits (le_refl 20) hregs tick hi hspace
  constructor
  · intro i p hi hspace index start fault
    exact windowOf_holding hi hspace index start fault
  · intro latest queue addr count hmap
    constructor
    · rw [read_served hself, ← hpoints, ← hmap]
      rfl
    · rw [← hpoints]
      rfl

end BessRegisters
