import BessEmulator.AlarmList
import BessEmulator.History
import BessEmulator.Ranking

/-!
# Every surface counts the same alarms

The viewer's list, the scraped gauges and the published count are one reading of
the tree's words, and the raises of a run less its clears: whichever surface is
asked, the same bits are active on the same nodes.
-/
namespace BessAlarms

open Bess BessReplay EdgeLog

variable {F : Type}

theorem mem_wordAlarms (node : AlarmNode) (word : BitVec 32) (a : ActiveAlarm) :
    a ∈ wordAlarms node word ↔ a.node = node ∧ hasBit word a.bit = true := by
  obtain ⟨n, bit⟩ := a
  have hlow : hasBit word bit = true → bit < 32 := by
    intro h
    by_contra hge
    rw [hasBit_eq, BitVec.getLsbD_of_ge word bit (by omega)] at h
    cases h
  simp only [wordAlarms, List.mem_map, List.mem_filter, List.mem_range, ActiveAlarm.mk.injEq]
  constructor
  · rintro ⟨i, ⟨-, hi⟩, rfl, rfl⟩
    exact ⟨rfl, hi⟩
  · rintro ⟨rfl, hbit⟩
    exact ⟨bit, ⟨hlow hbit, hbit⟩, rfl, rfl⟩

theorem nodup_wordAlarms (node : AlarmNode) (word : BitVec 32) : (wordAlarms node word).Nodup := by
  apply List.Nodup.map_on _ (List.nodup_range.filter _)
  intro i _ j _ h
  exact congrArg ActiveAlarm.bit h

/-- A list read by place: members come from one place each. -/
theorem mem_flatMap_zipIdx {α β : Type} {f : α × Nat → List β} {key : β → Nat} {xs : List α} {y : β}
    (hkey : ∀ x, y ∈ f x → key y = x.2) :
    y ∈ xs.zipIdx.flatMap f ↔ ∃ x, xs[key y]? = some x ∧ y ∈ f (x, key y) := by
  simp only [List.mem_flatMap]
  constructor
  · rintro ⟨⟨x, i⟩, hx, hy⟩
    have hi : key y = i := hkey (x, i) hy
    rw [hi]
    exact ⟨x, List.mem_zipIdx_iff_getElem?.mp hx, hy⟩
  · rintro ⟨x, hx, hy⟩
    exact ⟨(x, key y), List.mem_zipIdx_iff_getElem?.mpr hx, hy⟩

theorem nodup_flatMap_zipIdx {α β : Type} {f : α × Nat → List β} (key : β → Nat) (xs : List α)
    (hkey : ∀ x, ∀ y ∈ f x, key y = x.2) (hnodup : ∀ x, (f x).Nodup) : (xs.zipIdx.flatMap f).Nodup := by
  apply List.nodup_flatMap.mpr
  constructor
  · exact fun x _ => hnodup x
  · have hplaces : (xs.zipIdx.map Prod.snd).Pairwise (· ≠ ·) := by
      rw [List.zipIdx_map_snd]
      exact List.nodup_range'
    rw [List.pairwise_map] at hplaces
    apply hplaces.imp
    intro a b hab y ha hb
    exact hab ((hkey a y ha).symm.trans (hkey b y hb))

/-- The rack alarms of one container. -/
def containerAlarms (b c : Nat) (cont : ContainerState F) : List ActiveAlarm :=
  cont.racks.zipIdx.flatMap fun (rk, r) => wordAlarms (.rack b c r) rk.alarmBits

/-- A block's own alarms, then its racks'. -/
def blockAlarms (blk : BlockState F × Nat) : List ActiveAlarm :=
  wordAlarms (.block blk.2) blk.1.alarmBits ++
    blk.1.containers.zipIdx.flatMap fun (cont, c) => containerAlarms blk.2 c cont

theorem walk_eq (s : SiteState F) :
    walkAlarms s = wordAlarms .site s.alarmBits ++ s.blocks.zipIdx.flatMap blockAlarms := rfl

/-- Where a node stands among its siblings. -/
def rackIndex (a : ActiveAlarm) : Nat := match a.node with | .rack _ _ r => r | _ => 0
def containerIndex (a : ActiveAlarm) : Nat := match a.node with | .rack _ c _ => c | _ => 0
def blockIndex (a : ActiveAlarm) : Nat := match a.node with | .rack b _ _ => b | .block b => b | .site => 0

theorem mem_containerAlarms (b c : Nat) (cont : ContainerState F) (a : ActiveAlarm) :
    a ∈ containerAlarms b c cont ↔ ∃ r rk, a.node = .rack b c r ∧ cont.racks[r]? = some rk ∧
      hasBit rk.alarmBits a.bit = true := by
  have hkey : ∀ x : RackState F × Nat, a ∈ wordAlarms (.rack b c x.2) x.1.alarmBits → rackIndex a = x.2 := by
    intro x hx
    rw [rackIndex, ((mem_wordAlarms _ _ a).mp hx).1]
  rw [containerAlarms, mem_flatMap_zipIdx hkey]
  simp only [mem_wordAlarms]
  constructor
  · rintro ⟨rk, hrk, hnode, hbit⟩
    exact ⟨rackIndex a, rk, hnode, hrk, hbit⟩
  · rintro ⟨r, rk, hnode, hrk, hbit⟩
    have hr : rackIndex a = r := by rw [rackIndex, hnode]
    exact ⟨rk, hr ▸ hrk, hr ▸ hnode, hbit⟩

theorem mem_blockAlarms (blk : BlockState F × Nat) (a : ActiveAlarm) :
    a ∈ blockAlarms blk ↔ (a.node = .block blk.2 ∧ hasBit blk.1.alarmBits a.bit = true) ∨
      ∃ c r cont rk, a.node = .rack blk.2 c r ∧ blk.1.containers[c]? = some cont ∧
        cont.racks[r]? = some rk ∧ hasBit rk.alarmBits a.bit = true := by
  have hkey : ∀ x : ContainerState F × Nat, a ∈ containerAlarms blk.2 x.2 x.1 → containerIndex a = x.2 := by
    intro x hx
    obtain ⟨r, rk, hnode, -⟩ := (mem_containerAlarms _ _ _ a).mp hx
    rw [containerIndex, hnode]
  rw [blockAlarms, List.mem_append, mem_wordAlarms, mem_flatMap_zipIdx hkey]
  apply or_congr_right
  simp only [mem_containerAlarms]
  constructor
  · rintro ⟨cont, hcont, r, rk, hnode, hrk, hbit⟩
    exact ⟨containerIndex a, r, cont, rk, hnode, hcont, hrk, hbit⟩
  · rintro ⟨c, r, cont, rk, hnode, hcont, hrk, hbit⟩
    have hc : containerIndex a = c := by rw [containerIndex, hnode]
    exact ⟨cont, hc ▸ hcont, r, rk, hc ▸ hnode, hrk, hbit⟩

/-- The walk finds exactly the set bits of the tree. -/
theorem mem_walk (s : SiteState F) (a : ActiveAlarm) :
    a ∈ walkAlarms s ↔ hasBit (wordOf s a.node) a.bit = true := by
  have hkey : ∀ x : BlockState F × Nat, a ∈ blockAlarms x → blockIndex a = x.2 := by
    intro x hx
    rcases (mem_blockAlarms x a).mp hx with ⟨hnode, -⟩ | ⟨c, r, cont, rk, hnode, -⟩
    · rw [blockIndex, hnode]
    · rw [blockIndex, hnode]
  rw [walk_eq, List.mem_append, mem_wordAlarms, mem_flatMap_zipIdx hkey]
  simp only [mem_blockAlarms]
  obtain ⟨node, bit⟩ := a
  cases node with
  | site => simp [wordOf]
  | block b =>
    simp only [wordOf, blockIndex]
    cases s.blocks[b]? <;> simp
  | rack b c r =>
    simp only [wordOf, SiteState.rack?, SiteState.container?, blockIndex]
    cases hb : s.blocks[b]? with
    | none => simp
    | some blk =>
      cases hc : blk.containers[c]? with
      | none => simp [hc]
      | some cont => cases hr : cont.racks[r]? <;> simp [hc, hr]

theorem containerIndex_of_mem {b : Nat} {x : ContainerState F × Nat} {a : ActiveAlarm}
    (h : a ∈ containerAlarms b x.2 x.1) : containerIndex a = x.2 := by
  obtain ⟨r, rk, hnode, -⟩ := (mem_containerAlarms _ _ _ a).mp h
  rw [containerIndex, hnode]

theorem blockIndex_of_mem {x : BlockState F × Nat} {a : ActiveAlarm} (h : a ∈ blockAlarms x) :
    blockIndex a = x.2 := by
  rcases (mem_blockAlarms x a).mp h with ⟨hnode, -⟩ | ⟨c, r, cont, rk, hnode, -⟩
  · rw [blockIndex, hnode]
  · rw [blockIndex, hnode]

theorem nodup_blockAlarms (x : BlockState F × Nat) : (blockAlarms x).Nodup := by
  have hcontainer : ∀ y : ContainerState F × Nat, (containerAlarms x.2 y.2 y.1).Nodup := by
    intro y
    apply nodup_flatMap_zipIdx rackIndex
    · intro z a ha
      rw [rackIndex, ((mem_wordAlarms _ _ a).mp ha).1]
    · exact fun z => nodup_wordAlarms _ _
  apply List.nodup_append.mpr
  constructor
  · exact nodup_wordAlarms _ _
  constructor
  · exact nodup_flatMap_zipIdx containerIndex _ (fun y a => containerIndex_of_mem) hcontainer
  · intro a ha a' ha' he
    obtain ⟨y, -, hy⟩ := List.mem_flatMap.mp ha'
    obtain ⟨r, rk, hrack, -⟩ := (mem_containerAlarms _ _ _ a').mp hy
    rw [← he, ((mem_wordAlarms _ _ a).mp ha).1] at hrack
    cases hrack

theorem nodup_walk (s : SiteState F) : (walkAlarms s).Nodup := by
  rw [walk_eq]
  apply List.nodup_append.mpr
  constructor
  · exact nodup_wordAlarms _ _
  constructor
  · exact nodup_flatMap_zipIdx blockIndex _ (fun y a => blockIndex_of_mem) nodup_blockAlarms
  · intro a ha a' ha' he
    obtain ⟨y, -, hy⟩ := List.mem_flatMap.mp ha'
    have hsite := ((mem_wordAlarms _ _ a).mp ha).1
    rw [he] at hsite
    rcases (mem_blockAlarms y a').mp hy with ⟨hnode, -⟩ | ⟨c, r, cont, rk, hnode, -⟩ <;>
      simp [hnode] at hsite

theorem sum_zipIdx {α : Type} (g : α → Nat) (xs : List α) :
    (xs.zipIdx.map fun x => g x.1).sum = (xs.map g).sum := by
  have hmap : (xs.zipIdx.map fun x => g x.1) = (xs.zipIdx.map Prod.fst).map g := by
    rw [List.map_map]
    rfl
  rw [hmap, List.zipIdx_map_fst]

theorem sum_flatMap {α β : Type} (g : β → Nat) (f : α → List β) (xs : List α) :
    ((xs.flatMap f).map g).sum = (xs.map fun x => ((f x).map g).sum).sum := by
  induction xs with
  | nil => rfl
  | cons x xs ih => simp [ih]

/-- Counted word by word, where a word's count does not depend on its place. -/
theorem countP_walk {P : ActiveAlarm → Bool} {site block rack : BitVec 32 → Nat}
    (hsite : ∀ w, (wordAlarms .site w).countP P = site w)
    (hblock : ∀ b w, (wordAlarms (.block b) w).countP P = block w)
    (hrack : ∀ b c r w, (wordAlarms (.rack b c r) w).countP P = rack w) (s : SiteState F) :
    (walkAlarms s).countP P = site s.alarmBits + (s.blocks.map fun b => block b.alarmBits).sum +
      (s.racks.map fun r => rack r.alarmBits).sum := by
  have hcontainer : ∀ (b c : Nat) (cont : ContainerState F), (containerAlarms b c cont).countP P =
      (cont.racks.map fun r => rack r.alarmBits).sum := by
    intro b c cont
    rw [containerAlarms, List.countP_flatMap,
      ← sum_zipIdx (fun r : RackState F => rack r.alarmBits) cont.racks]
    congr 1
    apply List.map_congr_left
    exact fun x _ => hrack b c x.2 _
  have hone : ∀ x : BlockState F × Nat, (blockAlarms x).countP P =
      block x.1.alarmBits + (x.1.racks.map fun r => rack r.alarmBits).sum := by
    intro x
    rw [blockAlarms, List.countP_append, hblock, BlockState.racks, sum_flatMap, List.countP_flatMap,
      ← sum_zipIdx (fun cont : ContainerState F => (cont.racks.map fun r => rack r.alarmBits).sum)]
    congr 2
    apply List.map_congr_left
    exact fun y _ => hcontainer x.2 y.2 y.1
  have hblocks : (s.blocks.zipIdx.flatMap blockAlarms).countP P =
      (s.blocks.map fun b => block b.alarmBits + (b.racks.map fun r => rack r.alarmBits).sum).sum := by
    rw [List.countP_flatMap, ← sum_zipIdx fun b : BlockState F =>
      block b.alarmBits + (b.racks.map fun r => rack r.alarmBits).sum]
    congr 1
    apply List.map_congr_left
    exact fun x _ => hone x
  rw [walk_eq, List.countP_append, hsite, hblocks, List.sum_map_add, SiteState.racks, sum_flatMap]
  omega

theorem length_wordAlarms (node : AlarmNode) (word : BitVec 32) :
    (wordAlarms node word).length = countOnes word := by
  rw [wordAlarms, List.length_map, ← List.countP_eq_length_filter, countOnes]
  simp only [hasBit_eq]

/-- The published count is the list's length. -/
theorem activeAlarmCount_eq [Scalar F] (s : SiteState F) :
    activeAlarmCount s = (((walkAlarms s).length : Nat) : F) := by
  have hcount := countP_walk (P := fun _ => true) (fun w => by rw [List.countP_true, length_wordAlarms])
    (fun b w => by rw [List.countP_true, length_wordAlarms])
    (fun b c r w => by rw [List.countP_true, length_wordAlarms]) s
  rw [List.countP_true] at hcount
  rw [activeAlarmCount, hcount]
  congr 1
  omega

/-- One alarm's rows: those of its word and its bit. -/
def isAlarm (word : String) (bit : Nat) (a : ActiveAlarm) : Bool :=
  decide (a.node.word = word ∧ a.bit = bit)

theorem countP_wordAlarms (word : String) (bit : Nat) (node : AlarmNode) (w : BitVec 32) :
    (wordAlarms node w).countP (isAlarm word bit) =
      if node.word = word ∧ hasBit w bit = true then 1 else 0 := by
  have hone : ∀ a ∈ wordAlarms node w,
      isAlarm word bit a = true ↔ (decide (node.word = word) && (a == ⟨node, bit⟩)) = true := by
    intro a ha
    have hnode := ((mem_wordAlarms node w a).mp ha).1
    obtain ⟨n, i⟩ := a
    have hn : n = node := hnode
    simp [isAlarm, hn]
  rw [List.countP_congr hone]
  by_cases hword : node.word = word
  · simp only [hword, decide_true, Bool.true_and, true_and]
    have hcount := List.Nodup.count (a := (⟨node, bit⟩ : ActiveAlarm)) (nodup_wordAlarms node w)
    simp only [mem_wordAlarms, true_and] at hcount
    exact hcount
  · simp [hword]

/-- The laid-out alarms: word, bit and short name. -/
def laidOut : List (String × Nat × String) :=
  RackBit.NAMES.map (fun p => ("rack", p)) ++ BlockBit.NAMES.map (fun p => ("block", p)) ++
    SiteBit.NAMES.map fun p => ("site", p)

def spelled (t : String × Nat × String) : String := t.1 ++ "." ++ t.2.2

/-- How a position the layout leaves free is spelled, up to its number. -/
def UNLAID : List String := ["unlaid.", "rack.bit", "block.bit", "site.bit"]

theorem spelled_inj : ∀ t ∈ laidOut, ∀ t' ∈ laidOut, spelled t = spelled t' → t = t' := by decide

theorem unlaid_not_prefix : ∀ t ∈ laidOut, ∀ u ∈ UNLAID,
    u.toList.isPrefixOf (spelled t).toList = false := by decide

theorem unlaid_ne {t : String × Nat × String} (ht : t ∈ laidOut) {u : String} (hu : u ∈ UNLAID)
    (x : String) : u ++ x ≠ spelled t := by
  intro h
  have hprefix := unlaid_not_prefix t ht u hu
  rw [← h, String.toList_append, List.isPrefixOf_iff_prefix.mpr (List.prefix_append _ _)] at hprefix
  cases hprefix

theorem mem_laidOut (node : AlarmNode) (p : Nat × String) :
    (node.word, p) ∈ laidOut ↔ p ∈ node.names := by
  cases node <;> simp [laidOut, AlarmNode.word, AlarmNode.names]

theorem laidOut_nodup : ∀ t ∈ laidOut, ∀ t' ∈ laidOut, t.1 = t'.1 → t.2.1 = t'.2.1 → t = t' := by
  decide

/-- A name of the table is the name of its own word and bit, and of no other. -/
theorem name_iff {t : String × Nat × String} (ht : t ∈ laidOut) (node : AlarmNode) (bit : Nat)
    {u : String} (hu : u ∈ UNLAID) :
    (match node.names.find? fun p => p.1 == bit with
      | some (_, name) => node.word ++ "." ++ name
      | none => u ++ toString bit) = spelled t ↔ node.word = t.1 ∧ bit = t.2.1 := by
  cases hfind : node.names.find? fun p => p.1 == bit with
  | none =>
    apply iff_of_false (unlaid_ne ht hu _)
    rintro ⟨hword, hbit⟩
    have hmem : t.2 ∈ node.names := by
      rw [← mem_laidOut, hword]
      exact ht
    have hnot := List.find?_eq_none.mp hfind t.2 hmem
    simp [hbit] at hnot
  | some p =>
    obtain ⟨i, name⟩ := p
    have hmem := (mem_laidOut node (i, name)).mpr (List.mem_of_find?_eq_some hfind)
    have hi : i = bit := by simpa using List.find?_some hfind
    constructor
    · intro h
      have ht' := spelled_inj _ hmem t ht h
      rw [← ht']
      exact ⟨rfl, hi.symm⟩
    · rintro ⟨hword, hbit⟩
      have ht' := laidOut_nodup _ hmem t ht hword (hi.trans hbit)
      rw [← ht']
      rfl

theorem nameOf_iff {t : String × Nat × String} (ht : t ∈ laidOut) (node : AlarmNode) (bit : Nat) :
    AlarmKpis.nameOf node bit = spelled t ↔ node.word = t.1 ∧ bit = t.2.1 := by
  have hu : "unlaid." ∈ UNLAID := by decide
  exact name_iff ht node bit hu

theorem alarmName_iff {t : String × Nat × String} (ht : t ∈ laidOut) (node : AlarmNode) (bit : Nat) :
    node.alarmName bit = spelled t ↔ node.word = t.1 ∧ bit = t.2.1 := by
  have hu : node.word ++ ".bit" ∈ UNLAID := by cases node <;> simp [UNLAID, AlarmNode.word]
  rw [← name_iff ht node bit hu, AlarmNode.alarmName]
  cases node.names.find? fun p => p.1 == bit <;> rfl

theorem sum_indicator {α : Type} (p : α → Prop) [DecidablePred p] (xs : List α) :
    (xs.map fun x => if p x then 1 else 0).sum = xs.countP fun x => decide (p x) := by
  induction xs with
  | nil => rfl
  | cons x xs ih =>
    by_cases hx : p x
    · simp [hx, ih]
      omega
    · simp [hx, ih]

/-- A word's own rows are counted over that word alone. -/
theorem countP_isAlarm (word : String) (bit : Nat) (s : SiteState F) :
    (walkAlarms s).countP (isAlarm word bit) =
      (if "site" = word then [s.alarmBits].countP fun w => hasBit w bit else 0) +
      (if "block" = word then (s.blocks.map BlockState.alarmBits).countP fun w => hasBit w bit else 0) +
      (if "rack" = word then (s.racks.map RackState.alarmBits).countP fun w => hasBit w bit else 0) := by
  have hsite : ∀ w, (wordAlarms .site w).countP (isAlarm word bit) =
      if "site" = word ∧ hasBit w bit = true then 1 else 0 := countP_wordAlarms word bit .site
  have hblock : ∀ b w, (wordAlarms (.block b) w).countP (isAlarm word bit) =
      if "block" = word ∧ hasBit w bit = true then 1 else 0 :=
    fun b => countP_wordAlarms word bit (.block b)
  have hrack : ∀ b c r w, (wordAlarms (.rack b c r) w).countP (isAlarm word bit) =
      if "rack" = word ∧ hasBit w bit = true then 1 else 0 :=
    fun b c r => countP_wordAlarms word bit (.rack b c r)
  have hcount := countP_walk hsite hblock hrack s
  rw [sum_indicator, sum_indicator] at hcount
  rw [hcount]
  simp only [List.countP_map]
  congr 1
  · congr 1
    · split <;> simp_all
    · split
      · next h => simp [h, Function.comp_def]
      · next h => simp [h]
  · split
    · next h => simp [h, Function.comp_def]
    · next h => simp [h]

/-- Every gauge counts the rows of its own alarm. -/
theorem gauge_counts (s : SiteState F) : ∀ g ∈ alarmGauges s, ∃ t ∈ laidOut, g.alarm = spelled t ∧
    g.active = (walkAlarms s).countP (isAlarm t.1 t.2.1) := by
  intro g hg
  simp only [alarmGauges, activeGauges, List.mem_append, List.mem_map] at hg
  rcases hg with (⟨p, hp, rfl⟩ | ⟨p, hp, rfl⟩) | ⟨p, hp, rfl⟩
  · have ht : ("rack", p) ∈ laidOut := (mem_laidOut (.rack 0 0 0) p).mpr hp
    exact ⟨("rack", p), ht, rfl, by simp [countP_isAlarm]⟩
  · have ht : ("block", p) ∈ laidOut := (mem_laidOut (.block 0) p).mpr hp
    exact ⟨("block", p), ht, rfl, by simp [countP_isAlarm]⟩
  · have ht : ("site", p) ∈ laidOut := (mem_laidOut .site p).mpr hp
    exact ⟨("site", p), ht, rfl, by simp [countP_isAlarm]⟩

/-- Whether an event raises an alarm that is picked. -/
def raises (P : ActiveAlarm → Bool) : Event → Bool
  | .alarmRaised node bit _ => P ⟨node, bit⟩
  | .alarmCleared .. => false
  | .pcsStateChanged .. => false
  | .faultApplied _ => false

def clears (P : ActiveAlarm → Bool) : Event → Bool
  | .alarmRaised .. => false
  | .alarmCleared node bit _ => P ⟨node, bit⟩
  | .pcsStateChanged .. => false
  | .faultApplied _ => false

/-- The edge an event is. -/
def edgeOf : Event → Option (ActiveAlarm × Bool × Bool)
  | .alarmRaised node bit _ => some (⟨node, bit⟩, false, true)
  | .alarmCleared node bit _ => some (⟨node, bit⟩, true, false)
  | .pcsStateChanged .. => none
  | .faultApplied _ => none

theorem movesOf_edges (a : ActiveAlarm) (log : List Event) :
    movesOf a (log.filterMap edgeOf) = log.filterMap (bitMove a.node a.bit) := by
  obtain ⟨node, bit⟩ := a
  rw [movesOf, List.filterMap_filterMap]
  congr 1
  funext e
  cases e <;> simp [edgeOf, bitMove]

theorem edges_real (log : List Event) : ∀ m ∈ log.filterMap edgeOf, m.2.1 ≠ m.2.2 := by
  intro m hm
  obtain ⟨e, -, he⟩ := List.mem_filterMap.mp hm
  cases e <;> simp only [edgeOf, Option.some.injEq, reduceCtorEq] at he <;> simp [← he]

theorem rises_edges (P : ActiveAlarm → Bool) (log : List Event) :
    rises P (log.filterMap edgeOf) = log.countP (raises P) := by
  rw [rises, List.countP_filterMap]
  congr 1
  funext e
  cases e <;> simp [edgeOf, raises]

theorem falls_edges (P : ActiveAlarm → Bool) (log : List Event) :
    falls P (log.filterMap edgeOf) = log.countP (clears P) := by
  rw [falls, List.countP_filterMap]
  congr 1
  funext e
  cases e <;> simp [edgeOf, clears]

/-- Where the events tell how a dark tree came to be, the raises are the clears and what is active. -/
theorem raises_balance {s s' : SiteState F} {log : List Event} (h : Tells s log s')
    (hdark : ∀ node, wordOf s node = 0#32) (P : ActiveAlarm → Bool) :
    log.countP (raises P) = log.countP (clears P) + (walkAlarms s').countP P := by
  have hpaths : ∀ a : ActiveAlarm, Path (decide (a ∈ (∅ : Finset ActiveAlarm)))
      (movesOf a (log.filterMap edgeOf)) (decide (a ∈ (walkAlarms s').toFinset)) := by
    intro a
    have hpath := h.bits a.node a.bit
    rw [hdark, hasBit_zero, ← movesOf_edges] at hpath
    have hafter : decide (a ∈ (walkAlarms s').toFinset) = hasBit (wordOf s' a.node) a.bit := by
      rw [Bool.eq_iff_iff, decide_eq_true_eq, List.mem_toFinset, mem_walk]
    rw [hafter]
    exact hpath
  have hbalance := rises_balance P (edges_real log) hpaths
  have hcard : ((walkAlarms s').toFinset.filter fun a => P a).card = (walkAlarms s').countP P := by
    rw [← List.toFinset_filter, List.toFinset_card_of_nodup ((nodup_walk s').filter _),
      List.countP_eq_length_filter]
  rw [rises_edges, falls_edges, hcard, Finset.filter_empty, Finset.card_empty] at hbalance
  omega

/-- Whether an event raises an alarm counted under a name. -/
def raisesName (name : String) : Event → Bool :=
  raises fun a => AlarmKpis.nameOf a.node a.bit == name

/-- A name counts its raises, and is absent without one. -/
theorem observe_raised (k : AlarmKpis) (log : List Event) (name : String) :
    (k.observe log).raisedByAlarm name =
      if log.countP (raisesName name) = 0 then k.raisedByAlarm name
      else some ((k.raisedByAlarm name).getD 0 + log.countP (raisesName name)) := by
  induction log generalizing k with
  | nil => simp [AlarmKpis.observe]
  | cons e log ih =>
    have hrest := ih (k.count e)
    rw [AlarmKpis.observe] at hrest
    rw [AlarmKpis.observe, List.foldl_cons, hrest, List.countP_cons]
    cases e with
    | alarmRaised node bit severity =>
      by_cases hname : AlarmKpis.nameOf node bit = name
      · have hhead : raisesName name (.alarmRaised node bit severity) = true := by
          simp [raisesName, raises, hname]
        have hcounted : (k.count (.alarmRaised node bit severity)).raisedByAlarm name =
            some ((k.raisedByAlarm name).getD 0 + 1) := by simp [AlarmKpis.count, hname]
        rw [hhead, hcounted]
        by_cases hzero : log.countP (raisesName name) = 0
        · simp [hzero]
        · simp [hzero]
          omega
      · have hother : name ≠ AlarmKpis.nameOf node bit := fun h => hname h.symm
        simp [AlarmKpis.count, raisesName, raises, hname, hother]
    | alarmCleared node bit severity => simp [AlarmKpis.count, raisesName, raises]
    | pcsStateChanged block old new => simp [AlarmKpis.count, raisesName, raises]
    | faultApplied action => simp [AlarmKpis.count, raisesName, raises]

variable [Scalar F]

/-- Every surface counts the same alarms. Whatever a plant is put through, its list holds
exactly the bits set, each once, the trips first and the tree's order within; the published
count is the list's length; every gauge is the number of its alarm's rows; and the record's
raises of an alarm are its clears and those rows. -/
theorem surfaces_agree (cfg : PlantConfig F) (ems : EmsStrategy F) (seed : UInt64) (t : Int)
    (moves : List (Move F)) :
    let sim := Simulation.new cfg (gw01Models cfg ems) seed t
    let state := (sim.run moves).state
    let log := logOf sim moves
    let list := activeAlarms state
    (∀ a, a ∈ list ↔ hasBit (wordOf state a.node) a.bit = true) ∧ list.Nodup ∧
      list = (walkAlarms state).filter (fun a => a.key == false) ++
        (walkAlarms state).filter (fun a => a.key == true) ∧
      activeAlarmCount state = ((list.length : Nat) : F) ∧
      ∀ g ∈ alarmGauges state,
        g.active = list.countP (fun a => a.name == g.alarm) ∧
        ((AlarmKpis.zero.observe log).raisedByAlarm g.alarm).getD 0 =
          log.countP (clears fun a => a.name == g.alarm) + g.active := by
  intro sim state log list
  have hperm : list.Perm (walkAlarms state) := List.mergeSort_perm _ _
  have hclasses : list = (walkAlarms state).filter (fun a => a.key == false) ++
      (walkAlarms state).filter (fun a => a.key == true) := Ranking.mergeSort_classes ActiveAlarm.key _
  have htells : Tells sim.state log state := by
    have hrun := tells_run (sound_new cfg (gw01Models cfg ems) seed t) (lowRacks_gw01 cfg ems)
      (lowTree_new cfg seed t) moves sim.state [] (Tells.refl _) rfl
    exact hrun.1
  have hdark : ∀ node, wordOf sim.state node = 0#32 :=
    congrFun (congrArg Picture.words (pictureOf_new cfg seed t))
  refine ⟨fun a => ?_, hperm.nodup_iff.mpr (nodup_walk state), hclasses, ?_, fun g hg => ?_⟩
  · rw [hperm.mem_iff, mem_walk]
  · rw [activeAlarmCount_eq, hperm.length_eq]
  · obtain ⟨l, hl, hname, hactive⟩ := gauge_counts state g hg
    have hrow : ∀ a : ActiveAlarm, (a.name == g.alarm) = isAlarm l.1 l.2.1 a := by
      intro a
      rw [hname, Bool.eq_iff_iff, beq_iff_eq, isAlarm, decide_eq_true_eq]
      exact alarmName_iff hl a.node a.bit
    have hcounted : (fun a : ActiveAlarm => AlarmKpis.nameOf a.node a.bit == g.alarm) =
        isAlarm l.1 l.2.1 := by
      funext a
      rw [hname, Bool.eq_iff_iff, beq_iff_eq, isAlarm, decide_eq_true_eq]
      exact nameOf_iff hl a.node a.bit
    have hbalance := raises_balance htells hdark (isAlarm l.1 l.2.1)
    constructor
    · rw [hactive, hperm.countP_eq]
      simp only [hrow]
    · simp only [hrow]
      rw [observe_raised, raisesName, hcounted, hactive, ← hbalance]
      split
      · next hzero => rw [hzero]; rfl
      · exact Nat.zero_add _

end BessAlarms
