import BessEmulator.EventFeed

/-!
# The alarm points

The three alarm words, the counts read off them, and the event counter: every
point the map publishes on change, and nothing else. No two of them share an
MQTT topic.
-/
namespace Bess

section

variable {F : Type} [Scalar F]

/-- A word as the u16 register publishes it. -/
def wordU16 (word : BitVec 32) : F := (((word &&& 0xffff#32).toNat : Nat) : F)

/-- The block's rack words folded with OR. -/
def rackWordFold (block : BlockState F) : BitVec 32 :=
  block.racks.foldl (fun acc r => acc ||| r.alarmBits) 0#32

def countOnes (word : BitVec 32) : Nat := (List.range 32).countP fun i => word.getLsbD i

/-- Every alarm active on site: the set bits of every rack, block and site word. -/
def activeAlarmCount (s : SiteState F) : F :=
  let racks := (s.racks.map fun r => countOnes r.alarmBits).sum
  let blocks := (s.blocks.map fun b => countOnes b.alarmBits).sum
  ((racks + blocks + countOnes s.alarmBits : Nat) : F)

/-- The wrapping u16 a Modbus poller reads. -/
def EventLog.counterU16 (log : EventLog) : Nat := log.count % 65536

/-- First register of a block's original range in the input space. -/
def BLOCK_BASE : Nat := 1000

/-- First register of a block's second range. -/
def BLOCK_EXT_BASE : Nat := 2000

/-- Register stride between blocks, in both ranges. -/
def BLOCK_STRIDE : Nat := 10

def blockBase (b : Nat) : Nat := BLOCK_BASE + b * BLOCK_STRIDE

def blockExtBase (b : Nat) : Nat := BLOCK_EXT_BASE + b * BLOCK_STRIDE

/-- A point of the alarm table: one unscaled input register, published on change. -/
def alarmPoint (name unit : String) (addr : Nat) (extract : SiteState F → F) : Point F where
  name := name
  unit := unit
  pointClass := .event
  encoding := .u16
  scale := 1.0
  addr := addr
  space := .input
  extract := extract

/-- The site's alarm points. -/
def siteAlarmPoints : List (Point F) :=
  [alarmPoint "site.alarm_count" "count" 31 activeAlarmCount,
    alarmPoint "site.alarm_bits" "bitfield" 42 fun s => wordU16 s.alarmBits,
    alarmPoint "site.event_counter" "count" 43 fun s => ((s.eventLog.counterU16 : Nat) : F)]

/-- What a block's point reads; the map has a point of the configured blocks only. -/
def ofBlock (b : Nat) (read : BlockState F → F) (s : SiteState F) : F :=
  match s.blocks[b]? with
  | some block => read block
  | none => 0

/-- Block `b`'s alarm points, in both per-block ranges. -/
def blockAlarmPoints (b : Nat) : List (Point F) :=
  [alarmPoint (blockPrefix b ++ ".alarm_bits") "bitfield" (blockBase b + 6)
      (ofBlock b fun block => wordU16 (rackWordFold block)),
    alarmPoint (blockPrefix b ++ ".block_alarm_bits") "bitfield" (blockExtBase b)
      (ofBlock b fun block => wordU16 block.alarmBits),
    alarmPoint (blockPrefix b ++ ".racks_derated") "count" (blockExtBase b + 1)
      (ofBlock b fun block =>
        ((block.racks.countP fun r => hasBit r.alarmBits RackBit.DERATE_ACTIVE : Nat) : F))]

/-- Every point of the map that is published on change, in the order of the table. -/
def alarmPoints (blocks : Nat) : List (Point F) :=
  siteAlarmPoints ++ (List.range blocks).flatMap blockAlarmPoints

theorem alarmPoints_event (blocks : Nat) :
    ∀ p ∈ (alarmPoints blocks : List (Point F)), p.pointClass = .event := by
  intro p hp
  rcases List.mem_append.mp hp with hsite | hblock
  · simp only [siteAlarmPoints, List.mem_cons, List.not_mem_nil, or_false] at hsite
    rcases hsite with rfl | rfl | rfl <;> rfl
  · obtain ⟨b, -, hb⟩ := List.mem_flatMap.mp hblock
    simp only [blockAlarmPoints, List.mem_cons, List.not_mem_nil, or_false] at hb
    rcases hb with rfl | rfl | rfl <;> rfl

end

section

variable {F : Type}

/-- The digits of a block's number, a leading zero before a single one. -/
def blockDigits (b : Nat) : List Char :=
  if b < 10 then '0' :: Nat.toDigits 10 b else Nat.toDigits 10 b

theorem blockPrefix_toList (b : Nat) :
    (blockPrefix b).toList = "block".toList ++ blockDigits b := by
  rw [blockPrefix, blockDigits]
  split
  · rw [String.toList_append]
    simp only [Nat.toString_eq_repr, Nat.toList_repr]
    rfl
  · rw [String.toList_append]
    simp only [Nat.toString_eq_repr, Nat.toList_repr]
    rfl

/-- A leading zero does not change the number read back. -/
theorem ofDigitChars_blockDigits (b : Nat) : Nat.ofDigitChars 10 (blockDigits b) 0 = b := by
  rw [blockDigits]
  split
  · rw [Nat.ofDigitChars_cons]
    exact Nat.ofDigitChars_ten_toDigits
  · exact Nat.ofDigitChars_ten_toDigits

theorem slash_notMem_blockDigits (b : Nat) : '/' ∉ blockDigits b := by
  have hdigits : '/' ∉ Nat.toDigits 10 b := fun h =>
    absurd (Nat.isDigit_of_mem_toDigits (by decide) (by decide) h) (by decide)
  rw [blockDigits]
  split
  · exact List.not_mem_cons_of_ne_of_not_mem (by decide) hdigits
  · exact hdigits

/-- A dotted name as a path. -/
def pathChar (c : Char) : Char := if c = '.' then '/' else c

theorem pointTopic_inj {m n : String} (h : pointTopic m = pointTopic n) :
    m.toList.map pathChar = n.toList.map pathChar := by
  have hlist := congrArg String.toList h
  simp only [pointTopic, String.toList_append, String.toList_map] at hlist
  exact List.append_cancel_left hlist

theorem blockDigits_path (b : Nat) : (blockDigits b).map pathChar = blockDigits b := by
  have hdot : ∀ c ∈ blockDigits b, pathChar c = c := by
    intro c hc
    rw [pathChar, if_neg]
    rintro rfl
    have hdigits : '.' ∉ Nat.toDigits 10 b := fun h =>
      absurd (Nat.isDigit_of_mem_toDigits (by decide) (by decide) h) (by decide)
    rw [blockDigits] at hc
    split at hc
    · rcases List.mem_cons.mp hc with hz | hd
      · exact absurd hz (by decide)
      · exact hdigits hd
    · exact hdigits hc
  exact (List.map_congr_left hdot).trans (List.map_id _)

/-- The path of a block's point: the block's number up to the slash, then the rest. -/
theorem block_path (b : Nat) (rest : String) :
    (blockPrefix b ++ "." ++ rest).toList.map pathChar =
      "block".toList ++ (blockDigits b ++ '/' :: rest.toList.map pathChar) := by
  simp only [String.toList_append, blockPrefix_toList, List.map_append, blockDigits_path,
    List.append_assoc]
  rfl

/-- Two such paths are of one block and one rest. -/
theorem block_path_inj {b b' : Nat} {rest rest' : String}
    (h : pointTopic (blockPrefix b ++ "." ++ rest) = pointTopic (blockPrefix b' ++ "." ++ rest')) :
    b = b' ∧ rest.toList.map pathChar = rest'.toList.map pathChar := by
  have hpath := pointTopic_inj h
  rw [block_path, block_path] at hpath
  have hafter := List.append_cancel_left hpath
  have htake : ∀ (b : Nat) (cs : List Char),
      (blockDigits b ++ '/' :: cs).takeWhile (fun c => c != '/') = blockDigits b := by
    intro b cs
    rw [List.takeWhile_append_of_pos]
    · simp
    · intro c hc
      simp only [bne_iff_ne, ne_eq]
      rintro rfl
      exact slash_notMem_blockDigits b hc
  have hdigits : blockDigits b = blockDigits b' := by
    rw [← htake b (rest.toList.map pathChar), hafter, htake]
  have hb : b = b' := by
    rw [← ofDigitChars_blockDigits b, hdigits, ofDigitChars_blockDigits]
  rw [hdigits] at hafter
  exact ⟨hb, (List.cons.inj (List.append_cancel_left hafter)).2⟩

/-- The name of a point as a topic. -/
def topics (points : List (Point F)) : List String := points.map fun p => pointTopic p.name

theorem blockTopics_eq [Scalar F] (b : Nat) :
    topics (blockAlarmPoints b : List (Point F)) =
      ["alarm_bits", "block_alarm_bits", "racks_derated"].map
        fun rest => pointTopic (blockPrefix b ++ "." ++ rest) := by
  have hdot : ∀ rest : String, blockPrefix b ++ "." ++ rest = blockPrefix b ++ ("." ++ rest) :=
    fun rest => String.append_assoc
  simp only [hdot]
  rfl

theorem siteTopics_nodup [Scalar F] : (topics (siteAlarmPoints : List (Point F))).Nodup := by
  have hpath : ["site.alarm_count", "site.alarm_bits", "site.event_counter"].map
      (fun n => n.toList.map pathChar) |>.Nodup := by decide
  have hnames : (topics (siteAlarmPoints : List (Point F))) =
      ["site.alarm_count", "site.alarm_bits", "site.event_counter"].map pointTopic := rfl
  rw [hnames]
  exact List.Nodup.map_on (fun m hm n hn he => List.inj_on_of_nodup_map hpath hm hn (pointTopic_inj he))
    (by decide)

theorem blockTopics_nodup [Scalar F] (b : Nat) :
    (topics (blockAlarmPoints b : List (Point F))).Nodup := by
  have hpath : (["alarm_bits", "block_alarm_bits", "racks_derated"].map
      fun rest => rest.toList.map pathChar).Nodup := by decide
  rw [blockTopics_eq]
  exact List.Nodup.map_on
    (fun m hm n hn he => List.inj_on_of_nodup_map hpath hm hn (block_path_inj he).2) (by decide)

/-- No two points published on change share a topic. -/
theorem alarmTopics_nodup [Scalar F] (blocks : Nat) :
    (topics (alarmPoints blocks : List (Point F))).Nodup := by
  rw [topics, alarmPoints, List.map_append, List.map_flatMap, List.nodup_append]
  refine ⟨siteTopics_nodup, ?_, ?_⟩
  · rw [List.nodup_flatMap]
    refine ⟨fun b _ => blockTopics_nodup b, ?_⟩
    refine List.Nodup.pairwise_of_forall_ne List.nodup_range fun b _ b' _ hne t ht ht' => ?_
    have hb : t ∈ topics (blockAlarmPoints b : List (Point F)) := ht
    have hb' : t ∈ topics (blockAlarmPoints b' : List (Point F)) := ht'
    rw [blockTopics_eq] at hb hb'
    obtain ⟨rest, -, rfl⟩ := List.mem_map.mp hb
    obtain ⟨rest', -, he⟩ := List.mem_map.mp hb'
    exact hne (block_path_inj he).1.symm
  · intro t ht t' ht' he
    obtain ⟨b, -, hb⟩ := List.mem_flatMap.mp ht'
    have hb' : t' ∈ topics (blockAlarmPoints b : List (Point F)) := hb
    rw [blockTopics_eq] at hb'
    obtain ⟨rest, -, rfl⟩ := List.mem_map.mp hb'
    have hsite : t ∈ ["site.alarm_count", "site.alarm_bits", "site.event_counter"].map pointTopic := ht
    obtain ⟨n, hn, rfl⟩ := List.mem_map.mp hsite
    -- a site's path begins with an s, a block's with a b
    have hpath := pointTopic_inj he
    rw [block_path] at hpath
    have hhead : ∀ n ∈ ["site.alarm_count", "site.alarm_bits", "site.event_counter"],
        (n.toList.map pathChar).head? = some 's' := by decide
    have hs := hhead n hn
    rw [hpath] at hs
    cases hs

end

end Bess
