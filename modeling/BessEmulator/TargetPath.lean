import BessEmulator.Schema
import BessEmulator.Word64

/-!
# Target paths

State-tree addresses checked against the site: `site`, `block[N]`,
`block[N].pcs`, `block[N].container[C].hvac` and
`block[N].container[C].rack[R]`. A refusal says what the site has at the level
that failed.
-/
namespace Bess

/-- A path that names nothing on this site. -/
structure TargetError where
  /-- The path as far as it was read. -/
  «at» : String
  expected : String
  deriving DecidableEq, Repr

/-- `name[N]` with a plain index: none if it is not spelled so, else the index
or what is wrong with it. -/
def indexed (part : List Char) (name : String) : Option (Except String Nat) :=
  match (name.toList.isPrefixOf? part).bind fun rest => ['['].isPrefixOf? rest with
  | none => none
  | some inner =>
    if inner.getLast? = some ']' then
      let inner := inner.dropLast
      let plain := !inner.isEmpty && inner.all Char.isDigit &&
        (inner = ['0'] || inner.head? ≠ some '0')
      some <|
        if plain then
          match U64.ofDigits inner with
          | some n => .ok n
          | none => .error (String.ofList inner ++ " is not an index")
        else .error s!"indices are plain zero-based numbers, as in {name}[2]"
    else none

variable {F : Type}

def Target.kind : Target → String
  | .site => "site"
  | .block _ => "block"
  | .pcs _ => "pcs"
  | .hvac _ _ => "hvac"
  | .rack _ _ _ => "rack"

/-- The scope of an operator reset on this node, if it takes one. -/
def Target.resetScope : Target → Option ResetScope
  | .site => some .site
  | .block b => some (.block b)
  | .rack b c r => some (.rack b c r)
  | .pcs _ | .hvac _ _ => none

/-- The node an action acts on. -/
def Target.of : FaultAction → Target
  | .hvacFailure b c | .hvacRepair b c => .hvac b c
  | .pcsTrip b => .pcs b
  | .protectionTrip | .alarmReset .site => .site
  | .blockMaintenanceEnter b | .blockMaintenanceExit b | .alarmReset (.block b) => .block b
  | .rackSelfDischarge b c r _ | .rackIsolate b c r | .rackRestore b c r
  | .alarmReset (.rack b c r) => .rack b c r

/-- The path as a file writes it. -/
def Target.display : Target → String
  | .site => "site"
  | .block b => s!"block[{b}]"
  | .pcs b => s!"block[{b}].pcs"
  | .hvac b c => s!"block[{b}].container[{c}].hvac"
  | .rack b c r => s!"block[{b}].container[{c}].rack[{r}]"

/-- A refusal at part `upto` of a path. -/
def Target.fail {α : Type} (parts : List (List Char)) (upto : Nat) (expected : String) :
    Except TargetError α :=
  .error ⟨String.ofList (['.'].intercalate (parts.take (upto + 1))), expected⟩

/-- What a container's part names. -/
def Target.parseUnit (parts : List (List Char)) (cfg : PlantConfig F) (b c : Nat) :
    Except TargetError Target :=
  let containerHas :=
    s!"a container has `hvac` and `rack[0]` to `rack[{U64.sub cfg.racksPerContainer 1}]`"
  let target : Except TargetError Target :=
    match parts[2]? with
    | none => Target.fail parts 1 "a container is not a target; name its `hvac` or a `rack[R]`"
    | some third =>
      if third = "hvac".toList then .ok (.hvac b c)
      else
        match indexed third "rack" with
        | some (.ok r) =>
          if r < cfg.racksPerContainer then .ok (.rack b c r)
          else Target.fail parts 2 containerHas
        | some (.error why) => Target.fail parts 2 why
        | none => Target.fail parts 2 containerHas
  match target with
  | .error e => .error e
  | .ok target =>
    if 3 < parts.length then
      Target.fail parts 3 s!"{target.kind} has no parts a scenario addresses"
    else .ok target

/-- What a block's part names. -/
def Target.parseContainer (parts : List (List Char)) (cfg : PlantConfig F) (b : Nat) :
    Except TargetError Target :=
  let blockHas :=
    s!"a block has `pcs` and `container[0]` to `container[{U64.sub cfg.containersPerBlock 1}]`"
  match parts[1]? with
  | none => .ok (.block b)
  | some second =>
    if second = "pcs".toList then
      if parts.length = 2 then .ok (.pcs b)
      else Target.fail parts 2 "a PCS has no parts a scenario addresses"
    else
      match indexed second "container" with
      | some (.ok c) =>
        if c < cfg.containersPerBlock then Target.parseUnit parts cfg b c
        else Target.fail parts 1 blockHas
      | some (.error why) => Target.fail parts 1 why
      | none => Target.fail parts 1 blockHas

/-- `Target::parse`: the node a path names on this site. -/
def Target.parse (path : String) (cfg : PlantConfig F) : Except TargetError Target :=
  let parts := path.toList.splitOn '.'
  let roots :=
    s!"a path starts at `site` or `block[N]`, N from 0 to {U64.sub cfg.blocks 1}"
  if parts = ["site".toList] then .ok .site
  else
    match indexed (parts.headD []) "block" with
    | some (.ok b) =>
      if b < cfg.blocks then Target.parseContainer parts cfg b
      else Target.fail parts 0 s!"this site has block[0] to block[{U64.sub cfg.blocks 1}]"
    | some (.error why) => Target.fail parts 0 why
    | none => Target.fail parts 0 roots

/-- Whether a plant of this configuration has the node. -/
def Target.Exists (cfg : PlantConfig F) : Target → Prop
  | .site => True
  | .block b => b < cfg.blocks
  | .pcs b => b < cfg.blocks
  | .hvac b c => b < cfg.blocks ∧ c < cfg.containersPerBlock
  | .rack b c r => b < cfg.blocks ∧ c < cfg.containersPerBlock ∧ r < cfg.racksPerContainer

theorem Target.parseUnit_exists {parts : List (List Char)} {cfg : PlantConfig F} {b c : Nat}
    {t : Target} (hb : b < cfg.blocks) (hc : c < cfg.containersPerBlock)
    (h : Target.parseUnit parts cfg b c = .ok t) : t.Exists cfg := by
  have hunit : ∀ {target : Except TargetError Target},
      (match target with
        | .error e => .error e
        | .ok target =>
          if 3 < parts.length then
            Target.fail parts 3 s!"{target.kind} has no parts a scenario addresses"
          else .ok target) = Except.ok t → target = .ok t := by
    intro target ht
    cases target with
    | error e => cases ht
    | ok target =>
      dsimp only at ht
      split at ht
      · cases ht
      · exact ht
  have htarget := hunit h
  split at htarget
  · cases htarget
  · split at htarget
    · cases htarget
      exact ⟨hb, hc⟩
    · split at htarget
      · split at htarget
        · rename_i hr
          cases htarget
          exact ⟨hb, hc, hr⟩
        · cases htarget
      · cases htarget
      · cases htarget

theorem Target.parseContainer_exists {parts : List (List Char)} {cfg : PlantConfig F} {b : Nat}
    {t : Target} (hb : b < cfg.blocks) (h : Target.parseContainer parts cfg b = .ok t) :
    t.Exists cfg := by
  dsimp only [Target.parseContainer] at h
  split at h
  · cases h
    exact hb
  · split at h
    · split at h
      · cases h
        exact hb
      · cases h
    · split at h
      · split at h
        · rename_i hc
          exact Target.parseUnit_exists hb hc h
        · cases h
      · cases h
      · cases h

/-- A path that parses names a node the plant has. -/
theorem Target.parse_exists {path : String} {cfg : PlantConfig F} {t : Target}
    (h : Target.parse path cfg = .ok t) : t.Exists cfg := by
  dsimp only [Target.parse] at h
  split at h
  · cases h
    trivial
  · split at h
    · split at h
      · rename_i hb
        exact Target.parseContainer_exists hb h
      · cases h
    · cases h
    · cases h

/-- `Selector::parse`: the part of the plant a data fault's `points` names. -/
def Selector.parse (text : String) (cfg : PlantConfig F) : Except TargetError Selector :=
  if text = "*" then .ok .all
  else
    match Target.parse text cfg with
    | .error e => .error e
    | .ok .site => .ok .site
    | .ok (.block b) => .ok (.block b)
    | .ok (.pcs b) => .ok (.pcs b)
    | .ok finer =>
      .error ⟨text, "points are selected with `*`, `site`, `block[N]` or `block[N].pcs`; " ++
        s!"the surfaces publish nothing per {finer.kind}"⟩

end Bess
