import ShipServer.DropItems
import ShipServer.QuestSetup

set_option autoImplicit false

namespace ShipServer.DropGenerators

open Versions DropItems QuestSetup

/-- A guard of an ItemPMT file, as far as drops go. -/
structure PmtGuard where
  index : BitVec 32
  dfpRange : BitVec 8
  evpRange : BitVec 8

/-- The contents of an ItemPMT file. Of weapons and units only the index counts. -/
structure Pmt where
  haveData : Bool
  numWeaponTypes : ℤ
  numWeapons : ℤ → ℤ
  weapons : ℤ → ℤ → BitVec 32
  weaponLowest : BitVec 32
  numGuardTypes : ℤ
  numGuards : ℤ → ℤ
  guards : ℤ → ℤ → PmtGuard
  numUnits : ℤ
  units : ℤ → BitVec 32
  starMax : BitVec 32
  starTable : BitVec 32 → BitVec 8
  unitsByStars : BitVec 32 → BitVec 64
  unitsWithStars : BitVec 8 → BitVec 32
  unitMaxStars : BitVec 8

/-- `parts[k]` of an item code. -/
def part (code : BitVec 32) (k : ℕ) : ℤ :=
  (code.extractLsb' (8 * k) 8).toNat

/-- `pmt_lookup_weapon_v2` and its two siblings. -/
def pmtLookupWeapon (pmt : Pmt) (code : BitVec 32) : Option (BitVec 32) :=
  if pmt.haveData = false then none
  else if part code 0 ≠ 0 then none
  else if pmt.numWeaponTypes < part code 1 then none
  else if pmt.numWeapons (part code 1) ≤ part code 2 then none
  else some (pmt.weapons (part code 1) (part code 2))

/-- `pmt_lookup_guard_v2` and its two siblings. -/
def pmtLookupGuard (pmt : Pmt) (code : BitVec 32) : Option PmtGuard :=
  if pmt.haveData = false then none
  else if part code 0 ≠ 1 then none
  else if part code 1 = 3 then none
  else if pmt.numGuardTypes < part code 1 then none
  else if pmt.numGuards (part code 1 - 1) ≤ part code 2 then none
  else some (pmt.guards (part code 1 - 1) (part code 2))

/-- `pmt_lookup_unit_v2` and its two siblings. -/
def pmtLookupUnit (pmt : Pmt) (code : BitVec 32) : Option (BitVec 32) :=
  if pmt.haveData = false then none
  else if part code 0 ≠ 1 ∨ part code 1 ≠ 3 then none
  else if pmt.numUnits ≤ part code 2 then none
  else some (pmt.units (part code 2))

/-- The stars of an item without stars. -/
def noStars : BitVec 8 := 255

def starsOf (pmt : Pmt) : Option (BitVec 32) → BitVec 8
  | none => noStars
  | some index =>
    if pmt.starMax < index - pmt.weaponLowest then noStars
    else pmt.starTable (index - pmt.weaponLowest)

/-- `pmt_lookup_stars_v2` and its two siblings. -/
def pmtLookupStars (pmt : Pmt) (code : BitVec 32) : BitVec 8 :=
  if pmt.haveData = false then noStars
  else if part code 0 = 0 then starsOf pmt (pmtLookupWeapon pmt code)
  else if part code 0 = 1 ∧ (part code 1 = 1 ∨ part code 1 = 2) then
    starsOf pmt ((pmtLookupGuard pmt code).map PmtGuard.index)
  else if part code 0 = 1 ∧ part code 1 = 3 then starsOf pmt (pmtLookupUnit pmt code)
  else noStars

/-- `pmt_random_unit_v2` and its two siblings. -/
def pmtRandomUnit (pmt : Pmt) (stars : BitVec 8) : Gen ItemWords := do
  let rnd ← genrand
  let stars := if pmt.unitMaxStars < stars then pmt.unitMaxStars else stars
  let unit := pmt.unitsByStars (rnd % pmt.unitsWithStars stars)
  return ⟨unit.truncate 32, (unit >>> 32).truncate 32, 0, 0⟩

def boosts (pmt : Pmt) : GuardLookup :=
  fun code => (pmtLookupGuard pmt code).map fun g => (g.dfpRange, g.evpRange)

/-- An entry of an ItemRT file. The rate is `expd` of `expand_rate`. -/
structure RtData where
  prob : BitVec 32
  itemData : BitVec 32
  area : BitVec 32

/-- A set of rare item data, for one difficulty and section ID. -/
structure RtSet where
  enemyRares : ℕ → RtData
  boxRares : List RtData

/-- The first box entry of an area whose roll succeeds. -/
def rollBoxes (rules : ItemRules) (area : BitVec 32) : List RtData → Gen (BitVec 32)
  | [] => return 0
  | rt :: rest => do
    if rt.area = area then
      let rnd ← genrand
      if rules.realBelow rnd rt.prob then return rt.itemData else rollBoxes rules area rest
    else rollBoxes rules area rest

/-- `rt_generate_v2_rare` and `rt_generate_gc_rare`, with `none` for the set if no file is there. -/
def rtGenerateRare (rules : ItemRules) (set : Option RtSet) (rtIndex : ℤ) (area : ℤ) :
    Gen (BitVec 32) := do
  match set with
  | none => return 0
  | some set =>
    if rtIndex < -1 ∨ 100 < rtIndex then return -1
    if 0 ≤ rtIndex then
      let rnd ← genrand
      let rt := set.enemyRares rtIndex.toNat
      if rules.realBelow rnd rt.prob then return rt.itemData else return 0
    else rollBoxes rules (BitVec.ofInt 32 area) set.boxRares

/-- An entry of a map's enemies. -/
structure GameEnemy where
  dropDone : Bool
  deriving DecidableEq

/-- An entry of a map's objects. -/
structure GameObject where
  skin : BitVec 32
  dword : Vector (BitVec 32) 4
  flags : BitVec 32
  deriving DecidableEq

structure GameMap where
  enemies : List GameEnemy
  objs : List GameObject
  deriving DecidableEq

/-- An enemy or a box of the map. -/
inductive MapEntry where
  | enemy (mid : ℕ)
  | box (objId : ℕ)
  deriving DecidableEq

/-- What the quest or the ship makes of a drop: whether a rare may be rolled for, and whether
items with nine or more stars are held back. -/
structure DropPolicy where
  doRare : Bool
  csr : Bool

/-- A request for a drop, and what else its handling meets: the client's area and version, the
memory behind the arrays of the map, and the words that `item` has before they are set. -/
structure DropInput where
  version : ClientVersion
  curArea : ℤ
  ptIndex : BitVec 8
  req : BitVec 16
  behindEnemies : GameEnemy
  behindObjs : GameObject
  unset : BitVec 32 × BitVec 32 × BitVec 32

/-- The parts of a generator that are its own: the ItemPT entry, the kinds of items, the rares, the
policy of the quest for an enemy and for a box (`none` if it drops nothing), and the last checks
before an item is sent. -/
structure Generation where
  ent : PtEntry
  weapon : ℤ → Option (BitVec 32) → Gen (Option ItemWords)
  armor : ℤ → Option (BitVec 32) → Gen (Option ItemWords)
  shield : ℤ → Option (BitVec 32) → Gen (Option ItemWords)
  unit : BitVec 8 → Gen ItemWords
  tool : ℤ → Gen (Option ItemWords)
  stackOfOne : BitVec 32 → ItemWords
  mag : ItemWords
  rareUnit : BitVec 32 → ItemWords
  rare : ℤ → ℤ → Gen (BitVec 32)
  enemyPolicy : ℕ → ℕ → Option DropPolicy
  boxPolicy : Option DropPolicy
  send : ItemWords → Bool → Option ItemWords

/-- What comes of a request. `decided` is the entry whose drop has been decided, `chosen` is the
item that is handed to the last checks, and `sent` is the one that gets through them. -/
structure Attempt where
  ret : ℤ
  map : GameMap
  rng : Rng
  decided : Option MapEntry
  chosen : Option ItemWords
  sent : Option ItemWords

/-- A request that comes to nothing. -/
def refuse (ret : ℤ) (map : GameMap) (rng : Rng) : Attempt where
  ret := ret
  map := map
  rng := rng
  decided := none
  chosen := none
  sent := none

/-- The index into the tables of an area: bosses count as the area behind them. There is none for
Pioneer 2. -/
def dropArea (episode area : ℤ) : Option ℤ :=
  if episode = 0 ∨ episode = 1 then
    if area = 11 then some 2
    else if area = 12 then some 5
    else if area = 13 then some 7
    else if area = 14 then some 9
    else if 14 < area then some 9
    else if area = 0 then none
    else some (area - 1)
  else if episode = 2 then
    if area = 14 then some 2
    else if area = 15 then some 5
    else if area = 12 then some 8
    else if area = 13 then some 9
    else if 10 < area then some 9
    else if area = 0 then none
    else some (area - 1)
  else some (area - 1)

namespace Generation

/-- The rest of an item whose first word comes from the rares. -/
def rareItem (G : Generation) (area : ℤ) (item0 : BitVec 32) : Gen (Option ItemWords) :=
  if part item0 0 = 0 then G.weapon area (some item0)
  else if part item0 0 = 1 then
    if part item0 1 = 1 then G.armor area (some item0)
    else if part item0 1 = 2 then G.shield area (some item0)
    else if part item0 1 = 3 then pure (some (G.rareUnit item0))
    else pure none
  else if part item0 0 = 2 then pure (some G.mag)
  else if part item0 0 = 3 then pure (some (G.stackOfOne item0))
  else pure none

/-- The rare item, if there is to be one, or else one of the common items. -/
def orRare (G : Generation) (area : ℤ) (policy : DropPolicy) (rtIndex rtArea : ℤ)
    (common : Gen (Option ItemWords)) : Gen (Option ItemWords) := do
  let item0 ← (if policy.doRare then G.rare rtIndex rtArea else pure 0)
  if item0 ≠ 0 then G.rareItem area item0 else common

/-- The type of item that an enemy is designated to drop. -/
def designated (G : Generation) (area : ℤ) (ptIndex : ℕ) : Gen (Option ItemWords) :=
  let kind := (G.ent.enemyDrop ptIndex).toInt
  if kind = 0 then G.weapon area none
  else if kind = 1 then G.armor area none
  else if kind = 2 then G.shield area none
  else if kind = 3 then do return some (← G.unit (G.ent.unitLevel area))
  else pure none

def commonEnemy (G : Generation) (area : ℤ) (ptIndex : ℕ) : Gen (Option ItemWords) := do
  let rnd ← genrand
  if rnd % 3 = 0 then G.designated area ptIndex
  else if rnd % 3 = 1 then G.tool area
  else generateMeseta (G.ent.enemyMeseta ptIndex)

/-- The item that an enemy drops, with the policy that applies to it. -/
def enemyItem (G : Generation) (area : ℤ) (mid ptIndex : ℕ) :
    Gen (Option (ItemWords × DropPolicy)) := do
  let rnd ← genrand
  if ¬rnd % 100 < (G.ent.enemyDar ptIndex).signExtend 32 then return none
  match G.enemyPolicy mid ptIndex with
  | none => return none
  | some policy =>
    let item ← G.orRare area policy ptIndex 0 (G.commonEnemy area ptIndex)
    return item.map fun it => (it, policy)

/-- The first bytes of a 32-bit value last, as `ntohl` has them. -/
def ntohl (w : BitVec 32) : BitVec 32 :=
  w.extractLsb' 0 8 ++ w.extractLsb' 8 8 ++ w.extractLsb' 16 8 ++ w.extractLsb' 24 8

/-- The float with these bits is between `1.0f - EPSILON` and `1.0f + EPSILON`. The bits of positive
floats are in the order of the floats. -/
def nearOne (bits : BitVec 32) : Bool :=
  0x3F7FBE77 < bits ∧ bits < 0x3F8020C5

def fixedType (obj : GameObject) : Bool :=
  (obj.skin = 0x00000092 ∨ obj.skin = 0x00000161) ∧ nearOne (obj.dword[0]) = true

def fullyFixed (obj : GameObject) : Bool :=
  fixedType obj && nearOne (obj.dword[1])

/-- The item of a fully fixed box. -/
def fixedItem (G : Generation) (obj : GameObject) : ItemWords :=
  let item := G.stackOfOne (ntohl (obj.dword[2]))
  if item.item0 = 0x00000004 then { item with item3 := (obj.dword[3] >>> 16) * 10 } else item

def boxMeseta (G : Generation) (area : ℤ) : Gen (Option ItemWords) :=
  generateMeseta (G.ent.boxMeseta area)

/-- A box of a fixed type. -/
def fixedTypeItem (G : Generation) (area : ℤ) (obj : GameObject) : Gen (Option ItemWords) :=
  let kind := part (ntohl (obj.dword[2])) 0
  if kind = 0 then G.weapon area none
  else if kind = 1 then G.armor area none
  else if kind = 3 then G.tool area
  else if kind = 4 then G.boxMeseta area
  else pure none

def commonBox (G : Generation) (area : ℤ) : Gen (Option ItemWords) := do
  let rnd ← genrand
  match pick 100 ((List.range 6).map fun i => (G.ent.boxDrop i area).zeroExtend 32) (rnd % 100) with
  | some 0 => G.weapon area none
  | some 1 => G.armor area none
  | some 2 => G.shield area none
  | some 3 => return some (← G.unit (G.ent.unitLevel area))
  | some 4 => G.tool area
  | some 5 => G.boxMeseta area
  | _ => return none

/-- The item that a box drops. -/
def boxItem (G : Generation) (area : ℤ) (obj : GameObject) :
    Gen (Option (ItemWords × DropPolicy)) := do
  match G.boxPolicy with
  | none => return none
  | some policy =>
    let item ← (
      if fixedType obj then
        if fullyFixed obj then pure (some (G.fixedItem obj)) else G.fixedTypeItem area obj
      else G.orRare area policy (-1) (area + 1) (G.commonBox area))
    return item.map fun it => (it, policy)

/-- The drop of an entry that has just been marked is decided. -/
def decide (G : Generation) (map : GameMap) (rng : Rng) (x : MapEntry)
    (item : Gen (Option (ItemWords × DropPolicy))) : Attempt :=
  let (item, rng) := item.run rng
  { ret := 0, map := map, rng := rng, decided := some x
    chosen := item.map Prod.fst
    sent := item.bind fun it => G.send it.1 it.2.csr }

/-- The part of the three functions for enemies from the check of the enemy's id on. -/
def enemyDrop (G : Generation) (area : ℤ) (r : DropInput) (map : GameMap) (rng : Rng) : Attempt :=
  let mid := r.req.toNat
  if map.enemies.length < mid then refuse (-1) map rng
  else
    let enemy := (map.enemies[mid]?).getD r.behindEnemies
    if enemy.dropDone then refuse 0 map rng
    else
      let map := { map with enemies := map.enemies.set mid { enemy with dropDone := true } }
      G.decide map rng (.enemy mid) (G.enemyItem area mid r.ptIndex.toNat)

/-- The part of the three functions for boxes from the check of the object's id on. -/
def boxDrop (G : Generation) (episode : ℤ) (r : DropInput) (map : GameMap) (rng : Rng) : Attempt :=
  let objId := r.req.toNat
  if map.objs.length < objId then refuse (-1) map rng
  else
    let gobj := (map.objs[objId]?).getD r.behindObjs
    if gobj.flags &&& 0x00000001 ≠ 0 then refuse 0 map rng
    else
      match dropArea episode r.curArea with
      | none => refuse (-1) map rng
      | some area =>
        let opened := { gobj with flags := gobj.flags ||| 0x00000001 }
        let map := { map with objs := map.objs.set objId opened }
        G.decide map rng (.box objId) (G.boxItem area gobj)

end Generation

/-- The versions of items that a list of limits knows. -/
inductive ItemVersion where
  | v1
  | v2
  | gc
  | xbox
  deriving DecidableEq

/-- The tables and settings of the ship, with the values of `SYLVERANT_QUEST_ENDROP_*`. -/
structure DropEnv where
  rules : ItemRules
  v2Pt : ℤ → ℤ → PtEntry
  gcPt : ℤ → ℤ → ℤ → PtEntry
  bbPt : ℤ → ℤ → ℤ → PtEntry
  v2Rt : Option (ℤ → ℤ → RtSet)
  gcRt : Option (ℤ → ℤ → ℤ → RtSet)
  v2Pmt : Pmt
  gcPmt : Pmt
  bbPmt : Pmt
  questRares : Bool
  questSrares : Bool
  endropSdrops : BitVec 32
  endropNone : BitVec 32
  endropNorare : BitVec 32
  endropPartial : BitVec 32
  endropFree : BitVec 32

/-- The game that drops are generated for. The record of a player is a union: `v1Section` and
`bbSection` are the bytes of the leader's record that the layouts have their section ID in. -/
structure DropLobby where
  version : ClientVersion
  episode : ℤ
  difficulty : ℤ
  v1Section : ℤ
  bbSection : ℤ
  qid : BitVec 32
  mids : List QEnemy
  mtypes : List QEnemy
  limits : Option (ItemVersion → ItemWords → Bool)

/-- The value that `quest_search_enemy_list` has for an id. -/
def questSearchEnemyList (env : DropEnv) (id : ℕ) : List QEnemy → BitVec 32
  | [] => 0xFFFFFFFF
  | q :: rest =>
    if q.key = BitVec.ofNat 32 id ∧ q.mask &&& env.endropSdrops ≠ 0 then q.value &&& 0xFF
    else questSearchEnemyList env id rest

/-- Outside of quests everything may drop. -/
def freely : DropPolicy where
  doRare := true
  csr := false

/-- What the ship allows in a quest without a policy of its own. -/
def shipPolicy (env : DropEnv) : DropPolicy where
  doRare := env.questRares
  csr := !env.questSrares

def v2Policy (env : DropEnv) (qdrop : BitVec 32) : Option DropPolicy :=
  if qdrop = env.endropNone then none
  else if qdrop = env.endropNorare then some { doRare := false, csr := true }
  else if qdrop = env.endropPartial then some { doRare := false, csr := false }
  else if qdrop = env.endropFree then some { doRare := true, csr := false }
  else some (shipPolicy env)

def v2EnemyPolicy (env : DropEnv) (l : DropLobby) (mid ptIndex : ℕ) : Option DropPolicy :=
  if l.qid = 0 then some freely
  else
    let byId := questSearchEnemyList env mid l.mids
    let byType := questSearchEnemyList env ptIndex l.mtypes
    v2Policy env (if byId = 0xFFFFFFFF then byType else byId)

def v2BoxPolicy (env : DropEnv) (l : DropLobby) : Option DropPolicy :=
  if l.qid = 0 then some freely else v2Policy env (questSearchEnemyList env 0x30 l.mtypes)

/-- The policy of the two later generations, for enemies and for boxes. -/
def v3Policy (env : DropEnv) (l : DropLobby) : DropPolicy :=
  if l.qid = 0 then freely else shipPolicy env

def itemVersion : ClientVersion → Option ItemVersion
  | .dcv1 => some .v1
  | .dcv2 => some .v2
  | .pc => some .v2
  | .gc => some .gc
  | .xbox => some .xbox
  | _ => none

/-- The stars that count against an item which is not to be too rare. -/
def restrictedStars (env : DropEnv) (l : DropLobby) (item0 : BitVec 32) : BitVec 8 :=
  match l.version with
  | .dcv1 | .dcv2 | .pc => pmtLookupStars env.v2Pmt item0
  | .gc | .xbox => pmtLookupStars env.gcPmt item0
  | _ => 0

/-- The part of `check_and_send` before the label `ok`, from the check of the stars on. -/
def checkStars (env : DropEnv) (l : DropLobby) (item : ItemWords) (csr : Bool) :
    Option ItemWords :=
  let stars := if csr then restrictedStars env l item.item0 else 0
  if stars ≠ noStars ∧ 9 ≤ stars then none else some item

def checkAndSend (env : DropEnv) (l : DropLobby) (version : ClientVersion) (item : ItemWords)
    (csr : Bool) : Option ItemWords :=
  match l.limits with
  | none => checkStars env l item csr
  | some check =>
    match itemVersion version with
    | none => some item
    | some v => if check v item then checkStars env l item csr else none

def checkAndSendBb (env : DropEnv) (item : ItemWords) (csr : Bool) : Option ItemWords :=
  if csr = true ∧ 9 ≤ pmtLookupStars env.bbPmt item.item0 then none else some item

/-- Only the first word of a unit from the rares is set. -/
def rareUnit (r : DropInput) (item0 : BitVec 32) : ItemWords :=
  ⟨item0, r.unset.1, r.unset.2.1, r.unset.2.2⟩

def v2Generation (env : DropEnv) (l : DropLobby) (r : DropInput) : Generation :=
  let ent := env.v2Pt l.difficulty l.v1Section
  { ent := ent
    weapon := generateWeaponV2 env.rules (l.version = .dcv1) ent
    armor := generateArmor (boosts env.v2Pmt) ent
    shield := generateShield (boosts env.v2Pmt) ent
    unit := pmtRandomUnit env.v2Pmt
    tool := generateToolV2 env.rules ent
    stackOfOne := stackOfOne env.rules
    mag := ⟨0x00050002, 0x000101F4, 0x00010001, 0x00280000⟩
    rareUnit := rareUnit r
    rare := rtGenerateRare env.rules (env.v2Rt.map fun t => t l.difficulty l.v1Section)
    enemyPolicy := v2EnemyPolicy env l
    boxPolicy := v2BoxPolicy env l
    send := checkAndSend env l r.version }

/-- What the two later generations have in common: the section ID for the rares is read from the
layout of version 1. -/
def v3Generation (env : DropEnv) (l : DropLobby) (r : DropInput) (ent : PtEntry) (pmt : Pmt)
    (mag : ItemWords) (send : ItemWords → Bool → Option ItemWords) : Generation where
  ent := ent
  weapon := generateWeaponV3 env.rules ent
  armor := generateArmor (boosts pmt) ent
  shield := generateShield (boosts pmt) ent
  unit := pmtRandomUnit pmt
  tool := generateToolV3 env.rules ent
  stackOfOne := stackOfOne env.rules
  mag := mag
  rareUnit := rareUnit r
  rare := rtGenerateRare env.rules
    (env.gcRt.map fun t => t (l.episode - 1) l.difficulty l.v1Section)
  enemyPolicy _ _ := some (v3Policy env l)
  boxPolicy := some (v3Policy env l)
  send := send

def gcMag : ItemWords := ⟨0x00050002, 0x000001F4, 0x00000000, 0x280000FF⟩
def bbMag : ItemWords := ⟨0x00050002, 0x000001F4, 0x00000000, 0xFF000028⟩

def gcGeneration (env : DropEnv) (l : DropLobby) (r : DropInput) : Generation :=
  v3Generation env l r (env.gcPt (l.episode - 1) l.difficulty l.v1Section) env.gcPmt gcMag
    (checkAndSend env l r.version)

/-- The tables of an episode, by the index that a function of the last generation uses. -/
def bbGeneration (env : DropEnv) (l : DropLobby) (r : DropInput) (episode : ℤ) : Generation :=
  v3Generation env l r (env.bbPt episode l.difficulty l.bbSection) env.bbPmt bbMag
    (checkAndSendBb env)

def ptGenerateV2Boxdrop (env : DropEnv) (l : DropLobby) (r : DropInput) (map : GameMap)
    (rng : Rng) : Attempt :=
  if r.ptIndex ≠ 0x30 then refuse (-1) map rng
  else (v2Generation env l r).boxDrop 1 r map rng

def ptGenerateV2Drop (env : DropEnv) (l : DropLobby) (r : DropInput) (map : GameMap)
    (rng : Rng) : Attempt :=
  if 0x33 < r.ptIndex then refuse (-1) map rng
  else if r.ptIndex = 0x30 then ptGenerateV2Boxdrop env l r map rng
  else
    match dropArea 1 r.curArea with
    | none => refuse (-1) map rng
    | some area => (v2Generation env l r).enemyDrop area r map rng

def ptGenerateGcBoxdrop (env : DropEnv) (l : DropLobby) (r : DropInput) (map : GameMap)
    (rng : Rng) : Attempt :=
  if r.ptIndex ≠ 0x30 then refuse (-1) map rng
  else (gcGeneration env l r).boxDrop l.episode r map rng

def ptGenerateGcDrop (env : DropEnv) (l : DropLobby) (r : DropInput) (map : GameMap)
    (rng : Rng) : Attempt :=
  if r.ptIndex = 0x30 then ptGenerateGcBoxdrop env l r map rng
  else
    match dropArea l.episode r.curArea with
    | none => refuse (-1) map rng
    | some area => (gcGeneration env l r).enemyDrop area r map rng

/-- The ItemPT entry is not that of the episode, but of the one behind it. -/
def ptGenerateBbBoxdrop (env : DropEnv) (l : DropLobby) (r : DropInput) (map : GameMap)
    (rng : Rng) : Attempt :=
  if l.episode = 3 then refuse 0 map rng
  else if r.ptIndex ≠ 0x30 then refuse (-1) map rng
  else (bbGeneration env l r l.episode).boxDrop l.episode r map rng

def ptGenerateBbDrop (env : DropEnv) (l : DropLobby) (r : DropInput) (map : GameMap)
    (rng : Rng) : Attempt :=
  if l.episode = 3 then refuse 0 map rng
  else if r.ptIndex = 0x30 then ptGenerateBbBoxdrop env l r map rng
  else
    match dropArea l.episode r.curArea with
    | none => refuse (-1) map rng
    | some area => (bbGeneration env l r (l.episode - 1)).enemyDrop area r map rng

end ShipServer.DropGenerators
