import ShipServer.Versions

set_option autoImplicit false

namespace ShipServer.DropItems

open Versions

/-- The numbers that a random number generator is still to give. -/
abbrev Rng := ℕ → BitVec 32

abbrev Gen (α : Type) := StateM Rng α

/-- `mt19937_genrand_int32`. -/
def genrand : Gen (BitVec 32) :=
  modifyGet fun rng => (rng 0, fun n => rng (n + 1))

/-- The first weight that takes a number below zero, which the source sees by the number going
over the limit. -/
def pick (limit : BitVec 32) : List (BitVec 32) → BitVec 32 → Option ℕ
  | [], _ => none
  | w :: weights, rnd =>
    let rnd := rnd - w
    if limit < rnd then some 0 else (pick limit weights rnd).map (· + 1)

/-- An entry of an ItemPT file, for one difficulty and section ID. The arrays are indexed as in the
source, and what lies behind an array belongs to it. -/
structure PtEntry where
  weaponRatio : ℕ → BitVec 8
  weaponMinrank : ℕ → BitVec 8
  weaponUpgfloor : ℕ → BitVec 8
  powerPattern : ℕ → ℤ → BitVec 8
  percentPattern : ℕ → ℤ → BitVec 16
  areaPattern : ℕ → ℤ → BitVec 8
  percentAttachment : ℕ → ℤ → BitVec 8
  elementRanking : ℤ → BitVec 8
  elementProbability : ℤ → BitVec 8
  armorRanking : ℕ → BitVec 8
  slotRanking : ℕ → BitVec 8
  unitLevel : ℤ → BitVec 8
  toolFrequency : ℕ → ℤ → BitVec 16
  techFrequency : ℕ → ℤ → BitVec 8
  techLevels : ℕ → ℤ → BitVec 8
  enemyDar : ℕ → BitVec 8
  enemyMeseta : ℕ → BitVec 16 × BitVec 16
  enemyDrop : ℕ → BitVec 8
  boxMeseta : ℤ → BitVec 16 × BitVec 16
  boxDrop : ℕ → ℤ → BitVec 8
  armorLevel : ℤ

/-- The four words of an item. -/
structure ItemWords where
  item0 : BitVec 32
  item1 : BitVec 32
  item2 : BitVec 32
  item3 : BitVec 32
  deriving DecidableEq

/-- `item_b[k]` for a byte of the first word. -/
def ItemWords.byte (it : ItemWords) (k : ℕ) : BitVec 8 :=
  it.item0.extractLsb' (8 * k) 8

def putByte (w : BitVec 32) (k : ℕ) (b : BitVec 8) : BitVec 32 :=
  w &&& ~~~((0xFF : BitVec 32) <<< (8 * k)) ||| b.zeroExtend 32 <<< (8 * k)

/-- `item_b[k] = b`. -/
def ItemWords.setByte (it : ItemWords) (k : ℕ) (b : BitVec 8) : ItemWords :=
  if k < 4 then { it with item0 := putByte it.item0 k b }
  else if k < 8 then { it with item1 := putByte it.item1 (k - 4) b }
  else if k < 12 then { it with item2 := putByte it.item2 (k - 8) b }
  else { it with item3 := putByte it.item3 (k - 12) b }

/-- An item of which only the first word is not zero. -/
def ItemWords.plain (item0 : BitVec 32) : ItemWords :=
  ⟨item0, 0, 0, 0⟩

/-- What is known about items outside of the tables: the attributes of weapons, what comes in
stacks, and whether `mt19937_genrand_real1` is less than a rate. -/
structure ItemRules where
  attrList : ℤ → ℕ → BitVec 32
  isStackable : BitVec 32 → Bool
  realBelow : BitVec 32 → BitVec 32 → Bool

def attrCount (ranking : ℤ) : BitVec 32 :=
  ([8, 10, 12, 12][ranking.toNat]?).getD 0

/-- A type of weapon that may be generated, with its rank and grind pattern. -/
structure WeaponType where
  wtype : ℤ
  ratio : BitVec 8
  wrank : ℤ
  gptrn : ℤ

/-- The rank goes up as often as the upgrade floor fits into the area. -/
def upgrade (upgfloor : ℤ) : ℕ → ℤ → ℤ → ℤ × ℤ
  | 0, wrank, warea => (wrank, warea)
  | n + 1, wrank, warea =>
    if 0 ≤ warea - upgfloor then upgrade upgfloor n (wrank + 1) (warea - upgfloor)
    else (wrank, warea)

def weaponType (ent : PtEntry) (area : ℤ) (i : ℕ) : WeaponType :=
  let minrank := (ent.weaponMinrank i).toInt
  let warea := if 0 ≤ minrank then area else minrank + area
  let wrank := if 0 ≤ minrank then minrank else 0
  let up := upgrade (ent.weaponUpgfloor i).toInt warea.toNat wrank warea
  { wtype := i, ratio := ent.weaponRatio i, wrank := up.1, gptrn := min up.2 3 }

/-- The types of weapons that an area has, unless one of them has no sane upgrade floor. -/
def weaponTypes (ent : PtEntry) (area : ℤ) : List ℕ → Option (List WeaponType)
  | [] => some []
  | i :: rest =>
    if 0 ≤ (ent.weaponMinrank i).toInt + area ∧ 0 < (ent.weaponRatio i).toInt then
      if (ent.weaponUpgfloor i).toInt ≤ 0 then none
      else (weaponTypes ent area rest).map (weaponType ent area i :: ·)
    else weaponTypes ent area rest

/-- The weapon before its grind value, and the grind pattern to use. -/
def weaponBase (ent : PtEntry) (area : ℤ) : Gen (Option (BitVec 32 × ℤ)) := do
  match weaponTypes ent area (List.range 12) with
  | none => return none
  | some [] => return none
  | some types =>
    let wchance := BitVec.ofInt 32 (types.map fun t => t.ratio.toInt).sum
    let rnd ← genrand
    match pick wchance (types.map fun t => t.ratio.signExtend 32) (rnd % wchance) with
    | none => return none
    | some i =>
      return types[i]?.map fun t =>
        (BitVec.ofInt 32 (t.wtype + 1) <<< 8 ||| BitVec.ofInt 32 t.wrank <<< 16, t.gptrn)

/-- The item of a weapon with the percentages so far, and the ones that are in use. -/
structure Percents where
  item : ItemWords
  npcts : ℕ
  upcts : List ℕ

/-- One of the three percentages of a weapon. -/
def weaponPercent (ent : PtEntry) (scale : BitVec 32) (area : ℤ) (s : Percents) (i : ℕ) :
    Gen Percents := do
  let warea := (ent.areaPattern i area).toInt
  if warea < 0 then return s
  let rnd ← genrand
  match pick scale ((List.range 23).map fun j => (ent.percentPattern j warea).zeroExtend 32)
      (rnd % scale) with
  | none => return s
  | some j =>
    -- zero percent
    if j = 2 then return s
    let rnd ← genrand
    match pick 100 ((List.range 6).map fun k => (ent.percentAttachment k area).signExtend 32)
        (rnd % 100) with
    | none => return s
    | some k =>
      if k = 0 ∨ k ∈ s.upcts then return s
      let item := s.item.setByte (2 * s.npcts + 6) (BitVec.ofNat 8 k)
      let item := item.setByte (2 * s.npcts + 7) (BitVec.ofInt 8 ((j - 2) * 5))
      return { item := item, npcts := s.npcts + 1, upcts := k :: s.upcts }

/-- The element of a weapon, or the mark of one that has to be appraised. -/
def weaponElement (rules : ItemRules) (ent : PtEntry) (area : ℤ) (semirare marked : Bool)
    (item : ItemWords) : Gen ItemWords := do
  let ranking := (ent.elementRanking area).toInt
  if semirare = false ∧ ranking ≠ 0 then
    let rnd ← genrand
    if rnd % 100 < (ent.elementProbability area).signExtend 32 then
      let rnd ← genrand
      let attr := (rnd % attrCount (ranking - 1)).toNat
      return { item with item1 := 0x80 ||| rules.attrList (ranking - 1) attr }
    else return item
  else if marked then return { item with item1 := 0x80 }
  else return item

/-- The part of `generate_weapon_v2` and `generate_weapon_v3` behind `already_picked`. -/
def finishWeapon (rules : ItemRules) (scale : BitVec 32) (ent : PtEntry) (area : ℤ)
    (item0 : BitVec 32) (warea : ℤ) (semirare marked : Bool) : Gen (Option ItemWords) := do
  let rnd ← genrand
  match pick 100 ((List.range 9).map fun i => (ent.powerPattern i warea).signExtend 32)
      (rnd % 100) with
  | none => return none
  | some i =>
    let item := ItemWords.plain (item0 ||| BitVec.ofNat 32 i <<< 24)
    let s ← [0, 1, 2].foldlM (weaponPercent ent scale area) { item := item, npcts := 0, upcts := [] }
    return some (← weaponElement rules ent area semirare marked s.item)

def isSemirare (it : ItemWords) : Bool :=
  (10 ≤ it.byte 1 ∧ 3 < it.byte 2) ∨ 4 < it.byte 2

/-- `generate_weapon_v2` and `generate_weapon_v3`, which have percentages in different units and
mark different weapons. -/
def generateWeapon (rules : ItemRules) (scale : BitVec 32) (v1 : Bool) (ent : PtEntry) (area : ℤ)
    (picked : Option (BitVec 32)) : Gen (Option ItemWords) := do
  match picked with
  | some item0 =>
    let it := ItemWords.plain item0
    let rare : Bool := 12 < it.byte 1
    let semirare := rare || isSemirare it
    finishWeapon rules scale ent area item0 3 semirare (rare || v1 && semirare)
  | none =>
    match ← weaponBase ent area with
    | none => return none
    | some (item0, warea) =>
      if item0 = 0 then return none
      let semirare := isSemirare (.plain item0)
      finishWeapon rules scale ent area item0 warea semirare (v1 && semirare)

def generateWeaponV2 (rules : ItemRules) (v1 : Bool) (ent : PtEntry) (area : ℤ)
    (picked : Option (BitVec 32)) : Gen (Option ItemWords) :=
  generateWeapon rules 100 v1 ent area picked

def generateWeaponV3 (rules : ItemRules) (ent : PtEntry) (area : ℤ)
    (picked : Option (BitVec 32)) : Gen (Option ItemWords) :=
  generateWeapon rules 10000 false ent area picked

/-- The first word of a random armor or shield. -/
def armorBase (ent : PtEntry) (area : ℤ) (code : BitVec 32) : Gen (Option (BitVec 32)) := do
  let rnd ← genrand
  match pick 100 ((List.range 5).map fun i => (ent.armorRanking i).signExtend 32) (rnd % 100) with
  | none => return none
  | some i =>
    let armor := max (ent.armorLevel - 3 + area + i) 0
    return some (code ||| BitVec.ofInt 32 armor <<< 16)

/-- The ranges of the DFP and EVP boosts of an armor, by its code. -/
abbrev GuardLookup := BitVec 32 → Option (BitVec 8 × BitVec 8)

/-- The boosts of an armor or a shield: `item_w[3]` and `item_w[4]`. -/
def guardBoosts (guard : GuardLookup) (it : ItemWords) : Gen (Option ItemWords) := do
  match guard it.item0 with
  | none => return none
  | some (dfp, evp) =>
    let mut item := it
    if dfp ≠ 0 then
      let rnd ← genrand
      let boost := rnd % (dfp.zeroExtend 32 + 1)
      item := { item with item1 := item.item1 &&& 0xFFFF ||| boost <<< 16 }
    if evp ≠ 0 then
      let rnd ← genrand
      let boost := rnd % (evp.zeroExtend 32 + 1)
      item := { item with item2 := item.item2 &&& 0xFFFF0000 ||| boost &&& 0xFFFF }
    return some item

/-- `generate_armor_v2` and `generate_armor_v3`. -/
def generateArmor (guard : GuardLookup) (ent : PtEntry) (area : ℤ) (picked : Option (BitVec 32)) :
    Gen (Option ItemWords) := do
  match ← (match picked with
    | some item0 => pure (some item0)
    | none => armorBase ent area 0x00000101) with
  | none => return none
  | some item0 =>
    let rnd ← genrand
    let slots := pick 100 ((List.range 5).map fun i => (ent.slotRanking i).signExtend 32) (rnd % 100)
    let item := match slots with
      | none => ItemWords.plain item0
      | some i => (ItemWords.plain item0).setByte 5 (BitVec.ofNat 8 i)
    guardBoosts guard item

/-- `generate_shield_v2` and `generate_shield_v3`. -/
def generateShield (guard : GuardLookup) (ent : PtEntry) (area : ℤ)
    (picked : Option (BitVec 32)) : Gen (Option ItemWords) := do
  match ← (match picked with
    | some item0 => pure (some item0)
    | none => armorBase ent area 0x00000201) with
  | none => return none
  | some item0 => guardBoosts guard (.plain item0)

def itemDiskLv01 : BitVec 32 := 0x000203
def itemPhotonDrop : BitVec 32 := 0x001003
def itemNoSuchItem : BitVec 32 := 0xFFFFFF

/-- The tools in the order of the ItemPT files, from `Item_Monomate` on. -/
def toolBase : List (BitVec 32) :=
  [0x000003, 0x010003, 0x020003, 0x000103, 0x010103, 0x020103, 0x000603, 0x010603, 0x000303,
    0x000403, 0x000503, 0x000703, 0x000803, 0x000A03, 0x010A03, 0x020A03, 0x000B03, 0x010B03,
    0x020B03, 0x030B03, 0x040B03, 0x050B03, 0x060B03, 0x070B03, 0x000903, itemDiskLv01,
    itemPhotonDrop, itemNoSuchItem]

def generateToolBase (ent : PtEntry) (area : ℤ) : Gen (BitVec 32) := do
  let rnd ← genrand
  let i := pick 10000 ((List.range 28).map fun i => (ent.toolFrequency i area).zeroExtend 32)
    (rnd % 10000)
  return (i.bind fun i => toolBase[i]?).getD itemNoSuchItem

/-- The lower of a level and 29. -/
def capLevel (t : BitVec 8) : ℤ :=
  if 30 ≤ t.toInt then 29 else t.toInt

def generateTech (ent : PtEntry) (area : ℤ) (it : ItemWords) : Gen (Option ItemWords) := do
  let rnd ← genrand
  match pick 1000 ((List.range 19).map fun i => (ent.techFrequency i area).zeroExtend 32)
      (rnd % 1000) with
  | none => return none
  | some i =>
    let t1 := ent.techLevels i (2 * area)
    let t2 := ent.techLevels i (2 * area + 1)
    if t1.toInt = -1 ∨ t2.toInt < t1.toInt then return none
    let level :=
      if capLevel t1 < capLevel t2 then
        rnd / 1000 % BitVec.ofInt 32 (capLevel t2 + 1 - capLevel t1) + BitVec.ofInt 32 (capLevel t1)
      else BitVec.ofInt 32 (capLevel t1)
    return some { it with item0 := it.item0 ||| level <<< 16, item1 := BitVec.ofNat 32 i }

/-- A tool with a quantity of one if it is stackable. -/
def stackOfOne (rules : ItemRules) (item0 : BitVec 32) : ItemWords :=
  if rules.isStackable item0 then ⟨item0, 1 <<< 8, 0, 0⟩ else .plain item0

/-- `generate_tool_v2` and `generate_tool_v3`, of which the first refuses Photon Drops. -/
def generateTool (rules : ItemRules) (photonDrops : Bool) (ent : PtEntry) (area : ℤ) :
    Gen (Option ItemWords) := do
  let item0 ← generateToolBase ent area
  if item0 = itemPhotonDrop ∧ photonDrops = false ∨ item0 = itemNoSuchItem then return none
  let item := stackOfOne rules item0
  if item0 = itemDiskLv01 then generateTech ent area item
  else return some item

def generateToolV2 (rules : ItemRules) (ent : PtEntry) (area : ℤ) : Gen (Option ItemWords) :=
  generateTool rules false ent area

def generateToolV3 (rules : ItemRules) (ent : PtEntry) (area : ℤ) : Gen (Option ItemWords) :=
  generateTool rules true ent area

def generateMeseta (range : BitVec 16 × BitVec 16) : Gen (Option ItemWords) := do
  let min := range.1.toNat
  let max := range.2.toNat
  let amount ← (if min < max then do
      let rnd ← genrand
      return rnd % BitVec.ofNat 32 (max + 1 - min) + BitVec.ofNat 32 min
    else pure (BitVec.ofNat 32 min))
  if amount = 0 then return none
  else return some ⟨0x00000004, 0, 0, amount⟩

end ShipServer.DropItems
