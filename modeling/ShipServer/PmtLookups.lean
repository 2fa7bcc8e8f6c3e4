import ShipServer.DropGenerators

set_option autoImplicit false

/-! ItemPMT files: what the readers take out of one, and the lookups by item codes in it. -/

namespace ShipServer.PmtLookups

open DropGenerators

section Reading

/-- The memory around the buffer with the file, by the distance from its start. -/
abbrev Memory := ℤ → BitVec 8

/-- Where a version keeps its data: the pointers of each part, by their places in the table of
pointers, and the sizes and fields of its records. -/
structure PmtLayout where
  bigEndian : Bool
  ptrCount : ℕ
  weaponPtr : ℕ
  weaponEnd : ℕ
  guardPtr : ℕ
  guardEnd : ℕ
  unitPtr : ℕ
  starPtr : ℕ
  starEnd : ℕ
  weaponSize : ℕ
  guardSize : ℕ
  unitSize : ℕ
  dfpRange : ℕ
  evpRange : ℕ

def v2Layout : PmtLayout where
  bigEndian := false
  ptrCount := 21
  weaponPtr := 1
  weaponEnd := 11
  guardPtr := 2
  guardEnd := 3
  unitPtr := 3
  starPtr := 12
  starEnd := 13
  weaponSize := 24
  guardSize := 24
  unitSize := 12
  dfpRange := 18
  evpRange := 19

def gcLayout : PmtLayout where
  bigEndian := true
  ptrCount := 23
  weaponPtr := 0
  weaponEnd := 17
  guardPtr := 1
  guardEnd := 2
  unitPtr := 2
  starPtr := 11
  starEnd := 12
  weaponSize := 40
  guardSize := 28
  unitSize := 16
  dfpRange := 22
  evpRange := 23

def bbLayout : PmtLayout where
  bigEndian := false
  ptrCount := 23
  weaponPtr := 0
  weaponEnd := 17
  guardPtr := 1
  guardEnd := 2
  unitPtr := 2
  starPtr := 11
  starEnd := 12
  weaponSize := 44
  guardSize := 32
  unitSize := 20
  dfpRange := 26
  evpRange := 27

/-- A weapon, guard or unit, with its index apart. The bytes are those of the file. -/
structure PmtRecord where
  index : BitVec 32
  bytes : List (BitVec 8)

/-- What a reader leaves behind when it is through. The counts of the source are the lengths. -/
structure ItemPmt where
  weapons : List (List PmtRecord)
  weaponLowest : BitVec 32
  guards : List (List PmtRecord)
  units : List PmtRecord
  unitLowest : BitVec 32
  starTable : List (BitVec 8)

variable (lay : PmtLayout) (mem : Memory) (sz : BitVec 32)

def word (a : ℤ) : BitVec 32 :=
  if lay.bigEndian then mem a ++ mem (a + 1) ++ mem (a + 2) ++ mem (a + 3)
  else mem (a + 3) ++ mem (a + 2) ++ mem (a + 1) ++ mem a

/-- `read_ptr_tbl`, `read_gcptr_tbl` and `read_bbptr_tbl`. -/
def readPtrTbl : Option (ℕ → BitVec 32) :=
  let tmp := word lay mem ((sz.toNat : ℤ) - 16)
  if (sz - 16).toNat < tmp.toNat + 4 * lay.ptrCount then none
  else some fun i => word lay mem ((tmp.toNat : ℤ) + 4 * i)

/-- The table that the count and the pointer at an address stand for. -/
def readTable (size : ℕ) (a : ℤ) : Option (List PmtRecord) :=
  let count := word lay mem a
  let start := word lay mem (a + 4)
  if sz.toNat < start.toNat + size * count.toNat then none
  else some ((List.range count.toNat).map fun j =>
    let record : ℤ := start.toNat + size * j
    ⟨word lay mem record, (List.range size).map fun k => mem (record + k)⟩)

def readTables (size : ℕ) (start : BitVec 32) (cnt : ℕ) : Option (List (List PmtRecord)) :=
  (List.range cnt).mapM fun (i : ℕ) => readTable lay mem sz size ((start.toNat : ℤ) + 8 * i)

/-- `read_v2_weapons` and its two siblings. -/
def readWeapons (ptrs : ℕ → BitVec 32) : Option (List (List PmtRecord)) :=
  let start := ptrs lay.weaponPtr
  let past := ptrs lay.weaponEnd
  if sz < start ∨ past < start then none
  else readTables lay mem sz lay.weaponSize start ((past - start).toNat / 8)

/-- `read_v2_guards` and its two siblings. -/
def readGuards (ptrs : ℕ → BitVec 32) : Option (List (List PmtRecord)) :=
  let start := ptrs lay.guardPtr
  let past := ptrs lay.guardEnd
  if sz < past ∨ past < start then none
  else if (past - start).toNat / 8 ≠ 2 then none
  else readTables lay mem sz lay.guardSize start 2

/-- `read_v2_units` and its two siblings. -/
def readUnits (ptrs : ℕ → BitVec 32) : Option (List PmtRecord) :=
  let start := ptrs lay.unitPtr
  if sz < start then none
  else readTable lay mem sz lay.unitSize start.toNat

/-- The lowest index among some records, as the readers keep it. -/
def lowest (records : List PmtRecord) : BitVec 32 :=
  records.foldl (fun low record => if record.index < low then record.index else low) 0xFFFFFFFF

/-- `read_v2_stars` and its two siblings, which all compare with `num_units`: the number of units
of the PSOv2 file. -/
def readStars (ptrs : ℕ → BitVec 32) (unitLowest weaponLowest numUnits : BitVec 32) :
    Option (List (BitVec 8)) :=
  let start := ptrs lay.starPtr
  let past := ptrs lay.starEnd
  if sz < start ∨ sz < past ∨ past < start then none
  else if past - start < unitLowest + numUnits - weaponLowest then none
  else some ((List.range (past - start).toNat).map fun (i : ℕ) => mem ((start.toNat : ℤ) + i))

/-- The common part of the three readers. The argument gives `num_units` for the stars, from the
number of units that this file has. -/
def readPmt (numUnits : BitVec 32 → BitVec 32) : Option ItemPmt := do
  let ptrs ← readPtrTbl lay mem sz
  let weapons ← readWeapons lay mem sz ptrs
  let guards ← readGuards lay mem sz ptrs
  let units ← readUnits lay mem sz ptrs
  let weaponLowest := lowest weapons.flatten
  let unitLowest := lowest units
  let starTable ← readStars lay mem sz ptrs unitLowest weaponLowest
    (numUnits (BitVec.ofNat 32 units.length))
  return ⟨weapons, weaponLowest, guards, units, unitLowest, starTable⟩

/-- `pmt_read_v2`. -/
def pmtReadV2 (mem : Memory) (sz : BitVec 32) : Option ItemPmt :=
  readPmt v2Layout mem sz fun own => own

/-- `pmt_read_gc`, next to a PSOv2 file with the given number of units. -/
def pmtReadGc (mem : Memory) (sz v2Units : BitVec 32) : Option ItemPmt :=
  readPmt gcLayout mem sz fun _ => v2Units

/-- `pmt_read_bb`, next to a PSOv2 file with the given number of units. -/
def pmtReadBb (mem : Memory) (sz v2Units : BitVec 32) : Option ItemPmt :=
  readPmt bbLayout mem sz fun _ => v2Units

/-- A file that one of the readers takes, as that reader leaves it. -/
inductive Accepted : ItemPmt → Prop where
  | v2 {mem : Memory} {sz : BitVec 32} {d : ItemPmt} (h : pmtReadV2 mem sz = some d) : Accepted d
  | gc {mem : Memory} {sz v2Units : BitVec 32} {d : ItemPmt}
      (h : pmtReadGc mem sz v2Units = some d) : Accepted d
  | bb {mem : Memory} {sz v2Units : BitVec 32} {d : ItemPmt}
      (h : pmtReadBb mem sz v2Units = some d) : Accepted d

end Reading

section Lookups

/-- How a lookup ends: by reading something that was not loaded, with an error, or with an
entry. -/
inductive Lookup (α : Type) where
  | stray
  | refused
  | found (a : α)
  deriving DecidableEq

/-- An entry, or an error where there is none. -/
def Lookup.ofOption {α : Type} : Option α → Lookup α
  | none => .refused
  | some a => .found a

/-- `parts[k]` of an item code. -/
def codePart (code : BitVec 32) (k : ℕ) : ℕ :=
  (code.extractLsb' (8 * k) 8).toNat

namespace ItemPmt

/-- The entry of one table, behind the check against its count. -/
def lookupIn (tables : List (List PmtRecord)) (i j : ℕ) : Lookup PmtRecord :=
  match tables[i]? with
  | none => .stray
  | some table =>
    match table[j]? with
    | none => .refused
    | some record => .found record

variable (d : ItemPmt) (code : BitVec 32)

/-- `pmt_lookup_weapon_v2` and its two siblings. -/
def lookupWeapon : Lookup PmtRecord :=
  if codePart code 0 ≠ 0 then .refused
  else if d.weapons.length < codePart code 1 then .refused
  else lookupIn d.weapons (codePart code 1) (codePart code 2)

/-- `pmt_lookup_guard_v2` and its two siblings. There are no guards in front of the first type. -/
def lookupGuard : Lookup PmtRecord :=
  if codePart code 0 ≠ 1 then .refused
  else if codePart code 1 = 3 then .refused
  else if d.guards.length < codePart code 1 then .refused
  else if codePart code 1 = 0 then .stray
  else lookupIn d.guards (codePart code 1 - 1) (codePart code 2)

/-- `pmt_lookup_unit_v2` and its two siblings. -/
def lookupUnit : Lookup PmtRecord :=
  if codePart code 0 ≠ 1 ∨ codePart code 1 ≠ 3 then .refused
  else if d.units.length ≤ codePart code 2 then .refused
  else
    match d.units[codePart code 2]? with
    | none => .stray
    | some record => .found record

/-- The stars of an item that was looked up. -/
def starsFor : Lookup PmtRecord → Lookup (BitVec 8)
  | .stray => .stray
  | .refused => .refused
  | .found record =>
    if BitVec.ofNat 32 d.starTable.length < record.index - d.weaponLowest then .refused
    else
      match d.starTable[(record.index - d.weaponLowest).toNat]? with
      | none => .stray
      | some stars => .found stars

/-- `pmt_lookup_stars_v2` and its two siblings. An error is the value 255. -/
def lookupStars : Lookup (BitVec 8) :=
  if codePart code 0 = 0 then d.starsFor (d.lookupWeapon code)
  else if codePart code 0 = 1 ∧ (codePart code 1 = 1 ∨ codePart code 1 = 2) then
    d.starsFor (d.lookupGuard code)
  else if codePart code 0 = 1 ∧ codePart code 1 = 3 then d.starsFor (d.lookupUnit code)
  else .refused

/-- The loaded weapon that a code names. -/
def weaponAt : Option PmtRecord :=
  if codePart code 0 = 0 then (d.weapons[codePart code 1]?).bind (·[codePart code 2]?) else none

/-- The loaded armor or shield that a code names. -/
def guardAt : Option PmtRecord :=
  if codePart code 0 = 1 ∧ codePart code 1 ≠ 0 ∧ codePart code 1 ≠ 3 then
    (d.guards[codePart code 1 - 1]?).bind (·[codePart code 2]?)
  else none

/-- The loaded unit that a code names. -/
def unitAt : Option PmtRecord :=
  if codePart code 0 = 1 ∧ codePart code 1 = 3 then d.units[codePart code 2]? else none

/-- The loaded item that a code names. -/
def itemAt : Option PmtRecord :=
  (d.weaponAt code).or ((d.guardAt code).or (d.unitAt code))

/-- The loaded stars of the item that a code names. -/
def starsAt : Option (BitVec 8) :=
  (d.itemAt code).bind fun record => d.starTable[(record.index - d.weaponLowest).toNat]?

/-- The four lookups give the loaded entry that a code names, reading no other, or else an
error. -/
def Serves : Prop :=
  d.lookupWeapon code = .ofOption (d.weaponAt code) ∧
    d.lookupGuard code = .ofOption (d.guardAt code) ∧
    d.lookupUnit code = .ofOption (d.unitAt code) ∧
    d.lookupStars code = .ofOption (d.starsAt code)

end ItemPmt

end Lookups

section Accepting

variable {lay : PmtLayout} {mem : Memory} {sz : BitVec 32} {numUnits : BitVec 32 → BitVec 32}
variable {d : ItemPmt}

theorem length_of_mapM {α β : Type} {f : α → Option β} {xs : List α} {ys : List β}
    (h : xs.mapM f = some ys) : ys.length = xs.length := by
  induction xs generalizing ys with
  | nil =>
    cases h
    rfl
  | cons x xs ih =>
    rw [List.mapM_cons] at h
    obtain ⟨y, -, hrest⟩ := Option.bind_eq_some_iff.mp h
    obtain ⟨ys', hys', heq⟩ := Option.bind_eq_some_iff.mp hrest
    cases heq
    rw [List.length_cons, List.length_cons, ih hys']

theorem length_readTables {size : ℕ} {start : BitVec 32} {cnt : ℕ}
    {tables : List (List PmtRecord)} (h : readTables lay mem sz size start cnt = some tables) :
    tables.length = cnt := by
  rw [length_of_mapM h, List.length_range]

theorem length_readGuards {ptrs : ℕ → BitVec 32} {guards : List (List PmtRecord)}
    (h : readGuards lay mem sz ptrs = some guards) : guards.length = 2 := by
  rw [readGuards] at h
  split_ifs at h
  exact length_readTables h

theorem length_readStars {ptrs : ℕ → BitVec 32} {unitLowest weaponLowest units : BitVec 32}
    {starTable : List (BitVec 8)}
    (h : readStars lay mem sz ptrs unitLowest weaponLowest units = some starTable) :
    starTable.length < 2 ^ 32 := by
  rw [readStars] at h
  split_ifs at h
  cases h
  rw [List.length_map, List.length_range]
  exact BitVec.isLt _

/-- What the lookups rely on: two tables of guards, and a star table with a 32-bit size. -/
theorem readPmt_sizes (h : readPmt lay mem sz numUnits = some d) :
    d.guards.length = 2 ∧ d.starTable.length < 2 ^ 32 := by
  simp only [readPmt, Option.bind_eq_bind, Option.bind_eq_some_iff, Option.pure_def] at h
  obtain ⟨ptrs, -, weapons, -, guards, hguards, units, -, starTable, hstars, heq⟩ := h
  cases heq
  exact ⟨length_readGuards hguards, length_readStars hstars⟩

theorem Accepted.sizes (h : Accepted d) : d.guards.length = 2 ∧ d.starTable.length < 2 ^ 32 := by
  cases h with
  | v2 h => exact readPmt_sizes h
  | gc h => exact readPmt_sizes h
  | bb h => exact readPmt_sizes h

end Accepting

section Serving

namespace ItemPmt

variable {d : ItemPmt} (code : BitVec 32)

theorem lookupIn_eq {tables : List (List PmtRecord)} {i : ℕ} (hi : i < tables.length) (j : ℕ) :
    lookupIn tables i j = .ofOption ((tables[i]?).bind (·[j]?)) := by
  rw [lookupIn, List.getElem?_eq_getElem hi, Option.bind_some]
  dsimp only
  split <;> rename_i h <;> rw [h] <;> rfl

theorem lookupIn_length (tables : List (List PmtRecord)) (j : ℕ) :
    lookupIn tables tables.length j = .stray := by
  rw [lookupIn, List.getElem?_eq_none le_rfl]

/-- The check of the weapon type lets one type too many through. -/
theorem lookupWeapon_eq :
    d.lookupWeapon code =
      if codePart code 0 = 0 ∧ codePart code 1 = d.weapons.length then .stray
      else .ofOption (d.weaponAt code) := by
  unfold lookupWeapon weaponAt
  by_cases hkind : codePart code 0 = 0
  · rw [if_neg (not_not.mpr hkind), if_pos hkind]
    rcases lt_trichotomy (codePart code 1) d.weapons.length with hlow | heq | hhigh
    · rw [if_neg hlow.not_gt, if_neg fun h => hlow.ne h.2, lookupIn_eq hlow]
    · rw [if_neg (by omega), if_pos ⟨hkind, heq⟩, heq, lookupIn_length]
    · rw [if_pos hhigh, if_neg fun h => hhigh.ne' h.2, List.getElem?_eq_none hhigh.le]
      rfl
  · rw [if_pos hkind, if_neg fun h => hkind h.1, if_neg hkind]
    rfl

/-- The check of the guard type leaves out the type in front of the first one. -/
theorem lookupGuard_eq (hguards : d.guards.length = 2) :
    d.lookupGuard code =
      if codePart code 0 = 1 ∧ codePart code 1 = 0 then .stray
      else .ofOption (d.guardAt code) := by
  unfold lookupGuard guardAt
  rw [hguards]
  by_cases hkind : codePart code 0 = 1
  · rw [if_neg (not_not.mpr hkind)]
    by_cases hunit : codePart code 1 = 3
    · rw [if_pos hunit, if_neg (by omega), if_neg (by tauto)]
      rfl
    · rw [if_neg hunit]
      by_cases hzero : codePart code 1 = 0
      · rw [if_neg (by omega), if_pos hzero, if_pos ⟨hkind, hzero⟩]
      · by_cases htype : 2 < codePart code 1
        · rw [if_pos htype, if_neg fun h => hzero h.2, if_pos ⟨hkind, hzero, hunit⟩,
            List.getElem?_eq_none (by omega)]
          rfl
        · rw [if_neg htype, if_neg hzero, if_neg fun h => hzero h.2, if_pos ⟨hkind, hzero, hunit⟩,
            lookupIn_eq (by omega)]
  · rw [if_pos hkind, if_neg fun h => hkind h.1, if_neg fun h => hkind h.1]
    rfl

theorem lookupUnit_eq : d.lookupUnit code = .ofOption (d.unitAt code) := by
  unfold lookupUnit unitAt
  by_cases hkind : codePart code 0 = 1 ∧ codePart code 1 = 3
  · rw [if_neg (by tauto), if_pos hkind]
    by_cases hcount : d.units.length ≤ codePart code 2
    · rw [if_pos hcount, List.getElem?_eq_none hcount]
      rfl
    · rw [if_neg hcount]
      rw [List.getElem?_eq_getElem (not_le.mp hcount)]
      rfl
  · rw [if_pos (by tauto), if_neg hkind]
    rfl

/-- The check of the star index lets the size of the table itself through. -/
theorem starsFor_eq (hstars : d.starTable.length < 2 ^ 32) (item : Option PmtRecord) :
    d.starsFor (.ofOption item) =
      if ∃ record, item = some record ∧
          (record.index - d.weaponLowest).toNat = d.starTable.length then .stray
      else .ofOption
        (item.bind fun record => d.starTable[(record.index - d.weaponLowest).toNat]?) := by
  cases item with
  | none =>
    rw [if_neg fun ⟨_, h, _⟩ => by cases h]
    rfl
  | some record =>
    have hover : BitVec.ofNat 32 d.starTable.length < record.index - d.weaponLowest ↔
        d.starTable.length < (record.index - d.weaponLowest).toNat := by
      rw [BitVec.lt_def, BitVec.toNat_ofNat, Nat.mod_eq_of_lt hstars]
    rw [Option.bind_some, Lookup.ofOption, starsFor]
    rcases lt_trichotomy (record.index - d.weaponLowest).toNat d.starTable.length with
      hlow | heq | hhigh
    · rw [if_neg (hover.not.mpr hlow.not_gt), List.getElem?_eq_getElem hlow, if_neg]
      · rfl
      · rintro ⟨_, h, hlength⟩
        cases h
        exact hlow.ne hlength
    · rw [if_neg (hover.not.mpr heq.le.not_gt), if_pos ⟨record, rfl, heq⟩, heq,
        List.getElem?_eq_none le_rfl]
    · rw [if_pos (hover.mpr hhigh), List.getElem?_eq_none hhigh.le, if_neg]
      · rfl
      · rintro ⟨_, h, hlength⟩
        cases h
        exact hhigh.ne' hlength

theorem ofOption_ne_stray {α : Type} (a : Option α) : Lookup.ofOption a ≠ .stray := by
  cases a <;> exact fun h => by cases h

theorem starsFor_stray : d.starsFor .stray = .stray := rfl

/-- Which item a code can name goes by its first two bytes. -/
theorem itemAt_weapon (h : codePart code 0 = 0) : d.itemAt code = d.weaponAt code := by
  rw [itemAt, guardAt, unitAt, if_neg (by omega), if_neg (by omega), Option.or_none, Option.or_none]

theorem itemAt_guard (h : codePart code 0 = 1) (hunit : codePart code 1 ≠ 3) :
    d.itemAt code = d.guardAt code := by
  rw [itemAt, weaponAt, unitAt, if_neg (by omega), if_neg (by omega), Option.none_or,
    Option.or_none]

theorem itemAt_unit (h : codePart code 0 = 1) (hunit : codePart code 1 = 3) :
    d.itemAt code = d.unitAt code := by
  rw [itemAt, weaponAt, guardAt, if_neg (by omega), if_neg (by omega), Option.none_or,
    Option.none_or]

theorem itemAt_none (h : codePart code 0 ≠ 0) (hguard : codePart code 0 ≠ 1) :
    d.itemAt code = none := by
  rw [itemAt, weaponAt, guardAt, unitAt, if_neg h, if_neg (by omega), if_neg (by omega)]
  rfl

theorem guardAt_none (hguards : d.guards.length = 2)
    (htype : ¬(codePart code 1 = 1 ∨ codePart code 1 = 2)) : d.guardAt code = none := by
  rw [guardAt]
  split_ifs with h
  · rw [List.getElem?_eq_none (by omega), Option.bind_none]
  · rfl

/-- The stars of an item go wrong with its lookup, or right behind the table. -/
theorem lookupStars_eq (hguards : d.guards.length = 2) (hstars : d.starTable.length < 2 ^ 32) :
    d.lookupStars code =
      if (codePart code 0 = 0 ∧ codePart code 1 = d.weapons.length) ∨
          ∃ record, d.itemAt code = some record ∧
            (record.index - d.weaponLowest).toNat = d.starTable.length then .stray
      else .ofOption (d.starsAt code) := by
  unfold lookupStars starsAt
  by_cases hweapon : codePart code 0 = 0
  · rw [if_pos hweapon, lookupWeapon_eq, itemAt_weapon code hweapon]
    by_cases hpast : codePart code 0 = 0 ∧ codePart code 1 = d.weapons.length
    · rw [if_pos hpast, if_pos (.inl hpast), starsFor_stray]
    · rw [if_neg hpast, starsFor_eq hstars]
      exact if_congr (or_iff_right hpast).symm rfl rfl
  · rw [if_neg hweapon]
    by_cases hguard : codePart code 0 = 1
    · by_cases hunit : codePart code 1 = 3
      · rw [if_neg (by omega), if_pos ⟨hguard, hunit⟩, lookupUnit_eq, starsFor_eq hstars,
          itemAt_unit code hguard hunit]
        exact if_congr (or_iff_right (by tauto)).symm rfl rfl
      · rw [itemAt_guard code hguard hunit]
        by_cases htype : codePart code 1 = 1 ∨ codePart code 1 = 2
        · rw [if_pos ⟨hguard, htype⟩, lookupGuard_eq code hguards, if_neg (by omega),
            starsFor_eq hstars]
          exact if_congr (or_iff_right (by tauto)).symm rfl rfl
        · rw [if_neg (by tauto), if_neg (by tauto), guardAt_none code hguards htype, if_neg]
          · rfl
          · rintro (h | ⟨_, h, _⟩)
            · exact hweapon h.1
            · cases h
    · rw [if_neg (by tauto), if_neg (by tauto), itemAt_none code hweapon hguard, if_neg]
      · rfl
      · rintro (h | ⟨_, h, _⟩)
        · exact hweapon h.1
        · cases h

theorem eq_ofOption_iff {α : Type} {P : Prop} [Decidable P] {a : Option α} :
    (if P then Lookup.stray else .ofOption a) = .ofOption a ↔ ¬P := by
  constructor
  · intro h hP
    rw [if_pos hP] at h
    exact ofOption_ne_stray a h.symm
  · exact fun hP => if_neg hP

end ItemPmt

/-- For every file that a reader takes, the lookups serve a code exactly when it has neither the
weapon type behind the last one nor the guard type in front of the first one, nor names an item
whose stars would stand right behind the table. -/
theorem serves_iff {d : ItemPmt} (h : Accepted d) (code : BitVec 32) :
    d.Serves code ↔
      ¬(codePart code 0 = 0 ∧ codePart code 1 = d.weapons.length) ∧
        ¬(codePart code 0 = 1 ∧ codePart code 1 = 0) ∧
        ¬∃ record, d.itemAt code = some record ∧
          (record.index - d.weaponLowest).toNat = d.starTable.length := by
  obtain ⟨hguards, hstars⟩ := h.sizes
  rw [ItemPmt.Serves, ItemPmt.lookupWeapon_eq, ItemPmt.lookupGuard_eq code hguards,
    ItemPmt.lookupUnit_eq, ItemPmt.lookupStars_eq code hguards hstars, ItemPmt.eq_ofOption_iff,
    ItemPmt.eq_ofOption_iff, ItemPmt.eq_ofOption_iff, not_or]
  tauto

/-- A file of 146 bytes with one weapon and one unit, given by the bytes that are not zero. -/
def smallFile : Memory
  | 4 => 60
  | 8 => 68
  | 12 => 84
  | 44 => 68
  | 48 => 128
  | 52 => 130
  | 60 => 1
  | 64 => 92
  | 84 => 1
  | 88 => 116
  | 116 => 1
  | 129 => 3
  | _ => 0

/-- What the PSOv2 reader makes of that file. -/
def smallPmt : ItemPmt where
  weapons := [[⟨0, List.replicate 24 0⟩]]
  weaponLowest := 0
  guards := [[], []]
  units := [⟨1, 1 :: List.replicate 11 0⟩]
  unitLowest := 1
  starTable := [0, 3]

theorem accepted_smallPmt : Accepted smallPmt :=
  @Accepted.v2 smallFile 146 smallPmt rfl

theorem serves_smallPmt : smallPmt.Serves 0x00000301 :=
  (serves_iff accepted_smallPmt 0x00000301).mpr (by decide)

/-- The weapon type behind the only one is looked up. -/
theorem not_serves : ¬ ∀ d, Accepted d → ∀ code, d.Serves code := by
  intro h
  have hweapon : smallPmt.lookupWeapon 0x00000100 = .refused :=
    (h smallPmt accepted_smallPmt 0x00000100).1
  cases hweapon

end Serving

section Generators

/-- The entry at two indices of the source, which may lie outside. -/
def entryAt (tables : List (List PmtRecord)) (i j : ℤ) : Option PmtRecord :=
  if 0 ≤ i ∧ 0 ≤ j then (tables[i.toNat]?).bind (·[j.toNat]?) else none

def countAt (tables : List (List PmtRecord)) (i : ℤ) : Option ℤ :=
  if 0 ≤ i then (tables[i.toNat]?).map fun table => (table.length : ℤ) else none

/-- The data that the item generators look things up in, where memory around the loaded tables
is as in `beyond`. -/
def ItemPmt.pmt (d : ItemPmt) (lay : PmtLayout) (beyond : Pmt) : Pmt :=
  { beyond with
    haveData := true
    numWeaponTypes := d.weapons.length
    numWeapons := fun i => (countAt d.weapons i).getD (beyond.numWeapons i)
    weapons := fun i j => ((entryAt d.weapons i j).map PmtRecord.index).getD (beyond.weapons i j)
    weaponLowest := d.weaponLowest
    numGuardTypes := d.guards.length
    numGuards := fun i => (countAt d.guards i).getD (beyond.numGuards i)
    guards := fun i j => ((entryAt d.guards i j).map fun record =>
      ⟨record.index, record.bytes.getD lay.dfpRange 0, record.bytes.getD lay.evpRange 0⟩).getD
        (beyond.guards i j)
    numUnits := d.units.length
    units := fun j => ((entryAt [d.units] 0 j).map PmtRecord.index).getD (beyond.units j)
    starMax := BitVec.ofNat 32 d.starTable.length
    starTable := fun i => (d.starTable[i.toNat]?).getD (beyond.starTable i) }

variable {d : ItemPmt} {lay : PmtLayout} {beyond : Pmt} {code : BitVec 32}

theorem part_eq (code : BitVec 32) (k : ℕ) : part code k = codePart code k := rfl

theorem entryAt_natCast (tables : List (List PmtRecord)) (i j : ℕ) :
    entryAt tables i j = (tables[i]?).bind (·[j]?) := by
  rw [entryAt, if_pos ⟨Int.natCast_nonneg i, Int.natCast_nonneg j⟩, Int.toNat_natCast,
    Int.toNat_natCast]

theorem countAt_natCast (tables : List (List PmtRecord)) (i : ℕ) :
    countAt tables i = (tables[i]?).map fun table => (table.length : ℤ) := by
  rw [countAt, if_pos (Int.natCast_nonneg i), Int.toNat_natCast]

theorem pmt_haveData : ¬(d.pmt lay beyond).haveData = false :=
  fun h => by cases h

theorem pmt_numWeapons (i : ℕ) :
    (d.pmt lay beyond).numWeapons i =
      ((d.weapons[i]?).map fun table => (table.length : ℤ)).getD (beyond.numWeapons i) :=
  congrArg (fun n => Option.getD n (beyond.numWeapons i)) (countAt_natCast d.weapons i)

theorem pmt_weapons (i j : ℕ) :
    (d.pmt lay beyond).weapons i j =
      (((d.weapons[i]?).bind (·[j]?)).map PmtRecord.index).getD (beyond.weapons i j) :=
  congrArg (fun n => (Option.map PmtRecord.index n).getD (beyond.weapons i j))
    (entryAt_natCast d.weapons i j)

theorem pmt_numGuards (i : ℕ) :
    (d.pmt lay beyond).numGuards i =
      ((d.guards[i]?).map fun table => (table.length : ℤ)).getD (beyond.numGuards i) :=
  congrArg (fun n => Option.getD n (beyond.numGuards i)) (countAt_natCast d.guards i)

theorem pmt_guards (i j : ℕ) :
    (d.pmt lay beyond).guards i j =
      (((d.guards[i]?).bind (·[j]?)).map fun record =>
        ⟨record.index, record.bytes.getD lay.dfpRange 0, record.bytes.getD lay.evpRange 0⟩).getD
          (beyond.guards i j) := by
  rw [← entryAt_natCast]
  rfl

theorem pmt_units (j : ℕ) :
    (d.pmt lay beyond).units j = ((d.units[j]?).map PmtRecord.index).getD (beyond.units j) := by
  have hentry := entryAt_natCast [d.units] 0 j
  rw [Nat.cast_zero, List.getElem?_cons_zero, Option.bind_some] at hentry
  rw [← hentry]
  rfl

/-- What the generators are told of a weapon is the entry that its code names. -/
theorem pmtLookupWeapon_eq (h : ¬(codePart code 0 = 0 ∧ codePart code 1 = d.weapons.length)) :
    pmtLookupWeapon (d.pmt lay beyond) code = (d.weaponAt code).map PmtRecord.index := by
  have h0 := part_eq code 0
  have h1 := part_eq code 1
  have h2 := part_eq code 2
  have htypes : (d.pmt lay beyond).numWeaponTypes = d.weapons.length := rfl
  unfold pmtLookupWeapon ItemPmt.weaponAt
  rw [if_neg pmt_haveData]
  generalize part code 0 = p0, part code 1 = p1, part code 2 = p2 at h0 h1 h2
  by_cases hkind : codePart code 0 = 0
  · rw [if_neg (by omega), if_pos hkind]
    by_cases htype : d.weapons.length < codePart code 1
    · rw [if_pos (by omega), List.getElem?_eq_none htype.le]
      rfl
    · have hin : codePart code 1 < d.weapons.length := by omega
      rw [if_neg (by omega), h1, h2, pmt_numWeapons, pmt_weapons, List.getElem?_eq_getElem hin]
      simp only [Option.map_some, Option.getD_some, Option.bind_some]
      by_cases hcount : d.weapons[codePart code 1].length ≤ codePart code 2
      · rw [if_pos (Int.ofNat_le.mpr hcount), List.getElem?_eq_none hcount]
        rfl
      · rw [if_neg (Int.ofNat_le.not.mpr hcount), List.getElem?_eq_getElem (not_le.mp hcount)]
        rfl
  · rw [if_pos (by omega), if_neg hkind]
    rfl

theorem pmtLookupGuard_eq (hguards : d.guards.length = 2)
    (h : ¬(codePart code 0 = 1 ∧ codePart code 1 = 0)) :
    (pmtLookupGuard (d.pmt lay beyond) code).map PmtGuard.index =
      (d.guardAt code).map PmtRecord.index := by
  have h0 := part_eq code 0
  have h1 := part_eq code 1
  have h2 := part_eq code 2
  have htypes : (d.pmt lay beyond).numGuardTypes = d.guards.length := rfl
  unfold pmtLookupGuard ItemPmt.guardAt
  rw [if_neg pmt_haveData]
  generalize part code 0 = p0, part code 1 = p1, part code 2 = p2 at h0 h1 h2
  by_cases hkind : codePart code 0 = 1
  · rw [if_neg (by omega)]
    by_cases hunit : codePart code 1 = 3
    · rw [if_pos (by omega), if_neg fun h => h.2.2 hunit]
      rfl
    · have hprev : p1 - 1 = (codePart code 1 - 1 : ℕ) := by omega
      by_cases htype : d.guards.length < codePart code 1
      · rw [if_neg (by omega), if_pos (by omega), if_pos ⟨hkind, by omega, hunit⟩,
          List.getElem?_eq_none (by omega)]
        rfl
      · have hin : codePart code 1 - 1 < d.guards.length := by omega
        have hloaded : codePart code 0 = 1 ∧ codePart code 1 ≠ 0 ∧ codePart code 1 ≠ 3 :=
          ⟨hkind, by omega, hunit⟩
        rw [if_neg (by omega), if_neg (by omega), if_pos hloaded, hprev, h2, pmt_numGuards,
          pmt_guards, List.getElem?_eq_getElem hin]
        simp only [Option.map_some, Option.getD_some, Option.bind_some]
        by_cases hcount : d.guards[codePart code 1 - 1].length ≤ codePart code 2
        · rw [if_pos (Int.ofNat_le.mpr hcount), List.getElem?_eq_none hcount]
          rfl
        · rw [if_neg (Int.ofNat_le.not.mpr hcount), List.getElem?_eq_getElem (not_le.mp hcount)]
          rfl
  · rw [if_pos (by omega), if_neg fun h => hkind h.1]
    rfl

theorem pmtLookupUnit_eq :
    pmtLookupUnit (d.pmt lay beyond) code = (d.unitAt code).map PmtRecord.index := by
  have h0 := part_eq code 0
  have h1 := part_eq code 1
  have h2 := part_eq code 2
  have hnum : (d.pmt lay beyond).numUnits = d.units.length := rfl
  unfold pmtLookupUnit ItemPmt.unitAt
  rw [if_neg pmt_haveData]
  generalize part code 0 = p0, part code 1 = p1, part code 2 = p2 at h0 h1 h2
  by_cases hkind : codePart code 0 = 1 ∧ codePart code 1 = 3
  · rw [if_neg (by omega), if_pos hkind]
    by_cases hcount : d.units.length ≤ codePart code 2
    · rw [if_pos (by omega), List.getElem?_eq_none hcount]
      rfl
    · rw [if_neg (by omega), h2, pmt_units, List.getElem?_eq_getElem (not_le.mp hcount)]
      rfl
  · rw [if_pos (by omega), if_neg hkind]
    rfl

/-- The stars that the generators are told of an item that was found. -/
theorem starsOf_eq (hsize : d.starTable.length < 2 ^ 32) (item : Option PmtRecord)
    (h : ¬∃ record, item = some record ∧
      (record.index - d.weaponLowest).toNat = d.starTable.length) :
    starsOf (d.pmt lay beyond) (item.map PmtRecord.index) =
      (item.bind fun record => d.starTable[(record.index - d.weaponLowest).toNat]?).getD
        noStars := by
  cases item with
  | none => rfl
  | some record =>
    have hover : (d.pmt lay beyond).starMax < record.index - (d.pmt lay beyond).weaponLowest ↔
        d.starTable.length < (record.index - d.weaponLowest).toNat := by
      change BitVec.ofNat 32 d.starTable.length < record.index - d.weaponLowest ↔ _
      rw [BitVec.lt_def, BitVec.toNat_ofNat, Nat.mod_eq_of_lt hsize]
    have hne : (record.index - d.weaponLowest).toNat ≠ d.starTable.length :=
      fun heq => h ⟨record, rfl, heq⟩
    rw [Option.map_some, Option.bind_some, starsOf]
    by_cases hbehind : d.starTable.length < (record.index - d.weaponLowest).toNat
    · rw [if_pos (hover.mpr hbehind), List.getElem?_eq_none hbehind.le]
      rfl
    · have hin : (record.index - d.weaponLowest).toNat < d.starTable.length := by omega
      rw [if_neg (hover.not.mpr hbehind)]
      change (d.starTable[(record.index - d.weaponLowest).toNat]?).getD _ = _
      rw [List.getElem?_eq_getElem hin]
      rfl

/-- The generators' lookups give the loaded entry that a code names wherever the lookups serve the
code, whatever lies around the tables. -/
theorem pmtLookups_eq (hd : Accepted d) (h : d.Serves code) :
    pmtLookupWeapon (d.pmt lay beyond) code = (d.weaponAt code).map PmtRecord.index ∧
      (pmtLookupGuard (d.pmt lay beyond) code).map PmtGuard.index =
        (d.guardAt code).map PmtRecord.index ∧
      pmtLookupUnit (d.pmt lay beyond) code = (d.unitAt code).map PmtRecord.index ∧
      pmtLookupStars (d.pmt lay beyond) code = (d.starsAt code).getD noStars := by
  obtain ⟨hweapon, hguard, hstars⟩ := (serves_iff hd code).mp h
  obtain ⟨hguards, hsize⟩ := hd.sizes
  have hweaponAt := @pmtLookupWeapon_eq d lay beyond code hweapon
  have hguardAt := @pmtLookupGuard_eq d lay beyond code hguards hguard
  have hunitAt := @pmtLookupUnit_eq d lay beyond code
  refine ⟨hweaponAt, hguardAt, hunitAt, ?_⟩
  have hitem := @starsOf_eq d lay beyond hsize (d.itemAt code) hstars
  rw [ItemPmt.starsAt, ← hitem]
  have h0 := part_eq code 0
  have h1 := part_eq code 1
  unfold pmtLookupStars
  rw [hweaponAt, hguardAt, hunitAt, if_neg pmt_haveData]
  generalize part code 0 = p0, part code 1 = p1 at h0 h1
  by_cases hkind : codePart code 0 = 0
  · rw [if_pos (by omega), ItemPmt.itemAt_weapon code hkind]
  · rw [if_neg (by omega)]
    by_cases hguardKind : codePart code 0 = 1
    · by_cases hunit : codePart code 1 = 3
      · rw [if_neg (by omega), if_pos (by omega), ItemPmt.itemAt_unit code hguardKind hunit]
      · rw [ItemPmt.itemAt_guard code hguardKind hunit]
        by_cases htype : codePart code 1 = 1 ∨ codePart code 1 = 2
        · rw [if_pos (by omega)]
        · rw [if_neg (by omega), if_neg (by omega), ItemPmt.guardAt_none code hguards htype]
          rfl
    · rw [if_neg (by omega), if_neg (by omega), ItemPmt.itemAt_none code hkind hguardKind]
      rfl

end Generators

end ShipServer.PmtLookups
