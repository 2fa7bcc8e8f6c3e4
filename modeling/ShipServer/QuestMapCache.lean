import ShipServer.RecordStreams

set_option autoImplicit false

namespace ShipServer.QuestMapCache

open RecordStreams

/-- `game_enemy_t`, which takes 12 bytes. -/
structure GameEnemy where
  bpEntry : BitVec 32
  rtIndex : UInt8
  clientsHit : UInt8
  lastClient : UInt8
  dropDone : UInt8
  area : UInt8
  deriving DecidableEq

/-- `game_object_t`, with the 68 bytes of a map object. -/
structure GameObject where
  data : List UInt8
  flags : BitVec 32
  deriving DecidableEq

inductive ObjType where
  | objects
  | enemies
  | other
  deriving DecidableEq

/-- A section of a decompressed quest file: `size` is the length of its data, and `next_hdr` leads
to the section behind it. The padding at the end of the file is left out. -/
structure QuestDat where
  objType : ObjType
  area : Fin 17
  data : List UInt8
  deriving DecidableEq

/-- `parse_map`: the enemies that the records of a section stand for. They fit into the array that
it fills. -/
structure ParseMap where
  parse : List UInt8 → ℕ → Bool → Fin 17 → Option (List GameEnemy)
  fits : ∀ records episode alt area en, parse records episode alt area = some en →
    en.length ≤ 0xB50

structure QuestMap where
  objects : List GameObject
  enemies : List GameEnemy
  deriving DecidableEq

/-- The fields of a lobby that `load_quest_enemies` looks at. -/
structure MapLobby where
  challenge : Bool
  battle : Bool
  difficulty : ℕ
  event : ℕ

def le32 (v : BitVec 32) : List UInt8 :=
  [UInt8.ofNat v.toNat, UInt8.ofNat (v.toNat / 256), UInt8.ofNat (v.toNat / 65536),
    UInt8.ofNat (v.toNat / 16777216)]

def readLe32 (bytes : List UInt8) : BitVec 32 :=
  BitVec.ofNat 32 ((bytes.getD 0 0).toNat + 256 * (bytes.getD 1 0).toNat +
    65536 * (bytes.getD 2 0).toNat + 16777216 * (bytes.getD 3 0).toNat)

/-- An enemy in memory, with the padding that `memset` has cleared. -/
def encodeEnemy (e : GameEnemy) : List UInt8 :=
  le32 e.bpEntry ++ [e.rtIndex, e.clientsHit, e.lastClient, e.dropDone, e.area, 0, 0, 0]

def decodeEnemy (bytes : List UInt8) : GameEnemy where
  bpEntry := readLe32 (bytes.take 4)
  rtIndex := bytes.getD 4 0
  clientsHit := bytes.getD 5 0
  lastClient := bytes.getD 6 0
  dropDone := bytes.getD 7 0
  area := bytes.getD 8 0

/-- `ptrs[2][17]`. -/
structure Ptrs where
  objects : Fin 17 → Option QuestDat
  enemies : Fin 17 → Option QuestDat

/-- One turn of the loop of `parse_quest_objects`. -/
def parseSection (st : BitVec 32 × Ptrs) (hdr : QuestDat) : BitVec 32 × Ptrs :=
  match hdr.objType with
  | .objects =>
    (st.1 + BitVec.ofNat 32 (hdr.data.length / 68),
      { st.2 with objects := Function.update st.2.objects hdr.area (some hdr) })
  | .enemies =>
    (st.1, { st.2 with enemies := Function.update st.2.enemies hdr.area (some hdr) })
  | .other => st

def parseQuestObjects (dat : List QuestDat) : BitVec 32 × Ptrs :=
  dat.foldl parseSection (0, ⟨fun _ => none, fun _ => none⟩)

/-- The whole objects of a section. -/
def objectsOf (hdr : QuestDat) : List (List UInt8) :=
  (List.range (hdr.data.length / 68)).map fun j => (hdr.data.drop (j * 68)).take 68

def isAlt (episode : ℕ) (area : Fin 17) : Bool :=
  (episode = 3 ∧ 5 < (area : ℕ)) ∨ (episode = 2 ∧ 15 < (area : ℕ))

/-- The call of `parse_map` for a section. -/
def expand (parseMap : ParseMap) (episode : ℕ) (hdr : QuestDat) : Option (List GameEnemy) :=
  parseMap.parse (hdr.data.take (hdr.data.length / 72 * 72)) episode (isAlt episode hdr.area)
    hdr.area

def expandAll (parseMap : ParseMap) (episode : ℕ) : List QuestDat → Option (List GameEnemy)
  | [] => some []
  | hdr :: hdrs =>
    match expand parseMap episode hdr, expandAll parseMap episode hdrs with
    | some en, some ens => some (en ++ ens)
    | _, _ => none

/-- The areas, in order. -/
def areas : List (Fin 17) :=
  List.finRange 17

/-- Bytes are written over a place in a file. -/
def overwrite (file : List UInt8) (offs : ℕ) (bytes : List UInt8) : List UInt8 :=
  file.take offs ++ bytes ++ file.drop (offs + bytes.length)

/-- The cache file, if all maps can be parsed. -/
def cacheQuestEnemies (parseMap : ParseMap) (episode : ℕ) (dat : List QuestDat) :
    Option (List UInt8) :=
  let (objects, ptrs) := parseQuestObjects dat
  let front := le32 objects ++
    (areas.flatMap fun i => ((ptrs.objects i).map objectsOf).getD []).flatten
  (expandAll parseMap episode (areas.flatMap fun i => (ptrs.enemies i).toList)).map fun ens =>
    overwrite (front ++ List.replicate 4 0 ++ ens.flatMap encodeEnemy) front.length
      (le32 (BitVec.ofNat 32 ens.length))

/-- Dark Falz on the higher difficulties, and the special Rappies. -/
def fixup (l : MapLobby) (e : GameEnemy) : GameEnemy :=
  if e.bpEntry = 0x37 ∧ l.difficulty ≠ 0 then { e with bpEntry := 0x38 }
  else if e.rtIndex = 255 then
    { e with rtIndex :=
        if l.event = 1 then 79 else if l.event = 4 then 81 else if l.event = 5 then 80 else 51 }
  else e

/-- The return code of `load_quest_enemies`, and what it puts into the lobby. -/
def loadQuestEnemies (l : MapLobby) (file : Option (List UInt8)) : ℤ × Option QuestMap :=
  if l.challenge ∨ l.battle then (0, none)
  else
    match file with
    | none => (-1, none)
    | some bytes =>
      if bytes.length < 4 then (-2, none)
      else
        match readRecords 68 (readLe32 (bytes.take 4)).toNat (bytes.drop 4) with
        | none => (-4, none)
        | some (objs, rest) =>
          if rest.length < 4 then (-5, none)
          else
            match readRecords 12 (readLe32 (rest.take 4)).toNat (rest.drop 4) with
            | none => (-7, none)
            | some (ens, _) =>
              (0, some { objects := objs.map fun data => ⟨data, 0⟩
                         enemies := (ens.map decodeEnemy).map (fixup l) })

/-- The sections of a type for an area, in the order of the file. -/
def sectionsOf (dat : List QuestDat) (type : ObjType) (i : Fin 17) : List QuestDat :=
  dat.filter fun hdr => hdr.objType = type ∧ hdr.area = i

/-- The objects of all sections, in area order. -/
def allObjects (dat : List QuestDat) : List (List UInt8) :=
  areas.flatMap fun i => (sectionsOf dat .objects i).flatMap objectsOf

/-- The map that a quest file stands for. -/
def wholeMap (parseMap : ParseMap) (episode : ℕ) (dat : List QuestDat) : Option QuestMap :=
  (expandAll parseMap episode (areas.flatMap (sectionsOf dat .enemies))).map fun ens =>
    { objects := (allObjects dat).map fun data => ⟨data, 0⟩, enemies := ens }

/-- The lobby gets the map, but for the fix-ups. -/
def RoundTrip (parseMap : ParseMap) (episode : ℕ) (dat : List QuestDat) (l : MapLobby)
    (file : List UInt8) : Prop :=
  ∃ m, wholeMap parseMap episode dat = some m ∧
    loadQuestEnemies l (some file) = (0, some { m with enemies := m.enemies.map (fixup l) })

/-- In each area, a section that another one of its type follows has nothing in it. -/
def Undivided (parseMap : ParseMap) (episode : ℕ) (dat : List QuestDat) : Prop :=
  ∀ i, (∀ hdr ∈ (sectionsOf dat .objects i).dropLast, objectsOf hdr = []) ∧
    ∀ hdr ∈ (sectionsOf dat .enemies i).dropLast, expand parseMap episode hdr = some []

instance (parseMap : ParseMap) (episode : ℕ) (dat : List QuestDat) :
    Decidable (Undivided parseMap episode dat) :=
  inferInstanceAs (Decidable (∀ i, (∀ hdr ∈ (sectionsOf dat .objects i).dropLast,
    objectsOf hdr = []) ∧ ∀ hdr ∈ (sectionsOf dat .enemies i).dropLast,
      expand parseMap episode hdr = some []))

theorem readLe32_le32 (v : BitVec 32) (bytes : List UInt8) :
    readLe32 ((le32 v ++ bytes).take 4) = v := by
  have hv := v.isLt
  apply BitVec.eq_of_toNat_eq
  simp [readLe32, le32]
  omega

theorem decodeEnemy_encodeEnemy (e : GameEnemy) : decodeEnemy (encodeEnemy e) = e := by
  unfold decodeEnemy encodeEnemy
  rw [readLe32_le32]
  rfl

theorem length_encodeEnemy (e : GameEnemy) : (encodeEnemy e).length = 12 := rfl

theorem length_le32 (v : BitVec 32) : (le32 v).length = 4 := rfl

@[simp]
theorem length_objectsOf (hdr : QuestDat) : (objectsOf hdr).length = hdr.data.length / 68 := by
  unfold objectsOf
  rw [List.length_map, List.length_range]

theorem length_of_mem_objectsOf {hdr : QuestDat} {data : List UInt8} (h : data ∈ objectsOf hdr) :
    data.length = 68 := by
  obtain ⟨j, hj, rfl⟩ := List.mem_map.mp h
  have hlt := List.mem_range.mp hj
  rw [List.length_take, List.length_drop]
  omega

theorem parseQuestObjects_concat (dat : List QuestDat) (hdr : QuestDat) :
    parseQuestObjects (dat ++ [hdr]) = parseSection (parseQuestObjects dat) hdr := by
  rw [parseQuestObjects, List.foldl_concat]
  rfl

theorem sectionsOf_concat (dat : List QuestDat) (hdr : QuestDat) (type : ObjType) (i : Fin 17) :
    sectionsOf (dat ++ [hdr]) type i =
      sectionsOf dat type i ++ if hdr.objType = type ∧ hdr.area = i then [hdr] else [] := by
  simp [sectionsOf, List.filter_append, List.filter_singleton]

/-- The table points to the last section of each area. -/
theorem parseQuestObjects_ptrs (dat : List QuestDat) (i : Fin 17) :
    (parseQuestObjects dat).2.objects i = (sectionsOf dat .objects i).getLast? ∧
      (parseQuestObjects dat).2.enemies i = (sectionsOf dat .enemies i).getLast? := by
  induction dat using List.reverseRecOn with
  | nil => exact ⟨rfl, rfl⟩
  | append_singleton dat hdr ih =>
    rw [parseQuestObjects_concat, sectionsOf_concat, sectionsOf_concat]
    unfold parseSection
    cases htype : hdr.objType <;> by_cases harea : hdr.area = i
    all_goals simp [harea, @eq_comm _ i, ih]

theorem length_flatMap_areas (f : Fin 17 → List (List UInt8)) (i : Fin 17)
    (objs : List (List UInt8)) :
    (areas.flatMap fun j => f j ++ if i = j then objs else []).length =
      (areas.flatMap f).length + objs.length := by
  have hsum (g : Fin 17 → List (List UInt8)) :
      (areas.flatMap g).length = ∑ j, (g j).length := by
    rw [List.length_flatMap, Fin.sum_univ_def]
    rfl
  rw [hsum, hsum]
  simp only [List.length_append, Finset.sum_add_distrib, apply_ite List.length, List.length_nil,
    Finset.sum_ite_eq, Finset.mem_univ, if_true]

theorem length_allObjects_concat (dat : List QuestDat) (hdr : QuestDat) :
    (allObjects (dat ++ [hdr])).length = (allObjects dat).length +
      if hdr.objType = .objects then hdr.data.length / 68 else 0 := by
  unfold allObjects
  by_cases htype : hdr.objType = .objects
  · simp only [sectionsOf_concat, htype, true_and, List.flatMap_append,
      apply_ite (List.flatMap objectsOf), List.flatMap_singleton, List.flatMap_nil]
    rw [length_flatMap_areas, length_objectsOf, if_true]
  · simp only [sectionsOf_concat, htype, false_and, if_false, List.append_nil, Nat.add_zero]

/-- The walk counts the objects of all sections. -/
theorem parseQuestObjects_count (dat : List QuestDat) :
    (parseQuestObjects dat).1 = BitVec.ofNat 32 (allObjects dat).length := by
  induction dat using List.reverseRecOn with
  | nil => rfl
  | append_singleton dat hdr ih =>
    rw [parseQuestObjects_concat, length_allObjects_concat, BitVec.ofNat_add, ← ih]
    unfold parseSection
    cases hdr.objType <;> simp

theorem length_allObjects_le (dat : List QuestDat) :
    (allObjects dat).length ≤ (dat.map fun hdr => 16 + hdr.data.length).sum := by
  induction dat using List.reverseRecOn with
  | nil => decide
  | append_singleton dat hdr ih =>
    rw [length_allObjects_concat, List.map_append, List.sum_append, List.map_singleton,
      List.sum_singleton]
    split_ifs <;> omega

/-- What `parse_map` makes of a section. -/
def enemiesOf (parseMap : ParseMap) (episode : ℕ) (hdr : QuestDat) : List GameEnemy :=
  (expand parseMap episode hdr).getD []

theorem expandAll_eq_some {parseMap : ParseMap} {episode : ℕ} {hdrs : List QuestDat}
    {ens : List GameEnemy} : expandAll parseMap episode hdrs = some ens ↔
      (∀ hdr ∈ hdrs, (expand parseMap episode hdr).isSome) ∧
        ens = hdrs.flatMap (enemiesOf parseMap episode) := by
  induction hdrs generalizing ens with
  | nil =>
    simp only [expandAll, List.not_mem_nil, false_implies, implies_true, true_and, List.flatMap_nil,
      Option.some.injEq]
    exact eq_comm
  | cons hdr hdrs ih =>
    rw [expandAll, List.forall_mem_cons, List.flatMap_cons, enemiesOf]
    cases hen : expand parseMap episode hdr with
    | none => simp
    | some en =>
      cases hens : expandAll parseMap episode hdrs with
      | none =>
        have hnot : ¬∀ hdr ∈ hdrs, (expand parseMap episode hdr).isSome := by
          intro hall
          have hsome := ih.mpr ⟨hall, rfl⟩
          rw [hens] at hsome
          cases hsome
        simp [hnot]
      | some ens' =>
        obtain ⟨hall, rfl⟩ := ih.mp hens
        simp only [Option.some.injEq, Option.isSome_some, Option.getD_some, true_and]
        rw [and_iff_right hall]
        exact eq_comm

/-- The objects that the table leads to. -/
def lastObjects (dat : List QuestDat) : List (List UInt8) :=
  areas.flatMap fun i => ofLast objectsOf (sectionsOf dat .objects i)

def lastEnemies (parseMap : ParseMap) (episode : ℕ) (dat : List QuestDat) : List GameEnemy :=
  areas.flatMap fun i => ofLast (enemiesOf parseMap episode) (sectionsOf dat .enemies i)

def allEnemies (parseMap : ParseMap) (episode : ℕ) (dat : List QuestDat) : List GameEnemy :=
  areas.flatMap fun i => (sectionsOf dat .enemies i).flatMap (enemiesOf parseMap episode)

theorem overwrite_append {old new : List UInt8} (h : new.length = old.length)
    (front back : List UInt8) :
    overwrite (front ++ old ++ back) front.length new = front ++ new ++ back := by
  rw [overwrite, List.append_assoc front old back, List.take_left, h, ← List.append_assoc,
    ← List.length_append, List.drop_left]

theorem flatMap_toList (f : QuestDat → List GameEnemy) (hdr : Option QuestDat) :
    hdr.toList.flatMap f = (hdr.map f).getD [] := by
  cases hdr with
  | none => rfl
  | some hdr => exact List.append_nil _

theorem cacheQuestEnemies_eq_some {parseMap : ParseMap} {episode : ℕ} {dat : List QuestDat}
    {file : List UInt8} (h : cacheQuestEnemies parseMap episode dat = some file) :
    (∀ i, ∀ hdr ∈ (sectionsOf dat .enemies i).getLast?, (expand parseMap episode hdr).isSome) ∧
      file = le32 (BitVec.ofNat 32 (allObjects dat).length) ++ ((lastObjects dat).flatten ++
        (le32 (BitVec.ofNat 32 (lastEnemies parseMap episode dat).length) ++
          (lastEnemies parseMap episode dat).flatMap encodeEnemy)) := by
  unfold cacheQuestEnemies at h
  dsimp only at h
  obtain ⟨ens, hens, rfl⟩ := Option.map_eq_some_iff.mp h
  simp only [parseQuestObjects_ptrs] at hens ⊢
  obtain ⟨hall, hens⟩ := expandAll_eq_some.mp hens
  have hlast : ens = lastEnemies parseMap episode dat := by
    rw [hens, List.flatMap_assoc]
    simp only [flatMap_toList]
    rfl
  constructor
  · intro i hdr hhdr
    exact hall hdr (List.mem_flatMap.mpr ⟨i, List.mem_finRange i, Option.mem_toList.mpr hhdr⟩)
  · have hcount : (le32 (BitVec.ofNat 32 ens.length)).length = (List.replicate 4 0).length := rfl
    rw [overwrite_append hcount, parseQuestObjects_count, hlast]
    simp only [List.append_assoc]
    rfl

theorem loadQuestEnemies_eq_zero {l : MapLobby} (hl : l.challenge = false ∧ l.battle = false)
    (n : BitVec 32) (body : List UInt8) (m : QuestMap) :
    loadQuestEnemies l (some (le32 n ++ body)) = (0, some m) ↔
      ∃ objs rest ens tail, readRecords 68 n.toNat body = some (objs, rest) ∧ 4 ≤ rest.length ∧
        readRecords 12 (readLe32 (rest.take 4)).toNat (rest.drop 4) = some (ens, tail) ∧
        m = ⟨objs.map fun data => ⟨data, 0⟩, (ens.map decodeEnemy).map (fixup l)⟩ := by
  have hlong : ¬(le32 n ++ body).length < 4 := by
    rw [List.length_append, length_le32]
    omega
  have hdrop : (le32 n ++ body).drop 4 = body := rfl
  unfold loadQuestEnemies
  simp only [hl.1, hl.2, Bool.false_eq_true, or_self, if_false, if_neg hlong, readLe32_le32, hdrop]
  cases hobjs : readRecords 68 n.toNat body with
  | none => simp
  | some r =>
    obtain ⟨objs, rest⟩ := r
    by_cases hrest : rest.length < 4
    · simp [hrest]
    · cases hens : readRecords 12 (readLe32 (rest.take 4)).toNat (rest.drop 4) with
      | none => simp [hrest, hens]
      | some r =>
        obtain ⟨ens, tail⟩ := r
        simp [hrest, hens, not_lt.mp hrest, eq_comm]

theorem length_lastEnemies_lt (parseMap : ParseMap) (episode : ℕ) (dat : List QuestDat) :
    (lastEnemies parseMap episode dat).length < 2 ^ 32 := by
  have hone (i : Fin 17) :
      (ofLast (enemiesOf parseMap episode) (sectionsOf dat .enemies i)).length ≤ 0xB50 := by
    unfold ofLast enemiesOf
    cases (sectionsOf dat .enemies i).getLast? with
    | none => exact Nat.zero_le _
    | some hdr =>
      cases hen : expand parseMap episode hdr with
      | none => simp [hen]
      | some en => simpa [hen] using parseMap.fits _ _ _ _ en hen
  have hsum := List.sum_le_card_nsmul
    (areas.map fun i => (ofLast (enemiesOf parseMap episode) (sectionsOf dat .enemies i)).length)
    0xB50 (by simpa using fun i _ => hone i)
  rw [List.length_map, smul_eq_mul] at hsum
  have hareas : areas.length = 17 := List.length_finRange
  rw [lastEnemies, List.length_flatMap]
  omega

/-- What the whole map consists of. -/
theorem wholeMap_eq_some {parseMap : ParseMap} {episode : ℕ} {dat : List QuestDat}
    {m : QuestMap} : wholeMap parseMap episode dat = some m ↔
      (∀ i, ∀ hdr ∈ sectionsOf dat .enemies i, (expand parseMap episode hdr).isSome) ∧
        m = ⟨(allObjects dat).map fun data => ⟨data, 0⟩, allEnemies parseMap episode dat⟩ := by
  have hall : (∀ hdr ∈ areas.flatMap (sectionsOf dat .enemies),
      (expand parseMap episode hdr).isSome) ↔
        ∀ i, ∀ hdr ∈ sectionsOf dat .enemies i, (expand parseMap episode hdr).isSome := by
    simp [areas, List.mem_flatMap]
    grind
  simp only [wholeMap, Option.map_eq_some_iff, expandAll_eq_some, hall, List.flatMap_assoc]
  constructor
  · rintro ⟨ens, ⟨hens, rfl⟩, rfl⟩
    exact ⟨hens, rfl⟩
  · rintro ⟨hens, rfl⟩
    exact ⟨_, ⟨hens, rfl⟩, rfl⟩

theorem length_flatMap_encodeEnemy (ens : List GameEnemy) :
    (ens.flatMap encodeEnemy).length = 12 * ens.length := by
  induction ens with
  | nil => rfl
  | cons e ens ih =>
    rw [List.flatMap_cons, List.length_append, ih, length_encodeEnemy, List.length_cons]
    omega

theorem length_of_mem_lastObjects {dat : List QuestDat} {data : List UInt8}
    (h : data ∈ lastObjects dat) : data.length = 68 := by
  obtain ⟨i, -, hdata⟩ := List.mem_flatMap.mp h
  unfold ofLast at hdata
  cases hlast : (sectionsOf dat .objects i).getLast? with
  | none => simp [hlast] at hdata
  | some hdr =>
    rw [hlast] at hdata
    exact length_of_mem_objectsOf hdata

theorem length_flatten_lastObjects (dat : List QuestDat) :
    (lastObjects dat).flatten.length = 68 * (lastObjects dat).length := by
  have hsize : ∀ data ∈ lastObjects dat, data.length = 68 := fun data => length_of_mem_lastObjects
  have hread := readRecords_length (readRecords_flatten hsize [])
  simpa using hread.2

/-- With nothing behind the table, the file has the whole map in it. -/
theorem Undivided.lastObjects_eq {parseMap : ParseMap} {episode : ℕ} {dat : List QuestDat}
    (h : Undivided parseMap episode dat) : lastObjects dat = allObjects dat := by
  unfold lastObjects allObjects
  congr 1
  funext i
  exact ofLast_eq_of_nil (h i).1

theorem Undivided.lastEnemies_eq {parseMap : ParseMap} {episode : ℕ} {dat : List QuestDat}
    (h : Undivided parseMap episode dat) :
    lastEnemies parseMap episode dat = allEnemies parseMap episode dat := by
  unfold lastEnemies allEnemies
  congr 1
  funext i
  apply ofLast_eq_of_nil
  intro hdr hhdr
  rw [enemiesOf, (h i).2 hdr hhdr]
  rfl

theorem Undivided.expand {parseMap : ParseMap} {episode : ℕ} {dat : List QuestDat}
    (h : Undivided parseMap episode dat) {i : Fin 17}
    (hlast : ∀ hdr ∈ (sectionsOf dat .enemies i).getLast?,
      (QuestMapCache.expand parseMap episode hdr).isSome)
    {hdr : QuestDat} (hhdr : hdr ∈ sectionsOf dat .enemies i) :
    (QuestMapCache.expand parseMap episode hdr).isSome := by
  have hne := List.ne_nil_of_mem hhdr
  rw [← List.dropLast_append_getLast hne, List.mem_append, List.mem_singleton] at hhdr
  rcases hhdr with hbefore | rfl
  · rw [(h i).2 hdr hbefore]
    rfl
  · exact hlast _ (List.getLast?_eq_some_getLast hne)

theorem roundTrip_of_undivided {parseMap : ParseMap} {episode : ℕ} {dat : List QuestDat}
    {file : List UInt8} {l : MapLobby}
    (hsize : (dat.map fun hdr => 16 + hdr.data.length).sum < 2 ^ 32)
    (hcache : cacheQuestEnemies parseMap episode dat = some file)
    (hl : l.challenge = false ∧ l.battle = false) (h : Undivided parseMap episode dat) :
    RoundTrip parseMap episode dat l file := by
  obtain ⟨hlast, rfl⟩ := cacheQuestEnemies_eq_some hcache
  have hcount := length_allObjects_le dat
  have henemies := length_lastEnemies_lt parseMap episode dat
  have hobjs : ∀ data ∈ allObjects dat, data.length = 68 := by
    rw [← h.lastObjects_eq]
    exact fun data => length_of_mem_lastObjects
  have hens : ∀ r ∈ (allEnemies parseMap episode dat).map encodeEnemy, r.length = 12 := by
    intro r hr
    obtain ⟨e, -, rfl⟩ := List.mem_map.mp hr
    exact length_encodeEnemy e
  refine ⟨_, wholeMap_eq_some.mpr ⟨fun i hdr hhdr => h.expand (hlast i) hhdr, rfl⟩, ?_⟩
  rw [loadQuestEnemies_eq_zero hl, h.lastObjects_eq, BitVec.toNat_ofNat,
    Nat.mod_eq_of_lt (by omega), readRecords_flatten hobjs]
  refine ⟨_, _, (allEnemies parseMap episode dat).map encodeEnemy, [], rfl, ?_, ?_, ?_⟩
  · rw [List.length_append, length_le32]
    omega
  · have hdrop (n : BitVec 32) (bytes : List UInt8) : (le32 n ++ bytes).drop 4 = bytes := rfl
    have hread := readRecords_flatten hens []
    rw [List.length_map, List.append_nil] at hread
    rw [h.lastEnemies_eq] at henemies ⊢
    rw [readLe32_le32, hdrop, BitVec.toNat_ofNat, Nat.mod_eq_of_lt henemies,
      List.flatMap_def, hread]
  · have hdecode : ((allEnemies parseMap episode dat).map encodeEnemy).map decodeEnemy =
        allEnemies parseMap episode dat := by
      simp [Function.comp_def, decodeEnemy_encodeEnemy]
    rw [hdecode]

theorem undivided_of_roundTrip {parseMap : ParseMap} {episode : ℕ} {dat : List QuestDat}
    {file : List UInt8} {l : MapLobby}
    (hsize : (dat.map fun hdr => 16 + hdr.data.length).sum < 2 ^ 32)
    (hcache : cacheQuestEnemies parseMap episode dat = some file)
    (hl : l.challenge = false ∧ l.battle = false) (h : RoundTrip parseMap episode dat l file) :
    Undivided parseMap episode dat := by
  obtain ⟨-, rfl⟩ := cacheQuestEnemies_eq_some hcache
  obtain ⟨m, hwhole, hload⟩ := h
  obtain ⟨hexpand, rfl⟩ := wholeMap_eq_some.mp hwhole
  obtain ⟨objs, rest, ens, tail, hobjs, hrest, hens, hm⟩ :=
    (loadQuestEnemies_eq_zero hl _ _ _).mp hload
  have hcount := length_allObjects_le dat
  have hall : ens.length = (allEnemies parseMap episode dat).length := by
    have hmap := congrArg (fun m => m.enemies.length) hm
    simpa using hmap.symm
  -- the reader takes as many bytes as the whole map has, and the file has those of the table
  have hobjects := readRecords_length hobjs
  have henemies := readRecords_length hens
  have hlastObjects := length_flatMap_le areas
    fun i => length_ofLast_le objectsOf (sectionsOf dat .objects i)
  have hlastEnemies := length_flatMap_le areas
    fun i => length_ofLast_le (enemiesOf parseMap episode) (sectionsOf dat .enemies i)
  change (lastObjects dat).length ≤ (allObjects dat).length at hlastObjects
  change (lastEnemies parseMap episode dat).length ≤
    (allEnemies parseMap episode dat).length at hlastEnemies
  rw [BitVec.toNat_ofNat, Nat.mod_eq_of_lt (by omega)] at hobjects
  simp only [List.length_append, length_flatten_lastObjects, length_le32,
    length_flatMap_encodeEnemy, List.length_drop] at hobjects henemies
  intro i
  constructor
  · apply nil_of_length_flatMap areas _ i (List.mem_finRange i)
    change (allObjects dat).length ≤ (lastObjects dat).length
    omega
  · intro hdr hhdr
    have hnil : enemiesOf parseMap episode hdr = [] := by
      apply nil_of_length_flatMap areas _ i (List.mem_finRange i) hdr hhdr
      change (allEnemies parseMap episode dat).length ≤ (lastEnemies parseMap episode dat).length
      omega
    have hsome := hexpand i hdr (List.dropLast_subset _ hhdr)
    obtain ⟨en, hen⟩ := Option.isSome_iff_exists.mp hsome
    rw [enemiesOf, hen] at hnil
    rw [hen, ← hnil]
    rfl

/-- The record of a Hildebear. -/
def hildebear : List UInt8 :=
  0x40 :: List.replicate 71 0

def parseHildebear : ParseMap where
  parse records _ _ area :=
    if records = hildebear then some [⟨0x49, 1, 0, 0, 0, UInt8.ofNat area⟩] else none
  fits records episode alt area en h := by
    split_ifs at h
    cases h
    exact Nat.le_of_ble_eq_true rfl

end ShipServer.QuestMapCache
