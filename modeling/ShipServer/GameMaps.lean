import ShipServer.LoadedMaps
import ShipServer.WeaponRolls

set_option autoImplicit false

/-! The maps of a game: how they are chosen, and the arrays of enemies and objects made of them. -/

namespace ShipServer.GameMaps

open DropItems QuestMapCache MapExpansion LoadedMaps WeaponRolls

/-- The numbers of maps and of their variations, level by level. The two files that have this table
have the same one. -/
def maps : List (List ℕ) :=
  [[1, 1, 1, 5, 1, 5, 3, 2, 3, 2, 3, 2, 3, 2, 3, 2,
      3, 2, 3, 2, 3, 2, 1, 1, 1, 1, 1, 1, 1, 1, 1, 1],
    [1, 1, 2, 1, 2, 1, 2, 1, 2, 1, 1, 3, 1, 3, 1, 3,
      2, 2, 1, 3, 2, 2, 2, 2, 1, 1, 1, 1, 1, 1, 1, 1],
    [1, 1, 1, 3, 1, 3, 1, 3, 1, 3, 1, 3, 3, 1, 1, 3,
      3, 1, 1, 1, 1, 1, 1, 1, 1, 1, 1, 1, 1, 1, 1, 1]]

def spMaps : List (List ℕ) :=
  [[1, 1, 1, 3, 1, 3, 3, 1, 3, 1, 3, 1, 3, 2, 3, 2,
      3, 2, 3, 2, 3, 2, 1, 1, 1, 1, 1, 1, 1, 1, 1, 1],
    [1, 1, 2, 1, 2, 1, 2, 1, 2, 1, 1, 3, 1, 3, 1, 3,
      2, 2, 1, 3, 2, 1, 2, 1, 1, 1, 1, 1, 1, 1, 1, 1],
    [1, 1, 1, 3, 1, 3, 1, 3, 1, 3, 1, 3, 3, 1, 1, 3,
      3, 1, 1, 1, 1, 1, 1, 1, 1, 1, 1, 1, 1, 1, 1, 1]]

def dcnteMaps : List ℕ :=
  [1, 1, 1, 2, 1, 2, 2, 2, 2, 2, 2, 2, 1, 2, 1, 2,
    2, 2, 2, 2, 2, 2, 1, 1, 1, 1, 1, 1, 1, 1, 1, 1]

/-- `max_area`, plus one. -/
def areaCounts : List ℕ := [15, 16, 10]

/-- The games that have their maps on the ship: those of the Dreamcast and the PC, perhaps of the
network trial edition, those of the GameCube, and those of Blue Burst, perhaps for one player. -/
inductive GameKind where
  | v2 (nte : Bool)
  | gc
  | bb (solo : Bool)

/-- What `lobby_create_game` is given for the maps. The episode is a byte of the client's packet. -/
structure GameRequest where
  kind : GameKind
  episode : BitVec 8
  lobby : MapLobby
  nextMaps : Option (ℕ → BitVec 32)

/-- `table[episode - 1]`. -/
def rowAt {α : Type} (table : List α) (episode : BitVec 8) : Option α :=
  if episode = 0 then none else table[episode.toNat - 1]?

/-- The row of the table that the maps are chosen by. -/
def selectionRow (r : GameRequest) : Option (List ℕ) :=
  match r.kind with
  | .v2 true => some dcnteMaps
  | .v2 false => rowAt maps 1
  | .gc => rowAt maps r.episode
  | .bb solo => rowAt (if solo then spMaps else maps) r.episode

/-- One entry of `l->maps`. -/
def chooseMap (next : Option (BitVec 32)) (t : ℕ) : Gen ℕ :=
  match next with
  | none =>
    if t ≠ 1 then do
      let rnd ← genrand
      return rnd.toNat % t
    else pure 0
  | some n =>
    if n.toNat < t then pure n.toNat
    else do
      let rnd ← genrand
      return rnd.toNat % t

def chooseMaps (next : Option (ℕ → BitVec 32)) : ℕ → List ℕ → Gen (List ℕ)
  | _, [] => pure []
  | i, t :: row => do
    let m ← chooseMap (next.map fun f => f i) t
    let rest ← chooseMaps next (i + 1) row
    return m :: rest

/-- `parsed_map_t` and `parsed_objs_t` of a level. -/
structure ParsedLevel where
  mapCount : ℕ
  variationCount : ℕ
  enemies : List (List GameEnemy)
  objects : List (List GameObject)

/-- A level that has not been read. -/
def noLevel : ParsedLevel := ⟨0, 0, [], []⟩

/-- The static tables: for each episode the 16 levels. -/
structure ParsedMaps where
  v2 : List ParsedLevel
  gc : List (List ParsedLevel)
  bb : Bool → List (List ParsedLevel)

/-- Why the first pass over the levels ends early: a selection that fails the check, or a read
outside of the sets. -/
inductive Stop where
  | invalid
  | outside

/-- The first pass: `sets` and `osets`. -/
def gather : List ParsedLevel → List ℕ → Except Stop (List (List GameEnemy × List GameObject))
  | level :: levels, m :: v :: maps =>
    if level.mapCount = 0 ∧ level.variationCount = 0 then .ok []
    else if level.mapCount < m ∨ level.variationCount < v then .error .invalid
    else
      let index := (m * level.variationCount + v) % 2 ^ 32
      match level.enemies[index]?, level.objects[index]? with
      | some en, some ob => (gather levels maps).map ((en, ob) :: ·)
      | _, _ => .error .outside
  | _, _ => .ok []

/-- `l->map_enemies` and `l->map_objs`. -/
structure LoadedGame where
  enemies : List GameEnemy
  enemyCount : BitVec 32
  objects : List GameObject
  objectCount : BitVec 32

/-- What a loader does: it accesses memory outside of the sets and of its arrays, it fails and
leaves the lobby without map data, or it gives it the arrays. -/
inductive Loading where
  | outside
  | failed (ret : ℤ)
  | done (game : LoadedGame)

/-- The body that the three loaders have in common. `alloc` is how their four allocations go. -/
def loadGameEnemies (fix : GameEnemy → GameEnemy) (levels : List ParsedLevel) (maps : List ℕ)
    (alloc : Fin 4 → Bool) : Loading :=
  match gather levels maps with
  | .error .invalid => .failed (-1)
  | .error .outside => .outside
  | .ok sets =>
    let enemies := sets.flatMap Prod.fst
    let objects := sets.flatMap Prod.snd
    let enemyCount := BitVec.ofNat 32 enemies.length
    let objectCount := BitVec.ofNat 32 objects.length
    if alloc 0 = false then .failed (-2)
    else if alloc 1 = false then .failed (-3)
    else if alloc 2 = false then .failed (-4)
    else if alloc 3 = false then .failed (-5)
    else if enemyCount.toNat < enemies.length ∨ objectCount.toNat < objects.length then
      -- the copies are longer than the arrays, whose sizes are sums modulo `2 ^ 32`
      .outside
    else .done ⟨enemies.map fix, enemyCount, objects, objectCount⟩

/-- The one fix-up of the second version. -/
def darkFalzFixup (l : MapLobby) (e : GameEnemy) : GameEnemy :=
  if l.difficulty ≠ 0 then
    if e.bpEntry = 0x37 then { e with bpEntry := 0x38 } else e
  else e

def v2LoadGameEnemies (p : ParsedMaps) (l : MapLobby) (maps : List ℕ) (alloc : Fin 4 → Bool) :
    Loading :=
  loadGameEnemies (darkFalzFixup l) p.v2 maps alloc

def gcLoadGameEnemies (p : ParsedMaps) (l : MapLobby) (episode : BitVec 8) (maps : List ℕ)
    (alloc : Fin 4 → Bool) : Loading :=
  match rowAt p.gc episode with
  | none => .outside
  | some levels => loadGameEnemies (fixup l) levels maps alloc

def bbLoadGameEnemies (p : ParsedMaps) (solo : Bool) (l : MapLobby) (episode : BitVec 8)
    (maps : List ℕ) (alloc : Fin 4 → Bool) : Loading :=
  match rowAt (p.bb solo) episode with
  | none => .outside
  | some levels => loadGameEnemies (fixup l) levels maps alloc

/-- The part of `lobby_create_game` that is about the maps, where the loader is called. -/
def createMaps (r : GameRequest) (p : ParsedMaps) (alloc : Fin 4 → Bool) (rng : Rng) : Loading :=
  match selectionRow r with
  | none => .outside
  | some row =>
    let maps := (chooseMaps r.nextMaps 0 row rng).1
    match r.kind with
    | .v2 _ => v2LoadGameEnemies p r.lobby maps alloc
    | .gc => gcLoadGameEnemies p r.lobby r.episode maps alloc
    | .bb solo => bbLoadGameEnemies p solo r.lobby r.episode maps alloc

/-- The levels of an episode that have been read, from one on: as many as it has areas, with the
numbers of maps and variations that the table has, and the others untouched. -/
inductive LevelsRead (ep : ℤ) : ℕ → ℤ → List ℕ → List ParsedLevel → Prop
  | none (area : ℤ) (row : List ℕ) (n : ℕ) : LevelsRead ep 0 area row (List.replicate n noLevel)
  | level {areas : ℕ} {area : ℤ} {row : List ℕ} {levels : List ParsedLevel} {level : ParsedLevel} :
      level.enemies.length = level.mapCount * level.variationCount →
      level.objects.length = level.mapCount * level.variationCount →
      (∀ set ∈ level.enemies, ∃ alt, ReadFrom ep alt area set) →
      LevelsRead ep areas (area + 1) row levels →
      LevelsRead ep (areas + 1) area (level.mapCount :: level.variationCount :: row)
        (level :: levels)

/-- The sets of an episode have been read by a table. -/
def EpisodeRead (table : List (List ℕ)) (sets : List (List ParsedLevel)) (i : ℕ) : Prop :=
  ∃ row areas levels, table[i]? = some row ∧ areaCounts[i]? = some areas ∧
    sets[i]? = some levels ∧ LevelsRead (i + 1) areas 0 row levels

/-- The sets that games of a kind are made of have been read. -/
def Read (p : ParsedMaps) : GameKind → Prop
  | .v2 _ => EpisodeRead maps [p.v2] 0
  | .gc => p.gc.length = 2 ∧ ∀ i < 2, EpisodeRead maps p.gc i
  | .bb solo => (p.bb solo).length = 3 ∧
    ∀ i < 3, EpisodeRead (if solo then spMaps else maps) (p.bb solo) i

/-- The episode of the request, as the tables count them. -/
def GameRequest.index (r : GameRequest) : ℕ :=
  match r.kind with
  | .v2 _ => 0
  | _ => r.episode.toNat - 1

def GameRequest.levels (r : GameRequest) (p : ParsedMaps) : List ParsedLevel :=
  match r.kind with
  | .v2 _ => p.v2
  | .gc => p.gc.getD r.index []
  | .bb solo => (p.bb solo).getD r.index []

def GameRequest.chosen (r : GameRequest) (rng : Rng) : List ℕ :=
  (chooseMaps r.nextMaps 0 ((selectionRow r).getD []) rng).1

/-- The set of a level that a selection stands for. -/
def pickSet {α : Type} (count : ℕ) (sets : List (List α)) (maps : List ℕ) (j : ℕ) : List α :=
  sets.getD (maps.getD (2 * j) 0 * count + maps.getD (2 * j + 1) 0) []

/-- The enemies of the selected variations, level by level. -/
def GameRequest.enemies (r : GameRequest) (p : ParsedMaps) (rng : Rng) : List GameEnemy :=
  (List.range (areaCounts.getD r.index 0)).flatMap fun j =>
    let level := (r.levels p).getD j noLevel
    pickSet level.variationCount level.enemies (r.chosen rng) j

/-- The objects of the selected variations, level by level. -/
def GameRequest.objects (r : GameRequest) (p : ParsedMaps) (rng : Rng) : List GameObject :=
  (List.range (areaCounts.getD r.index 0)).flatMap fun j =>
    let level := (r.levels p).getD j noLevel
    pickSet level.variationCount level.objects (r.chosen rng) j

/-- The game gets exactly the enemies and the objects of its variations, with the fix-ups that the
enemies of a quest get, or no map data, and nothing outside of the sets is accessed. -/
structure Assembled (r : GameRequest) (p : ParsedMaps) (alloc : Fin 4 → Bool) (rng : Rng) :
    Prop where
  inside : createMaps r p alloc rng ≠ .outside
  complete : ∀ game, createMaps r p alloc rng = .done game →
    game.enemies = (r.enemies p rng).map (fixup r.lobby) ∧
      game.enemyCount.toNat = (r.enemies p rng).length ∧
      game.objects = r.objects p rng ∧ game.objectCount.toNat = (r.objects p rng).length

/-- The episodes that there are sets for. -/
def EpisodeKnown (r : GameRequest) : Prop :=
  match r.kind with
  | .v2 _ => True
  | .gc => r.episode = 1 ∨ r.episode = 2
  | .bb _ => r.episode = 1 ∨ r.episode = 2 ∨ r.episode = 3

section Selection

theorem chooseMap_lt (next : Option (BitVec 32)) {t : ℕ} (ht : 0 < t) (rng : Rng) :
    (chooseMap next t rng).1 < t := by
  cases next with
  | none =>
    change ((if t ≠ 1 then (do let rnd ← genrand; return rnd.toNat % t)
      else pure 0 : Gen ℕ) rng).1 < t
    by_cases h : t ≠ 1
    · rw [if_pos h]
      exact Nat.mod_lt _ ht
    · rw [if_neg h]
      exact ht
  | some n =>
    change ((if n.toNat < t then pure n.toNat
      else (do let rnd ← genrand; return rnd.toNat % t) : Gen ℕ) rng).1 < t
    by_cases h : n.toNat < t
    · rw [if_pos h]
      exact h
    · rw [if_neg h]
      exact Nat.mod_lt _ ht

/-- Chosen or accepted, a selection is below the numbers of the table. -/
theorem chooseMaps_lt (next : Option (ℕ → BitVec 32)) {row : List ℕ} (hrow : ∀ t ∈ row, 0 < t)
    (i : ℕ) (rng : Rng) : List.Forall₂ (· < ·) (chooseMaps next i row rng).1 row := by
  induction row generalizing i rng with
  | nil => exact List.Forall₂.nil
  | cons t row ih =>
    have hhead := chooseMap_lt (next.map fun f => f i) (hrow t (.head _)) rng
    have htail := fun i rng => ih (fun t h => hrow t (.tail _ h)) i rng
    rw [chooseMaps, bind_run, bind_run]
    exact .cons hhead (htail _ _)

theorem forall₂_lt_of_le {ms row row' : List ℕ} (h : List.Forall₂ (· < ·) ms row)
    (hle : List.Forall₂ (· ≤ ·) row row') : List.Forall₂ (· < ·) ms row' := by
  induction h generalizing row' with
  | nil =>
    cases hle
    exact .nil
  | cons hlt _ ih =>
    cases hle with
    | cons hhead htail => exact .cons (hlt.trans_le hhead) (ih htail)

end Selection

section Gathering

/-- The two sets of a level that a selection stands for. -/
def pickSets (levels : List ParsedLevel) (ms : List ℕ) (j : ℕ) :
    List GameEnemy × List GameObject :=
  let level := levels.getD j noLevel
  (pickSet level.variationCount level.enemies ms j,
    pickSet level.variationCount level.objects ms j)

theorem index_lt {m v mc vc : ℕ} (hm : m < mc) (hv : v < vc) : m * vc + v < mc * vc :=
  calc m * vc + v < m * vc + vc := Nat.add_lt_add_left hv _
    _ = (m + 1) * vc := (Nat.succ_mul m vc).symm
    _ ≤ mc * vc := Nat.mul_le_mul_right vc hm

/-- A valid selection gathers the sets of the levels that have been read. -/
theorem gather_eq {ep : ℤ} {areas : ℕ} {area : ℤ} {row : List ℕ} {levels : List ParsedLevel}
    (h : LevelsRead ep areas area row levels) (hrow : ∀ t ∈ row, t < 2 ^ 16) {ms : List ℕ}
    (hms : List.Forall₂ (· < ·) ms row) :
    gather levels ms = .ok ((List.range areas).map (pickSets levels ms)) := by
  induction h generalizing ms with
  | none area row n =>
    cases n with
    | zero =>
      unfold gather
      rfl
    | succ n =>
      rcases ms with - | ⟨m, - | ⟨v, ms⟩⟩ <;> rfl
  | @level areas area row levels level hen hob hread hlevels ih =>
    obtain ⟨m, ms', hm, hms', rfl⟩ := List.forall₂_cons_right_iff.mp hms
    obtain ⟨v, ms'', hv, hms'', rfl⟩ := List.forall₂_cons_right_iff.mp hms'
    have hmc := hrow _ (.head _)
    have hvc := hrow _ (.tail _ (.head _))
    have hindex := index_lt hm hv
    have hsmall : (m * level.variationCount + v) % 2 ^ 32 = m * level.variationCount + v := by
      refine Nat.mod_eq_of_lt (hindex.trans ?_)
      calc level.mapCount * level.variationCount < 2 ^ 16 * 2 ^ 16 :=
            Nat.mul_lt_mul'' hmc hvc
        _ = 2 ^ 32 := by norm_num
    have hrest := ih (fun t ht => hrow t (.tail _ (.tail _ ht))) hms''
    rw [gather, if_neg (fun h => by omega), if_neg (by omega)]
    dsimp only
    rw [hsmall, List.getElem?_eq_getElem (hen ▸ hindex), List.getElem?_eq_getElem (hob ▸ hindex),
      hrest, List.range_succ_eq_map, List.map_cons, List.map_map]
    refine congrArg Except.ok (congrArg₂ List.cons ?_ rfl)
    refine Prod.ext ?_ ?_
    · exact (List.getD_eq_getElem _ _ (hen ▸ hindex)).symm
    · exact (List.getD_eq_getElem _ _ (hob ▸ hindex)).symm

theorem LevelsRead.readFrom {ep : ℤ} {areas : ℕ} {area : ℤ} {row : List ℕ}
    {levels : List ParsedLevel} (h : LevelsRead ep areas area row levels) :
    ∀ level ∈ levels, ∀ set ∈ level.enemies, ∃ alt area, ReadFrom ep alt area set := by
  induction h with
  | none area row n =>
    intro level hlevel set hset
    rw [List.eq_of_mem_replicate hlevel] at hset
    cases hset
  | level _ _ hread _ ih =>
    intro level hlevel set hset
    rcases List.mem_cons.mp hlevel with rfl | hlevel
    · obtain ⟨alt, hfrom⟩ := hread set hset
      exact ⟨alt, _, hfrom⟩
    · exact ih level hlevel set hset

/-- A set that is picked is one of those that have been read, or empty. -/
theorem LevelsRead.pickSets {ep : ℤ} {areas : ℕ} {area : ℤ} {row : List ℕ}
    {levels : List ParsedLevel} (h : LevelsRead ep areas area row levels) (ms : List ℕ) (j : ℕ) :
    (pickSets levels ms j).1 = [] ∨ ∃ alt area, ReadFrom ep alt area (pickSets levels ms j).1 := by
  have hmem {α : Type} (l : List α) (d : α) (i : ℕ) : l.getD i d = d ∨ l.getD i d ∈ l := by
    rcases Nat.lt_or_ge i l.length with hi | hi
    · rw [List.getD_eq_getElem _ _ hi]
      exact Or.inr (List.getElem_mem hi)
    · exact Or.inl (List.getD_eq_default _ _ hi)
  rcases hmem levels noLevel j with hlevel | hlevel
  · refine Or.inl ?_
    change pickSet (levels.getD j noLevel).variationCount (levels.getD j noLevel).enemies ms j = []
    rw [hlevel]
    rfl
  · exact (hmem _ [] _).imp id fun hset => h.readFrom _ hlevel _ hset

end Gathering

section Requests

/-- The fix-ups of the loader that a request goes to. -/
def GameRequest.fix (r : GameRequest) : GameEnemy → GameEnemy :=
  match r.kind with
  | .v2 _ => darkFalzFixup r.lobby
  | _ => fixup r.lobby

/-- What a request finds: a row to choose by, which is nowhere above the one that the levels have
been read by, and a loader that takes the levels and the selection. -/
structure Finds (r : GameRequest) (p : ParsedMaps) (sel row : List ℕ) : Prop where
  selection : selectionRow r = some sel
  pos : ∀ t ∈ sel, 0 < t
  le : List.Forall₂ (· ≤ ·) sel row
  small : ∀ t ∈ row, t < 2 ^ 16
  read : LevelsRead (r.index + 1) (areaCounts.getD r.index 0) 0 row (r.levels p)
  load : ∀ alloc rng,
    createMaps r p alloc rng = loadGameEnemies r.fix (r.levels p) (r.chosen rng) alloc

theorem maps_valid : ∀ row ∈ maps, ∀ t ∈ row, 0 < t ∧ t < 2 ^ 16 := by
  decide

theorem spMaps_valid : ∀ row ∈ spMaps, ∀ t ∈ row, 0 < t ∧ t < 2 ^ 16 := by
  decide

theorem dcnteMaps_le : ∀ row, maps[0]? = some row → List.Forall₂ (· ≤ ·) dcnteMaps row := by
  intro row h
  cases h
  decide

theorem rowAt_eq {α : Type} (table : List α) {episode : BitVec 8} {i : ℕ}
    (h : episode.toNat = i + 1) : rowAt table episode = table[i]? := by
  have hne : episode ≠ 0 := by
    rintro rfl
    exact absurd h (by simp)
  rw [rowAt, if_neg hne, h, Nat.add_sub_cancel]

theorem forall₂_le_refl (row : List ℕ) : List.Forall₂ (· ≤ ·) row row :=
  List.forall₂_same.mpr fun _ _ => le_rfl

theorem finds_v2 {r : GameRequest} {p : ParsedMaps} {nte : Bool} (hkind : r.kind = .v2 nte)
    (hread : Read p r.kind) : ∃ sel row, Finds r p sel row := by
  obtain ⟨kind, episode, lobby, next⟩ := r
  dsimp only at hkind hread
  subst hkind
  obtain ⟨row, areas, levels, hrow, hareas, hlevels, hread⟩ := hread
  cases hlevels
  cases hareas
  have hvalid := maps_valid row (List.mem_of_getElem? hrow)
  cases nte with
  | true =>
    refine ⟨dcnteMaps, row, rfl, by decide, dcnteMaps_le row hrow, fun t ht => (hvalid t ht).2,
      hread, fun alloc rng => rfl⟩
  | false =>
    refine ⟨row, row, hrow, fun t ht => (hvalid t ht).1, forall₂_le_refl row,
      fun t ht => (hvalid t ht).2, hread, fun alloc rng => ?_⟩
    cases hrow
    rfl

/-- A request for an episode, in a kind of game whose tables and sets go by episodes. -/
theorem finds_episode {r : GameRequest} {p : ParsedMaps} {table : List (List ℕ)}
    {sets : List (List ParsedLevel)} {i : ℕ} (hread : EpisodeRead table sets i)
    (hvalid : ∀ row ∈ table, ∀ t ∈ row, 0 < t ∧ t < 2 ^ 16) (hepisode : r.episode.toNat = i + 1)
    (hselection : selectionRow r = rowAt table r.episode) (hindex : r.index = r.episode.toNat - 1)
    (hlevels : r.levels p = sets.getD r.index [])
    (hload : ∀ levels, rowAt sets r.episode = some levels → ∀ sel, selectionRow r = some sel →
      ∀ alloc rng, createMaps r p alloc rng = loadGameEnemies r.fix levels (r.chosen rng) alloc) :
    ∃ sel row, Finds r p sel row := by
  obtain ⟨row, areas, levels, hrow, hareas, hsets, hread⟩ := hread
  have hvalid := hvalid row (List.mem_of_getElem? hrow)
  rw [hepisode, Nat.add_sub_cancel] at hindex
  rw [hindex, List.getD_eq_getElem?_getD, hsets, Option.getD_some] at hlevels
  have hsel : selectionRow r = some row :=
    hselection.trans ((rowAt_eq table hepisode).trans hrow)
  refine ⟨row, row, hsel, fun t ht => (hvalid t ht).1, forall₂_le_refl row,
    fun t ht => (hvalid t ht).2, ?_, ?_⟩
  · rw [hindex, hlevels, List.getD_eq_getElem?_getD, hareas]
    exact hread
  · rw [hlevels]
    exact hload levels ((rowAt_eq sets hepisode).trans hsets) row hsel

theorem finds_gc {r : GameRequest} {p : ParsedMaps} (hkind : r.kind = .gc)
    (hread : Read p r.kind) (hep : EpisodeKnown r) : ∃ sel row, Finds r p sel row := by
  obtain ⟨kind, episode, lobby, next⟩ := r
  dsimp only at hkind hread
  subst hkind
  obtain ⟨i, hi, hepisode⟩ : ∃ i < 2, episode.toNat = i + 1 := by
    rcases hep with rfl | rfl
    · exact ⟨0, by decide, rfl⟩
    · exact ⟨1, by decide, rfl⟩
  refine finds_episode (hread.2 i hi) maps_valid hepisode rfl rfl rfl ?_
  intro levels hlevels sel hsel alloc rng
  unfold createMaps GameRequest.chosen
  rw [hsel]
  dsimp only
  rw [gcLoadGameEnemies, hlevels]
  rfl

theorem finds_bb {r : GameRequest} {p : ParsedMaps} {solo : Bool} (hkind : r.kind = .bb solo)
    (hread : Read p r.kind) (hep : EpisodeKnown r) : ∃ sel row, Finds r p sel row := by
  obtain ⟨kind, episode, lobby, next⟩ := r
  dsimp only at hkind hread
  subst hkind
  obtain ⟨i, hi, hepisode⟩ : ∃ i < 3, episode.toNat = i + 1 := by
    rcases hep with rfl | rfl | rfl
    · exact ⟨0, by decide, rfl⟩
    · exact ⟨1, by decide, rfl⟩
    · exact ⟨2, by decide, rfl⟩
  have hvalid : ∀ row ∈ (if solo then spMaps else maps), ∀ t ∈ row, 0 < t ∧ t < 2 ^ 16 := by
    cases solo with
    | true => exact spMaps_valid
    | false => exact maps_valid
  refine finds_episode (hread.2 i hi) hvalid hepisode rfl rfl rfl ?_
  intro levels hlevels sel hsel alloc rng
  unfold createMaps GameRequest.chosen
  rw [hsel]
  dsimp only
  rw [bbLoadGameEnemies, hlevels]
  rfl

theorem finds {r : GameRequest} {p : ParsedMaps} (hread : Read p r.kind) (hep : EpisodeKnown r) :
    ∃ sel row, Finds r p sel row := by
  cases hkind : r.kind with
  | v2 nte => exact finds_v2 hkind hread
  | gc => exact finds_gc hkind hread hep
  | bb solo => exact finds_bb hkind hread hep

theorem rowAt_eq_none {α : Type} {table : List α} {episode : BitVec 8}
    (h : episode = 0 ∨ table.length < episode.toNat) : rowAt table episode = none := by
  rw [rowAt]
  split
  · rfl
  · rename_i hne
    have hpos : episode.toNat ≠ 0 := fun h0 => hne (BitVec.eq_of_toNat_eq h0)
    rcases h with h0 | hlong
    · exact absurd h0 hne
    · exact List.getElem?_eq_none (by omega)

/-- Other episodes lead outside of the sets, or of the tables before that. -/
theorem createMaps_outside {r : GameRequest} {p : ParsedMaps} (hread : Read p r.kind)
    (hep : ¬EpisodeKnown r) (alloc : Fin 4 → Bool) (rng : Rng) :
    createMaps r p alloc rng = .outside := by
  obtain ⟨kind, episode, lobby, next⟩ := r
  have hlarge (n : ℕ) (hne : ∀ i, i < n → episode ≠ BitVec.ofNat 8 (i + 1)) (hn : n < 255) :
      episode = 0 ∨ n < episode.toNat := by
    by_contra hnot
    rw [not_or, not_lt] at hnot
    have hpos : episode.toNat ≠ 0 := fun h0 => hnot.1 (BitVec.eq_of_toNat_eq h0)
    refine hne (episode.toNat - 1) (by omega) (BitVec.eq_of_toNat_eq ?_)
    rw [BitVec.toNat_ofNat, Nat.sub_add_cancel (by omega), Nat.mod_eq_of_lt episode.isLt]
  have hcreate : selectionRow ⟨kind, episode, lobby, next⟩ = none →
      createMaps ⟨kind, episode, lobby, next⟩ p alloc rng = .outside := by
    intro hnone
    rw [createMaps, hnone]
  cases kind with
  | v2 nte => exact absurd trivial hep
  | gc =>
    have hout : episode = 0 ∨ 2 < episode.toNat := by
      refine hlarge 2 (fun i hi heq => hep ?_) (by decide)
      interval_cases i
      · exact Or.inl heq
      · exact Or.inr heq
    have hsets : rowAt p.gc episode = none := rowAt_eq_none (hread.1 ▸ hout)
    cases hrow : rowAt maps episode with
    | none => exact hcreate hrow
    | some row =>
      unfold createMaps
      change (match rowAt maps episode with | none => _ | some row => _) = _
      rw [hrow]
      dsimp only
      rw [gcLoadGameEnemies, hsets]
  | bb solo =>
    have hout : episode = 0 ∨ 3 < episode.toNat := by
      refine hlarge 3 (fun i hi heq => hep ?_) (by decide)
      interval_cases i
      · exact Or.inl heq
      · exact Or.inr (Or.inl heq)
      · exact Or.inr (Or.inr heq)
    refine hcreate (rowAt_eq_none ?_)
    cases solo <;> exact hout

end Requests

section Finding

variable {r : GameRequest} {p : ParsedMaps} {sel row : List ℕ}

theorem Finds.gather (h : Finds r p sel row) (rng : Rng) :
    gather (r.levels p) (r.chosen rng) =
      .ok ((List.range (areaCounts.getD r.index 0)).map
        (pickSets (r.levels p) (r.chosen rng))) := by
  have hchosen : List.Forall₂ (· < ·) (r.chosen rng) sel := by
    rw [GameRequest.chosen, h.selection]
    exact chooseMaps_lt _ h.pos 0 rng
  exact gather_eq h.read h.small (forall₂_lt_of_le hchosen h.le)

/-- What is among the enemies comes from a file that has been read. -/
theorem Finds.mem_enemies (h : Finds r p sel row) {rng : Rng} {e : GameEnemy}
    (he : e ∈ r.enemies p rng) : ∃ alt area set, ReadFrom (r.index + 1) alt area set ∧ e ∈ set := by
  obtain ⟨j, -, hj⟩ := List.mem_flatMap.mp he
  rcases h.read.pickSets (r.chosen rng) j with hnil | ⟨alt, area, hread⟩
  · change e ∈ (pickSets (r.levels p) (r.chosen rng) j).1 at hj
    rw [hnil] at hj
    cases hj
  · exact ⟨alt, area, _, hread, hj⟩

/-- The enemies of sixteen levels can be counted. -/
theorem Finds.length_enemies (h : Finds r p sel row) (rng : Rng) :
    (r.enemies p rng).length < 2 ^ 32 := by
  have hareas : areaCounts.getD r.index 0 ≤ 16 := by
    rcases Nat.lt_or_ge r.index 3 with hi | hi
    · generalize r.index = i at hi
      interval_cases i <;> decide
    · rw [List.getD_eq_default _ _ hi]
      exact Nat.zero_le _
  have hset : ∀ n ∈ (List.range (areaCounts.getD r.index 0)).map
      (fun j => (pickSets (r.levels p) (r.chosen rng) j).1.length), n ≤ capacity := by
    intro n hn
    obtain ⟨j, -, rfl⟩ := List.mem_map.mp hn
    rcases h.read.pickSets (r.chosen rng) j with hnil | ⟨alt, area, hread⟩
    · rw [hnil]
      exact Nat.zero_le _
    · exact hread.length_le
  have hsum := List.sum_le_card_nsmul _ capacity hset
  rw [List.length_map, List.length_range, smul_eq_mul] at hsum
  have hlen : (r.enemies p rng).length = ((List.range (areaCounts.getD r.index 0)).map
      (fun j => (pickSets (r.levels p) (r.chosen rng) j).1.length)).sum :=
    List.length_flatMap
  calc (r.enemies p rng).length ≤ areaCounts.getD r.index 0 * capacity := hlen ▸ hsum
    _ ≤ 16 * capacity := Nat.mul_le_mul_right _ hareas
    _ < 2 ^ 32 := by decide

/-- The second version's fix-up is the one of the others where no Rappy waits for the event. -/
theorem darkFalzFixup_eq (l : MapLobby) {e : GameEnemy} (he : e.rtIndex ≠ rappyMark) :
    darkFalzFixup l e = fixup l e := by
  have hmark : ¬e.rtIndex = 255 := he
  rw [darkFalzFixup, fixup, if_neg hmark]
  by_cases hd : l.difficulty ≠ 0
  · rw [if_pos hd]
    by_cases hbp : e.bpEntry = 0x37
    · rw [if_pos hbp, if_pos ⟨hbp, hd⟩]
    · rw [if_neg hbp, if_neg (fun h => hbp h.1)]
  · rw [if_neg hd, if_neg (fun h => hd h.2)]

theorem Finds.fix_eq (h : Finds r p sel row) (rng : Rng) :
    (r.enemies p rng).map r.fix = (r.enemies p rng).map (fixup r.lobby) := by
  refine List.map_congr_left fun e he => ?_
  obtain ⟨alt, area, set, hread, hmem⟩ := h.mem_enemies he
  obtain ⟨kind, episode, lobby, next⟩ := r
  cases kind with
  | v2 nte => exact darkFalzFixup_eq lobby (hread.unmarked e hmem)
  | gc => rfl
  | bb solo => rfl

/-- What the loader makes of the request. -/
theorem Finds.createMaps_eq (h : Finds r p sel row) (alloc : Fin 4 → Bool) (rng : Rng) :
    createMaps r p alloc rng =
      if alloc 0 = false then .failed (-2)
      else if alloc 1 = false then .failed (-3)
      else if alloc 2 = false then .failed (-4)
      else if alloc 3 = false then .failed (-5)
      else if 2 ^ 32 ≤ (r.objects p rng).length then .outside
      else .done ⟨(r.enemies p rng).map (fixup r.lobby),
        BitVec.ofNat 32 (r.enemies p rng).length, r.objects p rng,
        BitVec.ofNat 32 (r.objects p rng).length⟩ := by
  have henemies : ((List.range (areaCounts.getD r.index 0)).map
      (pickSets (r.levels p) (r.chosen rng))).flatMap Prod.fst = r.enemies p rng :=
    List.flatMap_map _ _ _
  have hobjects : ((List.range (areaCounts.getD r.index 0)).map
      (pickSets (r.levels p) (r.chosen rng))).flatMap Prod.snd = r.objects p rng :=
    List.flatMap_map _ _ _
  have hcount := h.length_enemies rng
  have hwraps : ((BitVec.ofNat 32 (r.enemies p rng).length).toNat < (r.enemies p rng).length ∨
      (BitVec.ofNat 32 (r.objects p rng).length).toNat < (r.objects p rng).length) ↔
      2 ^ 32 ≤ (r.objects p rng).length := by
    rw [BitVec.toNat_ofNat, BitVec.toNat_ofNat, Nat.mod_eq_of_lt hcount]
    omega
  rw [h.load, loadGameEnemies, h.gather]
  dsimp only
  rw [henemies, hobjects, h.fix_eq]
  simp only [hwraps]

end Finding

/-- The objects of the selected variations can be counted. -/
def ObjectsCounted (r : GameRequest) (p : ParsedMaps) (rng : Rng) : Prop :=
  (r.objects p rng).length < 2 ^ 32

/-- Levels whose maps are all empty. -/
def emptyLevels : ℕ → List ℕ → List ParsedLevel
  | n + 1, mc :: vc :: row =>
    ⟨mc, vc, List.replicate (mc * vc) [], List.replicate (mc * vc) []⟩ :: emptyLevels n row
  | _, _ => [noLevel]

theorem emptyLevels_read (ep : ℤ) (n : ℕ) (area : ℤ) (row : List ℕ) (h : 2 * n ≤ row.length) :
    LevelsRead ep n area row (emptyLevels n row) := by
  induction n generalizing area row with
  | zero => exact .none area row 1
  | succ n ih =>
    rcases row with - | ⟨mc, - | ⟨vc, row⟩⟩
    · exact absurd h (by rw [List.length_nil]; omega)
    · exact absurd h (by rw [List.length_singleton]; omega)
    · refine @LevelsRead.level ep n area row (emptyLevels n row)
        ⟨mc, vc, List.replicate (mc * vc) [], List.replicate (mc * vc) []⟩
        List.length_replicate List.length_replicate ?_ (ih (area + 1) row ?_)
      · intro set hset
        exact ⟨false, [], fun _ => clearedEnemy, Nat.zero_le _, List.eq_of_mem_replicate hset⟩
      · rw [List.length_cons, List.length_cons] at h
        omega

/-- The two episodes of the GameCube, with empty maps. -/
def emptyMaps : ParsedMaps where
  v2 := []
  gc := [emptyLevels 15 (maps.getD 0 []), emptyLevels 16 (maps.getD 1 [])]
  bb _ := []

theorem emptyMaps_read : Read emptyMaps .gc := by
  refine ⟨rfl, fun i hi => ?_⟩
  interval_cases i
  · exact ⟨_, _, _, rfl, rfl, rfl, emptyLevels_read _ 15 0 _ (by decide)⟩
  · exact ⟨_, _, _, rfl, rfl, rfl, emptyLevels_read _ 16 0 _ (by decide)⟩

/-- A request for a GameCube game. -/
def gcRequest (episode : BitVec 8) : GameRequest := ⟨.gc, episode, ⟨false, false, 0, 0⟩, none⟩

end ShipServer.GameMaps
