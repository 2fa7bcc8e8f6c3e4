import ShipServer.GameMaps
import ShipServer.LabelledRuns

set_option autoImplicit false

/-! The files of the maps, read at each start of the server and freed when it shuts down. -/

namespace ShipServer.MapSets

open DropItems QuestMapCache MapExpansion LoadedMaps GameMaps LabelledRuns

/-- The three groups of static tables. -/
inductive Kind where
  | v2
  | gc
  | bb
  deriving DecidableEq

/-- A level, with the episodes counted from 0. -/
structure Level where
  solo : Bool
  episode : ℕ
  area : ℕ
  deriving DecidableEq

inductive SeekFailure where
  | seekEnd
  | tell
  | seekSet

inductive ReadFailure where
  | memory
  | read
  | parse

/-- A file that can be opened, with the calls on it that fail: those before its size is checked and
those after that. -/
structure MapFile where
  bytes : List UInt8
  seek : Option SeekFailure
  read : Option ReadFailure

/-- The directory of the maps, how many of the two tables of a level there is memory for, and what
`realloc` gives. -/
structure Disk where
  file : String → Option MapFile
  room : Level → ℕ
  beyond : ℕ → GameEnemy

def SeekFailure.code : SeekFailure → ℕ
  | .seekEnd => 3
  | .tell => 4
  | .seekSet => 5

def ReadFailure.code : ReadFailure → ℕ
  | .memory => 7
  | .read => 8
  | .parse => 9

/-- `%X` for the areas. -/
def hexDigit (n : ℕ) : Char :=
  (Nat.digitChar n).toUpper

def mapName (kind : Kind) (lv : Level) (solo : Bool) (k l : ℕ) (ext : String) : String :=
  let place := String.singleton (hexDigit lv.area) ++ toString k ++ toString l ++ ext
  match kind with
  | .v2 => "m" ++ place
  | .gc | .bb => (if solo then "s" else "m") ++ toString (lv.episode + 1) ++ place

/-- The map of a game for one player is looked for first, as some are shared. -/
def mapNames (kind : Kind) (lv : Level) (k l : ℕ) (ext : String) : List String :=
  if lv.solo then [mapName kind lv true k l ext, mapName kind lv false k l ext]
  else [mapName kind lv false k l ext]

/-- The bytes of a file that is made of records, or the code of what fails. -/
def readFile (d : Disk) (names : List String) (size : ℕ) : Except ℕ (List UInt8) :=
  match names.findSome? d.file with
  | none => .error 2
  | some f =>
    match f.seek with
    | some e => .error e.code
    | none =>
      if f.bytes.length % size ≠ 0 then .error 6
      else
        match f.read with
        | some e => .error e.code
        | none => .ok f.bytes

def records (size : ℕ) (bytes : List UInt8) : List (List UInt8) :=
  (List.range (bytes.length / size)).map fun i => (bytes.drop (i * size)).take size

def byteAt (r : List UInt8) (off : ℕ) : BitVec 8 :=
  (r.getD off 0).toBitVec

/-- A word of a record. -/
def wordAt (r : List UInt8) (off : ℕ) : BitVec 32 :=
  byteAt r (off + 3) ++ byteAt r (off + 2) ++ byteAt r (off + 1) ++ byteAt r off

/-- `map_enemy_t`. -/
def mapEnemy (r : List UInt8) : MapEnemy where
  base := wordAt r 0
  numClones := byteAt r 7 ++ byteAt r 6
  reserved10 := wordAt r 48
  skin := wordAt r 64

/-- The enemies of a variation, parsed, and its objects. -/
def enemyRecords (d : Disk) (kind : Kind) (lv : Level) (p : ℕ × ℕ) : Except ℕ (List MapEnemy) :=
  (readFile d (mapNames kind lv p.1 p.2 ".dat") 0x48).map fun bytes =>
    (records 0x48 bytes).map mapEnemy

def enemySet (d : Disk) (kind : Kind) (lv : Level) (p : ℕ × ℕ) : Except ℕ (List GameEnemy) :=
  (enemyRecords d kind lv p).map fun en =>
    parsedSet en ((lv.episode : ℤ) + 1) false lv.area d.beyond

def objectSet (d : Disk) (kind : Kind) (lv : Level) (p : ℕ × ℕ) : Except ℕ (List GameObject) :=
  (readFile d (mapNames kind lv p.1 p.2 "_o.dat") 0x44).map fun bytes =>
    (records 0x44 bytes).map fun data => ⟨data, 0⟩

/-- `parsed_map_t` and `parsed_objs_t` of a level, with the entries that have been written. -/
structure Table where
  mapCount : ℕ
  variationCount : ℕ
  enemies : Option (List (List GameEnemy))
  objects : Option (List (List GameObject))

def unread : Table := ⟨0, 0, none, none⟩

def Table.addEnemies (t : Table) (en : List GameEnemy) : Table :=
  { t with enemies := t.enemies.map (· ++ [en]) }

def Table.addObjects (t : Table) (ob : List GameObject) : Table :=
  { t with objects := t.objects.map (· ++ [ob]) }

/-- The numbers of maps and of variations of a level. -/
def counts (lv : Level) : ℕ × ℕ :=
  let row := (if lv.solo then spMaps else maps).getD lv.episode []
  (row.getD (2 * lv.area) 0, row.getD (2 * lv.area + 1) 0)

def pairs (n : ℕ × ℕ) : List (ℕ × ℕ) :=
  (List.range n.1).flatMap fun k => (List.range n.2).map fun l => (k, l)

/-- The loops of `read_v2_map_set` and `read_bb_map_set`. -/
def fill (d : Disk) (kind : Kind) (lv : Level) : List (ℕ × ℕ) → Table → Table × ℕ
  | [], t => (t, 0)
  | p :: ps, t =>
    match enemySet d kind lv p with
    | .error e => (t, e)
    | .ok en =>
      match objectSet d kind lv p with
      | .error e => (t.addEnemies en, e)
      | .ok ob => fill d kind lv ps ((t.addEnemies en).addObjects ob)

/-- `read_v2_map_set` and `read_bb_map_set`. -/
def readMapSet (d : Disk) (kind : Kind) (lv : Level) (t : Table) : Table × ℕ :=
  let t := { t with mapCount := (counts lv).1, variationCount := (counts lv).2 }
  if d.room lv = 0 then (t, 10)
  else
    let t := { t with enemies := some [] }
    if d.room lv = 1 then (t, 11)
    else fill d kind lv (pairs (counts lv)) { t with objects := some [] }

/-- `read_v2_map_files`, `read_gc_map_files` and `read_bb_map_files`, on the levels to read. -/
def readMapFiles (d : Disk) (kind : Kind) : List Level → (Level → Table) → (Level → Table) × ℕ
  | [], ts => (ts, 0)
  | lv :: lvs, ts =>
    let r := readMapSet d kind lv (ts lv)
    if r.2 ≠ 0 then (Function.update ts lv r.1, r.2)
    else readMapFiles d kind lvs (Function.update ts lv r.1)

def episodes : Kind → List ℕ
  | .v2 => [0]
  | .gc => [0, 1]
  | .bb => [0, 1, 2]

def modes : Kind → List Bool
  | .v2 | .gc => [false]
  | .bb => [false, true]

/-- The levels, in the order in which they are read. -/
def levels (kind : Kind) : List Level :=
  (episodes kind).flatMap fun i => (List.range (areaCounts.getD i 0)).flatMap fun j =>
    (modes kind).map fun solo => ⟨solo, i, j⟩

/-- The static tables of a group, and its flag, `have_v2_maps` for instance. -/
structure Maps where
  tables : Level → Table
  haveMaps : Bool

/-- What `v2_read_params` and the others do to the tables, or leave alone where there is no
directory to read. -/
def readParams (kind : Kind) (m : Maps) : Option Disk → Maps
  | none => m
  | some d =>
    let r := readMapFiles d kind (levels kind) m.tables
    { tables := r.1, haveMaps := m.haveMaps || r.2 == 0 }

/-- `v2_free_params` and the others. -/
def freeParams (m : Maps) : Maps :=
  { m with tables := fun _ => unread }

/-- One turn of the loop in `main`, from a shutdown to the end of the next start. -/
def restart (kind : Kind) (m : Maps) (d : Option Disk) : Maps :=
  readParams kind (freeParams m) d

def fresh : Maps where
  tables _ := unread
  haveMaps := false

/-- The two files of a variation can be read. -/
def VariationReadable (d : Disk) (kind : Kind) (lv : Level) (p : ℕ × ℕ) : Prop :=
  ∃ en ob, enemySet d kind lv p = .ok en ∧ objectSet d kind lv p = .ok ob

def Readable (d : Disk) (kind : Kind) (lv : Level) : Prop :=
  2 ≤ d.room lv ∧ ∀ p ∈ pairs (counts lv), VariationReadable d kind lv p

/-- The tables of a level that has been read. -/
def whole (d : Disk) (kind : Kind) (lv : Level) : Table where
  mapCount := (counts lv).1
  variationCount := (counts lv).2
  enemies := some ((pairs (counts lv)).map fun p => (enemySet d kind lv p).toOption.getD [])
  objects := some ((pairs (counts lv)).map fun p => (objectSet d kind lv p).toOption.getD [])

/-- All the pointers that the tables of a level are taken to have are there. -/
def Table.Freeable (t : Table) : Prop :=
  t.mapCount * t.variationCount = 0 ∨ ∃ es os, t.enemies = some es ∧ t.objects = some os ∧
    t.mapCount * t.variationCount ≤ es.length ∧ t.mapCount * t.variationCount ≤ os.length

section Reading

variable {d : Disk} {kind : Kind} {lv : Level}

theorem readFile_error {names : List String} {size e : ℕ} (h : readFile d names size = .error e) :
    e ≠ 0 := by
  rw [readFile] at h
  split at h
  next => cases h; decide
  next f _ =>
    split at h
    next failure _ =>
      cases h
      cases failure <;> decide
    next =>
      split at h
      next => cases h; decide
      next =>
        split at h
        next failure _ =>
          cases h
          cases failure <;> decide
        next => cases h

theorem map_error {α β : Type} {x : Except ℕ α} {f : α → β} {e : ℕ} (h : x.map f = .error e) :
    x = .error e := by
  cases x with
  | error e' =>
    cases h
    rfl
  | ok a => cases h

theorem enemySet_error {p : ℕ × ℕ} {e : ℕ} (h : enemySet d kind lv p = .error e) : e ≠ 0 :=
  readFile_error (map_error (map_error h))

theorem objectSet_error {p : ℕ × ℕ} {e : ℕ} (h : objectSet d kind lv p = .error e) : e ≠ 0 :=
  readFile_error (map_error h)

theorem fill_readable {ps : List (ℕ × ℕ)} (h : ∀ p ∈ ps, VariationReadable d kind lv p) (m v : ℕ)
    (es : List (List GameEnemy)) (os : List (List GameObject)) :
    fill d kind lv ps ⟨m, v, some es, some os⟩ =
      (⟨m, v, some (es ++ ps.map fun p => (enemySet d kind lv p).toOption.getD []),
        some (os ++ ps.map fun p => (objectSet d kind lv p).toOption.getD [])⟩, 0) := by
  induction ps generalizing es os with
  | nil =>
    rw [fill, List.map_nil, List.map_nil, List.append_nil, List.append_nil]
  | cons p ps ih =>
    obtain ⟨en, ob, hen, hob⟩ := h p List.mem_cons_self
    have htail := ih (fun q hq => h q (List.mem_cons_of_mem p hq)) (es ++ [en]) (os ++ [ob])
    rw [fill, hen, hob]
    dsimp only
    refine htail.trans ?_
    rw [List.append_assoc, List.append_assoc, List.map_cons, List.map_cons, hen, hob]
    rfl

/-- A failure leaves fewer sets of objects than there are variations. -/
theorem fill_unreadable {ps : List (ℕ × ℕ)} (h : ¬ ∀ p ∈ ps, VariationReadable d kind lv p)
    (m v : ℕ) (es : List (List GameEnemy)) (os : List (List GameObject)) :
    (fill d kind lv ps ⟨m, v, some es, some os⟩).2 ≠ 0 ∧
      ∃ es' os', (fill d kind lv ps ⟨m, v, some es, some os⟩).1 = ⟨m, v, some es', some os'⟩ ∧
        os'.length < os.length + ps.length := by
  induction ps generalizing es os with
  | nil => exact absurd (fun p hp => by cases hp) h
  | cons p ps ih =>
    rw [fill]
    split
    next e he =>
      exact ⟨enemySet_error he, es, os, rfl, by rw [List.length_cons]; omega⟩
    next en hen =>
      split
      next e he =>
        exact ⟨objectSet_error he, es ++ [en], os, rfl, by rw [List.length_cons]; omega⟩
      next ob hob =>
        have hrest : ¬ ∀ q ∈ ps, VariationReadable d kind lv q := by
          intro hall
          refine h fun q hq => ?_
          rcases List.mem_cons.1 hq with rfl | hq
          · exact ⟨en, ob, hen, hob⟩
          · exact hall q hq
        obtain ⟨hcode, es', os', heq, hlt⟩ := ih hrest (es ++ [en]) (os ++ [ob])
        refine ⟨hcode, es', os', heq, ?_⟩
        rw [List.length_append, List.length_singleton] at hlt
        rw [List.length_cons]
        omega

theorem length_pairs (n : ℕ × ℕ) : (pairs n).length = n.1 * n.2 := by
  simp [pairs, List.length_flatMap]

theorem readMapSet_readable (h : Readable d kind lv) (t : Table) :
    readMapSet d kind lv t = (whole d kind lv, 0) := by
  rw [readMapSet]
  dsimp only
  rw [if_neg (by have := h.1; omega), if_neg (by have := h.1; omega), fill_readable h.2]
  rfl

theorem readMapSet_unreadable (h : ¬ Readable d kind lv)
    (hcounts : 0 < (counts lv).1 * (counts lv).2) :
    (readMapSet d kind lv unread).2 ≠ 0 ∧ ¬ (readMapSet d kind lv unread).1.Freeable := by
  rw [readMapSet]
  dsimp only
  split
  next =>
    refine ⟨Nat.succ_ne_zero 9, ?_⟩
    rintro (hzero | ⟨es, os, hes, -⟩)
    · exact absurd hzero hcounts.ne'
    · cases hes
  next hroom =>
    split
    next =>
      refine ⟨Nat.succ_ne_zero 10, ?_⟩
      rintro (hzero | ⟨es, os, -, hos, -⟩)
      · exact absurd hzero hcounts.ne'
      · cases hos
    next hroom' =>
      have hps : ¬ ∀ p ∈ pairs (counts lv), VariationReadable d kind lv p :=
        fun hall => h ⟨by omega, hall⟩
      obtain ⟨hcode, es', os', heq, hlt⟩ := fill_unreadable hps (counts lv).1 (counts lv).2 [] []
      refine ⟨hcode, ?_⟩
      rw [heq]
      rintro (hzero | ⟨es, os, -, hos, -, hle⟩)
      · exact absurd hzero hcounts.ne'
      · cases hos
        rw [List.length_nil, Nat.zero_add, length_pairs] at hlt
        exact absurd hle (Nat.not_le.2 hlt)

theorem whole_freeable (d : Disk) (kind : Kind) (lv : Level) : (whole d kind lv).Freeable := by
  refine .inr ⟨_, _, rfl, rfl, ?_, ?_⟩
  · rw [List.length_map, length_pairs]
    exact le_rfl
  · rw [List.length_map, length_pairs]
    exact le_rfl

theorem readMapFiles_readable {lvs : List Level} (h : ∀ lv ∈ lvs, Readable d kind lv)
    (ts : Level → Table) :
    (readMapFiles d kind lvs ts).2 = 0 ∧ ∀ lv, (readMapFiles d kind lvs ts).1 lv =
      if lv ∈ lvs then whole d kind lv else ts lv := by
  induction lvs generalizing ts with
  | nil => exact ⟨rfl, fun lv => (if_neg List.not_mem_nil).symm⟩
  | cons lv lvs ih =>
    rw [readMapFiles, readMapSet_readable (h lv List.mem_cons_self)]
    dsimp only
    rw [if_neg (by simp)]
    obtain ⟨hcode, htables⟩ := ih (fun lv' hlv' => h lv' (List.mem_cons_of_mem lv hlv'))
      (Function.update ts lv (whole d kind lv))
    refine ⟨hcode, fun lv' => ?_⟩
    rw [htables lv']
    by_cases htail : lv' ∈ lvs
    · rw [if_pos htail, if_pos (List.mem_cons_of_mem lv htail)]
    · rw [if_neg htail]
      by_cases hhead : lv' = lv
      · rw [hhead, Function.update_self, if_pos List.mem_cons_self]
      · rw [Function.update_of_ne hhead, if_neg (by simp [hhead, htail])]

/-- The level that cannot be read keeps what has been read of it. -/
theorem readMapFiles_unreadable {lvs : List Level} (h : ¬ ∀ lv ∈ lvs, Readable d kind lv)
    (hcounts : ∀ lv ∈ lvs, 0 < (counts lv).1 * (counts lv).2) (ts : Level → Table)
    (hunread : ∀ lv ∈ lvs, ¬ Readable d kind lv → ts lv = unread) :
    (readMapFiles d kind lvs ts).2 ≠ 0 ∧ ∃ lv, ¬ ((readMapFiles d kind lvs ts).1 lv).Freeable := by
  induction lvs generalizing ts with
  | nil => exact absurd (fun lv hlv => by cases hlv) h
  | cons lv lvs ih =>
    rw [readMapFiles]
    by_cases hlv : Readable d kind lv
    · rw [readMapSet_readable hlv, if_neg (by simp)]
      refine ih (fun hall => h fun lv' hlv' => ?_)
        (fun lv' hlv' => hcounts lv' (List.mem_cons_of_mem lv hlv')) _ fun lv' hlv' hbad => ?_
      · rcases List.mem_cons.1 hlv' with rfl | hlv'
        · exact hlv
        · exact hall lv' hlv'
      · have hne : lv' ≠ lv := by
          rintro rfl
          exact hbad hlv
        rw [Function.update_of_ne hne]
        exact hunread lv' (List.mem_cons_of_mem lv hlv') hbad
    · rw [hunread lv List.mem_cons_self hlv]
      obtain ⟨hcode, hfree⟩ := readMapSet_unreadable hlv (hcounts lv List.mem_cons_self)
      rw [if_pos hcode]
      refine ⟨hcode, lv, ?_⟩
      dsimp only
      rwa [Function.update_self]

theorem counts_pos (kind : Kind) : ∀ lv ∈ levels kind, 0 < (counts lv).1 * (counts lv).2 := by
  cases kind <;> decide +kernel

-- the maps of the second episode in the tenth area, and their objects
example : mapName .gc ⟨false, 1, 10⟩ false 2 1 "_o.dat" = "m2A21_o.dat" := by decide +kernel

end Reading

/-- The tables are there when the flag says so, and they can be freed. -/
structure Safe (kind : Kind) (m : Maps) : Prop where
  there : m.haveMaps = true → ∃ d, ∀ lv ∈ levels kind, m.tables lv = whole d kind lv
  freeable : ∀ lv, (m.tables lv).Freeable

/-- A start with a directory reads all the maps, and a start without comes before any of them. -/
def Good (kind : Kind) (m : Maps) : Option Disk → Prop
  | none => m.haveMaps = false
  | some d => ∀ lv ∈ levels kind, Readable d kind lv

section Restarts

variable {kind : Kind} {m : Maps}

theorem unread_freeable : unread.Freeable :=
  .inl rfl

theorem first_mem (kind : Kind) : (⟨false, 0, 0⟩ : Level) ∈ levels kind := by
  cases kind <;> decide +kernel

theorem fresh_safe (kind : Kind) : Safe kind fresh :=
  ⟨fun h => absurd h Bool.false_ne_true, fun _ => unread_freeable⟩

theorem restart_safe_iff (kind : Kind) (m : Maps) (d : Option Disk) :
    Safe kind (restart kind m d) ↔ Good kind m d := by
  cases d with
  | none =>
    constructor
    · intro h
      by_contra hhave
      obtain ⟨d, hwhole⟩ := h.there (eq_true_of_ne_false hhave)
      have hcount : 0 = (counts ⟨false, 0, 0⟩).1 :=
        congrArg Table.mapCount (hwhole _ (first_mem kind))
      exact absurd hcount (by decide)
    · intro h
      refine ⟨fun hhave => ?_, fun _ => unread_freeable⟩
      exact absurd (h.symm.trans hhave) (by decide)
  | some d =>
    constructor
    · intro h
      by_contra hbad
      obtain ⟨-, lv, hlv⟩ := readMapFiles_unreadable hbad (counts_pos kind) (fun _ => unread)
        fun _ _ _ => rfl
      exact hlv (h.freeable lv)
    · intro h
      obtain ⟨-, htables⟩ := readMapFiles_readable h fun _ => unread
      refine ⟨fun _ => ⟨d, fun lv hlv => ?_⟩, fun lv => ?_⟩
      · exact (htables lv).trans (if_pos hlv)
      · change ((readMapFiles d kind (levels kind) fun _ => unread).1 lv).Freeable
        rw [htables lv]
        split
        next => exact whole_freeable d kind lv
        next => exact unread_freeable

/-- Through any number of restarts, the tables are there whenever the flag says so, and a shutdown
frees nothing but what there is, exactly when each start with a directory has read all the maps and
no start without a directory comes after one of these. -/
theorem maps_safe (kind : Kind) (ds : List (Option Disk)) :
    Run (StepOf (restart kind)) (Good kind) fresh ds (ds.foldl (restart kind) fresh) ↔
      ∀ es, es <+: ds → Safe kind (es.foldl (restart kind) fresh) :=
  run_iff_prefixes (Safe kind) (fun m d _ => restart_safe_iff kind m d) (fresh_safe kind) ds

end Restarts

/-- No file has more enemies than `parse_map` has room for. -/
def Fits (d : Disk) (kind : Kind) : Prop :=
  ∀ lv ∈ levels kind, ∀ p ∈ pairs (counts lv), ∀ en, enemyRecords d kind lv p = .ok en →
    total ((lv.episode : ℤ) + 1) false en ≤ capacity

def Table.parsed (t : Table) : ParsedLevel :=
  ⟨t.mapCount, t.variationCount, t.enemies.getD [], t.objects.getD []⟩

/-- The 16 levels of an episode. -/
def sets (m : Maps) (solo : Bool) (i : ℕ) : List ParsedLevel :=
  (List.range 16).map fun j => (m.tables ⟨solo, i, j⟩).parsed

/-- What the loaders of a game's enemies find in the three groups of tables. -/
def parsedMaps (v2 gc bb : Maps) : ParsedMaps where
  v2 := sets v2 false 0
  gc := [sets gc false 0, sets gc false 1]
  bb solo := [sets bb solo 0, sets bb solo 1, sets bb solo 2]

section Loaded

variable {d : Disk} {kind : Kind} {m : Maps} {lv : Level}

theorem mem_levels : lv ∈ levels kind ↔
    lv.episode ∈ episodes kind ∧ lv.area < areaCounts.getD lv.episode 0 ∧ lv.solo ∈ modes kind := by
  simp only [levels, List.mem_flatMap, List.mem_map, List.mem_range]
  constructor
  · rintro ⟨i, hi, j, hj, solo, hsolo, rfl⟩
    exact ⟨hi, hj, hsolo⟩
  · rintro ⟨hi, hj, hsolo⟩
    exact ⟨lv.episode, hi, lv.area, hj, lv.solo, hsolo, rfl⟩

/-- What a level has that has been read. -/
structure LevelFull (lv : Level) (t : ParsedLevel) : Prop where
  counted : (t.mapCount, t.variationCount) = counts lv
  enemies : t.enemies.length = t.mapCount * t.variationCount
  objects : t.objects.length = t.mapCount * t.variationCount
  readFrom : ∀ set ∈ t.enemies, ∃ alt, ReadFrom ((lv.episode : ℤ) + 1) alt lv.area set

theorem whole_full (hread : Readable d kind lv)
    (hfit : ∀ p ∈ pairs (counts lv), ∀ en, enemyRecords d kind lv p = .ok en →
      total ((lv.episode : ℤ) + 1) false en ≤ capacity) :
    LevelFull lv (whole d kind lv).parsed := by
  refine ⟨rfl, ?_, ?_, fun set hset => ?_⟩
  · exact (List.length_map _).trans (length_pairs (counts lv))
  · exact (List.length_map _).trans (length_pairs (counts lv))
  · obtain ⟨p, hp, rfl⟩ := List.mem_map.1 hset
    obtain ⟨en, -, hen, -⟩ := hread.2 p hp
    rw [hen]
    rw [enemySet] at hen
    cases hrecords : enemyRecords d kind lv p with
    | error e =>
      rw [hrecords] at hen
      cases hen
    | ok rs =>
      rw [hrecords] at hen
      cases hen
      exact ⟨false, rs, d.beyond, hfit p hp rs hrecords, rfl⟩

/-- The levels of an episode from one on, as the loaders want them. -/
theorem levelsRead (solo : Bool) (i : ℕ) {row : List ℕ}
    (hrow : (if solo then spMaps else maps).getD i [] = row) (hlength : row.length = 32) (n j : ℕ)
    (hn : j + n ≤ 16)
    (hfull : ∀ a, j ≤ a → a < j + n → LevelFull ⟨solo, i, a⟩ (m.tables ⟨solo, i, a⟩).parsed)
    (hrest : ∀ a, j + n ≤ a → m.tables ⟨solo, i, a⟩ = unread) :
    LevelsRead ((i : ℤ) + 1) n (j : ℤ) (row.drop (2 * j))
      ((List.range' j (16 - j)).map fun a => (m.tables ⟨solo, i, a⟩).parsed) := by
  induction n generalizing j with
  | zero =>
    have hnone : ((List.range' j (16 - j)).map fun a => (m.tables ⟨solo, i, a⟩).parsed) =
        List.replicate (16 - j) noLevel := by
      refine List.eq_replicate_iff.2 ⟨by simp, fun level hlevel => ?_⟩
      obtain ⟨a, ha, rfl⟩ := List.mem_map.1 hlevel
      rw [hrest a (List.mem_range'_1.1 ha).1]
      rfl
    rw [hnone]
    exact .none _ _ _
  | succ n ih =>
    have hlevel := hfull j le_rfl (by omega)
    have hcounted : (m.tables ⟨solo, i, j⟩).parsed.mapCount = row.getD (2 * j) 0 ∧
        (m.tables ⟨solo, i, j⟩).parsed.variationCount = row.getD (2 * j + 1) 0 := by
      have hpair := hlevel.counted
      rw [counts, hrow] at hpair
      exact Prod.mk.inj hpair
    have hdrop : row.drop (2 * j) = (m.tables ⟨solo, i, j⟩).parsed.mapCount ::
        (m.tables ⟨solo, i, j⟩).parsed.variationCount :: row.drop (2 * (j + 1)) := by
      rw [hcounted.1, hcounted.2, List.drop_eq_getElem_cons (by omega),
        List.drop_eq_getElem_cons (by omega), List.getD_eq_getElem _ _ (by omega),
        List.getD_eq_getElem _ _ (by omega)]
      rfl
    have hsplit : 16 - j = (16 - (j + 1)) + 1 := by omega
    rw [hdrop, hsplit, List.range'_succ, List.map_cons]
    refine .level hlevel.enemies hlevel.objects hlevel.readFrom ?_
    have htail := ih (j + 1) (by omega) (fun a ha ha' => hfull a (by omega) (by omega))
      fun a ha => hrest a (by omega)
    exact_mod_cast htail

/-- The tables after a start that has read everything. -/
def Loaded (d : Disk) (kind : Kind) (m : Maps) : Prop :=
  (∀ lv ∈ levels kind, Readable d kind lv) ∧ Fits d kind ∧
    ∃ before, m = restart kind before (some d)

theorem Loaded.tables (h : Loaded d kind m) (lv : Level) :
    m.tables lv = if lv ∈ levels kind then whole d kind lv else unread := by
  obtain ⟨hread, -, before, rfl⟩ := h
  exact (readMapFiles_readable hread fun _ => unread).2 lv

theorem Loaded.levelsRead (h : Loaded d kind m) {solo : Bool} {i areas : ℕ} {row : List ℕ}
    (hepisode : i ∈ episodes kind) (hsolo : solo ∈ modes kind)
    (hrow : (if solo then spMaps else maps).getD i [] = row) (hlength : row.length = 32)
    (hareas : areaCounts.getD i 0 = areas) (hle : areas ≤ 16) :
    LevelsRead ((i : ℤ) + 1) areas 0 row (sets m solo i) := by
  have hlevels : ∀ a, (⟨solo, i, a⟩ : Level) ∈ levels kind ↔ a < areas := by
    intro a
    rw [mem_levels, hareas]
    exact ⟨fun hmem => hmem.2.1, fun hlt => ⟨hepisode, hlt, hsolo⟩⟩
  have hread := MapSets.levelsRead (m := m) solo i hrow hlength areas 0 (by omega)
    (fun a _ ha => ?_) fun a ha => ?_
  · simpa [sets, List.range_eq_range'] using hread
  · have hmem := (hlevels a).2 (by omega)
    rw [h.tables, if_pos hmem]
    exact whole_full (h.1 _ hmem) (h.2.1 _ hmem)
  · rw [h.tables, if_neg fun hmem => absurd ((hlevels a).1 hmem) (by omega)]

theorem Loaded.episodeRead (h : Loaded d kind m) (solo : Bool) {i : ℕ}
    (hepisode : i ∈ episodes kind) (hsolo : solo ∈ modes kind) {all : List (List ParsedLevel)}
    (hall : all[i]? = some (sets m solo i)) :
    EpisodeRead (if solo then spMaps else maps) all i := by
  have hi : i < 3 := by
    cases kind <;> simp only [episodes, List.mem_cons, List.not_mem_nil, or_false] at hepisode <;>
      omega
  cases solo <;> interval_cases i <;>
    exact ⟨_, _, _, rfl, rfl, hall, h.levelsRead hepisode hsolo rfl rfl rfl (by decide)⟩

/-- Every file is there, and empty. -/
def emptyFiles : Disk where
  file _ := some ⟨[], none, none⟩
  room _ := 2
  beyond _ := clearedEnemy

theorem emptyFiles_loaded (kind : Kind) :
    Loaded emptyFiles kind (restart kind fresh (some emptyFiles)) := by
  have hfound : ∀ (lv : Level) (k l : ℕ) (ext : String),
      (mapNames kind lv k l ext).findSome? emptyFiles.file = some ⟨[], none, none⟩ := by
    intro lv k l ext
    rw [mapNames]
    split <;> rfl
  have hread : ∀ (lv : Level) (k l size : ℕ) (ext : String),
      readFile emptyFiles (mapNames kind lv k l ext) size = .ok [] := by
    intro lv k l size ext
    rw [readFile, hfound]
    simp
  have hrecords : ∀ lv p, enemyRecords emptyFiles kind lv p = .ok [] := by
    intro lv p
    rw [enemyRecords, hread]
    rfl
  refine ⟨fun lv _ => ⟨le_rfl, fun p _ => ?_⟩, fun lv _ p _ en hen => ?_, fresh, rfl⟩
  · refine ⟨parsedSet [] ((lv.episode : ℤ) + 1) false lv.area emptyFiles.beyond, [], ?_, ?_⟩
    · rw [enemySet, hrecords]
      rfl
    · rw [objectSet, hread]
      rfl
  · rw [hrecords] at hen
    cases hen
    exact Nat.zero_le _

end Loaded

end ShipServer.MapSets
