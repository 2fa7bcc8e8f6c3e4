import ShipServer.DropGenerators
import ShipServer.FileReads
import ShipServer.MapDrops

set_option autoImplicit false

/-! The ItemRT files: the archives that `rt_read_v2` and `rt_read_gc` accept, and what the boxes of
a game drop by them. -/

namespace ShipServer.RareTables

open DropItems DropGenerators FileReads
open MapDrops (mesetaOnly forest forestRequest)

abbrev Byte := BitVec 8

abbrev Read := Reader Byte ℤ

/-- `expd` of `expand_rate`. -/
def expandRate (rate : Byte) : BitVec 32 :=
  let tmp : ℤ := (rate >>> 3).toNat - 4
  let tmp := if tmp < 0 then 0 else tmp
  ((2 : BitVec 32) <<< tmp.toNat) * ((rate &&& 7).zeroExtend 32 + 7)

/-- Byte `k` of what has been read, as an integer. -/
def byte (buf : List Byte) (k : ℕ) : BitVec 32 :=
  (buf.getD k 0).zeroExtend 32

/-- An `rt_entry_t`, for an area. -/
def rtData (ent : List Byte) (area : BitVec 32) : RtData where
  prob := expandRate (ent.getD 0 0)
  itemData := byte ent 1 ||| byte ent 2 <<< 8 ||| byte ent 3 <<< 16
  area := area

/-- The set of the entries for enemies, the areas of the boxes and the entries for boxes. Box `l`
has the area at `index l`. -/
def rtSet (index : ℕ → ℕ) (enemies : List (List Byte)) (areas : List Byte)
    (boxes : List (List Byte)) : RtSet where
  enemyRares k := rtData (enemies.getD k []) 0
  boxRares := (List.range 30).map fun l => rtData (boxes.getD l []) (byte areas (index l))

/-- The body of the loops over the sets, in both functions. -/
def readSet (offset : BitVec 32) (index : ℕ → ℕ) : Read RtSet := do
  fseek offset.toNat
  let enemies ← loop (fun _ => fread 4 (-2)) 0x65 0
  let areas ← fread 30 (-2)
  let boxes ← loop (fun _ => fread 4 (-2)) 30 0
  pure (rtSet index enemies areas boxes)

def le32 (buf : List Byte) : BitVec 32 :=
  byte buf 0 ||| byte buf 1 <<< 8 ||| byte buf 2 <<< 16 ||| byte buf 3 <<< 24

def be32 (buf : List Byte) : BitVec 32 :=
  byte buf 3 ||| byte buf 2 <<< 8 ||| byte buf 1 <<< 16 ||| byte buf 0 <<< 24

def afsEntry : Read (BitVec 32) := do
  let offset ← fread 4 (-2)
  let size ← fread 4 (-2)
  check (size = [0x80, 0x02, 0, 0]) 5
  pure (le32 offset)

/-- `rt_read_v2`, for a file that can be opened: the sets by difficulty and section ID. -/
def rtReadV2 : Read (List (List RtSet)) := do
  let buf ← fread 4 (-2)
  check (buf = [0x41, 0x46, 0x53, 0x00]) (-3)
  let buf ← fread 4 (-2)
  check (buf = [40, 0, 0, 0]) (-4)
  let offsets ← loop (fun _ => afsEntry) 40 0
  loop (fun i => loop (fun j => readSet (offsets.getD (i * 10 + j) 0) fun l => l) 10 0) 4 0

/-- The offsets are in blocks of 2048 bytes. -/
def gslEntry : Read (BitVec 32) := do
  skip 32
  let offset ← fread 4 (-2)
  let size ← fread 4 (-2)
  check (size = [0, 0, 0x02, 0x80]) 5
  skip 8
  pure (be32 offset <<< 11)

/-- `rt_read_gc`: the sets by episode, difficulty and section ID. Every box gets the area with the
number of the section ID. -/
def rtReadGc : Read (List (List (List RtSet))) := do
  let offsets ← loop (fun _ => gslEntry) 80 0
  loop (fun i => loop (fun j => loop (fun k =>
    readSet (offsets.getD (i * 40 + j * 10 + k) 0) fun _ => k) 10 0) 4 0) 2 0

/-- The return value, and the tables with their flag: a reader that fails leaves the flag off. -/
def load {α : Type} (r : Read α) : Option (List Byte) → ℤ × Option α
  | none => (-1, none)
  | some file =>
    match r 0 file with
    | .error e => (e, none)
    | .ok x => (0, some x.1)

section Sets

variable {file : List Byte} {p q : ℕ}

/-- The set at an offset of a file. -/
def setAt (file : List Byte) (offset : BitVec 32) (index : ℕ → ℕ) : RtSet :=
  rtSet index ((List.range 0x65).map fun k => slice file (offset.toNat + k * 4) 4)
    (slice file (offset.toNat + 0x65 * 4) 30)
    ((List.range 30).map fun k => slice file (offset.toNat + 0x65 * 4 + 30 + k * 4) 4)

theorem yields_readSet {offset : BitVec 32} {index : ℕ → ℕ} {s : RtSet} :
    Yields file (readSet offset index) p s q ↔
      offset.toNat + 554 ≤ file.length ∧ s = setAt file offset index ∧ q = offset.toNat + 554 := by
  unfold readSet
  constructor
  · intro h
    obtain ⟨_, m, hseek, h⟩ := yields_bind.1 h
    obtain rfl := yields_fseek.1 hseek
    obtain ⟨enemies, m, henemies, h⟩ := yields_bind.1 h
    obtain ⟨-, rfl, rfl⟩ := (yields_records _ _).1 henemies
    obtain ⟨areas, m, hareas, h⟩ := yields_bind.1 h
    obtain ⟨-, rfl, rfl⟩ := yields_fread.1 hareas
    obtain ⟨boxes, m, hboxes, h⟩ := yields_bind.1 h
    obtain ⟨hlast, rfl, rfl⟩ := (yields_records _ _).1 hboxes
    obtain ⟨rfl, rfl⟩ := (yields_pure _ _).1 h
    have hend := hlast 29 (by decide)
    exact ⟨by omega, rfl, by omega⟩
  · rintro ⟨hlen, rfl, rfl⟩
    refine yields_bind.2 ⟨(), offset.toNat, yields_fseek.2 rfl, ?_⟩
    refine yields_bind.2 ⟨_, _, (yields_records _ _).2 ⟨fun k hk => by omega, rfl, rfl⟩, ?_⟩
    refine yields_bind.2 ⟨_, _, yields_fread.2 ⟨by omega, rfl, rfl⟩, ?_⟩
    refine yields_bind.2 ⟨_, _, (yields_records _ _).2 ⟨fun k hk => by omega, rfl, rfl⟩, ?_⟩
    exact (yields_pure _ _).2 ⟨rfl, by omega⟩

/-- The sets of a loop over section IDs. -/
theorem yields_sections (offset : ℕ → BitVec 32) (index : ℕ → ℕ → ℕ) (p : ℕ) (sets : List RtSet)
    (q : ℕ) :
    Yields file (loop (fun k => readSet (offset k) (index k)) 10 0) p sets q ↔
      (∀ k < 10, (offset k).toNat + 554 ≤ file.length) ∧
        sets = (List.range 10).map (fun k => setAt file (offset k) (index k)) ∧
        q = (offset 9).toNat + 554 :=
  yields_loop_seek (fun _ _ _ _ => yields_readSet) 9 sets

/-- The sets of loops over difficulties and section IDs. -/
theorem yields_difficulties (offset : ℕ → ℕ → BitVec 32) (index : ℕ → ℕ → ℕ) (p : ℕ)
    (sets : List (List RtSet)) (q : ℕ) :
    Yields file (loop (fun j => loop (fun k => readSet (offset j k) (index k)) 10 0) 4 0) p sets q ↔
      (∀ j < 4, ∀ k < 10, (offset j k).toNat + 554 ≤ file.length) ∧
        sets = (List.range 4).map (fun j => (List.range 10).map fun k =>
          setAt file (offset j k) (index k)) ∧ q = (offset 3 9).toNat + 554 :=
  yields_loop_seek (fun j p a m => yields_sections (offset j) index p a m) 3 sets

/-- The sets of loops over episodes, difficulties and section IDs. -/
theorem yields_episodes (offset : ℕ → ℕ → ℕ → BitVec 32) (index : ℕ → ℕ → ℕ) (p : ℕ)
    (sets : List (List (List RtSet))) (q : ℕ) :
    Yields file (loop (fun i => loop (fun j => loop (fun k =>
        readSet (offset i j k) (index k)) 10 0) 4 0) 2 0) p sets q ↔
      (∀ i < 2, ∀ j < 4, ∀ k < 10, (offset i j k).toNat + 554 ≤ file.length) ∧
        sets = (List.range 2).map (fun i => (List.range 4).map fun j => (List.range 10).map fun k =>
          setAt file (offset i j k) (index k)) ∧ q = (offset 1 3 9).toNat + 554 :=
  yields_loop_seek (fun i p a m => yields_difficulties (offset i) index p a m) 1 sets

end Sets

section V2

variable {file : List Byte}

def afsOffset (file : List Byte) (i : ℕ) : BitVec 32 :=
  le32 (slice file (8 + i * 8) 4)

/-- An archive that the reader takes: of 40 files of the size of a set, all of them inside. -/
structure AfsFile (file : List Byte) : Prop where
  magic : slice file 0 4 = [0x41, 0x46, 0x53, 0x00]
  count : slice file 4 4 = [40, 0, 0, 0]
  sizes : ∀ i < 40, slice file (8 + i * 8 + 4) 4 = [0x80, 0x02, 0, 0]
  inside : ∀ i < 40, (afsOffset file i).toNat + 554 ≤ file.length

def afsSets (file : List Byte) : List (List RtSet) :=
  (List.range 4).map fun i => (List.range 10).map fun j =>
    setAt file (afsOffset file (i * 10 + j)) fun l => l

theorem yields_afsEntry (i : ℕ) (a : BitVec 32) (m : ℕ) :
    Yields file afsEntry (8 + i * 8) a m ↔
      slice file (8 + i * 8 + 4) 4 = [0x80, 0x02, 0, 0] ∧ a = afsOffset file i ∧
        m = 8 + (i + 1) * 8 := by
  unfold afsEntry
  constructor
  · intro h
    obtain ⟨offset, m, hoffset, h⟩ := yields_bind.1 h
    obtain ⟨-, rfl, rfl⟩ := yields_fread.1 hoffset
    obtain ⟨size, m, hsize, h⟩ := yields_bind.1 h
    obtain ⟨-, rfl, rfl⟩ := yields_fread.1 hsize
    obtain ⟨_, m, hcheck, h⟩ := yields_bind.1 h
    obtain ⟨hsize, rfl⟩ := yields_check.1 hcheck
    obtain ⟨rfl, rfl⟩ := (yields_pure _ _).1 h
    exact ⟨hsize, rfl, by omega⟩
  · rintro ⟨hsize, rfl, rfl⟩
    have hlen := le_length_of_slice hsize rfl (by decide)
    refine yields_bind.2 ⟨_, _, yields_fread.2 ⟨by omega, rfl, rfl⟩, ?_⟩
    refine yields_bind.2 ⟨_, _, yields_fread.2 ⟨hlen, rfl, rfl⟩, ?_⟩
    refine yields_bind.2 ⟨(), _, yields_check.2 ⟨hsize, rfl⟩, ?_⟩
    exact (yields_pure _ _).2 ⟨rfl, by omega⟩

theorem getD_range_map {α : Type} (f : ℕ → α) {n i : ℕ} (h : i < n) (d : α) :
    ((List.range n).map f).getD i d = f i := by
  rw [List.getD_eq_getElem?_getD, List.getElem?_map, List.getElem?_range h]
  rfl

theorem yields_rtReadV2 (sets : List (List RtSet)) :
    (∃ q, Yields file rtReadV2 0 sets q) ↔ AfsFile file ∧ sets = afsSets file := by
  have hoffsets : ∀ i < 4, ∀ j < 10,
      ((List.range 40).map (afsOffset file)).getD (i * 10 + j) 0 = afsOffset file (i * 10 + j) :=
    fun i hi j hj => getD_range_map _ (by omega) 0
  have hsets : (List.range 4).map (fun i => (List.range 10).map fun j =>
      setAt file (((List.range 40).map (afsOffset file)).getD (i * 10 + j) 0) fun l => l) =
        afsSets file :=
    List.map_congr_left fun i hi => List.map_congr_left fun j hj => by
      rw [hoffsets i (List.mem_range.1 hi) j (List.mem_range.1 hj)]
  unfold rtReadV2
  constructor
  · rintro ⟨q, h⟩
    obtain ⟨buf, m, hbuf, h⟩ := yields_bind.1 h
    obtain ⟨-, rfl, rfl⟩ := yields_fread.1 hbuf
    obtain ⟨_, m, hcheck, h⟩ := yields_bind.1 h
    obtain ⟨hmagic, rfl⟩ := yields_check.1 hcheck
    obtain ⟨buf, m, hbuf, h⟩ := yields_bind.1 h
    obtain ⟨-, rfl, rfl⟩ := yields_fread.1 hbuf
    obtain ⟨_, m, hcheck, h⟩ := yields_bind.1 h
    obtain ⟨hcount, rfl⟩ := yields_check.1 hcheck
    obtain ⟨offsets, m, hentries, h⟩ := yields_bind.1 h
    obtain ⟨hsizes, rfl, rfl⟩ :=
      (yields_loop (fun i => 8 + i * 8) yields_afsEntry 40 0 offsets).1 hentries
    simp only [Nat.zero_add] at hsizes h
    obtain ⟨hinside, rfl, rfl⟩ := (yields_difficulties _ _ _ _ _).1 h
    refine ⟨⟨hmagic, hcount, hsizes, fun i hi => ?_⟩, hsets⟩
    have hset := hinside (i / 10) (by omega) (i % 10) (by omega)
    rwa [hoffsets _ (by omega) _ (by omega), Nat.div_add_mod'] at hset
  · rintro ⟨hfile, rfl⟩
    refine ⟨(((List.range 40).map (afsOffset file)).getD (3 * 10 + 9) 0).toNat + 554, ?_⟩
    refine yields_bind.2 ⟨_, _, yields_fread.2
      ⟨le_length_of_slice hfile.magic rfl (by decide), rfl, rfl⟩, ?_⟩
    refine yields_bind.2 ⟨(), _, yields_check.2 ⟨hfile.magic, rfl⟩, ?_⟩
    refine yields_bind.2 ⟨_, _, yields_fread.2
      ⟨le_length_of_slice hfile.count rfl (by decide), rfl, rfl⟩, ?_⟩
    refine yields_bind.2 ⟨(), _, yields_check.2 ⟨hfile.count, rfl⟩, ?_⟩
    refine yields_bind.2 ⟨_, _, (yields_loop (fun i => 8 + i * 8) yields_afsEntry 40 0 _).2
      ⟨fun k hk => by rw [Nat.zero_add]; exact hfile.sizes k hk, rfl, rfl⟩, ?_⟩
    simp only [Nat.zero_add]
    refine (yields_difficulties _ _ _ _ _).2 ⟨fun i hi j hj => ?_, hsets.symm, rfl⟩
    rw [hoffsets i hi j hj]
    exact hfile.inside _ (by omega)

theorem fails_readSet (offset : BitVec 32) (index : ℕ → ℕ) :
    Fails (· ≠ 0) (readSet offset index) :=
  fails_bind (fails_fseek _) fun _ => fails_bind (fails_loop (fun _ => fails_fread (by decide)) _ _)
    fun _ => fails_bind (fails_fread (by decide)) fun _ =>
      fails_bind (fails_loop (fun _ => fails_fread (by decide)) _ _) fun _ => fails_pure _

theorem fails_afsEntry : Fails (· ≠ 0) afsEntry :=
  fails_bind (fails_fread (by decide)) fun _ => fails_bind (fails_fread (by decide)) fun _ =>
    fails_bind (fails_check (by decide)) fun _ => fails_pure _

theorem fails_rtReadV2 : Fails (· ≠ 0) rtReadV2 :=
  fails_bind (fails_fread (by decide)) fun _ => fails_bind (fails_check (by decide)) fun _ =>
    fails_bind (fails_fread (by decide)) fun _ => fails_bind (fails_check (by decide)) fun _ =>
      fails_bind (fails_loop (fun _ => fails_afsEntry) _ _) fun _ =>
        fails_loop (fun _ => fails_loop (fun _ => fails_readSet _ _) _ _) _ _

/-- A reader that yields something exactly where a file is right loads it, and fails elsewhere. -/
theorem load_eq {α : Type} {r : Read α} {ok : Prop} {val : α}
    (h : ∀ a, (∃ q, Yields file r 0 a q) ↔ ok ∧ a = val) (hr : Fails (· ≠ 0) r) :
    (ok → load r (some file) = (0, some val)) ∧
      (¬ok → (load r (some file)).1 ≠ 0 ∧ (load r (some file)).2 = none) := by
  constructor
  · intro hok
    obtain ⟨q, hq⟩ := (h val).2 ⟨hok, rfl⟩
    unfold load
    dsimp only
    rw [hq]
  · intro hok
    unfold load
    dsimp only
    cases hrun : r 0 file with
    | error e => exact ⟨hr 0 file e hrun, rfl⟩
    | ok x => exact absurd ((h x.1).1 ⟨x.2, hrun⟩).1 hok

theorem rtReadV2_loads (file : List Byte) :
    (AfsFile file → load rtReadV2 (some file) = (0, some (afsSets file))) ∧
      (¬AfsFile file →
        (load rtReadV2 (some file)).1 ≠ 0 ∧ (load rtReadV2 (some file)).2 = none) :=
  load_eq yields_rtReadV2 fails_rtReadV2

end V2

section Gc

variable {file : List Byte}

def gslOffset (file : List Byte) (i : ℕ) : BitVec 32 :=
  be32 (slice file (i * 48 + 32) 4) <<< 11

/-- An archive that the reader takes: of 80 files of the size of a set, all of them inside. -/
structure GslFile (file : List Byte) : Prop where
  sizes : ∀ i < 80, slice file (i * 48 + 36) 4 = [0, 0, 0x02, 0x80]
  inside : ∀ i < 80, (gslOffset file i).toNat + 554 ≤ file.length

def gslSets (file : List Byte) : List (List (List RtSet)) :=
  (List.range 2).map fun i => (List.range 4).map fun j => (List.range 10).map fun k =>
    setAt file (gslOffset file (i * 40 + j * 10 + k)) fun _ => k

theorem yields_gslEntry (i : ℕ) (a : BitVec 32) (m : ℕ) :
    Yields file gslEntry (i * 48) a m ↔
      slice file (i * 48 + 36) 4 = [0, 0, 0x02, 0x80] ∧ a = gslOffset file i ∧
        m = (i + 1) * 48 := by
  unfold gslEntry
  constructor
  · intro h
    obtain ⟨_, m, hskip, h⟩ := yields_bind.1 h
    obtain rfl := yields_skip.1 hskip
    obtain ⟨offset, m, hoffset, h⟩ := yields_bind.1 h
    obtain ⟨-, rfl, rfl⟩ := yields_fread.1 hoffset
    obtain ⟨size, m, hsize, h⟩ := yields_bind.1 h
    obtain ⟨-, rfl, rfl⟩ := yields_fread.1 hsize
    obtain ⟨_, m, hcheck, h⟩ := yields_bind.1 h
    obtain ⟨hsize, rfl⟩ := yields_check.1 hcheck
    obtain ⟨_, m, hskip, h⟩ := yields_bind.1 h
    obtain rfl := yields_skip.1 hskip
    obtain ⟨rfl, rfl⟩ := (yields_pure _ _).1 h
    exact ⟨hsize, rfl, by omega⟩
  · rintro ⟨hsize, rfl, rfl⟩
    have hlen := le_length_of_slice hsize rfl (by decide)
    refine yields_bind.2 ⟨(), _, yields_skip.2 rfl, ?_⟩
    refine yields_bind.2 ⟨_, _, yields_fread.2 ⟨by omega, rfl, rfl⟩, ?_⟩
    refine yields_bind.2 ⟨_, _, yields_fread.2 ⟨hlen, rfl, rfl⟩, ?_⟩
    refine yields_bind.2 ⟨(), _, yields_check.2 ⟨hsize, rfl⟩, ?_⟩
    refine yields_bind.2 ⟨(), _, yields_skip.2 rfl, ?_⟩
    exact (yields_pure _ _).2 ⟨rfl, by omega⟩

theorem yields_rtReadGc (sets : List (List (List RtSet))) :
    (∃ q, Yields file rtReadGc 0 sets q) ↔ GslFile file ∧ sets = gslSets file := by
  have hoffsets : ∀ i < 2, ∀ j < 4, ∀ k < 10,
      ((List.range 80).map (gslOffset file)).getD (i * 40 + j * 10 + k) 0 =
        gslOffset file (i * 40 + j * 10 + k) :=
    fun i hi j hj k hk => getD_range_map _ (by omega) 0
  have hsets : (List.range 2).map (fun i => (List.range 4).map fun j => (List.range 10).map fun k =>
      setAt file (((List.range 80).map (gslOffset file)).getD (i * 40 + j * 10 + k) 0) fun _ => k) =
        gslSets file :=
    List.map_congr_left fun i hi => List.map_congr_left fun j hj =>
      List.map_congr_left fun k hk => by
        rw [hoffsets i (List.mem_range.1 hi) j (List.mem_range.1 hj) k (List.mem_range.1 hk)]
  unfold rtReadGc
  constructor
  · rintro ⟨q, h⟩
    obtain ⟨offsets, m, hentries, h⟩ := yields_bind.1 h
    rw [← Nat.zero_mul 48] at hentries
    obtain ⟨hsizes, rfl, rfl⟩ :=
      (yields_loop (fun i => i * 48) yields_gslEntry 80 0 offsets).1 hentries
    simp only [Nat.zero_add] at hsizes h
    obtain ⟨hinside, rfl, rfl⟩ := (yields_episodes _ _ _ _ _).1 h
    refine ⟨⟨hsizes, fun i hi => ?_⟩, hsets⟩
    have hset := hinside (i / 40) (by omega) (i / 10 % 4) (by omega) (i % 10) (by omega)
    rw [hoffsets _ (by omega) _ (by omega) _ (by omega)] at hset
    have hi : i / 40 * 40 + i / 10 % 4 * 10 + i % 10 = i := by omega
    rwa [hi] at hset
  · rintro ⟨hfile, rfl⟩
    have hentries : Yields file (loop (fun _ => gslEntry) 80 0) (0 * 48)
        ((List.range 80).map (gslOffset file)) (80 * 48) := by
      refine (yields_loop (fun i => i * 48) yields_gslEntry 80 0 _).2 ⟨fun k hk => ?_, ?_, rfl⟩
      · rw [Nat.zero_add]
        exact hfile.sizes k hk
      · simp only [Nat.zero_add]
    refine ⟨(((List.range 80).map (gslOffset file)).getD (1 * 40 + 3 * 10 + 9) 0).toNat + 554, ?_⟩
    refine yields_bind.2 ⟨_, _, (Nat.zero_mul 48) ▸ hentries, ?_⟩
    refine (yields_episodes _ _ _ _ _).2 ⟨fun i hi j hj k hk => ?_, hsets.symm, rfl⟩
    rw [hoffsets i hi j hj k hk]
    exact hfile.inside _ (by omega)

theorem fails_gslEntry : Fails (· ≠ 0) gslEntry :=
  fails_bind (fails_skip _) fun _ => fails_bind (fails_fread (by decide)) fun _ =>
    fails_bind (fails_fread (by decide)) fun _ => fails_bind (fails_check (by decide)) fun _ =>
      fails_bind (fails_skip _) fun _ => fails_pure _

theorem fails_rtReadGc : Fails (· ≠ 0) rtReadGc :=
  fails_bind (fails_loop (fun _ => fails_gslEntry) _ _) fun _ =>
    fails_loop (fun _ => fails_loop (fun _ => fails_loop (fun _ => fails_readSet _ _) _ _) _ _) _ _

theorem rtReadGc_loads (file : List Byte) :
    (GslFile file → load rtReadGc (some file) = (0, some (gslSets file))) ∧
      (¬GslFile file →
        (load rtReadGc (some file)).1 ≠ 0 ∧ (load rtReadGc (some file)).2 = none) :=
  load_eq yields_rtReadGc fails_rtReadGc

end Gc

section Drops

variable {rules : ItemRules}

/-- The first entry whose roll succeeds. -/
def rollFirst (rules : ItemRules) : List RtData → Gen (BitVec 32)
  | [] => return 0
  | rt :: rest => do
    let rnd ← genrand
    if rules.realBelow rnd rt.prob then return rt.itemData else rollFirst rules rest

theorem rollBoxes_eq (area : BitVec 32) (rts : List RtData) :
    rollBoxes rules area rts = rollFirst rules (rts.filter fun rt => rt.area = area) := by
  induction rts with
  | nil => rfl
  | cons rt rts ih =>
    by_cases harea : rt.area = area
    · rw [List.filter_cons_of_pos (by simpa using harea), rollBoxes, rollFirst, if_pos harea, ih]
    · rw [List.filter_cons_of_neg (by simpa using harea), rollBoxes, if_neg harea, ih]

theorem rollBoxes_of_area {area area' : BitVec 32} {rts : List RtData}
    (h : ∀ rt ∈ rts, rt.area = area') :
    rollBoxes rules area rts = if area = area' then rollFirst rules rts else pure 0 := by
  rw [rollBoxes_eq]
  split
  next heq =>
    rw [List.filter_eq_self.2 fun rt hrt => by simp [h rt hrt, heq]]
  next hne =>
    rw [List.filter_eq_nil_iff.2 fun rt hrt => by simpa [h rt hrt] using Ne.symm hne]
    rfl

/-- The tables that the generators use, from the sets that have been read. -/
def v2Table (sets : List (List RtSet)) (difficulty sectionId : ℤ) : RtSet :=
  (sets.getD difficulty.toNat []).getD sectionId.toNat (rtSet (fun _ => 0) [] [] [])

def gcTable (sets : List (List (List RtSet))) (episode difficulty sectionId : ℤ) : RtSet :=
  v2Table (sets.getD episode.toNat []) difficulty sectionId

variable {file : List Byte} {env : DropEnv} {l : DropLobby}

/-- A game in which the tables have entries. -/
structure Tabled (l : DropLobby) : Prop where
  episode : l.episode = 1 ∨ l.episode = 2
  difficulty : 0 ≤ l.difficulty ∧ l.difficulty < 4
  sectionId : 0 ≤ l.v1Section ∧ l.v1Section < 10

theorem v2Table_afsSets (h : Tabled l) :
    v2Table (afsSets file) l.difficulty l.v1Section =
      setAt file (afsOffset file (l.difficulty.toNat * 10 + l.v1Section.toNat)) fun k => k := by
  obtain ⟨-, hdifficulty, hsection⟩ := h
  rw [v2Table, afsSets, getD_range_map _ (by omega), getD_range_map _ (by omega)]

/-- The number of a game's set among those of the later versions. -/
def gslIndex (l : DropLobby) : ℕ :=
  (l.episode - 1).toNat * 40 + l.difficulty.toNat * 10 + l.v1Section.toNat

theorem gcTable_gslSets (h : Tabled l) :
    gcTable (gslSets file) (l.episode - 1) l.difficulty l.v1Section =
      setAt file (gslOffset file (gslIndex l)) fun _ => l.v1Section.toNat := by
  obtain ⟨hepisode, hdifficulty, hsection⟩ := h
  rw [gcTable, v2Table, gslSets, getD_range_map _ (by omega), getD_range_map _ (by omega),
    getD_range_map _ (by omega), gslIndex]

theorem byte_slice {p k : ℕ} (h : k < 30) :
    byte (slice file p 30) k = (file.getD (p + k) 0).zeroExtend 32 := by
  rw [byte, slice, List.getD_eq_getElem?_getD, List.getElem?_take_of_lt h, List.getElem?_drop,
    List.getD_eq_getElem?_getD]

/-- The area that a file gives box `k` of the set at an offset. -/
def boxArea (file : List Byte) (offset : BitVec 32) (k : ℕ) : BitVec 32 :=
  (file.getD (offset.toNat + 404 + k) 0).zeroExtend 32

/-- Box entry `k` of the set at an offset, for an area. -/
def boxEntry (file : List Byte) (offset area : BitVec 32) (k : ℕ) : RtData :=
  rtData (slice file (offset.toNat + 434 + k * 4) 4) area

theorem boxRares_setAt (offset : BitVec 32) {index : ℕ → ℕ} (h : ∀ k < 30, index k < 30) :
    (setAt file offset index).boxRares =
      (List.range 30).map fun k => boxEntry file offset (boxArea file offset (index k)) k := by
  refine List.map_congr_left fun k hk => ?_
  rw [getD_range_map _ (List.mem_range.1 hk), byte_slice (h k (List.mem_range.1 hk))]
  rfl

theorem loaded_iff {α : Type} {r : Read α} {ok : Prop} {val sets : α}
    (h : (ok → load r (some file) = (0, some val)) ∧
      (¬ok → (load r (some file)).1 ≠ 0 ∧ (load r (some file)).2 = none))
    (hload : load r (some file) = (0, some sets)) : ok ∧ sets = val := by
  by_cases hok : ok
  · rw [h.1 hok] at hload
    cases hload
    exact ⟨hok, rfl⟩
  · exact absurd (congrArg Prod.fst hload) (h.2 hok).1

/-- In a game of version 2 a box may have the rares that the file lists for its area, with one roll
each. -/
theorem v2_boxes_by_area {sets : List (List RtSet)} (h : load rtReadV2 (some file) = (0, some sets))
    (henv : env.v2Rt = some (v2Table sets)) (hl : Tabled l) (r : DropInput) (area : ℤ) :
    (v2Generation env l r).rare (-1) area =
      let offset := afsOffset file (l.difficulty.toNat * 10 + l.v1Section.toNat)
      rollFirst env.rules (((List.range 30).filter fun k =>
        boxArea file offset k = BitVec.ofInt 32 area).map fun k =>
          boxEntry file offset (boxArea file offset k) k) := by
  obtain ⟨-, rfl⟩ := loaded_iff (rtReadV2_loads file) h
  have hrare : (v2Generation env l r).rare (-1) area =
      rollBoxes env.rules (BitVec.ofInt 32 area)
        (v2Table (afsSets file) l.difficulty l.v1Section).boxRares := by
    change rtGenerateRare env.rules (env.v2Rt.map fun t => t l.difficulty l.v1Section) (-1) area = _
    rw [henv]
    rfl
  rw [hrare, v2Table_afsSets hl, boxRares_setAt _ fun k hk => hk, rollBoxes_eq, List.filter_map]
  rfl

/-- An entry of a directory, for a set at 4096. -/
def setEntry : List Byte :=
  List.replicate 32 0 ++ [0, 0, 0, 2, 0, 0, 0x02, 0x80] ++ List.replicate 8 0

/-- A set with a box for each of the areas 1 to 30, behind what fills up its block. -/
def oneSet : List Byte :=
  List.replicate 660 0 ++ (List.range 30).map (fun k => BitVec.ofNat 8 (k + 1)) ++
    List.replicate 120 0

/-- An archive of which all entries are the same set. -/
def oneSetGsl : List Byte :=
  (List.replicate 80 setEntry).flatten ++ oneSet

theorem gslOffset_oneSetGsl {i : ℕ} (hi : i < 80) : gslOffset oneSetGsl i = 4096 := by
  have hslice := slice_repeated (e := setEntry) (p := 32) (k := 4) (by decide) oneSet hi
  rw [gslOffset, oneSetGsl]
  exact congrArg (fun buf => be32 buf <<< 11) hslice

theorem oneSetGsl_file : GslFile oneSetGsl where
  sizes := fun i hi => slice_repeated (e := setEntry) (p := 36) (k := 4) (by decide) _ hi
  inside := by
    have hlength : oneSetGsl.length = 4650 := by decide +kernel
    intro i hi
    rw [hlength, gslOffset_oneSetGsl hi]
    decide

end Drops

end ShipServer.RareTables
