import ShipServer.QuestMapCache

set_option autoImplicit false

/-! `parse_map`: the enemies that the records of a map file stand for. -/

namespace ShipServer.MapExpansion

open QuestMapCache

/-- `map_enemy_t`, as far as it is looked at. -/
structure MapEnemy where
  base : BitVec 32
  numClones : BitVec 16
  reserved10 : BitVec 32
  skin : BitVec 32

/-- What `parse_map` works on: the buffer `gen`, with the memory behind it, the counter, and the
places that were written. The source keeps `count` modulo `2 ^ 32`. -/
structure MapGen where
  gen : ℕ → GameEnemy
  count : ℕ
  written : List ℕ

/-- The room in the buffer. -/
def capacity : ℕ := 0xB50

namespace MapGen

variable (g : MapGen)

/-- `gen[count + k]`. -/
def slot (k : ℕ) : ℕ :=
  (g.count + k) % 2 ^ 32

/-- An assignment to fields of `gen[count + k]`. -/
def assign (k : ℕ) (f : GameEnemy → GameEnemy) : MapGen :=
  { g with
    gen := Function.update g.gen (g.slot k) (f (g.gen (g.slot k)))
    written := g.written ++ [g.slot k] }

/-- `count += n`. -/
def skip (n : ℕ) : MapGen :=
  { g with count := g.count + n }

end MapGen

def setType (bp : ℕ) (rt : UInt8) (e : GameEnemy) : GameEnemy :=
  { e with bpEntry := BitVec.ofNat 32 bp, rtIndex := rt }

def setArea (area : UInt8) (e : GameEnemy) : GameEnemy :=
  { e with area := area }

/-- What a type of record asks for, besides clones: nothing, an entry of its own, others of one
kind behind it, the three parts of the Pan Arms, the two Bees of a Chaos Sorcerer, the Darvants and
forms of Dark Falz, or room behind its own entry that stays as it is. -/
inductive Expansion where
  | nothing
  | single (bp : ℕ) (rt : UInt8)
  | followed (bp : ℕ) (rt : UInt8) (n : ℕ) (bp' : ℕ) (rt' : UInt8)
  | panArms
  | chaosSorcerer
  | darkFalz
  | skipping (bp : ℕ) (rt : UInt8) (n : ℕ)

namespace MapEnemy

variable (en : MapEnemy)

/-- `skin & 0x01`. -/
def skinBit : ℕ := (en.skin &&& 1).toNat

/-- `skin % 3`. -/
def skinKind : ℕ := (en.skin % 3).toNat

/-- `(reserved[10] & 0x800000) ? 1 : 0`. -/
def flag : ℕ := if en.reserved10 &&& 0x800000 ≠ 0 then 1 else 0

/-- The `switch` of `parse_map`. -/
def expansion (ep : ℤ) (alt : Bool) : Expansion :=
  match en.base.toNat with
  | 0x0040 => .single (0x49 + en.skinBit) (UInt8.ofNat (0x01 + en.skinBit))
  | 0x0041 =>
    if ep = 3 then
      if alt then .single (0x17 + en.skinBit) (UInt8.ofNat (0x11 + en.skinBit))
      else .single (0x05 + en.skinBit) (UInt8.ofNat (0x11 + en.skinBit))
    else if en.skinBit ≠ 0 then
      -- the Rappy of later episodes depends on the event, and is filled in with the lobby
      if ep = 1 then .single 0x19 0x06 else .single 0x19 255
    else .single 0x18 0x05
  | 0x0042 => .followed 0x01 0x04 30 0x00 0x03
  | 0x0043 => .single (0x02 + en.flag) (UInt8.ofNat (0x07 + en.flag))
  | 0x0044 => .single (0x4B + en.skinKind) (UInt8.ofNat (0x09 + en.skinKind))
  | 0x0060 => .single 0x4E 0x0C
  | 0x0061 =>
    if ep = 2 ∧ alt then .single 0x25 0x53
    else .single (0x04 + en.flag) (UInt8.ofNat (0x0D + en.flag))
  | 0x0062 => .single 0x1A 0x0F
  | 0x0063 => .single (0x4F + en.skinKind) (UInt8.ofNat (0x10 + en.skinKind))
  | 0x0064 => .followed (0x30 - en.flag) (UInt8.ofNat (0x13 + en.flag)) 4 0x30 0x13
  | 0x0065 => .panArms
  | 0x0080 => .single (0x1B + en.skinBit) (UInt8.ofNat ((0x18 + en.skinBit) <<< en.skinBit))
  | 0x0081 => .single 0x1D 0x19
  | 0x0082 => if en.flag ≠ 0 then .single 0x13 0x1B else .single 0x06 0x1A
  | 0x0083 => .single 0x07 0x1C
  | 0x0084 => .followed 0x09 0x1D 8 0x08 0x1C
  | 0x0085 => .nothing
  | 0x00A0 => .single 0x52 0x1E
  | 0x00A1 => .chaosSorcerer
  | 0x00A2 => .single 0x1E 0x22
  | 0x00A3 => .nothing
  | 0x00A4 => .single 0x0D 0x24
  | 0x00A5 => .single 0x0E 0x25
  | 0x00A6 => .single (0x53 + en.skinKind) (UInt8.ofNat (0x29 + en.skinKind))
  | 0x00A7 => .followed 0x1F 0x28 4 0x20 0x26
  | 0x00A8 => .single 0x20 0x26
  | 0x00C0 => if ep = 1 then .single 0x12 0x2C else .single 0x1E 0x4D
  | 0x00C1 => .single 0x0F 0x2D
  | 0x00C2 => .nothing
  | 0x00C5 => .single 0x25 0x2E
  | 0x00C8 => .darkFalz
  | 0x00CA => .skipping 0x2C 0x4E 512
  | 0x00CB => .skipping 0x0F 0x49 47
  | 0x00CC => .skipping 0x12 0x4C 5
  | 0x00D4 => if 1 ≤ en.skin then .skipping 0x13 0x3F 4 else .skipping 0x06 0x3E 4
  | 0x00D5 => .single (0x4B + en.skinBit) (UInt8.ofNat (0x34 + en.skinBit))
  | 0x00D6 =>
    .single (if en.skinKind ≠ 0 then 0x44 + en.skinKind else 0x3A)
      (UInt8.ofNat (0x38 + en.skinKind))
  | 0x00D7 => .single (0x3B + en.skinBit) (UInt8.ofNat (0x3B + en.skinBit))
  | 0x00D8 => .single 0x3D 0x3D
  | 0x00D9 => .single 0x07 0x36
  | 0x00DA => .single 0x1A 0x37
  | 0x00DB => .single 0x30 0x47
  | 0x00DC => .single 0x0D 0x48
  | 0x00DD => .single (0x4F + en.skinBit) (UInt8.ofNat (0x40 + en.skinBit))
  | 0x00DE => .single 0x41 0x42
  | 0x00DF => .followed 0x41 0x43 en.numClones.toNat 0x42 0x44
  | 0x00E0 =>
    if ep = 2 ∧ alt then .skipping 0x23 0x54 4
    else .single (0x43 + en.skinBit) (UInt8.ofNat (0x45 + en.skinBit))
  | 0x00E1 => .single 0x26 0x52
  | 0x0110 => .single 0x09 0x01
  | 0x0111 =>
    .single (if alt then 0x0D + en.flag + 0x10 else 0x0D + en.flag) (UInt8.ofNat (0x02 + en.flag))
  | 0x0112 => .single (0x19 + en.skinBit) (UInt8.ofNat (0x04 + en.skinBit))
  | 0x0113 => .single 0x1F 0x06
  | 0x0114 =>
    .single (if alt then 0x07 + en.skinBit + 0x14 else 0x07 + en.skinBit)
      (UInt8.ofNat (7 + en.skinBit))
  | 0x0115 =>
    .single (if en.skin &&& 0x02 ≠ 0 then 0x03 else 0x00 + en.skinKind)
      (UInt8.ofNat (0x09 + en.skinKind))
  | 0x0116 => .single (0x0F + en.skinBit) (UInt8.ofNat (0x0C + en.skinBit))
  | 0x0117 =>
    .single (0x11 + en.skinKind)
      (if en.skin &&& 0x02 ≠ 0 then 0x0F else if en.skin &&& 0x01 ≠ 0 then 0x10 else 0x0E)
  | 0x0119 =>
    .single 0x22 (if en.reserved10 &&& 0x800000 ≠ 0 then 0x15 else UInt8.ofNat (0x13 + en.skinBit))
  | _ => .nothing

/-- `n_clones` behind the `switch`: a Sinow has four clones where none are given, and the Recons of
a Recobox are there already. -/
def clones : ℕ :=
  match en.base.toNat with
  | 0x0082 => if en.numClones = 0 then 4 else en.numClones.toNat
  | 0x00DF => 0
  | _ => en.numClones.toNat

end MapEnemy

/-- Dark Falz: the Darvants, and then the three forms, which stand backwards. -/
def fillDarkFalz (darvants : ℕ) (area : UInt8) (g : MapGen) : MapGen :=
  let g := (List.range darvants).foldl
    (fun g _ => ((g.assign 0 (setArea area)).assign 0 (setType 0x35 0)).skip 1) g
  let g := ((g.assign 0 (setArea area)).assign 0 (setType 0x38 0x2F)).skip 1
  let g := ((g.assign 0 (setArea area)).assign 0 (setType 0x37 0x2F)).skip 1
  (g.assign 0 (setArea area)).assign 0 (setType 0x36 0x2F)

/-- What a case of the `switch` does to the buffer and to the counter. -/
def Expansion.fill (area : UInt8) (g : MapGen) : Expansion → MapGen
  | .nothing => g
  | .single bp rt => g.assign 0 (setType bp rt)
  | .followed bp rt n bp' rt' =>
    (List.range n).foldl
      (fun g _ => ((g.skip 1).assign 0 (setType bp' rt')).assign 0 (setArea area))
      (g.assign 0 (setType bp rt))
  | .panArms =>
    ((List.range 3).foldl
      (fun g j =>
        (g.assign j (setType (0x31 + j) (UInt8.ofNat (0x15 + j)))).assign j (setArea area))
      g).skip 2
  | .chaosSorcerer =>
    (((((g.assign 0 (setType 0x0A 0x1F)).assign 1 (setType 0x0B 0x00)).assign 1
      (setArea area)).assign 2 (setType 0x0C 0x00)).assign 2 (setArea area)).skip 2
  | .darkFalz => fillDarkFalz 510 area g
  | .skipping bp rt n => (g.assign 0 (setType bp rt)).skip n

/-- One turn of the loop over the clones, which are copies of the entry in front of them. -/
def clone (area : UInt8) (g : MapGen) : MapGen :=
  let e := g.gen (g.slot 0)
  ((g.assign 1 fun e' => { e' with rtIndex := e.rtIndex, bpEntry := e.bpEntry }).assign 1
    (setArea area)).skip 1

/-- One turn of the loop over the records. -/
def parseRecord (ep : ℤ) (alt : Bool) (area : UInt8) (g : MapGen) (en : MapEnemy) : MapGen :=
  let g := g.assign 0 (setArea area)
  let g := (en.expansion ep alt).fill area g
  let g := (List.range en.clones).foldl (fun g _ => clone area g) g
  g.skip 1

/-- The loop over the records, from a buffer on. -/
def parseRecords (ep : ℤ) (alt : Bool) (area : UInt8) (g : MapGen) (en : List MapEnemy) : MapGen :=
  en.foldl (parseRecord ep alt area) g

def clearedEnemy : GameEnemy := ⟨0, 0, 0, 0, 0, 0⟩

/-- The buffer behind `memset`. What is in the memory behind it is left open. -/
def cleared (beyond : ℕ → GameEnemy) : MapGen where
  gen := fun k => if k < capacity then clearedEnemy else beyond k
  count := 0
  written := []

/-- `game->enemies` and `game->count`, and the places that were written. -/
structure ParsedMap where
  enemies : ℕ → GameEnemy
  count : BitVec 32
  written : List ℕ

/-- `parse_map`. Where the array grows, `realloc` gives it entries of which nothing is known. -/
def parseMap (en : List MapEnemy) (ep : ℤ) (alt : Bool) (area : ℤ) (beyond : ℕ → GameEnemy) :
    ParsedMap :=
  let g := parseRecords ep alt (UInt8.ofInt area) (cleared beyond) en
  ⟨fun k => if k < capacity then g.gen k else beyond k, BitVec.ofNat 32 g.count, g.written⟩

section Counting

/-- The entries that a type of record adds behind its own one, clones apart. -/
def MapEnemy.companions (en : MapEnemy) (ep : ℤ) (alt : Bool) : ℕ :=
  match en.base.toNat with
  | 0x0042 => 30
  | 0x0064 => 4
  | 0x0065 => 2
  | 0x0084 => 8
  | 0x00A1 => 2
  | 0x00A7 => 4
  | 0x00C8 => 512
  | 0x00CA => 512
  | 0x00CB => 47
  | 0x00CC => 5
  | 0x00D4 => 4
  | 0x00E0 => if ep = 2 ∧ alt then 4 else 0
  | _ => 0

/-- The clones of a record. -/
def MapEnemy.cloneCount (en : MapEnemy) : ℕ :=
  match en.base.toNat with
  | 0x0082 => if en.numClones = 0 then 4 else en.numClones.toNat
  | _ => en.numClones.toNat

/-- All entries of a record. -/
def MapEnemy.size (en : MapEnemy) (ep : ℤ) (alt : Bool) : ℕ :=
  1 + en.companions ep alt + en.cloneCount

/-- The records that have companions which are counted, but not filled in: Olga Flow, Barba Ray, Gol
Dragon, the Sinows Berill and Spigell, and Epsilon. -/
def MapEnemy.LeavesRoom (en : MapEnemy) (ep : ℤ) (alt : Bool) : Prop :=
  match en.base.toNat with
  | 0x00CA | 0x00CB | 0x00CC | 0x00D4 => True
  | 0x00E0 => ep = 2 ∧ alt = true
  | _ => False

def Expansion.added : Expansion → ℕ
  | .nothing | .single _ _ => 0
  | .followed _ _ n _ _ => n
  | .panArms | .chaosSorcerer => 2
  | .darkFalz => 512
  | .skipping _ _ n => n

def Expansion.skipped : Expansion → ℕ
  | .skipping _ _ n => n
  | _ => 0

variable (en : MapEnemy) (ep : ℤ) (alt : Bool)

/-- The `switch` adds as many entries as the type of the record says. -/
theorem added_add_clones :
    1 + (en.expansion ep alt).added + en.clones = en.size ep alt := by
  unfold MapEnemy.size MapEnemy.expansion MapEnemy.clones MapEnemy.companions MapEnemy.cloneCount
  generalize en.base.toNat = base
  split
  all_goals
    try simp only [Expansion.added]
    try split_ifs
  all_goals
    try simp only
    try omega

theorem skipped_pos_iff : 0 < (en.expansion ep alt).skipped ↔ en.LeavesRoom ep alt := by
  unfold MapEnemy.expansion MapEnemy.LeavesRoom
  generalize en.base.toNat = base
  split
  all_goals
    try simp only [Expansion.skipped]
    try split_ifs
  all_goals simp_all

theorem skipped_le_added (x : Expansion) : x.skipped ≤ x.added := by
  cases x <;> simp [Expansion.skipped, Expansion.added]

end Counting

section Filling

/-- What has happened to a memory: exactly the given places were written, and carry the area. -/
structure Fills (area : UInt8) (m : ℕ → GameEnemy) (old : List ℕ) (W : ℕ → Prop) (g : MapGen) :
    Prop where
  set : ∀ i, W i → (g.gen i).area = area
  kept : ∀ i, ¬W i → g.gen i = m i
  written : ∀ i ∈ g.written, i ∈ old ∨ W i

variable {area : UInt8} {m : ℕ → GameEnemy} {old : List ℕ} {W W' : ℕ → Prop} {g : MapGen} {k : ℕ}

theorem Fills.congr (h : Fills area m old W g) (hW : ∀ i, W i ↔ W' i) : Fills area m old W' g where
  set := fun i hi => h.set i ((hW i).mpr hi)
  kept := fun i hi => h.kept i fun h => hi ((hW i).mp h)
  written := fun i hi => (h.written i hi).imp_right (hW i).mp

theorem Fills.skip (h : Fills area m old W g) (n : ℕ) : Fills area m old W (g.skip n) :=
  ⟨h.set, h.kept, h.written⟩

/-- An entry that carries the area keeps it when its type is set. -/
theorem Fills.assign (h : Fills area m old W g) (hk : W (g.slot k)) {f : GameEnemy → GameEnemy}
    (hf : ∀ e, (f e).area = e.area) : Fills area m old W (g.assign k f) where
  set := by
    intro i hi
    by_cases hik : i = g.slot k
    · subst hik
      simp only [MapGen.assign, Function.update_self, hf]
      exact h.set _ hi
    · simp only [MapGen.assign, Function.update_of_ne hik]
      exact h.set i hi
  kept := by
    intro i hi
    have hik : i ≠ g.slot k := fun heq => hi (heq ▸ hk)
    simp only [MapGen.assign, Function.update_of_ne hik]
    exact h.kept i hi
  written := by
    intro i hi
    rcases List.mem_append.mp hi with hmem | hmem
    · exact h.written i hmem
    · exact .inr (List.mem_singleton.mp hmem ▸ hk)

theorem Fills.assign_area (h : Fills area m old W g) :
    Fills area m old (fun i => W i ∨ i = g.slot k) (g.assign k (setArea area)) where
  set := by
    intro i hi
    by_cases hik : i = g.slot k
    · subst hik
      simp only [MapGen.assign, Function.update_self, setArea]
    · simp only [MapGen.assign, Function.update_of_ne hik]
      exact h.set i (hi.resolve_right hik)
  kept := by
    intro i hi
    simp only [MapGen.assign, Function.update_of_ne fun heq => hi (.inr heq)]
    exact h.kept i fun hW => hi (.inl hW)
  written := by
    intro i hi
    rcases List.mem_append.mp hi with hmem | hmem
    · exact (h.written i hmem).imp_right .inl
    · exact .inr (.inr (List.mem_singleton.mp hmem))

/-- A new entry: its type first, and then its area. -/
theorem Fills.put (h : Fills area m old W g) (f : GameEnemy → GameEnemy) :
    Fills area m old (fun i => W i ∨ i = g.slot k) ((g.assign k f).assign k (setArea area)) where
  set := by
    intro i hi
    have hslot : (g.assign k f).slot k = g.slot k := rfl
    by_cases hik : i = g.slot k
    · subst hik
      simp only [MapGen.assign, Function.update_self, setArea, MapGen.slot]
    · rw [MapGen.assign, hslot]
      simp only [MapGen.assign, Function.update_of_ne hik]
      exact h.set i (hi.resolve_right hik)
  kept := by
    intro i hi
    have hslot : (g.assign k f).slot k = g.slot k := rfl
    have hik : i ≠ g.slot k := fun heq => hi (.inr heq)
    rw [MapGen.assign, hslot]
    simp only [MapGen.assign, Function.update_of_ne hik]
    exact h.kept i fun hW => hi (.inl hW)
  written := by
    intro i hi
    rcases List.mem_append.mp hi with hmem | hmem
    · rcases List.mem_append.mp hmem with hmem | hmem
      · exact (h.written i hmem).imp_right .inl
      · exact .inr (.inr (List.mem_singleton.mp hmem))
    · exact .inr (.inr (List.mem_singleton.mp hmem))

theorem setType_area (bp : ℕ) (rt : UInt8) (e : GameEnemy) : (setType bp rt e).area = e.area := rfl

theorem foldl_range_succ {α : Type} (f : α → ℕ → α) (a : α) (n : ℕ) :
    (List.range (n + 1)).foldl f a = f ((List.range n).foldl f a) n := by
  rw [List.range_succ, List.foldl_append, List.foldl_cons, List.foldl_nil]

section Cases

variable {c : ℕ}

/-- Entries of one kind, each behind the one before. -/
theorem fills_followed (hc : g.count = c) (h : Fills area m old (fun i => i = c) g) (bp : ℕ)
    (rt : UInt8) (n : ℕ) (hroom : c + n < 2 ^ 32) :
    let g' := (List.range n).foldl
      (fun g _ => ((g.skip 1).assign 0 (setType bp rt)).assign 0 (setArea area)) g
    g'.count = c + n ∧ Fills area m old (fun i => c ≤ i ∧ i ≤ c + n) g' := by
  dsimp only
  induction n with
  | zero => exact ⟨hc, h.congr fun i => by omega⟩
  | succ n ih =>
    obtain ⟨hcount, hfills⟩ := ih (by omega)
    rw [foldl_range_succ]
    generalize (List.range n).foldl _ g = g' at hcount hfills ⊢
    have hslot : (g'.skip 1).slot 0 = c + n + 1 := by
      rw [MapGen.slot, MapGen.skip, hcount, Nat.add_zero, Nat.mod_eq_of_lt (by omega)]
    refine ⟨congrArg (· + 1) hcount, ((hfills.skip 1).put (setType bp rt)).congr fun i => ?_⟩
    rw [hslot]
    omega

/-- The Darvants: the first takes the place that the record has already. -/
theorem fills_darvants (hc : g.count = c) (h : Fills area m old (fun i => i = c) g) (n : ℕ)
    (hroom : c + n < 2 ^ 32) :
    let g' := (List.range n).foldl
      (fun g _ => ((g.assign 0 (setArea area)).assign 0 (setType 0x35 0)).skip 1) g
    g'.count = c + n ∧ Fills area m old (fun i => i = c ∨ c ≤ i ∧ i < c + n) g' := by
  dsimp only
  induction n with
  | zero => exact ⟨hc, h.congr fun i => by omega⟩
  | succ n ih =>
    obtain ⟨hcount, hfills⟩ := ih (by omega)
    rw [foldl_range_succ]
    generalize (List.range n).foldl _ g = g' at hcount hfills ⊢
    have hslot : g'.slot 0 = c + n := by
      rw [MapGen.slot, hcount, Nat.add_zero, Nat.mod_eq_of_lt (by omega)]
    refine ⟨congrArg (· + 1) hcount, ?_⟩
    refine (((hfills.assign_area (k := 0)).assign (.inr rfl) (setType_area _ _)).skip 1).congr
      fun i => ?_
    rw [hslot]
    omega

/-- One more form behind the entries so far. -/
theorem fills_form {d : ℕ} (hcount : g.count = d)
    (h : Fills area m old (fun i => c ≤ i ∧ i < d) g) (hcd : c ≤ d) (hroom : d < 2 ^ 32) (bp : ℕ)
    (rt : UInt8) :
    Fills area m old (fun i => c ≤ i ∧ i < d + 1)
      ((g.assign 0 (setArea area)).assign 0 (setType bp rt)) := by
  have hslot : g.slot 0 = d := by
    rw [MapGen.slot, hcount, Nat.add_zero, Nat.mod_eq_of_lt hroom]
  refine ((h.assign_area (k := 0)).assign (.inr rfl) (setType_area _ _)).congr fun i => ?_
  rw [hslot]
  omega

theorem fills_darkFalz (hc : g.count = c) (h : Fills area m old (fun i => i = c) g) {n : ℕ}
    (hn : 0 < n) (hroom : c + (n + 2) < 2 ^ 32) :
    (fillDarkFalz n area g).count = c + (n + 2) ∧
      Fills area m old (fun i => c ≤ i ∧ i ≤ c + (n + 2)) (fillDarkFalz n area g) := by
  obtain ⟨hcount, hfills⟩ := fills_darvants hc h n (by omega)
  rw [fillDarkFalz]
  generalize (List.range n).foldl _ g = g' at hcount hfills ⊢
  have hdarvants : Fills area m old (fun i => c ≤ i ∧ i < c + n) g' :=
    hfills.congr fun i => by omega
  have hfirst := (fills_form hcount hdarvants (by omega) (by omega) 0x38 0x2F).skip 1
  have hfirstCount : (((g'.assign 0 (setArea area)).assign 0 (setType 0x38 0x2F)).skip 1).count =
      c + n + 1 := congrArg (· + 1) hcount
  have hsecond := (fills_form hfirstCount hfirst (by omega) (by omega) 0x37 0x2F).skip 1
  refine ⟨congrArg (· + 1) hfirstCount, ?_⟩
  exact (fills_form (congrArg (· + 1) hfirstCount) hsecond (by omega) (by omega) 0x36 0x2F).congr
    fun i => by omega

theorem fills_panArms (hc : g.count = c) (h : Fills area m old (fun i => i = c) g)
    (hroom : c + 2 < 2 ^ 32) :
    (Expansion.panArms.fill area g).count = c + 2 ∧
      Fills area m old (fun i => c ≤ i ∧ i ≤ c + 2) (Expansion.panArms.fill area g) := by
  have hloop (n : ℕ) (hn : n ≤ 3) :
      let g' := (List.range n).foldl (fun g j =>
        (g.assign j (setType (0x31 + j) (UInt8.ofNat (0x15 + j)))).assign j (setArea area)) g
      g'.count = c ∧ Fills area m old (fun i => i = c ∨ c ≤ i ∧ i < c + n) g' := by
    dsimp only
    induction n with
    | zero => exact ⟨hc, h.congr fun i => by omega⟩
    | succ n ih =>
      obtain ⟨hcount, hfills⟩ := ih (by omega)
      rw [foldl_range_succ]
      generalize (List.range n).foldl _ g = g' at hcount hfills ⊢
      have hslot : g'.slot n = c + n := by
        rw [MapGen.slot, hcount, Nat.mod_eq_of_lt (by omega)]
      refine ⟨hcount, (hfills.put _).congr fun i => ?_⟩
      rw [hslot]
      omega
  obtain ⟨hcount, hfills⟩ := hloop 3 le_rfl
  exact ⟨congrArg (· + 2) hcount, (hfills.skip 2).congr fun i => by omega⟩

theorem fills_chaosSorcerer (hc : g.count = c) (h : Fills area m old (fun i => i = c) g)
    (hroom : c + 2 < 2 ^ 32) :
    (Expansion.chaosSorcerer.fill area g).count = c + 2 ∧
      Fills area m old (fun i => c ≤ i ∧ i ≤ c + 2) (Expansion.chaosSorcerer.fill area g) := by
  have hslot (k : ℕ) (hk : k ≤ 2) : g.slot k = c + k := by
    rw [MapGen.slot, hc, Nat.mod_eq_of_lt (by omega)]
  have hown := h.assign (hslot 0 (by omega)) (setType_area 0x0A 0x1F)
  refine ⟨congrArg (· + 2) hc, ?_⟩
  refine ((((hown.put (k := 1) (setType 0x0B 0x00)).put (k := 2) (setType 0x0C 0x00)).skip
    2).congr fun i => ?_)
  change (i = c ∨ i = g.slot 1) ∨ i = g.slot 2 ↔ _
  rw [hslot 1 (by omega), hslot 2 (by omega)]
  omega

/-- A case of the `switch`: the counter goes on by what the case adds, and every place so far is
filled, but for those that are left out. -/
theorem fills_fill (x : Expansion) (hc : g.count = c) (h : Fills area m old (fun i => i = c) g)
    (hroom : c + x.added < 2 ^ 32) :
    (x.fill area g).count = c + x.added ∧
      Fills area m old (fun i => c ≤ i ∧ i ≤ c + x.added ∧ ¬(c < i ∧ i ≤ c + x.skipped))
        (x.fill area g) := by
  have hslot : g.slot 0 = c := by
    rw [MapGen.slot, hc, Nat.add_zero, Nat.mod_eq_of_lt (by omega)]
  cases x with
  | nothing =>
    exact ⟨hc, h.congr fun i => by simp only [Expansion.added, Expansion.skipped]; omega⟩
  | single bp rt =>
    refine ⟨hc, (h.assign hslot (setType_area bp rt)).congr fun i => ?_⟩
    simp only [Expansion.added, Expansion.skipped]
    omega
  | followed bp rt n bp' rt' =>
    obtain ⟨hcount, hfills⟩ := fills_followed (g := g.assign 0 (setType bp rt)) hc
      (h.assign hslot (setType_area bp rt)) bp' rt' n hroom
    refine ⟨hcount, hfills.congr fun i => ?_⟩
    simp only [Expansion.added, Expansion.skipped]
    omega
  | panArms =>
    obtain ⟨hcount, hfills⟩ := fills_panArms hc h hroom
    refine ⟨hcount, hfills.congr fun i => ?_⟩
    simp only [Expansion.added, Expansion.skipped]
    omega
  | chaosSorcerer =>
    obtain ⟨hcount, hfills⟩ := fills_chaosSorcerer hc h hroom
    refine ⟨hcount, hfills.congr fun i => ?_⟩
    simp only [Expansion.added, Expansion.skipped]
    omega
  | darkFalz =>
    obtain ⟨hcount, hfills⟩ := fills_darkFalz hc h (by decide : 0 < 510) hroom
    refine ⟨hcount, hfills.congr fun i => ?_⟩
    simp only [Expansion.added, Expansion.skipped]
    omega
  | skipping bp rt n =>
    refine ⟨congrArg (· + n) hc, ((h.assign hslot (setType_area bp rt)).skip n).congr fun i => ?_⟩
    simp only [Expansion.added, Expansion.skipped]
    omega

/-- The clones fill one place each, behind the last entry so far. -/
theorem fills_clones {W : ℕ → Prop} {d : ℕ} (hd : g.count = d) (h : Fills area m old W g) (n : ℕ)
    (hroom : d + n < 2 ^ 32) :
    let g' := (List.range n).foldl (fun g _ => clone area g) g
    g'.count = d + n ∧ Fills area m old (fun i => W i ∨ d < i ∧ i ≤ d + n) g' := by
  dsimp only
  induction n with
  | zero => exact ⟨hd, h.congr fun i => ⟨.inl, fun hi => hi.elim id fun hi => by omega⟩⟩
  | succ n ih =>
    obtain ⟨hcount, hfills⟩ := ih (by omega)
    rw [foldl_range_succ]
    generalize (List.range n).foldl _ g = g' at hcount hfills ⊢
    have hslot : g'.slot 1 = d + n + 1 := by
      rw [MapGen.slot, hcount, Nat.mod_eq_of_lt (by omega)]
    refine ⟨congrArg (· + 1) hcount, ((hfills.put _).skip 1).congr fun i => ?_⟩
    rw [hslot, or_assoc]
    exact or_congr_right (by omega)

end Cases

/-- The places that a record fills, where its entries begin at `c`. -/
def MapEnemy.Filled (en : MapEnemy) (ep : ℤ) (alt : Bool) (c i : ℕ) : Prop :=
  c ≤ i ∧ i < c + en.size ep alt ∧ ¬(c < i ∧ i ≤ c + (en.expansion ep alt).skipped)

/-- What one turn of the loop over the records does: it takes the places of the record, fills them
but for those that are left out, and touches no others. -/
theorem fills_parseRecord {ep : ℤ} {alt : Bool} (en : MapEnemy)
    (hroom : g.count + en.size ep alt < 2 ^ 32) :
    (parseRecord ep alt area g en).count = g.count + en.size ep alt ∧
      Fills area g.gen g.written (en.Filled ep alt g.count) (parseRecord ep alt area g en) := by
  have hsize := added_add_clones en ep alt
  have hskipped := skipped_le_added (en.expansion ep alt)
  have hslot : g.slot 0 = g.count := by
    rw [MapGen.slot, Nat.add_zero, Nat.mod_eq_of_lt (by omega)]
  have hstart : Fills area g.gen g.written (fun _ => False) g :=
    ⟨fun _ h => h.elim, fun _ _ => rfl, fun _ h => .inl h⟩
  have hown : Fills area g.gen g.written (fun i => i = g.count) (g.assign 0 (setArea area)) :=
    (hstart.assign_area (k := 0)).congr fun i => by rw [hslot, false_or]
  obtain ⟨hcount, hfills⟩ := @fills_fill area g.gen g.written (g.assign 0 (setArea area)) g.count
    (en.expansion ep alt) rfl hown (by omega)
  obtain ⟨hcount', hfills'⟩ := fills_clones hcount hfills en.clones (by omega)
  rw [parseRecord]
  refine ⟨?_, (hfills'.skip 1).congr fun i => ?_⟩
  · rw [MapGen.skip, hcount']
    dsimp only
    omega
  · rw [MapEnemy.Filled]
    omega

end Filling

section Records

variable {ep : ℤ} {alt : Bool} {area : UInt8} {g : MapGen}

/-- The entries of some records. -/
def total (ep : ℤ) (alt : Bool) (en : List MapEnemy) : ℕ :=
  (en.map fun r => r.size ep alt).sum

theorem total_nil : total ep alt [] = 0 := rfl

theorem total_cons (r : MapEnemy) (en : List MapEnemy) :
    total ep alt (r :: en) = r.size ep alt + total ep alt en := by
  rw [total, List.map_cons, List.sum_cons, total]

theorem total_append (pre post : List MapEnemy) :
    total ep alt (pre ++ post) = total ep alt pre + total ep alt post := by
  rw [total, List.map_append, List.sum_append, total, total]

theorem parseRecords_append (pre post : List MapEnemy) :
    parseRecords ep alt area g (pre ++ post) =
      parseRecords ep alt area (parseRecords ep alt area g pre) post := by
  rw [parseRecords, List.foldl_append, parseRecords, parseRecords]

/-- A run of the loop takes the places of its records, and touches no others. -/
theorem parseRecords_spec (en : List MapEnemy) (hroom : g.count + total ep alt en < 2 ^ 32) :
    (parseRecords ep alt area g en).count = g.count + total ep alt en ∧
      (∀ i, ¬(g.count ≤ i ∧ i < g.count + total ep alt en) →
        (parseRecords ep alt area g en).gen i = g.gen i) ∧
      ∀ i ∈ (parseRecords ep alt area g en).written,
        i ∈ g.written ∨ g.count ≤ i ∧ i < g.count + total ep alt en := by
  induction en generalizing g with
  | nil => exact ⟨rfl, fun _ _ => rfl, fun _ hi => .inl hi⟩
  | cons r en ih =>
    rw [total_cons] at hroom ⊢
    obtain ⟨hcount, hfills⟩ := @fills_parseRecord area g ep alt r (by omega)
    obtain ⟨hcount', hkept, hwritten⟩ := @ih (parseRecord ep alt area g r) (by omega)
    rw [parseRecords, List.foldl_cons, ← parseRecords]
    refine ⟨by omega, fun i hi => ?_, fun i hi => ?_⟩
    · rw [hkept i (by omega), hfills.kept i fun h => hi ⟨h.1, by have := h.2.1; omega⟩]
    · rcases hwritten i hi with hold | hnew
      · exact (hfills.written i hold).imp_right fun h => ⟨h.1, by have := h.2.1; omega⟩
      · exact .inr ⟨by omega, by omega⟩

theorem exists_block (en : List MapEnemy) {i : ℕ} (hi : i < total ep alt en) :
    ∃ pre r post, en = pre ++ r :: post ∧ total ep alt pre ≤ i ∧
      i < total ep alt pre + r.size ep alt := by
  induction en generalizing i with
  | nil => exact absurd hi (Nat.not_lt_zero i)
  | cons r en ih =>
    rw [total_cons] at hi
    by_cases hown : i < r.size ep alt
    · exact ⟨[], r, en, rfl, Nat.zero_le i, by rw [total_nil]; omega⟩
    · obtain ⟨pre, r', post, rfl, hlow, hhigh⟩ := ih (i := i - r.size ep alt) (by omega)
      exact ⟨r :: pre, r', post, rfl, by rw [total_cons]; omega, by rw [total_cons]; omega⟩

variable {beyond : ℕ → GameEnemy}

/-- The entries of one record's block at the end: filled with its turn, or as they were. -/
theorem area_block (pre post : List MapEnemy) (r : MapEnemy)
    (hroom : total ep alt (pre ++ r :: post) < 2 ^ 32) {i : ℕ} (hlow : total ep alt pre ≤ i)
    (hhigh : i < total ep alt pre + r.size ep alt) :
    (r.Filled ep alt (total ep alt pre) i →
        ((parseRecords ep alt area (cleared beyond) (pre ++ r :: post)).gen i).area = area) ∧
      (¬r.Filled ep alt (total ep alt pre) i →
        (parseRecords ep alt area (cleared beyond) (pre ++ r :: post)).gen i =
          (cleared beyond).gen i) := by
  rw [total_append, total_cons] at hroom
  have hzero : (cleared beyond).count = 0 := rfl
  obtain ⟨hcount, hkept, -⟩ := @parseRecords_spec ep alt area (cleared beyond) pre (by omega)
  rw [hzero, Nat.zero_add] at hcount
  obtain ⟨hcount', hfills⟩ := @fills_parseRecord area
    (parseRecords ep alt area (cleared beyond) pre) ep alt r (by omega)
  obtain ⟨-, hkept', -⟩ := @parseRecords_spec ep alt area
    (parseRecord ep alt area (parseRecords ep alt area (cleared beyond) pre) r) post (by omega)
  rw [hcount] at hfills
  rw [parseRecords_append, parseRecords, List.foldl_cons, ← parseRecords]
  constructor
  · intro h
    rw [hkept' i (by omega)]
    exact hfills.set i h
  · intro h
    rw [hkept' i (by omega), hfills.kept i h, hkept i (by omega)]

end Records

section Expanding

/-- `parse_map` writes only inside its buffer, counts the entries of all records, and gives each
record the next block of entries, which all carry the area. -/
structure Expands (en : List MapEnemy) (ep : ℤ) (alt : Bool) (area : ℤ) (beyond : ℕ → GameEnemy) :
    Prop where
  inside : ∀ i ∈ (parseMap en ep alt area beyond).written, i < capacity
  count : (parseMap en ep alt area beyond).count.toNat = total ep alt en
  blocks : ∀ pre r post, en = pre ++ r :: post →
    let g := parseRecords ep alt (UInt8.ofInt area) (cleared beyond) pre
    g.count = total ep alt pre ∧
      (∀ i, ¬(g.count ≤ i ∧ i < g.count + r.size ep alt) →
        (parseRecord ep alt (UInt8.ofInt area) g r).gen i = g.gen i) ∧
      ∀ i, g.count ≤ i → i < g.count + r.size ep alt →
        ((parseMap en ep alt area beyond).enemies i).area = UInt8.ofInt area

variable {en : List MapEnemy} {ep : ℤ} {alt : Bool} {area : ℤ} {beyond : ℕ → GameEnemy}

theorem Expands.total_lt (h : Expands en ep alt area beyond) : total ep alt en < 2 ^ 32 := by
  rw [← h.count]
  exact BitVec.isLt _

theorem Expands.area_eq (h : Expands en ep alt area beyond) {i : ℕ} (hi : i < total ep alt en) :
    ((parseMap en ep alt area beyond).enemies i).area = UInt8.ofInt area := by
  obtain ⟨pre, r, post, heq, hlow, hhigh⟩ := exists_block en hi
  obtain ⟨hcount, -, harea⟩ := h.blocks pre r post heq
  exact harea i (by omega) (by omega)

/-- Entries behind the buffer hold what `realloc` gave them. -/
theorem enemies_of_le {i : ℕ} (hi : capacity ≤ i) :
    (parseMap en ep alt area beyond).enemies i = beyond i :=
  if_neg (not_lt.mpr hi)

theorem enemies_of_lt {i : ℕ} (hi : i < capacity) :
    (parseMap en ep alt area beyond).enemies i =
      (parseRecords ep alt (UInt8.ofInt area) (cleared beyond) en).gen i :=
  if_pos hi

/-- The array does not outgrow the buffer where the areas are right whatever the memory holds. -/
theorem total_le_of_expands (h : ∀ beyond, Expands en ep alt area beyond) :
    total ep alt en ≤ capacity := by
  by_contra hmore
  have harea := (h fun _ => { clearedEnemy with area := UInt8.ofInt area + 1 }).area_eq
    (not_le.mp hmore)
  rw [enemies_of_le le_rfl] at harea
  exact absurd harea (by simp)

/-- Room that a record leaves keeps the area of a cleared entry. -/
theorem area_of_leavesRoom (h : Expands en ep alt area beyond) (hfit : total ep alt en ≤ capacity)
    {r : MapEnemy} (hr : r ∈ en) (hroom : r.LeavesRoom ep alt) : UInt8.ofInt area = 0 := by
  obtain ⟨pre, post, rfl⟩ := List.append_of_mem hr
  have hskipped := (skipped_pos_iff r ep alt).mpr hroom
  have hsize := added_add_clones r ep alt
  have hadded := skipped_le_added (r.expansion ep alt)
  have htotal := hfit
  rw [total_append, total_cons] at htotal
  have hin : total ep alt pre + 1 < total ep alt (pre ++ r :: post) := by
    rw [total_append, total_cons]
    omega
  have hcapacity : total ep alt pre + 1 < capacity := by omega
  have hkept := (@area_block ep alt (UInt8.ofInt area) beyond pre post r h.total_lt
    (total ep alt pre + 1) (by omega) (by omega)).2 fun hfilled => hfilled.2.2 (by omega)
  have harea := h.area_eq hin
  rw [enemies_of_lt hcapacity, hkept] at harea
  rw [← harea]
  exact congrArg GameEnemy.area (if_pos hcapacity)

/-- Where the array fits and no room is left, or the area is the cleared one, all is well. -/
theorem expands_of_fits (hfit : total ep alt en ≤ capacity)
    (hroom : UInt8.ofInt area = 0 ∨ ∀ r ∈ en, ¬r.LeavesRoom ep alt) :
    Expands en ep alt area beyond := by
  have hcapacity : capacity = 0xB50 := rfl
  have hzero : (cleared beyond).count = 0 := rfl
  have hlt : total ep alt en < 2 ^ 32 := by omega
  obtain ⟨hcount, -, hwritten⟩ := @parseRecords_spec ep alt (UInt8.ofInt area) (cleared beyond) en
    (by omega)
  rw [hzero, Nat.zero_add] at hcount hwritten
  refine ⟨fun i hi => ?_, ?_, fun pre r post heq => ?_⟩
  · have hin := (hwritten i hi).resolve_left List.not_mem_nil
    omega
  · change (BitVec.ofNat 32 _).toNat = _
    rw [hcount, BitVec.toNat_ofNat, Nat.mod_eq_of_lt hlt]
  · subst heq
    have hsum := hlt
    rw [total_append, total_cons] at hsum hfit
    obtain ⟨hpre, -, -⟩ := @parseRecords_spec ep alt (UInt8.ofInt area) (cleared beyond) pre
      (by omega)
    rw [hzero, Nat.zero_add] at hpre
    obtain ⟨-, hfills⟩ := @fills_parseRecord (UInt8.ofInt area)
      (parseRecords ep alt (UInt8.ofInt area) (cleared beyond) pre) ep alt r (by omega)
    refine ⟨hpre, fun i hi => hfills.kept i fun h => hi ⟨h.1, h.2.1⟩, fun i hlow hhigh => ?_⟩
    rw [hpre] at hlow hhigh
    obtain ⟨hset, hkept⟩ := @area_block ep alt (UInt8.ofInt area) beyond pre post r hlt i hlow
      hhigh
    rw [enemies_of_lt (by omega)]
    by_cases hfilled : r.Filled ep alt (total ep alt pre) i
    · exact hset hfilled
    · rw [hkept hfilled]
      have hskip : 0 < (r.expansion ep alt).skipped := by
        by_contra hnone
        exact hfilled ⟨hlow, hhigh, by omega⟩
      have hleft : r.LeavesRoom ep alt := (skipped_pos_iff r ep alt).mp hskip
      have harea := hroom.resolve_right fun h =>
        h r (List.mem_append_right _ List.mem_cons_self) hleft
      rw [harea]
      exact congrArg GameEnemy.area (if_pos (by omega))

end Expanding

/-- For all records, `parse_map` does as it should, whatever is in the memory behind its buffer,
exactly when the entries of all records fit into the buffer and the area is 0 or no record leaves
room for companions without filling it. -/
theorem expands_iff (en : List MapEnemy) (ep : ℤ) (alt : Bool) (area : ℤ) :
    (∀ beyond, Expands en ep alt area beyond) ↔
      total ep alt en ≤ capacity ∧
        (UInt8.ofInt area = 0 ∨ ∀ r ∈ en, ¬r.LeavesRoom ep alt) := by
  constructor
  · intro h
    have hfit := total_le_of_expands h
    refine ⟨hfit, or_iff_not_imp_right.mpr fun hroom => ?_⟩
    push Not at hroom
    obtain ⟨r, hr, hleft⟩ := hroom
    exact area_of_leavesRoom (h fun _ => clearedEnemy) hfit hr hleft
  · rintro ⟨hfit, hroom⟩ beyond
    exact expands_of_fits hfit hroom

/-- A Barba Ray without clones. -/
def barbaRay : MapEnemy := ⟨0x00CB, 0, 0, 0⟩

/-- The companions of a Barba Ray are left in area 0. -/
theorem not_expands : ¬ ∀ en ep alt area beyond, Expands en ep alt area beyond := by
  intro h
  have harea := (h [barbaRay] 2 false 14 fun _ => clearedEnemy).area_eq (i := 1) (by decide)
  revert harea
  decide

end ShipServer.MapExpansion
