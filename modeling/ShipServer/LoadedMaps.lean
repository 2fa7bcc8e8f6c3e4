import ShipServer.MapExpansion

set_option autoImplicit false

/-! The map sets that are read at the start of the ship. -/

namespace ShipServer.LoadedMaps

open QuestMapCache MapExpansion

/-- The mark of a Rappy that is to be filled in with the lobby. -/
def rappyMark : UInt8 := 255

/-- No entry of the buffer has the mark. -/
def Unmarked (g : MapGen) : Prop :=
  ∀ i < capacity, (g.gen i).rtIndex ≠ rappyMark

variable {g : MapGen}

/-- An assignment that sets no mark. -/
theorem Unmarked.assign (h : Unmarked g) (k : ℕ) {f : GameEnemy → GameEnemy}
    (hf : ∀ e, e.rtIndex ≠ rappyMark → (f e).rtIndex ≠ rappyMark) : Unmarked (g.assign k f) := by
  intro i hi
  change (Function.update g.gen (g.slot k) (f (g.gen (g.slot k))) i).rtIndex ≠ rappyMark
  by_cases hslot : i = g.slot k
  · rw [hslot, Function.update_self]
    exact hf _ (h _ (hslot ▸ hi))
  · rw [Function.update_of_ne hslot]
    exact h i hi

theorem Unmarked.skip (h : Unmarked g) (n : ℕ) : Unmarked (g.skip n) := h

theorem Unmarked.assignArea (h : Unmarked g) (k : ℕ) (area : UInt8) :
    Unmarked (g.assign k (setArea area)) :=
  h.assign k fun _ he => he

theorem Unmarked.assignType (h : Unmarked g) (k bp : ℕ) {rt : UInt8} (hrt : rt ≠ rappyMark) :
    Unmarked (g.assign k (setType bp rt)) :=
  h.assign k fun _ _ => hrt

theorem Unmarked.loop {step : MapGen → MapGen} (hstep : ∀ g, Unmarked g → Unmarked (step g))
    (h : Unmarked g) (ks : List ℕ) : Unmarked (ks.foldl (fun g _ => step g) g) := by
  induction ks generalizing g with
  | nil => exact h
  | cons k ks ih => exact ih (hstep g h)

/-- The mark is none of the indices that a type of record sets. -/
def MarksNone : Expansion → Prop
  | .single _ rt => rt ≠ rappyMark
  | .followed _ rt _ _ rt' => rt ≠ rappyMark ∧ rt' ≠ rappyMark
  | .skipping _ rt _ => rt ≠ rappyMark
  | _ => True

variable {area : UInt8}

theorem Unmarked.darkFalz (h : Unmarked g) (n : ℕ) : Unmarked (fillDarkFalz n area g) := by
  have hdarvants := h.loop
    (fun g hg => ((hg.assignArea 0 area).assignType 0 0x35 (by decide : (0 : UInt8) ≠ _)).skip 1)
    (List.range n)
  have hform {g : MapGen} (hg : Unmarked g) (bp : ℕ) :
      Unmarked ((g.assign 0 (setArea area)).assign 0 (setType bp 0x2F)) :=
    (hg.assignArea 0 area).assignType 0 bp (by decide)
  exact hform ((hform ((hform hdarvants 0x38).skip 1) 0x37).skip 1) 0x36

theorem Unmarked.fill (h : Unmarked g) {x : Expansion} (hx : MarksNone x) :
    Unmarked (x.fill area g) := by
  have hpart {g : MapGen} (hg : Unmarked g) (k bp : ℕ) {rt : UInt8} (hrt : rt ≠ rappyMark) :
      Unmarked ((g.assign k (setType bp rt)).assign k (setArea area)) :=
    (hg.assignType k bp hrt).assignArea k area
  cases x with
  | nothing => exact h
  | single bp rt => exact h.assignType 0 bp hx
  | followed bp rt n bp' rt' =>
    exact (h.assignType 0 bp hx.1).loop (fun g hg => hpart (hg.skip 1) 0 bp' hx.2) (List.range n)
  | panArms =>
    have h0 := hpart h 0 0x31 (by decide : (0x15 : UInt8) ≠ _)
    have h1 := hpart h0 1 0x32 (by decide : (0x16 : UInt8) ≠ _)
    exact (hpart h1 2 0x33 (by decide)).skip 2
  | chaosSorcerer =>
    have h0 := h.assignType 0 0x0A (by decide : (0x1F : UInt8) ≠ _)
    have h1 := hpart h0 1 0x0B (by decide : (0x00 : UInt8) ≠ _)
    exact (hpart h1 2 0x0C (by decide)).skip 2
  | darkFalz => exact h.darkFalz 510
  | skipping bp rt n => exact (h.assignType 0 bp hx).skip n

/-- An index that one of the few kinds of a record is added to. -/
theorem ofNat_ne_mark {n : ℕ} (h : n < 255) : UInt8.ofNat n ≠ rappyMark := by
  intro heq
  have htoNat := congrArg UInt8.toNat heq
  rw [UInt8.toNat_ofNat', Nat.mod_eq_of_lt (by omega)] at htoNat
  change n = 255 at htoNat
  omega

theorem skinBit_lt (en : MapEnemy) : en.skinBit < 2 := by
  have hle : en.skin &&& 1 ≤ 1 := by
    rw [BitVec.le_def, BitVec.toNat_and]
    exact Nat.and_le_right
  have := BitVec.le_def.mp hle
  change (en.skin &&& 1).toNat < 2
  change (en.skin &&& 1).toNat ≤ 1 at this
  omega

theorem skinKind_lt (en : MapEnemy) : en.skinKind < 3 := by
  rw [MapEnemy.skinKind, BitVec.toNat_umod]
  exact Nat.mod_lt _ (by decide)

theorem flag_lt (en : MapEnemy) : en.flag < 2 := by
  rw [MapEnemy.flag]
  split <;> decide

/-- The Rappy of the first episode has an index of its own. -/
theorem marksNone_expansion (en : MapEnemy) (alt : Bool) : MarksNone (en.expansion 1 alt) := by
  have hbit := skinBit_lt en
  have hkind := skinKind_lt en
  have hflag := flag_lt en
  have hshift : (0x18 + en.skinBit) <<< en.skinBit < 255 := by
    generalize en.skinBit = bit at hbit
    interval_cases bit <;> decide
  unfold MapEnemy.expansion
  split
  all_goals try split_ifs
  all_goals first
    | exact trivial
    | exact ofNat_ne_mark (by omega)
    | (change (_ : UInt8) ≠ rappyMark
       decide)
    | (change (_ : UInt8) ≠ rappyMark ∧ (_ : UInt8) ≠ rappyMark
       decide)
    | exact ⟨ofNat_ne_mark (by omega), by decide⟩

theorem Unmarked.clone (h : Unmarked g) (hslot : g.slot 0 < capacity) :
    Unmarked (clone area g) := by
  have hown := h _ hslot
  refine Unmarked.skip (Unmarked.assignArea (h.assign 1 ?_) 1 area) 1
  exact fun _ _ => hown

/-- Clones of an entry inside the buffer. -/
theorem Unmarked.clones (h : Unmarked g) {n : ℕ} (hroom : g.count + n ≤ capacity) :
    let g' := (List.range n).foldl (fun g _ => MapExpansion.clone area g) g
    Unmarked g' ∧ g'.count = g.count + n := by
  induction n with
  | zero => exact ⟨h, rfl⟩
  | succ n ih =>
    obtain ⟨hg, hcount⟩ := ih (by omega)
    dsimp only at hg hcount ⊢
    rw [foldl_range_succ]
    generalize (List.range n).foldl _ g = g' at hg hcount ⊢
    have hslot : g'.slot 0 < capacity := by
      rw [MapGen.slot, hcount, Nat.add_zero]
      exact (Nat.mod_le _ _).trans_lt (by omega)
    exact ⟨hg.clone hslot, congrArg (· + 1) hcount⟩

/-- A record of the first episode that fits into the buffer. -/
theorem Unmarked.parseRecord (h : Unmarked g) {en : MapEnemy} {alt : Bool}
    (hroom : g.count + en.size 1 alt ≤ capacity) : Unmarked (parseRecord 1 alt area g en) := by
  have hcapacity : capacity < 2 ^ 32 := by decide
  have hsize := added_add_clones en 1 alt
  have hown : Fills area g.gen g.written (fun i => i = g.count) (g.assign 0 (setArea area)) := by
    have hstart : Fills area g.gen g.written (fun _ => False) g :=
      ⟨fun _ h => h.elim, fun _ _ => rfl, fun _ h => .inl h⟩
    refine (hstart.assign_area (k := 0)).congr fun i => ?_
    rw [MapGen.slot, Nat.add_zero, Nat.mod_eq_of_lt (by omega), false_or]
  have hcount := (@fills_fill area g.gen g.written (g.assign 0 (setArea area)) g.count
    (en.expansion 1 alt) rfl hown (by omega)).1
  have hfill := @Unmarked.fill _ area (h.assignArea 0 area) _ (marksNone_expansion en alt)
  exact (hfill.clones (by omega)).1.skip 1

theorem Unmarked.parseRecords (h : Unmarked g) {en : List MapEnemy} {alt : Bool}
    (hroom : g.count + total 1 alt en ≤ capacity) :
    Unmarked (parseRecords 1 alt area g en) := by
  have hcapacity : capacity < 2 ^ 32 := by decide
  induction en generalizing g with
  | nil => exact h
  | cons r en ih =>
    rw [total_cons] at hroom
    have hcount := (@fills_parseRecord area g 1 alt r (by omega)).1
    exact ih (h.parseRecord (by omega)) (by omega)

/-- The enemies of a map file. -/
def parsedSet (en : List MapEnemy) (ep : ℤ) (alt : Bool) (area : ℤ) (beyond : ℕ → GameEnemy) :
    List GameEnemy :=
  (List.range (parseMap en ep alt area beyond).count.toNat).map
    (parseMap en ep alt area beyond).enemies

/-- `game_enemies_t` of a file whose enemies fit into the buffer. -/
def ReadFrom (ep : ℤ) (alt : Bool) (area : ℤ) (set : List GameEnemy) : Prop :=
  ∃ en beyond, total ep alt en ≤ capacity ∧ set = parsedSet en ep alt area beyond

theorem count_parseMap {en : List MapEnemy} {ep : ℤ} {alt : Bool} {place : ℤ}
    {beyond : ℕ → GameEnemy} (hfit : total ep alt en ≤ capacity) :
    (parseMap en ep alt place beyond).count.toNat = total ep alt en := by
  have hcapacity : capacity < 2 ^ 32 := by decide
  have hcount := (@parseRecords_spec ep alt (UInt8.ofInt place) (cleared beyond) en
    (by change 0 + _ < _; omega)).1
  have hzero : (cleared beyond).count = 0 := rfl
  rw [hzero, Nat.zero_add] at hcount
  change (BitVec.ofNat 32 _).toNat = _
  rw [hcount, BitVec.toNat_ofNat, Nat.mod_eq_of_lt (by omega)]

theorem ReadFrom.length_le {ep : ℤ} {alt : Bool} {place : ℤ} {set : List GameEnemy}
    (h : ReadFrom ep alt place set) : set.length ≤ capacity := by
  obtain ⟨en, beyond, hfit, rfl⟩ := h
  rw [parsedSet, List.length_map, List.length_range, count_parseMap hfit]
  exact hfit

/-- No enemy of a map of the first episode waits for the event. -/
theorem ReadFrom.unmarked {alt : Bool} {place : ℤ} {set : List GameEnemy}
    (h : ReadFrom 1 alt place set) : ∀ e ∈ set, e.rtIndex ≠ rappyMark := by
  obtain ⟨en, beyond, hfit, rfl⟩ := h
  intro e he
  obtain ⟨i, hi, rfl⟩ := List.mem_map.mp he
  rw [List.mem_range, count_parseMap hfit] at hi
  rw [enemies_of_lt (by omega)]
  have hstart : Unmarked (cleared beyond) := by
    intro k hk
    change (if k < capacity then clearedEnemy else beyond k).rtIndex ≠ rappyMark
    rw [if_pos hk]
    decide
  exact hstart.parseRecords (by change 0 + _ ≤ _; omega) i (by omega)

end ShipServer.LoadedMaps
