import ShipServer.WeaponChoice

set_option autoImplicit false

/-! The technique disks that are generated from tables of any bytes. -/

namespace ShipServer.TechniqueDisks

open DropItems WeaponRolls WeightedChoice WeaponChoice

/-- The chances of the techniques in an area, out of 1000. -/
def frequencies (ent : PtEntry) (area : ℤ) : List ℤ :=
  (List.range 19).map fun i => ((ent.techFrequency i area).toNat : ℤ)

/-- The part of the random number that a technique is chosen by. -/
def techNumber (rng : Rng) : ℤ :=
  (rng 0).toNat % 1000

def minLevel (ent : PtEntry) (area : ℤ) (i : ℕ) : ℤ :=
  (ent.techLevels i (2 * area)).toInt

def maxLevel (ent : PtEntry) (area : ℤ) (i : ℕ) : ℤ :=
  (ent.techLevels i (2 * area + 1)).toInt

/-- How far above the lowest level the level of a disk is, by the rest of the random number. -/
def levelNumber (ent : PtEntry) (area : ℤ) (rng : Rng) (i : ℕ) : ℤ :=
  ((rng 0).toNat / 1000 : ℕ) % (min (maxLevel ent area i) 29 + 1 - min (minLevel ent area i) 29)

/-- The item is a disk of a technique that the area has, chosen with the chance of the technique
and with a level of its range, and nothing else of the item has changed. -/
structure IsDisk (ent : PtEntry) (area : ℤ) (rng : Rng) (before after : ItemWords)
    (i level : ℕ) : Prop where
  technique : i < 19
  frequent : ent.techFrequency i area ≠ 0
  lands : landing (frequencies ent area) (techNumber rng) = some i
  chance : share (frequencies ent area) 1000 i = (ent.techFrequency i area).toNat
  atLeast : min (minLevel ent area i) 29 ≤ level
  atMost : level ≤ min (maxLevel ent area i) 29
  below : level < 30
  disk : after.item1 = BitVec.ofNat 32 i
  level : itemByte after 2 = BitVec.ofNat 8 level
  others : ∀ k < 16, k ≠ 2 → ¬(4 ≤ k ∧ k < 8) → itemByte after k = itemByte before k

/-- The item that every disk starts from, whatever is in its other words. -/
def diskItem (item1 item2 item3 : BitVec 32) : ItemWords :=
  ⟨itemDiskLv01, item1, item2, item3⟩

/-- Whenever `generate_tech` succeeds, it makes a disk. -/
def MakesDisks (ent : PtEntry) (area : ℤ) (rng : Rng) (before : ItemWords) : Prop :=
  ∀ it, (generateTech ent area before rng).1 = some it →
    ∃ i level, IsDisk ent area rng before it i level

/-- The table is sane where the random number falls: the chances do not go over 1000, and the level
is not below zero. -/
def SaneAt (ent : PtEntry) (area : ℤ) (rng : Rng) : Prop :=
  ∀ i, landing (frequencies ent area) (techNumber rng) = some i →
    minLevel ent area i ≠ -1 → minLevel ent area i ≤ maxLevel ent area i →
      ((frequencies ent area).take (i + 1)).sum ≤ 1000 ∧
        (0 ≤ minLevel ent area i ∨ -minLevel ent area i ≤ levelNumber ent area rng i)

section Techniques

variable {ent : PtEntry} {area : ℤ} {rng : Rng} {it : ItemWords} {i : ℕ}

theorem mem_frequencies {w : ℤ} (h : w ∈ frequencies ent area) : 0 ≤ w ∧ w < 256 := by
  obtain ⟨i, -, rfl⟩ := List.mem_map.mp h
  have hlt := (ent.techFrequency i area).isLt
  omega

theorem getElem_frequencies (hi : i < (frequencies ent area).length) :
    (frequencies ent area)[i] = ((ent.techFrequency i area).toNat : ℤ) := by
  simp [frequencies]

theorem techNumber_bounds (rng : Rng) : 0 ≤ techNumber rng ∧ techNumber rng < 1000 :=
  ⟨Int.emod_nonneg _ (by decide), Int.emod_lt_of_pos _ (by decide)⟩

/-- The search of the source finds where the number falls. -/
theorem pick_tech :
    pick 1000 ((List.range 19).map fun i => (ent.techFrequency i area).zeroExtend 32)
      (rng 0 % 1000) = landing (frequencies ent area) (techNumber rng) := by
  have hwords : ((List.range 19).map fun i => (ent.techFrequency i area).zeroExtend 32) =
      (frequencies ent area).map (BitVec.ofInt 32) := by
    rw [frequencies, List.map_map]
    refine List.map_congr_left fun i _ => ?_
    rw [Function.comp_apply, BitVec.ofInt_natCast, BitVec.ofNat_toNat, BitVec.zeroExtend]
  have hsmall : ∀ w ∈ frequencies ent area, |w| < 2 ^ 16 := by
    intro w hw
    have hbounds := mem_frequencies hw
    rw [abs_lt]
    omega
  rw [hwords, ← wrapped_eq_landing (fun w hw => (mem_frequencies hw).1)
    (techNumber_bounds rng).2.le]
  exact pick_residue hsmall (by decide : (0 : ℤ) < 1000) (by decide) (rng 0)

theorem capLevel_eq (t : BitVec 8) : capLevel t = min t.toInt 29 := by
  unfold capLevel
  split_ifs <;> omega

/-- The level is drawn between the lowest and the highest. -/
theorem drawn_level (n : BitVec 32) {low high : ℤ} (hle : low ≤ high) (hlow : -128 ≤ low)
    (hhigh : high < 128) :
    (if low < high then n % BitVec.ofInt 32 (high + 1 - low) + BitVec.ofInt 32 low
      else BitVec.ofInt 32 low) = BitVec.ofInt 32 (low + n.toNat % (high + 1 - low)) := by
  by_cases hlt : low < high
  · rw [if_pos hlt, umod_ofInt _ (by omega) (by omega), ← BitVec.ofInt_add, add_comm]
  · have hone : high + 1 - low = 1 := by omega
    rw [if_neg hlt, hone, Int.emod_one, add_zero]

/-- Where the code succeeds, it has added the level to the first word. -/
theorem generateTech_some (hland : landing (frequencies ent area) (techNumber rng) = some i)
    (hmin : minLevel ent area i ≠ -1) (hle : minLevel ent area i ≤ maxLevel ent area i) :
    (generateTech ent area it rng).1 = some { it with
      item0 := it.item0 |||
        BitVec.ofInt 32 (min (minLevel ent area i) 29 + levelNumber ent area rng i) <<< 16
      item1 := BitVec.ofNat 32 i } := by
  have hrefused : ¬((ent.techLevels i (2 * area)).toInt = -1 ∨
      (ent.techLevels i (2 * area + 1)).toInt < (ent.techLevels i (2 * area)).toInt) := by
    rintro (h | h)
    · exact hmin h
    · exact absurd hle (not_le.mpr h)
  have hlow := (ent.techLevels i (2 * area)).le_toInt
  have hdrawn := drawn_level (rng 0 / 1000)
    (min_le_min_right 29 hle : min (minLevel ent area i) 29 ≤ min (maxLevel ent area i) 29)
    (by rw [minLevel]; omega) (by omega)
  rw [generateTech]
  rw [bind_run, genrand_run]
  dsimp only
  rw [pick_tech, hland]
  dsimp only
  rw [if_neg hrefused, capLevel_eq, capLevel_eq]
  rw [minLevel, maxLevel] at hdrawn
  rw [hdrawn]
  rfl

/-- What the code succeeds with: a technique that is found, with levels that are not refused. -/
theorem accepted_of_generateTech {out : ItemWords}
    (h : (generateTech ent area it rng).1 = some out) :
    ∃ i, landing (frequencies ent area) (techNumber rng) = some i ∧
      minLevel ent area i ≠ -1 ∧ minLevel ent area i ≤ maxLevel ent area i := by
  rw [generateTech, bind_run, genrand_run] at h
  dsimp only at h
  rw [pick_tech] at h
  cases hland : landing (frequencies ent area) (techNumber rng) with
  | none =>
    rw [hland] at h
    cases h
  | some i =>
    rw [hland] at h
    dsimp only at h
    by_cases hrefused : (ent.techLevels i (2 * area)).toInt = -1 ∨
        (ent.techLevels i (2 * area + 1)).toInt < (ent.techLevels i (2 * area)).toInt
    · rw [if_pos hrefused] at h
      cases h
    · rw [not_or, not_lt] at hrefused
      exact ⟨i, rfl, hrefused.1, hrefused.2⟩

theorem levelNumber_bounds (hle : minLevel ent area i ≤ maxLevel ent area i) :
    0 ≤ levelNumber ent area rng i ∧
      min (minLevel ent area i) 29 + levelNumber ent area rng i ≤
        min (maxLevel ent area i) 29 := by
  have hlow := Int.emod_nonneg ((rng 0).toNat / 1000 : ℕ)
    (by omega : min (maxLevel ent area i) 29 + 1 - min (minLevel ent area i) 29 ≠ 0)
  have hhigh := Int.emod_lt_of_pos ((rng 0).toNat / 1000 : ℕ)
    (by omega : 0 < min (maxLevel ent area i) 29 + 1 - min (minLevel ent area i) 29)
  rw [levelNumber]
  omega

/-- A technique that a number falls on has a chance. -/
theorem frequent_of_landing (h : landing (frequencies ent area) (techNumber rng) = some i) :
    i < 19 ∧ ent.techFrequency i area ≠ 0 := by
  obtain ⟨hlow, -⟩ := techNumber_bounds rng
  obtain ⟨hlen, hfrom, hto⟩ :=
    (landing_eq_some_iff (fun w hw => (mem_frequencies hw).1) hlow).mp h
  refine ⟨by simpa [frequencies] using hlen, ?_⟩
  intro hzero
  rw [List.take_succ_eq_append_getElem hlen, List.sum_append, List.sum_singleton,
    getElem_frequencies, hzero] at hto
  exact absurd hfrom (not_le.mpr (hto.trans_eq (add_zero _)))

theorem chance_iff (h : landing (frequencies ent area) (techNumber rng) = some i) :
    share (frequencies ent area) 1000 i = (ent.techFrequency i area).toNat ↔
      ((frequencies ent area).take (i + 1)).sum ≤ 1000 := by
  obtain ⟨hlt, hfrequent⟩ := frequent_of_landing h
  have hlen := lt_length_of_landing h
  have hpos : (ent.techFrequency i area).toNat ≠ 0 := by
    intro hzero
    exact hfrequent (BitVec.eq_of_toNat_eq hzero)
  have hshare := share_eq_iff (fun w hw => (mem_frequencies hw).1) hlen 1000
  rw [getElem_frequencies] at hshare
  rw [← Nat.cast_inj (R := ℤ), hshare]
  omega

end Techniques

section Words

/-- A level goes into the third byte of a word. -/
theorem wordByte_level (w : BitVec 32) {n k : ℕ} (hn : n < 2 ^ 8) (hk : k < 4) :
    wordByte (w ||| BitVec.ofNat 32 n <<< 16) k =
      if k = 2 then wordByte w k ||| BitVec.ofNat 8 n else wordByte w k := by
  refine BitVec.eq_of_getLsbD_eq fun i hi => ?_
  have hbyte : (BitVec.ofNat 32 n <<< 16).getLsbD (8 * k + i) = _ := getLsbD_shifted 2 hn hk hi
  rw [getLsbD_wordByte _ _ hi, BitVec.getLsbD_or, hbyte]
  by_cases hplace : k = 2
  · rw [if_pos hplace, BitVec.getLsbD_or, getLsbD_wordByte _ _ hi, BitVec.getLsbD_ofNat]
    simp [hplace, hi]
  · rw [if_neg hplace, getLsbD_wordByte _ _ hi]
    simp [hplace]

/-- A level below zero sets the highest bit of a word. -/
theorem getLsbD_negative (w : BitVec 32) {level : ℤ} (hlow : -128 ≤ level) (hneg : level < 0) :
    (w ||| BitVec.ofInt 32 level <<< 16).getLsbD 31 = true := by
  have hbit : (BitVec.ofInt 32 level).getLsbD 15 = true := by
    rw [← BitVec.testBit_toNat, BitVec.toNat_ofInt, Nat.testBit_eq_decide_div_mod_eq,
      decide_eq_true_eq]
    omega
  rw [BitVec.getLsbD_or, BitVec.getLsbD_shiftLeft]
  simp [hbit]

end Words

section Disks

variable {ent : PtEntry} {area : ℤ} {rng : Rng} {i : ℕ}

theorem itemByte_disk (item1 item2 item3 : BitVec 32) (word0 word1 : BitVec 32) {k : ℕ}
    (hk : k < 16) (hbyte : k < 4 → wordByte word0 k = wordByte itemDiskLv01 k)
    (hother : ¬(4 ≤ k ∧ k < 8)) :
    itemByte { diskItem item1 item2 item3 with item0 := word0, item1 := word1 } k =
      itemByte (diskItem item1 item2 item3) k := by
  unfold itemByte
  by_cases hfirst : k < 4
  · rw [if_pos hfirst, if_pos hfirst]
    exact hbyte hfirst
  · have hsecond : ¬k < 8 := by omega
    rw [if_neg hfirst, if_neg hfirst, if_neg hsecond, if_neg hsecond]

/-- The tool generators hand such an item over. -/
theorem generateTool_disk (rules : ItemRules) (photonDrops : Bool)
    (hbase : (generateToolBase ent area rng).1 = itemDiskLv01) :
    (generateTool rules photonDrops ent area rng).1 =
      (generateTech ent area (diskItem (stackOfOne rules itemDiskLv01).item1 0 0)
        (generateToolBase ent area rng).2).1 := by
  have hstack : stackOfOne rules itemDiskLv01 =
      diskItem (stackOfOne rules itemDiskLv01).item1 0 0 := by
    unfold stackOfOne
    split_ifs <;> rfl
  have hmade : ¬(itemDiskLv01 = itemPhotonDrop ∧ photonDrops = false ∨
      itemDiskLv01 = itemNoSuchItem) := by
    rintro (⟨h, -⟩ | h)
    · exact absurd h (by decide)
    · exact absurd h (by decide)
  rw [generateTool, bind_run, hbase, if_neg hmade, if_pos rfl, ← hstack]

/-- Where the table is sane, the code makes a disk. -/
theorem isDisk_of_sane (item1 item2 item3 : BitVec 32)
    (hland : landing (frequencies ent area) (techNumber rng) = some i)
    (hle : minLevel ent area i ≤ maxLevel ent area i)
    (hsum : ((frequencies ent area).take (i + 1)).sum ≤ 1000) {level : ℕ}
    (hlevel : min (minLevel ent area i) 29 + levelNumber ent area rng i = level) :
    IsDisk ent area rng (diskItem item1 item2 item3) { diskItem item1 item2 item3 with
      item0 := itemDiskLv01 ||| BitVec.ofNat 32 level <<< 16
      item1 := BitVec.ofNat 32 i } i level := by
  obtain ⟨hlow, hhigh⟩ := @levelNumber_bounds ent area rng i hle
  obtain ⟨hlt, hfrequent⟩ := frequent_of_landing hland
  have hbelow : level < 30 := by omega
  have hbytes (k : ℕ) (hk : k < 4) := wordByte_level itemDiskLv01 (by omega : level < 2 ^ 8) hk
  refine ⟨hlt, hfrequent, hland, (chance_iff hland).mpr hsum, by omega, by omega, hbelow, rfl,
    ?_, ?_⟩
  · have hclear : wordByte itemDiskLv01 2 = 0 := rfl
    have hplaced := hbytes 2 (by decide)
    rw [if_pos rfl, hclear] at hplaced
    exact hplaced.trans (BitVec.zero_or)
  · intro k hk hplace hother
    refine itemByte_disk item1 item2 item3 _ _ hk (fun hfirst => ?_) hother
    rw [hbytes k hfirst, if_neg hplace]

end Disks

/-- `generate_tech` makes disks exactly where the table is sane. -/
theorem generateTech_makes_iff (ent : PtEntry) (area : ℤ) (rng : Rng)
    (item1 item2 item3 : BitVec 32) :
    MakesDisks ent area rng (diskItem item1 item2 item3) ↔ SaneAt ent area rng := by
  constructor
  · intro h i hland hmin hle
    obtain ⟨j, level, hdisk⟩ := h _ (generateTech_some hland hmin hle)
    obtain rfl : i = j := Option.some.inj (hland.symm.trans hdisk.lands)
    refine ⟨(chance_iff hland).mp hdisk.chance, ?_⟩
    by_contra hnegative
    rw [not_or, not_le, not_le] at hnegative
    obtain ⟨hneg, hnumber⟩ := hnegative
    obtain ⟨hlow, -⟩ := @levelNumber_bounds ent area rng i hle
    have hleast := (ent.techLevels i (2 * area)).le_toInt
    rw [← minLevel] at hleast
    have hbit := @getLsbD_negative itemDiskLv01
      (min (minLevel ent area i) 29 + levelNumber ent area rng i) (by omega) (by omega)
    have hsame := hdisk.others 3 (by decide) (by decide) (by decide)
    have hhighest : (itemDiskLv01 ||| BitVec.ofInt 32 (min (minLevel ent area i) 29 +
        levelNumber ent area rng i) <<< 16).getLsbD 31 = itemDiskLv01.getLsbD 31 := by
      rw [← getLsbD_wordByte _ 3 (by decide : 7 < 8), ← getLsbD_wordByte _ 3 (by decide : 7 < 8)]
      exact congrArg (fun b : BitVec 8 => b.getLsbD 7) hsame
    rw [hbit] at hhighest
    exact absurd hhighest (by decide)
  · intro hsane it hit
    obtain ⟨i, hland, hmin, hle⟩ := accepted_of_generateTech hit
    obtain ⟨hsum, hlevel⟩ := hsane i hland hmin hle
    obtain ⟨hlow, -⟩ := @levelNumber_bounds ent area rng i hle
    have hnonneg : 0 ≤ min (minLevel ent area i) 29 + levelNumber ent area rng i := by omega
    obtain ⟨level, hlevel⟩ := Int.eq_ofNat_of_zero_le hnonneg
    have hmade := @generateTech_some ent area rng (diskItem item1 item2 item3) i hland hmin hle
    rw [hlevel] at hmade
    obtain rfl := Option.some.inj (hit.symm.trans hmade)
    exact ⟨i, level, isDisk_of_sane item1 item2 item3 hland hle hsum hlevel⟩

/-- A table whose first technique has a lowest level of -2. -/
def negativeLevels : PtEntry :=
  { luckyEntry with
    techFrequency := fun i _ => if i = 0 then 100 else 0
    techLevels := fun _ j => if j = 0 then -2 else 5 }

/-- The level of -2 fills the upper half of the word. -/
theorem not_makesDisks : ¬∀ ent area rng item1 item2 item3,
    MakesDisks ent area rng (diskItem item1 item2 item3) := by
  intro h
  have hitem : (generateTech negativeLevels 0 (diskItem 0 0 0) fun _ => 0).1 =
      some ⟨0xFFFE0203, 0, 0, 0⟩ := rfl
  obtain ⟨i, level, hdisk⟩ := h negativeLevels 0 (fun _ => 0) 0 0 0 _ hitem
  exact absurd (hdisk.others 3 (by decide) (by decide) (by decide)) (by decide)

end ShipServer.TechniqueDisks
