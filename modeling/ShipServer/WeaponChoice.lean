import ShipServer.WeaponRolls
import ShipServer.WeightedChoice

set_option autoImplicit false

/-! The weapons that are generated, against the description of how they are chosen. -/

namespace ShipServer.WeaponChoice

open DropItems WeaponRolls WeightedChoice

/-- The type may be generated in the area. -/
def Eligible (ent : PtEntry) (area : ℤ) (t : ℕ) : Prop :=
  0 < (ent.weaponRatio t).toInt ∧ 0 ≤ (ent.weaponMinrank t).toInt + area

instance eligibleDecidable (ent : PtEntry) (area : ℤ) (t : ℕ) : Decidable (Eligible ent area t) :=
  inferInstanceAs (Decidable (_ ∧ _))

/-- The chances of the weapon types, which are none for those that an area does not have. -/
def weights (ent : PtEntry) (area : ℤ) (l : List ℕ) : List ℤ :=
  l.map fun t => if Eligible ent area t then (ent.weaponRatio t).toInt else 0

def typeWeights (ent : PtEntry) (area : ℤ) : List ℤ :=
  weights ent area (List.range 12)

/-- The area number, or the sum of it and a minimum rank below zero. -/
def effectiveArea (ent : PtEntry) (area : ℤ) (t : ℕ) : ℤ :=
  if 0 ≤ (ent.weaponMinrank t).toInt then area else (ent.weaponMinrank t).toInt + area

def rank (ent : PtEntry) (area : ℤ) (t : ℕ) : ℤ :=
  max (ent.weaponMinrank t).toInt 0 + effectiveArea ent area t / (ent.weaponUpgfloor t).toInt

def grindRow (ent : PtEntry) (area : ℤ) (t : ℕ) : ℤ :=
  min (effectiveArea ent area t % (ent.weaponUpgfloor t).toInt) 3

def grindWeights (ent : PtEntry) (row : ℤ) : List ℤ :=
  (List.range 9).map fun i => (ent.powerPattern i row).toInt

/-- The search of the source is the one among integers that it stands for. -/
theorem pick_eq_wrapped {ws : List ℤ} {limit r : ℤ} (hws : ∀ w ∈ ws, |w| < 2 ^ 16)
    (hlimit : limit < 2 ^ 16) (hr : 0 ≤ r) (hle : r ≤ limit) :
    pick (BitVec.ofInt 32 limit) (ws.map (BitVec.ofInt 32)) (BitVec.ofInt 32 r) =
      wrapped limit ws r := by
  induction ws generalizing r with
  | nil => rfl
  | cons w ws ih =>
    have hw := abs_lt.mp (hws w List.mem_cons_self)
    have hsub : BitVec.ofInt 32 r - BitVec.ofInt 32 w = BitVec.ofInt 32 (r - w) := by
      rw [sub_eq_add_neg r w, BitVec.ofInt_add, BitVec.ofInt_neg]
      exact BitVec.sub_eq_add_neg _ _
    have htest : BitVec.ofInt 32 limit < BitVec.ofInt 32 r - BitVec.ofInt 32 w ↔
        r - w < 0 ∨ limit < r - w := by
      rw [hsub, BitVec.lt_def, BitVec.toNat_ofInt, BitVec.toNat_ofInt]
      omega
    rw [List.map_cons, pick, wrapped]
    by_cases hfound : r - w < 0 ∨ limit < r - w
    · rw [if_pos (htest.mpr hfound), if_pos hfound]
    · rw [if_neg (fun h => hfound (htest.mp h)), if_neg hfound, hsub,
        ih (fun v hv => hws v (List.mem_cons_of_mem w hv)) (by omega) (by omega)]

theorem umod_ofInt (x : BitVec 32) {n : ℤ} (hpos : 0 < n) (hn : n < 2 ^ 32) :
    x % BitVec.ofInt 32 n = BitVec.ofInt 32 (x.toNat % n) := by
  obtain ⟨k, rfl⟩ := Int.eq_ofNat_of_zero_le hpos.le
  have hx := x.isLt
  have hmod := Nat.mod_le x.toNat k
  refine BitVec.eq_of_toNat_eq ?_
  rw [← Int.natCast_mod, BitVec.ofInt_natCast, BitVec.ofInt_natCast, BitVec.toNat_umod,
    BitVec.toNat_ofNat, BitVec.toNat_ofNat, Nat.mod_eq_of_lt (by omega : k < 2 ^ 32),
    Nat.mod_eq_of_lt (by omega : x.toNat % k < 2 ^ 32)]

/-- The search for a random number among weights of a sum that is not too large. -/
theorem pick_residue {ws : List ℤ} {n : ℤ} (hws : ∀ w ∈ ws, |w| < 2 ^ 16) (hpos : 0 < n)
    (hn : n < 2 ^ 16) (x : BitVec 32) :
    pick (BitVec.ofInt 32 n) (ws.map (BitVec.ofInt 32)) (x % BitVec.ofInt 32 n) =
      wrapped n ws (x.toNat % n) := by
  have hlow : 0 ≤ x.toNat % n := Int.emod_nonneg _ hpos.ne'
  have hhigh : x.toNat % n < n := Int.emod_lt_of_pos _ hpos
  rw [umod_ofInt x hpos (hn.trans (by decide))]
  exact pick_eq_wrapped hws hn hlow hhigh.le

section Types

variable {ent : PtEntry} {area : ℤ}

/-- Taking the upgrade floor off as often as it fits is a division. -/
theorem upgrade_eq {upgfloor : ℤ} (hfloor : 0 < upgfloor) {n : ℕ} (wrank : ℤ) {warea : ℤ}
    (hpos : 0 ≤ warea) (hn : warea ≤ n) :
    upgrade upgfloor n wrank warea = (wrank + warea / upgfloor, warea % upgfloor) := by
  induction n generalizing wrank warea with
  | zero =>
    obtain rfl : warea = 0 := by omega
    simp [upgrade]
  | succ n ih =>
    rw [upgrade]
    by_cases hfits : 0 ≤ warea - upgfloor
    · rw [if_pos hfits, ih (wrank + 1) hfits (by omega), Int.sub_emod_right,
        Int.sub_ediv_of_dvd _ (dvd_refl upgfloor), Int.ediv_self hfloor.ne']
      congr 1
      omega
    · rw [if_neg hfits, Int.ediv_eq_zero_of_lt hpos (by omega),
        Int.emod_eq_of_lt hpos (by omega), add_zero]

theorem effectiveArea_nonneg {t : ℕ} (h : Eligible ent area t) (harea : 0 ≤ area) :
    0 ≤ effectiveArea ent area t := by
  unfold effectiveArea
  split_ifs
  · exact harea
  · exact h.2

theorem weaponType_eq {t : ℕ} (h : Eligible ent area t) (harea : 0 ≤ area)
    (hfloor : 0 < (ent.weaponUpgfloor t).toInt) :
    weaponType ent area t =
      ⟨t, ent.weaponRatio t, rank ent area t, grindRow ent area t⟩ := by
  have heff := effectiveArea_nonneg h harea
  have hupgrade := upgrade_eq hfloor (n := (effectiveArea ent area t).toNat)
    (if 0 ≤ (ent.weaponMinrank t).toInt then (ent.weaponMinrank t).toInt else 0) heff (by omega)
  rw [weaponType, ← effectiveArea, hupgrade, rank, grindRow]
  congr 2
  split_ifs <;> omega

/-- The test of the source, which has the rank first. -/
theorem eligible_comm {t : ℕ} :
    0 ≤ (ent.weaponMinrank t).toInt + area ∧ 0 < (ent.weaponRatio t).toInt ↔
      Eligible ent area t :=
  And.comm

theorem weaponTypes_eq_none_iff (l : List ℕ) :
    weaponTypes ent area l = none ↔
      ∃ t ∈ l, Eligible ent area t ∧ (ent.weaponUpgfloor t).toInt ≤ 0 := by
  induction l with
  | nil => simp [weaponTypes]
  | cons t l ih =>
    rw [weaponTypes, List.exists_mem_cons_iff, ← ih]
    have hcond := @eligible_comm ent area t
    by_cases helig : Eligible ent area t
    · rw [if_pos (hcond.mpr helig)]
      by_cases hfloor : (ent.weaponUpgfloor t).toInt ≤ 0
      · simp [hfloor, helig]
      · simp [hfloor, helig]
    · rw [if_neg (fun h => helig (hcond.mp h))]
      simp [helig]

theorem weaponTypes_eq_some {l : List ℕ} {types : List WeaponType} (harea : 0 ≤ area)
    (h : weaponTypes ent area l = some types) :
    types = (l.filter fun t => Eligible ent area t).map fun t =>
      ⟨t, ent.weaponRatio t, rank ent area t, grindRow ent area t⟩ := by
  induction l generalizing types with
  | nil =>
    cases h
    rfl
  | cons t l ih =>
    rw [weaponTypes] at h
    have hcond := @eligible_comm ent area t
    by_cases helig : Eligible ent area t
    · rw [if_pos (hcond.mpr helig)] at h
      by_cases hfloor : (ent.weaponUpgfloor t).toInt ≤ 0
      · rw [if_pos hfloor] at h
        cases h
      · rw [if_neg hfloor] at h
        obtain ⟨rest, hrest, rfl⟩ := Option.map_eq_some_iff.mp h
        rw [List.filter_cons_of_pos (by simpa using helig), List.map_cons, ← ih hrest,
          weaponType_eq helig harea (not_le.mp hfloor)]
    · rw [if_neg (fun h => helig (hcond.mp h))] at h
      rw [List.filter_cons_of_neg (by simpa using helig)]
      exact ih h

/-- Types that an area does not have take no numbers. -/
theorem landing_filter {l : List ℕ} {r : ℤ} (hr : 0 ≤ r) :
    (landing ((l.filter fun t => Eligible ent area t).map
        fun t => (ent.weaponRatio t).toInt) r).bind
          (fun i => (l.filter fun t => Eligible ent area t)[i]?) =
      (landing (weights ent area l) r).bind fun i => l[i]? := by
  induction l generalizing r with
  | nil => rfl
  | cons t l ih =>
    by_cases helig : Eligible ent area t
    · rw [List.filter_cons_of_pos (by simpa using helig), List.map_cons, landing, weights,
        List.map_cons, landing, if_pos helig]
      by_cases hfirst : r - (ent.weaponRatio t).toInt < 0
      · rw [if_pos hfirst, if_pos hfirst]
        rfl
      · rw [if_neg hfirst, if_neg hfirst, Option.bind_map, Option.bind_map]
        exact ih (not_lt.mp hfirst)
    · rw [List.filter_cons_of_neg (by simpa using helig), weights, List.map_cons, landing,
        if_neg helig, sub_zero, if_neg (not_lt.mpr hr), Option.bind_map]
      exact ih hr

theorem sum_weights (l : List ℕ) :
    (weights ent area l).sum =
      ((l.filter fun t => Eligible ent area t).map fun t => (ent.weaponRatio t).toInt).sum := by
  induction l with
  | nil => rfl
  | cons t l ih =>
    rw [weights, List.map_cons, List.sum_cons]
    by_cases helig : Eligible ent area t
    · rw [if_pos helig, List.filter_cons_of_pos (by simpa using helig), List.map_cons,
        List.sum_cons, ← ih, weights]
    · rw [if_neg helig, List.filter_cons_of_neg (by simpa using helig), zero_add, ← ih, weights]

theorem mem_weights {l : List ℕ} {w : ℤ} (h : w ∈ weights ent area l) : 0 ≤ w ∧ w ≤ 127 := by
  obtain ⟨t, -, rfl⟩ := List.mem_map.mp h
  have hratio := (ent.weaponRatio t).toInt_lt
  split_ifs with helig
  · have hpos := helig.1
    omega
  · omega

theorem sum_typeWeights_le : (typeWeights ent area).sum ≤ 1524 := by
  have hsum := List.sum_le_card_nsmul (typeWeights ent area) 127 fun w hw => (mem_weights hw).2
  simpa [typeWeights, weights] using hsum

theorem sum_typeWeights_pos {t : ℕ} (ht : t < 12) (h : Eligible ent area t) :
    0 < (typeWeights ent area).sum := by
  have hmem : (ent.weaponRatio t).toInt ∈ typeWeights ent area :=
    List.mem_map.mpr ⟨t, List.mem_range.mpr ht, if_pos h⟩
  have hle := List.single_le_sum (fun w hw => (mem_weights hw).1) _ hmem
  exact h.1.trans_le hle

end Types

/-- The first word of a weapon before its grind value. -/
def baseWord (ent : PtEntry) (area : ℤ) (t : ℕ) : BitVec 32 :=
  BitVec.ofInt 32 (t + 1) <<< 8 ||| BitVec.ofInt 32 (rank ent area t) <<< 16

section Base

variable {ent : PtEntry} {area : ℤ} {rng : Rng}

/-- The number of the first random number among the chances of the types. -/
def typeNumber (ent : PtEntry) (area : ℤ) (rng : Rng) : ℤ :=
  (rng 0).toNat % (typeWeights ent area).sum

theorem weaponBase_eq {types : List WeaponType} (harea : 0 ≤ area)
    (htypes : weaponTypes ent area (List.range 12) = some types) {t : ℕ} (ht : t < 12)
    (helig : Eligible ent area t) :
    ∃ t, landing (typeWeights ent area) (typeNumber ent area rng) = some t ∧
      Eligible ent area t ∧
      weaponBase ent area rng =
        (some (baseWord ent area t, grindRow ent area t), fun n => rng (n + 1)) := by
  have hlist := weaponTypes_eq_some harea htypes
  have hsum := @sum_typeWeights_le ent area
  have hpos := sum_typeWeights_pos ht helig
  have hlow : 0 ≤ typeNumber ent area rng := Int.emod_nonneg _ hpos.ne'
  have hhigh : typeNumber ent area rng < (typeWeights ent area).sum := Int.emod_lt_of_pos _ hpos
  have hratios : (types.map fun t => t.ratio.toInt) =
      ((List.range 12).filter fun t => Eligible ent area t).map
        fun t => (ent.weaponRatio t).toInt := by
    rw [hlist, List.map_map]
    rfl
  have hchance : (types.map fun t => t.ratio.toInt).sum = (typeWeights ent area).sum := by
    rw [hratios, typeWeights, sum_weights]
  have hwords : (types.map fun t => t.ratio.signExtend 32) =
      (types.map fun t => t.ratio.toInt).map (BitVec.ofInt 32) := by
    rw [List.map_map]
    rfl
  have hnonneg : ∀ w ∈ types.map fun t => t.ratio.toInt, 0 ≤ w ∧ w ≤ 127 := by
    intro w hw
    rw [hratios] at hw
    obtain ⟨t, ht, rfl⟩ := List.mem_map.mp hw
    have hratio := (ent.weaponRatio t).toInt_lt
    have hpos := (of_decide_eq_true (List.mem_filter.mp ht).2).1
    omega
  have hpick : pick (BitVec.ofInt 32 (types.map fun t => t.ratio.toInt).sum)
      (types.map fun t => t.ratio.signExtend 32)
      (rng 0 % BitVec.ofInt 32 (types.map fun t => t.ratio.toInt).sum) =
      landing (types.map fun t => t.ratio.toInt) (typeNumber ent area rng) := by
    rw [hwords, hchance, pick_residue (fun w hw => ?_) hpos (by omega), ← typeNumber,
      wrapped_eq_landing (fun w hw => (hnonneg w hw).1) hhigh.le]
    have hw' := hnonneg w hw
    rw [abs_lt]
    omega
  obtain ⟨i, hi⟩ := exists_landing hlow (hhigh.trans_eq hchance.symm)
  have hlen := lt_length_of_landing hi
  rw [List.length_map] at hlen
  obtain ⟨u, hu⟩ : ∃ u, ((List.range 12).filter fun t => Eligible ent area t)[i]? = some u := by
    rw [hlist, List.length_map] at hlen
    exact ⟨_, List.getElem?_eq_getElem hlen⟩
  have hget : types[i]? = some ⟨u, ent.weaponRatio u, rank ent area u, grindRow ent area u⟩ := by
    rw [hlist, List.getElem?_map, hu]
    rfl
  have hentry := @landing_filter ent area (List.range 12) _ hlow
  rw [← hratios, hi, Option.bind_some, hu] at hentry
  obtain ⟨j, hj, hju⟩ := Option.bind_eq_some_iff.mp hentry.symm
  have hjlt := lt_length_of_landing hj
  rw [weights, List.length_map, List.length_range] at hjlt
  rw [List.getElem?_range hjlt] at hju
  obtain rfl := Option.some.inj hju
  refine ⟨j, hj, ?_, ?_⟩
  · exact of_decide_eq_true (List.mem_filter.mp (List.mem_of_getElem? hu)).2
  · cases types with
    | nil => cases hget
    | cons first rest =>
      rw [weaponBase, htypes]
      dsimp only
      rw [bind_run, genrand_run]
      dsimp only
      rw [hpick, hi]
      dsimp only
      rw [hget]
      rfl

end Base

section Words

/-- A byte that is shifted into its place has no bits in the others. -/
theorem getLsbD_shifted {a j i : ℕ} (k : ℕ) (ha : a < 2 ^ 8) (hj : j < 4) (hi : i < 8) :
    (BitVec.ofNat 32 a <<< (8 * k)).getLsbD (8 * j + i) = (decide (j = k) && a.testBit i) := by
  rw [BitVec.getLsbD_shiftLeft, BitVec.getLsbD_ofNat]
  rcases Nat.lt_trichotomy j k with hlow | rfl | hhigh
  · have hlt : 8 * j + i < 8 * k := by omega
    simp [hlt, hlow.ne]
  · have hlt : 8 * j + i < 32 := by omega
    have hindex : 8 * j + i - 8 * j = i := by omega
    simp [hlt, hindex, hi.trans (by decide : 8 < 32)]
  · have hbit : a.testBit (8 * j + i - 8 * k) = false :=
      Nat.testBit_lt_two_pow (ha.trans_le (Nat.pow_le_pow_right (by decide) (by omega)))
    simp [hbit, hhigh.ne']

/-- The bytes of a word that is put together of them. -/
theorem wordByte_packed {a b c k : ℕ} (ha : a < 2 ^ 8) (hb : b < 2 ^ 8) (hc : c < 2 ^ 8)
    (hk : k < 4) :
    wordByte (BitVec.ofNat 32 a <<< 8 ||| BitVec.ofNat 32 b <<< 16 ||| BitVec.ofNat 32 c <<< 24) k =
      BitVec.ofNat 8 (if k = 1 then a else if k = 2 then b else if k = 3 then c else 0) := by
  refine BitVec.eq_of_getLsbD_eq fun i hi => ?_
  have hbyte1 : (BitVec.ofNat 32 a <<< 8).getLsbD (8 * k + i) = _ := getLsbD_shifted 1 ha hk hi
  have hbyte2 : (BitVec.ofNat 32 b <<< 16).getLsbD (8 * k + i) = _ := getLsbD_shifted 2 hb hk hi
  have hbyte3 : (BitVec.ofNat 32 c <<< 24).getLsbD (8 * k + i) = _ := getLsbD_shifted 3 hc hk hi
  rw [getLsbD_wordByte _ _ hi, BitVec.getLsbD_or, BitVec.getLsbD_or, hbyte1, hbyte2, hbyte3,
    BitVec.getLsbD_ofNat]
  interval_cases k <;> simp [hi]

end Words

section Weapons

variable {ent : PtEntry} {area : ℤ}

theorem rank_bounds {t : ℕ} (h : Eligible ent area t) (harea : 0 ≤ area) (hlast : area < 10)
    (hfloor : 0 < (ent.weaponUpgfloor t).toInt) :
    0 ≤ rank ent area t ∧ rank ent area t < 256 := by
  have heff := effectiveArea_nonneg h harea
  have hle : effectiveArea ent area t ≤ area := by
    unfold effectiveArea
    split_ifs <;> omega
  have hmin := (ent.weaponMinrank t).toInt_lt
  have hquotient := Int.ediv_nonneg heff hfloor.le
  have hdiv := Int.ediv_le_self (ent.weaponUpgfloor t).toInt heff
  rw [rank]
  omega

/-- The bytes of a weapon's first word. -/
theorem wordByte_weapon {t g : ℕ} (ht : t < 12) (hg : g < 9) (hlow : 0 ≤ rank ent area t)
    (hhigh : rank ent area t < 256) :
    wordByte (baseWord ent area t ||| BitVec.ofNat 32 g <<< 24) 1 = BitVec.ofNat 8 (t + 1) ∧
      ((wordByte (baseWord ent area t ||| BitVec.ofNat 32 g <<< 24) 2).toNat : ℤ) =
        rank ent area t ∧
      wordByte (baseWord ent area t ||| BitVec.ofNat 32 g <<< 24) 3 = BitVec.ofNat 8 g := by
  obtain ⟨n, hn⟩ := Int.eq_ofNat_of_zero_le hlow
  rw [hn] at hhigh ⊢
  have hbase : baseWord ent area t =
      BitVec.ofNat 32 (t + 1) <<< 8 ||| BitVec.ofNat 32 n <<< 16 := by
    rw [baseWord, hn]
    rfl
  have hpacked (k : ℕ) (hk : k < 4) :=
    wordByte_packed (a := t + 1) (b := n) (c := g) (by omega) (by omega) (by omega) hk
  rw [hbase, hpacked 1 (by decide), hpacked 2 (by decide), hpacked 3 (by decide)]
  refine ⟨rfl, ?_, rfl⟩
  rw [if_neg (by decide), if_pos rfl, BitVec.toNat_ofNat]
  omega

theorem assemble_item0 (r : Rolls) : (assemble r).item0 = r.item0 := by
  have hpercents (item : ItemWords) (rolled : List Percent) :
      (withPercents item rolled).item.item0 = item.item0 := by
    induction rolled with
    | nil => rfl
    | cons p rolled ih =>
      rw [withPercents, addPercent]
      exact (item0_setByte _ (by omega) _).trans ((item0_setByte _ (by omega) _).trans ih)
  rw [assemble]
  cases r.written with
  | none => exact hpercents _ _
  | some w => exact hpercents _ _

end Weapons

/-- The number of the second random number among the chances of the grind values. -/
def grindNumber (rng : Rng) : ℤ :=
  (rng 1).toNat % 100

/-- The weapon is of the type that the first random number falls on, with the rank of the type and
a grind value. -/
structure MadeAs (ent : PtEntry) (area : ℤ) (rng : Rng) (it : ItemWords) (t g : ℕ) : Prop where
  lands : landing (typeWeights ent area) (typeNumber ent area rng) = some t
  eligible : Eligible ent area t
  type : itemByte it 1 = BitVec.ofNat 8 (t + 1)
  rank : ((itemByte it 2).toNat : ℤ) = rank ent area t
  grind : itemByte it 3 = BitVec.ofNat 8 g
  below : g < 9

/-- The description of how weapons are chosen. Of the grind values it speaks where the row of their
chances is sane. -/
structure Follows (sane : List ℤ → Prop) (ent : PtEntry) (area : ℤ) (rng : Rng)
    (out : Option ItemWords) : Prop where
  made : ∀ it, out = some it → ∃ t g, MadeAs ent area rng it t g ∧
    (sane (grindWeights ent (grindRow ent area t)) →
      landing (grindWeights ent (grindRow ent area t)) (grindNumber rng) = some g)
  failed : out = none →
    (∃ t < 12, Eligible ent area t ∧ (ent.weaponUpgfloor t).toInt ≤ 0) ∨
    (∀ t < 12, ¬Eligible ent area t) ∨
    ∃ t, landing (typeWeights ent area) (typeNumber ent area rng) = some t ∧
      (grindWeights ent (grindRow ent area t)).sum < 100
  shares : ∀ t < 12, (share (typeWeights ent area) (typeWeights ent area).sum.toNat t : ℤ) =
    if Eligible ent area t then (ent.weaponRatio t).toInt else 0
  grindShares : ∀ row, sane (grindWeights ent row) → ∀ g < 9,
    ((grindWeights ent row).take (g + 1)).sum ≤ 100 →
      (share (grindWeights ent row) 100 g : ℤ) = (ent.powerPattern g row).toInt

/-- No chance is negative. -/
def Nonneg (ws : List ℤ) : Prop :=
  ∀ w ∈ ws, 0 ≤ w

section Procedure

variable {rules : ItemRules} {scale : BitVec 32} {v1 : Bool} {ent : PtEntry} {area : ℤ} {rng : Rng}

theorem type_share (t : ℕ) (ht : t < 12) :
    (share (typeWeights ent area) (typeWeights ent area).sum.toNat t : ℤ) =
      if Eligible ent area t then (ent.weaponRatio t).toInt else 0 := by
  have hws : ∀ w ∈ typeWeights ent area, 0 ≤ w := fun w hw => (mem_weights hw).1
  have hlen : t < (typeWeights ent area).length := by
    simpa [typeWeights, weights] using ht
  have hget : (typeWeights ent area)[t] =
      if Eligible ent area t then (ent.weaponRatio t).toInt else 0 := by
    simp [typeWeights, weights]
  rw [← hget, share_eq_iff hws hlen]
  right
  have hsplit := List.sum_take_add_sum_drop (typeWeights ent area) (t + 1)
  have hdrop : 0 ≤ ((typeWeights ent area).drop (t + 1)).sum :=
    List.sum_nonneg fun w hw => hws w (List.mem_of_mem_drop hw)
  omega

theorem grind_share {row : ℤ} (hws : Nonneg (grindWeights ent row)) {g : ℕ} (hg : g < 9)
    (hsum : ((grindWeights ent row).take (g + 1)).sum ≤ 100) :
    (share (grindWeights ent row) 100 g : ℤ) = (ent.powerPattern g row).toInt := by
  have hlen : g < (grindWeights ent row).length := by
    simpa [grindWeights] using hg
  have hget : (grindWeights ent row)[g] = (ent.powerPattern g row).toInt := by
    simp [grindWeights]
  rw [← hget, share_eq_iff hws hlen]
  exact .inr hsum

/-- The search for the grind value. -/
theorem pick_grind (row : ℤ) :
    pick 100 ((List.range 9).map fun i => (ent.powerPattern i row).signExtend 32) (rng 1 % 100) =
      wrapped 100 (grindWeights ent row) (grindNumber rng) := by
  have hwords : ((List.range 9).map fun i => (ent.powerPattern i row).signExtend 32) =
      (grindWeights ent row).map (BitVec.ofInt 32) := by
    rw [grindWeights, List.map_map]
    rfl
  rw [hwords]
  refine pick_residue (fun w hw => ?_) (by decide : (0 : ℤ) < 100) (by decide) (rng 1)
  obtain ⟨i, -, rfl⟩ := List.mem_map.mp hw
  have hlt := (ent.powerPattern i row).toInt_lt
  have hle := (ent.powerPattern i row).le_toInt
  rw [abs_lt]
  omega

/-- What follows the choice of a weapon adds a grind value to its first word. -/
theorem finishWeapon_cases (item0 : BitVec 32) (row : ℤ) (semirare marked : Bool) (rng : Rng) :
    (pick 100 ((List.range 9).map fun i => (ent.powerPattern i row).signExtend 32) (rng 0 % 100) =
        none ∧
      (finishWeapon rules scale ent area item0 row semirare marked rng).1 = none) ∨
    ∃ g it, pick 100 ((List.range 9).map fun i => (ent.powerPattern i row).signExtend 32)
        (rng 0 % 100) = some g ∧
      (finishWeapon rules scale ent area item0 row semirare marked rng).1 = some it ∧
      it.item0 = item0 ||| BitVec.ofNat 32 g <<< 24 := by
  rw [finishWeapon_eq, rollRest]
  simp only [bind_run, genrand_run, pure_run]
  cases pick 100 ((List.range 9).map fun i => (ent.powerPattern i row).signExtend 32)
    (rng 0 % 100) with
  | none => exact .inl ⟨rfl, rfl⟩
  | some g => exact .inr ⟨g, _, rfl, rfl, assemble_item0 _⟩

/-- An area without weapons, or with a type whose upgrade floor is not sane, gets none. -/
theorem weaponBase_failed
    (h : weaponTypes ent area (List.range 12) = none ∨
      weaponTypes ent area (List.range 12) = some []) :
    (generateWeapon rules scale v1 ent area none rng).1 = none := by
  have hbase : weaponBase ent area = pure none := by
    rw [weaponBase]
    rcases h with h | h
    · rw [h]
    · rw [h]
  rw [generateWeapon]
  simp only [hbase, bind_run, pure_run]

theorem baseWord_ne_zero {t : ℕ} (ht : t < 12) (hlow : 0 ≤ rank ent area t)
    (hhigh : rank ent area t < 256) : baseWord ent area t ≠ 0 := by
  intro hzero
  have htype := (wordByte_weapon ht (by decide : 0 < 9) hlow hhigh).1
  have hclear : wordByte ((0 : BitVec 32) ||| BitVec.ofNat 32 0 <<< 24) 1 = 0 := by
    decide
  rw [hzero, hclear] at htype
  have hbytes : 0 = (t + 1) % 2 ^ 8 := congrArg BitVec.toNat htype
  omega

theorem follows_failed
    (h : (∃ t < 12, Eligible ent area t ∧ (ent.weaponUpgfloor t).toInt ≤ 0) ∨
      (∀ t < 12, ¬Eligible ent area t) ∨
      ∃ t, landing (typeWeights ent area) (typeNumber ent area rng) = some t ∧
        (grindWeights ent (grindRow ent area t)).sum < 100) :
    Follows Nonneg ent area rng none := by
  refine ⟨?_, fun _ => h, type_share, fun _ hws _ => grind_share hws⟩
  intro it hit
  cases hit

/-- A weapon of the type that was chosen, if the search for its grind value ends. -/
theorem follows_chosen {types : List WeaponType} (harea : 0 ≤ area) (hlast : area < 10)
    (htypes : weaponTypes ent area (List.range 12) = some types) {t₀ : ℕ} (ht₀ : t₀ < 12)
    (helig₀ : Eligible ent area t₀) :
    Follows Nonneg ent area rng (generateWeapon rules scale v1 ent area none rng).1 := by
  obtain ⟨t, hland, helig, hbase⟩ := @weaponBase_eq ent area rng types harea htypes t₀ ht₀ helig₀
  have ht : t < 12 := by
    simpa [typeWeights, weights] using lt_length_of_landing hland
  have hfloor : 0 < (ent.weaponUpgfloor t).toInt := by
    by_contra hle
    have hnone := (weaponTypes_eq_none_iff (List.range 12)).mpr
      ⟨t, List.mem_range.mpr ht, helig, not_lt.mp hle⟩
    rw [hnone] at htypes
    cases htypes
  obtain ⟨hlow, hhigh⟩ := rank_bounds helig harea hlast hfloor
  have hrest : (generateWeapon rules scale v1 ent area none rng).1 =
      (finishWeapon rules scale ent area (baseWord ent area t) (grindRow ent area t)
        (isSemirare (.plain (baseWord ent area t)))
        (v1 && isSemirare (.plain (baseWord ent area t))) fun n => rng (n + 1)).1 := by
    rw [generateWeapon]
    simp only [bind_run, hbase, if_neg (baseWord_ne_zero ht hlow hhigh)]
  have hnumber : 0 ≤ grindNumber rng := Int.emod_nonneg _ (by decide)
  have hbelow : grindNumber rng < 100 := Int.emod_lt_of_pos _ (by decide)
  have hpick := @pick_grind ent rng (grindRow ent area t)
  have hcases := @finishWeapon_cases rules scale ent area (baseWord ent area t)
    (grindRow ent area t) (isSemirare (.plain (baseWord ent area t)))
    (v1 && isSemirare (.plain (baseWord ent area t))) fun n => rng (n + 1)
  rw [← hrest] at hcases
  rcases hcases with ⟨hnone, hout⟩ | ⟨g, it, hg, hout, hitem⟩
  · rw [hout]
    have hsum := sum_le_of_wrapped hnumber (hpick.symm.trans hnone)
    exact follows_failed (.inr (.inr ⟨t, hland, by omega⟩))
  · have hfound := hpick.symm.trans hg
    have hlt : g < 9 := by
      simpa [grindWeights] using lt_length_of_wrapped hfound
    obtain ⟨htype, hrank, hgrind⟩ := wordByte_weapon ht hlt hlow hhigh
    rw [← hitem] at htype hrank hgrind
    rw [hout]
    refine ⟨?_, ?_, type_share, fun _ hws _ => grind_share hws⟩
    · intro it' hit'
      cases hit'
      refine ⟨t, g, ⟨hland, helig, htype, hrank, hgrind, hlt⟩, ?_⟩
      intro hws
      rw [← wrapped_eq_landing hws hbelow.le]
      exact hfound
    · intro hnone
      cases hnone

theorem generateWeapon_follows (harea : 0 ≤ area) (hlast : area < 10) :
    Follows Nonneg ent area rng (generateWeapon rules scale v1 ent area none rng).1 := by
  cases htypes : weaponTypes ent area (List.range 12) with
  | none =>
    obtain ⟨t, ht, hbad⟩ := (weaponTypes_eq_none_iff _).mp htypes
    rw [weaponBase_failed (.inl htypes)]
    exact follows_failed (.inl ⟨t, List.mem_range.mp ht, hbad⟩)
  | some types =>
    by_cases hsome : ∃ t < 12, Eligible ent area t
    · obtain ⟨t, ht, helig⟩ := hsome
      exact follows_chosen harea hlast htypes ht helig
    · have hempty : types = [] := by
        rw [weaponTypes_eq_some harea htypes, List.map_eq_nil_iff, List.filter_eq_nil_iff]
        intro t ht helig
        exact hsome ⟨t, List.mem_range.mp ht, of_decide_eq_true helig⟩
      rw [hempty] at htypes
      rw [weaponBase_failed (.inr htypes)]
      exact follows_failed (.inr (.inl fun t ht helig => hsome ⟨t, ht, helig⟩))

end Procedure

/-- `generate_weapon_v2` and `generate_weapon_v3`, in each of the ten areas. -/
theorem generateWeapon_chosen (rules : ItemRules) (v1 : Bool) (ent : PtEntry) (area : Fin 10)
    (rng : Rng) :
    Follows Nonneg ent (area : ℕ) rng (generateWeaponV2 rules v1 ent (area : ℕ) none rng).1 ∧
      Follows Nonneg ent (area : ℕ) rng (generateWeaponV3 rules ent (area : ℕ) none rng).1 := by
  have hlow : (0 : ℤ) ≤ (area : ℕ) := Int.natCast_nonneg _
  have hhigh : ((area : ℕ) : ℤ) < 10 := by
    have hlt := area.isLt
    omega
  exact ⟨generateWeapon_follows hlow hhigh, generateWeapon_follows hlow hhigh⟩

/-- A table of one type of weapon, whose grind values have a negative chance among them. -/
def oddEntry : PtEntry where
  weaponRatio t := if t = 0 then 1 else 0
  weaponMinrank _ := 0
  weaponUpgfloor _ := 1
  powerPattern g _ := if g = 0 then -50 else if g = 1 then 100 else if g = 2 then 50 else 0
  percentPattern _ _ := 0
  areaPattern _ _ := -1
  percentAttachment _ _ := 0
  elementRanking _ := 0
  elementProbability _ := 0
  armorRanking _ := 0
  slotRanking _ := 0
  unitLevel _ := 0
  toolFrequency _ _ := 0
  techFrequency _ _ := 0
  techLevels _ _ := 0
  enemyDar _ := 0
  enemyMeseta _ := (0, 0)
  enemyDrop _ := 0
  boxMeseta _ := (0, 0)
  boxDrop _ _ := 0
  armorLevel := 0

/-- The number 60 falls on the grind value of 2, but going up from it ends the search at once. -/
theorem not_follows : ¬∀ rules v1 ent (area : Fin 10) rng,
    Follows (fun _ => True) ent (area : ℕ) rng
      (generateWeaponV2 rules v1 ent (area : ℕ) none rng).1 := by
  intro h
  have hitem : (generateWeaponV2 someRules false oddEntry 0 none fun _ => 60).1 =
      some ⟨0x00000100, 0, 0, 0⟩ := rfl
  obtain ⟨t, g, hmade, hlands⟩ := (h someRules false oddEntry 0 fun _ => 60).made _ hitem
  have htype : landing (typeWeights oddEntry 0) (typeNumber oddEntry 0 fun _ => 60) = some 0 := rfl
  obtain rfl : 0 = t := Option.some.inj (htype.symm.trans hmade.lands)
  have hgrind : landing (grindWeights oddEntry (grindRow oddEntry 0 0)) (grindNumber fun _ => 60) =
      some 2 := rfl
  obtain rfl : 2 = g := Option.some.inj (hgrind.symm.trans (hlands trivial))
  exact absurd hmade.grind (by decide)

end ShipServer.WeaponChoice
