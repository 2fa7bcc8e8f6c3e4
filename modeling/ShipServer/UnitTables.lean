import ShipServer.DropGenerators
import ShipServer.WeaponRolls
import ShipServer.LevelTables

set_option autoImplicit false

/-! The table that units are drawn from: every unit with its boosted and lowered forms, ordered by
the stars each counts for. -/

namespace ShipServer.UnitTables

open DropItems DropGenerators WeaponRolls LevelTables

/-- `pmt_unit_v2_t` and its two siblings, as far as the table of units goes. -/
structure PmtUnit where
  stat : BitVec 16
  pmRange : BitVec 8

/-- The units and the stars of an ItemPMT file. The readers refuse a file whose 32-bit size the
units, of twelve bytes or more, go over. -/
structure UnitFile where
  units : List PmtUnit
  unitLowest : BitVec 32
  weaponLowest : BitVec 32
  starTable : BitVec 32 → BitVec 8
  fits : 12 * units.length ≤ 2 ^ 32

def UnitFile.star (file : UnitFile) (j : ℕ) : BitVec 8 :=
  file.starTable (BitVec.ofNat 32 j + file.unitLowest - file.weaponLowest)

/-- The boosted and lowered forms of a unit may drop. -/
def PmtUnit.Boostable (unit : PmtUnit) (norestrict : Bool) : Prop :=
  unit.pmRange ≠ 0 ∧ (unit.stat ≤ 3 ∨ norestrict = true)

instance PmtUnit.decidableBoostable (unit : PmtUnit) (norestrict : Bool) :
    Decidable (unit.Boostable norestrict) :=
  inferInstanceAs (Decidable (_ ∧ _))

/-- `0x00000301 | (j << 16)`. -/
def unitWord (j : ℕ) : BitVec 64 :=
  ((0x00000301 : BitVec 32) ||| BitVec.ofNat 32 j <<< 16).setWidth 64

/-- `((uint64_t)pm) << 48`, where `pm` is the given multiple of the increment. -/
def pmWord (unit : PmtUnit) (times : ℤ) : BitVec 64 :=
  (BitVec.ofInt 16 (times * unit.pmRange.toNat)).signExtend 64 <<< 48

/-- What one unit adds to the table at `i` stars. -/
def unitsAt (norestrict : Bool) (i : BitVec 32) (j : ℕ) (unit : PmtUnit) (star : BitVec 8) :
    List (BitVec 64) :=
  let star := star.setWidth 32
  if star - 1 = i ∧ unit.Boostable norestrict then
    [unitWord j ||| pmWord unit (-2), unitWord j ||| pmWord unit (-1)]
  else if star = i then [unitWord j]
  else if star + 1 = i ∧ unit.Boostable norestrict then
    [unitWord j ||| pmWord unit 2, unitWord j ||| pmWord unit 1]
  else []

/-- `units_by_stars`, `units_with_stars` and `unit_max_stars`. -/
structure UnitTable where
  unitsByStars : List (BitVec 64)
  unitsWithStars : ℕ → ℕ
  unitMaxStars : BitVec 8

/-- `Item_Knight_Power`. -/
def itemKnightPower : BitVec 64 := 0x000301

/-- The most stars that a unit has. -/
def UnitFile.maxStars (file : UnitFile) : BitVec 8 :=
  (List.range file.units.length).foldl
    (fun most j => if most < file.star j then file.star j else most) 0

/-- The inner loop of `build_v2_units`, for `i` stars. -/
def UnitFile.addUnits (file : UnitFile) (norestrict : Bool) (table : List (BitVec 64)) (i : ℕ) :
    List (BitVec 64) :=
  file.units.zipIdx.foldl
    (fun table p => table ++ unitsAt norestrict (BitVec.ofNat 32 i) p.2 p.1 (file.star p.2)) table

/-- One round of the outer loop. -/
def UnitFile.addStars (file : UnitFile) (norestrict : Bool) (t : UnitTable) (i : ℕ) : UnitTable :=
  let unitsByStars := file.addUnits norestrict t.unitsByStars i
  { t with
    unitsByStars := unitsByStars
    unitsWithStars := Function.update t.unitsWithStars i unitsByStars.length }

/-- `build_v2_units`, `build_gc_units` and `build_bb_units`, which differ in the file they take.
`stale` is what `units_with_stars` is allocated with. -/
def UnitFile.buildUnits (file : UnitFile) (norestrict : Bool) (stale : ℕ → ℕ) : UnitTable :=
  let unitMaxStars := file.maxStars + 1
  (List.range (unitMaxStars.toNat + 1)).foldl (file.addStars norestrict)
    ⟨[itemKnightPower], Function.update stale 0 1, unitMaxStars⟩

/-- The file data with its tables of units. -/
def UnitTable.install (t : UnitTable) (pmt : Pmt) : Pmt :=
  { pmt with
    unitsByStars := fun i => t.unitsByStars.getD i.toNat 0
    unitsWithStars := fun stars => BitVec.ofNat 32 (t.unitsWithStars stars.toNat)
    unitMaxStars := t.unitMaxStars }

/-- The two words that an entry of the table holds. -/
def unitItem (entry : BitVec 64) : ItemWords :=
  ⟨entry.truncate 32, (entry >>> 32).truncate 32, 0, 0⟩

/-- The forms of a unit. -/
inductive Form where
  | minusMinus
  | minus
  | plain
  | plusPlus
  | plus
  deriving DecidableEq

/-- How often the increment counts. -/
def Form.times : Form → ℤ
  | .minusMinus => -2
  | .minus => -1
  | .plain => 0
  | .plusPlus => 2
  | .plus => 1

/-- The stars that a form counts for. -/
def Form.rating (stars : ℕ) : Form → ℕ
  | .minusMinus | .minus => stars - 1
  | .plain => stars
  | .plusPlus | .plus => stars + 1

/-- A form needs as many stars as it takes away. -/
def Form.cost : Form → ℕ
  | .minusMinus | .minus => 1
  | _ => 0

structure Variant where
  unit : ℕ
  form : Form
  deriving DecidableEq

/-- The variants that the game knows: every plain unit, and the other forms of the boostable ones,
as long as their stars allow it. -/
def UnitFile.Offers (file : UnitFile) (norestrict : Bool) (v : Variant) : Prop :=
  ∃ unit, file.units[v.unit]? = some unit ∧
    (v.form = .plain ∨ unit.Boostable norestrict ∧ v.form.cost ≤ (file.star v.unit).toNat)

def UnitFile.rating (file : UnitFile) (v : Variant) : ℕ :=
  v.form.rating (file.star v.unit).toNat

/-- The table's entry for a variant. -/
def UnitFile.entry (file : UnitFile) (v : Variant) : BitVec 64 :=
  match file.units[v.unit]? with
  | some unit => unitWord v.unit ||| pmWord unit v.form.times
  | none => 0

section Levels

variable (file : UnitFile) (norestrict : Bool)

/-- The forms of a unit that count for `i` stars. -/
def formsAt (i stars : ℕ) (boostable : Bool) : List Form :=
  if stars = i + 1 ∧ boostable then [.minusMinus, .minus]
  else if stars = i then [.plain]
  else if stars + 1 = i ∧ boostable then [.plusPlus, .plus]
  else []

theorem nodup_formsAt (i stars : ℕ) (boostable : Bool) : (formsAt i stars boostable).Nodup := by
  unfold formsAt
  split_ifs <;> decide

theorem mem_formsAt {i stars : ℕ} {boostable : Bool} {form : Form} :
    form ∈ formsAt i stars boostable ↔
      (form = .plain ∨ boostable = true ∧ form.cost ≤ stars) ∧ form.rating stars = i := by
  unfold formsAt
  cases boostable <;> cases form <;> split_ifs <;> simp_all [Form.cost, Form.rating]
  all_goals omega

/-- The variants that count for `i` stars. -/
def UnitFile.variantsAt (i : ℕ) : List Variant :=
  file.units.zipIdx.flatMap fun p =>
    (formsAt i (file.star p.2).toNat (decide (p.1.Boostable norestrict))).map (Variant.mk p.2)

theorem mem_variantsAt {i : ℕ} {v : Variant} :
    v ∈ file.variantsAt norestrict i ↔ file.Offers norestrict v ∧ file.rating v = i := by
  obtain ⟨j, form⟩ := v
  rw [UnitFile.variantsAt, List.mem_flatMap]
  constructor
  · rintro ⟨⟨unit, j'⟩, hp, hv⟩
    obtain ⟨form', hform, heq⟩ := List.mem_map.mp hv
    cases heq
    obtain ⟨hoffered, hrating⟩ := mem_formsAt.mp hform
    rw [decide_eq_true_iff] at hoffered
    exact ⟨⟨unit, List.mem_zipIdx_iff_getElem?.mp hp, hoffered⟩, hrating⟩
  · rintro ⟨⟨unit, hunit, hoffered⟩, hrating⟩
    refine ⟨⟨unit, j⟩, List.mem_zipIdx_iff_getElem?.mpr hunit, List.mem_map.mpr ⟨form, ?_, rfl⟩⟩
    exact mem_formsAt.mpr ⟨by rwa [decide_eq_true_iff], hrating⟩

theorem nodup_variantsAt (i : ℕ) : (file.variantsAt norestrict i).Nodup := by
  rw [UnitFile.variantsAt, List.nodup_flatMap]
  constructor
  · intro p _
    exact (nodup_formsAt _ _ _).map fun a b h => (Variant.mk.inj h).2
  · have hpositions := List.pairwise_map.mp (List.nodup_zipIdx_map_snd file.units)
    refine hpositions.imp fun {p q} hne v hp hq => hne ?_
    obtain ⟨_, _, rfl⟩ := List.mem_map.mp hp
    obtain ⟨_, _, heq⟩ := List.mem_map.mp hq
    exact (Variant.mk.inj heq).1.symm

/-- The comparisons of the source, with their conversions. A unit without stars has none to take
away: `star - 1` is then no number of stars. -/
theorem star_cases (star : BitVec 8) {i : ℕ} (hi : i ≤ 255) :
    (star.setWidth 32 - 1 = BitVec.ofNat 32 i ↔ star.toNat = i + 1) ∧
      (star.setWidth 32 = BitVec.ofNat 32 i ↔ star.toNat = i) ∧
      (star.setWidth 32 + 1 = BitVec.ofNat 32 i ↔ star.toNat + 1 = i) := by
  have hstar := star.isLt
  have hone : (1 : BitVec 32).toNat = 1 := rfl
  refine ⟨?_, ?_, ?_⟩ <;>
    rw [← BitVec.toNat_inj] <;>
    simp only [BitVec.toNat_sub, BitVec.toNat_add, BitVec.toNat_setWidth, BitVec.toNat_ofNat,
      hone] <;>
    omega

theorem pmWord_zero (unit : PmtUnit) : pmWord unit 0 = 0#64 := by
  rw [pmWord, zero_mul]
  rfl

/-- What a unit adds to a level are the entries of its forms there. -/
theorem unitsAt_eq (unit : PmtUnit) (j : ℕ) (star : BitVec 8) {i : ℕ} (hi : i ≤ 255) :
    unitsAt norestrict (BitVec.ofNat 32 i) j unit star =
      (formsAt i star.toNat (decide (unit.Boostable norestrict))).map fun form =>
        unitWord j ||| pmWord unit form.times := by
  obtain ⟨hminus, hplain, hplus⟩ := star_cases star hi
  simp only [unitsAt, formsAt, hminus, hplain, hplus, decide_eq_true_eq]
  split_ifs
  · rfl
  · rw [List.map_singleton, Form.times, pmWord_zero, BitVec.or_zero]
  · rfl
  · rfl

theorem entry_eq {j : ℕ} {unit : PmtUnit} (hunit : file.units[j]? = some unit) (form : Form) :
    file.entry ⟨j, form⟩ = unitWord j ||| pmWord unit form.times := by
  simp only [UnitFile.entry, hunit]

/-- The inner loop adds the entries of the level. -/
theorem addUnits_eq (table : List (BitVec 64)) {i : ℕ} (hi : i ≤ 255) :
    file.addUnits norestrict table i =
      table ++ (file.variantsAt norestrict i).map file.entry := by
  rw [UnitFile.addUnits, foldl_append, UnitFile.variantsAt, List.map_flatMap]
  congr 1
  refine List.flatMap_congr fun p hp => ?_
  rw [unitsAt_eq _ _ _ _ hi, List.map_map]
  refine List.map_congr_left fun form _ => ?_
  exact (entry_eq file (List.mem_zipIdx_iff_getElem?.mp hp) form).symm

end Levels

section Building

variable {file : UnitFile} {norestrict : Bool} {stale : ℕ → ℕ}

/-- The maximum found so far is over every unit seen. -/
theorem foldl_most (star : ℕ → BitVec 8) (l : List ℕ) (start : BitVec 8) :
    let most := l.foldl (fun most j => if most < star j then star j else most) start
    start ≤ most ∧ (∀ j ∈ l, star j ≤ most) ∧ (most = start ∨ ∃ j ∈ l, most = star j) := by
  induction l generalizing start with
  | nil => exact ⟨BitVec.le_refl _, by simp, .inl rfl⟩
  | cons j l ih =>
    obtain ⟨hstart, hall, hfound⟩ := ih (if start < star j then star j else start)
    rw [List.foldl_cons]
    dsimp only
    split_ifs at hstart hall hfound ⊢ with hmore
    · refine ⟨by bv_omega, ?_, ?_⟩
      · rintro k (_ | ⟨_, hk⟩)
        exacts [hstart, hall k hk]
      · rcases hfound with heq | ⟨k, hk, heq⟩
        exacts [.inr ⟨j, List.mem_cons_self, heq⟩, .inr ⟨k, List.mem_cons_of_mem _ hk, heq⟩]
    · refine ⟨hstart, ?_, ?_⟩
      · rintro k (_ | ⟨_, hk⟩)
        exacts [by bv_omega, hall k hk]
      · rcases hfound with heq | ⟨k, hk, heq⟩
        exacts [.inl heq, .inr ⟨k, List.mem_cons_of_mem _ hk, heq⟩]

/-- Ratings below 255 leave room for the one level that is added. -/
theorem maxStars_lt (hstars : ∀ j < file.units.length, file.star j < 255) :
    file.maxStars < 255 := by
  obtain ⟨-, -, hzero | ⟨j, hj, heq⟩⟩ := foldl_most file.star (List.range file.units.length) 0
  · rw [UnitFile.maxStars, hzero]
    decide
  · rw [UnitFile.maxStars, heq]
    exact hstars j (List.mem_range.mp hj)

theorem star_le_maxStars {j : ℕ} (hj : j < file.units.length) : file.star j ≤ file.maxStars :=
  (foldl_most file.star (List.range file.units.length) 0).2.1 j (List.mem_range.mpr hj)

/-- The outer loop fills the table level by level. -/
theorem foldl_addStars (t : UnitTable) {n : ℕ} (hn : n ≤ 256) :
    let filled := Filled.fillAll (fun i => (file.variantsAt norestrict i).map file.entry)
      ⟨t.unitsByStars, t.unitsWithStars⟩ n
    (List.range n).foldl (file.addStars norestrict) t =
      ⟨filled.table, filled.ends, t.unitMaxStars⟩ := by
  induction n with
  | zero => rfl
  | succ n ih =>
    dsimp only at ih ⊢
    rw [List.range_succ, List.foldl_append, ih (by omega), List.foldl_cons, List.foldl_nil,
      UnitFile.addStars, addUnits_eq _ _ _ (by omega), Filled.fillAll_succ]
    rfl

theorem unitMaxStars_eq : (file.buildUnits norestrict stale).unitMaxStars = file.maxStars + 1 := by
  have hmost := (file.maxStars + 1).isLt
  rw [UnitFile.buildUnits, foldl_addStars _ (by omega)]

/-- The variants of the levels up to `m`. -/
def UnitFile.variants (file : UnitFile) (norestrict : Bool) (m : ℕ) : List Variant :=
  levels (file.variantsAt norestrict) (m + 1)

theorem mem_variants {m : ℕ} {v : Variant} :
    v ∈ file.variants norestrict m ↔ file.Offers norestrict v ∧ file.rating v ≤ m := by
  rw [UnitFile.variants, mem_levels]
  constructor
  · rintro ⟨i, hi, hv⟩
    obtain ⟨hoffers, hrating⟩ := (mem_variantsAt _ _).mp hv
    exact ⟨hoffers, by omega⟩
  · rintro ⟨hoffers, hrating⟩
    exact ⟨file.rating v, by omega, (mem_variantsAt _ _).mpr ⟨hoffers, rfl⟩⟩

theorem nodup_variants (m : ℕ) : (file.variants norestrict m).Nodup :=
  nodup_levels (nodup_variantsAt file norestrict)
    (fun _ _ hv => ((mem_variantsAt file norestrict).mp hv).2) _

theorem forms_complete (form : Form) :
    form ∈ [Form.minusMinus, .minus, .plain, .plusPlus, .plus] := by
  cases form <;> decide

theorem length_variants (m : ℕ) : (file.variants norestrict m).length ≤ 5 * file.units.length := by
  have hsub : file.variants norestrict m ⊆ (List.range file.units.length).flatMap fun j =>
      [Form.minusMinus, .minus, .plain, .plusPlus, .plus].map (Variant.mk j) := by
    intro v hv
    obtain ⟨⟨unit, hunit, -⟩, -⟩ := mem_variants.mp hv
    rw [List.mem_flatMap]
    exact ⟨v.unit, List.mem_range.mpr (List.getElem?_eq_some_iff.mp hunit).1,
      List.mem_map.mpr ⟨v.form, forms_complete v.form, rfl⟩⟩
  have hlength := (List.subperm_of_subset (nodup_variants m) hsub).length_le
  simp only [List.length_flatMap, List.length_map, List.length_cons, List.length_nil,
    List.map_const', List.sum_replicate, List.length_range, smul_eq_mul] at hlength
  omega

/-- Up to the end of a level, the table holds the fallback and the variants up to that level. -/
theorem take_unitsByStars {m : ℕ}
    (hm : m ≤ (file.buildUnits norestrict stale).unitMaxStars.toNat) :
    let t := file.buildUnits norestrict stale
    t.unitsByStars.take (t.unitsWithStars m) =
      itemKnightPower :: (file.variants norestrict m).map file.entry := by
  have hmost := (file.maxStars + 1).isLt
  rw [unitMaxStars_eq] at hm
  rw [UnitFile.buildUnits, foldl_addStars _ (by omega)]
  dsimp only
  rw [Filled.take_ends (by omega), UnitFile.variants, map_levels]
  rfl

theorem unitsWithStars_eq {m : ℕ}
    (hm : m ≤ (file.buildUnits norestrict stale).unitMaxStars.toNat) :
    (file.buildUnits norestrict stale).unitsWithStars m =
      (file.variants norestrict m).length + 1 := by
  have hmost := (file.maxStars + 1).isLt
  rw [unitMaxStars_eq] at hm
  rw [UnitFile.buildUnits, foldl_addStars _ (by omega)]
  dsimp only
  rw [Filled.fillAll_ends (by omega), ← map_levels, List.length_map, UnitFile.variants,
    List.length_singleton, Nat.add_comm]

theorem length_unitsByStars :
    (file.buildUnits norestrict stale).unitsByStars.length =
      (file.variants norestrict (file.maxStars + 1).toNat).length + 1 := by
  have hmost := (file.maxStars + 1).isLt
  rw [UnitFile.buildUnits, foldl_addStars _ (by omega)]
  dsimp only
  rw [Filled.fillAll_table, ← map_levels, List.length_append, List.length_map, UnitFile.variants,
    List.length_singleton, Nat.add_comm]

end Building

section Drawing

variable {file : UnitFile} {norestrict : Bool} {stale : ℕ → ℕ}

/-- The entries that a draw with the given most stars chooses from: those up to the end of its
level, or of the last one. -/
def UnitTable.choices (t : UnitTable) (max : BitVec 8) : ℕ :=
  t.unitsWithStars (min max.toNat t.unitMaxStars.toNat)

theorem choices_pos (max : BitVec 8) : 0 < (file.buildUnits norestrict stale).choices max := by
  rw [UnitTable.choices, unitsWithStars_eq (Nat.min_le_right _ _)]
  exact Nat.succ_pos _

theorem choices_le (max : BitVec 8) :
    (file.buildUnits norestrict stale).choices max ≤
      (file.buildUnits norestrict stale).unitsByStars.length := by
  have htake := congrArg List.length
    (@take_unitsByStars file norestrict stale _ (Nat.min_le_right max.toNat _))
  rw [List.length_take, List.length_cons, List.length_map] at htake
  rw [UnitTable.choices, unitsWithStars_eq (Nat.min_le_right _ _)] at *
  omega

theorem choices_lt (max : BitVec 8) :
    (file.buildUnits norestrict stale).choices max < 2 ^ 32 := by
  have hbound := file.fits
  have hlength := @length_variants file norestrict (file.maxStars + 1).toNat
  have hle := @choices_le file norestrict stale max
  rw [length_unitsByStars] at hle
  omega

/-- A draw takes the entry that the remainder of the random number is the place of. -/
theorem pmtRandomUnit_run (pmt : Pmt) (max : BitVec 8) (rng : Rng) :
    let t := file.buildUnits norestrict stale
    (pmtRandomUnit (t.install pmt) max rng).1 =
      unitItem (t.unitsByStars.getD ((rng 0).toNat % t.choices max) 0) := by
  dsimp only
  have hlt := @choices_lt file norestrict stale max
  generalize file.buildUnits norestrict stale = t at hlt ⊢
  have hcapped : (if (t.install pmt).unitMaxStars < max then (t.install pmt).unitMaxStars
      else max).toNat = min max.toNat t.unitMaxStars.toNat := by
    split_ifs with hmore
    · exact (Nat.min_eq_right (BitVec.lt_def.mp hmore).le).symm
    · exact (Nat.min_eq_left (not_lt.mp fun h => hmore (BitVec.lt_def.mpr h))).symm
  have hchoices : (t.install pmt).unitsWithStars (if (t.install pmt).unitMaxStars < max then
      (t.install pmt).unitMaxStars else max) = BitVec.ofNat 32 (t.choices max) :=
    congrArg (fun n => BitVec.ofNat 32 (t.unitsWithStars n)) hcapped
  have hindex : (rng 0 % BitVec.ofNat 32 (t.choices max)).toNat =
      (rng 0).toNat % t.choices max := by
    rw [BitVec.toNat_umod, BitVec.toNat_ofNat, Nat.mod_eq_of_lt hlt]
  rw [pmtRandomUnit, bind_run, genrand_run]
  dsimp only
  rw [pure_run, hchoices]
  change unitItem (t.unitsByStars.getD (rng 0 % BitVec.ofNat 32 (t.choices max)).toNat 0) = _
  rw [hindex]

/-- The random numbers, of all that there are, with which a unit is drawn. -/
def draws (pmt : Pmt) (max : BitVec 8) (item : ItemWords) : ℕ :=
  ((Finset.range (2 ^ 32)).filter fun r =>
    (pmtRandomUnit pmt max fun _ => BitVec.ofNat 32 r).1 = item).card

/-- The table of units: each level ends behind the fallback and one entry for each variant up to
that level, and a draw takes the entry that the random number's remainder is the place of, where
each place has as many random numbers as the next, up to one. -/
theorem buildUnits_table (file : UnitFile) (norestrict : Bool) (stale : ℕ → ℕ) (pmt : Pmt)
    (hstars : ∀ j < file.units.length, file.star j < 255) :
    let t := file.buildUnits norestrict stale
    (∀ m ≤ t.unitMaxStars.toNat, ∃ vs : List Variant, vs.Nodup ∧
      (∀ v, v ∈ vs ↔ file.Offers norestrict v ∧ file.rating v ≤ m) ∧
      t.unitsByStars.take (t.unitsWithStars m) = itemKnightPower :: vs.map file.entry) ∧
    (∀ v, file.Offers norestrict v → file.rating v ≤ t.unitMaxStars.toNat) ∧
    t.unitsByStars.length ≤ 5 * file.units.length + 1 ∧
    ∀ max,
      (∀ rng, ∃ entry,
        (t.unitsByStars.take (t.choices max))[(rng 0).toNat % t.choices max]? = some entry ∧
        (pmtRandomUnit (t.install pmt) max rng).1 = unitItem entry) ∧
      ∀ i < t.choices max, ∀ j < t.choices max,
        picks (2 ^ 32) (t.choices max) i ≤ picks (2 ^ 32) (t.choices max) j + 1 := by
  dsimp only
  refine ⟨fun m hm => ⟨file.variants norestrict m, nodup_variants m, fun _ => mem_variants,
    take_unitsByStars hm⟩, ?_, ?_, fun max => ⟨fun rng => ?_, fun i hi j hj => picks_le hi hj⟩⟩
  · rintro v ⟨unit, hunit, -⟩
    have hj := (List.getElem?_eq_some_iff.mp hunit).1
    have hmost := star_le_maxStars hj
    have hroom := maxStars_lt hstars
    rw [unitMaxStars_eq]
    have hnext : (file.maxStars + 1).toNat = file.maxStars.toNat + 1 := by bv_omega
    rw [BitVec.le_def] at hmost
    rw [hnext, UnitFile.rating]
    cases v.form <;> dsimp only [Form.rating] <;> omega
  · rw [length_unitsByStars]
    exact Nat.succ_le_succ (length_variants _)
  · have hplace := Nat.mod_lt (rng 0).toNat
      (@choices_pos file norestrict stale max)
    have hle := @choices_le file norestrict stale max
    rw [pmtRandomUnit_run]
    refine ⟨_, ?_, rfl⟩
    rw [List.getElem?_take_of_lt hplace, List.getElem?_eq_getElem (hplace.trans_le hle),
      List.getD_eq_getElem _ _ (hplace.trans_le hle)]

theorem two_fit : 12 * 2 ≤ 2 ^ 32 := by decide

/-- Two units without stars and increments. -/
def plainUnits : UnitFile where
  units := [⟨0, 0⟩, ⟨0, 0⟩]
  unitLowest := 0
  weaponLowest := 0
  starTable := fun _ => 0
  fits := two_fit

/-- The data before a file is read. -/
def noPmt : Pmt where
  haveData := false
  numWeaponTypes := 0
  numWeapons := fun _ => 0
  weapons := fun _ _ => 0
  weaponLowest := 0xFFFFFFFF
  numGuardTypes := 0
  numGuards := fun _ => 0
  guards := fun _ _ => ⟨0, 0, 0⟩
  numUnits := 0
  units := fun _ => 0
  starMax := 0
  starTable := fun _ => 0
  unitsByStars := fun _ => 0
  unitsWithStars := fun _ => 0
  unitMaxStars := 0

theorem plainUnits_table :
    (plainUnits.buildUnits false fun _ => 0).unitsByStars.length ≤
      5 * plainUnits.units.length + 1 :=
  (buildUnits_table plainUnits false (fun _ => 0) noPmt (by decide)).2.2.1

/-- With three entries to choose from, the random numbers cannot be shared equally. -/
theorem not_uniform :
    ¬ ∀ (file : UnitFile) (norestrict : Bool) (stale : ℕ → ℕ) (pmt : Pmt),
      (∀ j < file.units.length, file.star j < 255) →
        let t := file.buildUnits norestrict stale
        ∀ max, ∀ entry ∈ t.unitsByStars.take (t.choices max),
          draws (t.install pmt) max (unitItem entry) * t.choices max =
            (t.unitsByStars.take (t.choices max)).count entry * 2 ^ 32 := by
  intro huniform
  have hthree := huniform plainUnits false (fun _ => 0) noPmt (by decide) 0 0x10301 (by decide)
  have hchoices : (plainUnits.buildUnits false fun _ => 0).choices 0 = 3 := by decide
  have hcount :
      ((plainUnits.buildUnits false fun _ => 0).unitsByStars.take 3).count 0x10301 = 1 := by
    decide
  rw [hchoices, hcount] at hthree
  omega

end Drawing

end ShipServer.UnitTables
