import ShipServer.DropItems
import ShipServer.WeightedChoice

set_option autoImplicit false

/-! What is rolled for a weapon, and what of it its four words carry. -/

namespace ShipServer.WeaponRolls

open DropItems

section Generators

variable {α β : Type} {rng : Rng}

theorem bind_run (x : Gen α) (f : α → Gen β) : (x >>= f) rng = f (x rng).1 (x rng).2 := rfl

theorem pure_run (a : α) : (pure a : Gen α) rng = (a, rng) := rfl

theorem genrand_run : genrand rng = (rng 0, fun n => rng (n + 1)) := rfl

/-- Whatever the random numbers are, the result has a property. -/
def Ensures (x : Gen α) (P : α → Prop) : Prop :=
  ∀ rng, P (x rng).1

theorem Ensures.pure {P : α → Prop} {a : α} (h : P a) : Ensures (Pure.pure a) P :=
  fun _ => h

theorem Ensures.bind {x : Gen α} {f : α → Gen β} {P : α → Prop} {Q : β → Prop} (hx : Ensures x P)
    (hf : ∀ a, P a → Ensures (f a) Q) : Ensures (x >>= f) Q :=
  fun rng => hf _ (hx rng) _

/-- What every step keeps, a fold keeps. -/
theorem ensures_foldlM {f : α → β → Gen α} {I : α → Prop} (h : ∀ a b, I a → Ensures (f a b) I)
    (l : List β) {a : α} (ha : I a) : Ensures (l.foldlM f a) I := by
  induction l generalizing a with
  | nil => exact Ensures.pure ha
  | cons b l ih =>
    rw [List.foldlM_cons]
    exact (h a b ha).bind fun a' ha' => ih ha'

end Generators

section Bytes

def wordByte (w : BitVec 32) (k : ℕ) : BitVec 8 :=
  w.extractLsb' (8 * k) 8

/-- `item_b[k]`. -/
def itemByte (it : ItemWords) (k : ℕ) : BitVec 8 :=
  if k < 4 then wordByte it.item0 k
  else if k < 8 then wordByte it.item1 (k - 4)
  else if k < 12 then wordByte it.item2 (k - 8)
  else wordByte it.item3 (k - 12)

theorem getLsbD_putByte (w : BitVec 32) (k : ℕ) (b : BitVec 8) {p : ℕ} (hp : p < 32) :
    (putByte w k b).getLsbD p =
      if 8 * k ≤ p ∧ p < 8 * k + 8 then b.getLsbD (p - 8 * k) else w.getLsbD p := by
  have hmask (q : ℕ) : (0xFF : BitVec 32).getLsbD q = decide (q < 8) := by
    by_cases hq : q < 32
    · interval_cases q <;> rfl
    · rw [BitVec.getLsbD_of_ge _ _ (not_lt.mp hq)]
      exact (decide_eq_false (by omega)).symm
  simp only [putByte, BitVec.getLsbD_or, BitVec.getLsbD_and, BitVec.getLsbD_not,
    BitVec.getLsbD_shiftLeft, hmask, BitVec.truncate_eq_setWidth, BitVec.getLsbD_setWidth]
  by_cases hlow : p < 8 * k
  · rw [if_neg (by omega)]
    simp [hp, hlow]
  · by_cases hhigh : p - 8 * k < 8
    · rw [if_pos (by omega)]
      simp [hp, hlow, hhigh, hhigh.trans (by decide : 8 < 32)]
    · have hbyte : b.getLsbD (p - 8 * k) = false := BitVec.getLsbD_of_ge _ _ (not_lt.mp hhigh)
      rw [if_neg (by omega)]
      simp [hp, hlow, hhigh, hbyte]

theorem getLsbD_wordByte (w : BitVec 32) (k : ℕ) {i : ℕ} (hi : i < 8) :
    (wordByte w k).getLsbD i = w.getLsbD (8 * k + i) := by
  simp [wordByte, hi]

theorem wordByte_putByte_self (w : BitVec 32) {k : ℕ} (hk : k < 4) (b : BitVec 8) :
    wordByte (putByte w k b) k = b := by
  refine BitVec.eq_of_getLsbD_eq fun i hi => ?_
  rw [getLsbD_wordByte _ _ hi, getLsbD_putByte _ _ _ (by omega), if_pos (by omega),
    Nat.add_sub_cancel_left]

theorem wordByte_putByte_ne (w : BitVec 32) {j k : ℕ} (hj : j < 4) (hne : j ≠ k) (b : BitVec 8) :
    wordByte (putByte w k b) j = wordByte w j := by
  refine BitVec.eq_of_getLsbD_eq fun i hi => ?_
  rw [getLsbD_wordByte _ _ hi, getLsbD_wordByte _ _ hi, getLsbD_putByte _ _ _ (by omega),
    if_neg (by omega)]

theorem itemByte_setByte_self (it : ItemWords) {k : ℕ} (hk : k < 16) (b : BitVec 8) :
    itemByte (it.setByte k b) k = b := by
  unfold itemByte ItemWords.setByte
  split_ifs
  · exact wordByte_putByte_self _ (by omega) b
  · exact wordByte_putByte_self _ (by omega) b
  · exact wordByte_putByte_self _ (by omega) b
  · exact wordByte_putByte_self _ (by omega) b

theorem itemByte_setByte_ne (it : ItemWords) {j k : ℕ} (hj : j < 16) (hne : j ≠ k) (b : BitVec 8) :
    itemByte (it.setByte k b) j = itemByte it j := by
  unfold itemByte ItemWords.setByte
  split_ifs
  all_goals first
    | rfl
    | exact wordByte_putByte_ne _ (by omega) (by omega) b

theorem item0_setByte (it : ItemWords) {k : ℕ} (hk : 4 ≤ k) (b : BitVec 8) :
    (it.setByte k b).item0 = it.item0 := by
  unfold ItemWords.setByte
  rw [if_neg (by omega)]
  split_ifs <;> rfl

end Bytes

/-- A percentage that is rolled: its attribute, and its value. -/
abbrev Percent := ℕ × ℤ

/-- What one of the three slots of a weapon gets, if anything. -/
def percentRoll (ent : PtEntry) (scale : BitVec 32) (area : ℤ) (upcts : List ℕ) (i : ℕ) :
    Gen (Option Percent) := do
  let warea := (ent.areaPattern i area).toInt
  if warea < 0 then return none
  let rnd ← genrand
  match pick scale ((List.range 23).map fun j => (ent.percentPattern j warea).zeroExtend 32)
      (rnd % scale) with
  | none => return none
  | some j =>
    if j = 2 then return none
    let rnd ← genrand
    match pick 100 ((List.range 6).map fun k => (ent.percentAttachment k area).signExtend 32)
        (rnd % 100) with
    | none => return none
    | some k => if k = 0 ∨ k ∈ upcts then return none else return some (k, (j - 2) * 5)

/-- The percentages of a weapon, the last one first. -/
def rollPercents (ent : PtEntry) (scale : BitVec 32) (area : ℤ) (rolled : List Percent) (i : ℕ) :
    Gen (List Percent) := do
  let roll ← percentRoll ent scale area (rolled.map Prod.fst) i
  return roll.toList ++ rolled

/-- The word that the element of a weapon or its mark is written with, if it gets one. -/
def elementWord (rules : ItemRules) (ent : PtEntry) (area : ℤ) (semirare marked : Bool) :
    Gen (Option (BitVec 32)) := do
  let ranking := (ent.elementRanking area).toInt
  if semirare = false ∧ ranking ≠ 0 then
    let rnd ← genrand
    if rnd % 100 < (ent.elementProbability area).signExtend 32 then
      let rnd ← genrand
      let attr := (rnd % attrCount (ranking - 1)).toNat
      return some (0x80 ||| rules.attrList (ranking - 1) attr)
    else return none
  else if marked then return some 0x80
  else return none

/-- What is rolled for a weapon: its first word, its percentages and its element or mark. -/
structure Rolls where
  item0 : BitVec 32
  rolled : List Percent
  written : Option (BitVec 32)

/-- The part that follows the choice of a weapon. -/
def rollRest (rules : ItemRules) (scale : BitVec 32) (ent : PtEntry) (area : ℤ)
    (item0 : BitVec 32) (warea : ℤ) (semirare marked : Bool) : Gen (Option Rolls) := do
  let rnd ← genrand
  match pick 100 ((List.range 9).map fun i => (ent.powerPattern i warea).signExtend 32)
      (rnd % 100) with
  | none => return none
  | some i =>
    let rolled ← [0, 1, 2].foldlM (rollPercents ent scale area) []
    let written ← elementWord rules ent area semirare marked
    return some ⟨item0 ||| BitVec.ofNat 32 i <<< 24, rolled, written⟩

/-- The rolls of `generate_weapon_v2` and `generate_weapon_v3`. -/
def rollWeapon (rules : ItemRules) (scale : BitVec 32) (v1 : Bool) (ent : PtEntry) (area : ℤ)
    (picked : Option (BitVec 32)) : Gen (Option Rolls) := do
  match picked with
  | some item0 =>
    let it := ItemWords.plain item0
    let rare : Bool := 12 < it.byte 1
    let semirare := rare || isSemirare it
    rollRest rules scale ent area item0 3 semirare (rare || v1 && semirare)
  | none =>
    match ← weaponBase ent area with
    | none => return none
    | some (item0, warea) =>
      if item0 = 0 then return none
      let semirare := isSemirare (.plain item0)
      rollRest rules scale ent area item0 warea semirare (v1 && semirare)

/-- A percentage goes into the next slot. -/
def addPercent (s : Percents) (p : Percent) : Percents where
  item := (s.item.setByte (2 * s.npcts + 6) (BitVec.ofNat 8 p.1)).setByte (2 * s.npcts + 7)
    (BitVec.ofInt 8 p.2)
  npcts := s.npcts + 1
  upcts := p.1 :: s.upcts

/-- A weapon with its percentages. -/
def withPercents (item : ItemWords) : List Percent → Percents
  | [] => { item := item, npcts := 0, upcts := [] }
  | p :: rolled => addPercent (withPercents item rolled) p

/-- What the code makes of the rolls. -/
def assemble (r : Rolls) : ItemWords :=
  let item := (withPercents (.plain r.item0) r.rolled).item
  match r.written with
  | none => item
  | some w => { item with item1 := w }

section Assembly

variable {ent : PtEntry} {scale : BitVec 32} {area : ℤ} {rules : ItemRules}

theorem weaponPercent_eq (s : Percents) (i : ℕ) :
    weaponPercent ent scale area s i = do
      let roll ← percentRoll ent scale area s.upcts i
      return roll.elim s (addPercent s) := by
  funext rng
  unfold weaponPercent percentRoll
  dsimp only
  by_cases hskip : (ent.areaPattern i area).toInt < 0
  · rw [if_pos hskip, if_pos hskip]
    rfl
  · rw [if_neg hskip, if_neg hskip]
    simp only [bind_run, genrand_run]
    cases pick scale ((List.range 23).map fun j =>
      (ent.percentPattern j (ent.areaPattern i area).toInt).zeroExtend 32) (rng 0 % scale) with
    | none => rfl
    | some j =>
      dsimp only
      by_cases hzero : j = 2
      · rw [if_pos hzero, if_pos hzero]
        rfl
      · rw [if_neg hzero, if_neg hzero]
        simp only [bind_run, genrand_run]
        cases pick 100 ((List.range 6).map fun k => (ent.percentAttachment k area).signExtend 32)
          (rng 1 % 100) with
        | none => rfl
        | some k =>
          dsimp only
          by_cases hused : k = 0 ∨ k ∈ s.upcts
          · rw [if_pos hused, if_pos hused]
            rfl
          · rw [if_neg hused, if_neg hused]
            rfl

theorem weaponElement_eq (semirare marked : Bool) (it : ItemWords) :
    weaponElement rules ent area semirare marked it = do
      let written ← elementWord rules ent area semirare marked
      return written.elim it fun w => { it with item1 := w } := by
  funext rng
  unfold weaponElement elementWord
  dsimp only
  by_cases hranked : semirare = false ∧ (ent.elementRanking area).toInt ≠ 0
  · rw [if_pos hranked, if_pos hranked]
    simp only [bind_run]
    rw [genrand_run]
    by_cases hlucky : rng 0 % 100 < (ent.elementProbability area).signExtend 32
    · rw [if_pos hlucky, if_pos hlucky]
      rfl
    · rw [if_neg hlucky, if_neg hlucky]
      rfl
  · rw [if_neg hranked, if_neg hranked]
    cases marked <;> rfl

theorem upcts_withPercents (item : ItemWords) (rolled : List Percent) :
    (withPercents item rolled).upcts = rolled.map Prod.fst := by
  induction rolled with
  | nil => rfl
  | cons p rolled ih => exact congrArg (p.1 :: ·) ih

theorem npcts_withPercents (item : ItemWords) (rolled : List Percent) :
    (withPercents item rolled).npcts = rolled.length := by
  induction rolled with
  | nil => rfl
  | cons p rolled ih => exact congrArg (· + 1) ih

/-- The slots of a weapon are filled from the list of its percentages. -/
theorem foldlM_weaponPercent (item : ItemWords) (l : List ℕ) (rolled : List Percent) :
    l.foldlM (weaponPercent ent scale area) (withPercents item rolled) = do
      let rolled ← l.foldlM (rollPercents ent scale area) rolled
      return withPercents item rolled := by
  induction l generalizing rolled with
  | nil => rfl
  | cons i l ih =>
    have hstep (roll : Option Percent) :
        roll.elim (withPercents item rolled) (addPercent (withPercents item rolled)) =
          withPercents item (roll.toList ++ rolled) := by
      cases roll <;> rfl
    funext rng
    rw [List.foldlM_cons, List.foldlM_cons, weaponPercent_eq, upcts_withPercents]
    simp only [rollPercents, hstep, bind_run, pure_run]
    exact congrFun (ih _) _

theorem finishWeapon_eq (item0 : BitVec 32) (warea : ℤ) (semirare marked : Bool) :
    finishWeapon rules scale ent area item0 warea semirare marked = do
      let r ← rollRest rules scale ent area item0 warea semirare marked
      return r.map assemble := by
  funext rng
  rw [finishWeapon, rollRest]
  simp only [bind_run, genrand_run]
  cases pick 100 ((List.range 9).map fun i => (ent.powerPattern i warea).signExtend 32)
    (rng 0 % 100) with
  | none => rfl
  | some i =>
    have hfold := congrFun (@foldlM_weaponPercent ent scale area
      (.plain (item0 ||| BitVec.ofNat 32 i <<< 24)) [0, 1, 2] []) fun n => rng (n + 1)
    simp only [withPercents, bind_run, pure_run] at hfold
    simp only [bind_run, pure_run, hfold, weaponElement_eq, Option.map_some, assemble]
    cases (elementWord rules ent area semirare marked
      ([0, 1, 2].foldlM (rollPercents ent scale area) [] fun n => rng (n + 1)).2).1 with
    | none => rfl
    | some w => rfl

/-- The weapon is what the rolls come to, put together the code's way. -/
theorem generateWeapon_eq (v1 : Bool) (picked : Option (BitVec 32)) :
    generateWeapon rules scale v1 ent area picked = do
      let r ← rollWeapon rules scale v1 ent area picked
      return r.map assemble := by
  unfold generateWeapon rollWeapon
  cases picked with
  | some item0 => exact finishWeapon_eq ..
  | none =>
    funext rng
    simp only [bind_run]
    cases (weaponBase ent area rng).1 with
    | none => rfl
    | some base =>
      dsimp only
      by_cases hzero : base.1 = 0
      · rw [if_pos hzero, if_pos hzero]
        rfl
      · rw [if_neg hzero, if_neg hzero, finishWeapon_eq]
        rfl

end Assembly

/-- A percentage as the description has it. -/
def Legal (p : Percent) : Prop :=
  1 ≤ p.1 ∧ p.1 ≤ 5 ∧ 5 ∣ p.2 ∧ -10 ≤ p.2 ∧ p.2 ≤ 100 ∧ p.2 ≠ 0

/-- The weapon has every percentage that was rolled, in the order of the rolls, and its element or
mark. -/
structure Carries (r : Rolls) (it : ItemWords) : Prop where
  atMost : r.rolled.length ≤ 3
  distinct : (r.rolled.map Prod.fst).Nodup
  legal : ∀ p ∈ r.rolled, Legal p
  slots : ∀ m p, r.rolled.reverse[m]? = some p →
    itemByte it (2 * m + 6) = BitVec.ofNat 8 p.1 ∧ itemByte it (2 * m + 7) = BitVec.ofInt 8 p.2
  element : ∀ w, r.written = some w → itemByte it 4 = wordByte w 0

/-- No word is written for an element or a mark when there is a percentage, unless the word has the
first percentage in its upper half. -/
def Undisturbed (r : Rolls) : Prop :=
  ∀ w p, r.written = some w → r.rolled.getLast? = some p →
    wordByte w 2 = BitVec.ofNat 8 p.1 ∧ wordByte w 3 = BitVec.ofInt 8 p.2

section Carrying

variable {ent : PtEntry} {scale : BitVec 32} {area : ℤ}

theorem lt_length_of_pick {limit r : BitVec 32} {ws : List (BitVec 32)} {i : ℕ}
    (h : pick limit ws r = some i) : i < ws.length := by
  refine WeightedChoice.lt_length_of_search (fun _ => rfl) (fun w ws r => ?_) h
  rw [pick]
  split_ifs
  · exact .inl rfl
  · exact .inr ⟨_, rfl⟩

/-- A slot gets a legal percentage of an attribute that no other has. -/
theorem percentRoll_legal (upcts : List ℕ) (i : ℕ) :
    Ensures (percentRoll ent scale area upcts i) fun roll =>
      ∀ p, roll = some p → Legal p ∧ p.1 ∉ upcts := by
  intro rng
  unfold percentRoll
  by_cases hskip : (ent.areaPattern i area).toInt < 0
  · rw [if_pos hskip]
    intro p hp
    cases hp
  · rw [if_neg hskip]
    simp only [bind_run, genrand_run]
    cases hj : pick scale ((List.range 23).map fun j =>
      (ent.percentPattern j (ent.areaPattern i area).toInt).zeroExtend 32) (rng 0 % scale) with
    | none =>
      intro p hp
      cases hp
    | some j =>
      have hjlt := lt_length_of_pick hj
      rw [List.length_map, List.length_range] at hjlt
      dsimp only
      by_cases hzero : j = 2
      · rw [if_pos hzero]
        intro p hp
        cases hp
      · rw [if_neg hzero]
        simp only [bind_run, genrand_run]
        cases hk : pick 100 ((List.range 6).map fun k =>
          (ent.percentAttachment k area).signExtend 32) (rng 1 % 100) with
        | none =>
          intro p hp
          cases hp
        | some k =>
          have hklt := lt_length_of_pick hk
          rw [List.length_map, List.length_range] at hklt
          dsimp only
          by_cases hused : k = 0 ∨ k ∈ upcts
          · rw [if_pos hused]
            intro p hp
            cases hp
          · rw [if_neg hused]
            intro p hp
            cases hp
            rw [not_or] at hused
            refine ⟨⟨by omega, by omega, ⟨_, Int.mul_comm _ _⟩, by omega, by omega, by omega⟩,
              hused.2⟩

theorem rollPercents_legal (l : List ℕ) :
    Ensures (l.foldlM (rollPercents ent scale area) []) fun rolled =>
      (rolled.map Prod.fst).Nodup ∧ ∀ p ∈ rolled, Legal p := by
  refine ensures_foldlM ?_ l ⟨List.nodup_nil, fun p hp => absurd hp List.not_mem_nil⟩
  rintro rolled i ⟨hdistinct, hlegal⟩
  refine (percentRoll_legal (rolled.map Prod.fst) i).bind fun roll hroll => Ensures.pure ?_
  cases roll with
  | none => exact ⟨hdistinct, hlegal⟩
  | some p =>
    obtain ⟨hp, hfresh⟩ := hroll p rfl
    refine ⟨List.nodup_cons.mpr ⟨hfresh, hdistinct⟩, ?_⟩
    intro q hq
    rcases List.mem_cons.mp hq with rfl | hold
    · exact hp
    · exact hlegal q hold

theorem length_rollPercents (l : List ℕ) (rolled : List Percent) :
    Ensures (l.foldlM (rollPercents ent scale area) rolled) fun rolled' =>
      rolled'.length ≤ rolled.length + l.length := by
  induction l generalizing rolled with
  | nil => exact Ensures.pure le_rfl
  | cons i l ih =>
    rw [List.foldlM_cons]
    have hstep : Ensures (rollPercents ent scale area rolled i) fun rolled' =>
        rolled'.length ≤ rolled.length + 1 := by
      intro rng
      rw [rollPercents, bind_run, pure_run]
      cases (percentRoll ent scale area (rolled.map Prod.fst) i rng).1 with
      | none => exact Nat.le_succ _
      | some p => exact le_rfl
    refine hstep.bind fun rolled' hlen rng => ?_
    have hrest := ih rolled' rng
    rw [List.length_cons]
    omega

/-- Each percentage keeps the slot that it is put into. -/
theorem slots_withPercents (item : ItemWords) {rolled : List Percent} (hlen : rolled.length ≤ 3)
    {m : ℕ} {p : Percent} (hp : rolled.reverse[m]? = some p) :
    itemByte (withPercents item rolled).item (2 * m + 6) = BitVec.ofNat 8 p.1 ∧
      itemByte (withPercents item rolled).item (2 * m + 7) = BitVec.ofInt 8 p.2 := by
  induction rolled with
  | nil => cases hp
  | cons q rolled ih =>
    rw [List.length_cons] at hlen
    rw [withPercents, addPercent, npcts_withPercents]
    dsimp only
    rw [List.reverse_cons] at hp
    by_cases hm : m < rolled.length
    · rw [List.getElem?_append_left (by simpa using hm)] at hp
      obtain ⟨hattr, hvalue⟩ := ih (by omega) hp
      rw [itemByte_setByte_ne _ (by omega) (by omega), itemByte_setByte_ne _ (by omega) (by omega),
        itemByte_setByte_ne _ (by omega) (by omega), itemByte_setByte_ne _ (by omega) (by omega)]
      exact ⟨hattr, hvalue⟩
    · have hend : m = rolled.length := by
        have hlt := (List.getElem?_eq_some_iff.mp hp).1
        rw [List.length_append, List.length_reverse, List.length_singleton] at hlt
        omega
      subst hend
      rw [List.getElem?_append_right (by simp), List.length_reverse, Nat.sub_self] at hp
      obtain rfl := Option.some.inj hp
      rw [itemByte_setByte_ne _ (by omega) (by omega), itemByte_setByte_self _ (by omega),
        itemByte_setByte_self _ (by omega)]
      exact ⟨rfl, rfl⟩

theorem itemByte_item1 (it : ItemWords) (w : BitVec 32) {k : ℕ} (hk : k < 4) :
    itemByte { it with item1 := w } (k + 4) = wordByte w k := by
  rw [itemByte, if_neg (by omega), if_pos (by omega), Nat.add_sub_cancel]

theorem itemByte_item1_later (it : ItemWords) (w : BitVec 32) {k : ℕ} (hk : 8 ≤ k) :
    itemByte { it with item1 := w } k = itemByte it k := by
  have hword0 : ¬k < 4 := by omega
  have hword1 : ¬k < 8 := by omega
  simp only [itemByte, if_neg hword0, if_neg hword1]

/-- The word of an element or a mark has the first slot in it. -/
theorem carries_assemble_iff {r : Rolls} (hlen : r.rolled.length ≤ 3)
    (hdistinct : (r.rolled.map Prod.fst).Nodup) (hlegal : ∀ p ∈ r.rolled, Legal p) :
    Carries r (assemble r) ↔ Undisturbed r := by
  have hfirst (p : Percent) : r.rolled.getLast? = some p ↔ r.rolled.reverse[0]? = some p := by
    rw [← List.head?_eq_getElem?, List.head?_reverse]
  have hsome (w : BitVec 32) (hw : r.written = some w) :
      assemble r = { (withPercents (.plain r.item0) r.rolled).item with item1 := w } := by
    rw [assemble, hw]
  constructor
  · intro h w p hw hp
    obtain ⟨hattr, hvalue⟩ := h.slots 0 p ((hfirst p).mp hp)
    rw [hsome w hw] at hattr hvalue
    exact ⟨(itemByte_item1 _ w (by decide)).symm.trans hattr,
      (itemByte_item1 _ w (by decide)).symm.trans hvalue⟩
  · intro h
    refine ⟨hlen, hdistinct, hlegal, ?_, ?_⟩
    · intro m p hp
      have hslots := slots_withPercents (.plain r.item0) hlen hp
      cases hw : r.written with
      | none =>
        rw [assemble, hw]
        exact hslots
      | some w =>
        rw [hsome w hw]
        cases m with
        | zero =>
          obtain ⟨hattr, hvalue⟩ := h w p hw ((hfirst p).mpr hp)
          exact ⟨(itemByte_item1 _ w (by decide)).trans hattr,
            (itemByte_item1 _ w (by decide)).trans hvalue⟩
        | succ m =>
          rw [itemByte_item1_later _ w (by omega), itemByte_item1_later _ w (by omega)]
          exact hslots
    · intro w hw
      rw [hsome w hw]
      exact itemByte_item1 _ w (by decide)

end Carrying

/-- A generator's weapons carry what is rolled for them. -/
def Meets (generate : Gen (Option ItemWords)) (rolls : Gen (Option Rolls)) (rng : Rng) : Prop :=
  ∀ it, (generate rng).1 = some it → ∃ r, (rolls rng).1 = some r ∧ Carries r it

section Weapons

variable (rules : ItemRules) (scale : BitVec 32) (v1 : Bool) (ent : PtEntry) (area : ℤ)
  (picked : Option (BitVec 32)) (rng : Rng)

theorem rollRest_legal (item0 : BitVec 32) (warea : ℤ) (semirare marked : Bool) :
    Ensures (rollRest rules scale ent area item0 warea semirare marked) fun o =>
      ∀ r, o = some r → r.rolled.length ≤ 3 ∧ (r.rolled.map Prod.fst).Nodup ∧
        ∀ p ∈ r.rolled, Legal p := by
  intro rng
  rw [rollRest]
  simp only [bind_run, genrand_run]
  cases pick 100 ((List.range 9).map fun i => (ent.powerPattern i warea).signExtend 32)
    (rng 0 % 100) with
  | none =>
    intro r hr
    cases hr
  | some i =>
    intro r hr
    cases hr
    exact ⟨length_rollPercents [0, 1, 2] [] _, rollPercents_legal [0, 1, 2] _⟩

theorem rollWeapon_legal :
    Ensures (rollWeapon rules scale v1 ent area picked) fun o =>
      ∀ r, o = some r → r.rolled.length ≤ 3 ∧ (r.rolled.map Prod.fst).Nodup ∧
        ∀ p ∈ r.rolled, Legal p := by
  intro rng
  unfold rollWeapon
  cases picked with
  | some item0 => exact rollRest_legal rules scale ent area item0 3 _ _ rng
  | none =>
    simp only [bind_run]
    cases (weaponBase ent area rng).1 with
    | none =>
      intro r hr
      cases hr
    | some base =>
      dsimp only
      by_cases hzero : base.1 = 0
      · rw [if_pos hzero]
        intro r hr
        cases hr
      · rw [if_neg hzero]
        exact rollRest_legal rules scale ent area base.1 base.2 _ _ _

/-- A weapon carries its rolls exactly when its element or mark does not disturb them. -/
theorem meets_iff :
    Meets (generateWeapon rules scale v1 ent area picked)
        (rollWeapon rules scale v1 ent area picked) rng ↔
      ∀ r, (rollWeapon rules scale v1 ent area picked rng).1 = some r → Undisturbed r := by
  have hlegal := rollWeapon_legal rules scale v1 ent area picked rng
  rw [Meets, generateWeapon_eq]
  simp only [bind_run, pure_run]
  cases hroll : (rollWeapon rules scale v1 ent area picked rng).1 with
  | none =>
    constructor
    · intro _ r hr
      cases hr
    · intro _ it hit
      cases hit
  | some r =>
    obtain ⟨hlen, hdistinct, hall⟩ := hlegal r hroll
    have hcarries := carries_assemble_iff hlen hdistinct hall
    constructor
    · intro h r' hr'
      cases hr'
      obtain ⟨r', hr', hcarried⟩ := h _ rfl
      cases hr'
      exact hcarries.mp hcarried
    · intro h it hit
      cases hit
      exact ⟨r, rfl, hcarries.mpr (h r rfl)⟩

/-- `generate_weapon_v2` and `generate_weapon_v3` alike. -/
theorem generateWeapon_carries_iff :
    (Meets (generateWeaponV2 rules v1 ent area picked)
        (rollWeapon rules 100 v1 ent area picked) rng ↔
      ∀ r, (rollWeapon rules 100 v1 ent area picked rng).1 = some r → Undisturbed r) ∧
    (Meets (generateWeaponV3 rules ent area picked)
        (rollWeapon rules 10000 false ent area picked) rng ↔
      ∀ r, (rollWeapon rules 10000 false ent area picked rng).1 = some r → Undisturbed r) :=
  ⟨meets_iff rules 100 v1 ent area picked rng, meets_iff rules 10000 false ent area picked rng⟩

end Weapons

/-- A table whose weapons get 5% of the first attribute and an element. -/
def luckyEntry : PtEntry where
  weaponRatio _ := 0
  weaponMinrank _ := 0
  weaponUpgfloor _ := 0
  powerPattern _ _ := 100
  percentPattern j _ := if j = 3 then 100 else 0
  areaPattern i _ := if i = 0 then 0 else -1
  percentAttachment k _ := if k = 1 then 100 else 0
  elementRanking _ := 1
  elementProbability _ := 100
  armorRanking _ := 0
  slotRanking _ := 0
  unitLevel _ := 0
  toolFrequency _ _ := 0
  techFrequency _ _ := 0
  techLevels _ _ := 0
  enemyDar _ := 0
  enemyMeseta _ := (0, 0)
  enemyDrop _ := 0
  boxMeseta _ := (0, 0)
  boxDrop _ _ := 0
  armorLevel := 0

def someRules : ItemRules where
  attrList _ _ := 1
  isStackable _ := false
  realBelow _ _ := false

/-- The element takes the place of the percentage. -/
theorem not_meets : ¬∀ rules v1 ent area picked rng,
    Meets (generateWeaponV2 rules v1 ent area picked)
      (rollWeapon rules 100 v1 ent area picked) rng := by
  intro h
  have hroll : (rollWeapon someRules 100 false luckyEntry 0 (some 0x00000100) fun _ => 0).1 =
      some ⟨0x00000100, [(1, 5)], some 0x81⟩ := rfl
  have hitem : (generateWeaponV2 someRules false luckyEntry 0 (some 0x00000100) fun _ => 0).1 =
      some ⟨0x00000100, 0x81, 0, 0⟩ := rfl
  obtain ⟨r, hr, hcarries⟩ := h someRules false luckyEntry 0 (some 0x00000100) (fun _ => 0) _ hitem
  rw [hroll] at hr
  cases hr
  exact absurd (hcarries.slots 0 (1, 5) rfl).1 (by decide)

end ShipServer.WeaponRolls
