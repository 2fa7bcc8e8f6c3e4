import ShipServer.BlueBurstMoves

set_option autoImplicit false

/-! The units of a frame, when items leave the inventory or are taken off. -/

namespace ShipServer.EquippedUnits

open BoundedLists Items Versions BlueBurstGame BlueBurstMoves

/-- `subcmd_bb_equip_t`. -/
structure EquipPkt where
  pktLen : BitVec 16
  size : BitVec 8
  clientId : BitVec 8
  itemId : BitVec 32

def isFrame (it : Item) : Bool :=
  it.type = itemTypeGuard ∧ it.subtype = itemSubtypeFrame

def isUnit (it : Item) : Bool :=
  it.type = itemTypeGuard ∧ it.subtype = itemSubtypeUnit

def isEquipped (it : Item) : Bool :=
  it.flags &&& 0x00000008 ≠ 0

def handleBbUnequip (c : BbClient) (l : GameLobby) (pkt : EquipPkt) : Int × BbClient :=
  if l.type = .lobby then
    (-1, c)
  else if pkt.pktLen ≠ 0x14 ∨ pkt.size ≠ 0x03 ∨ pkt.clientId.toNat ≠ c.clientId then
    (-1, c)
  else
    match itemIndex c.inv pkt.itemId with
    | none => (-1, c)
    | some i =>
      let it := c.inv.toList.get i
      let inv := c.inv.set i (clearEquipped it)
      (0, { c with inv := if isFrame it then inv.map unequipUnit else inv })

/-- The id that the other members are told of after a deposit. The loop over the units leaves the
last item of the inventory in the variable that held the deposited one. -/
def destroyedId (item : Item) (inv : Inventory) : BitVec 32 :=
  if isEquippedFrame item then (inv.toList.getLast?.getD item).itemId else item.itemId

/-- The announcement of a deposit of an item. -/
def announced (c : BbClient) (pkt : BankActPkt) : Option (BitVec 32) :=
  (itemIndex c.inv pkt.itemId).map fun i =>
    destroyedId (c.inv.toList.get i)
      (itemRemoveFromInv c.inv pkt.itemId (pkt.itemAmount.setWidth 32)).2

/-- What takes an item out of the inventory or off the character. The value that the uninitialised
flag of a drop happens to have travels with it. -/
inductive Action where
  | drop (pkt : DropItemPkt) (isframe : Bool)
  | deposit (pkt : BankActPkt)
  | unequip (pkt : EquipPkt)

namespace Action

def itemId : Action → BitVec 32
  | drop pkt _ => pkt.itemId
  | deposit pkt => pkt.itemId
  | unequip pkt => pkt.itemId

/-- The action is about an item. -/
def isItem : Action → Prop
  | deposit pkt => pkt.action = subcmdBankActDeposit ∧ pkt.itemId ≠ mesetaId
  | _ => True

def run (c : BbClient) (l : GameLobby) : Action → Int × BbClient
  | drop pkt isframe => ((handleBbDropItem c l pkt isframe).1, (handleBbDropItem c l pkt isframe).2.1)
  | deposit pkt => ((handleBbBankAction c l pkt).1, (handleBbBankAction c l pkt).2.1)
  | unequip pkt => handleBbUnequip c l pkt

end Action

/-- The items beside the one at some position, which is gone if the inventory is shorter. -/
def others (before after : Inventory) (i : ℕ) : List Item :=
  if after.toList.length < before.toList.length then after.toList else after.toList.eraseIdx i

/-- The units go with an equipped frame, and only with one. -/
structure Follows (before after : Inventory) (i : Fin before.toList.length) : Prop where
  frame : isEquippedFrame (before.toList.get i) = true →
    ∀ it ∈ after.toList, isUnit it = true → isEquipped it = false
  other : isEquippedFrame (before.toList.get i) = false →
    (others before after i).map isEquipped = (before.toList.eraseIdx i).map isEquipped

/-- After an action that succeeds the units follow the frame, and a deposit announces the item that
is deposited. -/
def UnitsFollow (c : BbClient) (l : GameLobby) (a : Action) : Prop :=
  a.isItem → (a.run c l).1 = 0 → ∀ i, itemIndex c.inv a.itemId = some i →
    Follows c.inv (a.run c l).2.inv i ∧
      ∀ pkt, a = .deposit pkt → announced c pkt = some pkt.itemId

/-- No unit beside the item is equipped. -/
def NoUnits (inv : Inventory) (i : ℕ) : Prop :=
  ∀ it ∈ inv.toList.eraseIdx i, isUnit it = true → isEquipped it = false

/-- The checks that an action passes. -/
def Accepted (c : BbClient) (l : GameLobby) (i : Fin c.inv.toList.length) : Action → Prop
  | .drop pkt _ => l.type ≠ .lobby ∧ pkt.pktLen = 0x20 ∧ pkt.size = 0x06 ∧
      pkt.clientId.toNat = c.clientId ∧ l.version = .bb
  | .deposit pkt => ReachesBank c l pkt i ∧ c.bank.toList.length < 200
  | .unequip pkt => l.type ≠ .lobby ∧ pkt.pktLen = 0x14 ∧ pkt.size = 0x03 ∧
      pkt.clientId.toNat = c.clientId

/-- A drop of something else finds its flag clear or no units, a frame is deposited out of an
inventory without other items or with one of the same id at the end, and a frame is taken off that
is equipped or has no units. -/
def Kept (c : BbClient) (i : Fin c.inv.toList.length) : Action → Prop
  | .drop _ isframe =>
    isEquippedFrame (c.inv.toList.get i) = true ∨ isframe = false ∨ NoUnits c.inv i
  | .deposit pkt =>
    isEquippedFrame (c.inv.toList.get i) = false ∨
      ∀ it ∈ (c.inv.toList.eraseIdx i).getLast?, it.itemId = pkt.itemId
  | .unequip _ =>
    isFrame (c.inv.toList.get i) = false ∨ isEquipped (c.inv.toList.get i) = true ∨
      NoUnits c.inv i

/-- An action that is accepted is one of those that keep the units right. -/
def UnitsKept (c : BbClient) (l : GameLobby) (a : Action) : Prop :=
  ∀ i, itemIndex c.inv a.itemId = some i → Accepted c l i a → Kept c i a

section Flags

theorem isEquipped_clearEquipped (it : Item) : isEquipped (clearEquipped it) = false := by
  refine decide_eq_false (not_not.mpr ?_)
  change it.flags &&& 0xFFFFFFF7 &&& 0x00000008 = 0
  rw [BitVec.and_assoc]
  exact BitVec.and_zero

theorem isUnit_unequipUnit (it : Item) : isUnit (unequipUnit it) = isUnit it := by
  rw [unequipUnit]
  split_ifs <;> rfl

theorem unequipUnit_of_unit {it : Item} (h : isUnit it = true) :
    unequipUnit it = clearEquipped it :=
  if_pos (of_decide_eq_true h)

theorem unequipUnit_of_not_unit {it : Item} (h : ¬isUnit it = true) : unequipUnit it = it :=
  if_neg fun h' => h (decide_eq_true h')

/-- No unit is equipped afterwards. -/
theorem unequipped_map (l : List Item) :
    ∀ it ∈ l.map unequipUnit, isUnit it = true → isEquipped it = false := by
  intro it hit hunit
  obtain ⟨x, -, rfl⟩ := List.mem_map.mp hit
  rw [isUnit_unequipUnit] at hunit
  rw [unequipUnit_of_unit hunit]
  exact isEquipped_clearEquipped x

/-- Taking off the units changes nothing exactly if none is equipped. -/
theorem map_unequipUnit_iff (l : List Item) :
    (l.map unequipUnit).map isEquipped = l.map isEquipped ↔
      ∀ it ∈ l, isUnit it = true → isEquipped it = false := by
  rw [List.map_map, List.map_inj_left]
  refine forall₂_congr fun it _ => ?_
  rw [Function.comp_apply]
  by_cases hunit : isUnit it = true
  · rw [unequipUnit_of_unit hunit, isEquipped_clearEquipped]
    exact ⟨fun h _ => h.symm, fun h => (h hunit).symm⟩
  · rw [unequipUnit_of_not_unit hunit]
    exact iff_of_true rfl fun h => absurd h hunit

theorem isEquippedFrame_iff (it : Item) :
    isEquippedFrame it = true ↔ isFrame it = true ∧ isEquipped it = true := by
  simp [isEquippedFrame, isFrame, isEquipped]

/-- A frame is no stack. -/
theorem not_stackable_of_frame {it : Item} (h : isEquippedFrame it = true) :
    itemIsStackable it.dataL0 = false := by
  have htype : it.dataL0.extractLsb' 0 8 = 0x01 :=
    (of_decide_eq_true ((isEquippedFrame_iff it).mp h).1).1
  have hlow : ¬it.dataL0 &&& 0x000000FF = 0x03 := by
    intro hand
    have hbyte := congrArg (BitVec.extractLsb' 0 8) hand
    rw [BitVec.extractLsb'_and, htype] at hbyte
    exact absurd hbyte (by decide)
  rw [itemIsStackable, if_neg hlow]

end Flags

/-! What the actions leave of the inventory. -/

section Results

variable {c : BbClient} {l : GameLobby}

/-- The inventory with the units taken off, or as it is. -/
def offUnits (flag : Bool) (inv : List Item) : List Item :=
  if flag = true then inv.map unequipUnit else inv

theorem eraseIdx_offUnits (flag : Bool) (inv : List Item) (i : ℕ) :
    (offUnits flag inv).eraseIdx i = offUnits flag (inv.eraseIdx i) := by
  rw [offUnits, offUnits]
  split_ifs
  · exact List.eraseIdx_map ..
  · rfl

theorem length_eraseIdx_lt {inv : List Item} (i : Fin inv.length) :
    (inv.eraseIdx i).length < inv.length := by
  rw [List.length_eraseIdx_of_lt i.isLt]
  exact Nat.sub_lt (by have := i.isLt; omega) Nat.one_pos

theorem offUnits_iff (flag : Bool) (inv : List Item) :
    (offUnits flag inv).map isEquipped = inv.map isEquipped ↔
      flag = false ∨ ∀ it ∈ inv, isUnit it = true → isEquipped it = false := by
  rw [offUnits]
  split_ifs with h
  · rw [map_unequipUnit_iff, h]
    exact (or_iff_right (by decide)).symm
  · exact iff_of_true rfl (Or.inl (Bool.eq_false_of_not_eq_true h))

theorem error_ne : (-1 : Int) ≠ 0 := by
  decide

theorem drop_accepted {pkt : DropItemPkt} {isframe : Bool} {i : Fin c.inv.toList.length}
    (hi : itemIndex c.inv pkt.itemId = some i) (h : Accepted c l i (.drop pkt isframe)) :
    (handleBbDropItem c l pkt isframe).1 = 0 ∧
      (handleBbDropItem c l pkt isframe).2.1.inv.toList =
        offUnits (isframe || isEquippedFrame (c.inv.toList.get i)) (c.inv.toList.eraseIdx i) := by
  obtain ⟨htype, hlen, hsize, hid, hver⟩ := h
  have hchecks : ¬(pkt.pktLen ≠ 0x20 ∨ pkt.size ≠ 0x06 ∨ pkt.clientId.toNat ≠ c.clientId) := by
    rintro (h | h | h)
    · exact h hlen
    · exact h hsize
    · exact h hid
  generalize hframe : (isframe || isEquippedFrame (c.inv.toList.get i)) = frame
  have hsame : itemDatas (if frame then (c.inv.set i (clearEquipped (c.inv.toList.get i))).map
      unequipUnit else c.inv.set i (clearEquipped (c.inv.toList.get i))).toList =
      itemDatas c.inv.toList :=
    (itemDatas_unequipped _ frame).trans (itemDatas_set_clearEquipped c.inv.toList i)
  obtain ⟨j, hji, hj⟩ := itemIndex_congr hsame hi
  have hresult : ∃ l', handleBbDropItem c l pkt isframe =
      (0, { c with inv := (if frame then (c.inv.set i (clearEquipped (c.inv.toList.get i))).map
        unequipUnit else c.inv.set i (clearEquipped (c.inv.toList.get i))).eraseIdx j }, l') := by
    rw [handleBbDropItem, if_neg htype, if_neg hchecks, hi]
    simp only [List.get_eq_getElem] at hframe hj
    simp only [Fin.getElem_fin, hframe, lobbyAddItem2Locked_bb _ hver, itemRemoveFromInv_all hj]
    exact ⟨_, rfl⟩
  obtain ⟨l', hresult⟩ := hresult
  rw [hresult]
  refine ⟨rfl, ?_⟩
  rw [BoundedList.toList_eraseIdx, hji]
  cases frame with
  | false => exact List.eraseIdx_set_eq ..
  | true =>
    change ((c.inv.toList.set i _).map unequipUnit).eraseIdx i =
      (c.inv.toList.eraseIdx i).map unequipUnit
    rw [List.eraseIdx_map, List.eraseIdx_set_eq]

theorem drop_refused {pkt : DropItemPkt} {isframe : Bool} {i : Fin c.inv.toList.length}
    (hi : itemIndex c.inv pkt.itemId = some i) (h : ¬Accepted c l i (.drop pkt isframe)) :
    (handleBbDropItem c l pkt isframe).1 ≠ 0 := by
  rw [handleBbDropItem]
  split_ifs with htype hchecks
  · exact error_ne
  · exact error_ne
  · have hver : l.version ≠ .bb := by
      intro hver
      obtain ⟨hlen, hrest⟩ := not_or.mp hchecks
      obtain ⟨hsize, hid⟩ := not_or.mp hrest
      exact h ⟨htype, not_not.mp hlen, not_not.mp hsize, not_not.mp hid, hver⟩
    rw [hi]
    simp only [lobbyAddItem2Locked_other _ hver]
    exact error_ne

theorem unequip_accepted {pkt : EquipPkt} {i : Fin c.inv.toList.length}
    (hi : itemIndex c.inv pkt.itemId = some i) (h : Accepted c l i (.unequip pkt)) :
    (handleBbUnequip c l pkt).1 = 0 ∧
      (handleBbUnequip c l pkt).2.inv.toList = offUnits (isFrame (c.inv.toList.get i))
        (c.inv.toList.set i (clearEquipped (c.inv.toList.get i))) := by
  obtain ⟨htype, hlen, hsize, hid⟩ := h
  have hchecks : ¬(pkt.pktLen ≠ 0x14 ∨ pkt.size ≠ 0x03 ∨ pkt.clientId.toNat ≠ c.clientId) := by
    rintro (h | h | h)
    · exact h hlen
    · exact h hsize
    · exact h hid
  rw [handleBbUnequip, if_neg htype, if_neg hchecks, hi]
  refine ⟨rfl, ?_⟩
  change (if isFrame (c.inv.toList.get i) = true then
    (c.inv.set i (clearEquipped (c.inv.toList.get i))).map unequipUnit
    else c.inv.set i (clearEquipped (c.inv.toList.get i))).toList = _
  rw [offUnits]
  split_ifs <;> rfl

theorem unequip_refused {pkt : EquipPkt} {i : Fin c.inv.toList.length}
    (h : ¬Accepted c l i (.unequip pkt)) : (handleBbUnequip c l pkt).1 ≠ 0 := by
  rw [handleBbUnequip]
  split_ifs with htype hchecks
  · exact error_ne
  · exact error_ne
  · obtain ⟨hlen, hrest⟩ := not_or.mp hchecks
    obtain ⟨hsize, hid⟩ := not_or.mp hrest
    exact absurd ⟨htype, not_not.mp hlen, not_not.mp hsize, not_not.mp hid⟩ h

/-- Part of a stack stays, or the entry goes. -/
theorem itemRemoveFromInv_cases {inv : Inventory} {itemId a : BitVec 32}
    {i : Fin inv.toList.length} (hi : itemIndex inv itemId = some i) :
    itemRemoveFromInv inv itemId a = (1, inv.eraseIdx i) ∨
      itemIsStackable (inv.toList.get i).dataL0 = true ∧
        ∃ it, itemRemoveFromInv inv itemId a = (0, inv.set i it) := by
  rw [itemRemoveFromInv, hi]
  dsimp only
  split_ifs with h
  · exact Or.inr ⟨h.1, _, rfl⟩
  · exact Or.inl rfl

theorem itemDepositToBank_nonneg {bank : Bank} (it : BankItem) (h : bank.toList.length < 200) :
    ¬(itemDepositToBank bank it).1 < 0 := by
  rw [itemDepositToBank, dif_pos h]
  split_ifs
  · split
    · exact Int.not_lt.mpr le_rfl
    · exact Int.not_lt.mpr Int.one_nonneg
  · exact Int.not_lt.mpr Int.one_nonneg

theorem itemDepositToBank_full {bank : Bank} (it : BankItem) (h : ¬bank.toList.length < 200) :
    itemDepositToBank bank it = (-1, bank) := by
  rw [itemDepositToBank, dif_neg h]

/-- What a deposit does once its item is found. -/
theorem bankDeposit_found {pkt : BankActPkt} {i : Fin c.inv.toList.length}
    (h : ReachesBank c l pkt i) :
    (bankDeposit c pkt).1 = (if (itemDepositToBank c.bank
        (depositItem (c.inv.toList.get i) pkt.itemAmount)).1 < 0 then -1 else 0) ∧
      (bankDeposit c pkt).2.inv.toList = offUnits (isEquippedFrame (c.inv.toList.get i))
        (itemRemoveFromInv c.inv pkt.itemId (pkt.itemAmount.setWidth 32)).2.toList := by
  obtain ⟨-, -, -, -, hmeseta, hi, hamount⟩ := h
  have hsingle : ¬(itemIsStackable (c.inv.toList.get i).dataL0 = false ∧ 1 < pkt.itemAmount) := by
    rintro ⟨hstack, hlt⟩
    exact absurd (hamount hstack) (BitVec.not_le.mpr hlt)
  rw [bankDeposit, if_neg hmeseta, hi]
  simp only [Fin.getElem_fin, List.get_eq_getElem] at hsingle ⊢
  rw [if_neg hsingle]
  rcases itemRemoveFromInv_cases (a := pkt.itemAmount.setWidth 32) hi with hr | ⟨-, it, hr⟩
  · have hone : ¬((1 : Int) < 0 ∨ (1 : Int) < 1) := by decide
    rw [hr]
    dsimp only
    rw [if_neg hone]
    refine ⟨rfl, ?_⟩
    rw [offUnits]
    split_ifs <;> rfl
  · have hzero : ¬((0 : Int) < 0 ∨ (1 : Int) < 0) := by decide
    rw [hr]
    dsimp only
    rw [if_neg hzero]
    refine ⟨rfl, ?_⟩
    rw [offUnits]
    split_ifs <;> rfl

theorem bankAction_deposit {pkt : BankActPkt} {i : Fin c.inv.toList.length}
    (h : ReachesBank c l pkt i) :
    handleBbBankAction c l pkt = ((bankDeposit c pkt).1, (bankDeposit c pkt).2, l) := by
  obtain ⟨htype, hlen, hsize, haction, -⟩ := h
  have hchecks : ¬(pkt.pktLen ≠ 0x18 ∨ pkt.size ≠ 0x04) := by
    rintro (h | h)
    · exact h hlen
    · exact h hsize
  have hclose : ¬(pkt.action = subcmdBankActClose ∨ pkt.action = subcmdBankActDone) := by
    rw [haction]
    decide
  rw [handleBbBankAction, if_neg htype, if_neg hchecks, if_neg hclose, if_pos haction]

theorem deposit_accepted {pkt : BankActPkt} {i : Fin c.inv.toList.length}
    (h : Accepted c l i (.deposit pkt)) :
    (handleBbBankAction c l pkt).1 = 0 ∧
      (handleBbBankAction c l pkt).2.1.inv.toList = offUnits (isEquippedFrame (c.inv.toList.get i))
        (itemRemoveFromInv c.inv pkt.itemId (pkt.itemAmount.setWidth 32)).2.toList := by
  obtain ⟨hreach, hroom⟩ := h
  obtain ⟨hresult, hinv⟩ := bankDeposit_found hreach
  rw [bankAction_deposit hreach]
  refine ⟨?_, hinv⟩
  rw [hresult, if_neg (itemDepositToBank_nonneg _ hroom)]

theorem deposit_refused {pkt : BankActPkt} {i : Fin c.inv.toList.length}
    (hitem : (Action.deposit pkt).isItem) (hi : itemIndex c.inv pkt.itemId = some i)
    (h : ¬Accepted c l i (.deposit pkt)) : (handleBbBankAction c l pkt).1 ≠ 0 := by
  obtain ⟨haction, hmeseta⟩ := hitem
  by_cases hreach : ReachesBank c l pkt i
  · have hfull : ¬c.bank.toList.length < 200 := fun hroom => h ⟨hreach, hroom⟩
    rw [bankAction_deposit hreach, (bankDeposit_found hreach).1, itemDepositToBank_full _ hfull]
    exact error_ne
  · rw [handleBbBankAction]
    split_ifs with htype hchecks hclose
    · exact error_ne
    · exact error_ne
    · rw [haction] at hclose
      exact absurd hclose (by decide)
    · obtain ⟨hlen, hsize⟩ := not_or.mp hchecks
      have hmany : itemIsStackable (c.inv.toList.get i).dataL0 = false ∧ 1 < pkt.itemAmount := by
        by_contra hno
        refine hreach ⟨htype, not_not.mp hlen, not_not.mp hsize, haction, hmeseta, hi, ?_⟩
        intro hstack
        by_contra hle
        exact hno ⟨hstack, BitVec.not_le.mp hle⟩
      change (bankDeposit c pkt).1 ≠ 0
      rw [bankDeposit, if_neg hmeseta, hi]
      simp only [Fin.getElem_fin, List.get_eq_getElem] at hmany ⊢
      rw [if_pos hmany]
      exact error_ne

end Results

/-! When the units follow the frame. -/

section Conditions

variable {c : BbClient} {l : GameLobby}

theorem length_offUnits (flag : Bool) (inv : List Item) :
    (offUnits flag inv).length = inv.length := by
  rw [offUnits]
  split_ifs
  · exact List.length_map _
  · rfl

theorem follows_iff {inv inv' : Inventory} {i : Fin inv.toList.length} {flag : Bool}
    (hothers : others inv inv' i = offUnits flag (inv.toList.eraseIdx i))
    (hunits : isEquippedFrame (inv.toList.get i) = true →
      ∀ it ∈ inv'.toList, isUnit it = true → isEquipped it = false) :
    Follows inv inv' i ↔ isEquippedFrame (inv.toList.get i) = true ∨ flag = false ∨
      NoUnits inv i := by
  have hother := offUnits_iff flag (inv.toList.eraseIdx i)
  by_cases hframe : isEquippedFrame (inv.toList.get i) = true
  · refine iff_of_true ⟨hunits, fun hno => ?_⟩ (Or.inl hframe)
    rw [hframe] at hno
    cases hno
  · have hno := Bool.eq_false_of_not_eq_true hframe
    rw [or_iff_right hframe]
    constructor
    · intro hfollows
      have hsame := hfollows.other hno
      rw [hothers] at hsame
      exact hother.mp hsame
    · intro hkept
      refine ⟨fun hyes => absurd hyes hframe, fun _ => ?_⟩
      rw [hothers]
      exact hother.mpr hkept

theorem unequipped_offUnits {inv inv' : List Item} {flag : Bool} (h : inv' = offUnits flag inv)
    (hflag : flag = true) : ∀ it ∈ inv', isUnit it = true → isEquipped it = false := by
  rw [h, hflag]
  exact unequipped_map inv

theorem others_gone {inv inv' : Inventory} {i : Fin inv.toList.length} {flag : Bool}
    (h : inv'.toList = offUnits flag (inv.toList.eraseIdx i)) :
    others inv inv' i = offUnits flag (inv.toList.eraseIdx i) := by
  have hlt : inv'.toList.length < inv.toList.length := by
    rw [h, length_offUnits]
    exact length_eraseIdx_lt i
  rw [others, if_pos hlt, h]

theorem others_stay {inv inv' : Inventory} {i : ℕ} {flag : Bool} {it : Item}
    (h : inv'.toList = offUnits flag (inv.toList.set i it)) :
    others inv inv' i = offUnits flag (inv.toList.eraseIdx i) := by
  have hle : ¬inv'.toList.length < inv.toList.length := by
    rw [h, length_offUnits, List.length_set]
    exact lt_irrefl _
  rw [others, if_neg hle, h, eraseIdx_offUnits, List.eraseIdx_set_eq]

theorem drop_follows {pkt : DropItemPkt} {isframe : Bool} {i : Fin c.inv.toList.length}
    (hi : itemIndex c.inv pkt.itemId = some i) (h : Accepted c l i (.drop pkt isframe)) :
    Follows c.inv (handleBbDropItem c l pkt isframe).2.1.inv i ↔ Kept c i (.drop pkt isframe) := by
  obtain ⟨-, hinv⟩ := drop_accepted hi h
  rw [follows_iff (others_gone hinv)
    fun hframe => unequipped_offUnits hinv (by rw [hframe, Bool.or_true])]
  change _ ↔ isEquippedFrame (c.inv.toList.get i) = true ∨ isframe = false ∨ NoUnits c.inv i
  by_cases hframe : isEquippedFrame (c.inv.toList.get i) = true
  · exact iff_of_true (Or.inl hframe) (Or.inl hframe)
  · rw [Bool.eq_false_of_not_eq_true hframe, Bool.or_false]

theorem unequip_follows {pkt : EquipPkt} {i : Fin c.inv.toList.length}
    (hi : itemIndex c.inv pkt.itemId = some i) (h : Accepted c l i (.unequip pkt)) :
    Follows c.inv (handleBbUnequip c l pkt).2.inv i ↔ Kept c i (.unequip pkt) := by
  obtain ⟨-, hinv⟩ := unequip_accepted hi h
  have hparts := isEquippedFrame_iff (c.inv.toList.get i)
  rw [follows_iff (others_stay hinv)
    fun hframe => unequipped_offUnits hinv (hparts.mp hframe).1, hparts]
  change _ ↔ isFrame (c.inv.toList.get i) = false ∨ isEquipped (c.inv.toList.get i) = true ∨
    NoUnits c.inv i
  by_cases hframe : isFrame (c.inv.toList.get i) = true
  · rw [hframe]
    simp only [true_and, Bool.true_eq_false, false_or]
  · have hno := Bool.eq_false_of_not_eq_true hframe
    exact iff_of_true (Or.inr (Or.inl hno)) (Or.inl hno)

/-- After a deposit the units are as they should be. -/
theorem deposit_follows {pkt : BankActPkt} {i : Fin c.inv.toList.length}
    (h : Accepted c l i (.deposit pkt)) :
    Follows c.inv (handleBbBankAction c l pkt).2.1.inv i := by
  obtain ⟨-, hinv⟩ := deposit_accepted h
  obtain ⟨⟨-, -, -, -, -, hi, -⟩, -⟩ := h
  rcases itemRemoveFromInv_cases (a := pkt.itemAmount.setWidth 32) hi with hr | ⟨hstack, it, hr⟩
  · rw [hr] at hinv
    rw [follows_iff (others_gone hinv) (unequipped_offUnits hinv)]
    by_cases hframe : isEquippedFrame (c.inv.toList.get i) = true
    · exact Or.inl hframe
    · exact Or.inr (Or.inl (Bool.eq_false_of_not_eq_true hframe))
  · have hframe : isEquippedFrame (c.inv.toList.get i) = false := by
      refine Bool.eq_false_of_not_eq_true fun hframe => ?_
      rw [not_stackable_of_frame hframe] at hstack
      cases hstack
    rw [hr] at hinv
    rw [follows_iff (others_stay hinv) (unequipped_offUnits hinv)]
    exact Or.inr (Or.inl hframe)

/-- A deposit announces the item that is deposited, unless it is a frame with items behind it. -/
theorem announced_iff {pkt : BankActPkt} {i : Fin c.inv.toList.length}
    (hi : itemIndex c.inv pkt.itemId = some i) :
    announced c pkt = some pkt.itemId ↔ Kept c i (.deposit pkt) := by
  have hid : (c.inv.toList.get i).itemId = pkt.itemId := itemId_of_itemIndex hi
  change _ ↔ isEquippedFrame (c.inv.toList.get i) = false ∨
    ∀ it ∈ (c.inv.toList.eraseIdx i).getLast?, it.itemId = pkt.itemId
  rw [announced, hi, Option.map_some, Option.some_inj, destroyedId]
  by_cases hframe : isEquippedFrame (c.inv.toList.get i) = true
  · rw [if_pos hframe, hframe]
    rcases itemRemoveFromInv_cases (a := pkt.itemAmount.setWidth 32) hi with
      hr | ⟨hstack, it, hr⟩
    · rw [hr, BoundedList.toList_eraseIdx, or_iff_right (by decide)]
      cases (c.inv.toList.eraseIdx i).getLast? with
      | none => exact iff_of_true hid fun it hit => nomatch hit
      | some it => exact ⟨fun h it' hit' => Option.some.inj hit' ▸ h, fun h => h it rfl⟩
    · rw [not_stackable_of_frame hframe] at hstack
      cases hstack
  · rw [if_neg hframe]
    exact iff_of_true hid (Or.inl (Bool.eq_false_of_not_eq_true hframe))

/-- The units follow the frame, and deposits are announced as they are, exactly for the actions
that meet their condition. -/
theorem unitsFollow_iff (c : BbClient) (l : GameLobby) (a : Action) :
    UnitsFollow c l a ↔ UnitsKept c l a := by
  cases a with
  | drop pkt isframe =>
    constructor
    · intro h i hi hok
      exact (drop_follows hi hok).mp (h trivial (drop_accepted hi hok).1 i hi).1
    · intro h _ hrv i hi
      have hok : Accepted c l i (.drop pkt isframe) := by
        by_contra hno
        exact drop_refused hi hno hrv
      exact ⟨(drop_follows hi hok).mpr (h i hi hok), fun pkt' heq => nomatch heq⟩
  | deposit pkt =>
    constructor
    · intro h i hi hok
      have hitem : (Action.deposit pkt).isItem := ⟨hok.1.2.2.2.1, hok.1.2.2.2.2.1⟩
      exact (announced_iff hi).mp ((h hitem (deposit_accepted hok).1 i hi).2 pkt rfl)
    · intro h hitem hrv i hi
      have hok : Accepted c l i (.deposit pkt) := by
        by_contra hno
        exact deposit_refused hitem hi hno hrv
      refine ⟨deposit_follows hok, ?_⟩
      rintro pkt' ⟨⟩
      exact (announced_iff hi).mpr (h i hi hok)
  | unequip pkt =>
    constructor
    · intro h i hi hok
      exact (unequip_follows hi hok).mp (h trivial (unequip_accepted hi hok).1 i hi).1
    · intro h _ hrv i hi
      have hok : Accepted c l i (.unequip pkt) := by
        by_contra hno
        exact unequip_refused hno hrv
      exact ⟨(unequip_follows hi hok).mpr (h i hi hok), fun pkt' heq => nomatch heq⟩

end Conditions

/-- A frame that is worn, and another item behind it. -/
def wornItems : List Item :=
  [{ dataL0 := 0x00000101, dataL1 := 0, dataL2 := 0, itemId := 1, data2L := 0, equipped := 1,
      tech := 0, flags := 8 },
    { dataL0 := 0x00000201, dataL1 := 0, dataL2 := 0, itemId := 2, data2L := 0, equipped := 1,
      tech := 0, flags := 0 }]

theorem length_wornItems : wornItems.length ≤ 30 := by
  decide

def wearer : BbClient where
  clientId := 0
  inv := ⟨wornItems, length_wornItems⟩
  bank := BoundedList.nil
  meseta := 0
  plMeseta := 0
  bankMeseta := 0
  items _ :=
    { dataL0 := 0, dataL1 := 0, dataL2 := 0, itemId := 0, data2L := 0, equipped := 0, tech := 0,
      flags := 0 }
  dropItem := 0
  dropAmt := 0

def game : GameLobby where
  type := .game
  version := .bb
  maxClients := 4
  itemId := 0
  highestItem _ := 0
  itemQueue := []

def frameDeposit : BankActPkt where
  pktLen := 0x18
  size := 0x04
  itemId := 1
  mesetaAmount := 0
  action := subcmdBankActDeposit
  itemAmount := 1

theorem not_unitsFollow : ¬∀ (c : BbClient) (l : GameLobby) (a : Action), UnitsFollow c l a := by
  intro h
  have hfollow := h wearer game (.deposit frameDeposit) ⟨rfl, by decide⟩ (by decide)
    ⟨0, by decide⟩ (by decide)
  exact absurd (hfollow.2 frameDeposit rfl) (by decide)

end ShipServer.EquippedUnits
