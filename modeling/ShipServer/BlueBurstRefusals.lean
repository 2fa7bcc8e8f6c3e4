import ShipServer.BlueBurstItemIds

set_option autoImplicit false

namespace ShipServer.BlueBurstRefusals

open LabelledRuns BoundedLists Items Versions BlueBurstGame BlueBurstMoves BlueBurstItemIds

/-- The sender's inventory, bank and meseta and the floor are as they were. -/
structure SameItems (c : BbClient) (l : GameLobby) (c' : BbClient) (l' : GameLobby) : Prop where
  inv : c'.inv = c.inv
  bank : c'.bank = c.bank
  meseta : c'.meseta = c.meseta
  bankMeseta : c'.bankMeseta = c.bankMeseta
  floor : l'.itemQueue = l.itemQueue

/-- A packet whose handler returns an error has changed nothing. -/
def Atomic (c : BbClient) (l : GameLobby) (p : Packet) : Prop :=
  (handlePacket c l p).1 ≠ 0 → SameItems c l (handlePacket c l p).2.1 (handlePacket c l p).2.2

/-- An inventory takes an item with this id. -/
def Fits (inv : Inventory) (itemId : BitVec 32) : Prop :=
  inv.toList.length < 30 ∧ itemIndex inv itemId = none

/-- The carried meseta still covers the drop that was announced. -/
def DropPaid (c : BbClient) (l : GameLobby) (pkt : DestroyItemPkt) : Prop :=
  ReachesFloor c l pkt → pkt.itemId = mesetaId → pkt.amount ≤ c.meseta

/-- The checks that a pick-up packet passes before the floor is touched. -/
def ReachesItem (c : BbClient) (l : GameLobby) (pkt : PickUpPkt) (i : Fin l.itemQueue.length) :
    Prop :=
  l.type ≠ .lobby ∧ pkt.pktLen = 0x14 ∧ pkt.size = 0x03 ∧ pkt.clientId.toNat = c.clientId ∧
    l.version = .bb ∧ l.itemQueue.findFinIdx? (fun it => it.itemId = pkt.itemId) = some i

/-- Whatever is picked up is meseta or fits. -/
def PickUpFits (c : BbClient) (l : GameLobby) (pkt : PickUpPkt) : Prop :=
  ∀ i, ReachesItem c l pkt i →
    (l.itemQueue.get i).dataL0 = itemMeseta ∨ Fits c.inv (l.itemQueue.get i).itemId

/-- The bank has room for what is deposited, or nothing is taken off a stack. -/
def DepositFits (c : BbClient) (l : GameLobby) (pkt : BankActPkt) : Prop :=
  ∀ i, ReachesBank c l pkt i → c.bank.toList.length < 200 ∨
    (itemIsStackable (c.inv.toList.get i).dataL0 = true ∧ pkt.itemAmount = 0 ∧
      0 < (c.inv.toList.get i).dataB5)

/-- The first entry of the bank with the code of entry `i`. -/
def FirstOfCode (bank : Bank) (i j : Fin bank.toList.length) : Prop :=
  (bank.toList.get j).dataL0 = (bank.toList.get i).dataL0 ∧
    ∀ k < j, (bank.toList.get k).dataL0 ≠ (bank.toList.get i).dataL0

/-- The amount of an entry agrees with the size of its stack. -/
def Counted (it : BankItem) : Prop :=
  it.amount = it.dataB5.setWidth 16

/-- Taking `amt` out of entry `i` of a bank and depositing it again leads back. -/
def PutsBack (bank : Bank) (i : Fin bank.toList.length) (amt : BitVec 8) : Prop :=
  if itemIsStackable (bank.toList.get i).dataL0 ∧ amt < (bank.toList.get i).dataB5 then
    Counted (bank.toList.get i) ∧
      ((amt = 0 ∧ (bank.toList.length < 200 → ∀ j, FirstOfCode bank i j → Counted (bank.toList.get j))) ∨
        (bank.toList.length < 200 ∧ FirstOfCode bank i i))
  else
    (itemIsStackable (bank.toList.get i).dataL0 = true →
        ∀ j, j ≠ i → (bank.toList.get j).dataL0 ≠ (bank.toList.get i).dataL0) ∧
      ∀ j, i < j → (bank.toList.get j) = (bank.toList.get i)

/-- The checks that a withdrawal of an item passes before the bank is touched. -/
def ReachesEntry (c : BbClient) (l : GameLobby) (pkt : BankActPkt)
    (i : Fin c.bank.toList.length) : Prop :=
  l.type ≠ .lobby ∧ pkt.pktLen = 0x18 ∧ pkt.size = 0x04 ∧ pkt.action = subcmdBankActTake ∧
    pkt.itemId ≠ mesetaId ∧ c.bank.toList.findFinIdx? (fun x => x.itemId = pkt.itemId) = some i ∧
    (itemIsStackable c.bank.toList[i].dataL0 = true → pkt.itemAmount ≤ c.bank.toList[i].dataB5)

/-- The inventory takes what is withdrawn, or the bank takes it back as it was. -/
def TakeFits (c : BbClient) (l : GameLobby) (pkt : BankActPkt) : Prop :=
  ∀ i, ReachesEntry c l pkt i → Fits c.inv l.itemId ∨ PutsBack c.bank i pkt.itemAmount

/-- Nothing goes wrong after the first container has changed. -/
def Clean (c : BbClient) (l : GameLobby) : Packet → Prop
  | .dropItem _ _ => True
  | .dropPos _ => True
  | .dropStack pkt _ => DropPaid c l pkt
  | .pickUp pkt => PickUpFits c l pkt
  | .bankAction pkt => DepositFits c l pkt ∧ TakeFits c l pkt

theorem error_ne : (-1 : Int) ≠ 0 := by
  decide

theorem SameItems.refl (c : BbClient) (l : GameLobby) : SameItems c l c l :=
  ⟨rfl, rfl, rfl, rfl, rfl⟩

/-- The result of `item_add_to_inv` says whether the item fits; otherwise nothing happens. -/
theorem itemAddToInv_cases (inv : Inventory) (it : Item) :
    (Fits inv it.itemId ∧ 0 ≤ (itemAddToInv inv it).1) ∨
      (¬Fits inv it.itemId ∧ itemAddToInv inv it = (-1, inv)) := by
  rw [itemAddToInv, Fits]
  by_cases hroom : inv.toList.length < 30
  · rw [dif_pos hroom]
    cases hindex : itemIndex inv it.itemId with
    | some i =>
      right
      exact ⟨fun h => (nomatch h.2), rfl⟩
    | none =>
      left
      refine ⟨⟨hroom, rfl⟩, ?_⟩
      dsimp only
      by_cases hstack : itemIsStackable it.dataL0 = true
      · rw [if_pos hstack]
        cases inv.toList.findFinIdx? (fun x => x.dataL0 = it.dataL0) with
        | some i => exact le_rfl
        | none => exact zero_le_one
      · rw [if_neg hstack]
        exact zero_le_one
  · rw [dif_neg hroom]
    right
    exact ⟨fun h => hroom h.1, rfl⟩

theorem handleBbDropItem_ok {c : BbClient} {l : GameLobby} (hl : l.version = .bb)
    (pkt : DropItemPkt) (isframe : Bool) : Atomic c l (.dropItem pkt isframe) := by
  rw [Atomic]
  change (handleBbDropItem c l pkt isframe).1 ≠ 0 → SameItems c l
    (handleBbDropItem c l pkt isframe).2.1 (handleBbDropItem c l pkt isframe).2.2
  rw [handleBbDropItem]
  by_cases htype : l.type = .lobby
  · rw [if_pos htype]
    exact fun _ => .refl c l
  rw [if_neg htype]
  by_cases hsize : pkt.pktLen ≠ 0x20 ∨ pkt.size ≠ 0x06 ∨ pkt.clientId.toNat ≠ c.clientId
  · rw [if_pos hsize]
    exact fun _ => .refl c l
  rw [if_neg hsize]
  cases hfound : itemIndex c.inv pkt.itemId with
  | none => exact fun _ => .refl c l
  | some found =>
    dsimp only
    rw [lobbyAddItem2Locked_bb _ hl]
    dsimp only
    have hdatas : ∀ inv : Inventory, inv = c.inv.set found (clearEquipped c.inv.toList[found]) →
        ∀ frame : Bool, itemDatas (if frame then inv.map unequipUnit else inv).toList =
          itemDatas c.inv.toList := by
      intro inv hinv frame
      rw [itemDatas_unequipped, hinv]
      exact itemDatas_set_clearEquipped _ _
    obtain ⟨j, -, hj⟩ := itemIndex_congr (hdatas _ rfl _) hfound
    rw [itemRemoveFromInv_all hj]
    intro herror
    exact absurd rfl herror

theorem handleBbDropPos_ok (c : BbClient) (l : GameLobby) (pkt : DropPosPkt) :
    Atomic c l (.dropPos pkt) := by
  rw [Atomic]
  change (handleBbDropPos c l pkt).1 ≠ 0 → SameItems c l (handleBbDropPos c l pkt).2.1
    (handleBbDropPos c l pkt).2.2
  rw [handleBbDropPos]
  intro _
  split_ifs
  · exact .refl c l
  · exact .refl c l
  · exact .refl c l
  · exact .refl c l
  · exact ⟨rfl, rfl, rfl, rfl, rfl⟩

theorem handleBbDropStack_atomic (c : BbClient) (l : GameLobby) (pkt : DestroyItemPkt)
    (junk : Item) : Atomic c l (.dropStack pkt junk) ↔ DropPaid c l pkt := by
  rw [Atomic]
  change ((handleBbDropStack c l pkt junk).1 ≠ 0 → SameItems c l
    (handleBbDropStack c l pkt junk).2.1 (handleBbDropStack c l pkt junk).2.2) ↔ _
  rw [handleBbDropStack]
  by_cases htype : l.type = .lobby
  · rw [if_pos htype]
    exact ⟨fun _ hreaches => absurd htype hreaches.1.1, fun _ _ => .refl c l⟩
  rw [if_neg htype]
  by_cases hsize : pkt.pktLen ≠ 0x14 ∨ pkt.size ≠ 0x03 ∨ pkt.clientId.toNat ≠ c.clientId
  · rw [if_pos hsize]
    refine ⟨fun _ hreaches => ?_, fun _ _ => .refl c l⟩
    obtain ⟨⟨-, hlen, hshort, hid, -⟩, -⟩ := hreaches
    exact absurd hsize (by simp [hlen, hshort, hid])
  rw [if_neg hsize]
  cases hitem : dropStackItem c pkt junk with
  | none =>
    refine ⟨fun _ hreaches hmeseta => ?_, fun _ _ => .refl c l⟩
    simp [dropStackItem, hmeseta] at hitem
  | some itemData =>
    dsimp only
    by_cases hpos : pkt.itemId ≠ c.dropItem ∨ pkt.amount ≠ c.dropAmt
    · rw [if_pos hpos]
      refine ⟨fun _ hreaches => ?_, fun _ _ => ⟨rfl, rfl, rfl, rfl, rfl⟩⟩
      exact absurd hpos (by simp [hreaches.2.1, hreaches.2.2.1])
    rw [if_neg hpos]
    by_cases hver : l.version = .bb
    · have hbb : (raiseHighest l c.clientId).version = .bb := hver
      rw [lobbyAddItem2Locked_bb _ hbb]
      dsimp only
      by_cases hid : pkt.itemId ≠ mesetaId
      · rw [if_pos hid]
        refine ⟨fun _ _ hmeseta => absurd hmeseta hid, fun _ herror => ?_⟩
        have hfound : ¬(itemRemoveFromInv c.inv pkt.itemId pkt.amount).1 < 0 := by
          cases hi : itemIndex c.inv pkt.itemId with
          | none => simp [dropStackItem, hid, hi] at hitem
          | some i =>
            simp only [itemRemoveFromInv, hi]
            split_ifs <;> omega
        rw [if_neg hfound] at herror
        exact absurd rfl herror
      · rw [if_neg hid]
        rw [not_not] at hid
        have hreaches : ReachesFloor c l pkt := by
          simp only [not_or, not_not] at hsize hpos
          exact ⟨⟨htype, hsize.1, hsize.2.1, hsize.2.2, Or.inl hid⟩, hpos.1, hpos.2, hver⟩
        by_cases hpaid : c.meseta < pkt.amount
        · rw [if_pos hpaid]
          constructor
          · intro hsame
            have hfloor := (hsame error_ne).floor
            exact absurd hfloor (List.cons_ne_self _ _)
          · intro hclean
            exact absurd (hclean hreaches hid) (BitVec.not_le.mpr hpaid)
        · rw [if_neg hpaid]
          exact ⟨fun _ _ _ => BitVec.not_lt.mp hpaid, fun _ herror => absurd rfl herror⟩
    · have hother : (raiseHighest l c.clientId).version ≠ .bb := hver
      rw [lobbyAddItem2Locked_other _ hother]
      exact ⟨fun _ hreaches => absurd hreaches.2.2.2 hver, fun _ _ => ⟨rfl, rfl, rfl, rfl, rfl⟩⟩

theorem handleBbPickUp_atomic (c : BbClient) (l : GameLobby) (pkt : PickUpPkt) :
    Atomic c l (.pickUp pkt) ↔ PickUpFits c l pkt := by
  rw [Atomic]
  change ((handleBbPickUp c l pkt).1 ≠ 0 → SameItems c l (handleBbPickUp c l pkt).2.1
    (handleBbPickUp c l pkt).2.2) ↔ _
  rw [handleBbPickUp]
  by_cases htype : l.type = .lobby
  · rw [if_pos htype]
    exact ⟨fun _ i hreaches => absurd htype hreaches.1, fun _ _ => .refl c l⟩
  rw [if_neg htype]
  by_cases hsize : pkt.pktLen ≠ 0x14 ∨ pkt.size ≠ 0x03 ∨ pkt.clientId.toNat ≠ c.clientId
  · rw [if_pos hsize]
    refine ⟨fun _ i hreaches => ?_, fun _ _ => .refl c l⟩
    obtain ⟨-, hlen, hshort, hid, -⟩ := hreaches
    exact absurd hsize (by simp [hlen, hshort, hid])
  rw [if_neg hsize, lobbyRemoveItemLocked]
  by_cases hver : l.version ≠ .bb
  · rw [if_pos hver]
    exact ⟨fun _ i hreaches => absurd hreaches.2.2.2.2.1 hver, fun _ _ => .refl c l⟩
  rw [if_neg hver]
  cases hfind : l.itemQueue.findFinIdx? (fun it => it.itemId = pkt.itemId) with
  | none =>
    refine ⟨fun _ i hreaches => ?_, fun _ _ => .refl c l⟩
    exact absurd (hfind.symm.trans hreaches.2.2.2.2.2) (by simp)
  | some i =>
    have hreaches : ReachesItem c l pkt i := by
      simp only [not_or, not_not] at hsize hver
      exact ⟨htype, hsize.1, hsize.2.1, hsize.2.2, hver, hfind⟩
    have honly : ∀ j, ReachesItem c l pkt j → j = i := by
      intro j hj
      exact Option.some.inj (hj.2.2.2.2.2.symm.trans hfind)
    have hgone : ¬l.itemQueue.eraseIdx i = l.itemQueue := by
      intro hsame
      have hlen := congrArg List.length hsame
      rw [List.length_eraseIdx_of_lt i.isLt] at hlen
      have := i.isLt
      omega
    dsimp only
    by_cases hkind : l.itemQueue[i].dataL0 = itemMeseta
    · rw [if_pos hkind]
      refine ⟨fun _ j hj => ?_, fun _ herror => absurd rfl herror⟩
      rw [honly j hj]
      exact Or.inl hkind
    · rw [if_neg hkind]
      rcases itemAddToInv_cases c.inv (pickedUp l.itemQueue[i]) with ⟨hfits, hok⟩ | ⟨hfull, hadd⟩
      · have hok' : ¬(itemAddToInv c.inv (pickedUp l.itemQueue[i])).1 = -1 := by omega
        change ((if (itemAddToInv c.inv (pickedUp l.itemQueue[i])).1 = -1 then (-1 : Int) else 0) ≠ 0
          → _) ↔ _
        rw [if_neg hok']
        refine ⟨fun _ j hj => ?_, fun _ herror => absurd rfl herror⟩
        rw [honly j hj]
        exact Or.inr hfits
      · change ((if (itemAddToInv c.inv (pickedUp l.itemQueue[i])).1 = -1 then (-1 : Int) else 0) ≠ 0
          → _) ↔ _
        rw [hadd, if_pos rfl]
        constructor
        · intro hsame
          exact absurd (hsame error_ne).floor hgone
        · intro hclean
          rcases hclean i hreaches with hmeseta | hfits
          · exact absurd hmeseta hkind
          · exact absurd hfits hfull

theorem setDataB5_self (it : ItemData) : it.setDataB5 it.dataB5 = it := by
  have hword : it.dataL1 &&& 0xFFFF00FF ||| it.dataB5.setWidth 32 <<< 8 = it.dataL1 := by
    refine BitVec.eq_of_getLsbD_eq ?_
    intro i hi
    interval_cases i <;> simp [ItemData.dataB5]
  rw [ItemData.setDataB5, hword]

theorem setDataB5_setDataB5 (it : ItemData) (n m : BitVec 8) :
    (it.setDataB5 n).setDataB5 m = it.setDataB5 m := by
  simp only [ItemData.setDataB5, ItemData.mk.injEq, true_and, and_true]
  refine BitVec.eq_of_getLsbD_eq ?_
  intro i hi
  interval_cases i <;> simp

theorem setDataB5_eq_self (it : ItemData) (n : BitVec 8) : it.setDataB5 n = it ↔ n = it.dataB5 := by
  constructor
  · intro h
    rw [← it.dataB5_setDataB5 n, h]
  · intro h
    rw [h, setDataB5_self]

theorem not_frame_of_stackable {it : Item} (h : itemIsStackable it.dataL0 = true) :
    isEquippedFrame it = false := by
  have htool : it.dataL0 &&& 0x000000FF = 0x03 := by
    simp only [itemIsStackable] at h
    split_ifs at h with htool
    exact htool
  have htype : it.type ≠ itemTypeGuard := by
    intro hguard
    have hbyte : (it.dataL0 &&& 0x000000FF).extractLsb' 0 8 = it.type := by
      refine BitVec.eq_of_getLsbD_eq ?_
      intro i hi
      interval_cases i <;> simp [ItemData.type]
    rw [htool, hguard] at hbyte
    exact absurd hbyte (by decide)
  simp [isEquippedFrame, htype]

theorem stack_sub_eq_self (n amt : BitVec 8) :
    (n.setWidth 32 - amt.setWidth 32).setWidth 8 = n ↔ amt = 0 := by
  constructor
  · intro hsame
    bv_omega
  · intro hzero
    bv_omega

/-- A full bank refuses a deposit after the inventory has lost the item. -/
theorem deposited_inv_eq {c : BbClient} {itemId : BitVec 32} {i : Fin c.inv.toList.length}
    (hi : itemIndex c.inv itemId = some i) (amt : BitVec 8) :
    (if isEquippedFrame (c.inv.toList.get i) then
        (itemRemoveFromInv c.inv itemId (amt.setWidth 32)).2.map unequipUnit
      else (itemRemoveFromInv c.inv itemId (amt.setWidth 32)).2) = c.inv ↔
    itemIsStackable (c.inv.toList.get i).dataL0 = true ∧ amt = 0 ∧ 0 < (c.inv.toList.get i).dataB5 := by
  simp only [itemRemoveFromInv, hi, get_fin, Fin.is_lt]
  by_cases hpart : itemIsStackable c.inv.toList[i].dataL0 = true ∧
      amt.setWidth 32 ≠ (0xFFFFFFFF : BitVec 32) ∧
      amt.setWidth 32 < c.inv.toList[i].dataB5.setWidth 32
  · rw [if_pos hpart, not_frame_of_stackable hpart.1, if_neg Bool.false_ne_true]
    dsimp only
    constructor
    · intro hsame
      have hlist := congrArg BoundedList.toList hsame
      rw [BoundedList.toList_set, set_eq_self i.isLt] at hlist
      have hdata := congrArg Item.toItemData hlist
      change c.inv.toList[i].setDataB5 _ = c.inv.toList[i].toItemData at hdata
      rw [setDataB5_eq_self, stack_sub_eq_self] at hdata
      have hless := hpart.2.2
      refine ⟨hpart.1, hdata, ?_⟩
      bv_omega
    · rintro ⟨-, hzero, -⟩
      apply boundedList_ext
      rw [BoundedList.toList_set, set_eq_self i.isLt, (stack_sub_eq_self _ _).mpr hzero,
        setDataB5_self]
      rfl
  · rw [if_neg hpart]
    dsimp only
    constructor
    · intro hsame
      have hlen := congrArg (fun inv => inv.toList.length) hsame
      have hlt := i.isLt
      split_ifs at hlen
      · simp only [BoundedList.toList_map, BoundedList.toList_eraseIdx, List.length_map,
          List.length_eraseIdx_of_lt i.isLt] at hlen
        omega
      · simp only [BoundedList.toList_eraseIdx, List.length_eraseIdx_of_lt i.isLt] at hlen
        omega
    · rintro ⟨hstack, rfl, hsome⟩
      refine absurd ⟨hstack, by decide, ?_⟩ hpart
      bv_omega

theorem itemDepositToBank_cases (bank : Bank) (it : BankItem) :
    (bank.toList.length < 200 ∧ 0 ≤ (itemDepositToBank bank it).1) ∨
      (¬bank.toList.length < 200 ∧ itemDepositToBank bank it = (-1, bank)) := by
  rw [itemDepositToBank]
  by_cases hroom : bank.toList.length < 200
  · rw [dif_pos hroom]
    refine Or.inl ⟨hroom, ?_⟩
    by_cases hstack : itemIsStackable it.dataL0 = true
    · rw [if_pos hstack]
      cases bank.toList.findFinIdx? (fun x => x.dataL0 = it.dataL0) with
      | some i => exact le_rfl
      | none => exact zero_le_one
    · rw [if_neg hstack]
      exact zero_le_one
  · rw [dif_neg hroom]
    exact Or.inr ⟨hroom, rfl⟩

theorem bankDeposit_atomic {c : BbClient} {l : GameLobby} {pkt : BankActPkt}
    (htype : l.type ≠ .lobby) (hlen : pkt.pktLen = 0x18) (hsize : pkt.size = 0x04)
    (haction : pkt.action = subcmdBankActDeposit) :
    ((bankDeposit c pkt).1 ≠ 0 → SameItems c l (bankDeposit c pkt).2 l) ↔
      DepositFits c l pkt := by
  rw [bankDeposit]
  by_cases hid : pkt.itemId = mesetaId
  · rw [if_pos hid]
    refine ⟨fun _ i hreaches => absurd hid hreaches.2.2.2.2.1, fun _ => ?_⟩
    split_ifs
    · exact fun _ => .refl c l
    · exact fun _ => .refl c l
    · exact fun herror => absurd rfl herror
  rw [if_neg hid]
  cases hi : itemIndex c.inv pkt.itemId with
  | none =>
    refine ⟨fun _ i hreaches => ?_, fun _ _ => .refl c l⟩
    exact absurd (hi.symm.trans hreaches.2.2.2.2.2.1) (by simp)
  | some i =>
    dsimp only
    by_cases hmany : itemIsStackable c.inv.toList[i].dataL0 = false ∧ 1 < pkt.itemAmount
    · rw [if_pos hmany]
      refine ⟨fun _ j hreaches => ?_, fun _ _ => .refl c l⟩
      have hji : j = i := Option.some.inj (hreaches.2.2.2.2.2.1.symm.trans hi)
      rw [hji] at hreaches
      exact absurd (hreaches.2.2.2.2.2.2 hmany.1) (BitVec.not_le.mpr hmany.2)
    rw [if_neg hmany]
    have hreaches : ReachesBank c l pkt i := by
      refine ⟨htype, hlen, hsize, haction, hid, hi, fun hstack => ?_⟩
      exact BitVec.not_lt.mp (fun h => hmany ⟨hstack, h⟩)
    have honly : ∀ j, ReachesBank c l pkt j → j = i :=
      fun j hj => Option.some.inj (hj.2.2.2.2.2.1.symm.trans hi)
    have hfound : ¬((itemRemoveFromInv c.inv pkt.itemId (pkt.itemAmount.setWidth 32)).1 < 0 ∨
        1 < (itemRemoveFromInv c.inv pkt.itemId (pkt.itemAmount.setWidth 32)).1) := by
      simp only [itemRemoveFromInv, hi]
      split_ifs <;> omega
    rw [if_neg hfound]
    rcases itemDepositToBank_cases c.bank (depositItem c.inv.toList[i] pkt.itemAmount) with
      ⟨hroom, hok⟩ | ⟨hfull, hstored⟩
    · rw [if_neg (not_lt.mpr hok)]
      refine ⟨fun _ j hj => ?_, fun _ herror => absurd rfl herror⟩
      exact Or.inl hroom
    · rw [hstored, if_pos (show (-1 : Int) < 0 by decide)]
      have hinv := deposited_inv_eq hi pkt.itemAmount
      constructor
      · intro hsame j hj
        rw [honly j hj]
        exact Or.inr (hinv.mp (hsame error_ne).inv)
      · intro hfits _
        rcases hfits i hreaches with hroom | hnone
        · exact absurd hroom hfull
        · exact ⟨hinv.mpr hnone, rfl, rfl, rfl, rfl⟩

/-- A deposit that finds the stack it belongs to. -/
theorem itemDepositToBank_merge {bank : Bank} (it : BankItem) (hroom : bank.toList.length < 200)
    (hstack : itemIsStackable it.dataL0 = true) {j : Fin bank.toList.length}
    (hj : bank.toList.findFinIdx? (fun x => x.dataL0 = it.dataL0) = some j) :
    (itemDepositToBank bank it).2 = bank.set j
      { (bank.toList.get j) with
        toItemData := (bank.toList.get j).setDataB5 ((bank.toList.get j).dataB5 + it.dataB5)
        amount := ((bank.toList.get j).dataB5 + it.dataB5).setWidth 16 } := by
  rw [itemDepositToBank, dif_pos hroom, if_pos hstack, hj]
  rfl

theorem itemDepositToBank_push {bank : Bank} {it : BankItem} (hroom : bank.toList.length < 200)
    (hnone : itemIsStackable it.dataL0 = true →
      bank.toList.findFinIdx? (fun x => x.dataL0 = it.dataL0) = none) :
    (itemDepositToBank bank it).2 = bank.push it hroom := by
  rw [itemDepositToBank, dif_pos hroom]
  by_cases hstack : itemIsStackable it.dataL0 = true
  · rw [if_pos hstack, hnone hstack]
  · rw [if_neg hstack]

/-- A whole entry that is taken out goes back to the end, or into another stack. -/
theorem whole_putsBack (bank : Bank) (i : Fin bank.toList.length) :
    (itemDepositToBank (bank.eraseIdx i) (bank.toList.get i)).2 = bank ↔
      (itemIsStackable (bank.toList.get i).dataL0 = true →
        ∀ j, j ≠ i → (bank.toList.get j).dataL0 ≠ (bank.toList.get i).dataL0) ∧
      ∀ j, i < j → (bank.toList.get j) = (bank.toList.get i) := by
  simp only [get_fin, Fin.is_lt]
  have hlen : (bank.eraseIdx i).toList.length = bank.toList.length - 1 := by
    rw [BoundedList.toList_eraseIdx, List.length_eraseIdx_of_lt i.isLt]
  have hlt := i.isLt
  have hcap := bank.length_le
  have hroom : (bank.eraseIdx i).toList.length < 200 := by omega
  have hothers : (bank.eraseIdx i).toList.findFinIdx? (fun x => x.dataL0 = bank.toList[i].dataL0) =
      none ↔ ∀ j, j ≠ i → bank.toList[j].dataL0 ≠ bank.toList[i].dataL0 := by
    rw [List.findFinIdx?_eq_none_iff]
    constructor
    · intro hnone j hj
      have hmem : bank.toList[j] ∈ (bank.eraseIdx i).toList := by
        rw [BoundedList.toList_eraseIdx, List.mem_eraseIdx_iff_getElem]
        exact ⟨j, j.isLt, fun h => hj (Fin.ext h), rfl⟩
      simpa using hnone _ hmem
    · intro hall x hx
      rw [BoundedList.toList_eraseIdx, List.mem_eraseIdx_iff_getElem] at hx
      obtain ⟨j, hj, hne, rfl⟩ := hx
      have hother := hall ⟨j, hj⟩ (fun h => hne (congrArg Fin.val h))
      simpa using hother
  have hpush : (bank.eraseIdx i).push bank.toList[i] hroom = bank ↔
      ∀ j, i < j → bank.toList[j] = bank.toList[i] := by
    rw [← eraseIdx_append_eq i]
    exact ⟨fun h => congrArg BoundedList.toList h, fun h => boundedList_ext h⟩
  by_cases hstack : itemIsStackable bank.toList[i].dataL0 = true
  · cases hfind : (bank.eraseIdx i).toList.findFinIdx?
        (fun x => x.dataL0 = bank.toList[i].dataL0) with
    | none =>
      rw [itemDepositToBank_push hroom (fun _ => hfind), hpush]
      exact ⟨fun h => ⟨fun _ => hothers.mp hfind, h⟩, fun h => h.2⟩
    | some j =>
      rw [itemDepositToBank_merge _ hroom hstack hfind]
      constructor
      · intro hsame
        have hsize := congrArg (fun bank => bank.toList.length) hsame
        simp only [BoundedList.toList_set, List.length_set] at hsize
        omega
      · intro hback
        rw [hothers.mpr (hback.1 hstack)] at hfind
        cases hfind
  · rw [itemDepositToBank_push hroom (fun h => absurd h hstack), hpush]
    exact ⟨fun h => ⟨fun h' => absurd h' hstack, h⟩, fun h => h.2⟩

/-- An entry of the bank with another stack size. -/
def resized (x : BankItem) (n : BitVec 8) : BankItem :=
  { x with toItemData := x.setDataB5 n, amount := n.setWidth 16 }

theorem resized_eq_self (x : BankItem) (n : BitVec 8) :
    resized x n = x ↔ n = x.dataB5 ∧ Counted x := by
  constructor
  · intro h
    have hsize : n = x.dataB5 := by
      rw [← setDataB5_eq_self]
      exact congrArg BankItem.toItemData h
    have hamount : n.setWidth 16 = x.amount := congrArg BankItem.amount h
    rw [hsize] at hamount
    exact ⟨hsize, hamount.symm⟩
  · rintro ⟨rfl, hcounted⟩
    rw [resized, setDataB5_self, ← hcounted]

theorem resized_resized (x : BankItem) (n m : BitVec 8) : resized (resized x n) m = resized x m := by
  simp only [resized, setDataB5_setDataB5]

theorem dataB5_resized (x : BankItem) (n : BitVec 8) : (resized x n).dataB5 = n :=
  ItemData.dataB5_setDataB5 _ n

theorem set_resized_eq_self (bank : Bank) (j : Fin bank.toList.length) (n : BitVec 8) :
    bank.set j (resized (bank.toList.get j) n) = bank ↔
      n = (bank.toList.get j).dataB5 ∧ Counted (bank.toList.get j) := by
  rw [← resized_eq_self]
  constructor
  · intro h
    exact (set_eq_self j.isLt _).mp (congrArg BoundedList.toList h)
  · intro h
    exact boundedList_ext ((set_eq_self j.isLt _).mpr h)

theorem firstOfCode_iff (bank : Bank) (i j : Fin bank.toList.length) :
    bank.toList.findFinIdx? (fun x => x.dataL0 = (bank.toList.get i).dataL0) = some j ↔
      FirstOfCode bank i j := by
  rw [List.findFinIdx?_eq_some_iff]
  simp only [FirstOfCode, List.get_eq_getElem, Fin.getElem_fin, decide_eq_true_eq, ne_eq]

/-- The first stack of a kind does not depend on the sizes of the stacks. -/
theorem firstOfCode_resized {bank : Bank} {i j : Fin bank.toList.length} {n : BitVec 8}
    (hj : FirstOfCode bank i j) : ∃ k : Fin (bank.set i (resized (bank.toList.get i) n)).toList.length,
      (k : ℕ) = j ∧ (bank.set i (resized (bank.toList.get i) n)).toList.findFinIdx?
        (fun x => x.dataL0 = (bank.toList.get i).dataL0) = some k := by
  have hfirst := (firstOfCode_iff bank i j).mpr hj
  simp only [get_fin, Fin.is_lt] at hfirst ⊢
  have hcodes : (bank.set i (resized bank.toList[i] n)).toList.map (fun x => x.dataL0) =
      bank.toList.map (fun x => x.dataL0) := by
    rw [BoundedList.toList_set, List.map_set]
    apply (set_eq_self (by simp) _).mpr
    simp only [List.getElem_map]
    rfl
  have hval : ∀ bank' : Bank, (bank'.toList.findFinIdx?
      (fun x => x.dataL0 = bank.toList[i].dataL0)).map Fin.val =
      (bank'.toList.map (fun x => x.dataL0)).findIdx? (fun d => d = bank.toList[i].dataL0) := by
    intro bank'
    rw [List.findIdx?_map, List.findIdx?_eq_map_findFinIdx?_val]
    rfl
  have hfound := hval (bank.set i (resized bank.toList[i] n))
  rw [hcodes, ← hval bank, hfirst, Option.map_some] at hfound
  obtain ⟨k, hk, hkj⟩ := Option.map_eq_some_iff.mp hfound
  exact ⟨k, hkj, hk⟩

theorem get_set_self (bank : Bank) {i : ℕ} (x : BankItem) (k : Fin (bank.set i x).toList.length)
    (hk : (k : ℕ) = i) : (bank.set i x).toList[k] = x := by
  have hlt : (k : ℕ) < (bank.toList.set i x).length := k.isLt
  change (bank.toList.set i x).get ⟨k, hlt⟩ = x
  simp [hk]

theorem get_set_other (bank : Bank) {i : ℕ} (x : BankItem)
    (k : Fin (bank.set i x).toList.length) {j : Fin bank.toList.length} (hk : (k : ℕ) = j)
    (hne : (j : ℕ) ≠ i) : (bank.set i x).toList[k] = bank.toList[j] := by
  have hlt : (k : ℕ) < (bank.toList.set i x).length := k.isLt
  change (bank.toList.set i x).get ⟨k, hlt⟩ = bank.toList[(j : ℕ)]
  simp [hk, hne.symm]

/-- Two entries that are replaced without effect. -/
theorem set_set_eq_self {bank : Bank} {i j : Fin bank.toList.length} (hne : i ≠ j)
    {x y : BankItem} (h : (bank.set i x).set j y = bank) :
    bank.set i x = bank ∧ bank.set j y = bank := by
  have hval : (i : ℕ) ≠ j := fun hij => hne (Fin.ext hij)
  have hlist : (bank.toList.set i x).set j y = bank.toList := congrArg BoundedList.toList h
  have hx : x = bank.toList[(i : ℕ)] := by
    have hget := congrArg (fun l : List BankItem => l[(i : ℕ)]?) hlist
    simpa [List.getElem?_set, hval, hval.symm] using hget
  have hy : y = bank.toList[(j : ℕ)] := by
    have hget := congrArg (fun l : List BankItem => l[(j : ℕ)]?) hlist
    simpa [List.getElem?_set] using hget
  exact ⟨boundedList_ext ((set_eq_self i.isLt x).mpr hx),
    boundedList_ext ((set_eq_self j.isLt y).mpr hy)⟩

/-- Part of a stack that is taken out goes back to the first stack of its kind, if there is room
in the bank. -/
theorem part_putsBack {bank : Bank} {i : Fin bank.toList.length} {amt : BitVec 8}
    (hstack : itemIsStackable (bank.toList.get i).dataL0 = true) :
    (itemDepositToBank (bank.set i (resized (bank.toList.get i) ((bank.toList.get i).dataB5 - amt)))
        (resized (bank.toList.get i) amt)).2 = bank ↔
      Counted (bank.toList.get i) ∧
        ((amt = 0 ∧
            (bank.toList.length < 200 → ∀ j, FirstOfCode bank i j → Counted (bank.toList.get j))) ∨
          (bank.toList.length < 200 ∧ FirstOfCode bank i i)) := by
  have hleft : (bank.toList.get i).dataB5 - amt = (bank.toList.get i).dataB5 ↔ amt = 0 := by
    constructor
    · intro h
      bv_omega
    · intro h
      bv_omega
  have hset := set_resized_eq_self bank i ((bank.toList.get i).dataB5 - amt)
  rw [hleft] at hset
  by_cases hroom : bank.toList.length < 200
  · cases hfind : bank.toList.findFinIdx? (fun x => x.dataL0 = (bank.toList.get i).dataL0) with
    | none =>
      rw [List.findFinIdx?_eq_none_iff] at hfind
      have hself := hfind _ (List.getElem_mem i.isLt)
      simp at hself
    | some j =>
      have hfirst := (firstOfCode_iff bank i j).mp hfind
      have honly : ∀ k, FirstOfCode bank i k → k = j := by
        intro k hk
        exact Option.some.inj (((firstOfCode_iff bank i k).mpr hk).symm.trans hfind)
      obtain ⟨k, hkj, hk⟩ := firstOfCode_resized (n := (bank.toList.get i).dataB5 - amt) hfirst
      have hroom' : (bank.set i (resized (bank.toList.get i)
          ((bank.toList.get i).dataB5 - amt))).toList.length < 200 := by
        rw [BoundedList.toList_set, List.length_set]
        exact hroom
      rw [itemDepositToBank_merge (resized (bank.toList.get i) amt) hroom' hstack hk]
      change (bank.set i (resized (bank.toList.get i) ((bank.toList.get i).dataB5 - amt))).set k
        (resized (bank.set i (resized (bank.toList.get i) ((bank.toList.get i).dataB5 - amt))).toList[k]
          ((bank.set i (resized (bank.toList.get i) ((bank.toList.get i).dataB5 - amt))).toList[k].dataB5 +
            (resized (bank.toList.get i) amt).dataB5)) = bank ↔ _
      rw [dataB5_resized]
      have hcancel : (bank.toList.get i).dataB5 - amt + amt = (bank.toList.get i).dataB5 := by
        bv_omega
      by_cases hji : j = i
      · have hget : (bank.set i (resized (bank.toList.get i)
            ((bank.toList.get i).dataB5 - amt))).toList[k] =
            resized (bank.toList.get i) ((bank.toList.get i).dataB5 - amt) := by
          apply get_set_self
          rw [hkj, hji]
        have hset₂ : ∀ x y : BankItem, (bank.set i x).set k y = bank.set i y := by
          intro x y
          apply boundedList_ext
          rw [BoundedList.toList_set, BoundedList.toList_set, hkj, hji, List.set_set]
          rfl
        rw [hget, dataB5_resized, hcancel, resized_resized, hset₂, set_resized_eq_self]
        rw [hji] at hfirst
        exact ⟨fun h => ⟨h.2, Or.inr ⟨hroom, hfirst⟩⟩, fun h => ⟨rfl, h.1⟩⟩
      · have hget : (bank.set i (resized (bank.toList.get i)
            ((bank.toList.get i).dataB5 - amt))).toList[k] = (bank.toList.get j) :=
          get_set_other bank _ k hkj (fun h => hji (Fin.ext h))
        rw [hget, hkj]
        have hadd : (bank.toList.get j).dataB5 + amt = (bank.toList.get j).dataB5 ↔ amt = 0 := by
          constructor
          · intro h
            bv_omega
          · intro h
            bv_omega
        have hset₂ := set_resized_eq_self bank j ((bank.toList.get j).dataB5 + amt)
        rw [hadd] at hset₂
        have hnot : ¬FirstOfCode bank i i := fun h => hji (honly i h).symm
        constructor
        · intro hsame
          have hboth := set_set_eq_self (Ne.symm hji) hsame
          have hzero := hset.mp hboth.1
          have hcounted := hset₂.mp hboth.2
          refine ⟨hzero.2, Or.inl ⟨hzero.1, fun _ m hm => ?_⟩⟩
          rw [honly m hm]
          exact hcounted.2
        · rintro ⟨hcounted, ⟨hzero, hall⟩ | ⟨-, h⟩⟩
          · rw [hset.mpr ⟨hzero, hcounted⟩]
            exact hset₂.mpr ⟨hzero, hall hroom j hfirst⟩
          · exact absurd h hnot
  · have hfull : ¬(bank.set i (resized (bank.toList.get i)
        ((bank.toList.get i).dataB5 - amt))).toList.length < 200 := by
      rw [BoundedList.toList_set, List.length_set]
      exact hroom
    rw [itemDepositToBank, dif_neg hfull]
    dsimp only
    rw [hset]
    constructor
    · rintro ⟨hzero, hcounted⟩
      exact ⟨hcounted, Or.inl ⟨hzero, fun h => absurd h hroom⟩⟩
    · rintro ⟨hcounted, ⟨hzero, -⟩ | ⟨h, -⟩⟩
      · exact ⟨hzero, hcounted⟩
      · exact absurd h hroom

theorem itemTakeFromBank_putsBack {bank bank' : Bank} {itemId : BitVec 32} {amt : BitVec 8}
    {bitem : BankItem} {i : Fin bank.toList.length}
    (hi : bank.toList.findFinIdx? (fun x => x.itemId = itemId) = some i)
    (htaken : itemTakeFromBank bank itemId amt = some (bitem, bank')) :
    (itemDepositToBank bank' bitem).2 = bank ↔ PutsBack bank i amt := by
  simp only [itemTakeFromBank, hi] at htaken
  rw [PutsBack]
  by_cases hpart : itemIsStackable bank.toList[i].dataL0 = true ∧ amt < bank.toList[i].dataB5
  · rw [if_pos hpart] at htaken
    rw [if_pos (by exact hpart)]
    cases htaken
    exact part_putsBack hpart.1
  · rw [if_neg hpart] at htaken
    rw [if_neg (by exact hpart)]
    split_ifs at htaken
    cases htaken
    exact whole_putsBack bank i

theorem bankTake_atomic {c : BbClient} {l : GameLobby} {pkt : BankActPkt}
    (htype : l.type ≠ .lobby) (hlen : pkt.pktLen = 0x18) (hsize : pkt.size = 0x04)
    (haction : pkt.action = subcmdBankActTake) :
    ((bankTake c l pkt).1 ≠ 0 → SameItems c l (bankTake c l pkt).2.1 (bankTake c l pkt).2.2) ↔
      TakeFits c l pkt := by
  rw [bankTake]
  by_cases hid : pkt.itemId = mesetaId
  · rw [if_pos hid]
    refine ⟨fun _ i hreaches => absurd hid hreaches.2.2.2.2.1, fun _ => ?_⟩
    split_ifs
    · exact fun _ => .refl c l
    · exact fun _ => .refl c l
    · exact fun herror => absurd rfl herror
  rw [if_neg hid]
  cases htaken : itemTakeFromBank c.bank pkt.itemId pkt.itemAmount with
  | none =>
    refine ⟨fun _ i hreaches => ?_, fun _ _ => .refl c l⟩
    obtain ⟨-, -, -, -, -, hi, hamount⟩ := hreaches
    simp only [itemTakeFromBank, hi] at htaken
    split_ifs at htaken with hpart hmore
    exact absurd (hamount hmore.1) (BitVec.not_le.mpr hmore.2)
  | some taken =>
    obtain ⟨bitem, bank⟩ := taken
    cases hi : c.bank.toList.findFinIdx? (fun x => x.itemId = pkt.itemId) with
    | none => simp [itemTakeFromBank, hi] at htaken
    | some i =>
      have hreaches : ReachesEntry c l pkt i := by
        refine ⟨htype, hlen, hsize, haction, hid, hi, fun hstack => ?_⟩
        by_contra hmore
        have hmore' := BitVec.not_le.mp hmore
        have hpart : ¬(itemIsStackable c.bank.toList[i].dataL0 = true ∧
            pkt.itemAmount < c.bank.toList[i].dataB5) :=
          fun h => absurd h.2 (BitVec.not_lt.mpr (BitVec.le_of_lt hmore'))
        simp only [itemTakeFromBank, hi] at htaken
        rw [if_neg hpart, if_pos ⟨hstack, hmore'⟩] at htaken
        cases htaken
      have honly : ∀ j, ReachesEntry c l pkt j → j = i :=
        fun j hj => Option.some.inj (hj.2.2.2.2.2.1.symm.trans hi)
      have hback := itemTakeFromBank_putsBack hi htaken
      dsimp only
      generalize hitem : ({ bitem with itemId := l.itemId, equipped := 1, tech := 0, flags := 0 } :
        Item) = item
      have hnew : item.itemId = l.itemId := by rw [← hitem]
      rcases itemAddToInv_cases c.inv item with ⟨hfits, hok⟩ | ⟨hfull, hadd⟩
      · rw [hnew] at hfits
        rw [if_neg (not_lt.mpr hok)]
        exact ⟨fun _ j hj => Or.inl hfits, fun _ herror => absurd rfl herror⟩
      · rw [hnew] at hfull
        rw [hadd, if_pos (show (-1 : Int) < 0 by decide)]
        constructor
        · intro hsame j hj
          rw [honly j hj]
          exact Or.inr (hback.mp (hsame error_ne).bank)
        · intro hclean _
          rcases hclean i hreaches with hfits | hputs
          · exact absurd hfits hfull
          · exact ⟨rfl, hback.mpr hputs, rfl, rfl, rfl⟩

theorem handleBbBankAction_atomic (c : BbClient) (l : GameLobby) (pkt : BankActPkt) :
    Atomic c l (.bankAction pkt) ↔ DepositFits c l pkt ∧ TakeFits c l pkt := by
  rw [Atomic]
  change ((handleBbBankAction c l pkt).1 ≠ 0 → SameItems c l (handleBbBankAction c l pkt).2.1
    (handleBbBankAction c l pkt).2.2) ↔ _
  rw [handleBbBankAction]
  by_cases htype : l.type = .lobby
  · rw [if_pos htype]
    exact ⟨fun _ => ⟨fun i h => absurd htype h.1, fun i h => absurd htype h.1⟩,
      fun _ _ => .refl c l⟩
  rw [if_neg htype]
  by_cases hsize : pkt.pktLen ≠ 0x18 ∨ pkt.size ≠ 0x04
  · rw [if_pos hsize]
    have hbad : ¬(pkt.pktLen = 0x18 ∧ pkt.size = 0x04) := by
      rwa [not_and_or]
    exact ⟨fun _ => ⟨fun i h => absurd ⟨h.2.1, h.2.2.1⟩ hbad,
      fun i h => absurd ⟨h.2.1, h.2.2.1⟩ hbad⟩, fun _ _ => .refl c l⟩
  rw [if_neg hsize]
  simp only [not_or, not_not] at hsize
  by_cases hdeposit : pkt.action = subcmdBankActDeposit
  · have hdone : ¬(pkt.action = subcmdBankActClose ∨ pkt.action = subcmdBankActDone) := by
      rw [hdeposit]
      decide
    have htake : TakeFits c l pkt := by
      intro i hreaches
      have haction := hreaches.2.2.2.1
      rw [hdeposit] at haction
      exact absurd haction (by decide)
    rw [if_neg hdone, if_pos hdeposit, and_iff_left htake]
    exact bankDeposit_atomic htype hsize.1 hsize.2 hdeposit
  have hnoDeposit : DepositFits c l pkt := fun i hreaches => absurd hreaches.2.2.2.1 hdeposit
  by_cases htake : pkt.action = subcmdBankActTake
  · have hdone : ¬(pkt.action = subcmdBankActClose ∨ pkt.action = subcmdBankActDone) := by
      rw [htake]
      decide
    rw [if_neg hdone, if_neg hdeposit, if_pos htake, and_iff_right hnoDeposit]
    exact bankTake_atomic htype hsize.1 hsize.2 htake
  · have hnoTake : TakeFits c l pkt := fun i hreaches => absurd hreaches.2.2.2.1 htake
    rw [if_neg hdeposit, if_neg htake]
    split_ifs
    · exact ⟨fun _ => ⟨hnoDeposit, hnoTake⟩, fun _ _ => .refl c l⟩
    · exact ⟨fun _ => ⟨hnoDeposit, hnoTake⟩, fun _ _ => .refl c l⟩

/-- In a Blue Burst game a refused packet changes nothing just when it is clean. -/
theorem handlePacket_atomic {c : BbClient} {l : GameLobby} (hl : l.version = .bb) (p : Packet) :
    Atomic c l p ↔ Clean c l p := by
  cases p with
  | dropItem pkt isframe => exact iff_of_true (handleBbDropItem_ok hl pkt isframe) trivial
  | dropPos pkt => exact iff_of_true (handleBbDropPos_ok c l pkt) trivial
  | dropStack pkt junk => exact handleBbDropStack_atomic c l pkt junk
  | pickUp pkt => exact handleBbPickUp_atomic c l pkt
  | bankAction pkt => exact handleBbBankAction_atomic c l pkt

theorem moves_version {c c' : BbClient} {l l' : GameLobby} {p : Packet} (h : Moves c l p c' l') :
    l'.version = l.version := by
  cases h <;> rfl

theorem next_version (g : BbGame) (e : Event) : (g.next e).lobby.version = g.lobby.version := by
  cases e with
  | packet slot p =>
    cases hc : g.members slot with
    | none => simp [BbGame.next, hc]
    | some c =>
      rw [next_packet p hc]
      exact moves_version (handlePacket_moves c g.lobby p)
  | leave slot => rfl
  | join c =>
    simp only [BbGame.next]
    split <;> rfl
  | enter c =>
    simp only [BbGame.next]
    split <;> rfl
  | rejoin slot =>
    simp only [BbGame.next]
    split <;> rfl
  | refused slot highest =>
    simp only [BbGame.next]
    split <;> rfl
  | serverDrop itemData =>
    simp only [BbGame.next, lobbyAddItemLocked]
    split_ifs <;> rfl

/-- In every reachable game, a member's packet that is refused has changed nothing if and only if
it is clean. -/
theorem bbRefusals_atomic {maxClients : ℕ} {g : BbGame} {es : List Event}
    (hrun : Run (StepOf BbGame.next) Always (createdGame maxClients) es g) {slot : Fin 4}
    {c : BbClient} (_ : g.members slot = some c) (p : Packet) :
    Atomic c g.lobby p ↔ Clean c g.lobby p := by
  have hbb : g.lobby.version = .bb := by
    refine hrun.invariant (fun g => g.lobby.version = .bb) rfl ?_
    rintro u e v hu - rfl
    rw [next_version, hu]
  exact handlePacket_atomic hbb p

/-- A client that carries 100 meseta. -/
def richVisitor : BbClient :=
  { visitor with meseta := 100 }

/-- The visitor joins and announces that it will drop 100 meseta. -/
def announceDrop : List Event :=
  [.join richVisitor,
   .packet 0 (.dropPos { pktLen := 0x20, size := 0x06, clientId := 0, itemId := mesetaId,
                         amount := 100 })]

/-- It puts the money into the bank first. -/
def depositAll : Event :=
  .packet 0 (.bankAction { pktLen := 0x18, size := 0x04, itemId := mesetaId, mesetaAmount := 100,
                           action := subcmdBankActDeposit, itemAmount := 0 })

def dropAll : DestroyItemPkt :=
  { pktLen := 0x14, size := 0x03, clientId := 0, itemId := mesetaId, amount := 100 }

def junk : Item :=
  { dataL0 := 0, dataL1 := 0, dataL2 := 0, itemId := 0, data2L := 0, equipped := 0, tech := 0
    flags := 0 }

/-- Without the deposit the drop is clean. -/
theorem bbRefusals_atomic_paid : ∃ c,
    (announceDrop.foldl BbGame.next (createdGame 4)).members 0 = some c ∧
      Atomic c (announceDrop.foldl BbGame.next (createdGame 4)).lobby (.dropStack dropAll junk) := by
  obtain ⟨c, hc⟩ : ∃ c, (announceDrop.foldl BbGame.next (createdGame 4)).members 0 = some c :=
    ⟨_, rfl⟩
  have hiff := bbRefusals_atomic (run_foldl BbGame.next (createdGame 4) announceDrop) hc
    (.dropStack dropAll junk)
  refine ⟨c, hc, hiff.mpr fun _ _ => ?_⟩
  cases hc
  decide

/-- With the deposit the drop is refused, but 100 meseta lie on the floor. -/
theorem bbRefusals_not_atomic :
    ¬∀ (maxClients : ℕ) (es : List Event) (slot : Fin 4) (c : BbClient) (p : Packet),
      (es.foldl BbGame.next (createdGame maxClients)).members slot = some c →
        Atomic c (es.foldl BbGame.next (createdGame maxClients)).lobby p := by
  intro hall
  have hatomic := hall 4 (announceDrop ++ [depositAll]) 0 _ (.dropStack dropAll junk) rfl
  have hfloor := (hatomic (by decide)).floor
  revert hfloor
  decide

end ShipServer.BlueBurstRefusals
