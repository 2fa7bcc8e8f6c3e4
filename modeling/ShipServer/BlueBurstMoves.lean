import ShipServer.BlueBurstGame

set_option autoImplicit false

namespace ShipServer.BlueBurstMoves

open BoundedLists Items Versions BlueBurstGame

@[simp] theorem toItemData_clearEquipped (it : Item) :
    (clearEquipped it).toItemData = it.toItemData := rfl

@[simp] theorem toItemData_unequipUnit (it : Item) :
    (unequipUnit it).toItemData = it.toItemData := by
  unfold unequipUnit
  split_ifs <;> rfl

theorem itemDatas_unequipped (inv : Inventory) (isframe : Bool) :
    itemDatas (if isframe then inv.map unequipUnit else inv).toList = itemDatas inv.toList := by
  split_ifs
  · simp [itemDatas]
  · rfl

theorem get_fin {α : Type*} (l : List α) (i : Fin l.length) (_ : (i : ℕ) < l.length) :
    l.get i = l[i] := rfl

theorem itemDatas_set_clearEquipped (items : List Item) (i : Fin items.length) :
    itemDatas (items.set i (clearEquipped items[i])) = itemDatas items := by
  rw [itemDatas_set, toItemData_clearEquipped]
  simp [itemDatas, ← List.map_set]

/-- The position of an item id depends on the item descriptions only. -/
theorem itemIndex_val (inv : Inventory) (itemId : BitVec 32) :
    (itemIndex inv itemId).map Fin.val =
      (itemDatas inv.toList).findIdx? (fun d => d.itemId = itemId) := by
  rw [itemDatas, List.findIdx?_map, List.findIdx?_eq_map_findFinIdx?_val]
  rfl

theorem itemIndex_congr {inv inv' : Inventory} {itemId : BitVec 32}
    {i : Fin inv.toList.length} (h : itemDatas inv'.toList = itemDatas inv.toList)
    (hi : itemIndex inv itemId = some i) :
    ∃ j : Fin inv'.toList.length, (j : ℕ) = i ∧ itemIndex inv' itemId = some j := by
  have hval : (itemIndex inv' itemId).map Fin.val = some (i : ℕ) := by
    rw [itemIndex_val, h, ← itemIndex_val, hi, Option.map_some]
  obtain ⟨j, hj, hji⟩ := Option.map_eq_some_iff.mp hval
  exact ⟨j, hji, hj⟩

/-- Removing a whole entry. -/
theorem itemRemoveFromInv_all {inv : Inventory} {itemId : BitVec 32}
    {i : Fin inv.toList.length} (hi : itemIndex inv itemId = some i) :
    itemRemoveFromInv inv itemId 0xFFFFFFFF = (1, inv.eraseIdx i) := by
  simp [itemRemoveFromInv, hi]

/-- The checks that a drop-stack packet passes before its slot's id counter is raised. -/
abbrev RaisesHighest (c : BbClient) (l : GameLobby) (pkt : DestroyItemPkt) : Prop :=
  l.type ≠ .lobby ∧ pkt.pktLen = 0x14 ∧ pkt.size = 0x03 ∧ pkt.clientId.toNat = c.clientId ∧
    (pkt.itemId = mesetaId ∨ itemIndex c.inv pkt.itemId ≠ none)

/-- The checks that a drop-stack packet passes before its item is put on the floor. -/
abbrev ReachesFloor (c : BbClient) (l : GameLobby) (pkt : DestroyItemPkt) : Prop :=
  RaisesHighest c l pkt ∧ pkt.itemId = c.dropItem ∧ pkt.amount = c.dropAmt ∧ l.version = .bb

/-- The checks that a bank deposit of an item passes before the inventory is touched. -/
abbrev ReachesBank (c : BbClient) (l : GameLobby) (pkt : BankActPkt)
    (i : Fin c.inv.toList.length) : Prop :=
  l.type ≠ .lobby ∧ pkt.pktLen = 0x18 ∧ pkt.size = 0x04 ∧ pkt.action = subcmdBankActDeposit ∧
    pkt.itemId ≠ mesetaId ∧ itemIndex c.inv pkt.itemId = some i ∧
    (itemIsStackable (c.inv.toList.get i).dataL0 = false → pkt.itemAmount ≤ 1)

/-- A floor item as it is added to an inventory. -/
def pickedUp (it : Item) : Item :=
  { it with flags := 0, equipped := 1, tech := 0 }

/-- A bank item as it is added to an inventory. -/
def withdrawn (bitem : BankItem) (itemId : BitVec 32) : Item :=
  { bitem with itemId := itemId, equipped := 1, tech := 0, flags := 0 }

theorem lobbyAddItem2Locked_bb {l : GameLobby} (it : Item) (h : l.version = .bb) :
    lobbyAddItem2Locked l it = some { l with itemQueue := it :: l.itemQueue } :=
  if_neg (not_not.mpr h)

theorem lobbyAddItem2Locked_other {l : GameLobby} (it : Item) (h : l.version ≠ .bb) :
    lobbyAddItem2Locked l it = none :=
  if_pos h

/-- What one item packet can do to its sender and to the lobby. -/
inductive Moves (c : BbClient) (l : GameLobby) : Packet → BbClient → GameLobby → Prop where
  | unchanged {p : Packet} : Moves c l p c l
  | unequipped {p : Packet} {inv : Inventory}
      (same : itemDatas inv.toList = itemDatas c.inv.toList) : Moves c l p { c with inv := inv } l
  | dropped {pkt : DropItemPkt} {isframe : Bool} {inv : Inventory} {it : Item}
      {i : Fin c.inv.toList.length} (floor : it.toItemData = (c.inv.toList.get i).toItemData)
      (left : itemDatas inv.toList = (itemDatas c.inv.toList).eraseIdx i) :
      Moves c l (.dropItem pkt isframe) { c with inv := inv }
        { l with itemQueue := it :: l.itemQueue }
  | noted {pkt : DropPosPkt} :
      Moves c l (.dropPos pkt) { c with dropItem := pkt.itemId, dropAmt := pkt.amount } l
  | counted {pkt : DestroyItemPkt} {junk : Item} (raises : RaisesHighest c l pkt) :
      Moves c l (.dropStack pkt junk) c (raiseHighest l c.clientId)
  | splitDropped {pkt : DestroyItemPkt} {junk : Item} {i : Fin c.inv.toList.length}
      (reaches : ReachesFloor c l pkt) (isItem : pkt.itemId ≠ mesetaId)
      (found : itemIndex c.inv pkt.itemId = some i) :
      Moves c l (.dropStack pkt junk)
        { c with inv := (itemRemoveFromInv c.inv pkt.itemId pkt.amount).2 }
        { raiseHighest l c.clientId with itemQueue :=
            { splitItem c i pkt.amount with itemId := l.highestItem c.clientId + 1 } ::
              l.itemQueue }
  | mesetaDropped {pkt : DestroyItemPkt} {junk : Item} {meseta : BitVec 32}
      {plMeseta : BitVec 32} (reaches : ReachesFloor c l pkt) (isMeseta : pkt.itemId = mesetaId)
      (paid : meseta = if c.meseta < pkt.amount then c.meseta else c.meseta - pkt.amount)
      (mirrored : c.plMeseta = c.meseta → plMeseta = meseta) :
      Moves c l (.dropStack pkt junk) { c with meseta := meseta, plMeseta := plMeseta }
        { raiseHighest l c.clientId with itemQueue :=
            { mesetaItem junk pkt.amount with itemId := l.highestItem c.clientId + 1 } ::
              l.itemQueue }
  | mesetaPickedUp {pkt : PickUpPkt} {i : Fin l.itemQueue.length} {meseta : BitVec 32}
      (kind : (l.itemQueue.get i).dataL0 = itemMeseta)
      (sum : meseta = if 999999 < (l.itemQueue.get i).data2L + c.meseta then 999999
        else (l.itemQueue.get i).data2L + c.meseta) :
      Moves c l (.pickUp pkt) { c with meseta := meseta, plMeseta := meseta }
        { l with itemQueue := l.itemQueue.eraseIdx i }
  | itemPickedUp {pkt : PickUpPkt} {i : Fin l.itemQueue.length} :
      Moves c l (.pickUp pkt)
        { c with inv := (itemAddToInv c.inv (pickedUp (l.itemQueue.get i))).2 }
        { l with itemQueue := l.itemQueue.eraseIdx i }
  | mesetaDeposited {pkt : BankActPkt} (enough : ¬ c.meseta < pkt.mesetaAmount)
      (capped : ¬ 999999 < pkt.mesetaAmount + c.bankMeseta) :
      Moves c l (.bankAction pkt)
        { c with meseta := c.meseta - pkt.mesetaAmount
                 plMeseta := c.meseta - pkt.mesetaAmount
                 bankMeseta := c.bankMeseta + pkt.mesetaAmount } l
  | mesetaTaken {pkt : BankActPkt} (enough : ¬ c.bankMeseta < pkt.mesetaAmount)
      (capped : ¬ 999999 < pkt.mesetaAmount + c.meseta) :
      Moves c l (.bankAction pkt)
        { c with meseta := c.meseta + pkt.mesetaAmount
                 plMeseta := c.meseta + pkt.mesetaAmount
                 bankMeseta := c.bankMeseta - pkt.mesetaAmount } l
  | itemDeposited {pkt : BankActPkt} {i : Fin c.inv.toList.length} {inv : Inventory}
      (reaches : ReachesBank c l pkt i)
      (left : itemDatas inv.toList =
        itemDatas (itemRemoveFromInv c.inv pkt.itemId (pkt.itemAmount.setWidth 32)).2.toList) :
      Moves c l (.bankAction pkt)
        { c with inv := inv
                 bank := (itemDepositToBank c.bank
                  (depositItem (c.inv.toList.get i) pkt.itemAmount)).2 } l
  | itemTaken {pkt : BankActPkt} {bitem : BankItem} {bank : Bank}
      (action : pkt.action = subcmdBankActTake)
      (taken : itemTakeFromBank c.bank pkt.itemId pkt.itemAmount = some (bitem, bank)) :
      Moves c l (.bankAction pkt)
        { c with inv := (itemAddToInv c.inv (withdrawn bitem l.itemId)).2, bank := bank }
        { l with itemId := l.itemId + 1 }
  | itemReturned {pkt : BankActPkt} {bitem : BankItem} {bank : Bank}
      (action : pkt.action = subcmdBankActTake)
      (taken : itemTakeFromBank c.bank pkt.itemId pkt.itemAmount = some (bitem, bank)) :
      Moves c l (.bankAction pkt)
        { c with bank := (itemDepositToBank bank bitem).2 } { l with itemId := l.itemId + 1 }

theorem handleBbDropItem_moves (c : BbClient) (l : GameLobby) (pkt : DropItemPkt)
    (isframe : Bool) :
    Moves c l (.dropItem pkt isframe) (handleBbDropItem c l pkt isframe).2.1
      (handleBbDropItem c l pkt isframe).2.2 := by
  unfold handleBbDropItem
  split_ifs
  · exact .unchanged
  · exact .unchanged
  cases hi : itemIndex c.inv pkt.itemId with
  | none => exact .unchanged
  | some i =>
    generalize hframe : (isframe || isEquippedFrame c.inv.toList[i]) = frame
    have hsame : itemDatas (if frame then (c.inv.set i (clearEquipped c.inv.toList[i])).map
        unequipUnit else c.inv.set i (clearEquipped c.inv.toList[i])).toList =
        itemDatas c.inv.toList :=
      (itemDatas_unequipped _ frame).trans (itemDatas_set_clearEquipped c.inv.toList i)
    by_cases hver : l.version = .bb
    · obtain ⟨j, hji, hj⟩ := itemIndex_congr hsame hi
      simp only [hframe, lobbyAddItem2Locked_bb _ hver, itemRemoveFromInv_all hj]
      refine .dropped (i := i) ?_ ?_
      · split_ifs <;> simp
      · rw [BoundedList.toList_eraseIdx, itemDatas_eraseIdx, hsame, hji]
    · simp only [hframe, lobbyAddItem2Locked_other _ hver]
      exact .unequipped hsame

theorem handleBbDropPos_moves (c : BbClient) (l : GameLobby) (pkt : DropPosPkt) :
    Moves c l (.dropPos pkt) (handleBbDropPos c l pkt).2.1 (handleBbDropPos c l pkt).2.2 := by
  unfold handleBbDropPos
  split_ifs
  · exact .unchanged
  · exact .unchanged
  · exact .unchanged
  · exact .unchanged
  · exact .noted

theorem handleBbDropStack_moves (c : BbClient) (l : GameLobby) (pkt : DestroyItemPkt)
    (junk : Item) :
    Moves c l (.dropStack pkt junk) (handleBbDropStack c l pkt junk).2.1
      (handleBbDropStack c l pkt junk).2.2 := by
  unfold handleBbDropStack
  by_cases htype : l.type = .lobby
  · simp only [if_pos htype]
    exact .unchanged
  by_cases hsize : pkt.pktLen ≠ 0x14 ∨ pkt.size ≠ 0x03 ∨ pkt.clientId.toNat ≠ c.clientId
  · simp only [if_neg htype, if_pos hsize]
    exact .unchanged
  simp only [if_neg htype, if_neg hsize]
  cases hitem : dropStackItem c pkt junk with
  | none => exact .unchanged
  | some itemData =>
    have hitem' : pkt.itemId = mesetaId ∨ itemIndex c.inv pkt.itemId ≠ none := by
      by_contra hnone
      rw [not_or, not_not] at hnone
      simp [dropStackItem, hnone] at hitem
    have hraise : RaisesHighest c l pkt := by
      simp only [not_or, not_not] at hsize
      exact ⟨htype, hsize.1, hsize.2.1, hsize.2.2, hitem'⟩
    by_cases hpos : pkt.itemId ≠ c.dropItem ∨ pkt.amount ≠ c.dropAmt
    · simp only [if_pos hpos]
      exact .counted hraise
    by_cases hver : l.version ≠ .bb
    · have hother : (raiseHighest l c.clientId).version ≠ .bb := hver
      simp only [if_neg hpos, lobbyAddItem2Locked_other _ hother]
      exact .counted hraise
    rw [not_not] at hver
    have hreach : ReachesFloor c l pkt := by
      simp only [not_or, not_not] at hpos
      exact ⟨hraise, hpos.1, hpos.2, hver⟩
    have hbb : (raiseHighest l c.clientId).version = .bb := hver
    simp only [if_neg hpos, lobbyAddItem2Locked_bb _ hbb]
    by_cases hid : pkt.itemId ≠ mesetaId
    · simp only [if_pos hid]
      cases hi : itemIndex c.inv pkt.itemId with
      | none => simp [dropStackItem, hid, hi] at hitem
      | some i =>
        have hsplit : itemData = splitItem c i pkt.amount := by
          simpa [dropStackItem, hid, hi] using hitem.symm
        rw [hsplit]
        exact .splitDropped hreach hid hi
    · have hmeseta : itemData = mesetaItem junk pkt.amount := by
        simpa [dropStackItem, hid] using hitem.symm
      rw [hmeseta]
      simp only [if_neg hid]
      rw [not_not] at hid
      split_ifs with hpaid
      · exact .mesetaDropped hreach hid (if_pos hpaid).symm id
      · exact .mesetaDropped hreach hid (if_neg hpaid).symm (fun _ => rfl)

theorem handleBbPickUp_moves (c : BbClient) (l : GameLobby) (pkt : PickUpPkt) :
    Moves c l (.pickUp pkt) (handleBbPickUp c l pkt).2.1 (handleBbPickUp c l pkt).2.2 := by
  unfold handleBbPickUp
  split_ifs
  · exact .unchanged
  · exact .unchanged
  unfold lobbyRemoveItemLocked
  by_cases hver : l.version ≠ .bb
  · simp only [if_pos hver]
    exact .unchanged
  simp only [if_neg hver]
  cases l.itemQueue.findFinIdx? (fun it => it.itemId = pkt.itemId) with
  | none => exact .unchanged
  | some i =>
    by_cases hkind : l.itemQueue[i].dataL0 = itemMeseta
    · simp only [if_pos hkind]
      exact .mesetaPickedUp hkind rfl
    · simp only [if_neg hkind]
      exact .itemPickedUp

theorem bankDeposit_moves (c : BbClient) (l : GameLobby) (pkt : BankActPkt)
    (htype : l.type ≠ .lobby) (hlen : pkt.pktLen = 0x18) (hsize : pkt.size = 0x04)
    (haction : pkt.action = subcmdBankActDeposit) :
    Moves c l (.bankAction pkt) (bankDeposit c pkt).2 l := by
  unfold bankDeposit
  by_cases hid : pkt.itemId = mesetaId
  · simp only [if_pos hid]
    split_ifs with henough hcapped
    · exact .unchanged
    · exact .unchanged
    · exact .mesetaDeposited henough hcapped
  simp only [if_neg hid]
  cases hi : itemIndex c.inv pkt.itemId with
  | none => exact .unchanged
  | some i =>
    by_cases hmany : itemIsStackable c.inv.toList[i].dataL0 = false ∧ 1 < pkt.itemAmount
    · simp only [if_pos hmany]
      exact .unchanged
    have hreach : ReachesBank c l pkt i := by
      refine ⟨htype, hlen, hsize, haction, hid, hi, ?_⟩
      intro hstack
      exact BitVec.not_lt.mp (fun h => hmany ⟨hstack, h⟩)
    have hfound : ¬ ((itemRemoveFromInv c.inv pkt.itemId (pkt.itemAmount.setWidth 32)).1 < 0 ∨
        1 < (itemRemoveFromInv c.inv pkt.itemId (pkt.itemAmount.setWidth 32)).1) := by
      simp only [itemRemoveFromInv, hi]
      split_ifs <;> omega
    simp only [if_neg hmany, if_neg hfound]
    exact .itemDeposited hreach (itemDatas_unequipped _ _)

theorem bankTake_moves (c : BbClient) (l : GameLobby) (pkt : BankActPkt)
    (haction : pkt.action = subcmdBankActTake) :
    Moves c l (.bankAction pkt) (bankTake c l pkt).2.1 (bankTake c l pkt).2.2 := by
  unfold bankTake
  by_cases hid : pkt.itemId = mesetaId
  · simp only [if_pos hid]
    split_ifs with hmuch henough
    · exact .unchanged
    · exact .unchanged
    · exact .mesetaTaken henough hmuch
  simp only [if_neg hid]
  cases htaken : itemTakeFromBank c.bank pkt.itemId pkt.itemAmount with
  | none => exact .unchanged
  | some taken =>
    obtain ⟨bitem, bank⟩ := taken
    simp only
    split_ifs
    · exact .itemReturned haction htaken
    · exact .itemTaken haction htaken

theorem handleBbBankAction_moves (c : BbClient) (l : GameLobby) (pkt : BankActPkt) :
    Moves c l (.bankAction pkt) (handleBbBankAction c l pkt).2.1
      (handleBbBankAction c l pkt).2.2 := by
  unfold handleBbBankAction
  split_ifs with htype hsize hdone hdeposit htake
  · exact .unchanged
  · exact .unchanged
  · exact .unchanged
  · simp only [not_or, not_not] at hsize
    exact bankDeposit_moves c l pkt htype hsize.1 hsize.2 hdeposit
  · exact bankTake_moves c l pkt htake
  · exact .unchanged

/-- Every packet does to its sender and the lobby one of the listed moves. -/
theorem handlePacket_moves (c : BbClient) (l : GameLobby) (p : Packet) :
    Moves c l p (handlePacket c l p).2.1 (handlePacket c l p).2.2 := by
  cases p with
  | dropItem pkt isframe => exact handleBbDropItem_moves c l pkt isframe
  | dropPos pkt => exact handleBbDropPos_moves c l pkt
  | dropStack pkt junk => exact handleBbDropStack_moves c l pkt junk
  | pickUp pkt => exact handleBbPickUp_moves c l pkt
  | bankAction pkt => exact handleBbBankAction_moves c l pkt

theorem next_packet {g : BbGame} {slot : Fin 4} {c : BbClient} (p : Packet)
    (hc : g.members slot = some c) :
    g.next (.packet slot p) =
      g.setMember slot (some (handlePacket c g.lobby p).2.1) (handlePacket c g.lobby p).2.2 := by
  simp only [BbGame.next, hc]

end ShipServer.BlueBurstMoves
