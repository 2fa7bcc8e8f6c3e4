import ShipServer.BlueBurstMoves
import ShipServer.LabelledRuns

set_option autoImplicit false

namespace ShipServer.BlueBurstConservation

open BoundedLists Items BlueBurstGame BlueBurstMoves LabelledRuns

/-- How much of its kind an item record stands for: the amount of meseta, the size of a stack,
or one. -/
def quantity (it : ItemData) : ℕ :=
  if it.dataL0 = itemMeseta then it.data2L.toNat
  else if itemIsStackable it.dataL0 then it.dataB5.toNat
  else 1

/-- What an item record holds of the kind with the given code. -/
def held (kind : BitVec 32) (it : ItemData) : ℕ :=
  if it.dataL0 = kind then quantity it else 0

def holding (kind : BitVec 32) (c : BbClient) : ℕ :=
  tally (held kind) (itemDatas c.inv.toList) +
    tally (fun it => held kind it.toItemData) c.bank.toList +
    if kind = itemMeseta then c.meseta.toNat + c.bankMeseta.toNat else 0

def floorHolding (kind : BitVec 32) (queue : List Item) : ℕ :=
  tally (held kind) (itemDatas queue)

/-- What a game holds of one kind of item: on the floor, and in its members' inventories and
banks. -/
def total (kind : BitVec 32) (g : BbGame) : ℕ :=
  floorHolding kind g.lobby.itemQueue + ∑ slot, (g.members slot).elim 0 (holding kind)

theorem not_stackable_meseta : itemIsStackable itemMeseta = false := by
  decide

theorem quantity_stackable {it : ItemData} (h : itemIsStackable it.dataL0 = true) :
    quantity it = it.dataB5.toNat := by
  have hne : it.dataL0 ≠ itemMeseta := by
    intro heq
    rw [heq, not_stackable_meseta] at h
    exact absurd h Bool.false_ne_true
  rw [quantity, if_neg hne, if_pos h]

theorem held_setDataB5 (kind : BitVec 32) {it : ItemData} (n : BitVec 8)
    (h : itemIsStackable it.dataL0 = true) :
    held kind (it.setDataB5 n) = if it.dataL0 = kind then n.toNat else 0 := by
  have hstack : itemIsStackable (it.setDataB5 n).dataL0 = true := h
  rw [held, quantity_stackable hstack, ItemData.dataB5_setDataB5, ItemData.dataL0_setDataB5]

theorem held_le_of_quantity_le {kind : BitVec 32} {it it' : ItemData}
    (hcode : it.dataL0 = it'.dataL0) (h : quantity it ≤ quantity it') :
    held kind it ≤ held kind it' := by
  unfold held
  rw [hcode]
  split_ifs
  · exact h
  · exact le_rfl

/-- The part of an inventory entry that a removal of `amt` takes away. -/
def removedPart (it : ItemData) (amt : BitVec 32) : ItemData :=
  if itemIsStackable it.dataL0 ∧ amt ≠ 0xFFFFFFFF ∧ amt < it.dataB5.setWidth 32 then
    it.setDataB5 (amt.setWidth 8)
  else
    it

theorem toNat_stack_sub {stack : BitVec 8} {amt : BitVec 32} (h : amt < stack.setWidth 32) :
    (amt.setWidth 8).toNat = amt.toNat ∧
      ((stack.setWidth 32 - amt).setWidth 8).toNat = stack.toNat - amt.toNat := by
  have hstack := stack.isLt
  have hlt : amt.toNat < stack.toNat := by
    simpa [BitVec.lt_def, Nat.mod_eq_of_lt (by omega : stack.toNat < 4294967296)] using h
  constructor
  · rw [BitVec.toNat_setWidth]
    omega
  · rw [BitVec.toNat_setWidth, BitVec.toNat_sub, BitVec.toNat_setWidth]
    omega

/-- A removal takes its part out of the inventory and leaves the rest. -/
theorem itemRemoveFromInv_held {inv : Inventory} {itemId : BitVec 32}
    {i : Fin inv.toList.length} (hi : itemIndex inv itemId = some i) (amt kind : BitVec 32) :
    held kind (removedPart (inv.toList.get i).toItemData amt) +
        tally (held kind) (itemDatas (itemRemoveFromInv inv itemId amt).2.toList) =
      tally (held kind) (itemDatas inv.toList) := by
  simp only [get_fin, Fin.is_lt] at *
  have hlen : (i : ℕ) < (itemDatas inv.toList).length := by
    simp [itemDatas]
  have hget : (itemDatas inv.toList)[(i : ℕ)] = inv.toList[i].toItemData := by
    simp [itemDatas]
  simp only [itemRemoveFromInv, hi, removedPart]
  split_ifs with hpart
  · obtain ⟨hstack, -, hlt⟩ := hpart
    obtain ⟨htake, hleave⟩ := toNat_stack_sub hlt
    have hset := tally_set (held kind) hlen
      (inv.toList[i].setDataB5 ((inv.toList[i].dataB5.setWidth 32 - amt).setWidth 8))
    have hle : amt.toNat < (inv.toList[i].dataB5.setWidth 32).toNat := hlt
    rw [BitVec.toNat_setWidth] at hle
    rw [hget, held_setDataB5 kind _ hstack, hleave, held, quantity_stackable hstack] at hset
    rw [BoundedList.toList_set, itemDatas_set, held_setDataB5 kind _ hstack, htake]
    by_cases hkind : inv.toList[i].dataL0 = kind
    · simp only [if_pos hkind] at hset ⊢
      omega
    · simp only [if_neg hkind] at hset ⊢
      omega
  · have herase := tally_eraseIdx (held kind) hlen
    rw [hget] at herase
    rw [BoundedList.toList_eraseIdx, itemDatas_eraseIdx]
    exact herase

/-- Whatever is no larger than the entry, and than the amount asked for when it is a stack, can
be put elsewhere while the entry is removed. -/
theorem itemRemoveFromInv_held_le {inv : Inventory} {itemId : BitVec 32}
    {i : Fin inv.toList.length} (hi : itemIndex inv itemId = some i) {amt : BitVec 32}
    {d : ItemData} (hcode : d.dataL0 = (inv.toList.get i).dataL0)
    (hle : quantity d ≤ quantity (inv.toList.get i).toItemData)
    (hamt : itemIsStackable d.dataL0 = true → d.dataB5.toNat ≤ amt.toNat)
    (kind : BitVec 32) :
    held kind d + tally (held kind) (itemDatas (itemRemoveFromInv inv itemId amt).2.toList) ≤
      tally (held kind) (itemDatas inv.toList) := by
  simp only [get_fin, Fin.is_lt] at *
  have hremove := itemRemoveFromInv_held hi amt kind
  simp only [get_fin, Fin.is_lt] at hremove
  have hpart : held kind d ≤ held kind (removedPart inv.toList[i].toItemData amt) := by
    unfold removedPart
    split_ifs with h
    · obtain ⟨hstack, -, hlt⟩ := h
      refine held_le_of_quantity_le hcode ?_
      rw [quantity_stackable (hcode ▸ hstack)]
      have hsplit : itemIsStackable (inv.toList[i].setDataB5 (amt.setWidth 8)).dataL0 = true :=
        hstack
      rw [quantity_stackable hsplit, ItemData.dataB5_setDataB5, (toNat_stack_sub hlt).1]
      exact hamt (hcode ▸ hstack)
    · exact held_le_of_quantity_le hcode hle
  omega

theorem held_merge_le (kind : BitVec 32) {x it : ItemData} (hcode : x.dataL0 = it.dataL0)
    (hstack : itemIsStackable it.dataL0 = true) :
    held kind (x.setDataB5 (x.dataB5 + it.dataB5)) ≤ held kind x + held kind it := by
  have hx : itemIsStackable x.dataL0 = true := hcode ▸ hstack
  rw [held_setDataB5 kind _ hx, held, held, quantity_stackable hx, quantity_stackable hstack,
    hcode, BitVec.toNat_add]
  split_ifs
  · exact Nat.mod_le _ _
  · exact Nat.zero_le _

theorem itemAddToInv_held_le (inv : Inventory) (it : Item) (kind : BitVec 32) :
    tally (held kind) (itemDatas (itemAddToInv inv it).2.toList) ≤
      tally (held kind) (itemDatas inv.toList) + held kind it.toItemData := by
  have hpush (h : inv.toList.length < 30) :
      tally (held kind) (itemDatas (inv.push it h).toList) =
        tally (held kind) (itemDatas inv.toList) + held kind it.toItemData := by
    simp [itemDatas]
  unfold itemAddToInv
  split_ifs with hroom hstack
  · cases itemIndex inv it.itemId with
    | some _ => exact Nat.le_add_right _ _
    | none =>
      cases hfind : inv.toList.findFinIdx? (fun x => x.dataL0 = it.dataL0) with
      | none => exact (hpush hroom).le
      | some i =>
        have hcode : inv.toList[i].dataL0 = it.dataL0 := by
          simpa using (List.findFinIdx?_eq_some_iff.mp hfind).1
        have hlen : (i : ℕ) < (itemDatas inv.toList).length := by
          simp [itemDatas]
        have hset := tally_set (held kind) hlen
          (inv.toList[i].setDataB5 (inv.toList[i].dataB5 + it.dataB5))
        have hget : (itemDatas inv.toList)[(i : ℕ)] = inv.toList[i].toItemData := by
          simp [itemDatas]
        rw [hget] at hset
        have hmerge := held_merge_le kind hcode hstack
        simp only [BoundedList.toList_set, itemDatas_set]
        omega
  · cases itemIndex inv it.itemId with
    | some _ => exact Nat.le_add_right _ _
    | none => exact (hpush hroom).le
  · exact Nat.le_add_right _ _

theorem itemDepositToBank_held_le (bank : Bank) (it : BankItem) (kind : BitVec 32) :
    tally (fun b => held kind b.toItemData) (itemDepositToBank bank it).2.toList ≤
      tally (fun b => held kind b.toItemData) bank.toList + held kind it.toItemData := by
  have hpush (h : bank.toList.length < 200) :
      tally (fun b => held kind b.toItemData) (bank.push it h).toList =
        tally (fun b => held kind b.toItemData) bank.toList + held kind it.toItemData := by
    simp
  unfold itemDepositToBank
  split_ifs with hroom hstack
  · cases hfind : bank.toList.findFinIdx? (fun x => x.dataL0 = it.dataL0) with
    | none => exact (hpush hroom).le
    | some i =>
      have hcode : bank.toList[i].dataL0 = it.dataL0 := by
        simpa using (List.findFinIdx?_eq_some_iff.mp hfind).1
      have hset := tally_set (fun b => held kind b.toItemData) i.isLt
        { bank.toList[i] with
          toItemData := bank.toList[i].setDataB5 (bank.toList[i].dataB5 + it.dataB5)
          amount := (bank.toList[i].dataB5 + it.dataB5).setWidth 16 }
      have hmerge := held_merge_le kind hcode hstack
      simp only [BoundedList.toList_set]
      simp only [Fin.getElem_fin] at hset hmerge ⊢
      omega
  · exact (hpush hroom).le
  · exact Nat.le_add_right _ _

theorem itemTakeFromBank_held {bank bank' : Bank} {itemId : BitVec 32} {amt : BitVec 8}
    {it : BankItem} (h : itemTakeFromBank bank itemId amt = some (it, bank'))
    (kind : BitVec 32) :
    held kind it.toItemData + tally (fun b => held kind b.toItemData) bank'.toList =
      tally (fun b => held kind b.toItemData) bank.toList := by
  unfold itemTakeFromBank at h
  cases hfind : bank.toList.findFinIdx? (fun x => x.itemId = itemId) with
  | none => simp [hfind] at h
  | some i =>
    simp only [hfind] at h
    split_ifs at h with hpart hmore
    · obtain ⟨hstack, hlt⟩ := hpart
      obtain ⟨rfl, rfl⟩ := Prod.mk.inj (Option.some.inj h)
      have hset := tally_set (fun b => held kind b.toItemData) i.isLt
        { bank.toList[i] with
          toItemData := bank.toList[i].setDataB5 (bank.toList[i].dataB5 - amt)
          amount := (bank.toList[i].dataB5 - amt).setWidth 16 }
      have hsub : (bank.toList[i].dataB5 - amt).toNat = bank.toList[i].dataB5.toNat - amt.toNat :=
        BitVec.toNat_sub_of_le (BitVec.le_of_lt hlt)
      have hlt' : amt.toNat < bank.toList[i].dataB5.toNat := hlt
      have hwhole : held kind bank.toList[i].toItemData =
          if bank.toList[i].dataL0 = kind then bank.toList[i].dataB5.toNat else 0 := by
        rw [held, quantity_stackable hstack]
      simp only [BoundedList.toList_set, held_setDataB5 kind _ hstack, hsub] at hset ⊢
      simp only [Fin.getElem_fin] at hset hwhole hlt' ⊢
      rw [hwhole] at hset
      split_ifs at hset ⊢ <;> omega
    · obtain ⟨rfl, rfl⟩ := Prod.mk.inj (Option.some.inj h)
      exact tally_eraseIdx (fun b => held kind b.toItemData) i.isLt

/-- The dropped stack is described by an entry of its own code and is no larger than the
inventory's stack, and dropped meseta is there to be dropped. -/
abbrev CoveredDrop (c : BbClient) (l : GameLobby) (pkt : DestroyItemPkt) : Prop :=
  ReachesFloor c l pkt →
    (pkt.itemId = mesetaId → pkt.amount ≤ c.meseta) ∧
    ∀ i, pkt.itemId ≠ mesetaId → itemIndex c.inv pkt.itemId = some i →
      quantity (splitItem c i pkt.amount).toItemData = 0 ∨
        ((staleItem c i).dataL0 = (c.inv.toList.get i).dataL0 ∧
          quantity (splitItem c i pkt.amount).toItemData ≤ quantity (c.inv.toList.get i).toItemData)

/-- The deposited stack is no larger than the inventory's stack. -/
abbrev CoveredDeposit (c : BbClient) (l : GameLobby) (pkt : BankActPkt) : Prop :=
  ∀ i, ReachesBank c l pkt i → c.bank.toList.length < 200 →
    itemIsStackable (c.inv.toList.get i).dataL0 = true → pkt.itemAmount ≤ (c.inv.toList.get i).dataB5

/-- The packet puts down no more than it takes. -/
def Covered (c : BbClient) (l : GameLobby) : Packet → Prop
  | .dropStack pkt _ => CoveredDrop c l pkt
  | .bankAction pkt => CoveredDeposit c l pkt
  | _ => True

instance (c : BbClient) (l : GameLobby) (p : Packet) : Decidable (Covered c l p) :=
  match p with
  | .dropStack pkt _ => inferInstanceAs (Decidable (CoveredDrop c l pkt))
  | .bankAction pkt => inferInstanceAs (Decidable (CoveredDeposit c l pkt))
  | .dropItem _ _ => isTrue trivial
  | .dropPos _ => isTrue trivial
  | .pickUp _ => isTrue trivial

theorem holding_congr {kind : BitVec 32} {c : BbClient} {inv : Inventory}
    (h : itemDatas inv.toList = itemDatas c.inv.toList) :
    holding kind { c with inv := inv } = holding kind c := by
  unfold holding
  rw [h]

theorem held_mesetaItem (kind : BitVec 32) (junk : Item) (amount id : BitVec 32) :
    held kind { (mesetaItem junk amount).toItemData with itemId := id } =
      if kind = itemMeseta then amount.toNat else 0 := by
  unfold held quantity mesetaItem
  by_cases hkind : kind = itemMeseta
  · simp [hkind]
  · simp [hkind, Ne.symm hkind]

theorem floorHolding_cons (kind : BitVec 32) (it : Item) (queue : List Item) :
    floorHolding kind (it :: queue) = held kind it.toItemData + floorHolding kind queue := by
  simp [floorHolding, itemDatas]

theorem floorHolding_eraseIdx (kind : BitVec 32) {queue : List Item} (i : Fin queue.length) :
    held kind (queue.get i).toItemData + floorHolding kind (queue.eraseIdx i) =
      floorHolding kind queue := by
  have hlen : (i : ℕ) < (itemDatas queue).length := by
    simp [itemDatas]
  have herase := tally_eraseIdx (held kind) hlen
  have hget : (itemDatas queue)[(i : ℕ)] = queue[i].toItemData := by
    simp [itemDatas]
  rw [hget, ← itemDatas_eraseIdx] at herase
  exact herase

/-- A covered split takes at least as much out of the inventory as it puts on the floor. -/
theorem splitDropped_held_le {c : BbClient} {itemId amount : BitVec 32}
    {i : Fin c.inv.toList.length} (hi : itemIndex c.inv itemId = some i)
    (hcov : quantity (splitItem c i amount).toItemData = 0 ∨
      ((staleItem c i).dataL0 = (c.inv.toList.get i).dataL0 ∧
        quantity (splitItem c i amount).toItemData ≤ quantity (c.inv.toList.get i).toItemData))
    (kind : BitVec 32) :
    held kind (splitItem c i amount).toItemData +
        tally (held kind) (itemDatas (itemRemoveFromInv c.inv itemId amount).2.toList) ≤
      tally (held kind) (itemDatas c.inv.toList) := by
  rcases hcov with hzero | ⟨hcode, hle⟩
  · have hnone : held kind (splitItem c i amount).toItemData = 0 := by
      rw [held, hzero, ite_self]
    have hremove := itemRemoveFromInv_held hi amount kind
    omega
  · refine itemRemoveFromInv_held_le (d := (splitItem c i amount).toItemData) hi hcode hle ?_ kind
    intro _
    change ((staleItem c i).toItemData.setDataB5 (amount.setWidth 8)).dataB5.toNat ≤ amount.toNat
    rw [ItemData.dataB5_setDataB5, BitVec.toNat_setWidth]
    exact Nat.mod_le _ _

/-- A covered deposit takes at least as much out of the inventory as it offers to the bank. -/
theorem deposited_held_le {c : BbClient} {itemId : BitVec 32} {itemAmount : BitVec 8}
    {i : Fin c.inv.toList.length} (hi : itemIndex c.inv itemId = some i)
    (hcov : itemIsStackable (c.inv.toList.get i).dataL0 = true →
      itemAmount ≤ (c.inv.toList.get i).dataB5)
    (kind : BitVec 32) :
    held kind (depositItem (c.inv.toList.get i) itemAmount).toItemData +
        tally (held kind)
          (itemDatas (itemRemoveFromInv c.inv itemId (itemAmount.setWidth 32)).2.toList) ≤
      tally (held kind) (itemDatas c.inv.toList) := by
  unfold depositItem
  split_ifs with hstack
  · refine itemRemoveFromInv_held_le (d := c.inv.toList[i].setDataB5 itemAmount) hi rfl
      ?_ ?_ kind
    · have hsplit : itemIsStackable (c.inv.toList[i].setDataB5 itemAmount).dataL0 = true := hstack
      rw [quantity_stackable hsplit, quantity_stackable hstack, ItemData.dataB5_setDataB5]
      exact hcov hstack
    · intro _
      have hsmall := itemAmount.isLt
      rw [ItemData.dataB5_setDataB5, BitVec.toNat_setWidth]
      omega
  · refine itemRemoveFromInv_held_le hi rfl le_rfl ?_ kind
    intro h
    exact absurd h hstack

/-- A covered packet does not raise what its sender and the floor hold together. -/
theorem moves_holding_le {c c' : BbClient} {l l' : GameLobby} {p : Packet}
    (h : Moves c l p c' l') (hcov : Covered c l p) (kind : BitVec 32) :
    holding kind c' + floorHolding kind l'.itemQueue ≤
      holding kind c + floorHolding kind l.itemQueue := by
  cases h with
  | unchanged => exact le_rfl
  | unequipped same => rw [holding_congr same]
  | @dropped pkt isframe inv it i floor left =>
    simp only [get_fin, Fin.is_lt] at *
    have hlen : (i : ℕ) < (itemDatas c.inv.toList).length := by
      simp [itemDatas]
    have hget : (itemDatas c.inv.toList)[(i : ℕ)] = c.inv.toList[i].toItemData := by
      simp [itemDatas]
    have herase := tally_eraseIdx (held kind) hlen
    rw [hget, ← floor, ← left] at herase
    simp only [holding, floorHolding_cons]
    omega
  | noted => exact le_rfl
  | counted raises => exact le_rfl
  | @splitDropped pkt junk i reaches isItem found =>
    have hsplit := splitDropped_held_le found ((hcov reaches).2 i isItem found) kind
    have hfloor : held kind { (splitItem c i pkt.amount).toItemData with
        itemId := l.highestItem c.clientId + 1 } = held kind (splitItem c i pkt.amount).toItemData :=
      rfl
    simp only [holding, floorHolding_cons, hfloor]
    omega
  | @mesetaDropped pkt junk meseta plMeseta reaches isMeseta paid _ =>
    have henough := (hcov reaches).1 isMeseta
    rw [if_neg (BitVec.not_lt.mpr henough)] at paid
    have hpaid : meseta.toNat = c.meseta.toNat - pkt.amount.toNat := by
      rw [paid, BitVec.toNat_sub_of_le henough]
    have hle : pkt.amount.toNat ≤ c.meseta.toNat := henough
    have hfloor := held_mesetaItem kind junk pkt.amount (l.highestItem c.clientId + 1)
    simp only [holding, floorHolding_cons, hfloor]
    split_ifs <;> omega
  | @mesetaPickedUp pkt i meseta hkind sum =>
    have hfloor := floorHolding_eraseIdx kind i
    simp only [get_fin, Fin.is_lt] at *
    have hcap : meseta.toNat ≤ l.itemQueue[i].data2L.toNat + c.meseta.toNat := by
      have hadd : (l.itemQueue[i].data2L + c.meseta).toNat ≤
          l.itemQueue[i].data2L.toNat + c.meseta.toNat := by
        rw [BitVec.toNat_add]
        exact Nat.mod_le _ _
      rw [sum]
      split_ifs with hmuch
      · exact (BitVec.le_of_lt hmuch).trans hadd
      · exact hadd
    have hheld : held kind l.itemQueue[i].toItemData =
        if kind = itemMeseta then l.itemQueue[i].data2L.toNat else 0 := by
      simp only [held, quantity, hkind, if_true, eq_comm]
    simp only [holding]
    split_ifs at hheld ⊢ <;> omega
  | @itemPickedUp pkt i =>
    have hfloor := floorHolding_eraseIdx kind i
    simp only [get_fin, Fin.is_lt] at *
    have hadd := itemAddToInv_held_le c.inv (pickedUp l.itemQueue[i]) kind
    have hsame : (pickedUp l.itemQueue[i]).toItemData = l.itemQueue[i].toItemData := rfl
    rw [hsame] at hadd
    simp only [holding]
    omega
  | @mesetaDeposited pkt enough _ =>
    have hle : pkt.mesetaAmount.toNat ≤ c.meseta.toNat := BitVec.not_lt.mp enough
    have hsub := BitVec.toNat_sub_of_le (BitVec.not_lt.mp enough)
    have hadd : (c.bankMeseta + pkt.mesetaAmount).toNat ≤
        c.bankMeseta.toNat + pkt.mesetaAmount.toNat := by
      rw [BitVec.toNat_add]
      exact Nat.mod_le _ _
    simp only [holding]
    split_ifs <;> omega
  | @mesetaTaken pkt enough _ =>
    have hle : pkt.mesetaAmount.toNat ≤ c.bankMeseta.toNat := BitVec.not_lt.mp enough
    have hsub := BitVec.toNat_sub_of_le (BitVec.not_lt.mp enough)
    have hadd : (c.meseta + pkt.mesetaAmount).toNat ≤
        c.meseta.toNat + pkt.mesetaAmount.toNat := by
      rw [BitVec.toNat_add]
      exact Nat.mod_le _ _
    simp only [holding]
    split_ifs <;> omega
  | @itemDeposited pkt i inv reaches left =>
    have hindex : itemIndex c.inv pkt.itemId = some i := reaches.2.2.2.2.2.1
    simp only [holding, left]
    by_cases hroom : c.bank.toList.length < 200
    · have htake := deposited_held_le hindex (hcov i reaches hroom) kind
      have hstore := itemDepositToBank_held_le c.bank
        (depositItem (c.inv.toList.get i) pkt.itemAmount) kind
      omega
    · have hremove := itemRemoveFromInv_held hindex (pkt.itemAmount.setWidth 32) kind
      have hfull : (itemDepositToBank c.bank
          (depositItem (c.inv.toList.get i) pkt.itemAmount)).2 = c.bank := by
        rw [itemDepositToBank, dif_neg hroom]
      rw [hfull]
      omega
  | @itemTaken pkt bitem bank action taken =>
    have htake := itemTakeFromBank_held taken kind
    have hadd := itemAddToInv_held_le c.inv (withdrawn bitem l.itemId) kind
    have hsame : held kind (withdrawn bitem l.itemId).toItemData = held kind bitem.toItemData := rfl
    rw [hsame] at hadd
    simp only [holding]
    omega
  | @itemReturned pkt bitem bank action taken =>
    have htake := itemTakeFromBank_held taken kind
    have hback := itemDepositToBank_held_le bank bitem kind
    simp only [holding]
    omega

/-- The events of the packets of members, and of members leaving. -/
def OfMember : Event → Prop
  | .packet _ _ => True
  | .leave _ => True
  | _ => False

/-- The event is not a packet that puts down more than it takes. -/
def CoveredEvent (g : BbGame) : Event → Prop
  | .packet slot p => ∀ c ∈ g.members slot, Covered c g.lobby p
  | _ => True

theorem total_setMember (kind : BitVec 32) (g : BbGame) (slot : Fin 4) (c : Option BbClient)
    (l : GameLobby) :
    total kind (g.setMember slot c l) + (g.members slot).elim 0 (holding kind) +
        floorHolding kind g.lobby.itemQueue =
      total kind g + c.elim 0 (holding kind) + floorHolding kind l.itemQueue := by
  have hsum := sum_update_add (fun m : Option BbClient => m.elim 0 (holding kind)) g.members slot c
  simp only [total, BbGame.setMember]
  omega

theorem next_total_le {g : BbGame} {e : Event} (hmember : OfMember e) (hcov : CoveredEvent g e)
    (kind : BitVec 32) : total kind (g.next e) ≤ total kind g := by
  cases e with
  | packet slot p =>
    cases hc : g.members slot with
    | none => simp [BbGame.next, hc]
    | some c =>
      have hmove := moves_holding_le (handlePacket_moves c g.lobby p) (hcov c hc) kind
      have htotal := total_setMember kind g slot (some (handlePacket c g.lobby p).2.1)
        (handlePacket c g.lobby p).2.2
      rw [hc, Option.elim_some, Option.elim_some] at htotal
      rw [next_packet p hc]
      omega
  | leave slot =>
    have htotal := total_setMember kind g slot none g.lobby
    simp only [BbGame.next, Option.elim_none] at htotal ⊢
    omega
  | join c => exact hmember.elim
  | enter c => exact hmember.elim
  | rejoin slot => exact hmember.elim
  | refused slot highest => exact hmember.elim
  | serverDrop itemData => exact hmember.elim

/-- As long as no packet puts down more than it takes, no kind of item is ever duplicated,
made out of another kind, or created. -/
theorem bbItems_conserved {g g' : BbGame} {es : List Event}
    (h : Run (StepOf BbGame.next) (fun g e => OfMember e ∧ CoveredEvent g e) g es g')
    (kind : BitVec 32) : total kind g' ≤ total kind g := by
  refine h.measure_le (total kind) ?_
  intro u e v hgood hstep
  rw [hstep]
  exact next_total_le hgood.1 hgood.2 kind

def monomates (n : BitVec 8) (id : BitVec 32) : Item :=
  { dataL0 := 0x000003, dataL1 := n.setWidth 32 <<< 8, dataL2 := 0, itemId := id, data2L := 0,
    equipped := 0, tech := 0, flags := 0 }

/-- A game with one member, who carries a stack of monomates. -/
def soloGame (n : BitVec 8) : BbGame where
  lobby :=
    { type := .game, version := .bb, maxClients := 4, itemId := 0x00810000,
      highestItem := fun slot => if slot = 0 then 0x10000 else 0, itemQueue := [] }
  members := fun slot =>
    if slot = 0 then
      some { clientId := 0, inv := ⟨[monomates n 0x10000], by simp⟩, bank := .nil,
             meseta := 0, plMeseta := 0, bankMeseta := 0, items := fun _ => monomates n 0x10000,
             dropItem := 0, dropAmt := 0 }
    else
      none

/-- The two packets that drop part of the solo player's stack. -/
def dropMonomates (amount : BitVec 32) : List Event :=
  [.packet 0 (.dropPos { pktLen := 0x20, size := 0x06, clientId := 0, itemId := 0x10000,
                         amount := amount }),
   .packet 0 (.dropStack { pktLen := 0x14, size := 0x03, clientId := 0, itemId := 0x10000,
                           amount := amount } (monomates 0 0))]

/-- Dropping three of ten monomates keeps all of them. -/
theorem bbItems_conserved_solo :
    total 0x000003 ((dropMonomates 3).foldl BbGame.next (soloGame 10)) ≤
      total 0x000003 (soloGame 10) := by
  have hrun : Run (StepOf BbGame.next) (fun g e => OfMember e ∧ CoveredEvent g e)
      (soloGame 10) (dropMonomates 3) ((dropMonomates 3).foldl BbGame.next (soloGame 10)) := by
    refine .move ⟨trivial, ?_⟩ rfl (.move ⟨trivial, ?_⟩ rfl (.stop _))
    · rintro c ⟨⟩
      decide
    · rintro c ⟨⟩
      decide
  exact bbItems_conserved hrun 0x000003

/-- Dropping ten monomates out of a stack of one leaves ten of them on the floor. -/
theorem bbItems_not_conserved :
    ¬ ∀ (g : BbGame) (es : List Event), (∀ e ∈ es, OfMember e) →
      ∀ kind, total kind (es.foldl BbGame.next g) ≤ total kind g := by
  intro h
  have hle := h (soloGame 1) (dropMonomates 10) (by simp [dropMonomates, OfMember]) 0x000003
  revert hle
  decide

end ShipServer.BlueBurstConservation
