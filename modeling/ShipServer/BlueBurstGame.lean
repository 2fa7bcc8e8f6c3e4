import ShipServer.Items
import ShipServer.Versions

set_option autoImplicit false

/-! The items of a Blue Burst game: the floor queue and id counters of the lobby, the
inventory and bank of each member, and the packet handlers that move items between them. -/

namespace ShipServer.BlueBurstGame

open BoundedLists Items Versions

/-- The item state of a Blue Burst `ship_client_t`: its `bb_pl` record, the copy of the carried
meseta in `pl`, the `items` array kept from the character data it logged in with, and the last
recorded drop position. -/
structure BbClient where
  clientId : Fin 4
  inv : Inventory
  bank : Bank
  meseta : BitVec 32
  plMeseta : BitVec 32
  bankMeseta : BitVec 32
  items : Fin 30 → Item
  dropItem : BitVec 32
  dropAmt : BitVec 32

/-- The item state of a `lobby_t`. -/
structure GameLobby where
  type : LobbyType
  version : ClientVersion
  maxClients : ℕ
  itemId : BitVec 32
  highestItem : Fin 4 → BitVec 32
  itemQueue : List Item

/-- `subcmd_bb_drop_item_t`. -/
structure DropItemPkt where
  pktLen : BitVec 16
  size : BitVec 8
  clientId : BitVec 8
  itemId : BitVec 32

/-- `subcmd_bb_drop_pos_t`. -/
structure DropPosPkt where
  pktLen : BitVec 16
  size : BitVec 8
  clientId : BitVec 8
  itemId : BitVec 32
  amount : BitVec 32

/-- `subcmd_bb_destroy_item_t`, which is also the drop-stack packet. -/
structure DestroyItemPkt where
  pktLen : BitVec 16
  size : BitVec 8
  clientId : BitVec 8
  itemId : BitVec 32
  amount : BitVec 32

/-- `subcmd_bb_pick_up_t`. -/
structure PickUpPkt where
  pktLen : BitVec 16
  size : BitVec 8
  clientId : BitVec 8
  itemId : BitVec 32

/-- `subcmd_bb_bank_act_t`. -/
structure BankActPkt where
  pktLen : BitVec 16
  size : BitVec 8
  itemId : BitVec 32
  mesetaAmount : BitVec 32
  action : BitVec 8
  itemAmount : BitVec 8

def subcmdBankActDeposit : BitVec 8 := 0

def subcmdBankActTake : BitVec 8 := 1

def subcmdBankActDone : BitVec 8 := 2

def subcmdBankActClose : BitVec 8 := 3

def lobbyAddItemLocked (l : GameLobby) (itemData : Fin 4 → BitVec 32) : Option GameLobby :=
  if l.version ≠ .bb then
    none
  else
    let item : Item :=
      { itemId := l.itemId, dataL0 := itemData 0, dataL1 := itemData 1, dataL2 := itemData 2,
        data2L := itemData 3, equipped := 0, tech := 0, flags := 0 }
    some { l with itemId := l.itemId + 1, itemQueue := item :: l.itemQueue }

def lobbyAddItem2Locked (l : GameLobby) (it : Item) : Option GameLobby :=
  if l.version ≠ .bb then none else some { l with itemQueue := it :: l.itemQueue }

/-- The item taken off the floor, or the source's nonzero return value. -/
def lobbyRemoveItemLocked (l : GameLobby) (itemId : BitVec 32) :
    Except Int (Item × GameLobby) :=
  if l.version ≠ .bb then
    .error (-1)
  else
    match l.itemQueue.findFinIdx? (fun it => it.itemId = itemId) with
    | none => .error 1
    | some i => .ok (l.itemQueue[i], { l with itemQueue := l.itemQueue.eraseIdx i })

def clearEquipped (it : Item) : Item :=
  { it with flags := it.flags &&& 0xFFFFFFF7 }

def isEquippedFrame (it : Item) : Bool :=
  it.type = itemTypeGuard && it.subtype = itemSubtypeFrame && it.flags &&& 0x00000008 ≠ 0

def unequipUnit (it : Item) : Item :=
  if it.type = itemTypeGuard ∧ it.subtype = itemSubtypeUnit then clearEquipped it else it

/-- `isframe` is the value the source's uninitialised flag happens to have. -/
def handleBbDropItem (c : BbClient) (l : GameLobby) (pkt : DropItemPkt) (isframe : Bool) :
    Int × BbClient × GameLobby :=
  if l.type = .lobby then
    (-1, c, l)
  else if pkt.pktLen ≠ 0x20 ∨ pkt.size ≠ 0x06 ∨ pkt.clientId.toNat ≠ c.clientId then
    (-1, c, l)
  else
    match itemIndex c.inv pkt.itemId with
    | none => (-1, c, l)
    | some found =>
      let it := c.inv.toList[found]
      let isframe := isframe || isEquippedFrame it
      let inv := c.inv.set found (clearEquipped it)
      let inv := if isframe then inv.map unequipUnit else inv
      let dropped := if isframe then unequipUnit (clearEquipped it) else clearEquipped it
      match lobbyAddItem2Locked l dropped with
      | none => (-1, { c with inv := inv }, l)
      | some l =>
        let (removed, inv) := itemRemoveFromInv inv pkt.itemId 0xFFFFFFFF
        (if removed < 1 then -1 else 0, { c with inv := inv }, l)

def handleBbDropPos (c : BbClient) (l : GameLobby) (pkt : DropPosPkt) :
    Int × BbClient × GameLobby :=
  if l.type = .lobby then
    (-1, c, l)
  else if pkt.pktLen ≠ 0x20 ∨ pkt.size ≠ 0x06 ∨ pkt.clientId.toNat ≠ c.clientId then
    (-1, c, l)
  else if pkt.itemId ≠ mesetaId ∧ itemIndex c.inv pkt.itemId = none then
    (-1, c, l)
  else if pkt.itemId = mesetaId ∧ c.meseta < pkt.amount then
    (-1, c, l)
  else
    (0, { c with dropItem := pkt.itemId, dropAmt := pkt.amount }, l)

/-- The entry of `c->items` at an inventory position. -/
def staleItem (c : BbClient) (found : Fin c.inv.toList.length) : Item :=
  c.items (found.castLE c.inv.length_le)

def splitItem (c : BbClient) (found : Fin c.inv.toList.length) (amount : BitVec 32) : Item :=
  let it := staleItem c found
  { it with toItemData := it.setDataB5 (amount.setWidth 8) }

/-- The fields of `junk` that survive are those that the source leaves uninitialised. -/
def mesetaItem (junk : Item) (amount : BitVec 32) : Item :=
  { junk with dataL0 := itemMeseta, dataL1 := 0, dataL2 := 0, data2L := amount }

/-- The floor item that a drop-stack packet describes, before it gets its id. -/
def dropStackItem (c : BbClient) (pkt : DestroyItemPkt) (junk : Item) : Option Item :=
  if pkt.itemId ≠ mesetaId then
    match itemIndex c.inv pkt.itemId with
    | none => none
    | some found => some (splitItem c found pkt.amount)
  else
    some (mesetaItem junk pkt.amount)

/-- `++l->highest_item[client_id]`. -/
def raiseHighest (l : GameLobby) (clientId : Fin 4) : GameLobby :=
  { l with highestItem :=
      Function.update l.highestItem clientId (l.highestItem clientId + 1) }

def handleBbDropStack (c : BbClient) (l : GameLobby) (pkt : DestroyItemPkt) (junk : Item) :
    Int × BbClient × GameLobby :=
  if l.type = .lobby then
    (-1, c, l)
  else if pkt.pktLen ≠ 0x14 ∨ pkt.size ≠ 0x03 ∨ pkt.clientId.toNat ≠ c.clientId then
    (-1, c, l)
  else
    match dropStackItem c pkt junk with
    | none => (-1, c, l)
    | some itemData =>
      let id := l.highestItem c.clientId + 1
      let l := raiseHighest l c.clientId
      if pkt.itemId ≠ c.dropItem ∨ pkt.amount ≠ c.dropAmt then
        (-1, c, l)
      else
        match lobbyAddItem2Locked l { itemData with itemId := id } with
        | none => (-1, c, l)
        | some l =>
          if pkt.itemId ≠ mesetaId then
            let (found, inv) := itemRemoveFromInv c.inv pkt.itemId pkt.amount
            (if found < 0 then -1 else 0, { c with inv := inv }, l)
          else if c.meseta < pkt.amount then
            (-1, c, l)
          else
            let meseta := c.meseta - pkt.amount
            (0, { c with meseta := meseta, plMeseta := meseta }, l)

def handleBbPickUp (c : BbClient) (l : GameLobby) (pkt : PickUpPkt) :
    Int × BbClient × GameLobby :=
  if l.type = .lobby then
    (-1, c, l)
  else if pkt.pktLen ≠ 0x14 ∨ pkt.size ≠ 0x03 ∨ pkt.clientId.toNat ≠ c.clientId then
    (-1, c, l)
  else
    match lobbyRemoveItemLocked l pkt.itemId with
    | .error found => (if found < 0 then -1 else 0, c, l)
    | .ok (item, l) =>
      if item.dataL0 = itemMeseta then
        let tmp := item.data2L + c.meseta
        let tmp := if 999999 < tmp then 999999 else tmp
        (0, { c with meseta := tmp, plMeseta := tmp }, l)
      else
        let (found, inv) := itemAddToInv c.inv { item with flags := 0, equipped := 1, tech := 0 }
        (if found = -1 then -1 else 0, { c with inv := inv }, l)

/-- The bank record that a deposit makes out of an inventory item. -/
def depositItem (it : Item) (itemAmount : BitVec 8) : BankItem :=
  if itemIsStackable it.dataL0 then
    { toItemData := it.setDataB5 itemAmount, amount := itemAmount.setWidth 16, flags := 1 }
  else
    { toItemData := it.toItemData, amount := 1, flags := 1 }

def bankDeposit (c : BbClient) (pkt : BankActPkt) : Int × BbClient :=
  if pkt.itemId = mesetaId then
    if c.meseta < pkt.mesetaAmount then
      (-1, c)
    else if 999999 < pkt.mesetaAmount + c.bankMeseta then
      (-1, c)
    else
      (0, { c with meseta := c.meseta - pkt.mesetaAmount
                   plMeseta := c.meseta - pkt.mesetaAmount
                   bankMeseta := c.bankMeseta + pkt.mesetaAmount })
  else
    match itemIndex c.inv pkt.itemId with
    | none => (-1, c)
    | some i =>
      let item := c.inv.toList[i]
      if itemIsStackable item.dataL0 = false ∧ 1 < pkt.itemAmount then
        (-1, c)
      else
        let (found, inv) := itemRemoveFromInv c.inv pkt.itemId (pkt.itemAmount.setWidth 32)
        if found < 0 ∨ 1 < found then
          (-1, { c with inv := inv })
        else
          let inv := if isEquippedFrame item then inv.map unequipUnit else inv
          let (stored, bank) := itemDepositToBank c.bank (depositItem item pkt.itemAmount)
          (if stored < 0 then -1 else 0, { c with inv := inv, bank := bank })

def bankTake (c : BbClient) (l : GameLobby) (pkt : BankActPkt) : Int × BbClient × GameLobby :=
  if pkt.itemId = mesetaId then
    if 999999 < pkt.mesetaAmount + c.meseta then
      (-1, c, l)
    else if c.bankMeseta < pkt.mesetaAmount then
      (-1, c, l)
    else
      (0, { c with meseta := c.meseta + pkt.mesetaAmount
                   plMeseta := c.meseta + pkt.mesetaAmount
                   bankMeseta := c.bankMeseta - pkt.mesetaAmount }, l)
  else
    match itemTakeFromBank c.bank pkt.itemId pkt.itemAmount with
    | none => (-1, c, l)
    | some (bitem, bank) =>
      let item : Item := { bitem with itemId := l.itemId, equipped := 1, tech := 0, flags := 0 }
      let l := { l with itemId := l.itemId + 1 }
      let (found, inv) := itemAddToInv c.inv item
      if found < 0 then
        (-1, { c with bank := (itemDepositToBank bank bitem).2 }, l)
      else
        (0, { c with inv := inv, bank := bank }, l)

def handleBbBankAction (c : BbClient) (l : GameLobby) (pkt : BankActPkt) :
    Int × BbClient × GameLobby :=
  if l.type = .lobby then
    (-1, c, l)
  else if pkt.pktLen ≠ 0x18 ∨ pkt.size ≠ 0x04 then
    (-1, c, l)
  else if pkt.action = subcmdBankActClose ∨ pkt.action = subcmdBankActDone then
    (0, c, l)
  else if pkt.action = subcmdBankActDeposit then
    let (rv, c) := bankDeposit c pkt
    (rv, c, l)
  else if pkt.action = subcmdBankActTake then
    bankTake c l pkt
  else
    (-1, c, l)

/-- The packets that move items. The uninitialised values that a handler reads travel with
its packet. -/
inductive Packet where
  | dropItem (pkt : DropItemPkt) (isframe : Bool)
  | dropPos (pkt : DropPosPkt)
  | dropStack (pkt : DestroyItemPkt) (junk : Item)
  | pickUp (pkt : PickUpPkt)
  | bankAction (pkt : BankActPkt)

def handlePacket (c : BbClient) (l : GameLobby) : Packet → Int × BbClient × GameLobby
  | .dropItem pkt isframe => handleBbDropItem c l pkt isframe
  | .dropPos pkt => handleBbDropPos c l pkt
  | .dropStack pkt junk => handleBbDropStack c l pkt junk
  | .pickUp pkt => handleBbPickUp c l pkt
  | .bankAction pkt => handleBbBankAction c l pkt

/-- A Blue Burst game and its members, by slot. -/
structure BbGame where
  lobby : GameLobby
  members : Fin 4 → Option BbClient

/-- The first item id that `join_game` hands out in a slot. -/
def firstJoinId (clientId : Fin 4) (highest : BitVec 32) : BitVec 32 :=
  0x00010000 ||| BitVec.ofNat 32 clientId <<< 21 ||| highest

/-- The inventory renumbering of `join_game`. -/
def renumber (inv : Inventory) (id : BitVec 32) : Inventory :=
  inv.mapIdx (fun i it => { it with itemId := id + BitVec.ofNat 32 i })

/-- `join_game` for a Blue Burst client that has been given a slot. -/
def joinGame (c : BbClient) (l : GameLobby) : BbClient × GameLobby :=
  let id := firstJoinId c.clientId (l.highestItem c.clientId)
  let last := id + BitVec.ofNat 32 c.inv.toList.length - 1
  ({ c with inv := renumber c.inv id },
    { l with highestItem := Function.update l.highestItem c.clientId last })

/-- The slot `lobby_add_client_locked` gives a newcomer. -/
def freeSlot (g : BbGame) : Option (Fin 4) :=
  (List.finRange 4).find? (fun i => i < g.lobby.maxClients ∧ (g.members i).isNone)

/-- What can happen to the items of a game: a member's item packet, a member leaving, a
client entering through `join_game` or through a bare change-lobby request, a member joining
its own game again, a member whose class another game refuses (`join_game` renumbers the
inventory after a -15 too, from the counters of that game), and a drop by the server. -/
inductive Event where
  | packet (slot : Fin 4) (p : Packet)
  | leave (slot : Fin 4)
  | join (c : BbClient)
  | enter (c : BbClient)
  | rejoin (slot : Fin 4)
  | refused (slot : Fin 4) (highest : BitVec 32)
  | serverDrop (itemData : Fin 4 → BitVec 32)

def BbGame.setMember (g : BbGame) (slot : Fin 4) (c : Option BbClient) (l : GameLobby) :
    BbGame :=
  { lobby := l, members := Function.update g.members slot c }

def BbGame.next (g : BbGame) : Event → BbGame
  | .packet slot p =>
    match g.members slot with
    | none => g
    | some c =>
      let (_, c, l) := handlePacket c g.lobby p
      g.setMember slot (some c) l
  | .leave slot => g.setMember slot none g.lobby
  | .join c =>
    match freeSlot g with
    | none => g
    | some slot =>
      let (c, l) := joinGame { c with clientId := slot } g.lobby
      g.setMember slot (some c) l
  | .enter c =>
    match freeSlot g with
    | none => g
    | some slot => g.setMember slot (some { c with clientId := slot }) g.lobby
  | .rejoin slot =>
    match g.members slot with
    | none => g
    | some c =>
      let (c, l) := joinGame c g.lobby
      g.setMember slot (some c) l
  | .refused slot highest =>
    match g.members slot with
    | none => g
    | some c =>
      let inv := renumber c.inv (firstJoinId c.clientId highest)
      g.setMember slot (some { c with inv := inv }) g.lobby
  | .serverDrop itemData =>
    match lobbyAddItemLocked g.lobby itemData with
    | none => g
    | some l => { g with lobby := l }

end ShipServer.BlueBurstGame
