import ShipServer.BlueBurstMoves
import ShipServer.DropGenerators
import ShipServer.LabelledRuns

set_option autoImplicit false

/-! The inventory that a block keeps for a client, from the packets of the client. -/

namespace ShipServer.TrackedInventory

open BlueBurstGame (BbClient GameLobby Packet handlePacket)
open BoundedLists DropGenerators Items LabelledRuns Versions

/-- `inv` of the stored character, of which the array has 30 entries. -/
structure StoredInv where
  itemCount : BitVec 8
  items : ℕ → Item

/-- What a handler does with an entry of `c->items`, and with the rest of a packet of `len` bytes
from the autoreply on. -/
inductive Use where
  | item (i : ℕ)
  | autoreply (start : ℕ) (size : ℤ) (len : ℕ)

def Inside : Use → Prop
  | .item i => i < 30
  | .autoreply start size len => 0 ≤ size ∧ start + size ≤ len

/-- The inventory of a `ship_client_t`. `items` is the memory from `c->items` on, `pl` the stored
character, `bb` the record of a Blue Burst client, and `uses` what has been done so far. -/
structure Tracked where
  version : ClientVersion
  trackInventory : Bool
  itemCount : ℤ
  items : ℕ → Item
  pl : StoredInv
  bb : BbClient
  uses : List Use

/-- The parts of `dc_char_data_pkt` that the inventory depends on. The two layouts with an
autoreply have it in different places. -/
structure CharDataPkt where
  len : BitVec 16
  leaveGame : Bool
  flags : BitVec 8
  level : BitVec 32
  inv : StoredInv
  pcAutoreply : BitVec 16
  v3Autoreply : BitVec 8

inductive Layout where
  | v1
  | v2
  | pc
  | v3
  | v4
  deriving DecidableEq

/-- The layout that the character data is copied with, if any. -/
def layout (version : ClientVersion) (flags : BitVec 8) : Option Layout :=
  if flags = 1 then some .v1
  else if flags = 2 ∧ version = .dcv2 then some .v2
  else if flags = 2 ∧ version = .pc then some .pc
  else if flags = 3 then some .v3
  else if flags = 4 then some .v4
  else none

/-- `sizeof(pc_player_t)`. -/
def pcPlayerSize : ℕ := 1444

/-- `sizeof(v3_player_t)`. -/
def v3PlayerSize : ℕ := 1656

/-- What follows the character data in a packet, as `client_set_autoreply` is given it. -/
def restOfPacket (playerSize : ℕ) (len : BitVec 16) : Use :=
  .autoreply (4 + playerSize) (len.toNat - 4 - playerSize) len.toNat

/-- The autoreply that `dc_process_char` hands on. -/
def autoreply (version : ClientVersion) (pkt : CharDataPkt) : List Use :=
  match layout version pkt.flags with
  | some .pc =>
    if pkt.pcAutoreply ≠ 0 then [restOfPacket pcPlayerSize pkt.len] else []
  | some .v3 =>
    if pkt.v3Autoreply ≠ 0 then [restOfPacket v3PlayerSize pkt.len] else []
  | _ => []

/-- A loop that gives new ids to the first `count` items. -/
def renumberItems (items : ℕ → Item) (count : ℕ) (id : ℕ → BitVec 32) : ℕ → Item :=
  fun i => if i < count then { items i with itemId := id i } else items i

/-- The copy of the stored inventory at the end of both functions for character data. -/
def copyInventory (c : Tracked) : Tracked :=
  let items := fun i => if i < 30 then c.pl.items i else c.items i
  let count := c.pl.itemCount.toNat
  { c with
    itemCount := count
    items := renumberItems items count fun i => 0x00210000 ||| BitVec.ofNat 32 i
    uses := c.uses ++ (List.range 30).map Use.item ++ (List.range count).map Use.item }

/-- The part of `dc_process_char` that deals with the inventory. -/
def dcProcessChar (c : Tracked) (pkt : CharDataPkt) : Tracked :=
  if 199 < pkt.level then c
  else
    let c := { c with uses := c.uses ++ autoreply c.version pkt }
    let c := if layout c.version pkt.flags = none then c else { c with pl := pkt.inv }
    let c := copyInventory c
    if pkt.leaveGame then { c with trackInventory := false } else c

/-- The part of `bb_process_char` that deals with the inventory. -/
def bbProcessChar (c : Tracked) (inv : StoredInv) : Tracked :=
  let c := copyInventory { c with pl := inv }
  { c with bb := { c.bb with items := fun i => c.items i } }

/-- What a packet of a client finds in its lobby: `highestItem` is that of the client's slot,
`limits` the list of a game in legit mode, and `bankScript` the answer of the script for bank
actions. -/
structure Room where
  type : LobbyType
  numClients : ℕ
  clientId : BitVec 8
  highestItem : BitVec 32
  limits : Option (ItemVersion → ItemData → Bool)
  bankScript : Int

structure TakeItemPkt where
  size : BitVec 8
  clientId : BitVec 8
  item : ItemData

/-- The position of an item among the first `count`, or `count`. -/
def position (p : Item → Bool) (items : ℕ → Item) (count : ℕ) : ℕ :=
  ((List.range count).find? fun i => p (items i)).getD count

/-- The item of a stack that is in the inventory already. -/
def stackAt (c : Tracked) (dataL0 : BitVec 32) : ℕ :=
  position (fun it => it.dataL0 = dataL0) c.items c.itemCount.toNat

/-- Whether an item goes to a stack that is there. -/
def isStacked (c : Tracked) (dataL0 : BitVec 32) : Bool :=
  itemIsStackable dataL0 ∧ stackAt c dataL0 < c.itemCount.toNat

def raiseStack (c : Tracked) (i : ℕ) (amount : BitVec 32) : Tracked :=
  let it := c.items i
  { c with
    items := Function.update c.items i { it with dataL1 := it.dataL1 + amount }
    uses := c.uses ++ [.item i] }

/-- The item at the end of the inventory. Only its description is written. -/
def append (c : Tracked) (item : ItemData) : Tracked :=
  let i := c.itemCount.toNat
  { c with
    items := Function.update c.items i { c.items i with toItemData := item }
    itemCount := c.itemCount + 1
    uses := c.uses ++ [.item i] }

/-- The end of `handle_take_item` and of `handle_buy`. -/
def addTracked (c : Tracked) (item : ItemData) : Tracked :=
  if c.trackInventory = false then c
  else if isStacked c item.dataL0 then raiseStack c (stackAt c item.dataL0) item.dataL1
  else append c item

/-- `sylverant_limits_check_item` on an item taken from the bank, where there is a list. -/
def takeIsLegit (c : Tracked) (l : Room) (item : ItemData) : Bool :=
  match l.limits with
  | none => true
  | some check =>
    match itemVersion c.version with
    | none => false
    | some v => check v item

/-- The size that the first Dreamcast version gives is too small. -/
def takeSize (version : ClientVersion) (size : BitVec 8) : BitVec 8 :=
  if version = .dcv1 ∧ size = 0x06 then 0x07 else size

def handleTakeItem (c : Tracked) (l : Room) (pkt : TakeItemPkt) : Int × Tracked × Room :=
  if l.type = .lobby then (-1, c, l)
  else if takeSize c.version pkt.size ≠ 0x07 then (-1, c, l)
  else if l.numClients ≠ 1 ∧ pkt.clientId ≠ l.clientId then (-1, c, l)
  else if l.bankScript < 0 then (-1, c, l)
  else if takeIsLegit c l pkt.item = false then (-1, c, l)
  else
    (0, addTracked c pkt.item,
      { l with highestItem := (pkt.item.itemId.setWidth 16).setWidth 32 })

/-- `subcmd_buy_t`. The last word of an item that is bought is 0. -/
structure BuyPkt where
  size : BitVec 8
  clientId : BitVec 8
  item : Fin 3 → BitVec 32
  itemId : BitVec 32

def BuyPkt.itemData (pkt : BuyPkt) : ItemData where
  dataL0 := pkt.item 0
  dataL1 := pkt.item 1
  dataL2 := pkt.item 2
  itemId := pkt.itemId
  data2L := 0

def handleBuy (c : Tracked) (l : Room) (pkt : BuyPkt) : Int × Tracked × Room :=
  if l.type = .lobby then (-1, c, l)
  else if pkt.size ≠ 0x06 ∨ pkt.clientId ≠ l.clientId then (-1, c, l)
  else (0, addTracked c pkt.itemData, { l with highestItem := pkt.itemId })

/-- `item_remove_from_inv` on the memory of a client, with the entries it writes. -/
def removeFromItems (items : ℕ → Item) (invCount : ℤ) (itemId amt : BitVec 32) :
    Int × (ℕ → Item) × List ℕ :=
  let i := position (fun it => it.itemId = itemId) items invCount.toNat
  if i = invCount then (-1, items, [])
  else
    let it := items i
    let tmp := it.dataB5.setWidth 32
    if itemIsStackable it.dataL0 ∧ amt ≠ 0xFFFFFFFF ∧ amt < tmp then
      let it := { it with toItemData := it.setDataB5 ((tmp - amt).setWidth 8) }
      (0, Function.update items i it, [i])
    else
      (1, fun k => if i ≤ k ∧ k + 1 < invCount then items (k + 1) else items k,
        List.range' i (invCount - i - 1).toNat)

def removeTracked (c : Tracked) (itemId amt : BitVec 32) : Tracked :=
  let (num, items, written) := removeFromItems c.items c.itemCount itemId amt
  if num < 0 then c
  else
    { c with
      items := items
      itemCount := c.itemCount - num
      uses := c.uses ++ written.map Use.item }

structure DeletePkt where
  size : BitVec 8
  itemId : BitVec 32
  amount : BitVec 32

def handleDeleteInv (c : Tracked) (l : Room) (pkt : DeletePkt) : Int × Tracked :=
  if l.type = .lobby then (-1, c)
  else if pkt.size ≠ 0x03 then (-1, c)
  else if c.trackInventory = false ∨ pkt.itemId = mesetaId then (0, c)
  else (0, removeTracked c pkt.itemId pkt.amount)

structure UseItemPkt where
  size : BitVec 8
  itemId : BitVec 32

def handleUseItem (c : Tracked) (l : Room) (pkt : UseItemPkt) : Int × Tracked :=
  if l.type = .lobby then (-1, c)
  else if pkt.size ≠ 0x02 then (-1, c)
  else if c.trackInventory = false then (0, c)
  else (0, removeTracked c pkt.itemId 1)

/-- The ids that `join_game` gives to the items of other versions than Blue Burst. -/
def joinGame (c : Tracked) (firstId : BitVec 32) : Tracked :=
  { c with
    items := renumberItems c.items c.itemCount.toNat fun i => firstId + BitVec.ofNat 32 i
    uses := c.uses ++ (List.range c.itemCount.toNat).map Use.item }

/-- What happens to a client. The packets for items of Blue Burst have handlers of their own. -/
inductive Event where
  | char (pkt : CharDataPkt)
  | bbChar (inv : StoredInv)
  | trackInv
  | takeItem (l : Room) (pkt : TakeItemPkt)
  | buy (l : Room) (pkt : BuyPkt)
  | deleteInv (l : Room) (pkt : DeletePkt)
  | useItem (l : Room) (pkt : UseItemPkt)
  | joinGame (firstId : BitVec 32)
  | bbPacket (l : GameLobby) (p : Packet)
  | bbJoinGame (l : GameLobby)

/-- Which of the two functions for packets of a block an event comes from. -/
def Event.ofBb : Event → Option Bool
  | .bbChar _ | .bbPacket _ _ | .bbJoinGame _ => some true
  | .trackInv => none
  | _ => some false

def step (c : Tracked) : Event → Tracked
  | .char pkt => dcProcessChar c pkt
  | .bbChar inv => bbProcessChar c inv
  | .trackInv => { c with trackInventory := true }
  | .takeItem l pkt => (handleTakeItem c l pkt).2.1
  | .buy l pkt => (handleBuy c l pkt).2.1
  | .deleteInv l pkt => (handleDeleteInv c l pkt).2
  | .useItem l pkt => (handleUseItem c l pkt).2
  | .joinGame firstId => joinGame c firstId
  | .bbPacket l p => { c with bb := (handlePacket c.bb l p).2.1 }
  | .bbJoinGame l => { c with bb := (BlueBurstGame.joinGame c.bb l).1 }

/-- An event of the other family of versions does not happen. -/
def Reaches (c : Tracked) (e : Event) : Prop :=
  ∀ bb, e.ofBb = some bb → bb = decide (c.version = .bb)

instance (c : Tracked) (e : Event) : Decidable (Reaches c e) :=
  inferInstanceAs (Decidable (∀ bb, e.ofBb = some bb → bb = decide (c.version = .bb)))

def next (c : Tracked) (e : Event) : Tracked :=
  if Reaches c e then step c e else c

/-- A client that has just connected. -/
def connected (version : ClientVersion) (bb : BbClient) (blank : Item) : Tracked where
  version := version
  trackInventory := false
  itemCount := 0
  items := fun _ => blank
  pl := { itemCount := 0, items := fun _ => blank }
  bb := bb
  uses := []

structure Bounded (c : Tracked) : Prop where
  count_nonneg : 0 ≤ c.itemCount
  count_le : c.itemCount ≤ 30
  stored : c.pl.itemCount.toNat ≤ 30
  bb : c.bb.inv.toList.length ≤ 30
  inside : ∀ u ∈ c.uses, Inside u

/-- The autoreply starts within the packet. -/
def RepliesFit (version : ClientVersion) (pkt : CharDataPkt) : Prop :=
  (layout version pkt.flags = some .pc → pkt.pcAutoreply ≠ 0 →
    4 + pcPlayerSize ≤ pkt.len.toNat) ∧
  (layout version pkt.flags = some .v3 → pkt.v3Autoreply ≠ 0 →
    4 + v3PlayerSize ≤ pkt.len.toNat)

/-- Whether `handle_take_item` gets past its checks. -/
def TakePasses (c : Tracked) (l : Room) (pkt : TakeItemPkt) : Prop :=
  l.type ≠ .lobby ∧ takeSize c.version pkt.size = 0x07 ∧
    (l.numClients = 1 ∨ pkt.clientId = l.clientId) ∧ 0 ≤ l.bankScript ∧
    takeIsLegit c l pkt.item = true

def BuyPasses (l : Room) (pkt : BuyPkt) : Prop :=
  l.type ≠ .lobby ∧ pkt.size = 0x06 ∧ pkt.clientId = l.clientId

/-- There is room for an item, or a stack that it goes to. -/
def HasRoom (c : Tracked) (item : ItemData) : Prop :=
  c.trackInventory = true → isStacked c item.dataL0 = false → c.itemCount < 30

/-- The packets that the tracked inventory has room for. -/
def Meets (c : Tracked) (e : Event) : Prop :=
  Reaches c e →
    match e with
    | .char pkt => pkt.level ≤ 199 → RepliesFit c.version pkt ∧
        (layout c.version pkt.flags ≠ none → pkt.inv.itemCount ≤ 30)
    | .bbChar inv => inv.itemCount ≤ 30
    | .takeItem l pkt => TakePasses c l pkt → HasRoom c pkt.item
    | .buy l pkt => BuyPasses l pkt → HasRoom c pkt.itemData
    | _ => True

theorem position_le (p : Item → Bool) (items : ℕ → Item) (count : ℕ) :
    position p items count ≤ count := by
  rw [position]
  cases hfind : (List.range count).find? fun i => p (items i) with
  | none => exact le_rfl
  | some i =>
    have hi := List.mem_of_find?_eq_some hfind
    rw [List.mem_range] at hi
    exact hi.le

/-- The ids of all items are written, so an inventory that is copied has to fit. -/
theorem copyInventory_bounded_iff {c : Tracked} :
    Bounded (copyInventory c) ↔ c.pl.itemCount ≤ 30 ∧ ∀ u ∈ c.uses, Inside u := by
  constructor
  · intro h
    refine ⟨h.stored, fun u hu => h.inside u ?_⟩
    exact List.mem_append_left _ (List.mem_append_left _ hu)
  · rintro ⟨hcount, huses⟩
    have hle : c.pl.itemCount.toNat ≤ 30 := hcount
    refine ⟨?_, ?_, hle, c.bb.inv.length_le, ?_⟩
    · exact Int.natCast_nonneg _
    · change (c.pl.itemCount.toNat : ℤ) ≤ 30
      omega
    · intro u hu
      rcases List.mem_append.mp hu with hu | hu
      · rcases List.mem_append.mp hu with hu | hu
        · exact huses u hu
        · obtain ⟨i, hi, rfl⟩ := List.mem_map.mp hu
          exact List.mem_range.mp hi
      · obtain ⟨i, hi, rfl⟩ := List.mem_map.mp hu
        exact (List.mem_range.mp hi).trans_le hle

theorem restOfPacket_inside_iff {playerSize : ℕ} {len : BitVec 16} :
    Inside (restOfPacket playerSize len) ↔ 4 + playerSize ≤ len.toNat := by
  rw [restOfPacket, Inside]
  omega

theorem autoreply_inside_iff {version : ClientVersion} {pkt : CharDataPkt} :
    (∀ u ∈ autoreply version pkt, Inside u) ↔ RepliesFit version pkt := by
  rw [autoreply, RepliesFit]
  cases layout version pkt.flags with
  | none => simp
  | some y =>
    cases y with
    | pc => by_cases hreply : pkt.pcAutoreply = 0 <;> simp [hreply, restOfPacket_inside_iff]
    | v3 => by_cases hreply : pkt.v3Autoreply = 0 <;> simp [hreply, restOfPacket_inside_iff]
    | v1 => simp
    | v2 => simp
    | v4 => simp

/-- The flag for the tracking does not matter for the bounds. -/
theorem bounded_trackInventory_iff {c : Tracked} {b : Bool} :
    Bounded { c with trackInventory := b } ↔ Bounded c :=
  ⟨fun h => ⟨h.count_nonneg, h.count_le, h.stored, h.bb, h.inside⟩,
    fun h => ⟨h.count_nonneg, h.count_le, h.stored, h.bb, h.inside⟩⟩

theorem dcProcessChar_bounded_iff {c : Tracked} {pkt : CharDataPkt} (h : Bounded c) :
    Bounded (dcProcessChar c pkt) ↔ (pkt.level ≤ 199 → RepliesFit c.version pkt ∧
      (layout c.version pkt.flags ≠ none → pkt.inv.itemCount ≤ 30)) := by
  have huses : (∀ u ∈ c.uses ++ autoreply c.version pkt, Inside u) ↔
      RepliesFit c.version pkt := by
    rw [List.forall_mem_append, and_iff_right h.inside, autoreply_inside_iff]
  have hstored : c.pl.itemCount ≤ 30 := h.stored
  by_cases hlevel : 199 < pkt.level
  · rw [dcProcessChar, if_pos hlevel]
    exact iff_of_true h fun hle => absurd hle (BitVec.not_le.mpr hlevel)
  · let c' := { c with uses := c.uses ++ autoreply c.version pkt }
    have hcopy : Bounded (dcProcessChar c pkt) ↔ Bounded (copyInventory
        (if layout c.version pkt.flags = none then c' else { c' with pl := pkt.inv })) := by
      rw [dcProcessChar, if_neg hlevel]
      dsimp only
      cases pkt.leaveGame with
      | true => exact bounded_trackInventory_iff
      | false => exact Iff.rfl
    rw [hcopy, copyInventory_bounded_iff, forall_prop_of_true (BitVec.not_lt.mp hlevel)]
    split_ifs with hlayout
    · rw [huses, and_iff_right hstored]
      exact (and_iff_left fun hsome => absurd hlayout hsome).symm
    · rw [huses, forall_prop_of_true hlayout, and_comm]

theorem bbProcessChar_bounded_iff {c : Tracked} {inv : StoredInv} (h : Bounded c) :
    Bounded (bbProcessChar c inv) ↔ inv.itemCount ≤ 30 := by
  have hcopy := @copyInventory_bounded_iff { c with pl := inv }
  rw [and_iff_left h.inside] at hcopy
  rw [← hcopy]
  exact ⟨fun h => ⟨h.count_nonneg, h.count_le, h.stored, h.bb, h.inside⟩,
    fun h => ⟨h.count_nonneg, h.count_le, h.stored, h.bb, h.inside⟩⟩

theorem raiseStack_bounded {c : Tracked} {i : ℕ} {amount : BitVec 32} (h : Bounded c)
    (hi : i < c.itemCount.toNat) : Bounded (raiseStack c i amount) := by
  have hcount := h.count_le
  refine ⟨h.count_nonneg, h.count_le, h.stored, h.bb, ?_⟩
  refine List.forall_mem_append.mpr ⟨h.inside, ?_⟩
  rw [List.forall_mem_singleton, Inside]
  omega

theorem append_bounded_iff {c : Tracked} {item : ItemData} (h : Bounded c) :
    Bounded (append c item) ↔ c.itemCount < 30 := by
  have hnonneg := h.count_nonneg
  constructor
  · intro hafter
    have hle : c.itemCount + 1 ≤ 30 := hafter.count_le
    omega
  · intro hroom
    refine ⟨?_, ?_, h.stored, h.bb, ?_⟩
    · change 0 ≤ c.itemCount + 1
      omega
    · change c.itemCount + 1 ≤ 30
      omega
    · refine List.forall_mem_append.mpr ⟨h.inside, ?_⟩
      rw [List.forall_mem_singleton, Inside]
      omega

theorem addTracked_bounded_iff {c : Tracked} {item : ItemData} (h : Bounded c) :
    Bounded (addTracked c item) ↔ HasRoom c item := by
  rw [addTracked, HasRoom]
  split_ifs with htrack hstack
  · simp [htrack, h]
  · have hi : stackAt c item.dataL0 < c.itemCount.toNat := by
      rw [isStacked, decide_eq_true_eq] at hstack
      exact hstack.2
    simp [hstack, raiseStack_bounded h hi]
  · rw [append_bounded_iff h, Bool.not_eq_false] at *
    simp [htrack, hstack]

theorem removeTracked_bounded {c : Tracked} (itemId amt : BitVec 32) (h : Bounded c) :
    Bounded (removeTracked c itemId amt) := by
  have hnonneg := h.count_nonneg
  have hcount := h.count_le
  have hle := position_le (fun it => it.itemId = itemId) c.items c.itemCount.toNat
  rw [removeTracked, removeFromItems]
  dsimp only
  generalize position (fun it => it.itemId = itemId) c.items c.itemCount.toNat = i at hle ⊢
  by_cases hfound : (i : ℤ) = c.itemCount
  · rw [if_pos hfound]
    exact h
  · rw [if_neg hfound]
    by_cases hpart : itemIsStackable (c.items i).dataL0 ∧ amt ≠ 0xFFFFFFFF ∧
        amt < (c.items i).dataB5.setWidth 32
    · rw [if_pos hpart]
      change Bounded (if (0 : ℤ) < 0 then c else _)
      rw [if_neg (by decide)]
      refine ⟨?_, ?_, h.stored, h.bb, List.forall_mem_append.mpr ⟨h.inside, ?_⟩⟩
      · change 0 ≤ c.itemCount - 0
        omega
      · change c.itemCount - 0 ≤ 30
        omega
      · change ∀ u ∈ [Use.item i], Inside u
        rw [List.forall_mem_singleton, Inside]
        omega
    · rw [if_neg hpart]
      change Bounded (if (1 : ℤ) < 0 then c else _)
      rw [if_neg (by decide)]
      refine ⟨?_, ?_, h.stored, h.bb, List.forall_mem_append.mpr ⟨h.inside, ?_⟩⟩
      · change 0 ≤ c.itemCount - 1
        omega
      · change c.itemCount - 1 ≤ 30
        omega
      · intro u hu
        obtain ⟨k, hk, rfl⟩ := List.mem_map.mp hu
        rw [List.mem_range'_1] at hk
        rw [Inside]
        omega

theorem joinGame_bounded {c : Tracked} (firstId : BitVec 32) (h : Bounded c) :
    Bounded (joinGame c firstId) := by
  have hcount := h.count_le
  refine ⟨h.count_nonneg, h.count_le, h.stored, h.bb, ?_⟩
  refine List.forall_mem_append.mpr ⟨h.inside, fun u hu => ?_⟩
  obtain ⟨i, hi, rfl⟩ := List.mem_map.mp hu
  rw [List.mem_range] at hi
  rw [Inside]
  omega

theorem handleTakeItem_bounded_iff {c : Tracked} {l : Room} {pkt : TakeItemPkt} (h : Bounded c) :
    Bounded (handleTakeItem c l pkt).2.1 ↔ (TakePasses c l pkt → HasRoom c pkt.item) := by
  rw [handleTakeItem, TakePasses]
  split_ifs with htype hsize hid hscript hlegit
  · exact iff_of_true h fun hp => absurd htype hp.1
  · exact iff_of_true h fun hp => absurd hp.2.1 hsize
  · refine iff_of_true h fun hp => ?_
    rcases hp.2.2.1 with hone | hsame
    · exact absurd hone hid.1
    · exact absurd hsame hid.2
  · exact iff_of_true h fun hp => absurd hp.2.2.2.1 (by omega)
  · exact iff_of_true h fun hp => absurd hp.2.2.2.2 (by rw [hlegit]; decide)
  · rw [addTracked_bounded_iff h, forall_prop_of_true]
    rw [not_and_or, not_not, not_not] at hid
    exact ⟨htype, not_not.mp hsize, hid, not_lt.mp hscript, Bool.not_eq_false _ ▸ hlegit⟩

theorem handleBuy_bounded_iff {c : Tracked} {l : Room} {pkt : BuyPkt} (h : Bounded c) :
    Bounded (handleBuy c l pkt).2.1 ↔ (BuyPasses l pkt → HasRoom c pkt.itemData) := by
  rw [handleBuy, BuyPasses]
  split_ifs with htype hbad
  · exact iff_of_true h fun hp => absurd htype hp.1
  · refine iff_of_true h fun hp => ?_
    rcases hbad with hsize | hid
    · exact absurd hp.2.1 hsize
    · exact absurd hp.2.2 hid
  · rw [not_or, not_not, not_not] at hbad
    rw [addTracked_bounded_iff h, forall_prop_of_true ⟨htype, hbad⟩]

theorem step_bounded_iff {c : Tracked} (e : Event) (h : Bounded c) (hreach : Reaches c e) :
    Bounded (step c e) ↔ Meets c e := by
  unfold Meets
  rw [forall_prop_of_true hreach]
  cases e with
  | char pkt => exact dcProcessChar_bounded_iff h
  | bbChar inv => exact bbProcessChar_bounded_iff h
  | trackInv => exact iff_of_true (bounded_trackInventory_iff.mpr h) trivial
  | takeItem l pkt => exact handleTakeItem_bounded_iff h
  | buy l pkt => exact handleBuy_bounded_iff h
  | deleteInv l pkt =>
    refine iff_of_true ?_ trivial
    rw [step, handleDeleteInv]
    split_ifs
    · exact h
    · exact h
    · exact h
    · exact removeTracked_bounded _ _ h
  | useItem l pkt =>
    refine iff_of_true ?_ trivial
    rw [step, handleUseItem]
    split_ifs
    · exact h
    · exact h
    · exact h
    · exact removeTracked_bounded _ _ h
  | joinGame firstId => exact iff_of_true (joinGame_bounded firstId h) trivial
  | bbPacket l p =>
    exact iff_of_true ⟨h.count_nonneg, h.count_le, h.stored,
      (handlePacket c.bb l p).2.1.inv.length_le, h.inside⟩ trivial
  | bbJoinGame l =>
    exact iff_of_true ⟨h.count_nonneg, h.count_le, h.stored,
      (BlueBurstGame.joinGame c.bb l).1.inv.length_le, h.inside⟩ trivial

theorem next_bounded_iff {c : Tracked} (e : Event) (h : Bounded c) :
    Bounded (next c e) ↔ Meets c e := by
  rw [next]
  split_ifs with hreach
  · exact step_bounded_iff e h hreach
  · exact iff_of_true h fun hr => absurd hr hreach

theorem connected_bounded (version : ClientVersion) (bb : BbClient) (blank : Item) :
    Bounded (connected version bb blank) where
  count_nonneg := le_rfl
  count_le := by
    change (0 : ℤ) ≤ 30
    decide
  stored := by
    change (0 : BitVec 8).toNat ≤ 30
    decide
  bb := bb.inv.length_le
  inside := fun _ hu => absurd hu List.not_mem_nil

/-- The inventory stays within its array in all states of a run exactly when each packet of the
run has room in it. -/
theorem trackedInventory_bounded (version : ClientVersion) (bb : BbClient) (blank : Item)
    (es : List Event) :
    Run (StepOf next) Meets (connected version bb blank) es
        (es.foldl next (connected version bb blank)) ↔
      ∀ fs, fs <+: es → Bounded (fs.foldl next (connected version bb blank)) :=
  run_iff_prefixes Bounded (fun _ e h => next_bounded_iff e h) (connected_bounded version bb blank)
    es

/-- A blank item. -/
def blankItem : Item :=
  { dataL0 := 0, dataL1 := 0, dataL2 := 0, itemId := 0, data2L := 0, equipped := 0, tech := 0,
    flags := 0 }

def blankClient : BbClient :=
  { clientId := 0, inv := .nil, bank := .nil, meseta := 0, plMeseta := 0, bankMeseta := 0,
    items := fun _ => blankItem, dropItem := 0, dropAmt := 0 }

/-- Character data of the first version, with 31 items. -/
def crowded : Event :=
  .char { len := 0x0424, leaveGame := false, flags := 1, level := 0,
          inv := { itemCount := 31, items := fun _ => blankItem }, pcAutoreply := 0,
          v3Autoreply := 0 }

theorem trackedInventory_not_bounded :
    ¬∀ (version : ClientVersion) (bb : BbClient) (blank : Item) (es : List Event),
      Bounded (es.foldl next (connected version bb blank)) := by
  intro h
  have hcount := (h .dcv1 blankClient blankItem [crowded]).count_le
  exact absurd hcount (by decide)

end ShipServer.TrackedInventory
