import ShipServer.TrackedInventory

set_option autoImplicit false

/-! The items of the members of a game in legit mode. -/

namespace ShipServer.LegitGames

open TrackedInventory hiding Event step next Meets
open DropGenerators Items LabelledRuns Versions

/-- A list of limits. What it says of an item does not depend on the item's id. -/
structure Limits where
  check : ItemVersion → ItemData → Bool
  check_id : ∀ v it n, check v { it with itemId := n } = check v it

inductive Kind where
  | takeItem (item : ItemData)
  | itemDrop (item : ItemData)
  | destroyItem (itemId : BitVec 32)
  | buy
  | itemReq
  | text
  deriving DecidableEq

/-- A packet that is sent to the client in a slot, with the version of the client it comes from.
Mags are swapped between Gamecube and Xbox: the item is that of the packet that came. -/
structure Sent where
  recipient : ℕ
  version : ClientVersion
  kind : Kind
  swapped : Bool
  deriving DecidableEq

/-- A game. `sent` is everything that has been sent in it. -/
structure Game where
  legitMode : Bool
  limits : Limits
  maxClients : ℕ
  members : ℕ → Option Tracked
  highestItem : ℕ → BitVec 32
  sent : List Sent

def newGame (limits : Limits) (maxClients : ℕ) : Game where
  legitMode := true
  limits := limits
  maxClients := maxClients
  members _ := none
  highestItem _ := 0
  sent := []

def isMag (item : ItemData) : Bool :=
  item.dataL0 &&& 0xFF = 0x02

namespace Game

/-- The slots with a client, with that client. -/
def slots (l : Game) : List (ℕ × Tracked) :=
  (List.range l.maxClients).filterMap fun j => (l.members j).map fun c => (j, c)

/-- The game as the packets of a member find it. -/
def room (l : Game) (i : ℕ) (bankScript : Int) : Room where
  type := .game
  numClients := l.slots.length
  clientId := BitVec.ofNat 8 i
  highestItem := l.highestItem i
  limits := if l.legitMode then some l.limits.check else none
  bankScript := bankScript

/-- A packet of a member for the others. -/
def passOn (l : Game) (i : ℕ) (c : Tracked) (kind : Kind) (mag : Bool) : List Sent :=
  (l.slots.filter fun x => x.1 ≠ i).map fun x =>
    { recipient := x.1
      version := c.version
      kind := kind
      swapped := mag ∧ (c.version = .gc ∨ c.version = .xbox) ∧ x.2.version ≠ c.version }

/-- `lobby_check_player_legit`. -/
def checkPlayerLegit (l : Game) (pl : StoredInv) (v : ItemVersion) : Bool :=
  !l.legitMode ||
    (List.range pl.itemCount.toNat).all fun j => l.limits.check v (pl.items j).toItemData

/-- `lobby_check_client_legit`. -/
def checkClientLegit (l : Game) (c : Tracked) : Bool :=
  match itemVersion c.version with
  | none => true
  | some v => l.checkPlayerLegit c.pl v

/-- The end of `lobby_change_lobby` and of `join_game` without the override flag. `admitted` stands
for the tests that have nothing to do with items. -/
def join (l : Game) (i : ℕ) (c : Tracked) (admitted : Bool) : Game :=
  if admitted = true ∧ i < l.maxClients ∧ l.members i = none ∧
      (l.legitMode = false ∨ l.checkClientLegit c = true) then
    let id := 0x00010000 ||| (BitVec.ofNat 32 i <<< 21) ||| l.highestItem i
    { l with
      members := Function.update l.members i (some (TrackedInventory.joinGame c id))
      highestItem :=
        Function.update l.highestItem i (id + BitVec.ofNat 32 c.itemCount.toNat - 1) }
  else l

/-- A member without a game is in no slot of it. -/
def remove (l : Game) (i : ℕ) : Game :=
  { l with members := Function.update l.members i none }

/-- `dc_process_char` for a member. -/
def charData (l : Game) (i : ℕ) (c : Tracked) (pkt : CharDataPkt) : Game :=
  if pkt.level ≤ 199 ∧ pkt.leaveGame = true then l.remove i
  else { l with members := Function.update l.members i (some (dcProcessChar c pkt)) }

/-- What a handler leaves behind, if it does not disconnect the client. -/
def after (l : Game) (i : ℕ) (handled : Int × Tracked × Room) (sent : List Sent) : Game :=
  if handled.1 < 0 then l
  else
    { l with
      members := Function.update l.members i (some handled.2.1)
      highestItem := Function.update l.highestItem i handled.2.2.highestItem
      sent := l.sent ++ sent }

def takeItem (l : Game) (i : ℕ) (c : Tracked) (bankScript : Int) (pkt : TakeItemPkt) : Game :=
  l.after i (handleTakeItem c (l.room i bankScript) pkt)
    (l.passOn i c (.takeItem pkt.item) (isMag pkt.item))

def buy (l : Game) (i : ℕ) (c : Tracked) (pkt : BuyPkt) : Game :=
  l.after i (handleBuy c (l.room i 0) pkt) (l.passOn i c .buy false)

/-- A drop that is not legit: the other clients are sent the drop, and all of them that it is
gone. -/
def refuseDrop (l : Game) (i : ℕ) (c : Tracked) (item : ItemData) : List Sent :=
  l.slots.flatMap fun x =>
    let send := fun kind =>
      ({ recipient := x.1, version := c.version, kind := kind, swapped := false } : Sent)
    [send .text] ++ (if x.1 ≠ i then [send (.itemDrop item)] else []) ++
      [send (.destroyItem item.itemId)]

/-- `subcmd_itemgen_t`. -/
structure ItemDropPkt where
  size : BitVec 8
  item : ItemData

/-- `handle_itemdrop`: what is sent, unless the client is disconnected. -/
def handleItemdrop (l : Game) (i : ℕ) (c : Tracked) (pkt : ItemDropPkt) : Option (List Sent) :=
  if pkt.size ≠ 0x0B ∧ pkt.size ≠ 0x0A then none
  else if l.legitMode then
    match itemVersion c.version with
    | none => none
    | some v =>
      if l.limits.check v pkt.item = false then some (l.refuseDrop i c pkt.item)
      else some (l.passOn i c (.itemDrop pkt.item) (isMag pkt.item))
  else some (l.passOn i c (.itemDrop pkt.item) (isMag pkt.item))

def itemDrop (l : Game) (i : ℕ) (c : Tracked) (pkt : ItemDropPkt) : Game :=
  match l.handleItemdrop i c pkt with
  | none => l
  | some sent => { l with sent := l.sent ++ sent }

/-- An item for all clients. -/
def sendAll (l : Game) (c : Tracked) (item : ItemData) : List Sent :=
  l.slots.map fun x =>
    { recipient := x.1, version := c.version, kind := .itemDrop item, swapped := false }

/-- An item request of a client, with what it has set as its next item. The item that the game's
own drop function comes to, if the game has one, goes through `check_and_send`; in a game without
one the request goes to another client. -/
def itemReq (l : Game) (c : Tracked) (dest : ℕ) (nextItem : ItemData)
    (serverDrop : Option ItemData) : List Sent :=
  if nextItem.dataL0 ≠ 0 ∧ l.legitMode = false then l.sendAll c nextItem
  else
    match serverDrop with
    | none => [{ recipient := dest, version := c.version, kind := .itemReq, swapped := false }]
    | some item =>
      match itemVersion c.version with
      | none => l.sendAll c item
      | some v => if l.limits.check v item then l.sendAll c item else []

end Game

/-- The packets of members, and who comes and goes. -/
inductive Event where
  | join (c : Tracked) (admitted : Bool)
  | leave
  | char (pkt : CharDataPkt)
  | takeItem (bankScript : Int) (pkt : TakeItemPkt)
  | buy (pkt : BuyPkt)
  | itemDrop (pkt : Game.ItemDropPkt)
  | gmItem (dest : ℕ) (nextItem : ItemData) (serverDrop : Option ItemData)

def stepMember (l : Game) (i : ℕ) (c : Tracked) : Event → Game
  | .join _ _ => l
  | .leave => l.remove i
  | .char pkt => l.charData i c pkt
  | .takeItem bankScript pkt => l.takeItem i c bankScript pkt
  | .buy pkt => l.buy i c pkt
  | .itemDrop pkt => l.itemDrop i c pkt
  | .gmItem dest nextItem serverDrop =>
    { l with sent := l.sent ++ l.itemReq c dest nextItem serverDrop }

/-- What happens in a slot. -/
def next (l : Game) (e : ℕ × Event) : Game :=
  match e.2 with
  | .join c admitted => l.join e.1 c admitted
  | event => (l.members e.1).elim l fun c => stepMember l e.1 c event

/-- The items of an inventory pass the check. -/
def Passes (limits : Limits) (version : ClientVersion) (count : ℕ) (items : ℕ → Item) : Prop :=
  ∀ v, itemVersion version = some v →
    ∀ k < count, limits.check v (items k).toItemData = true

/-- A packet with an item that fails. -/
def Fails (limits : Limits) (x : Sent) (item : ItemData) : Prop :=
  (x.kind = .takeItem item ∨ x.kind = .itemDrop item) ∧
    ∃ v, itemVersion x.version = some v ∧ limits.check v item = false

/-- Every item that fails is destroyed again where it was sent. -/
def Destroyed (limits : Limits) : List Sent → Prop
  | [] => True
  | x :: xs =>
    (∀ item, Fails limits x item →
      ∃ y ∈ xs, y.recipient = x.recipient ∧ y.kind = .destroyItem item.itemId) ∧
    Destroyed limits xs

/-- What legit mode is for. -/
structure Enforced (l : Game) : Prop where
  items : ∀ i c, l.members i = some c → Passes l.limits c.version c.itemCount.toNat c.items
  sent : Destroyed l.limits l.sent

/-- The tracked inventory is that of the character data, up to the ids. -/
def AsStored (c : Tracked) : Prop :=
  c.itemCount.toNat = c.pl.itemCount.toNat ∧
    ∀ k < c.itemCount.toNat, ∃ n,
      (c.items k).toItemData = { (c.pl.items k).toItemData with itemId := n }

/-- The inventory that is stored once character data has come. -/
def storedAfter (c : Tracked) (pkt : CharDataPkt) : StoredInv :=
  if layout c.version pkt.flags = none then c.pl else pkt.inv

/-- What the stack that an item goes to becomes. -/
def raised (c : Tracked) (item : ItemData) : ItemData :=
  let it := c.items (stackAt c item.dataL0)
  { it.toItemData with dataL1 := it.dataL1 + item.dataL1 }

/-- An item passes the check for a version. -/
def Legit (limits : Limits) (version : ClientVersion) (item : ItemData) : Prop :=
  ∀ v, itemVersion version = some v → limits.check v item = true

/-- The items that legit mode does not look at are legit: those that a client has beyond its
character data when it joins, those of character data that comes in the game, those that are
bought, and what becomes of a stack. -/
def Meets (l : Game) (e : ℕ × Event) : Prop :=
  match e.2 with
  | .join c _ => AsStored c ∨ Passes l.limits c.version c.itemCount.toNat c.items
  | .char pkt => ∀ c, l.members e.1 = some c → pkt.level ≤ 199 → pkt.leaveGame = false →
      (storedAfter c pkt).itemCount.toNat ≤ 30 ∧
        Passes l.limits c.version (storedAfter c pkt).itemCount.toNat (storedAfter c pkt).items
  | .takeItem bankScript pkt => ∀ c, l.members e.1 = some c →
      TakePasses c (l.room e.1 bankScript) pkt → c.trackInventory = true →
        isStacked c pkt.item.dataL0 = true → Legit l.limits c.version (raised c pkt.item)
  | .buy pkt => ∀ c, l.members e.1 = some c → BuyPasses (l.room e.1 0) pkt →
      c.trackInventory = true → Legit l.limits c.version
        (if isStacked c pkt.itemData.dataL0 then raised c pkt.itemData else pkt.itemData)
  | _ => True

section Inventories

variable {limits : Limits} {version : ClientVersion} {c : Tracked}

/-- New ids do not matter. -/
theorem passes_renumberItems {count : ℕ} {items : ℕ → Item} (id : ℕ → BitVec 32)
    (h : Passes limits version count items) :
    Passes limits version count (renumberItems items count id) := by
  intro v hv k hk
  rw [renumberItems, if_pos hk]
  exact (limits.check_id v (items k).toItemData (id k)).trans (h v hv k hk)

theorem passes_joinGame (id : BitVec 32)
    (h : Passes limits c.version c.itemCount.toNat c.items) :
    Passes limits (TrackedInventory.joinGame c id).version
      (TrackedInventory.joinGame c id).itemCount.toNat (TrackedInventory.joinGame c id).items :=
  passes_renumberItems _ h

theorem passes_copyInventory (hcount : c.pl.itemCount.toNat ≤ 30)
    (h : Passes limits c.version c.pl.itemCount.toNat c.pl.items) :
    Passes limits (copyInventory c).version (copyInventory c).itemCount.toNat
      (copyInventory c).items := by
  change Passes limits c.version ((c.pl.itemCount.toNat : ℤ)).toNat (renumberItems _ _ _)
  rw [Int.toNat_natCast]
  refine passes_renumberItems _ fun v hv k hk => ?_
  rw [if_pos (by omega)]
  exact h v hv k hk

theorem passes_of_asStored (has : AsStored c)
    (h : Passes limits c.version c.pl.itemCount.toNat c.pl.items) :
    Passes limits c.version c.itemCount.toNat c.items := by
  intro v hv k hk
  obtain ⟨n, hn⟩ := has.2 k hk
  rw [hn, limits.check_id]
  exact h v hv k (has.1 ▸ hk)

theorem passes_raiseStack {i : ℕ} {amount : BitVec 32}
    (h : Passes limits c.version c.itemCount.toNat c.items)
    (hnew : Legit limits c.version
      { (c.items i).toItemData with dataL1 := (c.items i).dataL1 + amount }) :
    Passes limits (raiseStack c i amount).version (raiseStack c i amount).itemCount.toNat
      (raiseStack c i amount).items := by
  intro v hv k hk
  change limits.check v (Function.update c.items i _ k).toItemData = true
  by_cases hki : k = i
  · rw [hki, Function.update_self]
    exact hnew v hv
  · rw [Function.update_of_ne hki]
    exact h v hv k hk

theorem passes_append {item : ItemData}
    (h : Passes limits c.version c.itemCount.toNat c.items)
    (hnew : Legit limits c.version item) :
    Passes limits (append c item).version (append c item).itemCount.toNat
      (append c item).items := by
  intro v hv k hk
  change k < (c.itemCount + 1).toNat at hk
  change limits.check v (Function.update c.items c.itemCount.toNat _ k).toItemData = true
  by_cases hki : k = c.itemCount.toNat
  · rw [hki, Function.update_self]
    exact hnew v hv
  · rw [Function.update_of_ne hki]
    exact h v hv k (by omega)

theorem passes_addTracked {item : ItemData}
    (h : Passes limits c.version c.itemCount.toNat c.items)
    (hnew : c.trackInventory = true → Legit limits c.version
      (if isStacked c item.dataL0 then raised c item else item)) :
    Passes limits (addTracked c item).version (addTracked c item).itemCount.toNat
      (addTracked c item).items := by
  rw [addTracked]
  split_ifs with htrack hstack
  · exact h
  · have hlegit := hnew (Bool.eq_true_of_not_eq_false htrack)
    rw [if_pos hstack] at hlegit
    exact passes_raiseStack h hlegit
  · have hlegit := hnew (Bool.eq_true_of_not_eq_false htrack)
    rw [if_neg hstack] at hlegit
    exact passes_append h hlegit

@[simp] theorem addTracked_version (item : ItemData) :
    (addTracked c item).version = c.version := by
  rw [addTracked]
  split_ifs <;> rfl

@[simp] theorem addTracked_pl (item : ItemData) : (addTracked c item).pl = c.pl := by
  rw [addTracked]
  split_ifs <;> rfl

end Inventories

section Sends

variable {limits : Limits}

theorem destroyed_append {xs ys : List Sent} (hxs : Destroyed limits xs)
    (hys : Destroyed limits ys) : Destroyed limits (xs ++ ys) := by
  induction xs with
  | nil => exact hys
  | cons x xs ih =>
    refine ⟨fun item hfails => ?_, ih hxs.2⟩
    obtain ⟨y, hy, hdestroy⟩ := hxs.1 item hfails
    exact ⟨y, List.mem_append_left _ hy, hdestroy⟩

theorem destroyed_of_no_fails {xs : List Sent} (h : ∀ x ∈ xs, ∀ item, ¬Fails limits x item) :
    Destroyed limits xs := by
  induction xs with
  | nil => trivial
  | cons x xs ih =>
    refine ⟨fun item hfails => absurd hfails (h x List.mem_cons_self item), ?_⟩
    exact ih fun y hy => h y (List.mem_cons_of_mem x hy)

/-- A packet with a legit item, or without one. -/
theorem not_fails_of_legit {x : Sent}
    (h : ∀ item, x.kind = .takeItem item ∨ x.kind = .itemDrop item →
      Legit limits x.version item) (item : ItemData) : ¬Fails limits x item := by
  rintro ⟨hkind, v, hv, hfails⟩
  rw [h item hkind v hv] at hfails
  cases hfails

theorem destroyed_refuseDrop (l : Game) (i : ℕ) (c : Tracked) (item : ItemData) :
    Destroyed limits (l.refuseDrop i c item) := by
  rw [Game.refuseDrop]
  induction l.slots with
  | nil => trivial
  | cons x xs ih =>
    rw [List.flatMap_cons]
    refine destroyed_append ?_ ih
    have htext : ∀ {y : Sent}, y.kind = .text ∨ y.kind = .destroyItem item.itemId →
        ∀ item', ¬Fails limits y item' := by
      rintro y hy item' ⟨hkind, _⟩
      rcases hy with hy | hy
      · rw [hy] at hkind
        rcases hkind with h | h <;> cases h
      · rw [hy] at hkind
        rcases hkind with h | h <;> cases h
    by_cases hi : x.1 ≠ i
    · dsimp only
      rw [if_pos hi]
      refine ⟨fun item' h => absurd h (htext (Or.inl rfl) item'), ?_, ?_⟩
      · rintro item' ⟨hkind, _⟩
        refine ⟨_, List.mem_cons_self, rfl, ?_⟩
        rcases hkind with h | h
        · cases h
        · cases h
          rfl
      · exact ⟨fun item' h => absurd h (htext (Or.inr rfl) item'), trivial⟩
    · dsimp only
      rw [if_neg hi]
      exact ⟨fun item' h => absurd h (htext (Or.inl rfl) item'),
        fun item' h => absurd h (htext (Or.inr rfl) item'), trivial⟩

end Sends

/-- What every step keeps: both inventories of every member pass the check. -/
structure Kept (l : Game) : Prop where
  legitMode : l.legitMode = true
  enforced : Enforced l
  stored : ∀ i c, l.members i = some c →
    Passes l.limits c.version c.pl.itemCount.toNat c.pl.items

section Steps

variable {l : Game} {i : ℕ} {c : Tracked}

theorem kept_newGame (limits : Limits) (maxClients : ℕ) : Kept (newGame limits maxClients) where
  legitMode := rfl
  enforced :=
    { items := fun _ _ h => by cases h
      sent := trivial }
  stored _ _ h := by cases h

/-- A member whose inventories pass, and packets that leave nothing that fails. -/
theorem Kept.put (h : Kept l) (hitems : Passes l.limits c.version c.itemCount.toNat c.items)
    (hstored : Passes l.limits c.version c.pl.itemCount.toNat c.pl.items)
    (highestItem : ℕ → BitVec 32) {sent : List Sent} (hsent : Destroyed l.limits sent) :
    Kept
      { l with
        members := Function.update l.members i (some c)
        highestItem := highestItem
        sent := l.sent ++ sent } where
  legitMode := h.legitMode
  enforced :=
    { items := by
        intro j c' hj
        change Function.update l.members i (some c) j = some c' at hj
        by_cases hji : j = i
        · rw [hji, Function.update_self] at hj
          cases hj
          exact hitems
        · rw [Function.update_of_ne hji] at hj
          exact h.enforced.items j c' hj
      sent := destroyed_append h.enforced.sent hsent }
  stored := by
    intro j c' hj
    change Function.update l.members i (some c) j = some c' at hj
    by_cases hji : j = i
    · rw [hji, Function.update_self] at hj
      cases hj
      exact hstored
    · rw [Function.update_of_ne hji] at hj
      exact h.stored j c' hj

theorem Kept.replace (h : Kept l)
    (hitems : Passes l.limits c.version c.itemCount.toNat c.items)
    (hstored : Passes l.limits c.version c.pl.itemCount.toNat c.pl.items)
    (highestItem : ℕ → BitVec 32) :
    Kept
      { l with
        members := Function.update l.members i (some c)
        highestItem := highestItem } := by
  have hnothing : Destroyed l.limits [] := trivial
  have hput := h.put (i := i) hitems hstored highestItem hnothing
  rw [List.append_nil] at hput
  exact hput

theorem Kept.send (h : Kept l) {sent : List Sent} (hsent : Destroyed l.limits sent) :
    Kept { l with sent := l.sent ++ sent } where
  legitMode := h.legitMode
  enforced :=
    { items := h.enforced.items
      sent := destroyed_append h.enforced.sent hsent }
  stored := h.stored

theorem Kept.remove (h : Kept l) (i : ℕ) : Kept (l.remove i) where
  legitMode := h.legitMode
  enforced :=
    { items := by
        intro j c' hj
        change Function.update l.members i none j = some c' at hj
        by_cases hji : j = i
        · rw [hji, Function.update_self] at hj
          cases hj
        · rw [Function.update_of_ne hji] at hj
          exact h.enforced.items j c' hj
      sent := h.enforced.sent }
  stored := by
    intro j c' hj
    change Function.update l.members i none j = some c' at hj
    by_cases hji : j = i
    · rw [hji, Function.update_self] at hj
      cases hj
    · rw [Function.update_of_ne hji] at hj
      exact h.stored j c' hj

theorem passes_of_checkClientLegit (hmode : l.legitMode = true)
    (h : l.checkClientLegit c = true) :
    Passes l.limits c.version c.pl.itemCount.toNat c.pl.items := by
  intro v hv k hk
  rw [Game.checkClientLegit, hv] at h
  dsimp only at h
  rw [Game.checkPlayerLegit, hmode, Bool.not_true, Bool.false_or, List.all_eq_true] at h
  exact h k (List.mem_range.mpr hk)

theorem kept_join (h : Kept l) (admitted : Bool)
    (hmeets : AsStored c ∨ Passes l.limits c.version c.itemCount.toNat c.items) :
    Kept (l.join i c admitted) := by
  rw [Game.join]
  split_ifs with hjoin
  · obtain ⟨_, _, _, hcheck⟩ := hjoin
    have hstored : Passes l.limits c.version c.pl.itemCount.toNat c.pl.items := by
      rcases hcheck with hoff | hlegit
      · rw [h.legitMode] at hoff
        cases hoff
      · exact passes_of_checkClientLegit h.legitMode hlegit
    have hitems : Passes l.limits c.version c.itemCount.toNat c.items := by
      rcases hmeets with has | hpass
      · exact passes_of_asStored has hstored
      · exact hpass
    exact h.replace (passes_joinGame
      (0x00010000 ||| (BitVec.ofNat 32 i <<< 21) ||| l.highestItem i) hitems) hstored
      (Function.update l.highestItem i
        ((0x00010000 ||| (BitVec.ofNat 32 i <<< 21) ||| l.highestItem i) +
          BitVec.ofNat 32 c.itemCount.toNat - 1))
  · exact h

theorem kept_charData (h : Kept l) (hc : l.members i = some c) (pkt : CharDataPkt)
    (hmeets : pkt.level ≤ 199 → pkt.leaveGame = false →
      (storedAfter c pkt).itemCount.toNat ≤ 30 ∧
        Passes l.limits c.version (storedAfter c pkt).itemCount.toNat (storedAfter c pkt).items) :
    Kept (l.charData i c pkt) := by
  rw [Game.charData]
  split_ifs with hleave
  · exact h.remove i
  · by_cases hlevel : 199 < pkt.level
    · rw [dcProcessChar, if_pos hlevel]
      exact h.replace (h.enforced.items i c hc) (h.stored i c hc) l.highestItem
    · have hle := BitVec.not_lt.mp hlevel
      have hstay : pkt.leaveGame = false := Bool.eq_false_of_not_eq_true fun ht => hleave ⟨hle, ht⟩
      obtain ⟨hcount, hpass⟩ := hmeets hle hstay
      rw [dcProcessChar, if_neg hlevel, hstay]
      rw [storedAfter] at hcount hpass
      dsimp only
      rw [if_neg (by decide)]
      have hmembers : ∀ c' : Tracked, Passes l.limits c'.version c'.itemCount.toNat c'.items →
          Passes l.limits c'.version c'.pl.itemCount.toNat c'.pl.items →
            Kept { l with members := Function.update l.members i (some c') } :=
        fun c' hi hs => h.replace hi hs l.highestItem
      split_ifs at hcount hpass ⊢ with hlayout
      · exact hmembers _ (passes_copyInventory hcount hpass) hpass
      · exact hmembers _ (passes_copyInventory hcount hpass) hpass

theorem handleTakeItem_cases (c : Tracked) (r : Room) (pkt : TakeItemPkt) :
    (TakePasses c r pkt ∧ (handleTakeItem c r pkt).1 = 0 ∧
      (handleTakeItem c r pkt).2.1 = addTracked c pkt.item) ∨ (handleTakeItem c r pkt).1 < 0 := by
  rw [handleTakeItem, TakePasses]
  split_ifs with htype hsize hid hscript hlegit
  · exact Or.inr (Int.negSucc_lt_zero 0)
  · exact Or.inr (Int.negSucc_lt_zero 0)
  · exact Or.inr (Int.negSucc_lt_zero 0)
  · exact Or.inr (Int.negSucc_lt_zero 0)
  · exact Or.inr (Int.negSucc_lt_zero 0)
  · rw [not_and_or, not_not, not_not] at hid
    exact Or.inl ⟨⟨htype, not_not.mp hsize, hid, not_lt.mp hscript,
      Bool.eq_true_of_not_eq_false hlegit⟩, rfl, rfl⟩

theorem handleBuy_cases (c : Tracked) (r : Room) (pkt : BuyPkt) :
    (BuyPasses r pkt ∧ (handleBuy c r pkt).1 = 0 ∧
      (handleBuy c r pkt).2.1 = addTracked c pkt.itemData) ∨ (handleBuy c r pkt).1 < 0 := by
  rw [handleBuy, BuyPasses]
  split_ifs with htype hbad
  · exact Or.inr (Int.negSucc_lt_zero 0)
  · exact Or.inr (Int.negSucc_lt_zero 0)
  · rw [not_or, not_not, not_not] at hbad
    exact Or.inl ⟨⟨htype, hbad⟩, rfl, rfl⟩

theorem legit_of_takeIsLegit (hmode : l.legitMode = true) {bankScript : Int} {item : ItemData}
    (h : takeIsLegit c (l.room i bankScript) item = true) : Legit l.limits c.version item := by
  intro v hv
  rw [takeIsLegit, Game.room, hmode, hv] at h
  exact h

theorem destroyed_passOn (kind : Kind) (mag : Bool)
    (h : ∀ item, kind = .takeItem item ∨ kind = .itemDrop item →
      Legit l.limits c.version item) : Destroyed l.limits (l.passOn i c kind mag) := by
  refine destroyed_of_no_fails fun x hx => not_fails_of_legit ?_
  obtain ⟨y, _, rfl⟩ := List.mem_map.mp hx
  exact h

theorem kept_takeItem (h : Kept l) (hc : l.members i = some c) (bankScript : Int)
    (pkt : TakeItemPkt)
    (hmeets : TakePasses c (l.room i bankScript) pkt → c.trackInventory = true →
      isStacked c pkt.item.dataL0 = true → Legit l.limits c.version (raised c pkt.item)) :
    Kept (l.takeItem i c bankScript pkt) := by
  rw [Game.takeItem, Game.after]
  rcases handleTakeItem_cases c (l.room i bankScript) pkt with ⟨hpasses, hzero, hadd⟩ | hfail
  · have hlegit := legit_of_takeIsLegit h.legitMode hpasses.2.2.2.2
    rw [if_neg (by omega), hadd]
    refine h.put (passes_addTracked (h.enforced.items i c hc) fun htrack => ?_) ?_ _ ?_
    · split_ifs with hstack
      · exact hmeets hpasses htrack hstack
      · exact hlegit
    · rw [addTracked_version, addTracked_pl]
      exact h.stored i c hc
    · refine destroyed_passOn _ _ fun item hkind => ?_
      rcases hkind with hkind | hkind
      · cases hkind
        exact hlegit
      · cases hkind
  · rw [if_pos hfail]
    exact h

theorem kept_buy (h : Kept l) (hc : l.members i = some c) (pkt : BuyPkt)
    (hmeets : BuyPasses (l.room i 0) pkt → c.trackInventory = true → Legit l.limits c.version
      (if isStacked c pkt.itemData.dataL0 then raised c pkt.itemData else pkt.itemData)) :
    Kept (l.buy i c pkt) := by
  rw [Game.buy, Game.after]
  rcases handleBuy_cases c (l.room i 0) pkt with ⟨hpasses, hzero, hadd⟩ | hfail
  · rw [if_neg (by omega), hadd]
    refine h.put (passes_addTracked (h.enforced.items i c hc) (hmeets hpasses)) ?_ _ ?_
    · rw [addTracked_version, addTracked_pl]
      exact h.stored i c hc
    · refine destroyed_passOn _ _ fun item hkind => ?_
      rcases hkind with hkind | hkind <;> cases hkind
  · rw [if_pos hfail]
    exact h

theorem kept_itemDrop (h : Kept l) (pkt : Game.ItemDropPkt) : Kept (l.itemDrop i c pkt) := by
  rw [Game.itemDrop, Game.handleItemdrop]
  split_ifs with hsize hmode
  · exact h
  · cases hv : itemVersion c.version with
    | none => exact h
    | some v =>
      dsimp only
      split_ifs with hcheck
      · exact h.send (destroyed_refuseDrop l i c pkt.item)
      · refine h.send (destroyed_passOn _ _ fun item hkind => ?_)
        rcases hkind with hkind | hkind
        · cases hkind
        · cases hkind
          intro v' hv'
          rw [hv] at hv'
          cases hv'
          exact Bool.eq_true_of_not_eq_false hcheck
  · exact absurd h.legitMode hmode

theorem destroyed_sendAll {item : ItemData} (hlegit : Legit l.limits c.version item) :
    Destroyed l.limits (l.sendAll c item) := by
  refine destroyed_of_no_fails fun x hx => not_fails_of_legit fun item' hkind => ?_
  obtain ⟨y, _, rfl⟩ := List.mem_map.mp hx
  rcases hkind with hkind | hkind
  · cases hkind
  · cases hkind
    exact hlegit

/-- In legit mode the item that a member has set is not made. -/
theorem kept_itemReq (h : Kept l) (dest : ℕ) (nextItem : ItemData)
    (serverDrop : Option ItemData) :
    Kept { l with sent := l.sent ++ l.itemReq c dest nextItem serverDrop } := by
  refine h.send ?_
  rw [Game.itemReq.eq_def, if_neg fun hoff => absurd (h.legitMode.symm.trans hoff.2) (by decide)]
  cases serverDrop with
  | none =>
    refine destroyed_of_no_fails fun x hx => not_fails_of_legit fun item hkind => ?_
    rw [List.mem_singleton.mp hx] at hkind
    rcases hkind with hkind | hkind <;> cases hkind
  | some item =>
    cases hv : itemVersion c.version with
    | none =>
      refine destroyed_sendAll fun v hv' => ?_
      rw [hv] at hv'
      cases hv'
    | some v =>
      dsimp only
      split_ifs with hcheck
      · refine destroyed_sendAll fun v' hv' => ?_
        rw [hv] at hv'
        cases hv'
        exact hcheck
      · trivial

theorem kept_next (h : Kept l) {e : ℕ × Event} (hmeets : Meets l e) : Kept (next l e) := by
  obtain ⟨i, event⟩ := e
  cases hc : l.members i with
  | none =>
    cases event with
    | join c admitted => exact kept_join h admitted hmeets
    | leave | char | takeItem | buy | itemDrop | gmItem =>
      rw [next]
      change Kept ((l.members i).elim l _)
      rw [hc]
      exact h
  | some c =>
    have hmember : ∀ event', (∀ c admitted, event' ≠ .join c admitted) →
        next l (i, event') = stepMember l i c event' := by
      intro event' hne
      cases event' with
      | join c admitted => exact absurd rfl (hne c admitted)
      | leave | char | takeItem | buy | itemDrop | gmItem =>
        rw [next]
        change (l.members i).elim l _ = _
        rw [hc]
        rfl
    cases event with
    | join c admitted => exact kept_join h admitted hmeets
    | leave =>
      rw [hmember _ (by simp)]
      exact h.remove i
    | char pkt =>
      rw [hmember _ (by simp)]
      exact kept_charData h hc pkt (hmeets c hc)
    | takeItem bankScript pkt =>
      rw [hmember _ (by simp)]
      exact kept_takeItem h hc bankScript pkt (hmeets c hc)
    | buy pkt =>
      rw [hmember _ (by simp)]
      exact kept_buy h hc pkt (hmeets c hc)
    | itemDrop pkt =>
      rw [hmember _ (by simp)]
      exact kept_itemDrop h pkt
    | gmItem dest nextItem serverDrop =>
      rw [hmember _ (by simp)]
      exact kept_itemReq h dest nextItem serverDrop

end Steps

/-- In a run whose steps bring nothing past the checks, legit mode holds in every state. -/
theorem legitMode_enforced (limits : Limits) (maxClients : ℕ) (es : List (ℕ × Event)) (l : Game)
    (h : Run (StepOf next) Meets (newGame limits maxClients) es l) : Enforced l := by
  have hkept : Kept l := by
    refine h.invariant Kept (kept_newGame limits maxClients) ?_
    rintro s e t hs hmeets rfl
    exact kept_next hs hmeets
  exact hkept.enforced

/-- A list on which one weapon is not legit. -/
def noSabers : Limits where
  check _ it := it.dataL0 ≠ 0x00000100
  check_id _ _ _ := rfl

/-- A client without items, whose inventory is tracked. -/
def emptyHanded : Tracked :=
  { connected .gc blankClient blankItem with trackInventory := true }

/-- A client in slot 0 buys an item. -/
def buys (item0 : BitVec 32) : List (ℕ × Event) :=
  [(0, .join emptyHanded true),
    (0, .buy { size := 0x06, clientId := 0, item := fun k => if k.val = 0 then item0 else 0,
               itemId := 0x00810000 })]

theorem legitMode_enforced_buys :
    Enforced ((buys 0x00000200).foldl next (newGame noSabers 4)) := by
  refine legitMode_enforced noSabers 4 (buys 0x00000200) _ (.move ?_ rfl (.move ?_ rfl (.stop _)))
  · exact Or.inl ⟨rfl, fun k hk => absurd hk (Nat.not_lt_zero k)⟩
  · intro c hc _ _ v hv
    have hfree : isStacked c 0x00000200 = false := by
      rw [isStacked, show itemIsStackable 0x00000200 = false by decide]
      rfl
    cases hc
    rfl

/-- What is bought is not checked. -/
theorem legitMode_not_enforced :
    ¬∀ (limits : Limits) (maxClients : ℕ) (es : List (ℕ × Event)),
      Enforced (es.foldl next (newGame limits maxClients)) := by
  intro h
  have hitems := (h noSabers 4 (buys 0x00000100)).items 0 _ rfl .gc rfl 0 (by decide)
  exact absurd hitems (by decide)

end ShipServer.LegitGames
