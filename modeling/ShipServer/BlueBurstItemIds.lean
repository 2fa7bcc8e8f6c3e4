import ShipServer.BlueBurstMoves
import ShipServer.LabelledRuns

set_option autoImplicit false

namespace ShipServer.BlueBurstItemIds

open BoundedLists Items BlueBurstGame BlueBurstMoves LabelledRuns

def ids (items : List Item) : List (BitVec 32) :=
  items.map (fun it => it.itemId)

def memberIds (m : Option BbClient) : List (BitVec 32) :=
  m.elim [] (fun c => ids c.inv.toList)

/-- The ids of all items on the floor and in the inventories of the members. -/
def itemIds (g : BbGame) : List (BitVec 32) :=
  ids g.lobby.itemQueue ++ (List.finRange 4).flatMap (fun slot => memberIds (g.members slot))

theorem ids_eq (items : List Item) : ids items = (itemDatas items).map ItemData.itemId := by
  simp [ids, itemDatas]

theorem ids_set_setDataB5 (items : List Item) (i : Fin items.length) (n : BitVec 8) :
    ids (items.set i { (items.get i) with toItemData := (items.get i).setDataB5 n }) = ids items := by
  have hlen : (i : ℕ) < (ids items).length := by
    simp [ids]
  have hget : (ids items)[(i : ℕ)] = items[i].itemId := by
    simp [ids]
  rw [ids, List.map_set]
  change (ids items).set i items[i].itemId = ids items
  rw [← hget, List.set_getElem_self]

theorem ids_itemRemoveFromInv (inv : Inventory) (itemId amt : BitVec 32) :
    (ids (itemRemoveFromInv inv itemId amt).2.toList).Sublist (ids inv.toList) := by
  unfold itemRemoveFromInv
  cases itemIndex inv itemId with
  | none => exact List.Sublist.refl _
  | some i =>
    simp only
    split_ifs
    · exact (ids_set_setDataB5 inv.toList i _).symm ▸ List.Sublist.refl _
    · exact (List.eraseIdx_sublist ..).map _

theorem ids_itemAddToInv (inv : Inventory) (it : Item) :
    (ids (itemAddToInv inv it).2.toList).Subperm (it.itemId :: ids inv.toList) := by
  have hkeep : (ids inv.toList).Subperm (it.itemId :: ids inv.toList) :=
    (List.sublist_cons_self ..).subperm
  have hpush (h : inv.toList.length < 30) :
      (ids (inv.push it h).toList).Subperm (it.itemId :: ids inv.toList) := by
    simp only [ids, BoundedList.toList_push, List.map_append, List.map_singleton]
    exact (List.perm_append_singleton ..).subperm
  unfold itemAddToInv
  split_ifs with hroom hstack
  · cases itemIndex inv it.itemId with
    | some _ => exact hkeep
    | none =>
      cases inv.toList.findFinIdx? (fun x => x.dataL0 = it.dataL0) with
      | none => exact hpush hroom
      | some i =>
        simp only [BoundedList.toList_set]
        exact (ids_set_setDataB5 inv.toList i _).symm ▸ hkeep
  · cases itemIndex inv it.itemId with
    | some _ => exact hkeep
    | none => exact hpush hroom
  · exact hkeep

/-- The item ids that a packet takes from the counters of the lobby. -/
inductive Issued (c : BbClient) (l : GameLobby) :
    Packet → GameLobby → List (BitVec 32) → Prop where
  | none {p : Packet} {l' : GameLobby} (highest : l'.highestItem = l.highestItem)
      (itemId : l'.itemId = l.itemId) : Issued c l p l' []
  | stack {pkt : DestroyItemPkt} {junk : Item} {l' : GameLobby}
      (raises : RaisesHighest c l pkt)
      (highest : l'.highestItem = (raiseHighest l c.clientId).highestItem)
      (itemId : l'.itemId = l.itemId) :
      Issued c l (.dropStack pkt junk) l' [l.highestItem c.clientId + 1]
  | bank {pkt : BankActPkt} {l' : GameLobby} (action : pkt.action = subcmdBankActTake)
      (taken : (itemTakeFromBank c.bank pkt.itemId pkt.itemAmount).isSome)
      (highest : l'.highestItem = l.highestItem) (itemId : l'.itemId = l.itemId + 1) :
      Issued c l (.bankAction pkt) l' [l.itemId]

theorem ids_dropped {items inv : List Item} {it : Item} {i : Fin items.length}
    (floor : it.toItemData = (items.get i).toItemData)
    (left : itemDatas inv = (itemDatas items).eraseIdx i) :
    (it.itemId :: ids inv).Perm (ids items) := by
  have hlen : (i : ℕ) < (ids items).length := by
    simp [ids]
  have hid : it.itemId = (ids items)[(i : ℕ)] := by
    simpa [ids] using congrArg ItemData.itemId floor
  have hleft : ids inv = (ids items).eraseIdx i := by
    rw [ids_eq, left, ids_eq, List.eraseIdx_map]
  rw [hid, hleft]
  exact List.getElem_cons_eraseIdx_perm hlen

/-- A packet moves ids between its sender and the floor, and adds only those it takes from the
counters. -/
theorem moves_ids {c c' : BbClient} {l l' : GameLobby} {p : Packet} (h : Moves c l p c' l') :
    c'.clientId = c.clientId ∧ ∃ fresh, Issued c l p l' fresh ∧
      (ids l'.itemQueue ++ ids c'.inv.toList).Subperm
        (fresh ++ (ids l.itemQueue ++ ids c.inv.toList)) := by
  cases h with
  | unchanged => exact ⟨rfl, [], .none rfl rfl, List.Subperm.refl _⟩
  | @unequipped _ inv same =>
    refine ⟨rfl, [], .none rfl rfl, ?_⟩
    rw [List.nil_append, ids_eq inv.toList, same, ← ids_eq]
  | @dropped pkt isframe inv it i floor left =>
    refine ⟨rfl, [], .none rfl rfl, ?_⟩
    have hperm := ids_dropped floor left
    exact (List.perm_middle.symm.trans (hperm.append_left (ids l.itemQueue))).subperm
  | noted => exact ⟨rfl, [], .none rfl rfl, List.Subperm.refl _⟩
  | counted raises =>
    exact ⟨rfl, _, .stack raises rfl rfl, (List.sublist_cons_self ..).subperm⟩
  | @splitDropped pkt junk i reaches isItem found =>
    refine ⟨rfl, _, .stack reaches.1 rfl rfl, ?_⟩
    have hleft := ids_itemRemoveFromInv c.inv pkt.itemId pkt.amount
    exact ((hleft.append_left (ids l.itemQueue)).cons_cons _).subperm
  | @mesetaDropped pkt junk meseta plMeseta reaches isMeseta paid _ =>
    exact ⟨rfl, _, .stack reaches.1 rfl rfl, List.Subperm.refl _⟩
  | @mesetaPickedUp pkt i meseta kind sum =>
    refine ⟨rfl, [], .none rfl rfl, ?_⟩
    exact (((List.eraseIdx_sublist ..).map _).append_right _).subperm
  | @itemPickedUp pkt i =>
    refine ⟨rfl, [], .none rfl rfl, ?_⟩
    have hadd := ids_itemAddToInv c.inv (pickedUp l.itemQueue[i])
    have hqueue : (l.itemQueue[i].itemId :: ids (l.itemQueue.eraseIdx i)).Perm
        (ids l.itemQueue) :=
      (List.getElem_cons_eraseIdx_perm i.isLt).map (fun it : Item => it.itemId)
    have hmove := ((List.subperm_append_left (ids (l.itemQueue.eraseIdx i))).mpr hadd).trans
      List.perm_middle.subperm
    exact hmove.trans (hqueue.append_right _).subperm
  | mesetaDeposited enough _ => exact ⟨rfl, [], .none rfl rfl, List.Subperm.refl _⟩
  | mesetaTaken enough _ => exact ⟨rfl, [], .none rfl rfl, List.Subperm.refl _⟩
  | @itemDeposited pkt i inv reaches left =>
    refine ⟨rfl, [], .none rfl rfl, ?_⟩
    have hleft := ids_itemRemoveFromInv c.inv pkt.itemId (pkt.itemAmount.setWidth 32)
    rw [ids_eq, ← left, ← ids_eq] at hleft
    exact (hleft.append_left (ids l.itemQueue)).subperm
  | @itemTaken pkt bitem bank action taken =>
    refine ⟨rfl, _, .bank action (taken ▸ rfl) rfl rfl, ?_⟩
    have hadd := ids_itemAddToInv c.inv (withdrawn bitem l.itemId)
    exact ((List.subperm_append_left (ids l.itemQueue)).mpr hadd).trans List.perm_middle.subperm
  | @itemReturned pkt bitem bank action taken =>
    exact ⟨rfl, _, .bank action (taken ▸ rfl) rfl rfl, (List.sublist_cons_self ..).subperm⟩

/-- The first id of a slot. The ids from `slotBase 4` on are the lobby's own. -/
def slotBase (slot : ℕ) : ℕ :=
  0x00010000 + slot * 2 ^ 21

/-- The id has been handed out by one of the counters of the lobby. -/
def Allocated (l : GameLobby) (id : BitVec 32) : Prop :=
  (∃ slot : Fin 4, slotBase slot ≤ id.toNat ∧ id.toNat ≤ (l.highestItem slot).toNat) ∨
    (slotBase 4 ≤ id.toNat ∧ id.toNat < l.itemId.toNat)

/-- The counters stay inside the ranges of ids that they hand out. -/
structure CountersInRange (g : BbGame) : Prop where
  below : ∀ slot, (g.lobby.highestItem slot).toNat < slotBase (slot + 1)
  seated : ∀ slot c, g.members slot = some c →
    c.clientId = slot ∧ slotBase slot ≤ (g.lobby.highestItem slot).toNat + 1
  server : slotBase 4 ≤ g.lobby.itemId.toNat

structure UniqueIds (g : BbGame) : Prop where
  counters : CountersInRange g
  nodup : (itemIds g).Nodup
  allocated : ∀ id ∈ itemIds g, Allocated g.lobby id

theorem slot_not_allocated {g : BbGame} (h : CountersInRange g) (slot : Fin 4) {id : BitVec 32}
    (hlow : slotBase slot ≤ id.toNat) (habove : (g.lobby.highestItem slot).toNat < id.toNat)
    (hhigh : id.toNat < slotBase (slot + 1)) : ¬ Allocated g.lobby id := by
  rintro (⟨other, hother, hle⟩ | ⟨hserver, -⟩)
  · have hbelow := h.below other
    have hslots : (other : ℕ) = slot := by
      unfold slotBase at *
      omega
    rw [Fin.ext hslots] at hle
    omega
  · have hslot := slot.isLt
    unfold slotBase at *
    omega

theorem itemId_not_allocated {g : BbGame} (h : CountersInRange g) :
    ¬ Allocated g.lobby g.lobby.itemId := by
  rintro (⟨slot, -, hle⟩ | ⟨-, hlt⟩)
  · have hbelow := h.below slot
    have hserver := h.server
    have hslot := slot.isLt
    unfold slotBase at *
    omega
  · exact absurd hlt (lt_irrefl _)

theorem Allocated.mono {l l' : GameLobby} {id : BitVec 32} (h : Allocated l id)
    (hslots : ∀ slot, (l.highestItem slot).toNat ≤ (l'.highestItem slot).toNat)
    (hserver : l.itemId.toNat ≤ l'.itemId.toNat) : Allocated l' id := by
  rcases h with ⟨slot, hlow, hle⟩ | ⟨hlow, hlt⟩
  · exact .inl ⟨slot, hlow, hle.trans (hslots slot)⟩
  · exact .inr ⟨hlow, hlt.trans_le hserver⟩

/-- Ids taken fresh from the counters keep the ids of a game unique. -/
theorem UniqueIds.extend {g g' : BbGame} (h : UniqueIds g) {fresh : List (BitVec 32)}
    (hcounters : CountersInRange g') (hsub : (itemIds g').Subperm (fresh ++ itemIds g))
    (hfresh : fresh.Nodup) (hnew : ∀ id ∈ fresh, id ∉ itemIds g ∧ Allocated g'.lobby id)
    (hmono : ∀ id ∈ itemIds g, Allocated g.lobby id → Allocated g'.lobby id) :
    UniqueIds g' := by
  refine ⟨hcounters, ?_, ?_⟩
  · refine nodup_of_subperm hsub (List.nodup_append'.mpr ⟨hfresh, h.nodup, ?_⟩)
    intro id hid hold
    exact (hnew id hid).1 hold
  · intro id hid
    rcases List.mem_append.mp (hsub.subset hid) with hid | hid
    · exact (hnew id hid).2
    · exact hmono id hid (h.allocated id hid)

/-- The ids of a game are those of one slot, of the floor, and of the rest. -/
theorem exists_itemIds_setMember_perm (g : BbGame) (slot : Fin 4) :
    ∃ rest, ∀ m l, (itemIds (g.setMember slot m l)).Perm
      (ids l.itemQueue ++ memberIds m ++ rest) := by
  obtain ⟨rest, hrest⟩ :=
    exists_flatMap_update_perm (fun i => memberIds (g.members i)) slot
  refine ⟨rest, ?_⟩
  intro m l
  have hmembers : (fun i => memberIds (Function.update g.members slot m i)) =
      Function.update (fun i => memberIds (g.members i)) slot (memberIds m) := by
    funext i
    exact Function.apply_update (fun _ => memberIds) g.members slot m i
  have hperm := (hrest (memberIds m)).append_left (ids l.itemQueue)
  rw [← hmembers, ← List.append_assoc] at hperm
  exact hperm

theorem setMember_self (g : BbGame) (slot : Fin 4) :
    g.setMember slot (g.members slot) g.lobby = g := by
  simp [BbGame.setMember]

theorem CountersInRange.setMember {g : BbGame} (h : CountersInRange g) {slot : Fin 4}
    {m : Option BbClient} {l : GameLobby}
    (hbelow : ∀ i, (l.highestItem i).toNat < slotBase (i + 1))
    (hothers : ∀ i, i ≠ slot → (g.lobby.highestItem i).toNat ≤ (l.highestItem i).toNat)
    (hm : ∀ c, m = some c →
      c.clientId = slot ∧ slotBase slot ≤ (l.highestItem slot).toNat + 1)
    (hserver : g.lobby.itemId.toNat ≤ l.itemId.toNat) :
    CountersInRange (g.setMember slot m l) := by
  refine ⟨hbelow, ?_, h.server.trans hserver⟩
  intro i c hc
  by_cases hi : i = slot
  · subst hi
    have hmc : m = some c := by simpa [BbGame.setMember] using hc
    exact hm c hmc
  · have hold : g.members i = some c := by simpa [BbGame.setMember, hi] using hc
    obtain ⟨hid, hbase⟩ := h.seated i c hold
    have hle := hothers i hi
    refine ⟨hid, ?_⟩
    change slotBase i ≤ (l.highestItem i).toNat + 1
    omega

theorem toNat_succ (id : BitVec 32) (h : id.toNat + 1 < 2 ^ 32) :
    (id + 1).toNat = id.toNat + 1 := by
  rw [BitVec.toNat_add]
  exact Nat.mod_eq_of_lt h

theorem slotBase_le (slot : Fin 4) : slotBase (slot + 1) ≤ slotBase 4 := by
  have hslot := slot.isLt
  unfold slotBase
  omega

theorem slotBase_four_lt : slotBase 4 < 2 ^ 32 := by
  decide

theorem raiseHighest_toNat {l : GameLobby} {slot : Fin 4}
    (h : (l.highestItem slot).toNat + 1 < slotBase (slot + 1)) (i : Fin 4) :
    ((raiseHighest l slot).highestItem i).toNat =
      if i = slot then (l.highestItem slot).toNat + 1 else (l.highestItem i).toNat := by
  have hbase := slotBase_le slot
  have hlimit := slotBase_four_lt
  by_cases hi : i = slot
  · subst hi
    simp only [raiseHighest, if_true, Function.update_self]
    exact toNat_succ _ (by omega)
  · simp only [raiseHighest, if_neg hi, Function.update_of_ne hi]

/-- The first id that a join hands out in the slot is carried by nothing else in the game, and
the ids that follow stay in the slot's range. -/
abbrev JoinFits (g : BbGame) (slot : Fin 4) (inv : Inventory) : Prop :=
  firstJoinId slot (g.lobby.highestItem slot) ∉ itemIds (g.setMember slot none g.lobby) ∧
    (firstJoinId slot (g.lobby.highestItem slot)).toNat + inv.toList.length ≤
      slotBase (slot + 1)

/-- The event brings no item into the game whose id its counter has handed out before. -/
def FreshEvent (g : BbGame) : Event → Prop
  | .packet slot (.dropStack pkt _) =>
    ∀ c ∈ g.members slot, RaisesHighest c g.lobby pkt →
      (g.lobby.highestItem slot).toNat + 1 < slotBase (slot + 1)
  | .packet slot (.bankAction pkt) =>
    ∀ c ∈ g.members slot, pkt.action = subcmdBankActTake →
      (itemTakeFromBank c.bank pkt.itemId pkt.itemAmount).isSome →
        g.lobby.itemId.toNat + 1 < 2 ^ 32
  | .packet _ _ => True
  | .leave _ => True
  | .join c => ∀ slot ∈ freeSlot g, JoinFits g slot c.inv
  | .enter _ => freeSlot g = none
  | .rejoin slot => ∀ c ∈ g.members slot, JoinFits g slot c.inv
  | .refused slot _ => ∀ c ∈ g.members slot, c.inv.toList = []
  | .serverDrop _ => g.lobby.version = .bb → g.lobby.itemId.toNat + 1 < 2 ^ 32

theorem packet_subperm {g : BbGame} {slot : Fin 4} {c c' : BbClient} {l' : GameLobby}
    {fresh : List (BitVec 32)} (hc : g.members slot = some c)
    (hsub : (ids l'.itemQueue ++ ids c'.inv.toList).Subperm
      (fresh ++ (ids g.lobby.itemQueue ++ ids c.inv.toList))) :
    (itemIds (g.setMember slot (some c') l')).Subperm (fresh ++ itemIds g) := by
  obtain ⟨rest, hrest⟩ := exists_itemIds_setMember_perm g slot
  have hold := hrest (g.members slot) g.lobby
  rw [setMember_self, hc] at hold
  have hnew := (hrest (some c') l').subperm.trans ((List.subperm_append_right rest).mpr hsub)
  rw [List.append_assoc] at hnew
  exact hnew.trans (hold.symm.append_left fresh).subperm

theorem next_packet_uniqueIds {g : BbGame} {slot : Fin 4} {c : BbClient} {p : Packet}
    (h : UniqueIds g) (hc : g.members slot = some c) (hfresh : FreshEvent g (.packet slot p)) :
    UniqueIds (g.next (.packet slot p)) := by
  rw [next_packet p hc]
  obtain ⟨hid, fresh, hissued, hsub⟩ := moves_ids (handlePacket_moves c g.lobby p)
  generalize (handlePacket c g.lobby p).2.1 = c' at hid hissued hsub ⊢
  generalize (handlePacket c g.lobby p).2.2 = l' at hid hissued hsub ⊢
  have hsubperm := packet_subperm hc hsub
  obtain ⟨hseat, hbase⟩ := h.counters.seated slot c hc
  cases hissued with
  | none highest itemId =>
    refine h.extend ?_ hsubperm List.nodup_nil (by simp) ?_
    · refine h.counters.setMember ?_ ?_ ?_ ?_
      · rw [highest]
        exact h.counters.below
      · intro i _
        rw [highest]
      · rintro _ ⟨⟩
        exact ⟨hid.trans hseat, by rw [highest]; exact hbase⟩
      · rw [itemId]
    · intro id _ hall
      exact hall.mono (fun i => by simp [BbGame.setMember, highest])
        (by simp [BbGame.setMember, itemId])
  | @stack pkt junk _ raises highest itemId =>
    have hroom := hfresh c hc raises
    rw [hseat] at highest hsubperm
    have hraise := raiseHighest_toNat hroom
    have hslots (i : Fin 4) :
        (g.lobby.highestItem i).toNat ≤ (l'.highestItem i).toNat := by
      rw [highest, hraise]
      split_ifs with hi
      · rw [hi]
        omega
      · exact le_rfl
    have hself : (l'.highestItem slot).toNat = (g.lobby.highestItem slot).toNat + 1 := by
      rw [highest, hraise, if_pos rfl]
    have hbase' := slotBase_le slot
    have hlimit := slotBase_four_lt
    have hid' := toNat_succ (g.lobby.highestItem slot) (by omega)
    refine h.extend ?_ hsubperm (List.nodup_singleton _) ?_ ?_
    · refine h.counters.setMember ?_ (fun i _ => hslots i) ?_ (le_of_eq (by rw [itemId]))
      · intro i
        rw [highest, hraise]
        split_ifs with hi
        · rw [hi]
          exact hroom
        · exact h.counters.below i
      · rintro _ ⟨⟩
        refine ⟨hid.trans hseat, ?_⟩
        omega
    · intro id hmem
      rw [List.mem_singleton] at hmem
      subst hmem
      refine ⟨?_, .inl ⟨slot, ?_, ?_⟩⟩
      · intro hold
        refine slot_not_allocated h.counters slot ?_ ?_ ?_ (h.allocated _ hold) <;> omega
      · omega
      · exact (hid'.trans hself.symm).le
    · intro id _ hall
      exact hall.mono hslots (le_of_eq (congrArg BitVec.toNat itemId.symm))
  | @bank pkt _ action taken highest itemId =>
    have hroom := hfresh c hc action taken
    have hnext : l'.itemId.toNat = g.lobby.itemId.toNat + 1 := by
      rw [itemId, toNat_succ _ hroom]
    have hserver := h.counters.server
    refine h.extend ?_ hsubperm (List.nodup_singleton _) ?_ ?_
    · refine h.counters.setMember ?_ ?_ ?_ (by omega)
      · rw [highest]
        exact h.counters.below
      · intro i _
        rw [highest]
      · rintro _ ⟨⟩
        exact ⟨hid.trans hseat, by rw [highest]; exact hbase⟩
    · intro id hmem
      rw [List.mem_singleton] at hmem
      subst hmem
      refine ⟨fun hold => itemId_not_allocated h.counters (h.allocated _ hold), .inr ⟨hserver, ?_⟩⟩
      change g.lobby.itemId.toNat < l'.itemId.toNat
      omega
    · intro id _ hall
      refine hall.mono (fun i => le_of_eq (by rw [← highest]; rfl)) ?_
      change g.lobby.itemId.toNat ≤ l'.itemId.toNat
      omega

theorem leave_uniqueIds {g : BbGame} (h : UniqueIds g) (slot : Fin 4) :
    UniqueIds (g.setMember slot none g.lobby) := by
  obtain ⟨rest, hrest⟩ := exists_itemIds_setMember_perm g slot
  have hold := hrest (g.members slot) g.lobby
  rw [setMember_self] at hold
  have hsub : (itemIds (g.setMember slot none g.lobby)).Subperm ([] ++ itemIds g) := by
    refine (hrest none g.lobby).subperm.trans (List.Subperm.trans ?_ hold.symm.subperm)
    have hkeep := List.sublist_append_left (ids g.lobby.itemQueue) (memberIds (g.members slot))
    simpa [memberIds] using (hkeep.append_right rest).subperm
  refine h.extend ?_ hsub List.nodup_nil (by simp) (fun _ _ hall => hall)
  refine h.counters.setMember h.counters.below (fun _ _ => le_rfl) ?_ le_rfl
  rintro _ ⟨⟩

theorem firstJoinId_toNat (slot : Fin 4) (highest : BitVec 32) :
    slotBase slot ≤ (firstJoinId slot highest).toNat ∧
      highest.toNat ≤ (firstJoinId slot highest).toNat := by
  have hbits : (0x00010000 ||| BitVec.ofNat 32 slot <<< 21).toNat = slotBase slot := by
    revert slot
    decide
  rw [firstJoinId, BitVec.toNat_or, hbits]
  exact ⟨Nat.left_le_or, Nat.right_le_or⟩

theorem ids_renumber (inv : Inventory) (id : BitVec 32) :
    ids (renumber inv id).toList =
      (List.range inv.toList.length).map (fun i => id + BitVec.ofNat 32 i) := by
  refine List.ext_getElem (by simp [ids, renumber]) ?_
  intro i h₁ h₂
  simp [ids, renumber]

theorem toNat_add_ofNat (id : BitVec 32) (i : ℕ) (h : id.toNat + i < 2 ^ 32) :
    (id + BitVec.ofNat 32 i).toNat = id.toNat + i := by
  rw [BitVec.toNat_add, BitVec.toNat_ofNat]
  omega

theorem seat_subperm {g : BbGame} {slot : Fin 4} {c : BbClient} {l : GameLobby}
    (hfree : g.members slot = none) (hqueue : l.itemQueue = g.lobby.itemQueue) :
    (itemIds (g.setMember slot (some c) l)).Subperm (ids c.inv.toList ++ itemIds g) := by
  obtain ⟨rest, hrest⟩ := exists_itemIds_setMember_perm g slot
  have hold := hrest (g.members slot) g.lobby
  rw [setMember_self, hfree] at hold
  have hnew := hrest (some c) l
  have hfloor : memberIds none = [] := rfl
  rw [hfloor, List.append_nil] at hold
  rw [hqueue] at hnew
  have hswap : (ids g.lobby.itemQueue ++ memberIds (some c) ++ rest).Perm
      (memberIds (some c) ++ (ids g.lobby.itemQueue ++ rest)) := by
    rw [← List.append_assoc]
    exact List.perm_append_comm.append_right rest
  exact ((hnew.trans hswap).trans (hold.symm.append_left _)).subperm

theorem joinGame_last {slot : Fin 4} {id : BitVec 32} {n : ℕ} (hlow : slotBase slot ≤ id.toNat)
    (hroom : id.toNat + n ≤ slotBase (slot + 1)) :
    (id + BitVec.ofNat 32 n - 1).toNat = id.toNat + n - 1 := by
  have hbase := slotBase_le slot
  have hlimit := slotBase_four_lt
  have hsum := toNat_add_ofNat id n (by omega)
  have hone : (1 : BitVec 32) ≤ id + BitVec.ofNat 32 n := by
    change 1 ≤ (id + BitVec.ofNat 32 n).toNat
    unfold slotBase at hlow
    omega
  rw [BitVec.toNat_sub_of_le hone, hsum]
  rfl

/-- Seating a client in a free slot and renumbering its inventory. -/
theorem joinGame_uniqueIds {g : BbGame} {slot : Fin 4} {c : BbClient} (h : UniqueIds g)
    (hfree : g.members slot = none) (hid : c.clientId = slot) (hfits : JoinFits g slot c.inv) :
    UniqueIds (g.setMember slot (some (joinGame c g.lobby).1) (joinGame c g.lobby).2) := by
  subst hid
  obtain ⟨hunused, hroom⟩ := hfits
  rw [← hfree, setMember_self] at hunused
  obtain ⟨hlow, hpast⟩ := firstJoinId_toNat c.clientId (g.lobby.highestItem c.clientId)
  have hlast := joinGame_last hlow hroom
  have hbase := slotBase_le c.clientId
  have hlimit := slotBase_four_lt
  simp only [joinGame]
  generalize firstJoinId c.clientId (g.lobby.highestItem c.clientId) = id at *
  have hself : (Function.update g.lobby.highestItem c.clientId
      (id + BitVec.ofNat 32 c.inv.toList.length - 1) c.clientId).toNat =
      id.toNat + c.inv.toList.length - 1 := by
    rw [Function.update_self, hlast]
  have hother (i : Fin 4) (hi : i ≠ c.clientId) :
      (Function.update g.lobby.highestItem c.clientId
        (id + BitVec.ofNat 32 c.inv.toList.length - 1) i).toNat =
      (g.lobby.highestItem i).toNat := by
    rw [Function.update_of_ne hi]
  have hpos : 0 < slotBase c.clientId := by
    unfold slotBase
    omega
  have hnth {i : ℕ} (hi : i < c.inv.toList.length) :
      (id + BitVec.ofNat 32 i).toNat = id.toNat + i :=
    toNat_add_ofNat id i (by omega)
  refine h.extend ?_ (seat_subperm hfree rfl) ?_ ?_ ?_
  · refine h.counters.setMember ?_ (fun i hi => (hother i hi).ge) ?_ le_rfl
    · intro i
      by_cases hi : i = c.clientId
      · subst hi
        rw [hself]
        omega
      · rw [hother i hi]
        exact h.counters.below i
    · rintro _ ⟨⟩
      refine ⟨rfl, ?_⟩
      rw [hself]
      omega
  · rw [ids_renumber]
    refine List.Nodup.map_on ?_ List.nodup_range
    intro i hi j hj heq
    have hnat := congrArg BitVec.toNat heq
    rw [hnth (List.mem_range.mp hi), hnth (List.mem_range.mp hj)] at hnat
    omega
  · intro new hnew
    rw [ids_renumber] at hnew
    obtain ⟨i, hi, rfl⟩ := List.mem_map.mp hnew
    have hval := hnth (List.mem_range.mp hi)
    have hlt := List.mem_range.mp hi
    refine ⟨?_, .inl ⟨c.clientId, by omega, ?_⟩⟩
    · intro hold
      by_cases hzero : i = 0
      · subst hzero
        simp only [BitVec.add_zero] at hold
        exact hunused hold
      · refine slot_not_allocated h.counters c.clientId ?_ ?_ ?_ (h.allocated _ hold) <;> omega
    · change _ ≤ (Function.update g.lobby.highestItem c.clientId _ c.clientId).toNat
      rw [hself]
      omega
  · intro old hold hall
    -- The counter is lowered by one when an empty inventory joins.
    rcases hall with ⟨slot, hge, hle⟩ | hserver
    · by_cases hslot : slot = c.clientId
      · subst hslot
        have hne : old.toNat ≠ id.toNat := fun heq => hunused (BitVec.eq_of_toNat_eq heq ▸ hold)
        refine .inl ⟨c.clientId, hge, ?_⟩
        change _ ≤ (Function.update g.lobby.highestItem c.clientId _ c.clientId).toNat
        rw [hself]
        omega
      · refine .inl ⟨slot, hge, ?_⟩
        change _ ≤ (Function.update g.lobby.highestItem c.clientId _ slot).toNat
        rw [hother slot hslot]
        exact hle
    · exact .inr hserver

theorem setMember_setMember (g : BbGame) (slot : Fin 4) (m m' : Option BbClient)
    (l l' : GameLobby) : (g.setMember slot m l).setMember slot m' l' = g.setMember slot m' l' := by
  simp [BbGame.setMember]

theorem freeSlot_isNone {g : BbGame} {slot : Fin 4} (h : freeSlot g = some slot) :
    g.members slot = none := by
  have hfree := List.find?_some h
  simp only [decide_eq_true_eq] at hfree
  exact Option.isNone_iff_eq_none.mp hfree.2

theorem renumber_nil {inv : Inventory} (h : inv.toList = []) (id : BitVec 32) :
    renumber inv id = inv := by
  obtain ⟨items, hlen⟩ := inv
  subst h
  rfl

theorem serverDrop_uniqueIds {g : BbGame} (h : UniqueIds g) (itemData : Fin 4 → BitVec 32)
    (hfresh : FreshEvent g (.serverDrop itemData)) :
    UniqueIds (g.next (.serverDrop itemData)) := by
  by_cases hver : g.lobby.version = .bb
  · have hroom := hfresh hver
    have hnext := toNat_succ g.lobby.itemId hroom
    have hserver := h.counters.server
    simp only [BbGame.next, lobbyAddItemLocked, if_neg (not_not.mpr hver)]
    refine h.extend ?_ ?_ (List.nodup_singleton g.lobby.itemId) ?_ ?_
    · refine ⟨h.counters.below, h.counters.seated, ?_⟩
      change slotBase 4 ≤ (g.lobby.itemId + 1).toNat
      omega
    · exact List.Subperm.refl _
    · intro id hmem
      rw [List.mem_singleton] at hmem
      subst hmem
      refine ⟨fun hold => itemId_not_allocated h.counters (h.allocated _ hold), .inr ⟨hserver, ?_⟩⟩
      change g.lobby.itemId.toNat < (g.lobby.itemId + 1).toNat
      omega
    · intro id _ hall
      refine hall.mono (fun _ => le_rfl) ?_
      change g.lobby.itemId.toNat ≤ (g.lobby.itemId + 1).toNat
      omega
  · simp only [BbGame.next, lobbyAddItemLocked, if_pos hver]
    exact h

theorem next_uniqueIds {g : BbGame} (h : UniqueIds g) {e : Event} (hfresh : FreshEvent g e) :
    UniqueIds (g.next e) := by
  cases e with
  | packet slot p =>
    cases hc : g.members slot with
    | none =>
      simp only [BbGame.next, hc]
      exact h
    | some c => exact next_packet_uniqueIds h hc hfresh
  | leave slot => exact leave_uniqueIds h slot
  | join c =>
    cases hslot : freeSlot g with
    | none =>
      simp only [BbGame.next, hslot]
      exact h
    | some slot =>
      simp only [BbGame.next, hslot]
      exact joinGame_uniqueIds h (freeSlot_isNone hslot) rfl (hfresh slot hslot)
  | enter c =>
    have hfull : freeSlot g = none := hfresh
    simp only [BbGame.next, hfull]
    exact h
  | rejoin slot =>
    cases hc : g.members slot with
    | none =>
      simp only [BbGame.next, hc]
      exact h
    | some c =>
      -- Joining again gives the same game as leaving and joining in the same slot.
      have hleft := leave_uniqueIds h slot
      have hfree : (g.setMember slot none g.lobby).members slot = none :=
        Function.update_self ..
      have hfits : JoinFits (g.setMember slot none g.lobby) slot c.inv := by
        have hfits := hfresh c hc
        unfold JoinFits at hfits ⊢
        rw [setMember_setMember]
        exact hfits
      have hjoin := joinGame_uniqueIds hleft hfree (h.counters.seated slot c hc).1 hfits
      rw [setMember_setMember] at hjoin
      simp only [BbGame.next, hc]
      exact hjoin
  | refused slot highest =>
    cases hc : g.members slot with
    | none =>
      simp only [BbGame.next, hc]
      exact h
    | some c =>
      have hempty := renumber_nil (hfresh c hc) (firstJoinId c.clientId highest)
      simp only [BbGame.next, hc, hempty]
      rw [← hc, setMember_self]
      exact h
  | serverDrop itemData => exact serverDrop_uniqueIds h itemData hfresh

/-- A Blue Burst game as `lobby_create_game` makes it. -/
def createdGame (maxClients : ℕ) : BbGame where
  lobby :=
    { type := .game, version := .bb, maxClients := maxClients, itemId := 0x00810000,
      highestItem := fun _ => 0, itemQueue := [] }
  members := fun _ => none

theorem createdGame_uniqueIds (maxClients : ℕ) : UniqueIds (createdGame maxClients) := by
  have hnone : itemIds (createdGame maxClients) = [] := by
    simp [itemIds, createdGame, ids, memberIds]
  refine ⟨⟨?_, ?_, ?_⟩, ?_, ?_⟩
  · intro slot
    change 0 < slotBase (slot + 1)
    unfold slotBase
    omega
  · rintro slot c ⟨⟩
  · change slotBase 4 ≤ (0x00810000 : BitVec 32).toNat
    decide
  · rw [hnone]
    exact List.nodup_nil
  · rw [hnone]
    rintro id ⟨⟩

/-- As long as every id comes fresh from its counter, no two items in the inventories and on the
floor of a Blue Burst game share an id. -/
theorem bbItemIds_nodup {maxClients : ℕ} {g : BbGame} {es : List Event}
    (h : Run (StepOf BbGame.next) FreshEvent (createdGame maxClients) es g) :
    (itemIds g).Nodup := by
  have hunique : UniqueIds g := by
    refine h.invariant UniqueIds (createdGame_uniqueIds maxClients) ?_
    intro s e t hs hgood hstep
    rw [hstep]
    exact next_uniqueIds hs hgood
  exact hunique.nodup

/-- A client that carries one monomate. -/
def visitor : BbClient where
  clientId := 0
  inv := ⟨[{ dataL0 := 0x000003, dataL1 := 0x00000100, dataL2 := 0, itemId := 0, data2L := 0,
             equipped := 0, tech := 0, flags := 0 }], by simp⟩
  bank := .nil
  meseta := 0
  plMeseta := 0
  bankMeseta := 0
  items := fun _ => { dataL0 := 0, dataL1 := 0, dataL2 := 0, itemId := 0, data2L := 0,
                      equipped := 0, tech := 0, flags := 0 }
  dropItem := 0
  dropAmt := 0

def dropFirstItem : Event :=
  .packet 0 (.dropItem { pktLen := 0x20, size := 0x06, clientId := 0, itemId := 0x10000 } false)

/-- Two visitors join and the first drops its monomate. -/
theorem bbItemIds_nodup_visitors :
    (itemIds ([.join visitor, .join visitor, dropFirstItem].foldl BbGame.next
      (createdGame 4))).Nodup := by
  have hrun : Run (StepOf BbGame.next) FreshEvent (createdGame 4)
      [.join visitor, .join visitor, dropFirstItem]
      ([.join visitor, .join visitor, dropFirstItem].foldl BbGame.next (createdGame 4)) := by
    refine .move ?_ rfl (.move ?_ rfl (.move trivial rfl (.stop _)))
    · rintro slot ⟨⟩
      decide
    · rintro slot ⟨⟩
      decide
  exact bbItemIds_nodup hrun

/-- A newcomer to the slot of a player who left behind an item gets that item's id again. -/
theorem bbItemIds_not_nodup :
    ¬ ∀ (maxClients : ℕ) (es : List Event),
      (itemIds (es.foldl BbGame.next (createdGame maxClients))).Nodup := by
  intro h
  have hnodup := h 4 [.join visitor, .join visitor, dropFirstItem, .leave 0, .join visitor]
  revert hnodup
  decide

end ShipServer.BlueBurstItemIds
