import ShipServer.BankStacks

set_option autoImplicit false

/-! What taking items out of an inventory and adding them does to the amounts it holds. -/

namespace ShipServer.InventoryAmounts

open BoundedLists Items BlueBurstConservation BankStacks

/-- An inventory as its owner keeps it: 30 slots, of which the first `count` are in use by items
with different ids. -/
structure Slots where
  items : List Item
  count : ℕ
  length_items : items.length = 30
  count_le : count ≤ 30
  distinct : ((items.take count).map fun it => it.itemId).Nodup

namespace Slots

/-- The slots in use. -/
def entries (inv : Slots) : Inventory :=
  ⟨inv.items.take inv.count, (List.length_take_le _ _).trans inv.count_le⟩

theorem length_entries (inv : Slots) : inv.entries.toList.length = inv.count := by
  have hcount := inv.count_le
  have hlen := inv.length_items
  simp only [entries, List.length_take]
  omega

/-- The value returned and the slots afterwards. The caller adjusts the count. -/
def itemRemoveFromInv (inv : Slots) (itemId amt : BitVec 32) : Int × List Item :=
  match itemIndex inv.entries itemId with
  | none => (-1, inv.items)
  | some i =>
    let it := inv.entries.toList[i]
    let tmp := it.dataB5.setWidth 32
    if itemIsStackable it.dataL0 ∧ amt ≠ 0xFFFFFFFF ∧ amt < tmp then
      (0, inv.items.set i { it with toItemData := it.setDataB5 ((tmp - amt).setWidth 8) })
    else
      (1, memmove inv.items i (i + 1) (inv.count - i - 1))

def itemAddToInv (inv : Slots) (it : Item) : Int × List Item :=
  if inv.count = 30 then
    (-1, inv.items)
  else
    match itemIndex inv.entries it.itemId with
    | some _ => (-1, inv.items)
    | none =>
      if itemIsStackable it.dataL0 then
        match inv.entries.toList.findFinIdx? (fun x => x.dataL0 = it.dataL0) with
        | some i =>
          let x := inv.entries.toList[i]
          (0, inv.items.set i { x with toItemData := x.setDataB5 (x.dataB5 + it.dataB5) })
        | none => (1, inv.items.set inv.count it)
      else
        (1, inv.items.set inv.count it)

end Slots

inductive InvCall where
  | remove (itemId amt : BitVec 32)
  | add (it : Item)

/-- The value that a call returns, and the items left in use when the caller has adjusted the
count by it. -/
def call (inv : Slots) : InvCall → Int × List Item
  | .remove itemId amt =>
    let r := inv.itemRemoveFromInv itemId amt
    (r.1, r.2.take (if r.1 < 0 then inv.count else inv.count - r.1.toNat))
  | .add it =>
    let r := inv.itemAddToInv it
    (r.1, r.2.take (if r.1 < 0 then inv.count else inv.count + r.1.toNat))

def ids (items : List Item) : List (BitVec 32) :=
  items.map fun it => it.itemId

/-- The amount of a code among the items. -/
def total (code : BitVec 32) (items : List Item) : ℕ :=
  tally (held code) (itemDatas items)

/-- How much of an entry a removal takes. -/
def taken (it : Item) (amt : BitVec 32) : ℕ :=
  if itemIsStackable it.dataL0 ∧ amt ≠ 0xFFFFFFFF then min amt.toNat it.dataB5.toNat
  else quantity it.toItemData

structure Removes (before after : List Item) (itemId amt : BitVec 32) (r : Int) : Prop where
  absent : r = -1 ↔ itemId ∉ ids before
  unchanged : r = -1 → after = before
  gone : r = 1 ↔ itemId ∈ ids before ∧ itemId ∉ ids after
  smaller : r = 0 ↔ ∃ it ∈ before, ∃ it' ∈ after,
    it.itemId = itemId ∧ it' = { it with toItemData := it.setDataB5 it'.dataB5 } ∧
      quantity it'.toItemData < quantity it.toItemData
  amounts : ∀ it ∈ before, it.itemId = itemId → ∀ code,
    total code after + (if it.dataL0 = code then taken it amt else 0) = total code before
  others : after.filter (fun it => it.itemId ≠ itemId) =
    before.filter (fun it => it.itemId ≠ itemId)

structure Adds (before after : List Item) (it : Item) (r : Int) : Prop where
  refused : r = -1 ↔ before.length = 30 ∨ it.itemId ∈ ids before
  unchanged : r = -1 → after = before
  joined : r = 0 ↔ r ≠ -1 ∧ itemIsStackable it.dataL0 = true ∧ ∃ x ∈ before, x.dataL0 = it.dataL0
  resized : r = 0 → ∃ (i : Fin before.length) (n : BitVec 8),
    (before.get i).dataL0 = it.dataL0 ∧
      after = before.set i { (before.get i) with toItemData := (before.get i).setDataB5 n }
  appended : r = 1 ↔ after = before ++ [it]
  amounts : r ≠ -1 → ∀ code, total code after = total code before + held code it.toItemData

/-- A call moves exactly the amount it is given, returns what became of the entry, and leaves all
other items as they are. -/
def Moves (inv : Slots) (c : InvCall) : Prop :=
  match c with
  | .remove itemId amt => Removes inv.entries.toList (call inv c).2 itemId amt (call inv c).1
  | .add it => Adds inv.entries.toList (call inv c).2 it (call inv c).1

/-- A removal takes something off a stack that has something, and a stack that is joined does not
outgrow its byte. -/
def Fits (inv : Slots) : InvCall → Prop
  | .remove itemId amt => amt = 0 → ∀ it ∈ inv.entries.toList, it.itemId = itemId →
    itemIsStackable it.dataL0 = true → it.dataB5 = 0
  | .add it => inv.count ≠ 30 → it.itemId ∉ ids inv.entries.toList →
    itemIsStackable it.dataL0 = true →
    ∀ i, inv.entries.toList.findFinIdx? (fun x => x.dataL0 = it.dataL0) = some i →
      (inv.entries.toList.get i).dataB5.toNat + it.dataB5.toNat < 256

section Slots

variable (inv : Slots)

/-- A caller's removal is that of the list of entries. -/
theorem call_remove (itemId amt : BitVec 32) :
    call inv (.remove itemId amt) =
      ((itemRemoveFromInv inv.entries itemId amt).1,
        (itemRemoveFromInv inv.entries itemId amt).2.toList) := by
  unfold call Slots.itemRemoveFromInv itemRemoveFromInv
  dsimp only
  cases itemIndex inv.entries itemId with
  | none => rfl
  | some i =>
    dsimp only
    split_ifs with hpart hneg hneg
    · exact absurd hneg (by simp)
    · exact congrArg (Prod.mk 0) List.take_set
    · exact absurd hneg (by simp)
    · have hlt := i.isLt.trans_eq inv.length_entries
      have hcount := inv.count_le.trans_eq inv.length_items.symm
      exact congrArg (Prod.mk 1) (take_memmove hlt hcount)

/-- A caller's addition is that to the list of entries. -/
theorem call_add (it : Item) :
    call inv (.add it) =
      ((itemAddToInv inv.entries it).1, (itemAddToInv inv.entries it).2.toList) := by
  unfold call Slots.itemAddToInv itemAddToInv
  dsimp only
  by_cases hfull : inv.count = 30
  · have hlen : ¬inv.entries.toList.length < 30 := by
      rw [inv.length_entries]
      omega
    rw [if_pos hfull, dif_neg hlen]
    rfl
  · have hcount := inv.count_le
    have hlen : inv.entries.toList.length < 30 := by
      rw [inv.length_entries]
      omega
    have hslot : inv.count < inv.items.length := by
      rw [inv.length_items]
      omega
    have hpush : ((1 : Int), (inv.items.set inv.count it).take (inv.count + 1)) =
        (1, (inv.entries.push it hlen).toList) :=
      congrArg (Prod.mk 1) (take_set_succ hslot it)
    rw [if_neg hfull, dif_pos hlen]
    cases itemIndex inv.entries it.itemId with
    | some _ => rfl
    | none =>
      dsimp only
      by_cases hstack : itemIsStackable it.dataL0 = true
      · rw [if_pos hstack, if_pos hstack]
        cases inv.entries.toList.findFinIdx? (fun x => x.dataL0 = it.dataL0) with
        | none => exact hpush
        | some i => exact congrArg (Prod.mk 0) List.take_set
      · rw [if_neg hstack, if_neg hstack]
        exact hpush

end Slots

section Removals

variable {inv : Inventory} {itemId amt : BitVec 32}

theorem filter_set_of_neg {α : Type*} {p : α → Bool} {l : List α} {i : ℕ} (hi : i < l.length)
    {a : α} (hold : ¬p l[i] = true) (hnew : ¬p a = true) :
    (l.set i a).filter p = l.filter p := by
  have hsplit : l = l.take i ++ l[i] :: l.drop (i + 1) := by
    simp
  conv_rhs => rw [hsplit]
  rw [List.set_eq_take_append_cons_drop, if_pos hi, List.filter_append, List.filter_append,
    List.filter_cons_of_neg hnew, List.filter_cons_of_neg hold]

theorem filter_eraseIdx_of_neg {α : Type*} {p : α → Bool} {l : List α} {i : ℕ}
    (hi : i < l.length) (hold : ¬p l[i] = true) : (l.eraseIdx i).filter p = l.filter p := by
  have hsplit : l = l.take i ++ l[i] :: l.drop (i + 1) := by
    simp
  conv_rhs => rw [hsplit]
  rw [List.eraseIdx_eq_take_drop_succ, List.filter_append, List.filter_append,
    List.filter_cons_of_neg hold]

theorem ids_set {items : List Item} {i : ℕ} (hi : i < items.length) {it : Item}
    (h : it.itemId = items[i].itemId) : ids (items.set i it) = ids items := by
  rw [ids, List.map_set]
  apply (set_eq_self (by simpa using hi) _).mpr
  rw [List.getElem_map, h]

theorem eq_of_ids {items : List Item} (h : (ids items).Nodup) {it it' : Item} (hit : it ∈ items)
    (hit' : it' ∈ items) (hid : it.itemId = it'.itemId) : it = it' :=
  List.inj_on_of_nodup_map h hit hit' hid

theorem not_mem_ids_eraseIdx {items : List Item} (h : (ids items).Nodup) {i : ℕ}
    (hi : i < items.length) : items[i].itemId ∉ ids (items.eraseIdx i) := by
  have hlen : i < (ids items).length := by
    rwa [ids, List.length_map]
  have hcons := (List.getElem_cons_eraseIdx_perm hlen).nodup_iff.mpr h
  have hget : (ids items)[i] = items[i].itemId := List.getElem_map ..
  have herase : ids (items.eraseIdx i) = (ids items).eraseIdx i := (List.eraseIdx_map ..).symm
  rw [herase, ← hget]
  exact (List.nodup_cons.mp hcons).1

theorem held_removedPart (it : Item) (code : BitVec 32) :
    held code (removedPart it.toItemData amt) =
      if it.dataL0 = code then taken it amt else 0 := by
  have hcode : (removedPart it.toItemData amt).dataL0 = it.dataL0 := by
    unfold removedPart
    split_ifs <;> rfl
  have hquantity : quantity (removedPart it.toItemData amt) = taken it amt := by
    unfold removedPart taken
    by_cases hstack : itemIsStackable it.dataL0 ∧ amt ≠ 0xFFFFFFFF
    · rw [if_pos hstack]
      by_cases hlt : amt < it.dataB5.setWidth 32
      · have hle : amt.toNat < (it.dataB5.setWidth 32).toNat := hlt
        have hpart : itemIsStackable (it.setDataB5 (amt.setWidth 8)).dataL0 = true := hstack.1
        rw [if_pos ⟨hstack.1, hstack.2, hlt⟩, quantity_stackable hpart,
          ItemData.dataB5_setDataB5, (toNat_stack_sub hlt).1]
        rw [BitVec.toNat_setWidth_of_le (by decide)] at hle
        exact (Nat.min_eq_left hle.le).symm
      · have hle : ¬amt.toNat < (it.dataB5.setWidth 32).toNat := hlt
        rw [if_neg (fun h => hlt h.2.2), quantity_stackable hstack.1]
        rw [BitVec.toNat_setWidth_of_le (by decide)] at hle
        exact (Nat.min_eq_right (not_lt.mp hle)).symm
    · rw [if_neg hstack, if_neg (fun h => hstack ⟨h.1, h.2.1⟩)]
  rw [held, hcode, hquantity]

theorem mem_ids_of_index {i : Fin inv.toList.length} (hi : itemIndex inv itemId = some i) :
    itemId ∈ ids inv.toList :=
  List.mem_map.mpr ⟨inv.toList[i], List.getElem_mem i.isLt, itemId_of_itemIndex hi⟩

/-- What is removed, for any entry with the id. -/
theorem remove_amounts (amt : BitVec 32) (hdistinct : (ids inv.toList).Nodup) {i : Fin inv.toList.length}
    (hi : itemIndex inv itemId = some i) {it : Item} (hit : it ∈ inv.toList)
    (hid : it.itemId = itemId) (code : BitVec 32) :
    total code (itemRemoveFromInv inv itemId amt).2.toList +
      (if it.dataL0 = code then taken it amt else 0) = total code inv.toList := by
  have hentry : it = inv.toList.get i :=
    eq_of_ids hdistinct hit (List.get_mem ..) (hid.trans (itemId_of_itemIndex hi).symm)
  rw [hentry, ← held_removedPart, Nat.add_comm]
  exact itemRemoveFromInv_held hi amt code

theorem removes_absent (h : itemIndex inv itemId = none) :
    Removes inv.toList (itemRemoveFromInv inv itemId amt).2.toList itemId amt
      (itemRemoveFromInv inv itemId amt).1 := by
  have hne := ne_of_itemIndex_none h
  have habsent : itemId ∉ ids inv.toList := by
    intro hmem
    obtain ⟨it, hit, hid⟩ := List.mem_map.mp hmem
    exact hne it hit hid
  rw [itemRemoveFromInv, h]
  change Removes inv.toList inv.toList itemId amt (-1)
  constructor
  · exact ⟨fun _ => habsent, fun _ => rfl⟩
  · exact fun _ => rfl
  · exact ⟨fun h => absurd h (by decide), fun h => absurd h.1 habsent⟩
  · refine ⟨fun h => absurd h (by decide), ?_⟩
    rintro ⟨it, hit, -, -, hid, -⟩
    exact absurd hid (hne it hit)
  · intro it hit hid
    exact absurd hid (hne it hit)
  · rfl

/-- The entry goes. -/
theorem removes_whole (hdistinct : (ids inv.toList).Nodup) {i : Fin inv.toList.length}
    (hi : itemIndex inv itemId = some i)
    (hwhole : itemRemoveFromInv inv itemId amt = (1, inv.eraseIdx i)) :
    Removes inv.toList (itemRemoveFromInv inv itemId amt).2.toList itemId amt
      (itemRemoveFromInv inv itemId amt).1 := by
  have hid : inv.toList[(i : ℕ)].itemId = itemId := itemId_of_itemIndex hi
  have hgone : itemId ∉ ids (inv.toList.eraseIdx i) := by
    rw [← hid]
    exact not_mem_ids_eraseIdx hdistinct i.isLt
  have hamounts (it : Item) (hit : it ∈ inv.toList) (hid : it.itemId = itemId) :=
    remove_amounts amt hdistinct hi hit hid
  rw [hwhole] at hamounts ⊢
  change Removes inv.toList (inv.toList.eraseIdx i) itemId amt 1
  constructor
  · exact ⟨fun h => absurd h (by decide), fun h => absurd (mem_ids_of_index hi) h⟩
  · exact fun h => absurd h (by decide)
  · exact ⟨fun _ => ⟨mem_ids_of_index hi, hgone⟩, fun _ => rfl⟩
  · refine ⟨fun h => absurd h (by decide), ?_⟩
    rintro ⟨it, -, it', hit', hitId, hsame, -⟩
    have hitId' : it'.itemId = itemId := by
      rw [hsame]
      exact hitId
    exact absurd (List.mem_map.mpr ⟨it', hit', hitId'⟩) hgone
  · exact hamounts
  · exact filter_eraseIdx_of_neg i.isLt (by simp [hid])

/-- Part of the stack stays. It is a smaller stack unless nothing was taken. -/
theorem removes_part_iff (hdistinct : (ids inv.toList).Nodup) {i : Fin inv.toList.length}
    (hi : itemIndex inv itemId = some i)
    (hpart : itemIsStackable (inv.toList.get i).dataL0 ∧ amt ≠ 0xFFFFFFFF ∧
      amt < (inv.toList.get i).dataB5.setWidth 32) :
    Removes inv.toList (itemRemoveFromInv inv itemId amt).2.toList itemId amt
      (itemRemoveFromInv inv itemId amt).1 ↔ amt ≠ 0 := by
  have hid : inv.toList[(i : ℕ)].itemId = itemId := itemId_of_itemIndex hi
  have hamounts (it : Item) (hit : it ∈ inv.toList) (hid : it.itemId = itemId) :=
    remove_amounts amt hdistinct hi hit hid
  have hresult : itemRemoveFromInv inv itemId amt =
      (0, inv.set i { inv.toList[i] with
        toItemData := inv.toList[i].setDataB5
          ((inv.toList[i].dataB5.setWidth 32 - amt).setWidth 8) }) := by
    rw [itemRemoveFromInv, hi]
    exact if_pos hpart
  have hsizes := (toNat_stack_sub hpart.2.2).2
  rw [hresult] at hamounts ⊢
  generalize hleft : { inv.toList[i] with
    toItemData := inv.toList[i].setDataB5
      ((inv.toList[i].dataB5.setWidth 32 - amt).setWidth 8) } = left at hamounts ⊢
  change Removes inv.toList (inv.toList.set i left) itemId amt 0 ↔ amt ≠ 0
  have hleftId : left.itemId = itemId := by
    rw [← hleft]
    exact hid
  have hleftSize : quantity left.toItemData = inv.toList[i].dataB5.toNat - amt.toNat := by
    have hstack : itemIsStackable left.dataL0 = true := by
      rw [← hleft]
      exact hpart.1
    rw [quantity_stackable hstack, ← hleft, ItemData.dataB5_setDataB5]
    exact hsizes
  have hwholeSize : quantity inv.toList[i].toItemData = inv.toList[i].dataB5.toNat :=
    quantity_stackable hpart.1
  have hlt : amt.toNat < inv.toList[i].dataB5.toNat := by
    have hbits : amt.toNat < (inv.toList[i].dataB5.setWidth 32).toNat := hpart.2.2
    rwa [BitVec.toNat_setWidth_of_le (by decide)] at hbits
  have hids : ids (inv.toList.set i left) = ids inv.toList :=
    ids_set i.isLt (hleftId.trans hid.symm)
  have hmem : left ∈ inv.toList.set i left := List.mem_set i.isLt _
  constructor
  · intro hremoves hzero
    obtain ⟨it, hit, it', hit', hitId, hsame, hsmaller⟩ := hremoves.smaller.mp rfl
    have hitId' : it'.itemId = itemId := by
      rw [hsame]
      exact hitId
    have hold : it = inv.toList[i] :=
      eq_of_ids hdistinct hit (List.getElem_mem i.isLt) (hitId.trans hid.symm)
    have hnew : it' = left :=
      eq_of_ids (hids ▸ hdistinct) hit' hmem (hitId'.trans hleftId.symm)
    rw [hold, hnew, hleftSize, hwholeSize, hzero] at hsmaller
    exact absurd hsmaller (by simp)
  · intro hne
    have hpos : 0 < amt.toNat := by
      rw [Nat.pos_iff_ne_zero]
      exact fun h => hne (BitVec.eq_of_toNat_eq h)
    constructor
    · exact ⟨fun h => absurd h (by decide), fun h => absurd (mem_ids_of_index hi) h⟩
    · exact fun h => absurd h (by decide)
    · refine ⟨fun h => absurd h (by decide), ?_⟩
      rintro ⟨-, hgone⟩
      rw [hids] at hgone
      exact absurd (mem_ids_of_index hi) hgone
    · refine ⟨fun _ => ⟨inv.toList[i], List.getElem_mem i.isLt, left, hmem, hid, ?_, ?_⟩,
        fun _ => rfl⟩
      · rw [← hleft, ItemData.dataB5_setDataB5]
      · rw [hleftSize, hwholeSize]
        omega
    · exact hamounts
    · exact filter_set_of_neg i.isLt (by simp [hid]) (by simp [hleftId])

theorem removes_iff (hdistinct : (ids inv.toList).Nodup) :
    Removes inv.toList (itemRemoveFromInv inv itemId amt).2.toList itemId amt
        (itemRemoveFromInv inv itemId amt).1 ↔
      (amt = 0 → ∀ it ∈ inv.toList, it.itemId = itemId → itemIsStackable it.dataL0 = true →
        it.dataB5 = 0) := by
  cases hi : itemIndex inv itemId with
  | none =>
    refine ⟨fun _ _ it hit hid => ?_, fun _ => removes_absent hi⟩
    exact absurd hid (ne_of_itemIndex_none hi it hit)
  | some i =>
    have hid : inv.toList[i].itemId = itemId := itemId_of_itemIndex hi
    by_cases hpart : itemIsStackable inv.toList[i].dataL0 ∧ amt ≠ 0xFFFFFFFF ∧
        amt < inv.toList[i].dataB5.setWidth 32
    · rw [removes_part_iff hdistinct hi hpart]
      constructor
      · exact fun hne hzero => absurd hzero hne
      · intro hempty hzero
        have hsize := hempty hzero _ (List.getElem_mem i.isLt) hid hpart.1
        have hlt := hpart.2.2
        simp only [Fin.getElem_fin, hsize] at hlt
        exact absurd hlt (by rw [hzero]; decide)
    · have hwhole : itemRemoveFromInv inv itemId amt = (1, inv.eraseIdx i) := by
        rw [itemRemoveFromInv, hi]
        exact if_neg hpart
      refine ⟨fun _ hzero it hit hitId hstack => ?_, fun _ => removes_whole hdistinct hi hwhole⟩
      have hentry : it = inv.toList[i] :=
        eq_of_ids hdistinct hit (List.getElem_mem i.isLt) (hitId.trans hid.symm)
      subst hzero
      by_contra hsize
      rw [hentry] at hstack hsize
      refine hpart ⟨hstack, by decide, ?_⟩
      bv_omega

end Removals

section Additions

variable {inv : Inventory} {it : Item}

theorem ne_append_singleton {α : Type*} (l : List α) (a : α) : l ≠ l ++ [a] := by
  intro h
  have hlen := congrArg List.length h
  rw [List.length_append, List.length_singleton] at hlen
  omega

theorem adds_refused (h : inv.toList.length = 30 ∨ it.itemId ∈ ids inv.toList) :
    Adds inv.toList inv.toList it (-1) := by
  constructor
  · exact ⟨fun _ => h, fun _ => rfl⟩
  · exact fun _ => rfl
  · exact ⟨fun h => absurd h (by decide), fun h => absurd rfl h.1⟩
  · exact fun h => absurd h (by decide)
  · exact ⟨fun h => absurd h (by decide), fun h => absurd h (ne_append_singleton _ _)⟩
  · exact fun h => absurd rfl h

theorem adds_appended (h : ¬(inv.toList.length = 30 ∨ it.itemId ∈ ids inv.toList))
    (hnone : itemIsStackable it.dataL0 = true → ∀ x ∈ inv.toList, x.dataL0 ≠ it.dataL0) :
    Adds inv.toList (inv.toList ++ [it]) it 1 := by
  constructor
  · exact ⟨fun h => absurd h (by decide), fun hrefused => absurd hrefused h⟩
  · exact fun h => absurd h (by decide)
  · refine ⟨fun h => absurd h (by decide), ?_⟩
    rintro ⟨-, hstack, x, hx, hcode⟩
    exact absurd hcode (hnone hstack x hx)
  · exact fun h => absurd h (by decide)
  · exact ⟨fun _ => rfl, fun _ => rfl⟩
  · intro _ code
    rw [total, itemDatas, List.map_append, tally_append, List.map_singleton, tally_cons, tally_nil,
      Nat.add_zero]
    rfl

/-- A stack is joined by what is added, if its byte has room. -/
theorem adds_joined_iff (h : ¬(inv.toList.length = 30 ∨ it.itemId ∈ ids inv.toList))
    (hstack : itemIsStackable it.dataL0 = true) {i : Fin inv.toList.length}
    (hcode : (inv.toList.get i).dataL0 = it.dataL0) :
    Adds inv.toList
        (inv.toList.set i { (inv.toList.get i) with
          toItemData := (inv.toList.get i).setDataB5 ((inv.toList.get i).dataB5 + it.dataB5) })
        it 0 ↔
      (inv.toList.get i).dataB5.toNat + it.dataB5.toNat < 256 := by
  have hlen : (i : ℕ) < (itemDatas inv.toList).length := by
    rw [itemDatas, List.length_map]
    exact i.isLt
  have hget : (itemDatas inv.toList)[(i : ℕ)] = (inv.toList.get i).toItemData :=
    List.getElem_map ..
  have hmerge := tally_merge_iff hlen hstack (by rw [hget]; exact hcode)
  rw [hget] at hmerge
  rw [← hmerge]
  constructor
  · intro hadds code
    have hall := hadds.amounts (by decide) code
    rwa [total, itemDatas_set] at hall
  · intro hall
    constructor
    · exact ⟨fun h => absurd h (by decide), fun hrefused => absurd hrefused h⟩
    · exact fun h => absurd h (by decide)
    · exact ⟨fun _ => ⟨by decide, hstack, _, List.get_mem .., hcode⟩, fun _ => rfl⟩
    · exact fun _ => ⟨i, _, hcode, rfl⟩
    · refine ⟨fun h => absurd h (by decide), fun h => ?_⟩
      have hsize := congrArg List.length h
      rw [List.length_set, List.length_append, List.length_singleton] at hsize
      omega
    · intro _ code
      rw [total, itemDatas_set]
      exact hall code

theorem adds_iff :
    Adds inv.toList (itemAddToInv inv it).2.toList it (itemAddToInv inv it).1 ↔
      (inv.toList.length ≠ 30 → it.itemId ∉ ids inv.toList → itemIsStackable it.dataL0 = true →
        ∀ i, inv.toList.findFinIdx? (fun x => x.dataL0 = it.dataL0) = some i →
          (inv.toList.get i).dataB5.toNat + it.dataB5.toNat < 256) := by
  have hcap := inv.length_le
  by_cases hrefused : inv.toList.length = 30 ∨ it.itemId ∈ ids inv.toList
  · have hresult : itemAddToInv inv it = (-1, inv) := by
      rw [itemAddToInv]
      by_cases hroom : inv.toList.length < 30
      · have hmem := hrefused.resolve_left (by omega)
        rw [dif_pos hroom]
        cases hi : itemIndex inv it.itemId with
        | none =>
          obtain ⟨x, hx, hid⟩ := List.mem_map.mp hmem
          exact absurd hid (ne_of_itemIndex_none hi x hx)
        | some _ => rfl
      · exact dif_neg hroom
    rw [hresult]
    refine ⟨fun _ hfull hid => absurd hrefused (by tauto), fun _ => adds_refused hrefused⟩
  · have hroom : inv.toList.length < 30 := by omega
    have habsent : itemIndex inv it.itemId = none := by
      cases hi : itemIndex inv it.itemId with
      | none => rfl
      | some i =>
        exact absurd (.inr (List.mem_map.mpr
          ⟨_, List.getElem_mem i.isLt, itemId_of_itemIndex hi⟩)) hrefused
    rw [itemAddToInv, dif_pos hroom, habsent]
    dsimp only
    by_cases hstack : itemIsStackable it.dataL0 = true
    · rw [if_pos hstack]
      cases hfind : inv.toList.findFinIdx? (fun x => x.dataL0 = it.dataL0) with
      | none =>
        have hnone : ∀ x ∈ inv.toList, x.dataL0 ≠ it.dataL0 := by
          simpa using List.findFinIdx?_eq_none_iff.mp hfind
        exact ⟨fun _ _ _ _ i hi => (by cases hi), fun _ => adds_appended hrefused fun _ => hnone⟩
      | some i =>
        have hcode : (inv.toList.get i).dataL0 = it.dataL0 :=
          of_decide_eq_true (List.findFinIdx?_eq_some_iff.mp hfind).1
        refine (adds_joined_iff hrefused hstack hcode).trans ?_
        constructor
        · rintro hlt - - - j hj
          cases hj
          exact hlt
        · intro hall
          exact hall (by tauto) (by tauto) hstack i rfl
    · rw [if_neg hstack]
      exact ⟨fun _ _ _ h => absurd h hstack,
        fun _ => adds_appended hrefused fun h => absurd h hstack⟩

end Additions

/-- A call does what it should exactly when it takes something off a stack that has something, or
adds no more than the stack it joins has room for. -/
theorem moves_iff (inv : Slots) (c : InvCall) : Moves inv c ↔ Fits inv c := by
  cases c with
  | remove itemId amt =>
    rw [Moves, call_remove]
    exact removes_iff inv.distinct
  | add it =>
    have hlen : inv.entries.toList.length ≠ 30 ↔ inv.count ≠ 30 := by
      rw [inv.length_entries]
    rw [Moves, call_add]
    exact adds_iff.trans (imp_congr_left hlen)

def monomates : Item where
  dataL0 := 0x00000003
  dataL1 := 0x0000FF00
  dataL2 := 0
  itemId := 1
  data2L := 0
  equipped := 0
  tech := 0
  flags := 0

theorem length_monomates : (List.replicate 30 monomates).length = 30 := List.length_replicate

theorem distinct_monomates :
    (((List.replicate 30 monomates).take 1).map fun it => it.itemId).Nodup := by
  decide

/-- One stack of 255 monomates. -/
def fullStack : Slots where
  items := List.replicate 30 monomates
  count := 1
  length_items := length_monomates
  count_le := Nat.le_of_ble_eq_true rfl
  distinct := distinct_monomates

/-- One more monomate leaves a stack of none. -/
theorem not_moves : ¬∀ inv c, Moves inv c := by
  intro h
  have hadds := h fullStack (.add { monomates with dataL1 := 0x00000100, itemId := 2 })
  rw [Moves] at hadds
  have htotal := hadds.amounts (by decide) 0x00000003
  revert htotal
  decide

end ShipServer.InventoryAmounts
