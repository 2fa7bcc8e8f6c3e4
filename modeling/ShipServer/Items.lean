import ShipServer.BoundedLists

set_option autoImplicit false

namespace ShipServer.Items

open BoundedLists

/-- The item description that inventory, floor and bank records share: `data_l[0..2]`,
`item_id` and `data2_l`. -/
structure ItemData where
  dataL0 : BitVec 32
  dataL1 : BitVec 32
  dataL2 : BitVec 32
  itemId : BitVec 32
  data2L : BitVec 32
  deriving DecidableEq, Repr

/-- `item_t`. -/
structure Item extends ItemData where
  equipped : BitVec 16
  tech : BitVec 16
  flags : BitVec 32
  deriving DecidableEq, Repr

/-- `sylverant_bitem_t`. -/
structure BankItem extends ItemData where
  amount : BitVec 16
  flags : BitVec 16
  deriving DecidableEq, Repr

abbrev Inventory := BoundedList Item 30

abbrev Bank := BoundedList BankItem 200

/-- `Item_Meseta`. -/
def itemMeseta : BitVec 32 := 0x000004

def itemTypeGuard : BitVec 8 := 0x01

def itemSubtypeFrame : BitVec 8 := 0x01

def itemSubtypeUnit : BitVec 8 := 0x03

/-- The pseudo item id that stands for meseta in client packets. -/
def mesetaId : BitVec 32 := 0xFFFFFFFF

namespace ItemData

/-- `data_b[0]`. -/
def type (it : ItemData) : BitVec 8 :=
  it.dataL0.extractLsb' 0 8

/-- `data_b[1]`. -/
def subtype (it : ItemData) : BitVec 8 :=
  it.dataL0.extractLsb' 8 8

/-- `data_b[5]`, the size of a stack. -/
def dataB5 (it : ItemData) : BitVec 8 :=
  it.dataL1.extractLsb' 8 8

def setDataB5 (it : ItemData) (n : BitVec 8) : ItemData :=
  { it with dataL1 := it.dataL1 &&& 0xFFFF00FF ||| n.setWidth 32 <<< 8 }

@[simp] theorem dataB5_setDataB5 (it : ItemData) (n : BitVec 8) :
    (it.setDataB5 n).dataB5 = n := by
  refine BitVec.eq_of_getLsbD_eq ?_
  intro i hi
  interval_cases i <;> simp [dataB5, setDataB5]

@[simp] theorem dataL0_setDataB5 (it : ItemData) (n : BitVec 8) :
    (it.setDataB5 n).dataL0 = it.dataL0 := rfl

@[simp] theorem itemId_setDataB5 (it : ItemData) (n : BitVec 8) :
    (it.setDataB5 n).itemId = it.itemId := rfl

@[simp] theorem data2L_setDataB5 (it : ItemData) (n : BitVec 8) :
    (it.setDataB5 n).data2L = it.data2L := rfl

end ItemData

def itemIsStackable (code : BitVec 32) : Bool :=
  if code &&& 0x000000FF = 0x03 then
    let code := code >>> 8 &&& 0xFF
    code < 0x09 && code ≠ 0x02
  else
    false

/-- The first position holding the given item id. -/
def itemIndex (inv : Inventory) (itemId : BitVec 32) : Option (Fin inv.toList.length) :=
  inv.toList.findFinIdx? (fun it => it.itemId = itemId)

theorem itemId_of_itemIndex {inv : Inventory} {itemId : BitVec 32}
    {i : Fin inv.toList.length} (h : itemIndex inv itemId = some i) :
    inv.toList[i].itemId = itemId := by
  have hfound := (List.findFinIdx?_eq_some_iff.mp h).1
  simpa using hfound

theorem ne_of_itemIndex_none {inv : Inventory} {itemId : BitVec 32}
    (h : itemIndex inv itemId = none) : ∀ it ∈ inv.toList, it.itemId ≠ itemId := by
  have hnone := List.findFinIdx?_eq_none_iff.mp h
  simpa using hnone

/-- The item descriptions of a list of items, without the equipment state. -/
def itemDatas (items : List Item) : List ItemData :=
  items.map Item.toItemData

theorem itemDatas_set (items : List Item) (i : ℕ) (it : Item) :
    itemDatas (items.set i it) = (itemDatas items).set i it.toItemData :=
  List.map_set

theorem itemDatas_eraseIdx (items : List Item) (i : ℕ) :
    itemDatas (items.eraseIdx i) = (itemDatas items).eraseIdx i :=
  (List.eraseIdx_map ..).symm

/-- Returns -1 when there is no such item, 0 when part of a stack stays behind, and 1 when the
whole entry is gone. -/
def itemRemoveFromInv (inv : Inventory) (itemId amt : BitVec 32) : Int × Inventory :=
  match itemIndex inv itemId with
  | none => (-1, inv)
  | some i =>
    let it := inv.toList[i]
    let tmp := it.dataB5.setWidth 32
    if itemIsStackable it.dataL0 ∧ amt ≠ 0xFFFFFFFF ∧ amt < tmp then
      (0, inv.set i { it with toItemData := it.setDataB5 ((tmp - amt).setWidth 8) })
    else
      (1, inv.eraseIdx i)

def itemAddToInv (inv : Inventory) (it : Item) : Int × Inventory :=
  if h : inv.toList.length < 30 then
    match itemIndex inv it.itemId with
    | some _ => (-1, inv)
    | none =>
      if itemIsStackable it.dataL0 then
        match inv.toList.findFinIdx? (fun x => x.dataL0 = it.dataL0) with
        | some i =>
          let x := inv.toList[i]
          (0, inv.set i { x with toItemData := x.setDataB5 (x.dataB5 + it.dataB5) })
        | none => (1, inv.push it h)
      else
        (1, inv.push it h)
  else
    (-1, inv)

def itemDepositToBank (bank : Bank) (it : BankItem) : Int × Bank :=
  if h : bank.toList.length < 200 then
    if itemIsStackable it.dataL0 then
      match bank.toList.findFinIdx? (fun x => x.dataL0 = it.dataL0) with
      | some i =>
        let x := bank.toList[i]
        let amount := x.dataB5 + it.dataB5
        (0, bank.set i { x with toItemData := x.setDataB5 amount, amount := amount.setWidth 16 })
      | none => (1, bank.push it h)
    else
      (1, bank.push it h)
  else
    (-1, bank)

/-- The item taken out of the bank, or `none` where the source returns -1. -/
def itemTakeFromBank (bank : Bank) (itemId : BitVec 32) (amt : BitVec 8) :
    Option (BankItem × Bank) :=
  match bank.toList.findFinIdx? (fun x => x.itemId = itemId) with
  | none => none
  | some i =>
    let it := bank.toList[i]
    if itemIsStackable it.dataL0 ∧ amt < it.dataB5 then
      let left := it.dataB5 - amt
      some ({ it with toItemData := it.setDataB5 amt, amount := amt.setWidth 16 },
        bank.set i { it with toItemData := it.setDataB5 left, amount := left.setWidth 16 })
    else if itemIsStackable it.dataL0 ∧ it.dataB5 < amt then
      none
    else
      some (it, bank.eraseIdx i)

end ShipServer.Items
