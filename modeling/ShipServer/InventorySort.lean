import ShipServer.Items
import ShipServer.Versions

set_option autoImplicit false

/-! Sorting the inventory of a Blue Burst client. -/

namespace ShipServer.InventorySort

open BoundedLists Items Versions

/-- `sylverant_inventory_t`. -/
structure PlayerInventory where
  hpmatsUsed : BitVec 8
  tpmatsUsed : BitVec 8
  language : BitVec 8
  items : Inventory

/-- The inventory of a client in `bb_pl`, and its copy in `pl`. -/
structure SortClient where
  bbInv : PlayerInventory
  plInv : PlayerInventory

/-- `subcmd_bb_sort_inv_t`. -/
structure SortInvPkt where
  pktLen : BitVec 16
  size : BitVec 8
  itemIds : Fin 30 → BitVec 32

/-- The mark of the end of a list of ids. -/
def endMark : BitVec 32 := 0xFFFFFFFF

/-- The loop over the ids, with the positions of the items that are used and what is sorted so far.
There is no result where the source returns an error. -/
def sortLoop (items : List Item) : List (BitVec 32) → List ℕ → List Item → Option (List Item)
  | [], _, sorted => some sorted
  | id :: ids, itemUsed, sorted =>
    if id = endMark then some sorted
    else
      match items.findFinIdx? fun it => it.itemId = id with
      | none => none
      | some j =>
        if (j : ℕ) ∈ itemUsed then none
        else sortLoop items ids (j :: itemUsed) (sorted ++ [items.get j])

def handleBbSortInv (c : SortClient) (type : LobbyType) (pkt : SortInvPkt) : Int × SortClient :=
  if type = .lobby then (-1, c)
  else if pkt.pktLen ≠ 0x84 ∨ pkt.size ≠ 0x1F then (-1, c)
  else
    match sortLoop c.bbInv.items.toList (List.ofFn pkt.itemIds) [] [] with
    | none => (-1, c)
    | some sorted =>
      if h : sorted.length = c.bbInv.items.toList.length then
        let inv := { c.bbInv with items := ⟨sorted, h.trans_le c.bbInv.items.length_le⟩ }
        (0, { c with bbInv := inv, plInv := inv })
      else (-1, c)

/-- The ids in front of the mark. -/
def listed (ids : List (BitVec 32)) : List (BitVec 32) :=
  ids.takeWhile fun id => id ≠ endMark

def itemIds (items : List Item) : List (BitVec 32) :=
  items.map fun it => it.itemId

section Loop

variable {items : List Item}

theorem listed_mark {id : BitVec 32} (h : id = endMark) (ids : List (BitVec 32)) :
    listed (id :: ids) = [] := by
  rw [listed, List.takeWhile_cons, if_neg (by simp [h])]

theorem listed_cons {id : BitVec 32} (h : id ≠ endMark) (ids : List (BitVec 32)) :
    listed (id :: ids) = id :: listed ids := by
  rw [listed, List.takeWhile_cons, if_pos (decide_eq_true h)]
  rfl

/-- What the loop sorts are the items with the listed ids, each of them once. -/
theorem sortLoop_items {ids : List (BitVec 32)} {itemUsed : List ℕ} {sorted result : List Item}
    (h : sortLoop items ids itemUsed sorted = some result) :
    ∃ js : List (Fin items.length), js.Nodup ∧ (∀ j ∈ js, (j : ℕ) ∉ itemUsed) ∧
      result = sorted ++ js.map items.get ∧ itemIds (js.map items.get) = listed ids := by
  induction ids generalizing itemUsed sorted with
  | nil =>
    cases h
    exact ⟨[], List.nodup_nil, fun j hj => (nomatch hj), (List.append_nil _).symm, rfl⟩
  | cons id ids ih =>
    rw [sortLoop] at h
    by_cases hmark : id = endMark
    · rw [if_pos hmark] at h
      cases h
      refine ⟨[], List.nodup_nil, fun j hj => (nomatch hj), (List.append_nil _).symm, ?_⟩
      rw [listed_mark hmark]
      rfl
    · rw [if_neg hmark] at h
      cases hfind : items.findFinIdx? fun it => it.itemId = id with
      | none =>
        rw [hfind] at h
        cases h
      | some j =>
        rw [hfind] at h
        change (if (j : ℕ) ∈ itemUsed then none
          else sortLoop items ids (j :: itemUsed) (sorted ++ [items.get j])) = some result at h
        split_ifs at h with hused
        obtain ⟨js, hnodup, hfree, hresult, hids⟩ := ih h
        have hid : (items.get j).itemId = id :=
          of_decide_eq_true (List.findFinIdx?_eq_some_iff.mp hfind).1
        refine ⟨j :: js, ?_, ?_, ?_, ?_⟩
        · refine List.nodup_cons.mpr ⟨fun hj => ?_, hnodup⟩
          exact hfree j hj List.mem_cons_self
        · intro k hk
          rcases List.mem_cons.mp hk with rfl | hk
          · exact hused
          · exact fun hin => hfree k hk (List.mem_cons_of_mem _ hin)
        · rw [hresult, List.map_cons, List.append_assoc, List.singleton_append]
        · rw [listed_cons hmark, ← hids, ← hid]
          rfl

/-- The loop gets through a list of ids of items that are not used yet, without repetitions. -/
theorem sortLoop_isSome {ids : List (BitVec 32)} {itemUsed : List ℕ} (sorted : List Item)
    (hnodup : (listed ids).Nodup) (hknown : ∀ id ∈ listed ids, id ∈ itemIds items)
    (hfree : ∀ j : Fin items.length, (j : ℕ) ∈ itemUsed → (items.get j).itemId ∉ listed ids) :
    ∃ result, sortLoop items ids itemUsed sorted = some result := by
  induction ids generalizing itemUsed sorted with
  | nil => exact ⟨sorted, rfl⟩
  | cons id ids ih =>
    rw [sortLoop]
    by_cases hmark : id = endMark
    · exact ⟨sorted, if_pos hmark⟩
    · rw [if_neg hmark]
      rw [listed_cons hmark] at hnodup hknown hfree
      cases hfind : items.findFinIdx? fun it => it.itemId = id with
      | none =>
        obtain ⟨it, hit, hid⟩ := List.mem_map.mp (hknown id List.mem_cons_self)
        have hnone := List.findFinIdx?_eq_none_iff.mp hfind it hit
        exact absurd (decide_eq_true hid) hnone
      | some j =>
        have hid : (items.get j).itemId = id :=
          of_decide_eq_true (List.findFinIdx?_eq_some_iff.mp hfind).1
        have hunused : (j : ℕ) ∉ itemUsed := by
          intro hused
          refine hfree j hused ?_
          rw [hid]
          exact List.mem_cons_self
        change ∃ result, (if (j : ℕ) ∈ itemUsed then none
          else sortLoop items ids (j :: itemUsed) (sorted ++ [items.get j])) = some result
        rw [if_neg hunused]
        refine ih _ (List.nodup_cons.mp hnodup).2
          (fun id' hid' => hknown id' (List.mem_cons_of_mem _ hid')) ?_
        intro k hk
        rcases List.mem_cons.mp hk with heq | hk
        · rw [Fin.ext heq, hid]
          exact (List.nodup_cons.mp hnodup).1
        · exact fun hin => hfree k hk (List.mem_cons_of_mem _ hin)

/-- A list that takes every position at most once and is as long takes every position. -/
theorem perm_of_positions {js : List (Fin items.length)} (hnodup : js.Nodup)
    (hlen : js.length = items.length) : (js.map items.get).Perm items := by
  have hsub : js.Subperm (List.finRange items.length) :=
    hnodup.subperm fun j _ => List.mem_finRange j
  have hperm : js.Perm (List.finRange items.length) :=
    hsub.perm_of_length_le (by rw [List.length_finRange, hlen])
  have hmap := hperm.map items.get
  rw [List.map_get_finRange] at hmap
  exact hmap

end Loop

/-- A request in a game that lists the ids of the inventory, each of them once. -/
structure Requested (c : SortClient) (type : LobbyType) (pkt : SortInvPkt) : Prop where
  game : type ≠ .lobby
  pktLen : pkt.pktLen = 0x84
  size : pkt.size = 0x1F
  ids : (listed (List.ofFn pkt.itemIds)).Perm (itemIds c.bbInv.items.toList)

/-- The items are the same, in the order of the ids, and the rest stays as it is. -/
structure Sorted (c c' : SortClient) (ids : List (BitVec 32)) : Prop where
  items : c'.bbInv.items.toList.Perm c.bbInv.items.toList
  order : itemIds c'.bbInv.items.toList = listed ids
  header : c'.bbInv = { c.bbInv with items := c'.bbInv.items }
  copy : c'.plInv = c'.bbInv

/-- What comes of a request that gets past the checks. -/
inductive Outcome (c : SortClient) (pkt : SortInvPkt) : Int × SortClient → Prop where
  | refused (h : ¬(listed (List.ofFn pkt.itemIds)).Perm (itemIds c.bbInv.items.toList)) :
    Outcome c pkt (-1, c)
  | sorted {c' : SortClient}
    (h : (listed (List.ofFn pkt.itemIds)).Perm (itemIds c.bbInv.items.toList))
    (hsorted : Sorted c c' (List.ofFn pkt.itemIds)) : Outcome c pkt (0, c')

theorem handleBbSortInv_outcome {c : SortClient} {type : LobbyType} {pkt : SortInvPkt}
    (hdistinct : (itemIds c.bbInv.items.toList).Nodup) (htype : type ≠ .lobby)
    (hsize : ¬(pkt.pktLen ≠ 0x84 ∨ pkt.size ≠ 0x1F)) :
    Outcome c pkt (handleBbSortInv c type pkt) := by
  rw [handleBbSortInv, if_neg htype, if_neg hsize]
  cases hloop : sortLoop c.bbInv.items.toList (List.ofFn pkt.itemIds) [] [] with
  | none =>
    refine Outcome.refused fun hperm => ?_
    have hnodup := hperm.nodup_iff.mpr hdistinct
    have hsome : ∃ result, sortLoop c.bbInv.items.toList (List.ofFn pkt.itemIds) [] [] =
        some result :=
      sortLoop_isSome [] hnodup (fun id hid => hperm.subset hid)
        (fun j hj => absurd hj List.not_mem_nil)
    obtain ⟨result, hresult⟩ := hsome
    rw [hloop] at hresult
    cases hresult
  | some sorted =>
    obtain ⟨js, hnodup, -, hitems, hids⟩ := sortLoop_items hloop
    rw [List.nil_append] at hitems
    rw [← hitems] at hids
    dsimp only
    by_cases hlen : sorted.length = c.bbInv.items.toList.length
    · rw [dif_pos hlen]
      have hlength := congrArg List.length hitems
      rw [List.length_map] at hlength
      have hperm : sorted.Perm c.bbInv.items.toList := by
        rw [hitems]
        exact perm_of_positions hnodup (hlength.symm.trans hlen)
      refine Outcome.sorted ?_
        { items := hperm
          order := hids
          header := rfl
          copy := rfl }
      rw [← hids]
      exact hperm.map _
    · rw [dif_neg hlen]
      refine Outcome.refused fun hperm => hlen ?_
      have hlength := hperm.length_eq
      rw [← hids, itemIds, itemIds, List.length_map, List.length_map] at hlength
      exact hlength

theorem error_ne : (-1 : Int) ≠ 0 := by
  decide

theorem handleBbSortInv_spec (c : SortClient) (type : LobbyType) (pkt : SortInvPkt)
    (hdistinct : (itemIds c.bbInv.items.toList).Nodup) :
    ((handleBbSortInv c type pkt).1 = 0 ↔ Requested c type pkt) ∧
      ((handleBbSortInv c type pkt).1 = 0 →
        Sorted c (handleBbSortInv c type pkt).2 (List.ofFn pkt.itemIds)) ∧
      ((handleBbSortInv c type pkt).1 ≠ 0 → handleBbSortInv c type pkt = (-1, c)) := by
  by_cases htype : type = .lobby
  · have hresult : handleBbSortInv c type pkt = (-1, c) := if_pos htype
    rw [hresult]
    exact ⟨iff_of_false error_ne fun h => h.game htype, fun h => absurd h error_ne, fun _ => rfl⟩
  · by_cases hsize : pkt.pktLen ≠ 0x84 ∨ pkt.size ≠ 0x1F
    · have hresult : handleBbSortInv c type pkt = (-1, c) := by
        rw [handleBbSortInv, if_neg htype, if_pos hsize]
      rw [hresult]
      refine ⟨iff_of_false error_ne fun h => ?_, fun h => absurd h error_ne, fun _ => rfl⟩
      exact hsize.elim (fun hl => hl h.pktLen) fun hs => hs h.size
    · obtain ⟨hpktLen, hpktSize⟩ := not_or.mp hsize
      have hout := handleBbSortInv_outcome hdistinct htype hsize
      generalize handleBbSortInv c type pkt = r at hout
      cases hout with
      | refused h =>
        exact ⟨iff_of_false error_ne fun hr => h hr.ids, fun h => absurd h error_ne, fun _ => rfl⟩
      | sorted h hsorted =>
        refine ⟨iff_of_true rfl ?_, fun _ => hsorted, fun h => absurd rfl h⟩
        exact
          { game := htype
            pktLen := not_not.mp hpktLen
            size := not_not.mp hpktSize
            ids := h }

/-- Two items that are asked for the other way round. -/
theorem handleBbSortInv_spec_two :
    ∃ (c : SortClient) (pkt : SortInvPkt), (handleBbSortInv c .game pkt).1 = 0 ∧
      Sorted c (handleBbSortInv c .game pkt).2 (List.ofFn pkt.itemIds) := by
  let item (id : BitVec 32) : Item :=
    { dataL0 := 0, dataL1 := 0, dataL2 := 0, itemId := id, data2L := 0, equipped := 0, tech := 0,
      flags := 0 }
  let inv : PlayerInventory :=
    { hpmatsUsed := 0, tpmatsUsed := 0, language := 1, items := ⟨[item 1, item 2], by decide⟩ }
  let pkt : SortInvPkt :=
    { pktLen := 0x84, size := 0x1F
      itemIds := fun i => if i.val = 0 then 2 else if i.val = 1 then 1 else endMark }
  have hspec := handleBbSortInv_spec { bbInv := inv, plInv := inv } .game pkt (by decide)
  have hok : (handleBbSortInv { bbInv := inv, plInv := inv } .game pkt).1 = 0 :=
    hspec.1.mpr
      { game := by decide
        pktLen := rfl
        size := rfl
        ids := by decide }
  exact ⟨_, pkt, hok, hspec.2.1 hok⟩

end ShipServer.InventorySort
