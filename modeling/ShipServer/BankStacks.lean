import ShipServer.BlueBurstConservation
import ShipServer.BlueBurstRefusals
import ShipServer.LabelledRuns

set_option autoImplicit false

/-! The bank's array of slots and its stacks, over any sequence of deposits and withdrawals. -/

namespace ShipServer.BankStacks

open BoundedLists LabelledRuns Items BlueBurstConservation BlueBurstRefusals

section Memmove

variable {α : Type*}

/-- `memmove`, for `n` elements of one array. -/
def memmove (l : List α) (dst src n : ℕ) : List α :=
  l.take dst ++ (l.drop src).take n ++ l.drop (dst + n)

theorem length_memmove {l : List α} {dst src n : ℕ} (hdst : dst + n ≤ l.length)
    (hsrc : src + n ≤ l.length) : (memmove l dst src n).length = l.length := by
  simp only [memmove, List.length_append, List.length_take, List.length_drop]
  omega

/-- Moving the later elements down by one erases an element of the used part. -/
theorem take_memmove {l : List α} {i n : ℕ} (hi : i < n) (hn : n ≤ l.length) :
    (memmove l i (i + 1) (n - i - 1)).take (n - 1) = (l.take n).eraseIdx i := by
  have hlen : (l.take i ++ (l.drop (i + 1)).take (n - i - 1)).length = n - 1 := by
    simp only [List.length_append, List.length_take, List.length_drop]
    omega
  rw [memmove, List.take_left' hlen, List.eraseIdx_eq_take_drop_succ, List.take_take,
    List.drop_take, Nat.min_eq_left hi.le, Nat.sub_sub]

theorem take_set_succ {l : List α} {n : ℕ} (hn : n < l.length) (a : α) :
    (l.set n a).take (n + 1) = l.take n ++ [a] := by
  rw [List.take_succ_eq_append_getElem (by simpa using hn), List.take_set, List.getElem_set_self,
    List.set_eq_of_length_le (by simp)]

end Memmove

/-- `sylverant_bank_t`: of its 200 slots, the first `item_count` are in use. -/
structure BankArray where
  items : List BankItem
  itemCount : BitVec 32
  length_items : items.length = 200
  count_le : itemCount.toNat ≤ 200

namespace BankArray

/-- The slots in use. -/
def entries (a : BankArray) : Bank :=
  ⟨a.items.take a.itemCount.toNat, (List.length_take_le _ _).trans a.count_le⟩

theorem length_entries (a : BankArray) : a.entries.toList.length = a.itemCount.toNat := by
  have hcount := a.count_le
  have hlen := a.length_items
  simp only [entries, List.length_take]
  omega

theorem lt_of_ne {a : BankArray} (h : a.itemCount ≠ 200) : a.itemCount.toNat < 200 := by
  have hcount := a.count_le
  have hne : a.itemCount.toNat ≠ 200 := fun heq => h (BitVec.eq_of_toNat_eq heq)
  omega

theorem toNat_count_succ {a : BankArray} (h : a.itemCount ≠ 200) :
    (a.itemCount + 1).toNat = a.itemCount.toNat + 1 := by
  have hlt := lt_of_ne h
  bv_omega

theorem toNat_count_pred {a : BankArray} (i : Fin a.entries.toList.length) :
    (a.itemCount - 1).toNat = a.itemCount.toNat - 1 := by
  have hpos : 0 < a.itemCount.toNat := by
    rw [← a.length_entries]
    exact i.pos
  bv_omega

def setSlot (a : BankArray) (i : ℕ) (it : BankItem) : BankArray where
  items := a.items.set i it
  itemCount := a.itemCount
  length_items := List.length_set.trans a.length_items
  count_le := a.count_le

def addItem (a : BankArray) (it : BankItem) (h : a.itemCount ≠ 200) : BankArray where
  items := a.items.set a.itemCount.toNat it
  itemCount := a.itemCount + 1
  length_items := List.length_set.trans a.length_items
  count_le := (toNat_count_succ h).trans_le (lt_of_ne h)

theorem slots_moved {a : BankArray} (i : Fin a.entries.toList.length) :
    (memmove a.items i (i + 1) (a.itemCount.toNat - i - 1)).length = 200 := by
  have hlt := i.isLt.trans_eq a.length_entries
  have hcount := a.count_le
  have hlen := a.length_items
  rw [length_memmove (by omega) (by omega), hlen]

def removeItem (a : BankArray) (i : Fin a.entries.toList.length) : BankArray where
  items := memmove a.items i (i + 1) (a.itemCount.toNat - i - 1)
  itemCount := a.itemCount - 1
  length_items := slots_moved i
  count_le := (toNat_count_pred i).trans_le ((Nat.sub_le _ _).trans a.count_le)

def itemDepositToBank (a : BankArray) (it : BankItem) : Int × BankArray :=
  if h : a.itemCount = 200 then
    (-1, a)
  else if itemIsStackable it.dataL0 then
    match a.entries.toList.findFinIdx? (fun x => x.dataL0 = it.dataL0) with
    | some i =>
      let x := a.entries.toList[i]
      let amount := x.dataB5 + it.dataB5
      (0, a.setSlot i { x with toItemData := x.setDataB5 amount, amount := amount.setWidth 16 })
    | none => (1, a.addItem it h)
  else
    (1, a.addItem it h)

/-- The value returned, the item stored through `rv`, and the bank afterwards. -/
def itemTakeFromBank (a : BankArray) (itemId : BitVec 32) (amt : BitVec 8) (rv : BankItem) :
    Int × BankItem × BankArray :=
  match a.entries.toList.findFinIdx? (fun x => x.itemId = itemId) with
  | none => (-1, rv, a)
  | some i =>
    let it := a.entries.toList[i]
    if itemIsStackable it.dataL0 ∧ amt < it.dataB5 then
      let left := it.dataB5 - amt
      (0, { it with toItemData := it.setDataB5 amt, amount := amt.setWidth 16 },
        a.setSlot i { it with toItemData := it.setDataB5 left, amount := left.setWidth 16 })
    else if itemIsStackable it.dataL0 ∧ it.dataB5 < amt then
      (-1, it, a)
    else
      (1, it, a.removeItem i)

end BankArray

inductive BankCall where
  | deposit (it : BankItem)
  | take (itemId : BitVec 32) (amt : BitVec 8) (rv : BankItem)

def next (a : BankArray) : BankCall → BankArray
  | .deposit it => (a.itemDepositToBank it).2
  | .take itemId amt rv => (a.itemTakeFromBank itemId amt rv).2.2

/-- The amount of a code that is stored in the bank. -/
def stored (code : BitVec 32) (bank : Bank) : ℕ :=
  tally (fun it => held code it.toItemData) bank.toList

def codes (bank : Bank) : List (BitVec 32) :=
  bank.toList.map fun it => it.dataL0

/-- Each stackable code has one entry at most, and both counts of a stack agree. -/
structure Sound (bank : Bank) : Prop where
  single : (codes bank).Pairwise fun code code' => itemIsStackable code = true → code ≠ code'
  counted : ∀ it ∈ bank.toList, itemIsStackable it.dataL0 = true → Counted it

/-- What is taken out is what was put in: the same amount of the same code, or the same item. -/
def SameAs (it rv : BankItem) : Prop :=
  if itemIsStackable it.dataL0 then rv.dataL0 = it.dataL0 ∧ rv.dataB5 = it.dataB5 else rv = it

/-- Taking a deposited item out again leads back, up to the order of the entries. -/
def Restores (a a' : BankArray) (it : BankItem) : Prop :=
  ∀ itemId amt rv, (a'.itemTakeFromBank itemId amt rv).1 ≠ -1 →
    SameAs it (a'.itemTakeFromBank itemId amt rv).2.1 →
    (a'.itemTakeFromBank itemId amt rv).2.2.entries.toList.Perm a.entries.toList

/-- A failed call changes nothing. Any other changes what is stored by what is given or returned,
and a deposit can be taken back. -/
def Conserves (a : BankArray) : BankCall → Prop
  | .deposit it =>
    if (a.itemDepositToBank it).1 = -1 then (a.itemDepositToBank it).2 = a
    else
      (∀ code, stored code (a.itemDepositToBank it).2.entries =
        stored code a.entries + held code it.toItemData) ∧
      Restores a (a.itemDepositToBank it).2 it
  | .take itemId amt rv =>
    if (a.itemTakeFromBank itemId amt rv).1 = -1 then (a.itemTakeFromBank itemId amt rv).2.2 = a
    else
      ∀ code, stored code (a.itemTakeFromBank itemId amt rv).2.2.entries +
        held code (a.itemTakeFromBank itemId amt rv).2.1.toItemData = stored code a.entries

/-- Stacks stay sound and counted, and amounts are conserved, through a sequence of calls. -/
def KeepsStacks (a : BankArray) (calls : List BankCall) : Prop :=
  ∀ fs, fs <+: calls →
    (Sound (fs.foldl next a).entries ∧
      (fs.foldl next a).itemCount.toNat = (fs.foldl next a).entries.toList.length) ∧
    ∀ call, fs ++ [call] <+: calls → Conserves (fs.foldl next a) call

/-- The stack that a deposit joins has room for it in its byte, and is not an empty stack that a
withdrawal of the deposit would remove. -/
def Merges (bank : Bank) (it : BankItem) (i : Fin bank.toList.length) : Prop :=
  (bank.toList.get i).dataB5.toNat + it.dataB5.toNat < 256 ∧
    ((bank.toList.get i).dataB5 = 0 →
      bank.toList.findFinIdx? (fun x => x.itemId = (bank.toList.get i).itemId) ≠ some i)

/-- The deposits that keep the stacks. -/
def Fits (a : BankArray) : BankCall → Prop
  | .deposit it => a.itemCount ≠ 200 → itemIsStackable it.dataL0 = true →
    match a.entries.toList.findFinIdx? (fun x => x.dataL0 = it.dataL0) with
    | some i => Merges a.entries it i
    | none => Counted it
  | .take _ _ _ => True

section Slots

variable (a : BankArray)

theorem entries_setSlot (i : ℕ) (it : BankItem) :
    (a.setSlot i it).entries = a.entries.set i it :=
  boundedList_ext List.take_set

theorem entries_addItem (it : BankItem) (h : a.itemCount ≠ 200) :
    (a.addItem it h).entries.toList = a.entries.toList ++ [it] := by
  have hlt : a.itemCount.toNat < a.items.length := by
    rw [a.length_items]
    exact BankArray.lt_of_ne h
  have htake := take_set_succ hlt it
  rw [← BankArray.toNat_count_succ h] at htake
  exact htake

theorem entries_removeItem (i : Fin a.entries.toList.length) :
    (a.removeItem i).entries = a.entries.eraseIdx i := by
  refine boundedList_ext ?_
  have hlt := i.isLt.trans_eq a.length_entries
  have hcount := a.count_le.trans_eq a.length_items.symm
  have htake := take_memmove hlt hcount
  rw [← BankArray.toNat_count_pred i] at htake
  exact htake

/-- Deposits into the array are those into its list of entries. -/
theorem itemDepositToBank_refines (it : BankItem) :
    itemDepositToBank a.entries it =
      ((a.itemDepositToBank it).1, (a.itemDepositToBank it).2.entries) := by
  unfold itemDepositToBank BankArray.itemDepositToBank
  have hpush (h : a.itemCount ≠ 200) (hlt : a.entries.toList.length < 200) :
      a.entries.push it hlt = (a.addItem it h).entries :=
    boundedList_ext (entries_addItem a it h).symm
  by_cases hfull : a.itemCount = 200
  · have hlen : ¬a.entries.toList.length < 200 := by
      rw [a.length_entries, hfull]
      decide
    rw [dif_neg hlen, dif_pos hfull]
  · have hlen : a.entries.toList.length < 200 := by
      rw [a.length_entries]
      exact BankArray.lt_of_ne hfull
    rw [dif_pos hlen, dif_neg hfull]
    by_cases hstack : itemIsStackable it.dataL0 = true
    · rw [if_pos hstack, if_pos hstack]
      cases a.entries.toList.findFinIdx? (fun x => x.dataL0 = it.dataL0) with
      | none => rw [hpush hfull hlen]
      | some i => rw [entries_setSlot]
    · rw [if_neg hstack, if_neg hstack, hpush hfull hlen]

/-- Withdrawals from the array are those from its list of entries. -/
theorem itemTakeFromBank_refines (itemId : BitVec 32) (amt : BitVec 8) (rv : BankItem) :
    ((a.itemTakeFromBank itemId amt rv).1 = -1 ∧ (a.itemTakeFromBank itemId amt rv).2.2 = a ∧
        itemTakeFromBank a.entries itemId amt = none) ∨
      ((a.itemTakeFromBank itemId amt rv).1 ≠ -1 ∧
        itemTakeFromBank a.entries itemId amt =
          some ((a.itemTakeFromBank itemId amt rv).2.1,
            (a.itemTakeFromBank itemId amt rv).2.2.entries)) := by
  unfold itemTakeFromBank BankArray.itemTakeFromBank
  cases a.entries.toList.findFinIdx? (fun x => x.itemId = itemId) with
  | none => exact .inl ⟨rfl, rfl, rfl⟩
  | some i =>
    dsimp only
    split_ifs
    · refine .inr ⟨by simp, ?_⟩
      rw [entries_setSlot]
    · exact .inl ⟨rfl, rfl, rfl⟩
    · refine .inr ⟨by simp, ?_⟩
      rw [entries_removeItem]

end Slots

section Stacks

variable {bank : Bank} {it : BankItem}

theorem Sound.unique (h : Sound bank) {i j : ℕ} (hi : i < bank.toList.length)
    (hj : j < bank.toList.length) (hstack : itemIsStackable bank.toList[i].dataL0 = true)
    (hcode : bank.toList[i].dataL0 = bank.toList[j].dataL0) : i = j := by
  have hpair := List.pairwise_iff_getElem.mp (List.pairwise_map.mp h.single)
  rcases Nat.lt_trichotomy i j with hlt | heq | hgt
  · exact absurd hcode (hpair i j hi hj hlt hstack)
  · exact heq
  · exact absurd hcode.symm (hpair j i hj hi hgt (hcode ▸ hstack))

/-- What a new size leaves alone in an entry stays the same in the list. -/
theorem map_set_resized {α : Type*} (f : BankItem → α) (hf : ∀ x n, f (resized x n) = f x) {i : ℕ}
    (hi : i < bank.toList.length) (n : BitVec 8) :
    (bank.set i (resized bank.toList[i] n)).toList.map f = bank.toList.map f := by
  rw [BoundedList.toList_set, List.map_set]
  apply (set_eq_self (by simpa using hi) _).mpr
  rw [List.getElem_map, hf]

theorem sound_set_resized (h : Sound bank) {i : ℕ} (hi : i < bank.toList.length) (n : BitVec 8) :
    Sound (bank.set i (resized bank.toList[i] n)) := by
  have hcodes : codes (bank.set i (resized bank.toList[i] n)) = codes bank :=
    map_set_resized _ (fun _ _ => rfl) hi n
  refine ⟨hcodes ▸ h.single, ?_⟩
  intro x hx hstack
  rcases List.mem_or_eq_of_mem_set hx with hold | rfl
  · exact h.counted x hold hstack
  · rw [Counted, dataB5_resized]
    rfl

theorem sound_eraseIdx (h : Sound bank) (i : ℕ) : Sound (bank.eraseIdx i) := by
  have hsub : (bank.toList.eraseIdx i).Sublist bank.toList := List.eraseIdx_sublist ..
  exact ⟨h.single.sublist (hsub.map _), fun x hx => h.counted x (hsub.subset hx)⟩

theorem sound_append_iff {bank' : Bank} (h : Sound bank)
    (hlist : bank'.toList = bank.toList ++ [it]) :
    Sound bank' ↔ itemIsStackable it.dataL0 = true →
      Counted it ∧ ∀ x ∈ bank.toList, x.dataL0 ≠ it.dataL0 := by
  constructor
  · intro h' hstack
    have hmem : it ∈ bank'.toList := by
      rw [hlist]
      exact List.mem_append_right _ List.mem_cons_self
    refine ⟨h'.counted it hmem hstack, ?_⟩
    intro x hx hcode
    have hpair := List.pairwise_map.mp h'.single
    rw [hlist, List.pairwise_append] at hpair
    exact hpair.2.2 x hx it List.mem_cons_self (hcode ▸ hstack) hcode
  · intro hnew
    constructor
    · refine List.pairwise_map.mpr ?_
      rw [hlist, List.pairwise_append]
      refine ⟨List.pairwise_map.mp h.single, List.pairwise_singleton _ _, ?_⟩
      intro x hx y hy hstack hcode
      rw [List.mem_singleton] at hy
      subst hy
      exact (hnew (hcode ▸ hstack)).2 x hx hcode
    · intro x hx hstack
      rw [hlist, List.mem_append, List.mem_singleton] at hx
      rcases hx with hold | rfl
      · exact h.counted x hold hstack
      · exact (hnew hstack).1

/-- A withdrawal returns part of a stack or a whole entry. -/
theorem itemTakeFromBank_cases {bank' : Bank} {itemId : BitVec 32} {amt : BitVec 8} {rv : BankItem}
    (h : itemTakeFromBank bank itemId amt = some (rv, bank')) :
    ∃ i, bank.toList.findFinIdx? (fun x => x.itemId = itemId) = some i ∧
      ((amt < (bank.toList.get i).dataB5 ∧ rv = resized (bank.toList.get i) amt ∧
          itemIsStackable (bank.toList.get i).dataL0 = true ∧
          bank' = bank.set i
            (resized (bank.toList.get i) ((bank.toList.get i).dataB5 - amt))) ∨
        (rv = bank.toList.get i ∧ bank' = bank.eraseIdx i)) := by
  unfold itemTakeFromBank at h
  cases hfind : bank.toList.findFinIdx? (fun x => x.itemId = itemId) with
  | none => simp [hfind] at h
  | some i =>
    simp only [hfind] at h
    refine ⟨i, rfl, ?_⟩
    split_ifs at h with hpart hmore
    · obtain ⟨rfl, rfl⟩ := Prod.mk.inj (Option.some.inj h)
      exact .inl ⟨hpart.2, rfl, hpart.1, rfl⟩
    · obtain ⟨rfl, rfl⟩ := Prod.mk.inj (Option.some.inj h)
      exact .inr ⟨rfl, rfl⟩

theorem itemTakeFromBank_sound {bank' : Bank} {itemId : BitVec 32} {amt : BitVec 8} {rv : BankItem}
    (h : Sound bank) (htake : itemTakeFromBank bank itemId amt = some (rv, bank')) :
    Sound bank' := by
  obtain ⟨i, -, ⟨-, -, -, rfl⟩ | ⟨-, rfl⟩⟩ := itemTakeFromBank_cases htake
  · exact sound_set_resized h i.isLt _
  · exact sound_eraseIdx h i

/-- The property of `Restores`, of the lists of entries. -/
def RestoresEntries (bank bank' : Bank) (it : BankItem) : Prop :=
  ∀ itemId amt rv bank'', itemTakeFromBank bank' itemId amt = some (rv, bank'') → SameAs it rv →
    bank''.toList.Perm bank.toList

theorem restores_iff (a a' : BankArray) :
    Restores a a' it ↔ RestoresEntries a.entries a'.entries it := by
  constructor
  · intro h itemId amt rv bank'' htake hsame
    rcases itemTakeFromBank_refines a' itemId amt it with ⟨-, -, hnone⟩ | ⟨hok, hsome⟩
    · rw [htake] at hnone
      cases hnone
    · rw [htake] at hsome
      obtain ⟨rfl, rfl⟩ := Prod.mk.inj (Option.some.inj hsome)
      exact h itemId amt it hok hsame
  · intro h itemId amt rv hok hsame
    rcases itemTakeFromBank_refines a' itemId amt rv with ⟨hfail, -, -⟩ | ⟨-, hsome⟩
    · exact absurd hfail hok
    · exact h itemId amt _ _ hsome hsame

/-- A new entry can be taken back if it is the only one that such a withdrawal can return. -/
theorem restores_append {bank' : Bank} (hlist : bank'.toList = bank.toList ++ [it])
    (honly : itemIsStackable it.dataL0 = true → ∀ x ∈ bank.toList, x.dataL0 ≠ it.dataL0) :
    RestoresEntries bank bank' it := by
  intro itemId amt rv bank'' htake hsame
  obtain ⟨i, -, hcases⟩ := itemTakeFromBank_cases htake
  have hmem : bank'.toList.get i ∈ bank.toList ++ [it] := hlist ▸ List.get_mem ..
  have hself (hstack : itemIsStackable it.dataL0 = true)
      (hcode : (bank'.toList.get i).dataL0 = it.dataL0) : bank'.toList.get i = it := by
    rcases List.mem_append.mp hmem with hold | hnew
    · exact absurd hcode (honly hstack _ hold)
    · exact List.mem_singleton.mp hnew
  rcases hcases with ⟨hlt, rfl, hstack, -⟩ | ⟨rfl, rfl⟩
  · by_cases hit : itemIsStackable it.dataL0 = true
    · rw [SameAs, if_pos hit] at hsame
      rw [hself hit hsame.1, ← hsame.2, dataB5_resized] at hlt
      exact absurd hlt (BitVec.lt_irrefl _)
    · rw [SameAs, if_neg hit] at hsame
      rw [← hsame] at hit
      exact absurd hstack hit
  · have hback : bank'.toList.get i = it := by
      by_cases hit : itemIsStackable it.dataL0 = true
      · rw [SameAs, if_pos hit] at hsame
        exact hself hit hsame.1
      · rwa [SameAs, if_neg hit] at hsame
    have hperm := List.getElem_cons_eraseIdx_perm i.isLt
    rw [← List.get_eq_getElem, hback] at hperm
    have hend : bank'.toList.Perm (it :: bank.toList) := by
      rw [hlist]
      exact List.perm_append_comm
    exact (hperm.trans hend).cons_inv

/-- Joining a stack adds the amount exactly when the byte does not overflow. -/
theorem tally_merge_iff {items : List ItemData} {i : ℕ} (hi : i < items.length) {it : ItemData}
    (hstack : itemIsStackable it.dataL0 = true) (hcode : items[i].dataL0 = it.dataL0) :
    (∀ code, tally (held code) (items.set i (items[i].setDataB5 (items[i].dataB5 + it.dataB5))) =
      tally (held code) items + held code it) ↔
    items[i].dataB5.toNat + it.dataB5.toNat < 256 := by
  have hx : itemIsStackable items[i].dataL0 = true := hcode ▸ hstack
  have hset (code : BitVec 32) := tally_set (held code) hi
    (items[i].setDataB5 (items[i].dataB5 + it.dataB5))
  have hold (code : BitVec 32) : held code items[i] =
      if it.dataL0 = code then items[i].dataB5.toNat else 0 := by
    rw [held, quantity_stackable hx, hcode]
  have hgiven (code : BitVec 32) : held code it =
      if it.dataL0 = code then it.dataB5.toNat else 0 := by
    rw [held, quantity_stackable hstack]
  have hsum : (items[i].dataB5 + it.dataB5).toNat =
      (items[i].dataB5.toNat + it.dataB5.toNat) % 256 := BitVec.toNat_add ..
  constructor
  · intro h
    have hall := h it.dataL0
    have hstored := hset it.dataL0
    rw [held_setDataB5 _ _ hx, hold, hcode, if_pos rfl, if_pos rfl] at hstored
    rw [hgiven, if_pos rfl] at hall
    omega
  · intro hlt code
    have hstored := hset code
    rw [held_setDataB5 _ _ hx, hold, hcode] at hstored
    rw [hgiven]
    split_ifs at hstored ⊢ <;> omega

theorem stored_merge_iff {i : Fin bank.toList.length} (hstack : itemIsStackable it.dataL0 = true)
    (hcode : (bank.toList.get i).dataL0 = it.dataL0) :
    (∀ code, stored code
        (bank.set i (resized (bank.toList.get i) ((bank.toList.get i).dataB5 + it.dataB5))) =
      stored code bank + held code it.toItemData) ↔
    (bank.toList.get i).dataB5.toNat + it.dataB5.toNat < 256 := by
  have hdatas (code : BitVec 32) (bank : Bank) :
      stored code bank = tally (held code) (bank.toList.map BankItem.toItemData) := by
    rw [tally_map]
    rfl
  have hi : (i : ℕ) < (bank.toList.map BankItem.toItemData).length := by
    rw [List.length_map]
    exact i.isLt
  have hget : (bank.toList.map BankItem.toItemData)[(i : ℕ)] = (bank.toList.get i).toItemData :=
    List.getElem_map ..
  have hmerge := tally_merge_iff hi hstack (by rw [hget]; exact hcode)
  simp only [hget] at hmerge
  simp only [hdatas, BoundedList.toList_set, List.map_set]
  exact hmerge

theorem findFinIdx_itemId_set {i j : ℕ} (hi : i < bank.toList.length) (n : BitVec 8)
    (itemId : BitVec 32) :
    ((bank.set i (resized bank.toList[i] n)).toList.findFinIdx? fun x => x.itemId = itemId).map
        Fin.val = some j ↔
      (bank.toList.findFinIdx? fun x => x.itemId = itemId).map Fin.val = some j := by
  have hids := map_set_resized (fun x => x.itemId) (fun _ _ => rfl) hi n
  have hval (l : List BankItem) : (l.findFinIdx? fun x => x.itemId = itemId).map Fin.val =
      (l.map fun x => x.itemId).findIdx? fun id => id = itemId := by
    rw [List.findIdx?_map, List.findIdx?_eq_map_findFinIdx?_val]
    rfl
  rw [hval, hval, hids]

/-- The stack of an entry, joined by a deposit. -/
abbrev merged (bank : Bank) (it : BankItem) (i : Fin bank.toList.length) : BankItem :=
  resized (bank.toList.get i) ((bank.toList.get i).dataB5 + it.dataB5)

/-- An empty stack that was joined is removed when all of it is taken back. -/
theorem not_restores_merged {i : Fin bank.toList.length}
    (hstack : itemIsStackable it.dataL0 = true)
    (hcode : (bank.toList.get i).dataL0 = it.dataL0) (hzero : (bank.toList.get i).dataB5 = 0)
    (hfirst : bank.toList.findFinIdx? (fun x => x.itemId = (bank.toList.get i).itemId) = some i) :
    ¬RestoresEntries bank (bank.set i (merged bank it i)) it := by
  intro hback
  have hfound := findFinIdx_itemId_set (j := i) i.isLt
    ((bank.toList.get i).dataB5 + it.dataB5) (bank.toList.get i).itemId
  simp only [← List.get_eq_getElem] at hfound
  have hsome := hfound.mpr (by rw [hfirst]; rfl)
  obtain ⟨k, hk, hki⟩ := Option.map_eq_some_iff.mp hsome
  have hentry := get_set_self bank (merged bank it i) k hki
  have hsize : (merged bank it i).dataB5 = it.dataB5 := by
    rw [dataB5_resized, hzero]
    exact BitVec.zero_add _
  have hirrefl : ¬it.dataB5 < it.dataB5 := BitVec.lt_irrefl _
  have htake : itemTakeFromBank (bank.set i (merged bank it i)) (bank.toList.get i).itemId
      it.dataB5 = some (merged bank it i, (bank.set i (merged bank it i)).eraseIdx k) := by
    rw [itemTakeFromBank, hk]
    dsimp only
    rw [hentry, hsize, if_neg (fun hpart => hirrefl hpart.2),
      if_neg (fun hmore => hirrefl hmore.2)]
  have hperm := hback _ _ _ _ htake (by
    rw [SameAs, if_pos hstack]
    exact ⟨hcode, hsize⟩)
  have hlen := hperm.length_eq
  rw [BoundedList.toList_eraseIdx, List.length_eraseIdx_of_lt k.isLt, BoundedList.toList_set,
    List.length_set] at hlen
  have hpos := i.pos
  omega

/-- A deposit that joined a stack can be taken back, unless it joined an empty one. -/
theorem restores_merged {i : Fin bank.toList.length} (h : Sound bank)
    (hstack : itemIsStackable it.dataL0 = true)
    (hcode : (bank.toList.get i).dataL0 = it.dataL0)
    (hempty : (bank.toList.get i).dataB5 = 0 →
      bank.toList.findFinIdx? (fun x => x.itemId = (bank.toList.get i).itemId) ≠ some i) :
    RestoresEntries bank (bank.set i (merged bank it i)) it := by
  intro itemId amt rv bank'' htake hsame
  rw [SameAs, if_pos hstack] at hsame
  have hsound : Sound (bank.set i (merged bank it i)) := sound_set_resized h i.isLt _
  obtain ⟨k, hk, hcases⟩ := itemTakeFromBank_cases htake
  have hkcode : ((bank.set i (merged bank it i)).toList.get k).dataL0 = it.dataL0 := by
    rcases hcases with ⟨-, rfl, -, -⟩ | ⟨rfl, -⟩
    · exact hsame.1
    · exact hsame.1
  have hlen : (i : ℕ) < (bank.set i (merged bank it i)).toList.length := by
    rw [BoundedList.toList_set, List.length_set]
    exact i.isLt
  have hki : (k : ℕ) = i := by
    refine hsound.unique k.isLt hlen ?_ ?_
    · rw [← List.get_eq_getElem, hkcode]
      exact hstack
    · rw [← List.get_eq_getElem, hkcode]
      exact hcode.symm.trans (congrArg (fun x => x.dataL0)
        (get_set_self bank (merged bank it i) ⟨i, hlen⟩ rfl)).symm
  have hentry : (bank.set i (merged bank it i)).toList.get k = merged bank it i :=
    get_set_self bank (merged bank it i) k hki
  rw [hentry, dataB5_resized] at hcases
  rcases hcases with ⟨-, rfl, -, rfl⟩ | ⟨rfl, -⟩
  · have hamt : amt = it.dataB5 := (dataB5_resized _ amt).symm.trans hsame.2
    have hleft : (bank.toList.get i).dataB5 + it.dataB5 - amt = (bank.toList.get i).dataB5 := by
      rw [hamt]
      exact BitVec.add_sub_cancel _ _
    have hcounted : Counted (bank.toList.get i) :=
      h.counted _ (List.get_mem ..) (hcode ▸ hstack)
    rw [hleft, resized_resized, (resized_eq_self _ _).mpr ⟨rfl, hcounted⟩, hki,
      BoundedList.toList_set, BoundedList.toList_set, List.set_set, List.get_eq_getElem,
      List.set_getElem_self]
  · have hzero : (bank.toList.get i).dataB5 = 0 := by
      have hsize := (dataB5_resized _ _).symm.trans hsame.2
      bv_omega
    have hid : itemId = (bank.toList.get i).itemId := by
      have hmatch := of_decide_eq_true (List.findFinIdx?_eq_some_iff.mp hk).1
      have hitem := congrArg (fun x : BankItem => x.itemId) hentry
      exact hmatch.symm.trans hitem
    have hfound := findFinIdx_itemId_set (j := i) i.isLt
      ((bank.toList.get i).dataB5 + it.dataB5) itemId
    simp only [← List.get_eq_getElem] at hfound
    have hsome := hfound.mp (by
      rw [hk, Option.map_some, hki])
    obtain ⟨k', hk', hki'⟩ := Option.map_eq_some_iff.mp hsome
    rw [Fin.ext hki', hid] at hk'
    exact absurd hk' (hempty hzero)

end Stacks

section Calls

variable {a : BankArray}

theorem deposit_full {it : BankItem} (h : a.itemCount = 200) :
    a.itemDepositToBank it = (-1, a) :=
  dif_pos h

theorem deposit_merged {it : BankItem} (h : a.itemCount ≠ 200)
    (hstack : itemIsStackable it.dataL0 = true) {i : Fin a.entries.toList.length}
    (hfind : a.entries.toList.findFinIdx? (fun x => x.dataL0 = it.dataL0) = some i) :
    a.itemDepositToBank it = (0, a.setSlot i (merged a.entries it i)) := by
  rw [BankArray.itemDepositToBank, dif_neg h, if_pos hstack, hfind]
  rfl

theorem deposit_added {it : BankItem} (h : a.itemCount ≠ 200)
    (hnone : itemIsStackable it.dataL0 = true →
      a.entries.toList.findFinIdx? (fun x => x.dataL0 = it.dataL0) = none) :
    a.itemDepositToBank it = (1, a.addItem it h) := by
  rw [BankArray.itemDepositToBank, dif_neg h]
  by_cases hstack : itemIsStackable it.dataL0 = true
  · rw [if_pos hstack, hnone hstack]
  · rw [if_neg hstack]

/-- A deposit that adds an entry conserves amounts, and leaves sound stacks if a stack comes with
equal counts. -/
theorem added_fits {it : BankItem} (hsound : Sound a.entries) (h : a.itemCount ≠ 200)
    (hnone : itemIsStackable it.dataL0 = true →
      a.entries.toList.findFinIdx? (fun x => x.dataL0 = it.dataL0) = none) :
    Conserves a (.deposit it) ∧ Sound (next a (.deposit it)).entries ↔
      (itemIsStackable it.dataL0 = true → Counted it) := by
  have hlist := entries_addItem a it h
  have hfresh (hstack : itemIsStackable it.dataL0 = true) :
      ∀ x ∈ a.entries.toList, x.dataL0 ≠ it.dataL0 := by
    have hall := List.findFinIdx?_eq_none_iff.mp (hnone hstack)
    simpa using hall
  have hconserves : Conserves a (.deposit it) := by
    rw [Conserves, deposit_added h hnone, if_neg (by simp)]
    refine ⟨?_, (restores_iff a _).mpr (restores_append hlist hfresh)⟩
    intro code
    rw [stored, hlist, tally_append, tally_cons, tally_nil, Nat.add_zero]
    rfl
  rw [next, deposit_added h hnone, sound_append_iff hsound hlist]
  constructor
  · intro hkeep hstack
    exact (hkeep.2 hstack).1
  · intro hcounted
    exact ⟨hconserves, fun hstack => ⟨hcounted hstack, hfresh hstack⟩⟩

theorem merged_fits {it : BankItem} (hsound : Sound a.entries) (h : a.itemCount ≠ 200)
    (hstack : itemIsStackable it.dataL0 = true) {i : Fin a.entries.toList.length}
    (hfind : a.entries.toList.findFinIdx? (fun x => x.dataL0 = it.dataL0) = some i) :
    Conserves a (.deposit it) ∧ Sound (next a (.deposit it)).entries ↔ Merges a.entries it i := by
  have hcode : (a.entries.toList.get i).dataL0 = it.dataL0 :=
    of_decide_eq_true (List.findFinIdx?_eq_some_iff.mp hfind).1
  rw [Conserves, next, deposit_merged h hstack hfind, if_neg (by simp), restores_iff,
    entries_setSlot, stored_merge_iff hstack hcode]
  constructor
  · rintro ⟨⟨hlt, hback⟩, -⟩
    refine ⟨hlt, ?_⟩
    intro hzero hfirst
    exact not_restores_merged hstack hcode hzero hfirst hback
  · rintro ⟨hlt, hempty⟩
    exact ⟨⟨hlt, restores_merged hsound hstack hcode hempty⟩, sound_set_resized hsound i.isLt _⟩

/-- A call keeps the stacks of a sound bank exactly when it fits. -/
theorem step_iff_fits (hsound : Sound a.entries) (call : BankCall) :
    Fits a call ↔ Conserves a call ∧ Sound (next a call).entries := by
  cases call with
  | deposit it =>
    by_cases hfull : a.itemCount = 200
    · rw [Conserves, next, deposit_full hfull]
      exact ⟨fun _ => ⟨rfl, hsound⟩, fun _ hroom => absurd hfull hroom⟩
    · by_cases hstack : itemIsStackable it.dataL0 = true
      · cases hfind : a.entries.toList.findFinIdx? (fun x => x.dataL0 = it.dataL0) with
        | none =>
          rw [added_fits hsound hfull (fun _ => hfind), Fits, hfind]
          exact ⟨fun hfits => hfits hfull, fun hcounted _ => hcounted⟩
        | some i =>
          rw [merged_fits hsound hfull hstack hfind, Fits, hfind]
          exact ⟨fun hfits => hfits hfull hstack, fun hmerges _ _ => hmerges⟩
      · rw [added_fits hsound hfull (fun h => absurd h hstack), Fits]
        exact ⟨fun _ h => absurd h hstack, fun _ _ h => absurd h hstack⟩
  | take itemId amt rv =>
    refine ⟨fun _ => ?_, fun _ => trivial⟩
    rw [Conserves, next]
    rcases itemTakeFromBank_refines a itemId amt rv with ⟨hfail, hsame, -⟩ | ⟨hok, hsome⟩
    · rw [if_pos hfail, hsame]
      exact ⟨rfl, hsound⟩
    · rw [if_neg hok]
      refine ⟨?_, itemTakeFromBank_sound hsound hsome⟩
      intro code
      rw [Nat.add_comm]
      exact itemTakeFromBank_held hsome code

/-- A sequence of calls keeps the stacks exactly when it starts with sound ones and each of its
calls fits. -/
theorem keepsStacks_iff (a : BankArray) (calls : List BankCall) :
    KeepsStacks a calls ↔
      Sound a.entries ∧ Run (StepOf next) Fits a calls (calls.foldl next a) := by
  have hruns (hsound : Sound a.entries) :=
    run_iff_calls (I := fun a : BankArray => Sound a.entries)
      (fun a call ha => step_iff_fits ha call) hsound calls
  constructor
  · intro h
    have hsound := (h [] List.nil_prefix).1.1
    refine ⟨hsound, (hruns hsound).mpr ?_⟩
    intro fs hfs
    exact ⟨(h fs hfs).1.1, (h fs hfs).2⟩
  · rintro ⟨hsound, hrun⟩ fs hfs
    obtain ⟨hkept, hcalls⟩ := (hruns hsound).mp hrun fs hfs
    exact ⟨⟨hkept, (BankArray.length_entries _).symm⟩, hcalls⟩

/-- A bank that holds one stack of 255 monomates. -/
def fullStack : BankItem where
  dataL0 := 0x00000003
  dataL1 := 0x0000FF00
  dataL2 := 0
  itemId := 1
  data2L := 0
  amount := 255
  flags := 0

def oneMore : BankItem :=
  { fullStack with dataL1 := 0x00000100, itemId := 2, amount := 1 }

theorem length_slots : (List.replicate 200 fullStack).length = 200 := List.length_replicate

theorem one_le : (1 : BitVec 32).toNat ≤ 200 := by
  decide

def fullStackBank : BankArray where
  items := List.replicate 200 fullStack
  itemCount := 1
  length_items := length_slots
  count_le := one_le

/-- One more monomate leaves a stack of none. -/
theorem not_keepsStacks : ¬∀ a calls, KeepsStacks a calls := by
  intro h
  have hcalls := (h fullStackBank [.deposit oneMore] [] List.nil_prefix).2 (.deposit oneMore)
    List.prefix_rfl
  rw [Conserves, if_neg (by decide)] at hcalls
  have hstored := hcalls.1 0x00000003
  revert hstored
  decide

end Calls

end ShipServer.BankStacks
