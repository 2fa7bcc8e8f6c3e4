import Mathlib

set_option autoImplicit false

namespace ShipServer.BoundedLists

variable {α β ι : Type*}

/-- A list that never outgrows the array it models. -/
structure BoundedList (α : Type*) (cap : ℕ) where
  toList : List α
  length_le : toList.length ≤ cap
  deriving DecidableEq, Repr

namespace BoundedList

variable {cap : ℕ}

def nil : BoundedList α cap :=
  ⟨[], Nat.zero_le cap⟩

def set (l : BoundedList α cap) (i : ℕ) (a : α) : BoundedList α cap :=
  ⟨l.toList.set i a, by simpa only [List.length_set] using l.length_le⟩

def eraseIdx (l : BoundedList α cap) (i : ℕ) : BoundedList α cap :=
  ⟨l.toList.eraseIdx i, (List.length_eraseIdx_le _ _).trans l.length_le⟩

def map (f : α → α) (l : BoundedList α cap) : BoundedList α cap :=
  ⟨l.toList.map f, by simpa only [List.length_map] using l.length_le⟩

def mapIdx (f : ℕ → α → α) (l : BoundedList α cap) : BoundedList α cap :=
  ⟨l.toList.mapIdx f, by simpa only [List.length_mapIdx] using l.length_le⟩

def push (l : BoundedList α cap) (a : α) (h : l.toList.length < cap) : BoundedList α cap :=
  ⟨l.toList ++ [a], by
    rw [List.length_append, List.length_singleton]
    exact h⟩

@[simp] theorem toList_set (l : BoundedList α cap) (i : ℕ) (a : α) :
    (l.set i a).toList = l.toList.set i a := rfl

@[simp] theorem toList_eraseIdx (l : BoundedList α cap) (i : ℕ) :
    (l.eraseIdx i).toList = l.toList.eraseIdx i := rfl

@[simp] theorem toList_map (f : α → α) (l : BoundedList α cap) :
    (l.map f).toList = l.toList.map f := rfl

@[simp] theorem toList_mapIdx (f : ℕ → α → α) (l : BoundedList α cap) :
    (l.mapIdx f).toList = l.toList.mapIdx f := rfl

@[simp] theorem toList_push (l : BoundedList α cap) (a : α) (h : l.toList.length < cap) :
    (l.push a h).toList = l.toList ++ [a] := rfl

end BoundedList

theorem boundedList_ext {cap : ℕ} {l l' : BoundedList α cap}
    (h : l.toList = l'.toList) : l = l' := by
  cases l
  cases l'
  cases h
  rfl

theorem set_eq_self {l : List α} {i : ℕ} (hi : i < l.length) (a : α) :
    l.set i a = l ↔ a = l[i] := by
  constructor
  · intro h
    have hget := List.getElem_set_self (l := l) (a := a) (i := i) (by simpa using hi)
    rw [← hget]
    simp only [h]
  · intro h
    rw [h, List.set_getElem_self]

theorem append_singleton_eq_cons (l : List α) (a : α) :
    l ++ [a] = a :: l ↔ ∀ b ∈ l, b = a := by
  induction l with
  | nil => simp
  | cons b l ih =>
    rw [List.cons_append, List.cons.injEq, List.forall_mem_cons]
    constructor
    · rintro ⟨rfl, hrest⟩
      exact ⟨rfl, ih.mp hrest⟩
    · rintro ⟨rfl, hall⟩
      exact ⟨rfl, ih.mpr hall⟩

/-- An element that is moved to the end is back in its place if all that follow are equal. -/
theorem eraseIdx_append_eq {l : List α} (i : Fin l.length) :
    l.eraseIdx i ++ [l[i]] = l ↔ ∀ j : Fin l.length, i < j → l[j] = l[i] := by
  have hsplit : l = l.take i ++ l[i] :: l.drop (i + 1) := by
    simp
  have hsame : l.eraseIdx i ++ [l[i]] = l ↔ ∀ b ∈ l.drop (i + 1), b = l[i] := by
    rw [← append_singleton_eq_cons, List.eraseIdx_eq_take_drop_succ, List.append_assoc]
    constructor
    · intro h
      exact List.append_cancel_left (h.trans hsplit)
    · intro h
      rw [h]
      exact hsplit.symm
  rw [hsame]
  constructor
  · intro hall j hj
    apply hall
    rw [List.mem_drop_iff_getElem]
    have hlt : (i : ℕ) < j := hj
    have hj' := j.isLt
    refine ⟨j - (i + 1), by omega, ?_⟩
    have hindex : (i : ℕ) + 1 + (j - (i + 1)) = j := by omega
    simp only [hindex]
    rfl
  · intro hall b hb
    rw [List.mem_drop_iff_getElem] at hb
    obtain ⟨k, hk, hget⟩ := hb
    have hlater := hall ⟨i + 1 + k, by omega⟩ (by
      change (i : ℕ) < i + 1 + k
      omega)
    rw [← hget]
    exact hlater

theorem nodup_of_subperm {l m : List α} (h : l.Subperm m) (hm : m.Nodup) : l.Nodup := by
  obtain ⟨k, hperm, hsub⟩ := h
  exact hperm.nodup_iff.mp (hm.sublist hsub)

/-- The sum of a quantity over the entries of a list. -/
def tally (f : α → ℕ) (l : List α) : ℕ :=
  (l.map f).sum

@[simp] theorem tally_nil (f : α → ℕ) : tally f [] = 0 := rfl

@[simp] theorem tally_cons (f : α → ℕ) (a : α) (l : List α) :
    tally f (a :: l) = f a + tally f l := by
  simp [tally]

@[simp] theorem tally_append (f : α → ℕ) (l m : List α) :
    tally f (l ++ m) = tally f l + tally f m := by
  simp [tally]

@[simp] theorem tally_map (f : β → ℕ) (g : α → β) (l : List α) :
    tally f (l.map g) = tally (f ∘ g) l := by
  simp [tally]

theorem tally_eraseIdx (f : α → ℕ) {l : List α} {i : ℕ} (h : i < l.length) :
    f l[i] + tally f (l.eraseIdx i) = tally f l := by
  rw [← tally_cons]
  exact ((List.getElem_cons_eraseIdx_perm h).map f).sum_eq

theorem tally_set (f : α → ℕ) {l : List α} {i : ℕ} (h : i < l.length) (a : α) :
    tally f (l.set i a) + f l[i] = tally f l + f a := by
  have hset : tally f (l.set i a) = tally f (a :: l.eraseIdx i) :=
    ((List.set_perm_cons_eraseIdx h a).map f).sum_eq
  have herase := tally_eraseIdx f h
  rw [hset, tally_cons]
  omega

/-- Replacing one member of a finite family changes the family's sum by that member alone. -/
theorem sum_update_add [Fintype ι] [DecidableEq ι] (g : α → ℕ) (m : ι → α) (i : ι) (a : α) :
    ∑ j, g (Function.update m i a j) + g (m i) = ∑ j, g (m j) + g a := by
  have hrest : ∑ j ∈ Finset.univ.erase i, g (Function.update m i a j) =
      ∑ j ∈ Finset.univ.erase i, g (m j) := by
    refine Finset.sum_congr rfl ?_
    intro j hj
    rw [Function.update_of_ne (Finset.ne_of_mem_erase hj)]
  have hnew := Finset.add_sum_erase Finset.univ (fun j => g (Function.update m i a j))
    (Finset.mem_univ i)
  have hold := Finset.add_sum_erase Finset.univ (fun j => g (m j)) (Finset.mem_univ i)
  simp only [Function.update_self] at hnew
  omega

/-- One member of a finite family of lists can be brought to the front of their
concatenation, whatever list it holds. -/
theorem exists_flatMap_update_perm {n : ℕ} (f : Fin n → List α) (i : Fin n) :
    ∃ rest, ∀ xs, ((List.finRange n).flatMap (Function.update f i xs)).Perm (xs ++ rest) := by
  refine ⟨((List.finRange n).erase i).flatMap f, ?_⟩
  intro xs
  have hsplit := List.perm_cons_erase (List.mem_finRange i)
  have hrest : ((List.finRange n).erase i).flatMap (Function.update f i xs) =
      ((List.finRange n).erase i).flatMap f := by
    refine List.flatMap_congr ?_
    intro j hj
    have hne : j ≠ i := ((List.nodup_finRange n).mem_erase_iff.mp hj).1
    rw [Function.update_of_ne hne]
  calc
    ((List.finRange n).flatMap (Function.update f i xs)).Perm
        ((i :: (List.finRange n).erase i).flatMap (Function.update f i xs)) :=
      hsplit.flatMap_right _
    _ = xs ++ ((List.finRange n).erase i).flatMap f := by
      rw [List.flatMap_cons, Function.update_self, hrest]

end ShipServer.BoundedLists
