import Mathlib

set_option autoImplicit false

namespace ShipServer.SortedCodes

variable {α : Type*} [LinearOrder α]

/-- The loop of a binary search for the first index, between `i` and `j`, of a value not below
`x`. -/
def lowerBound (f : ℕ → α) (x : α) : ℕ → ℕ → ℕ → ℕ
  | 0, i, _ => i
  | n + 1, i, j =>
    if i < j then
      let k := i + (j - i) / 2
      if f k < x then lowerBound f x n (k + 1) j else lowerBound f x n i k
    else i

/-- The values before the index found are below `x`, and those from there on are not. -/
theorem lowerBound_spec {f : ℕ → α} {x : α} {n i j : ℕ} (hij : i ≤ j) (hn : j ≤ i + n)
    (hmono : ∀ a b, i ≤ a → a ≤ b → b < j → f a ≤ f b) :
    lowerBound f x n i j ≤ j ∧ (∀ k, i ≤ k → k < lowerBound f x n i j → f k < x) ∧
      ∀ k, lowerBound f x n i j ≤ k → k < j → x ≤ f k := by
  induction n generalizing i j with
  | zero =>
    have heq : i = j := by omega
    unfold lowerBound
    refine ⟨hij, ?_, ?_⟩
    · intro k hi hk
      omega
    · intro k hi hk
      omega
  | succ n ih =>
    unfold lowerBound
    by_cases hlt : i < j
    · rw [if_pos hlt]
      dsimp only
      split_ifs with hbelow
      · obtain ⟨hle, hfirst, hlast⟩ := ih (i := i + (j - i) / 2 + 1) (j := j) (by omega) (by omega)
          fun a b ha hab hb => hmono a b (by omega) hab hb
        refine ⟨hle, ?_, hlast⟩
        intro k hi hk
        by_cases hmid : k ≤ i + (j - i) / 2
        · exact (hmono k _ hi hmid (by omega)).trans_lt hbelow
        · exact hfirst k (by omega) hk
      · obtain ⟨hle, hfirst, hlast⟩ := ih (i := i) (j := i + (j - i) / 2) (by omega) (by omega)
          fun a b ha hab hb => hmono a b ha hab (by omega)
        refine ⟨by omega, hfirst, ?_⟩
        intro k hi hk
        by_cases hmid : k < i + (j - i) / 2
        · exact hlast k hi hmid
        · exact (not_lt.mp hbelow).trans (hmono _ k (by omega) (by omega) hk)
    · rw [if_neg hlt]
      refine ⟨hij, ?_, ?_⟩
      · intro k hi hk
        omega
      · intro k hi hk
        omega

/-- Every value but the last that is not below `x` gives way to the one after it. -/
def shiftDown (x : α) : List α → List α
  | a :: b :: rest => (if x ≤ a then b else a) :: shiftDown x (b :: rest)
  | xs => xs

theorem shiftDown_ne_nil (x a : α) (xs : List α) : shiftDown x (a :: xs) ≠ [] := by
  cases xs with
  | nil => exact List.cons_ne_nil a []
  | cons b rest => exact List.cons_ne_nil _ _

/-- If no value is below `x`, the first one goes. -/
theorem dropLast_shiftDown_of_le {x a : α} {xs : List α} (h : ∀ y ∈ a :: xs, x ≤ y) :
    (shiftDown x (a :: xs)).dropLast = xs := by
  induction xs generalizing a with
  | nil => rfl
  | cons b rest ih =>
    rw [shiftDown, if_pos (h a List.mem_cons_self),
      List.dropLast_cons_of_ne_nil (shiftDown_ne_nil x b rest),
      ih fun y hy => h y (List.mem_cons_of_mem a hy)]

/-- Without the last place, what is left of a sorted list is all but the first `x`. -/
theorem dropLast_shiftDown {x : α} {xs : List α} (hsorted : xs.Pairwise (· ≤ ·)) (hx : x ∈ xs) :
    (shiftDown x xs).dropLast = xs.erase x := by
  induction xs with
  | nil => cases hx
  | cons a rest ih =>
    obtain ⟨hfirst, hrest⟩ := List.pairwise_cons.mp hsorted
    by_cases hxa : x = a
    · rw [hxa, List.erase_cons_head]
      apply dropLast_shiftDown_of_le
      intro y hy
      rcases List.mem_cons.mp hy with rfl | hy
      · exact le_rfl
      · exact hfirst y hy
    · have hmem : x ∈ rest := (List.mem_cons.mp hx).resolve_left hxa
      have hlt : a < x := lt_of_le_of_ne (hfirst x hmem) (Ne.symm hxa)
      rw [List.erase_cons_tail (by simpa using Ne.symm hxa), ← ih hrest hmem]
      cases rest with
      | nil => cases hmem
      | cons b rest =>
        rw [shiftDown, if_neg (not_le.mpr hlt),
          List.dropLast_cons_of_ne_nil (shiftDown_ne_nil x b rest)]

/-- An insertion sort that lets each value sink from the end of the sorted ones before it. -/
def insertionSort (xs : List α) : List α :=
  (xs.foldl (fun sorted x => sorted.orderedInsert (· ≥ ·) x) []).reverse

theorem insertionSort_eq (xs : List α) :
    insertionSort xs = (xs.reverse.insertionSort (· ≥ ·)).reverse := by
  unfold insertionSort
  rw [← List.foldr_reverse]
  rfl

theorem insertionSort_perm (xs : List α) : (insertionSort xs).Perm xs := by
  rw [insertionSort_eq]
  exact (List.reverse_perm _).trans ((List.perm_insertionSort _ _).trans (List.reverse_perm xs))

theorem insertionSort_sorted (xs : List α) : (insertionSort xs).Pairwise (· ≤ ·) := by
  rw [insertionSort_eq, List.pairwise_reverse]
  exact List.pairwise_insertionSort (· ≥ ·) xs.reverse

/-- Values that are all different come out increasing. -/
theorem insertionSort_lt {xs : List α} (h : xs.Nodup) : (insertionSort xs).Pairwise (· < ·) := by
  have hnodup : (insertionSort xs).Nodup := (insertionSort_perm xs).nodup_iff.mpr h
  refine (insertionSort_sorted xs).imp₂ ?_ hnodup
  intro a b hle hne
  exact lt_of_le_of_ne hle hne

end ShipServer.SortedCodes
