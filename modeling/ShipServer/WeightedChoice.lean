import Mathlib

set_option autoImplicit false

/-! Choices by weights: each index of a list owns as many consecutive numbers as its weight says. -/

namespace ShipServer.WeightedChoice

/-- Where a number falls among the weights: the first of them that takes it below zero. -/
def landing : List ℤ → ℤ → Option ℕ
  | [], _ => none
  | w :: ws, r => if r - w < 0 then some 0 else (landing ws (r - w)).map (· + 1)

/-- The same search with numbers that wrap around. Going below zero is seen as going above a
limit. -/
def wrapped (limit : ℤ) : List ℤ → ℤ → Option ℕ
  | [], _ => none
  | w :: ws, r =>
    if r - w < 0 ∨ limit < r - w then some 0 else (wrapped limit ws (r - w)).map (· + 1)

section Search

variable {ws : List ℤ} {limit r : ℤ} {i : ℕ}

/-- A search that goes down a list finds an index of the list. -/
theorem lt_length_of_search {α β : Type*} {search : List α → β → Option ℕ}
    (hnil : ∀ r, search [] r = none)
    (hcons : ∀ w ws r, search (w :: ws) r = some 0 ∨
      ∃ r', search (w :: ws) r = (search ws r').map (· + 1))
    {ws : List α} {r : β} {i : ℕ} (h : search ws r = some i) : i < ws.length := by
  induction ws generalizing r i with
  | nil =>
    rw [hnil] at h
    cases h
  | cons w ws ih =>
    rcases hcons w ws r with hfound | ⟨r', hlater⟩
    · rw [hfound] at h
      cases h
      exact Nat.succ_pos _
    · rw [hlater] at h
      obtain ⟨j, hj, rfl⟩ := Option.map_eq_some_iff.mp h
      exact Nat.succ_lt_succ (ih hj)

theorem lt_length_of_landing (h : landing ws r = some i) : i < ws.length := by
  refine lt_length_of_search (fun _ => rfl) (fun w ws r => ?_) h
  rw [landing]
  split_ifs
  · exact .inl rfl
  · exact .inr ⟨_, rfl⟩

theorem lt_length_of_wrapped (h : wrapped limit ws r = some i) : i < ws.length := by
  refine lt_length_of_search (fun _ => rfl) (fun w ws r => ?_) h
  rw [wrapped]
  split_ifs
  · exact .inl rfl
  · exact .inr ⟨_, rfl⟩

/-- Where nothing is found, the number is no less than the sum of the weights. -/
theorem sum_le_of_wrapped (hr : 0 ≤ r) (h : wrapped limit ws r = none) : ws.sum ≤ r := by
  induction ws generalizing r with
  | nil => exact hr
  | cons w ws ih =>
    rw [wrapped] at h
    by_cases hfirst : r - w < 0 ∨ limit < r - w
    · rw [if_pos hfirst] at h
      cases h
    · rw [if_neg hfirst, Option.map_eq_none_iff] at h
      have hrest := ih (by omega) h
      rw [List.sum_cons]
      omega

/-- Without negative weights, a number below the limit never goes above it. -/
theorem wrapped_eq_landing (hws : ∀ w ∈ ws, 0 ≤ w) (hr : r ≤ limit) :
    wrapped limit ws r = landing ws r := by
  induction ws generalizing r with
  | nil => rfl
  | cons w ws ih =>
    have hw := hws w List.mem_cons_self
    rw [wrapped, landing, ih (fun v hv => hws v (List.mem_cons_of_mem w hv)) (by omega)]
    have hlimit : r - w < 0 ∨ limit < r - w ↔ r - w < 0 := by omega
    rw [if_congr hlimit rfl rfl]

/-- An index owns the numbers from the sum of the weights before it on. -/
theorem landing_eq_some_iff (hws : ∀ w ∈ ws, 0 ≤ w) (hr : 0 ≤ r) :
    landing ws r = some i ↔
      i < ws.length ∧ (ws.take i).sum ≤ r ∧ r < (ws.take (i + 1)).sum := by
  induction ws generalizing r i with
  | nil => simp [landing]
  | cons w ws ih =>
    have hrest (r : ℤ) (hr : 0 ≤ r) (i : ℕ) := ih (fun v hv => hws v (List.mem_cons_of_mem w hv))
      (r := r) (i := i) hr
    have hnonneg (n : ℕ) : 0 ≤ (ws.take n).sum :=
      List.sum_nonneg fun v hv => hws v (List.mem_cons_of_mem w (List.mem_of_mem_take hv))
    have hw := hws w List.mem_cons_self
    rw [landing]
    by_cases hfirst : r - w < 0
    · rw [if_pos hfirst]
      cases i with
      | zero =>
        have hlt : r < w := by omega
        simp [hr, hlt]
      | succ i =>
        have hpos := hnonneg i
        simp only [List.take_succ_cons, List.sum_cons]
        constructor
        · intro h
          cases h
        · rintro ⟨-, hlow, -⟩
          omega
    · rw [if_neg hfirst]
      cases i with
      | zero =>
        constructor
        · intro h
          obtain ⟨j, -, hj⟩ := Option.map_eq_some_iff.mp h
          cases hj
        · rintro ⟨-, -, hhigh⟩
          rw [List.take_succ_cons, List.sum_cons, List.take_zero, List.sum_nil] at hhigh
          omega
      | succ i =>
        have hmap : (landing ws (r - w)).map (· + 1) = some (i + 1) ↔
            landing ws (r - w) = some i := by
          simp
        rw [hmap, hrest (r - w) (by omega) i]
        simp only [List.take_succ_cons, List.sum_cons, List.length_cons]
        constructor
        · rintro ⟨hlen, hlow, hhigh⟩
          omega
        · rintro ⟨hlen, hlow, hhigh⟩
          omega

/-- A number that is less than the sum of the weights falls among them. -/
theorem exists_landing (hr : 0 ≤ r) (hsum : r < ws.sum) : ∃ i, landing ws r = some i := by
  induction ws generalizing r with
  | nil => exact absurd hsum (not_lt.mpr hr)
  | cons w ws ih =>
    rw [landing]
    by_cases hfirst : r - w < 0
    · exact ⟨0, if_pos hfirst⟩
    · rw [List.sum_cons] at hsum
      obtain ⟨i, hi⟩ := ih (r := r - w) (by omega) (by omega)
      exact ⟨i + 1, by rw [if_neg hfirst, hi, Option.map_some]⟩

end Search

section Counting

variable {ws : List ℤ}

/-- The numbers below `n` that an index owns. -/
def share (ws : List ℤ) (n i : ℕ) : ℕ :=
  ((Finset.range n).filter fun r : ℕ => landing ws r = some i).card

theorem sum_take_nonneg (hws : ∀ w ∈ ws, 0 ≤ w) (i : ℕ) : 0 ≤ (ws.take i).sum :=
  List.sum_nonneg fun w hw => hws w (List.mem_of_mem_take hw)

theorem share_eq (hws : ∀ w ∈ ws, 0 ≤ w) {i : ℕ} (hi : i < ws.length) (n : ℕ) :
    share ws n i = min (ws.take (i + 1)).sum.toNat n - (ws.take i).sum.toNat := by
  have hlow := sum_take_nonneg hws i
  have hhigh := sum_take_nonneg hws (i + 1)
  have howned : ((Finset.range n).filter fun r : ℕ => landing ws r = some i) =
      Finset.Ico (ws.take i).sum.toNat (min (ws.take (i + 1)).sum.toNat n) := by
    ext r
    rw [Finset.mem_filter, Finset.mem_range, Finset.mem_Ico,
      landing_eq_some_iff hws (Int.natCast_nonneg r)]
    omega
  rw [share, howned, Nat.card_Ico]

/-- An index owns as many numbers as its weight says exactly when the numbers last for it. -/
theorem share_eq_iff (hws : ∀ w ∈ ws, 0 ≤ w) {i : ℕ} (hi : i < ws.length) (n : ℕ) :
    (share ws n i : ℤ) = ws[i] ↔ ws[i] = 0 ∨ (ws.take (i + 1)).sum ≤ n := by
  have hlow := sum_take_nonneg hws i
  have hw := hws ws[i] (List.getElem_mem hi)
  have hsum : (ws.take (i + 1)).sum = (ws.take i).sum + ws[i] := by
    rw [List.take_succ_eq_append_getElem hi, List.sum_append, List.sum_singleton]
  rw [share_eq hws hi, hsum]
  omega

end Counting

end ShipServer.WeightedChoice
