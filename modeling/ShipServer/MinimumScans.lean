import Mathlib

set_option autoImplicit false

namespace ShipServer.MinimumScans

variable {α β : Type*} [LinearOrder β]

/-- One turn of a scan for the least key, which starts below a given bound. -/
def improve (key : α → Option β) (best : Option α × β) (x : α) : Option α × β :=
  match key x with
  | none => best
  | some t => if t < best.2 then (some x, t) else best

variable {key : α → Option β}

theorem improve_cases (key : α → Option β) (best : Option α × β) (x : α) :
    (improve key best x = best ∧ ∀ t, key x = some t → best.2 ≤ t) ∨
      ∃ t, key x = some t ∧ t < best.2 ∧ improve key best x = (some x, t) := by
  rw [improve]
  cases hkey : key x with
  | none => exact Or.inl ⟨rfl, fun t ht => (nomatch ht)⟩
  | some t =>
    dsimp only
    by_cases hless : t < best.2
    · rw [if_pos hless]
      exact Or.inr ⟨t, rfl, hless, rfl⟩
    · rw [if_neg hless]
      refine Or.inl ⟨rfl, fun t' ht' => ?_⟩
      cases ht'
      exact not_lt.mp hless

/-- The scan keeps its start or ends with an element whose key is the least of all. -/
theorem foldl_improve (xs : List α) (best : Option α × β) :
    (xs.foldl (improve key) best).2 ≤ best.2 ∧
      (∀ x ∈ xs, ∀ t, key x = some t → (xs.foldl (improve key) best).2 ≤ t) ∧
      (xs.foldl (improve key) best = best ∨
        ∃ x ∈ xs, ∃ t, key x = some t ∧ t < best.2 ∧
          xs.foldl (improve key) best = (some x, t)) := by
  induction xs generalizing best with
  | nil => exact ⟨le_rfl, fun x hx => (nomatch hx), Or.inl rfl⟩
  | cons x xs ih =>
    rw [List.foldl_cons]
    obtain ⟨hle, hmin, hend⟩ := ih (improve key best x)
    rcases improve_cases key best x with ⟨hsame, hkey⟩ | ⟨t, ht, hless, hbest⟩
    · rw [hsame] at hle hmin hend ⊢
      refine ⟨hle, ?_, ?_⟩
      · intro y hy t ht
        rcases List.mem_cons.mp hy with rfl | hy
        · exact hle.trans (hkey t ht)
        · exact hmin y hy t ht
      · rcases hend with hend | ⟨y, hy, hfound⟩
        · exact Or.inl hend
        · exact Or.inr ⟨y, List.mem_cons_of_mem x hy, hfound⟩
    · rw [hbest] at hle hmin hend ⊢
      refine ⟨hle.trans hless.le, ?_, Or.inr ?_⟩
      · intro y hy t' ht'
        rcases List.mem_cons.mp hy with rfl | hy
        · rw [ht] at ht'
          cases ht'
          exact hle
        · exact hmin y hy t' ht'
      · rcases hend with hend | ⟨y, hy, t', ht', hless', hfound⟩
        · exact ⟨x, List.mem_cons_self, t, ht, hless, hend⟩
        · exact ⟨y, List.mem_cons_of_mem x hy, t', ht', hless'.trans hless, hfound⟩

/-- A scan from nothing finds nothing only if no key is below the bound. -/
theorem scan_eq_none {xs : List α} {bound : β}
    (h : (xs.foldl (improve key) (none, bound)).1 = none) :
    ∀ x ∈ xs, ∀ t, key x = some t → bound ≤ t := by
  obtain ⟨-, hmin, hend⟩ := foldl_improve xs (none, bound)
  rcases hend with hend | ⟨y, -, t, -, -, hfound⟩
  · rw [hend] at hmin
    exact hmin
  · rw [hfound] at h
    cases h

/-- What it finds has the least key. -/
theorem scan_eq_some {xs : List α} {bound : β} {x : α}
    (h : (xs.foldl (improve key) (none, bound)).1 = some x) :
    x ∈ xs ∧ ∃ t, key x = some t ∧ t < bound ∧ ∀ y ∈ xs, ∀ t', key y = some t' → t ≤ t' := by
  obtain ⟨-, hmin, hend⟩ := foldl_improve xs (none, bound)
  rcases hend with hend | ⟨y, hy, t, ht, hless, hfound⟩
  · rw [hend] at h
    cases h
  · rw [hfound] at h hmin
    cases h
    exact ⟨hy, t, ht, hless, hmin⟩

end ShipServer.MinimumScans
