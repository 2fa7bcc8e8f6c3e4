import Mathlib

set_option autoImplicit false

/-! Loops that are followed for as many turns as there is fuel. -/

namespace ShipServer.FueledLoops

variable {α : Type*} {f : ℕ → Option α} {a : α}

/-- The result, when there is enough fuel. -/
def Returns (f : ℕ → Option α) (a : α) : Prop :=
  ∃ n, ∀ fuel, n ≤ fuel → f fuel = some a

theorem returns_of_lt {n : ℕ} (h : ∀ fuel, n < fuel → f fuel = some a) : Returns f a :=
  ⟨n + 1, h⟩

theorem Returns.unique {b : α} (h : Returns f a) (h' : Returns f b) : a = b := by
  obtain ⟨n, hn⟩ := h
  obtain ⟨k, hk⟩ := h'
  have hsame := (hn (max n k) (le_max_left n k)).symm.trans (hk (max n k) (le_max_right n k))
  exact Option.some.inj hsame

/-- The results of two loops that differ only where there is little fuel. -/
theorem returns_congr {g : ℕ → Option α} {n : ℕ} (h : ∀ fuel, n ≤ fuel → f fuel = g fuel) :
    Returns f a ↔ Returns g a := by
  constructor
  · rintro ⟨k, hk⟩
    refine ⟨max n k, fun fuel hfuel => ?_⟩
    rw [← h fuel ((le_max_left n k).trans hfuel)]
    exact hk fuel ((le_max_right n k).trans hfuel)
  · rintro ⟨k, hk⟩
    refine ⟨max n k, fun fuel hfuel => ?_⟩
    rw [h fuel ((le_max_left n k).trans hfuel)]
    exact hk fuel ((le_max_right n k).trans hfuel)

/-- What is said of some result is said of the one there is. -/
theorem Returns.exists_iff {P : α → Prop} (h : Returns f a) :
    (∃ b, Returns f b ∧ P b) ↔ P a := by
  constructor
  · rintro ⟨b, hb, hP⟩
    rw [h.unique hb]
    exact hP
  · intro hP
    exact ⟨a, h, hP⟩

end ShipServer.FueledLoops
