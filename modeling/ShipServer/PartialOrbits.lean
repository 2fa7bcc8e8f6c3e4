import Mathlib

set_option autoImplicit false

/-! Iterating a function that may stop, and when it does stop on a finite type. -/

namespace ShipServer.PartialOrbits

variable {α β : Type*}

/-- Where the function leads to in a number of steps, unless it stops before. -/
def orbit (f : α → Option α) (a : α) : ℕ → Option α
  | 0 => some a
  | n + 1 => (orbit f a n).bind f

variable {f : α → Option α} {a b : α}

theorem orbit_add (m n : ℕ) : orbit f a (m + n) = (orbit f a m).bind fun b => orbit f b n := by
  induction n with
  | zero =>
    rw [Nat.add_zero]
    cases orbit f a m <;> rfl
  | succ n ih =>
    rw [← Nat.add_assoc, orbit, ih, Option.bind_assoc]
    rfl

theorem orbit_one (f : α → Option α) (a : α) : orbit f a 1 = f a := rfl

theorem orbit_succ' (n : ℕ) : orbit f a (n + 1) = (f a).bind fun b => orbit f b n := by
  rw [Nat.add_comm, orbit_add, orbit_one]

theorem orbit_none_of_le {m n : ℕ} (hmn : m ≤ n) (h : orbit f a m = none) : orbit f a n = none := by
  obtain ⟨k, rfl⟩ := Nat.exists_eq_add_of_le hmn
  rw [orbit_add, h, Option.bind_none]

/-- What is seen of one function through a map is another function. -/
theorem orbit_map {g : β → Option β} {view : α → β} (hview : ∀ a, g (view a) = (f a).map view)
    (a : α) (n : ℕ) : orbit g (view a) n = (orbit f a n).map view := by
  induction n with
  | zero => rfl
  | succ n ih =>
    rw [orbit, ih, orbit]
    cases orbit f a n with
    | none => rfl
    | some b => exact hview b

/-- A point that comes back keeps coming back. -/
theorem orbit_mul {m : ℕ} (h : orbit f a m = some a) (k : ℕ) : orbit f a (m * k) = some a := by
  induction k with
  | zero => rfl
  | succ k ih => rw [Nat.mul_succ, orbit_add, ih, Option.bind_some, h]

/-- A function that never stops comes back to some point of its way. -/
theorem exists_return [Finite α] (h : ∀ n, orbit f a n ≠ none) :
    ∃ n p, orbit f a n = some p ∧ ∃ m, 0 < m ∧ orbit f p m = some p := by
  obtain ⟨i, j, hne, hsame⟩ := Finite.exists_ne_map_eq_of_infinite (orbit f a)
  have hreturn {i j : ℕ} (hlt : i < j) (hsame : orbit f a i = orbit f a j) :
      ∃ n p, orbit f a n = some p ∧ ∃ m, 0 < m ∧ orbit f p m = some p := by
    obtain ⟨p, hp⟩ := Option.ne_none_iff_exists'.mp (h i)
    have hsplit : orbit f a j = orbit f p (j - i) := by
      rw [← Nat.add_sub_of_le hlt.le, orbit_add, hp, Option.bind_some, Nat.add_sub_cancel_left]
    exact ⟨i, p, hp, j - i, by omega, by rw [← hsplit, ← hsame, hp]⟩
  rcases Nat.lt_or_gt_of_ne hne with hlt | hgt
  · exact hreturn hlt hsame
  · exact hreturn hgt hsame.symm

/-- On a finite type, the function stops exactly when it comes back to no point of its way. -/
theorem stops_iff [Finite α] :
    (∃ n, orbit f a n = none) ↔
      ∀ n p, orbit f a n = some p → ∀ m, 0 < m → orbit f p m ≠ some p := by
  constructor
  · rintro ⟨N, hN⟩ n p hp m hm hback
    have hlong : orbit f a (n + m * N) = some p := by
      rw [orbit_add, hp, Option.bind_some, orbit_mul hback]
    rw [orbit_none_of_le (by nlinarith) hN] at hlong
    cases hlong
  · intro h
    by_contra hnever
    obtain ⟨n, p, hp, m, hm, hback⟩ := exists_return fun n hn => hnever ⟨n, hn⟩
    exact h n p hp m hm hback

end ShipServer.PartialOrbits
