import Mathlib

set_option autoImplicit false

namespace ShipServer.Seatings

variable {ι α : Type*} {occ : ι → Option α} {place : α → Option ι}

/-- The occupant of every seat has that seat as its place, and nobody else has. -/
def Seated (occ : ι → Option α) (place : α → Option ι) : Prop :=
  ∀ i a, occ i = some a ↔ place a = some i

theorem seated_empty : Seated (fun _ : ι => (none : Option α)) (fun _ => none) := by
  intro i a
  constructor <;> rintro ⟨⟩

/-- Nobody has two seats. -/
theorem Seated.unique (h : Seated occ place) {i j : ι} {a : α} (hi : occ i = some a)
    (hj : occ j = some a) : i = j := by
  have hplace := (h i a).mp hi
  rw [(h j a).mp hj] at hplace
  exact (Option.some.inj hplace).symm

theorem Seated.place_eq_none (h : Seated occ place) {a : α} (ha : ∀ i, occ i ≠ some a) :
    place a = none := by
  cases hp : place a with
  | none => rfl
  | some i => exact absurd ((h i a).mpr hp) (ha i)

variable [DecidableEq ι] [DecidableEq α]

theorem Seated.sit (h : Seated occ place) {i : ι} {a : α} (hi : occ i = none)
    (ha : place a = none) :
    Seated (Function.update occ i (some a)) (Function.update place a (some i)) := by
  intro j b
  by_cases hj : j = i
  · subst hj
    rw [Function.update_self, Option.some_inj]
    by_cases hb : b = a
    · subst hb
      simp
    · rw [Function.update_of_ne hb, ← h j b, hi]
      simp [Ne.symm hb]
  · rw [Function.update_of_ne hj, h j b]
    by_cases hb : b = a
    · subst hb
      rw [Function.update_self, ha]
      simp [Ne.symm hj]
    · rw [Function.update_of_ne hb]

theorem Seated.leave (h : Seated occ place) {i : ι} {a : α} (hi : occ i = some a) :
    Seated (Function.update occ i none) (Function.update place a none) := by
  have ha := (h i a).mp hi
  intro j b
  by_cases hb : b = a
  · subst hb
    rw [Function.update_self]
    by_cases hj : j = i
    · subst hj
      simp
    · rw [Function.update_of_ne hj, h j b, ha]
      simp [Ne.symm hj]
  · rw [Function.update_of_ne hb]
    by_cases hj : j = i
    · subst hj
      rw [Function.update_self, ← h j b, hi]
      simp [Ne.symm hb]
    · rw [Function.update_of_ne hj, h j b]

/-- Taking a new seat first and giving the old one up afterwards. -/
theorem Seated.move (h : Seated occ place) {i j : ι} {a : α} (hi : occ i = some a)
    (hj : occ j = none) :
    Seated (Function.update (Function.update occ j (some a)) i none)
      (Function.update place a (some j)) := by
  have hne : i ≠ j := by
    rintro rfl
    rw [hi] at hj
    cases hj
  have hleft := h.leave hi
  have hfree : Function.update occ i none j = none := by
    rw [Function.update_of_ne hne.symm, hj]
  have hsat := hleft.sit hfree (Function.update_self a none place)
  rwa [Function.update_idem, Function.update_comm hne] at hsat

end ShipServer.Seatings
