import Mathlib

set_option autoImplicit false

/-! What a function does with the locks of its thread. A lock may be taken more than once. -/

namespace ShipServer.LockTraces

variable {Lock : Type*} [DecidableEq Lock]

inductive Op (Lock : Type*) where
  | acquire (l : Lock)
  | release (l : Lock)
  deriving DecidableEq

/-- The locks that are held after some operations: nothing if one of them gives back a lock that is
not held. -/
def after : List (Op Lock) → Multiset Lock → Option (Multiset Lock)
  | [], held => some held
  | .acquire l :: ops, held => after ops (l ::ₘ held)
  | .release l :: ops, held => if l ∈ held then after ops (held.erase l) else none

/-- Operations that give back what they have taken, and nothing else. -/
def GivesBack (ops : List (Op Lock)) : Prop :=
  after ops 0 = some 0

section Held

variable {ops ops' : List (Op Lock)} {held held' : Multiset Lock} {l : Lock}

@[simp]
theorem after_acquire : after (.acquire l :: ops) held = after ops (l ::ₘ held) :=
  rfl

@[simp]
theorem after_release : after (.release l :: ops) (l ::ₘ held) = after ops held := by
  rw [after, if_pos (Multiset.mem_cons_self l held), Multiset.erase_cons_head]

theorem after_unheld (hl : l ∉ held) : after (.release l :: ops) held = none :=
  if_neg hl

theorem after_append : after (ops ++ ops') held = (after ops held).bind (after ops') := by
  induction ops generalizing held with
  | nil => rfl
  | cons op ops ih =>
    cases op with
    | acquire l => exact ih
    | release l =>
      rw [List.cons_append, after, after]
      by_cases hl : l ∈ held
      · rw [if_pos hl, if_pos hl, ih]
      · rw [if_neg hl, if_neg hl]
        rfl

/-- Locks that are held besides stay held. -/
theorem after_add (h : after ops held = some held') (besides : Multiset Lock) :
    after ops (held + besides) = some (held' + besides) := by
  induction ops generalizing held with
  | nil =>
    obtain rfl := Option.some.inj h
    rfl
  | cons op ops ih =>
    cases op with
    | acquire l =>
      rw [after_acquire] at h
      rw [after_acquire, ← Multiset.cons_add]
      exact ih h
    | release l =>
      rw [after] at h ⊢
      by_cases hl : l ∈ held
      · rw [if_pos hl] at h
        rw [if_pos (Multiset.mem_add.mpr (Or.inl hl)), Multiset.erase_add_left_pos besides hl]
        exact ih h
      · rw [if_neg hl] at h
        cases h

/-- Such operations do not change what a thread holds. -/
theorem GivesBack.keeps (h : GivesBack ops) (held : Multiset Lock) :
    after ops held = some held := by
  have hadd := after_add h held
  rwa [zero_add] at hadd

theorem GivesBack.then (h : GivesBack ops) : after (ops ++ ops') held = after ops' held := by
  rw [after_append, h.keeps]
  rfl

theorem GivesBack.nil : GivesBack ([] : List (Op Lock)) :=
  rfl

/-- A critical section. -/
theorem GivesBack.locked (h : GivesBack ops) (l : Lock) :
    GivesBack (.acquire l :: (ops ++ [.release l])) := by
  rw [GivesBack, after_acquire, h.then, after_release]
  rfl

theorem not_givesBack (h : after ops 0 = some held) (hheld : held ≠ 0) : ¬GivesBack ops := by
  intro hback
  rw [hback] at h
  exact hheld (Option.some.inj h).symm

end Held

end ShipServer.LockTraces
