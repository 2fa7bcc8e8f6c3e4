import Mathlib

set_option autoImplicit false

namespace ShipServer.PatternOccurrences

variable {α β : Type*} {R : α → β → Prop}

/-- The pattern stands at the start of the text. -/
inductive Starts (R : α → β → Prop) : List α → List β → Prop
  | nil (text : List β) : Starts R [] text
  | cons {a : α} {b : β} {pattern : List α} {text : List β} :
      R a b → Starts R pattern text → Starts R (a :: pattern) (b :: text)

/-- The pattern stands somewhere in the text. -/
def Occurs (R : α → β → Prop) (pattern : List α) (text : List β) : Prop :=
  ∃ p, Starts R pattern (text.drop p)

theorem starts_cons_nil {a : α} {pattern : List α} : ¬Starts R (a :: pattern) [] := by
  rintro ⟨⟩

theorem starts_cons_cons {a : α} {b : β} {pattern : List α} {text : List β} :
    Starts R (a :: pattern) (b :: text) ↔ R a b ∧ Starts R pattern text := by
  constructor
  · rintro (_ | ⟨head, rest⟩)
    exact ⟨head, rest⟩
  · intro h
    exact Starts.cons h.1 h.2

theorem starts_singleton {a : α} {pattern : List α} {b : β} :
    Starts R (a :: pattern) [b] ↔ R a b ∧ pattern = [] := by
  rw [starts_cons_cons]
  refine and_congr_right' ⟨?_, ?_⟩
  · intro h
    cases h with
    | nil => rfl
  · rintro rfl
    exact Starts.nil _

theorem Starts.append {pattern : List α} {text : List β} (h : Starts R pattern text)
    (rest : List β) : Starts R pattern (text ++ rest) := by
  induction h with
  | nil text => exact Starts.nil _
  | cons head _ ih => exact Starts.cons head ih

theorem Starts.length_le {pattern : List α} {text : List β} (h : Starts R pattern text) :
    pattern.length ≤ text.length := by
  induction h with
  | nil text => exact Nat.zero_le _
  | cons _ _ ih => exact Nat.succ_le_succ ih

/-- A pattern that is not empty stands at a place of the text, never after its end. -/
theorem Starts.lt_length {pattern : List α} {text : List β} {p : ℕ}
    (h : Starts R pattern (text.drop p)) (hne : pattern ≠ []) : p < text.length := by
  have hlen := h.length_le
  have hpos := List.length_pos_of_ne_nil hne
  rw [List.length_drop] at hlen
  omega

instance decidableStarts [∀ a b, Decidable (R a b)] :
    ∀ (pattern : List α) (text : List β), Decidable (Starts R pattern text)
  | [], text => isTrue (Starts.nil text)
  | _ :: _, [] => isFalse starts_cons_nil
  | _ :: pattern, _ :: text =>
    haveI := decidableStarts pattern text
    decidable_of_iff _ starts_cons_cons.symm

/-- Where a frame is put before the text, the pattern stands in the frame or in the text. -/
theorem occurs_cons {pattern : List α} {b : β} {text : List β} :
    Occurs R pattern (b :: text) ↔ Starts R pattern (b :: text) ∨ Occurs R pattern text := by
  constructor
  · rintro ⟨p, h⟩
    cases p with
    | zero => exact Or.inl h
    | succ p => exact Or.inr ⟨p, h⟩
  · rintro (h | ⟨p, h⟩)
    · exact ⟨0, h⟩
    · exact ⟨p + 1, h⟩

end ShipServer.PatternOccurrences
