import Mathlib

set_option autoImplicit false

namespace ShipServer.TracedReads

/-- A computation that reads cells of a memory one by one. -/
inductive Probe (A V : Type) (α : Type) where
  | done (a : α)
  | look (i : A) (k : V → Probe A V α)

namespace Probe

variable {A V α β : Type}

def bind : Probe A V α → (α → Probe A V β) → Probe A V β
  | done a, f => f a
  | look i k, f => look i (fun v => (k v).bind f)

instance : Monad (Probe A V) where
  pure := done
  bind := bind

/-- The value of one cell. -/
def cell (i : A) : Probe A V V :=
  look i done

def result (m : A → V) : Probe A V α → α
  | done a => a
  | look i k => (k (m i)).result m

/-- The cells that are read, in order. -/
def reads (m : A → V) : Probe A V α → List A
  | done _ => []
  | look i k => i :: (k (m i)).reads m

variable (m : A → V)

@[simp]
theorem result_pure (a : α) : (pure a : Probe A V α).result m = a := rfl

@[simp]
theorem reads_pure (a : α) : (pure a : Probe A V α).reads m = [] := rfl

@[simp]
theorem result_cell (i : A) : (cell i : Probe A V V).result m = m i := rfl

@[simp]
theorem reads_cell (i : A) : (cell i : Probe A V V).reads m = [i] := rfl

@[simp]
theorem result_bind (p : Probe A V α) (f : α → Probe A V β) :
    (p >>= f).result m = (f (p.result m)).result m := by
  induction p with
  | done a => rfl
  | look i k ih => exact ih (m i)

@[simp]
theorem reads_bind (p : Probe A V α) (f : α → Probe A V β) :
    (p >>= f).reads m = p.reads m ++ (f (p.result m)).reads m := by
  induction p with
  | done a => rfl
  | look i k ih => exact congrArg (i :: ·) (ih (m i))

@[simp]
theorem result_ite (P : Prop) [Decidable P] (p q : Probe A V α) :
    (if P then p else q).result m = if P then p.result m else q.result m := by
  split <;> rfl

@[simp]
theorem reads_ite (P : Prop) [Decidable P] (p q : Probe A V α) :
    (if P then p else q).reads m = if P then p.reads m else q.reads m := by
  split <;> rfl

/-- Only cells of a set are read. -/
def Within (S : A → Prop) (p : Probe A V α) : Prop :=
  ∀ i ∈ p.reads m, S i

variable {m} {S : A → Prop}

theorem within_pure (a : α) : Within m S (pure a : Probe A V α) := by
  simp [Within]

theorem within_cell {i : A} (hi : S i) : Within m S (cell i : Probe A V V) := by
  simpa [Within] using hi

theorem Within.bind {p : Probe A V α} {f : α → Probe A V β} (hp : Within m S p)
    (hf : Within m S (f (p.result m))) : Within m S (p >>= f) := by
  intro i hi
  rw [reads_bind, List.mem_append] at hi
  rcases hi with hi | hi
  · exact hp i hi
  · exact hf i hi

theorem Within.step {i : A} {f : V → Probe A V α} (hi : S i) (hf : Within m S (f (m i))) :
    Within m S (cell i >>= f) :=
  (within_cell hi).bind hf

theorem within_step_iff {i : A} {f : V → Probe A V α} :
    Within m S (cell i >>= f) ↔ S i ∧ Within m S (f (m i)) := by
  constructor
  · intro h
    exact ⟨h i List.mem_cons_self, fun j hj => h j (List.mem_cons_of_mem i hj)⟩
  · rintro ⟨hi, hf⟩
    exact Within.step hi hf

theorem Within.dite {P : Prop} [Decidable P] {p : P → Probe A V α} {q : ¬P → Probe A V α}
    (hp : ∀ h, Within m S (p h)) (hq : ∀ h, Within m S (q h)) :
    Within m S (if h : P then p h else q h) := by
  by_cases h : P
  · rw [dif_pos h]
    exact hp h
  · rw [dif_neg h]
    exact hq h

theorem Within.ite {P : Prop} [Decidable P] {p q : Probe A V α} (hp : P → Within m S p)
    (hq : ¬P → Within m S q) : Within m S (if P then p else q) := by
  by_cases h : P
  · rw [if_pos h]
    exact hp h
  · rw [if_neg h]
    exact hq h

/-- A property of the result. -/
def Returns (m : A → V) (Q : α → Prop) (p : Probe A V α) : Prop :=
  Q (p.result m)

theorem returns_pure {Q : α → Prop} {a : α} (ha : Q a) :
    Returns m Q (pure a : Probe A V α) := ha

theorem Returns.bind {Q : β → Prop} {p : Probe A V α} {f : α → Probe A V β}
    (hf : Returns m Q (f (p.result m))) : Returns m Q (p >>= f) := by
  rw [Returns, result_bind]
  exact hf

theorem Returns.step {Q : α → Prop} {i : A} {f : V → Probe A V α} (hf : Returns m Q (f (m i))) :
    Returns m Q (cell i >>= f) :=
  Returns.bind hf

theorem Returns.dite {Q : α → Prop} {P : Prop} [Decidable P] {p : P → Probe A V α}
    {q : ¬P → Probe A V α} (hp : ∀ h, Returns m Q (p h)) (hq : ∀ h, Returns m Q (q h)) :
    Returns m Q (if h : P then p h else q h) := by
  by_cases h : P
  · rw [dif_pos h]
    exact hp h
  · rw [dif_neg h]
    exact hq h

theorem Returns.ite {Q : α → Prop} {P : Prop} [Decidable P] {p q : Probe A V α}
    (hp : P → Returns m Q p) (hq : ¬P → Returns m Q q) :
    Returns m Q (if P then p else q) := by
  by_cases h : P
  · rw [if_pos h]
    exact hp h
  · rw [if_neg h]
    exact hq h

end Probe

end ShipServer.TracedReads
