import Mathlib

set_option autoImplicit false

namespace ShipServer.CoupledRuns

variable {σ α β γ δ : Type} {s : σ} {R : α → β → Prop}

/-- Started from the state `s`, two computations give related results and leave one and the same
state. -/
def CoupledAt (s : σ) (R : α → β → Prop) (x : StateM σ α) (y : StateM σ β) : Prop :=
  R (x.run s).1 (y.run s).1 ∧ (x.run s).2 = (y.run s).2

theorem coupledAt_pure {a : α} {b : β} (h : R a b) :
    CoupledAt s R (pure a : StateM σ α) (pure b) :=
  ⟨h, rfl⟩

/-- A computation is coupled with itself by all that its result has. -/
theorem coupledAt_same {x : StateM σ α} {Q : α → Prop} (h : Q (x.run s).1) :
    CoupledAt s (fun a b => a = b ∧ Q a) x x :=
  ⟨⟨rfl, h⟩, rfl⟩

theorem coupledAt_refl (x : StateM σ α) : CoupledAt s Eq x x :=
  ⟨rfl, rfl⟩

theorem CoupledAt.mono {S : α → β → Prop} {x : StateM σ α} {y : StateM σ β}
    (h : CoupledAt s R x y) (hRS : ∀ a b, R a b → S a b) : CoupledAt s S x y :=
  ⟨hRS _ _ h.1, h.2⟩

/-- Coupled computations are followed by computations that start from the state they leave. -/
theorem CoupledAt.bind {S : γ → δ → Prop} {x : StateM σ α} {y : StateM σ β}
    {f : α → StateM σ γ} {g : β → StateM σ δ} (h : CoupledAt s R x y)
    (hfg : ∀ a b, R a b → CoupledAt (x.run s).2 S (f a) (g b)) :
    CoupledAt s S (x >>= f) (y >>= g) := by
  have hx : (x >>= f).run s = (f (x.run s).1).run (x.run s).2 := rfl
  have hy : (y >>= g).run s = (g (y.run s).1).run (x.run s).2 := by
    rw [h.2]
    rfl
  unfold CoupledAt
  rw [hx, hy]
  exact hfg _ _ h.1

end ShipServer.CoupledRuns
