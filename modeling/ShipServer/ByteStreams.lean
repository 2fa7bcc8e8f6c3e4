import Mathlib

set_option autoImplicit false

namespace ShipServer.ByteStreams

variable {σ α : Type*}

/-- A cipher with a state, which may be applied to any whole number of blocks at a time. -/
structure StreamCipher (block : ℕ) (crypt : σ → List α → σ × List α) : Prop where
  nil : ∀ k, crypt k [] = (k, [])
  append : ∀ k a b, block ∣ a.length → block ∣ b.length →
    crypt k (a ++ b) = ((crypt (crypt k a).1 b).1, (crypt k a).2 ++ (crypt (crypt k a).1 b).2)

/-- A stream on its way: what has got through, and what waits for its turn. -/
@[ext] structure Pipe (α : Type*) where
  through : List α
  waiting : List α

namespace Pipe

def total (p : Pipe α) : List α :=
  p.through ++ p.waiting

/-- Something new goes in at the end. -/
def push (p : Pipe α) (xs : List α) : Pipe α :=
  { p with waiting := p.waiting ++ xs }

/-- As much as there is room for gets through. -/
def move (p : Pipe α) (n : ℕ) : Pipe α :=
  { through := p.through ++ p.waiting.take n, waiting := p.waiting.drop n }

theorem total_push (p : Pipe α) (xs : List α) : (p.push xs).total = p.total ++ xs := by
  rw [total, total, push, List.append_assoc]

theorem total_move (p : Pipe α) (n : ℕ) : (p.move n).total = p.total := by
  rw [total, total, move, List.append_assoc, List.take_append_drop]

end Pipe

end ShipServer.ByteStreams
