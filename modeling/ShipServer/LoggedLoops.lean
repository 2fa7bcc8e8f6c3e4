import Mathlib

set_option autoImplicit false

namespace ShipServer.LoggedLoops

variable {σ A : Type*}

/-- The accesses of at most `n` turns of a loop, and whether it has ended by then. -/
def loop (body : σ → List A × Option σ) : ℕ → σ → List A × Bool
  | 0, _ => ([], false)
  | n + 1, s =>
    match body s with
    | (as, none) => (as, true)
    | (as, some t) => (as ++ (loop body n t).1, (loop body n t).2)

/-- Some accesses and then a run. -/
def before (as : List A) (run : ℕ → List A × Bool) (n : ℕ) : List A × Bool :=
  (as ++ (run n).1, (run n).2)

def halt (as : List A) (_ : ℕ) : List A × Bool :=
  (as, true)

/-- A run that ends, and whose accesses are all allowed. -/
structure Contained (ok : A → Prop) (run : ℕ → List A × Bool) : Prop where
  ends : ∃ n, (run n).2 = true
  within : ∀ n, ∀ a ∈ (run n).1, ok a

/-- The allowed turns that a loop takes to its end. -/
inductive Tame (body : σ → List A × Option σ) (ok : A → Prop) : σ → Prop where
  | turn (s : σ) (here : ∀ a ∈ (body s).1, ok a)
      (rest : ∀ t, (body s).2 = some t → Tame body ok t) : Tame body ok s

variable {body : σ → List A × Option σ} {ok : A → Prop}

theorem loop_last {s : σ} (h : (body s).2 = none) (n : ℕ) :
    loop body (n + 1) s = ((body s).1, true) := by
  rw [loop]
  generalize body s = r at *
  obtain ⟨as, t⟩ := r
  cases h
  rfl

theorem loop_turn {s t : σ} (h : (body s).2 = some t) (n : ℕ) :
    loop body (n + 1) s = ((body s).1 ++ (loop body n t).1, (loop body n t).2) := by
  rw [loop]
  generalize body s = r at *
  obtain ⟨as, u⟩ := r
  cases h
  rfl

theorem contained_halt_iff {as : List A} : Contained ok (halt as) ↔ ∀ a ∈ as, ok a :=
  ⟨fun h => h.within 0, fun h => ⟨⟨0, rfl⟩, fun _ => h⟩⟩

theorem contained_before_iff {as : List A} {run : ℕ → List A × Bool} :
    Contained ok (before as run) ↔ (∀ a ∈ as, ok a) ∧ Contained ok run := by
  constructor
  · intro h
    refine ⟨fun a ha => h.within 0 a (List.mem_append_left _ ha), h.ends, fun n a ha => ?_⟩
    exact h.within n a (List.mem_append_right _ ha)
  · rintro ⟨has, hrun⟩
    refine ⟨hrun.ends, fun n a ha => ?_⟩
    rcases List.mem_append.mp ha with ha | ha
    · exact has a ha
    · exact hrun.within n a ha

/-- After a turn that goes on, the rest of the loop is contained as well. -/
theorem Contained.rest {s t : σ} (h : Contained ok (fun n => loop body n s))
    (ht : (body s).2 = some t) : Contained ok (fun n => loop body n t) := by
  refine ⟨?_, fun n a ha => ?_⟩
  · obtain ⟨n, hn⟩ := h.ends
    cases n with
    | zero => cases hn
    | succ n =>
      rw [loop_turn ht] at hn
      exact ⟨n, hn⟩
  · refine h.within (n + 1) a ?_
    rw [loop_turn ht]
    exact List.mem_append_right _ ha

theorem Contained.here {s : σ} (h : Contained ok (fun n => loop body n s)) :
    ∀ a ∈ (body s).1, ok a := by
  intro a ha
  refine h.within 1 a ?_
  cases ht : (body s).2 with
  | none =>
    rw [loop_last ht]
    exact ha
  | some t =>
    rw [loop_turn ht]
    exact List.mem_append_left _ ha

/-- A loop ends within its bounds just if it takes allowed turns only, and finitely many. -/
theorem contained_loop_iff {s : σ} : Contained ok (fun n => loop body n s) ↔ Tame body ok s := by
  constructor
  · intro h
    obtain ⟨n, hn⟩ := h.ends
    induction n generalizing s with
    | zero => cases hn
    | succ n ih =>
      refine .turn s h.here (fun t ht => ih (h.rest ht) ?_)
      rw [loop_turn ht] at hn
      exact hn
  · intro h
    induction h with
    | turn s here rest ih =>
      cases ht : (body s).2 with
      | none =>
        refine ⟨⟨1, by rw [loop_last ht]⟩, fun n a ha => ?_⟩
        cases n with
        | zero => cases ha
        | succ n =>
          rw [loop_last ht] at ha
          exact here a ha
      | some t =>
        have hrest := ih t ht
        obtain ⟨n, hn⟩ := hrest.ends
        refine ⟨⟨n + 1, by rw [loop_turn ht]; exact hn⟩, fun n a ha => ?_⟩
        cases n with
        | zero => cases ha
        | succ n =>
          rw [loop_turn ht] at ha
          rcases List.mem_append.mp ha with ha | ha
          · exact here a ha
          · exact hrest.within n a ha

theorem tame_iff {s : σ} : Tame body ok s ↔
    (∀ a ∈ (body s).1, ok a) ∧ ∀ t, (body s).2 = some t → Tame body ok t := by
  constructor
  · rintro ⟨_, here, rest⟩
    exact ⟨here, rest⟩
  · rintro ⟨here, rest⟩
    exact .turn s here rest

end ShipServer.LoggedLoops
