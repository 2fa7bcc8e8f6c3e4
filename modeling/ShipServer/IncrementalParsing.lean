import Mathlib

set_option autoImplicit false

namespace ShipServer.IncrementalParsing

variable {S α β : Type*}

/-- What a parser does with the input at hand: wait for more of it, put out an item and go on with
the rest, or stop. -/
inductive Turn (S α β : Type*) where
  | wait (s : S)
  | emit (s : S) (out : β) (rest : List α)
  | halt (s : S) (outs : List β) (rest : List α)

/-- The end of a pass: the items put out, the state, the input that is left, and whether the
parser has stopped. -/
structure Outcome (S α β : Type*) where
  outs : List β
  state : S
  rest : List α
  halted : Bool

def Outcome.prepend (bs : List β) (o : Outcome S α β) : Outcome S α β :=
  { o with outs := bs ++ o.outs }

/-- A pass over the input at hand, of at most `n` turns. -/
def pass (turn : S → List α → Turn S α β) : ℕ → S → List α → Option (Outcome S α β)
  | 0, _, _ => none
  | n + 1, s, d =>
    match turn s d with
    | .wait s' => some ⟨[], s', d, false⟩
    | .emit s' b rest => (pass turn n s' rest).map (Outcome.prepend [b])
    | .halt s' bs rest => some ⟨bs, s', rest, true⟩

variable {turn : S → List α → Turn S α β}

/-- The passes of a parser, without a bound on the turns. -/
inductive Pass (turn : S → List α → Turn S α β) : S → List α → Outcome S α β → Prop where
  | wait {s s' : S} {d : List α} (taken : turn s d = .wait s') : Pass turn s d ⟨[], s', d, false⟩
  | emit {s s' : S} {d rest : List α} {b : β} {o : Outcome S α β}
      (taken : turn s d = .emit s' b rest) (more : Pass turn s' rest o) :
      Pass turn s d (o.prepend [b])
  | halt {s s' : S} {d rest : List α} {bs : List β} (taken : turn s d = .halt s' bs rest) :
      Pass turn s d ⟨bs, s', rest, true⟩

theorem pass_sound {n : ℕ} {s : S} {d : List α} {o : Outcome S α β}
    (h : pass turn n s d = some o) : Pass turn s d o := by
  induction n generalizing s d o with
  | zero => cases h
  | succ n ih =>
    rw [pass] at h
    cases hturn : turn s d with
    | wait s' =>
      rw [hturn] at h
      cases h
      exact .wait hturn
    | emit s' b rest =>
      rw [hturn] at h
      obtain ⟨o', ho', rfl⟩ := Option.map_eq_some_iff.mp h
      exact .emit hturn (ih ho')
    | halt s' bs rest =>
      rw [hturn] at h
      cases h
      exact .halt hturn

/-- Enough turns are as good as no bound. -/
theorem Pass.complete {s : S} {d : List α} {o : Outcome S α β} (h : Pass turn s d o) :
    ∃ n, pass turn n s d = some o := by
  induction h with
  | wait taken =>
    refine ⟨1, ?_⟩
    rw [pass, taken]
  | emit taken _ ih =>
    obtain ⟨n, hn⟩ := ih
    refine ⟨n + 1, ?_⟩
    rw [pass, taken]
    exact congrArg (Option.map (Outcome.prepend [_])) hn
  | halt taken =>
    refine ⟨1, ?_⟩
    rw [pass, taken]

theorem Pass.unique {s : S} {d : List α} {o o' : Outcome S α β} (h : Pass turn s d o)
    (h' : Pass turn s d o') : o = o' := by
  induction h generalizing o' with
  | wait taken =>
    cases h' with
    | wait taken' =>
      rw [taken] at taken'
      cases taken'
      rfl
    | emit taken' _ =>
      rw [taken] at taken'
      cases taken'
    | halt taken' =>
      rw [taken] at taken'
      cases taken'
  | emit taken _ ih =>
    cases h' with
    | wait taken' =>
      rw [taken] at taken'
      cases taken'
    | emit taken' more' =>
      rw [taken] at taken'
      cases taken'
      rw [ih more']
    | halt taken' =>
      rw [taken] at taken'
      cases taken'
  | halt taken =>
    cases h' with
    | wait taken' =>
      rw [taken] at taken'
      cases taken'
    | emit taken' _ =>
      rw [taken] at taken'
      cases taken'
    | halt taken' =>
      rw [taken] at taken'
      cases taken'
      rfl

/-- More input changes no turn that did not wait, and one that did can be taken again from where
it stopped. -/
structure Resumable (turn : S → List α → Turn S α β) : Prop where
  wait : ∀ {s s' d} e, turn s d = .wait s' → turn s (d ++ e) = turn s' (d ++ e)
  emit : ∀ {s s' d b rest} e, turn s d = .emit s' b rest →
    turn s (d ++ e) = .emit s' b (rest ++ e)
  halt : ∀ {s s' d bs rest} e, turn s d = .halt s' bs rest →
    turn s (d ++ e) = .halt s' bs (rest ++ e)

theorem Pass.of_turn_eq {s s' : S} {d : List α} {o : Outcome S α β} (h : Pass turn s d o)
    (hturn : turn s' d = turn s d) : Pass turn s' d o := by
  cases h with
  | wait taken => exact .wait (hturn.trans taken)
  | emit taken more => exact .emit (hturn.trans taken) more
  | halt taken => exact .halt (hturn.trans taken)

/-- A pass over the first part of an input, and one over what it left together with the second
part, are a pass over the whole input. -/
theorem Pass.resume (hres : Resumable turn) {s : S} {d e : List α} {o o' : Outcome S α β}
    (h : Pass turn s d o) (hgoes : o.halted = false) (h' : Pass turn o.state (o.rest ++ e) o') :
    Pass turn s (d ++ e) (o'.prepend o.outs) := by
  induction h with
  | wait taken => exact h'.of_turn_eq (hres.wait e taken)
  | emit taken more ih => exact .emit (hres.emit e taken) (ih hgoes h')
  | halt taken => cases hgoes

/-- The states and inputs that a pass comes through. -/
inductive Reaches (turn : S → List α → Turn S α β) : S → List α → S → List α → Prop where
  | here (s : S) (d : List α) : Reaches turn s d s d
  | emit {s s' t : S} {d rest f : List α} {b : β} (taken : turn s d = .emit s' b rest)
      (more : Reaches turn s' rest t f) : Reaches turn s d t f

theorem Reaches.append (hres : Resumable turn) {s t : S} {d f : List α}
    (h : Reaches turn s d t f) (e : List α) : Reaches turn s (d ++ e) t (f ++ e) := by
  induction h with
  | here s d => exact .here s (d ++ e)
  | emit taken _ ih => exact .emit (hres.emit e taken) ih

/-- What every emitted item preserves holds wherever a pass comes to. -/
theorem Reaches.invariant (I : S → List α → Prop) {s t : S} {d f : List α}
    (h : Reaches turn s d t f) (hs : I s d)
    (hemit : ∀ s d s' b rest, I s d → turn s d = .emit s' b rest → I s' rest) : I t f := by
  induction h with
  | here _ _ => exact hs
  | emit taken _ ih => exact ih (hemit _ _ _ _ _ hs taken)

/-- A pass ends with a turn that does not emit, at a place that it comes to. -/
theorem Pass.last {s : S} {d : List α} {o : Outcome S α β} (h : Pass turn s d o) :
    ∃ t f, Reaches turn s d t f ∧
      ((o.halted = false ∧ turn t f = .wait o.state ∧ o.rest = f) ∨
        (o.halted = true ∧ ∃ bs, turn t f = .halt o.state bs o.rest)) := by
  induction h with
  | wait taken => exact ⟨_, _, .here _ _, Or.inl ⟨rfl, taken, rfl⟩⟩
  | emit taken _ ih =>
    obtain ⟨t, f, hreach, hlast⟩ := ih
    exact ⟨t, f, .emit taken hreach, hlast⟩
  | halt taken => exact ⟨_, _, .here _ _, Or.inr ⟨rfl, _, taken⟩⟩

/-- A pass ends if every item that it comes to takes some input. -/
theorem pass_total {n : ℕ} {s : S} {d : List α}
    (h : ∀ t f, Reaches turn s d t f → ∀ t' b rest, turn t f = .emit t' b rest →
      rest.length < f.length) (hn : d.length < n) : ∃ o, pass turn n s d = some o := by
  induction n generalizing s d with
  | zero => exact absurd hn (Nat.not_lt_zero _)
  | succ n ih =>
    rw [pass]
    cases hturn : turn s d with
    | wait s' => exact ⟨_, rfl⟩
    | emit s' b rest =>
      have hshort := h s d (.here s d) s' b rest hturn
      obtain ⟨o, ho⟩ := ih (fun t f hreach => h t f (.emit hturn hreach)) (by omega)
      exact ⟨_, congrArg (Option.map (Outcome.prepend [b])) ho⟩
    | halt s' bs rest => exact ⟨_, rfl⟩

/-- A turn that comes back to where it was taken is taken again and again. -/
theorem pass_eq_none_of_loop {s : S} {d : List α} {b : β} (h : turn s d = .emit s b d) (n : ℕ) :
    pass turn n s d = none := by
  induction n with
  | zero => rfl
  | succ n ih =>
    rw [pass, h]
    dsimp only
    rw [ih]
    rfl

/-- Where a pass over the whole input comes to after the first part has been passed over. -/
theorem Reaches.resume (hres : Resumable turn) {s t : S} {d e f : List α} {o : Outcome S α β}
    (h : Pass turn s d o) (hgoes : o.halted = false)
    (hreach : Reaches turn o.state (o.rest ++ e) t f) :
    (t = o.state ∧ f = o.rest ++ e) ∨ Reaches turn s (d ++ e) t f := by
  induction h with
  | wait taken =>
    cases hreach with
    | here _ _ => exact Or.inl ⟨rfl, rfl⟩
    | emit taken' more =>
      right
      exact .emit ((hres.wait e taken).trans taken') more
  | emit taken more ih =>
    rcases ih hgoes hreach with hhere | hthere
    · exact Or.inl hhere
    · exact Or.inr (.emit (hres.emit e taken) hthere)
  | halt taken => cases hgoes

end ShipServer.IncrementalParsing
