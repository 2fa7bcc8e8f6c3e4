import Mathlib

set_option autoImplicit false

/-! One name in a directory, the files that it stands for in turn, and the locks on them. -/

namespace ShipServer.LockedFiles

variable {P I C : Type*}

/-- The file that the name stands for, and the owner of the lock and the content of each file. -/
structure Files (P I C : Type*) where
  named : Option I
  lock : I → Option P
  content : I → C

namespace Files

section Locks

variable {f : Files P I C} {p q : P} {i j : I}

/-- The name stands for a file that `p` has locked. -/
def Holds (f : Files P I C) (p : P) (i : I) : Prop :=
  f.named = some i ∧ f.lock i = some p

theorem Holds.unique (hp : f.Holds p i) (hq : f.Holds q j) : p = q := by
  have hsame : i = j := Option.some.inj (hp.1.symm.trans hq.1)
  subst hsame
  exact Option.some.inj (hp.2.symm.trans hq.2)

def unlink (f : Files P I C) : Files P I C :=
  { f with named := none }

end Locks

variable [DecidableEq I]

def create (f : Files P I C) (i : I) (c : C) : Files P I C :=
  { f with named := some i, content := Function.update f.content i c }

def acquire (f : Files P I C) (i : I) (p : P) : Files P I C :=
  { f with lock := Function.update f.lock i (some p) }

def release (f : Files P I C) (i : I) : Files P I C :=
  { f with lock := Function.update f.lock i none }

def write (f : Files P I C) (i : I) (c : C) : Files P I C :=
  { f with content := Function.update f.content i c }

end Files

variable [DecidableEq I]

/-- What a process may do to the files: it makes a file only where there is none, it takes a lock
that is free, it gives up and writes what it has locked, and it removes only the file that it has
locked. -/
inductive Guarded (q : P) (f : Files P I C) : Files P I C → Prop where
  | none : Guarded q f f
  | create (i : I) (c : C) (h : f.named = .none) : Guarded q f (f.create i c)
  | acquire (i : I) (h : f.lock i = .none) : Guarded q f (f.acquire i q)
  | release (i : I) (h : f.lock i = some q) : Guarded q f (f.release i)
  | write (i : I) (c : C) (h : f.lock i = some q) : Guarded q f (f.write i c)
  | unlink (i : I) (h : f.Holds q i) : Guarded q f f.unlink

section Others

variable {f g : Files P I C} {p q : P} {i : I}

/-- The locks of the others stay as they are. -/
theorem Guarded.lock_iff (h : Guarded q f g) (hne : p ≠ q) (j : I) :
    g.lock j = some p ↔ f.lock j = some p := by
  cases h with
  | none => rfl
  | create i c hnone => rfl
  | write i c hlock => rfl
  | unlink i hholds => rfl
  | acquire i hfree =>
    by_cases hj : j = i
    · subst hj
      simp [Files.acquire, hfree, hne.symm]
    · simp [Files.acquire, hj]
  | release i hlock =>
    by_cases hj : j = i
    · subst hj
      simp [Files.release, hlock, hne.symm]
    · simp [Files.release, hj]

/-- What another process holds stays in its hands, and it stays as it is. -/
theorem Guarded.holds (h : Guarded q f g) (hne : p ≠ q) (hp : f.Holds p i) :
    g.Holds p i ∧ g.content i = f.content i := by
  have hlock : g.lock i = some p := (h.lock_iff hne i).2 hp.2
  cases h with
  | none => exact ⟨hp, rfl⟩
  | create j c hnone => exact absurd (hnone.symm.trans hp.1) (Option.some_ne_none i).symm
  | unlink j hq => exact absurd (hp.unique hq) hne
  | acquire j hfree => exact ⟨⟨hp.1, hlock⟩, rfl⟩
  | release j hq => exact ⟨⟨hp.1, hlock⟩, rfl⟩
  | write j c hq =>
    have hdiff : i ≠ j := by
      rintro rfl
      exact hne (Option.some.inj (hp.2.symm.trans hq))
    have hsame : Function.update f.content j c i = f.content i :=
      Function.update_of_ne hdiff c f.content
    exact ⟨⟨hp.1, hlock⟩, hsame⟩

end Others

end ShipServer.LockedFiles
