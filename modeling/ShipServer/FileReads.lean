import Mathlib

set_option autoImplicit false

/-! Reading a file from front to back and from one place to another. -/

namespace ShipServer.FileReads

variable {B ε α β : Type}

/-- A program that reads a file, with a position in it, and may fail. -/
abbrev Reader (B ε : Type) := StateT ℕ (ReaderT (List B) (Except ε))

/-- `n` elements from a position on, or as many as there are. -/
def slice (file : List B) (p n : ℕ) : List B :=
  (file.drop p).take n

/-- The next `n` elements, or an error where there are not as many. -/
def fread (n : ℕ) (e : ε) : Reader B ε (List B) := fun p file =>
  if p + n ≤ file.length then .ok (slice file p n, p + n) else .error e

/-- A position may be past the end. -/
def fseek (p : ℕ) : Reader B ε Unit := fun _ _ => .ok ((), p)

def skip (n : ℕ) : Reader B ε Unit := fun p _ => .ok ((), p + n)

/-- A test of what has been read. -/
def check (c : Prop) [Decidable c] (e : ε) : Reader B ε Unit :=
  fun p _ => if c then .ok ((), p) else .error e

/-- A loop that keeps what its turns read. -/
def loop (f : ℕ → Reader B ε α) : ℕ → ℕ → Reader B ε (List α)
  | 0, _ => pure []
  | n + 1, i => do
    let a ← f i
    let as ← loop f n (i + 1)
    pure (a :: as)

/-- A program reads something from a position on, and ends at another one. -/
def Yields (file : List B) (r : Reader B ε α) (p : ℕ) (a : α) (q : ℕ) : Prop :=
  r p file = .ok (a, q)

section Rules

variable {file : List B} {p q : ℕ}

theorem yields_pure (x a : α) : Yields (ε := ε) file (pure x) p a q ↔ a = x ∧ q = p := by
  constructor
  · intro h
    cases h
    exact ⟨rfl, rfl⟩
  · rintro ⟨rfl, rfl⟩
    rfl

theorem yields_bind {r : Reader B ε α} {f : α → Reader B ε β} {b : β} :
    Yields file (r >>= f) p b q ↔ ∃ a m, Yields file r p a m ∧ Yields file (f a) m b q := by
  have hbind : (r >>= f) p file = (r p file).bind fun x => f x.1 x.2 file := rfl
  unfold Yields
  rw [hbind]
  cases r p file with
  | error e =>
    constructor
    · intro h
      cases h
    · rintro ⟨a, m, h, -⟩
      cases h
  | ok x =>
    constructor
    · exact fun h => ⟨x.1, x.2, rfl, h⟩
    · rintro ⟨a, m, h, h'⟩
      cases h
      exact h'

theorem yields_fread {n : ℕ} {e : ε} {a : List B} :
    Yields file (fread n e) p a q ↔ p + n ≤ file.length ∧ a = slice file p n ∧ q = p + n := by
  unfold Yields fread
  split
  next h =>
    constructor
    · intro heq
      cases heq
      exact ⟨h, rfl, rfl⟩
    · rintro ⟨-, rfl, rfl⟩
      rfl
  next h =>
    constructor
    · intro heq
      cases heq
    · exact fun hor => absurd hor.1 h

theorem yields_fseek {n : ℕ} {a : Unit} : Yields (ε := ε) file (fseek n) p a q ↔ q = n := by
  constructor
  · intro h
    cases h
    rfl
  · rintro rfl
    rfl

theorem yields_skip {n : ℕ} {a : Unit} : Yields (ε := ε) file (skip n) p a q ↔ q = p + n := by
  constructor
  · intro h
    cases h
    rfl
  · rintro rfl
    rfl

theorem yields_check {c : Prop} [Decidable c] {e : ε} {a : Unit} :
    Yields file (check c e) p a q ↔ c ∧ q = p := by
  unfold Yields check
  split
  next h =>
    constructor
    · intro heq
      cases heq
      exact ⟨h, rfl⟩
    · rintro ⟨-, rfl⟩
      rfl
  next h =>
    constructor
    · intro heq
      cases heq
    · exact fun hand => absurd hand.1 h

/-- A loop reads what its turns read, if each of them ends where the next one starts. -/
theorem yields_loop {f : ℕ → Reader B ε α} {ok : ℕ → Prop} {val : ℕ → α} (pos : ℕ → ℕ)
    (h : ∀ i a m, Yields file (f i) (pos i) a m ↔ ok i ∧ a = val i ∧ m = pos (i + 1)) (n i : ℕ)
    (as : List α) :
    Yields file (loop f n i) (pos i) as q ↔
      (∀ k < n, ok (i + k)) ∧ as = (List.range n).map (fun k => val (i + k)) ∧ q = pos (i + n) := by
  induction n generalizing i as q with
  | zero =>
    rw [loop, yields_pure]
    constructor
    · rintro ⟨rfl, rfl⟩
      exact ⟨fun k hk => absurd hk (Nat.not_lt_zero k), rfl, rfl⟩
    · rintro ⟨-, rfl, rfl⟩
      exact ⟨rfl, rfl⟩
  | succ n ih =>
    have hrange : (List.range (n + 1)).map (fun k => val (i + k)) =
        val i :: (List.range n).map fun k => val (i + 1 + k) := by
      rw [List.range_succ_eq_map, List.map_cons, List.map_map]
      refine congrArg (val i :: ·) (List.map_congr_left fun k _ => ?_)
      exact congrArg val (by omega)
    have hend : i + (n + 1) = i + 1 + n := by omega
    rw [loop, hrange, hend]
    constructor
    · intro hrun
      obtain ⟨a, m, ha, hrun⟩ := yields_bind.1 hrun
      obtain ⟨hok, rfl, rfl⟩ := (h i a m).1 ha
      obtain ⟨rest, m, hrest, hrun⟩ := yields_bind.1 hrun
      obtain ⟨hoks, rfl, rfl⟩ := (ih (i + 1) rest).1 hrest
      obtain ⟨rfl, rfl⟩ := (yields_pure _ _).1 hrun
      refine ⟨fun k hk => ?_, rfl, rfl⟩
      cases k with
      | zero => exact hok
      | succ k =>
        have hk' := hoks k (by omega)
        rwa [Nat.succ_add_eq_add_succ] at hk'
    · rintro ⟨hok, rfl, rfl⟩
      refine yields_bind.2 ⟨val i, pos (i + 1), (h i _ _).2 ⟨hok 0 n.succ_pos, rfl, rfl⟩, ?_⟩
      refine yields_bind.2 ⟨_, _, (ih (i + 1) _).2 ⟨fun k hk => ?_, rfl, rfl⟩, ?_⟩
      · have hk' := hok (k + 1) (by omega)
        rwa [Nat.succ_add_eq_add_succ]
      · exact (yields_pure _ _).2 ⟨rfl, rfl⟩

/-- `n` records of the same size, one after the other. -/
theorem yields_records {size : ℕ} {e : ε} (n : ℕ) (as : List (List B)) :
    Yields file (loop (fun _ => fread size e) n 0) p as q ↔
      (∀ k < n, p + k * size + size ≤ file.length) ∧
        as = (List.range n).map (fun k => slice file (p + k * size) size) ∧ q = p + n * size := by
  have hturn : ∀ i a m, Yields file ((fun _ => fread size e) i : Reader B ε (List B))
      (p + i * size) a m ↔ p + i * size + size ≤ file.length ∧ a = slice file (p + i * size) size ∧
        m = p + (i + 1) * size := by
    intro i a m
    rw [yields_fread, Nat.succ_mul, Nat.add_assoc p]
  have hloop := yields_loop (fun i => p + i * size) hturn n 0 as (q := q)
  simpa only [Nat.zero_mul, Nat.add_zero, Nat.zero_add] using hloop

/-- A loop whose turns start with a jump. -/
theorem yields_loop_seek {f : ℕ → Reader B ε α} {ok : ℕ → Prop} {val : ℕ → α} {stop : ℕ → ℕ}
    (h : ∀ i p a m, Yields file (f i) p a m ↔ ok i ∧ a = val i ∧ m = stop i) (n : ℕ)
    (as : List α) :
    Yields file (loop f (n + 1) 0) p as q ↔
      (∀ k < n + 1, ok k) ∧ as = (List.range (n + 1)).map val ∧ q = stop n := by
  have hloop := yields_loop (fun i => if i = 0 then p else stop (i - 1))
    (fun i a m => (h i _ a m).trans (by rw [if_neg (Nat.succ_ne_zero i), Nat.add_sub_cancel]))
    (n + 1) 0 as (q := q)
  rw [if_pos rfl, if_neg (by omega)] at hloop
  simpa only [Nat.zero_add, Nat.add_sub_cancel] using hloop

theorem le_length_of_slice {l : List B} {n : ℕ} (h : slice file p n = l) (hl : l.length = n)
    (hn : 0 < n) : p + n ≤ file.length := by
  have hlen := congrArg List.length h
  rw [slice, List.length_take, List.length_drop, hl] at hlen
  omega

end Rules

theorem slice_append {e : List B} {p n : ℕ} (h : p + n ≤ e.length) (rest : List B) :
    slice (e ++ rest) p n = slice e p n := by
  rw [slice, slice, List.drop_append_of_le_length (by omega),
    List.take_append_of_le_length (by rw [List.length_drop]; omega)]

/-- A file that starts with the same record many times. -/
theorem slice_repeated {e : List B} {p k : ℕ} (hp : p + k ≤ e.length) (rest : List B) {n i : ℕ}
    (hi : i < n) :
    slice ((List.replicate n e).flatten ++ rest) (i * e.length + p) k = slice e p k := by
  induction n generalizing i with
  | zero => exact absurd hi (Nat.not_lt_zero i)
  | succ n ih =>
    rw [List.replicate_succ, List.flatten_cons, List.append_assoc]
    cases i with
    | zero =>
      rw [Nat.zero_mul, Nat.zero_add]
      exact slice_append hp _
    | succ i =>
      have hpos : (i + 1) * e.length + p = e.length + (i * e.length + p) := by
        rw [Nat.succ_mul]
        omega
      rw [hpos, slice, ← List.drop_drop, List.drop_left]
      exact ih (by omega)

/-- All the errors of a program have a property. -/
def Fails (P : ε → Prop) (r : Reader B ε α) : Prop :=
  ∀ p file e, r p file = .error e → P e

section Errors

variable {P : ε → Prop}

theorem fails_pure (a : α) : Fails (B := B) P (pure a : Reader B ε α) := by
  intro p file e h
  cases h

theorem fails_bind {r : Reader B ε α} {f : α → Reader B ε β} (hr : Fails P r)
    (hf : ∀ a, Fails P (f a)) : Fails P (r >>= f) := by
  intro p file e h
  have hbind : (r >>= f) p file = (r p file).bind fun x => f x.1 x.2 file := rfl
  rw [hbind] at h
  cases hrun : r p file with
  | error e' =>
    rw [hrun] at h
    cases h
    exact hr p file e hrun
  | ok x =>
    rw [hrun] at h
    exact hf x.1 x.2 file e h

theorem fails_fread {n : ℕ} {e : ε} (he : P e) : Fails P (fread n e : Reader B ε (List B)) := by
  intro p file e' h
  unfold fread at h
  split at h
  · cases h
  · cases h
    exact he

theorem fails_fseek (n : ℕ) : Fails P (fseek n : Reader B ε Unit) := by
  intro p file e h
  cases h

theorem fails_skip (n : ℕ) : Fails P (skip n : Reader B ε Unit) := by
  intro p file e h
  cases h

theorem fails_check {c : Prop} [Decidable c] {e : ε} (he : P e) :
    Fails P (check c e : Reader B ε Unit) := by
  intro p file e' h
  unfold check at h
  split at h
  · cases h
  · cases h
    exact he

theorem fails_loop {f : ℕ → Reader B ε α} (hf : ∀ i, Fails P (f i)) (n i : ℕ) :
    Fails P (loop f n i) := by
  induction n generalizing i with
  | zero => exact fails_pure []
  | succ n ih => exact fails_bind (hf i) fun a => fails_bind (ih (i + 1)) fun as => fails_pure _

end Errors

end ShipServer.FileReads
