import Mathlib

set_option autoImplicit false

namespace ShipServer.LimitedScans

variable {α σ : Type*}

/-- A scan that adds what it finds to a state, and stops in the middle when the state is full. -/
def scan (p : α → Bool) (add : σ → α → σ) (full : σ → Bool) : List α → σ → σ × Bool
  | [], s => (s, false)
  | a :: rest, s =>
    if p a then
      if full (add s a) then (add s a, true) else scan p add full rest (add s a)
    else scan p add full rest s

/-- Scans one after another, until one of them has stopped. -/
def scanAll (p : α → Bool) (add : σ → α → σ) (full : σ → Bool) : List (List α) → σ → σ
  | [], s => s
  | as :: rest, s =>
    let found := scan p add full as s
    if found.2 then found.1 else scanAll p add full rest found.1

variable {p : α → Bool} {add : σ → α → σ} {full : σ → Bool} {count : σ → ℕ} {limit : ℕ}

/-- A state is full when it has so many elements. -/
structure Counts (add : σ → α → σ) (full : σ → Bool) (count : σ → ℕ) (limit : ℕ) : Prop where
  add_ : ∀ s a, count (add s a) = count s + 1
  full_ : ∀ s, full s = true ↔ count s = limit

theorem Counts.foldl (h : Counts add full count limit) (as : List α) (s : σ) :
    count (as.foldl add s) = count s + as.length := by
  induction as generalizing s with
  | nil => rfl
  | cons a as ih =>
    rw [List.foldl_cons, ih, h.add_, List.length_cons]
    omega

theorem scan_eq (h : Counts add full count limit) (as : List α) {s : σ} (hs : count s < limit) :
    (scan p add full as s).1 = ((as.filter p).take (limit - count s)).foldl add s ∧
      ((scan p add full as s).2 = true ↔ limit - count s ≤ (as.filter p).length) := by
  induction as generalizing s with
  | nil =>
    rw [List.filter_nil, List.take_nil]
    refine ⟨rfl, iff_of_false Bool.false_ne_true ?_⟩
    rw [List.length_nil]
    omega
  | cons a rest ih =>
    rw [scan]
    by_cases hp : p a = true
    · have hleft : limit - count s = (limit - count (add s a)) + 1 := by
        rw [h.add_]
        omega
      rw [if_pos hp, List.filter_cons_of_pos hp, hleft, List.take_succ_cons, List.foldl_cons,
        List.length_cons, Nat.add_le_add_iff_right]
      by_cases hfull : full (add s a) = true
      · have hlimit := (h.full_ _).mp hfull
        rw [if_pos hfull, hlimit, Nat.sub_self, List.take_zero]
        exact ⟨rfl, iff_of_true rfl (Nat.zero_le _)⟩
      · have hroom : count (add s a) < limit := by
          have hne : count (add s a) ≠ limit := fun heq => hfull ((h.full_ _).mpr heq)
          rw [h.add_] at hne ⊢
          omega
        rw [if_neg hfull]
        exact ih hroom
    · rw [if_neg hp, List.filter_cons_of_neg hp]
      exact ih hs

/-- A scan that stops in the middle leaves a full state, and no other one does. -/
theorem scan_full (h : Counts add full count limit) (as : List α) {s : σ} (hs : count s < limit) :
    count (scan p add full as s).1 ≤ limit ∧
      ((scan p add full as s).2 = true ↔ count (scan p add full as s).1 = limit) := by
  obtain ⟨hstate, hstop⟩ := scan_eq (p := p) h as hs
  have hcount := h.foldl ((as.filter p).take (limit - count s)) s
  rw [List.length_take] at hcount
  rw [hstate, hstop, hcount]
  omega

/-- The scans find the first elements of all the lists together. -/
theorem scanAll_eq (h : Counts add full count limit) (ls : List (List α)) {s : σ}
    (hs : count s < limit) : scanAll p add full ls s =
      ((ls.flatten.filter p).take (limit - count s)).foldl add s := by
  induction ls generalizing s with
  | nil =>
    rw [List.flatten_nil, List.filter_nil, List.take_nil]
    rfl
  | cons as rest ih =>
    obtain ⟨hstate, hstop⟩ := scan_eq (p := p) h as hs
    rw [scanAll, List.flatten_cons, List.filter_append, List.take_append, List.foldl_append]
    by_cases hfull : (scan p add full as s).2 = true
    · have hle := hstop.mp hfull
      rw [if_pos hfull, hstate, Nat.sub_eq_zero_of_le hle, List.take_zero]
      rfl
    · have hlt : (as.filter p).length < limit - count s := not_le.mp fun hle =>
        hfull (hstop.mpr hle)
      rw [List.take_of_length_le hlt.le] at hstate ⊢
      have hcount := h.foldl (as.filter p) s
      have hleft : limit - count ((as.filter p).foldl add s) =
          limit - count s - (as.filter p).length := by
        omega
      rw [if_neg hfull, hstate, ih (by omega), hleft]

/-- What the first elements found are is not changed by a further condition if and only if they
all meet it. -/
theorem take_filter_eq_iff {q : α → Bool} (as : List α) (n : ℕ) :
    (as.filter q).take n = as.take n ↔ ∀ a ∈ as.take n, q a = true := by
  constructor
  · intro heq a ha
    rw [← heq] at ha
    exact (List.mem_filter.mp (List.mem_of_mem_take ha)).2
  · intro hall
    induction as generalizing n with
    | nil => rfl
    | cons a as ih =>
      cases n with
      | zero => rfl
      | succ n =>
        rw [List.take_succ_cons] at hall ⊢
        rw [List.filter_cons_of_pos (hall a List.mem_cons_self), List.take_succ_cons,
          ih n fun b hb => hall b (List.mem_cons_of_mem a hb)]

end ShipServer.LimitedScans
