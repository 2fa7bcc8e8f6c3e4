import ShipServer.TracedReads

set_option autoImplicit false

/-! Reading a text unit by unit from a buffer, with whatever follows the text in memory. -/

namespace ShipServer.StringReads

open TracedReads Probe

variable {B : Type}

/-- A memory that starts with a text. -/
def memory (l : List B) (junk : ℕ → B) : ℕ → B :=
  fun i => l.getD i (junk i)

/-- The units from `i` on as long as they have a property, at most `n`. The unit at which the loop
stops is read, too. -/
def readWhile (p : B → Bool) : ℕ → ℕ → Probe ℕ B (List B)
  | 0, i => do
    let _ ← cell i
    pure []
  | n + 1, i => do
    let b ← cell i
    if p b = true then do
      let s ← readWhile p n (i + 1)
      pure (b :: s)
    else pure []

/-- What the loop passes over. -/
def span (p : B → Bool) (n i : ℕ) (l : List B) : List B :=
  ((l.drop i).takeWhile p).take n

section Loops

variable (p : B → Bool) (l : List B) (junk : ℕ → B)

theorem memory_of_drop {l : List B} {i : ℕ} {b : B} {r : List B} (h : l.drop i = b :: r) :
    memory l junk i = b := by
  have hget : l[i]? = some b := by
    rw [← List.head?_drop, h]
    rfl
  rw [memory, List.getD_eq_getElem?_getD, hget]
  rfl

theorem drop_succ_of_drop {l : List B} {i : ℕ} {b : B} {r : List B} (h : l.drop i = b :: r) :
    l.drop (i + 1) = r := by
  rw [← List.drop_drop, h]
  rfl

theorem lt_of_drop {l : List B} {i : ℕ} {b : B} {r : List B} (h : l.drop i = b :: r) :
    i < l.length := by
  have hlen := congrArg List.length h
  rw [List.length_drop, List.length_cons] at hlen
  omega

theorem span_cons_pos {l : List B} {n i : ℕ} {b : B} {r : List B} (h : l.drop i = b :: r)
    (hb : p b = true) : span p (n + 1) i l = b :: span p n (i + 1) l := by
  rw [span, span, drop_succ_of_drop h, h, List.takeWhile_cons, if_pos hb]
  rfl

theorem span_cons_neg {l : List B} {n i : ℕ} {b : B} {r : List B} (h : l.drop i = b :: r)
    (hb : ¬p b = true) : span p (n + 1) i l = [] := by
  rw [span, h, List.takeWhile_cons, if_neg hb]
  rfl

theorem result_readWhile (n i : ℕ) (h : i + (span p n i l).length < l.length) :
    (readWhile p n i).result (memory l junk) = span p n i l := by
  induction n generalizing i with
  | zero => rfl
  | succ n ih =>
    cases hd : l.drop i with
    | nil =>
      have hle := List.drop_eq_nil_iff.mp hd
      omega
    | cons b r =>
      rw [readWhile, result_bind, result_cell, memory_of_drop junk hd, result_ite]
      by_cases hb : p b = true
      · rw [span_cons_pos p hd hb] at h ⊢
        rw [if_pos hb, result_bind, ih (i + 1) (by rw [List.length_cons] at h; omega)]
        rfl
      · rw [span_cons_neg p hd hb, if_neg hb]
        rfl

theorem reads_readWhile (n i : ℕ) (h : i + (span p n i l).length < l.length) :
    (readWhile p n i).reads (memory l junk) = List.range' i ((span p n i l).length + 1) := by
  induction n generalizing i with
  | zero => rfl
  | succ n ih =>
    cases hd : l.drop i with
    | nil =>
      have hle := List.drop_eq_nil_iff.mp hd
      omega
    | cons b r =>
      rw [readWhile, reads_bind, reads_cell, result_cell, memory_of_drop junk hd, reads_ite]
      by_cases hb : p b = true
      · rw [span_cons_pos p hd hb] at h ⊢
        rw [if_pos hb, reads_bind, ih (i + 1) (by rw [List.length_cons] at h; omega)]
        exact congrArg (i :: ·) (List.append_nil _)
      · rw [span_cons_neg p hd hb, if_neg hb]
        rfl

/-- A loop that does not stop in the text runs out of it. -/
theorem reads_outside (n i : ℕ) (h : l.length ≤ i + (span p n i l).length) :
    ∃ j ∈ (readWhile p n i).reads (memory l junk), l.length ≤ j := by
  induction n generalizing i with
  | zero => exact ⟨i, List.mem_singleton_self i, h⟩
  | succ n ih =>
    cases hd : l.drop i with
    | nil =>
      refine ⟨i, ?_, List.drop_eq_nil_iff.mp hd⟩
      rw [readWhile, reads_bind]
      exact List.mem_cons_self
    | cons b r =>
      rw [readWhile, reads_bind, reads_cell, result_cell, memory_of_drop junk hd, reads_ite]
      by_cases hb : p b = true
      · rw [span_cons_pos p hd hb, List.length_cons] at h
        obtain ⟨j, hj, hout⟩ := ih (i + 1) (by omega)
        rw [if_pos hb, reads_bind]
        exact ⟨j, List.mem_append_right [i] (List.mem_append_left _ hj), hout⟩
      · rw [span_cons_neg p hd hb] at h
        exact absurd h (Nat.not_le.mpr (lt_of_drop hd))

theorem inside_readWhile (n i : ℕ) :
    (∀ j ∈ (readWhile p n i).reads (memory l junk), j < l.length) ↔
      i + (span p n i l).length < l.length := by
  constructor
  · intro h
    by_contra hle
    obtain ⟨j, hj, hout⟩ := reads_outside p l junk n i (Nat.le_of_not_lt hle)
    exact absurd (h j hj) (Nat.not_lt.mpr hout)
  · intro h j hj
    rw [reads_readWhile p l junk n i h, List.mem_range'_1] at hj
    omega

end Loops

section Spans

variable {p : B → Bool} {l : List B}

theorem length_takeWhile_lt {d : List B} {b : B} (hb : b ∈ d) (hp : ¬p b = true) :
    (d.takeWhile p).length < d.length := by
  induction d with
  | nil => cases hb
  | cons x d ih =>
    rw [List.takeWhile_cons]
    by_cases hx : p x = true
    · rw [if_pos hx, List.length_cons, List.length_cons]
      rcases List.mem_cons.mp hb with rfl | hin
      · exact absurd hx hp
      · exact Nat.succ_lt_succ (ih hin)
    · rw [if_neg hx]
      exact Nat.succ_pos _

theorem span_lt_of_mem {n i : ℕ} {b : B} (hb : b ∈ l.drop i) (hp : ¬p b = true) :
    i + (span p n i l).length < l.length := by
  have hlt := length_takeWhile_lt hb hp
  have hle := List.length_take_le n ((l.drop i).takeWhile p)
  have htake := List.length_take_le' n ((l.drop i).takeWhile p)
  rw [List.length_drop] at hlt
  rw [span]
  omega

theorem mem_span {n i : ℕ} {b : B} (h : b ∈ span p n i l) : p b = true :=
  List.mem_takeWhile_imp (List.mem_of_mem_take h)

theorem length_span_le (n i : ℕ) : (span p n i l).length ≤ n :=
  List.length_take_le n _

theorem drop_eq_span_append (n i : ℕ) :
    l.drop i = span p n i l ++ l.drop (i + (span p n i l).length) := by
  have htake : span p n i l <+: (l.drop i).takeWhile p := List.take_prefix n _
  have hwhile : (l.drop i).takeWhile p <+: l.drop i := List.takeWhile_prefix p
  obtain ⟨r, hr⟩ := htake.trans hwhile
  rw [← List.drop_drop, ← hr, List.drop_left, hr]

theorem span_eq_drop {n i : ℕ} (h : ∀ b ∈ l.drop i, p b = true) (hn : l.length ≤ i + n) :
    span p n i l = l.drop i := by
  rw [span, List.takeWhile_eq_self_iff.mpr h]
  refine List.take_of_length_le ?_
  rw [List.length_drop]
  omega

/-- The text of a string is what stands before its end. -/
theorem span_append {s : List B} {e : B} {n : ℕ} (hs : ∀ b ∈ s, p b = true) (he : ¬p e = true)
    (hn : s.length ≤ n) : span p n 0 (s ++ [e]) = s := by
  rw [span, List.drop_zero, List.takeWhile_append_of_pos hs, List.takeWhile_cons, if_neg he,
    List.append_nil]
  exact List.take_of_length_le hn

end Spans

end ShipServer.StringReads
