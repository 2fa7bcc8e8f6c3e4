import Mathlib

set_option autoImplicit false

/-! Two sequences that are sent in chunks, by turns. -/

namespace ShipServer.InterleavedChunks

variable {α : Type*}

section Reads

variable (size : ℕ)

/-- What a read of `size` items leaves, if it found as many. A shorter read is the last. -/
def rest (xs : List α) : Option (List α) :=
  if (xs.take size).length = size then some (xs.drop size) else none

/-- The number of items, and one for the last read. -/
def weight : Option (List α) → ℕ
  | none => 0
  | some xs => xs.length + 1

theorem rest_eq (xs : List α) :
    rest size xs = if size ≤ xs.length then some (xs.drop size) else none := by
  simp only [rest, List.length_take]
  by_cases h : size ≤ xs.length
  · rw [if_pos (by omega), if_pos h]
  · rw [if_neg (by omega), if_neg h]

theorem weight_rest_lt [NeZero size] (xs : List α) : weight (rest size xs) < weight (some xs) := by
  have hpos := NeZero.pos size
  rw [rest_eq]
  split_ifs
  · simp only [weight, List.length_drop]
    omega
  · exact Nat.succ_pos _

theorem weight_bind_le [NeZero size] (xs : Option (List α)) : weight (xs.bind (rest size)) ≤ weight xs := by
  cases xs with
  | none => exact le_rfl
  | some xs => exact (weight_rest_lt size xs).le

end Reads

/-- A chunk: whether it is of the first sequence, its number and its items. -/
structure Chunk (α : Type*) where
  first : Bool
  number : ℕ
  items : List α

/-- The chunk that is read next. -/
def read (size : ℕ) (first : Bool) (n : ℕ) : Option (List α) → List (Chunk α)
  | none => []
  | some xs => [{ first := first, number := n, items := xs.take size }]

/-- The loop: as long as one of the sequences is not done, a chunk of each that is not. -/
def interleave (size : ℕ) [NeZero size] (n : ℕ) (xs ys : Option (List α)) : List (Chunk α) :=
  if _h : xs = none ∧ ys = none then []
  else
    read size true n xs ++ read size false n ys ++
      interleave size (n + 1) (xs.bind (rest size)) (ys.bind (rest size))
termination_by weight xs + weight ys
decreasing_by
  have hxs := weight_bind_le size xs
  have hys := weight_bind_le size ys
  cases xs with
  | some xs =>
    have hlt := weight_rest_lt size xs
    change weight (rest size xs) + _ < _
    omega
  | none =>
    cases ys with
    | some ys =>
      have hlt := weight_rest_lt size ys
      change _ + weight (rest size ys) < _
      omega
    | none => exact absurd ⟨rfl, rfl⟩ _h

/-- The chunks of one sequence. -/
def chunks (size : ℕ) [NeZero size] (xs : List α) : List (List α) :=
  xs.take size :: if size ≤ xs.length then chunks size (xs.drop size) else []
termination_by xs.length
decreasing_by
  have hpos := NeZero.pos size
  rw [List.length_drop]
  omega

section Chunks

variable (size : ℕ) [NeZero size]

theorem flatten_chunks (xs : List α) : (chunks size xs).flatten = xs := by
  induction xs using chunks.induct size with
  | case1 xs ih =>
    rw [chunks, List.flatten_cons]
    by_cases h : size ≤ xs.length
    · rw [if_pos h, ih h, List.take_append_drop]
    · rw [if_neg h, List.flatten_nil, List.append_nil, List.take_of_length_le (by omega)]

theorem length_chunks (xs : List α) : (chunks size xs).length = xs.length / size + 1 := by
  have hpos := NeZero.pos size
  induction xs using chunks.induct size with
  | case1 xs ih =>
    rw [chunks, List.length_cons]
    by_cases h : size ≤ xs.length
    · rw [if_pos h, ih h, List.length_drop, Nat.div_eq_sub_div hpos h]
    · rw [if_neg h, Nat.div_eq_of_lt (by omega)]
      rfl

/-- All chunks but the last are full. -/
theorem length_of_mem_dropLast_chunks (xs : List α) :
    ∀ c ∈ (chunks size xs).dropLast, c.length = size := by
  induction xs using chunks.induct size with
  | case1 xs ih =>
    intro c hc
    rw [chunks] at hc
    by_cases h : size ≤ xs.length
    · have hne : chunks size (xs.drop size) ≠ [] := by
        rw [chunks]
        exact List.cons_ne_nil _ _
      rw [if_pos h, List.dropLast_cons_of_ne_nil hne] at hc
      rcases List.mem_cons.mp hc with rfl | hin
      · rw [List.length_take]
        omega
      · exact ih h c hin
    · rw [if_neg h] at hc
      cases hc

theorem length_le_of_mem_chunks {xs c : List α} (hc : c ∈ chunks size xs) : c.length ≤ size := by
  induction xs using chunks.induct size with
  | case1 xs ih =>
    rw [chunks] at hc
    rcases List.mem_cons.mp hc with rfl | hin
    · rw [List.length_take]
      exact Nat.min_le_left _ _
    · by_cases h : size ≤ xs.length
      · rw [if_pos h] at hin
        exact ih h hin
      · rw [if_neg h] at hin
        cases hin

/-- The chunks of a sequence that may be done. -/
def chunksOf : Option (List α) → List (List α)
  | none => []
  | some xs => chunks size xs

theorem chunksOf_some (xs : List α) :
    chunksOf size (some xs) = xs.take size :: chunksOf size (rest size xs) := by
  rw [rest_eq]
  change chunks size xs = _
  rw [chunks]
  split_ifs <;> rfl

/-- The loop sends of each sequence its chunks, with numbers that count up. -/
theorem filter_interleave (first : Bool) (n : ℕ) (xs ys : Option (List α)) :
    (interleave size n xs ys).filter (fun c => c.first = first) =
      ((chunksOf size (if first then xs else ys)).zipIdx n).map fun x =>
        { first := first, number := x.2, items := x.1 } := by
  induction n, xs, ys using interleave.induct size with
  | case1 n xs ys h =>
    obtain ⟨rfl, rfl⟩ := h
    rw [interleave, dif_pos ⟨rfl, rfl⟩]
    cases first <;> rfl
  | case2 n xs ys h ih =>
    rw [interleave, dif_neg h, List.filter_append, ih, List.filter_append]
    cases first with
    | true =>
      have hother : (read size false n ys).filter (fun c => c.first = true) = [] := by
        cases ys <;> rfl
      rw [hother, List.append_nil]
      cases xs with
      | none => rfl
      | some xs =>
        rw [if_pos rfl, if_pos rfl, chunksOf_some, List.zipIdx_cons, List.map_cons]
        rfl
    | false =>
      have hother : (read size true n xs).filter (fun c => c.first = false) = [] := by
        cases xs <;> rfl
      rw [hother, List.nil_append]
      cases ys with
      | none => rfl
      | some ys =>
        rw [if_neg (by decide), if_neg (by decide), chunksOf_some, List.zipIdx_cons, List.map_cons]
        rfl

end Chunks

end ShipServer.InterleavedChunks
