import Mathlib

set_option autoImplicit false

namespace ShipServer.RecordStreams

variable {α β ι : Type*}

/-- The first `n` records of `size` items, and what follows them. -/
def readRecords (size : ℕ) : ℕ → List α → Option (List (List α) × List α)
  | 0, xs => some ([], xs)
  | n + 1, xs =>
    if xs.length < size then none
    else (readRecords size n (xs.drop size)).map fun r => (xs.take size :: r.1, r.2)

theorem readRecords_flatten {size : ℕ} {rs : List (List α)} (h : ∀ r ∈ rs, r.length = size)
    (xs : List α) : readRecords size rs.length (rs.flatten ++ xs) = some (rs, xs) := by
  induction rs with
  | nil => rfl
  | cons r rs ih =>
    have hr : r.length = size := h r List.mem_cons_self
    have hrest := ih fun s hs => h s (List.mem_cons_of_mem r hs)
    rw [List.flatten_cons, List.append_assoc, List.length_cons, readRecords]
    rw [if_neg (by rw [List.length_append]; omega), List.drop_append_of_le_length hr.ge,
      List.drop_of_length_le hr.le, List.nil_append, hrest,
      List.take_append_of_le_length hr.ge, List.take_of_length_le hr.le]
    rfl

/-- A read takes its records off the front. -/
theorem readRecords_length {size n : ℕ} {xs ys : List α} {rs : List (List α)}
    (h : readRecords size n xs = some (rs, ys)) :
    rs.length = n ∧ xs.length = size * n + ys.length := by
  induction n generalizing xs rs with
  | zero =>
    cases h
    simp
  | succ n ih =>
    rw [readRecords] at h
    split_ifs at h with hshort
    obtain ⟨⟨rs', ys'⟩, hrest, heq⟩ := Option.map_eq_some_iff.mp h
    cases heq
    obtain ⟨hlength, hsum⟩ := ih hrest
    rw [List.length_drop] at hsum
    rw [List.length_cons, hlength, Nat.mul_succ]
    omega

/-- What the last element contributes. -/
def ofLast (f : α → List β) (xs : List α) : List β :=
  (xs.getLast?.map f).getD []

theorem flatMap_eq (f : α → List β) (xs : List α) :
    xs.flatMap f = xs.dropLast.flatMap f ++ ofLast f xs := by
  rcases List.eq_nil_or_concat xs with rfl | ⟨ys, y, rfl⟩
  · rfl
  · simp [ofLast]

theorem ofLast_eq_of_nil {f : α → List β} {xs : List α} (h : ∀ x ∈ xs.dropLast, f x = []) :
    ofLast f xs = xs.flatMap f := by
  rw [flatMap_eq, List.flatMap_eq_nil_iff.mpr h, List.nil_append]

theorem length_ofLast_le (f : α → List β) (xs : List α) :
    (ofLast f xs).length ≤ (xs.flatMap f).length := by
  rw [flatMap_eq f xs, List.length_append]
  omega

/-- If the last element contributes as much as all do, the others contribute nothing. -/
theorem nil_of_length_ofLast {f : α → List β} {xs : List α}
    (h : (xs.flatMap f).length ≤ (ofLast f xs).length) : ∀ x ∈ xs.dropLast, f x = [] := by
  rw [flatMap_eq f xs, List.length_append] at h
  have hnone : (xs.dropLast.flatMap f).length = 0 := by omega
  exact List.flatMap_eq_nil_iff.mp (List.eq_nil_of_length_eq_zero hnone)

theorem length_flatMap_le {f g : ι → List β} (is : List ι)
    (hle : ∀ i, (g i).length ≤ (f i).length) : (is.flatMap g).length ≤ (is.flatMap f).length := by
  induction is with
  | nil => exact le_rfl
  | cons j js ih =>
    have hj := hle j
    simp only [List.flatMap_cons, List.length_append]
    omega

/-- A list that is no longer in total than one it is nowhere longer than is as long everywhere. -/
theorem length_eq_of_flatMap {f g : ι → List β} (is : List ι)
    (hle : ∀ i, (g i).length ≤ (f i).length)
    (h : (is.flatMap f).length ≤ (is.flatMap g).length) :
    ∀ i ∈ is, (f i).length ≤ (g i).length := by
  induction is with
  | nil => nofun
  | cons j js ih =>
    have hrest := length_flatMap_le js hle
    have hj := hle j
    simp only [List.flatMap_cons, List.length_append] at h
    intro i hi
    rcases List.mem_cons.mp hi with rfl | hmem
    · omega
    · exact ih (by omega) i hmem

/-- If the last elements contribute as much as all do, the others contribute nothing. -/
theorem nil_of_length_flatMap {f : α → List β} {xs : ι → List α} (is : List ι)
    (h : (is.flatMap fun i => (xs i).flatMap f).length ≤
      (is.flatMap fun i => ofLast f (xs i)).length) :
    ∀ i ∈ is, ∀ x ∈ (xs i).dropLast, f x = [] := by
  intro i hi
  apply nil_of_length_ofLast
  exact length_eq_of_flatMap is (fun j => length_ofLast_le f (xs j)) h i hi

end ShipServer.RecordStreams
