import Mathlib

set_option autoImplicit false

/-! Tables that are filled level by level, with the place where each level ends, and picks from the
first levels of such a table by the remainder of a number. -/

namespace ShipServer.LevelTables

variable {α β : Type*}

/-- The entries of the levels below `n`, in order. -/
def levels (f : ℕ → List α) (n : ℕ) : List α :=
  (List.range n).flatMap f

section Levels

variable {f : ℕ → List α}

theorem levels_succ (n : ℕ) : levels f (n + 1) = levels f n ++ f n := by
  rw [levels, List.range_succ, List.flatMap_append, List.flatMap_singleton, levels]

theorem levels_initial {m n : ℕ} (h : m ≤ n) : levels f m <+: levels f n := by
  induction n, h using Nat.le_induction with
  | base => exact List.prefix_rfl
  | succ n _ ih =>
    rw [levels_succ]
    exact ih.trans (List.prefix_append _ _)

/-- Where a level ends, exactly the entries up to it have been seen. -/
theorem take_levels {m n : ℕ} (h : m ≤ n) : (levels f n).take (levels f m).length = levels f m :=
  (List.prefix_iff_eq_take.mp (levels_initial h)).symm

theorem mem_levels {n : ℕ} {a : α} : a ∈ levels f n ↔ ∃ i < n, a ∈ f i := by
  rw [levels, List.mem_flatMap]
  exact ⟨fun ⟨i, hi, ha⟩ => ⟨i, List.mem_range.mp hi, ha⟩,
    fun ⟨i, hi, ha⟩ => ⟨i, List.mem_range.mpr hi, ha⟩⟩

/-- No entry stands twice where each stands once in a single level. -/
theorem nodup_levels {rank : α → ℕ} (hlevel : ∀ i, (f i).Nodup) (hrank : ∀ i, ∀ a ∈ f i, rank a = i)
    (n : ℕ) : (levels f n).Nodup := by
  induction n with
  | zero => exact List.nodup_nil
  | succ n ih =>
    rw [levels_succ]
    refine ih.append (hlevel n) fun a hlow hhigh => ?_
    obtain ⟨i, hi, ha⟩ := mem_levels.mp hlow
    have hsame : i = n := (hrank i a ha).symm.trans (hrank n a hhigh)
    omega

theorem map_levels (g : α → β) (n : ℕ) : (levels f n).map g = levels (fun i => (f i).map g) n :=
  List.map_flatMap

/-- Appending what each item gives is one `flatMap`. -/
theorem foldl_append (g : β → List α) (items : List β) (table : List α) :
    items.foldl (fun t b => t ++ g b) table = table ++ items.flatMap g := by
  induction items generalizing table with
  | nil => exact (List.append_nil table).symm
  | cons b items ih => rw [List.foldl_cons, ih, List.flatMap_cons, List.append_assoc]

end Levels

section Filling

/-- A table under construction, with the number of entries at the end of each level. -/
structure Filled (α : Type*) where
  table : List α
  ends : ℕ → ℕ

/-- Filling one level, and noting where it ends. -/
def Filled.fill (f : ℕ → List α) (s : Filled α) (i : ℕ) : Filled α :=
  let table := s.table ++ f i
  ⟨table, Function.update s.ends i table.length⟩

def Filled.fillAll (f : ℕ → List α) (s : Filled α) (n : ℕ) : Filled α :=
  (List.range n).foldl (Filled.fill f) s

variable {f : ℕ → List α} {s : Filled α}

theorem Filled.fillAll_succ (n : ℕ) :
    s.fillAll f (n + 1) = (s.fillAll f n).fill f n := by
  rw [Filled.fillAll, List.range_succ, List.foldl_append, Filled.fillAll, List.foldl_cons,
    List.foldl_nil]

theorem Filled.fillAll_table (n : ℕ) : (s.fillAll f n).table = s.table ++ levels f n := by
  induction n with
  | zero => exact (List.append_nil s.table).symm
  | succ n ih =>
    rw [Filled.fillAll_succ, levels_succ, ← List.append_assoc, ← ih]
    rfl

theorem Filled.fillAll_ends {m n : ℕ} (h : m < n) :
    (s.fillAll f n).ends m = s.table.length + (levels f (m + 1)).length := by
  induction n with
  | zero => omega
  | succ n ih =>
    rw [Filled.fillAll_succ, Filled.fill]
    dsimp only
    rcases Nat.lt_succ_iff_lt_or_eq.mp h with hlow | rfl
    · rw [Function.update_of_ne hlow.ne, ih hlow]
    · rw [Function.update_self, Filled.fillAll_table, List.append_assoc, ← levels_succ,
        List.length_append]

/-- The part of a filled table up to the end of a level. -/
theorem Filled.take_ends {m n : ℕ} (h : m < n) :
    (s.fillAll f n).table.take ((s.fillAll f n).ends m) = s.table ++ levels f (m + 1) := by
  rw [Filled.fillAll_ends h, Filled.fillAll_table, List.take_length_add_append, take_levels h]

end Filling

section Picks

/-- How many of the numbers below `total` leave the remainder `i`. -/
def picks (total n i : ℕ) : ℕ :=
  ((Finset.range total).filter fun r => r % n = i).card

theorem picks_eq {total n i : ℕ} (hi : i < n) :
    picks total n i = total / n + if i < total % n then 1 else 0 := by
  have hcount := Nat.count_modEq_card total (by omega : 0 < n) i
  rw [Nat.count_eq_card_filter_range, Nat.mod_eq_of_lt hi] at hcount
  rw [picks, ← hcount]
  congr 1
  refine Finset.filter_congr fun r _ => ?_
  rw [Nat.ModEq, Nat.mod_eq_of_lt hi]

/-- Two remainders differ by one number at most. -/
theorem picks_le {total n i j : ℕ} (hi : i < n) (hj : j < n) :
    picks total n i ≤ picks total n j + 1 := by
  rw [picks_eq hi, picks_eq hj]
  split_ifs <;> omega

end Picks

end ShipServer.LevelTables
