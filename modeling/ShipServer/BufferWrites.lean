import Mathlib

set_option autoImplicit false

/-! Packets that are written into a buffer that is used again and again. -/

namespace ShipServer.BufferWrites

/-- Some bytes that are put at a place of a buffer. -/
structure Write (B : Type*) where
  offset : ℕ
  bytes : List B

variable {B : Type*}

namespace Write

def Covers (w : Write B) (p : ℕ) : Prop :=
  w.offset ≤ p ∧ p < w.offset + w.bytes.length

/-- The bytes, moved to a later place. -/
def shift (w : Write B) (n : ℕ) : Write B where
  offset := n + w.offset
  bytes := w.bytes

def apply (w : Write B) (buf : ℕ → B) (p : ℕ) : B :=
  if w.offset ≤ p then w.bytes[p - w.offset]?.getD (buf p) else buf p

theorem covers_shift {w : Write B} {n r : ℕ} : (w.shift n).Covers (n + r) ↔ w.Covers r := by
  simp only [Covers, shift]
  omega

theorem apply_of_covers {w : Write B} {p : ℕ} (h : w.Covers p) (buf buf' : ℕ → B) :
    w.apply buf p = w.apply buf' p := by
  have hlt : p - w.offset < w.bytes.length := by
    have := h.1
    have := h.2
    omega
  rw [apply, apply, if_pos h.1, if_pos h.1, List.getElem?_eq_getElem hlt]
  rfl

theorem apply_of_not_covers {w : Write B} {p : ℕ} (h : ¬w.Covers p) (buf : ℕ → B) :
    w.apply buf p = buf p := by
  rw [apply]
  split_ifs with hle
  · rw [List.getElem?_eq_none]
    · rfl
    · by_contra hlt
      exact h ⟨hle, by omega⟩
  · rfl

end Write

/-- The buffer after some writes. -/
def after (ws : List (Write B)) (buf : ℕ → B) : ℕ → B :=
  ws.foldl (fun buf w => w.apply buf) buf

/-- What is sent: the beginning of the buffer. -/
def packet (ws : List (Write B)) (len : ℕ) (buf : ℕ → B) : List B :=
  (List.range len).map (after ws buf)

def Covered (ws : List (Write B)) (p : ℕ) : Prop :=
  ∃ w ∈ ws, w.Covers p

/-- All writes stay inside the buffer. -/
def Inside (size : ℕ) (ws : List (Write B)) : Prop :=
  ∀ w ∈ ws, w.offset + w.bytes.length ≤ size

theorem covered_nil {p : ℕ} : ¬Covered ([] : List (Write B)) p := by
  rintro ⟨w, hw, -⟩
  cases hw

theorem covered_cons {w : Write B} {ws : List (Write B)} {p : ℕ} :
    Covered (w :: ws) p ↔ w.Covers p ∨ Covered ws p := by
  simp [Covered]

theorem covered_append {ws vs : List (Write B)} {p : ℕ} :
    Covered (ws ++ vs) p ↔ Covered ws p ∨ Covered vs p := by
  induction ws with
  | nil => exact (or_iff_right covered_nil).symm
  | cons w ws ih => rw [List.cons_append, covered_cons, covered_cons, ih, or_assoc]

theorem inside_append {size : ℕ} {ws vs : List (Write B)} :
    Inside size (ws ++ vs) ↔ Inside size ws ∧ Inside size vs :=
  List.forall_mem_append

theorem inside_cons {size : ℕ} {w : Write B} {ws : List (Write B)} :
    Inside size (w :: ws) ↔ w.offset + w.bytes.length ≤ size ∧ Inside size ws :=
  List.forall_mem_cons

theorem after_of_not_covered {ws : List (Write B)} {p : ℕ} (h : ¬Covered ws p) (buf : ℕ → B) :
    after ws buf p = buf p := by
  induction ws generalizing buf with
  | nil => rfl
  | cons w ws ih =>
    rw [covered_cons, not_or] at h
    change after ws (w.apply buf) p = buf p
    rw [ih h.2, Write.apply_of_not_covers h.1]

/-- A byte that is written somewhere does not depend on what was there. -/
theorem after_of_covered {ws : List (Write B)} {p : ℕ} (h : Covered ws p) (buf buf' : ℕ → B) :
    after ws buf p = after ws buf' p := by
  induction ws generalizing buf buf' with
  | nil => exact absurd h covered_nil
  | cons w ws ih =>
    change after ws (w.apply buf) p = after ws (w.apply buf') p
    by_cases hws : Covered ws p
    · exact ih hws _ _
    · rw [after_of_not_covered hws, after_of_not_covered hws]
      exact Write.apply_of_covers ((covered_cons.mp h).resolve_right hws) buf buf'

/-- A packet does not depend on earlier ones exactly when each of its bytes is written. -/
theorem packet_eq_iff [Nontrivial B] (ws : List (Write B)) (len : ℕ) :
    (∀ buf buf', packet ws len buf = packet ws len buf') ↔ ∀ p < len, Covered ws p := by
  constructor
  · intro h p hp
    by_contra hcovered
    obtain ⟨a, b, hab⟩ := exists_pair_ne B
    have hbytes := congrArg (fun bytes => bytes[p]?) (h (fun _ => a) fun _ => b)
    simp only [packet, List.getElem?_map, List.getElem?_range hp, Option.map_some,
      Option.some_inj] at hbytes
    rw [after_of_not_covered hcovered, after_of_not_covered hcovered] at hbytes
    exact hab hbytes
  · intro h buf buf'
    refine List.map_congr_left fun p hp => ?_
    exact after_of_covered (h p (List.mem_range.mp hp)) buf buf'

/-- An entry of a list: the entry that is cleared for it, and its fields. -/
structure Slot (B : Type*) where
  clearAt : ℕ
  fields : List (Write B)

/-- Where the entries of a list are: the place of the first one, the distance between them, and
how much of each is cleared. -/
structure Layout where
  base : ℕ
  stride : ℕ
  clearLen : ℕ

namespace Layout

variable {L : Layout} {zero : B} {p r k k₀ : ℕ}

def place (L : Layout) (k : ℕ) : ℕ :=
  L.base + L.stride * k

def clear (L : Layout) (zero : B) (k : ℕ) : Write B where
  offset := L.place k
  bytes := List.replicate L.clearLen zero

/-- Entries that are written from number `k` on. -/
def writes (L : Layout) (zero : B) : ℕ → List (Slot B) → List (Write B)
  | _, [] => []
  | k, s :: ss =>
    L.clear zero s.clearAt :: (s.fields.map fun f => f.shift (L.place k)) ++
      L.writes zero (k + 1) ss

theorem place_succ (L : Layout) (k : ℕ) : L.place (k + 1) = L.place k + L.stride := by
  rw [place, place, Nat.mul_succ, Nat.add_assoc]

theorem covered_clear {n : ℕ} : (L.clear zero n).Covers p ↔
    L.place n ≤ p ∧ p < L.place n + L.clearLen := by
  rw [Write.Covers, clear, List.length_replicate]

/-- Two places in entries are one only if the entries are. -/
theorem place_add_inj (hr : r < L.stride) {k' r' : ℕ} (hr' : r' < L.stride)
    (h : L.place k + r = L.place k' + r') : k = k' ∧ r = r' := by
  have hmul : L.stride * k + r = L.stride * k' + r' := by
    rw [place, place] at h
    omega
  have hk : k = k' := by
    have hdiv := congrArg (· / L.stride) hmul
    simpa [Nat.mul_add_div (by omega : 0 < L.stride), Nat.div_eq_of_lt hr,
      Nat.div_eq_of_lt hr'] using hdiv
  refine ⟨hk, ?_⟩
  rw [hk] at hmul
  omega

/-- Entries that are cleared themselves, and to their ends, are covered. -/
theorem covered_writes (hclear : L.clearLen = L.stride) (ss : List (Slot B))
    (hown : ∀ j s, ss[j]? = some s → s.clearAt = k₀ + j) (hfirst : L.place k₀ ≤ p)
    (hlast : p < L.place (k₀ + ss.length)) : Covered (L.writes zero k₀ ss) p := by
  induction ss generalizing k₀ with
  | nil =>
    rw [List.length_nil, Nat.add_zero] at hlast
    omega
  | cons s ss ih =>
    rw [writes, covered_append, covered_cons]
    by_cases hhead : p < L.place (k₀ + 1)
    · have hself : s.clearAt = k₀ := hown 0 s rfl
      refine Or.inl (Or.inl ?_)
      rw [covered_clear, hself, hclear, ← place_succ]
      exact ⟨hfirst, hhead⟩
    · refine Or.inr (ih (fun j t ht => ?_) (by omega) ?_)
      · rw [hown (j + 1) t ht]
        omega
      · rw [List.length_cons] at hlast
        rw [Nat.add_assoc, Nat.add_comm 1]
        exact hlast

/-- What covers a byte of an entry, when no field leaves its entry: the clearing of this entry,
for whichever entry it is done, or one of its fields. -/
theorem covered_writes_iff (hclear : L.clearLen ≤ L.stride) (ss : List (Slot B))
    (hfields : ∀ s ∈ ss, ∀ f ∈ s.fields, f.offset + f.bytes.length ≤ L.stride)
    (hr : r < L.stride) :
    Covered (L.writes zero k₀ ss) (L.place k + r) ↔
      (r < L.clearLen ∧ ∃ s ∈ ss, s.clearAt = k) ∨
        ∃ j s, ss[j]? = some s ∧ k₀ + j = k ∧ Covered s.fields r := by
  induction ss generalizing k₀ with
  | nil => simp [writes, covered_nil]
  | cons s ss ih =>
    have hwipe : (L.clear zero s.clearAt).Covers (L.place k + r) ↔
        r < L.clearLen ∧ s.clearAt = k := by
      rw [covered_clear]
      constructor
      · rintro ⟨hle, hlt⟩
        obtain ⟨d, hd⟩ := Nat.exists_eq_add_of_le hle
        obtain ⟨hk, rfl⟩ := place_add_inj hr (by omega : d < L.stride) hd
        exact ⟨by omega, hk.symm⟩
      · rintro ⟨hlt, rfl⟩
        omega
    have hfield : Covered (s.fields.map fun f => f.shift (L.place k₀)) (L.place k + r) ↔
        k₀ = k ∧ Covered s.fields r := by
      constructor
      · rintro ⟨w, hw, hcovers⟩
        obtain ⟨f, hf, rfl⟩ := List.mem_map.mp hw
        have hend := hfields s List.mem_cons_self f hf
        have hle : L.place k₀ ≤ L.place k + r := by
          have := hcovers.1
          simp only [Write.shift] at this
          omega
        obtain ⟨d, hd⟩ := Nat.exists_eq_add_of_le hle
        have hd' : d < L.stride := by
          have := hcovers.2
          simp only [Write.shift] at this
          omega
        obtain ⟨hk, rfl⟩ := place_add_inj hr hd' hd
        rw [hd] at hcovers
        exact ⟨hk.symm, f, hf, Write.covers_shift.mp hcovers⟩
      · rintro ⟨rfl, f, hf, hcovers⟩
        exact ⟨f.shift (L.place k₀), List.mem_map_of_mem hf, Write.covers_shift.mpr hcovers⟩
    have hrest := @ih (k₀ + 1) fun t ht => hfields t (List.mem_cons_of_mem s ht)
    rw [writes, covered_append, covered_cons, hwipe, hfield, hrest]
    constructor
    · rintro ((⟨hlt, hk⟩ | ⟨hk, hcovered⟩) | ⟨hlt, t, ht, hk⟩ | ⟨j, t, ht, hk, hcovered⟩)
      · exact Or.inl ⟨hlt, s, List.mem_cons_self, hk⟩
      · exact Or.inr ⟨0, s, rfl, hk, hcovered⟩
      · exact Or.inl ⟨hlt, t, List.mem_cons_of_mem s ht, hk⟩
      · exact Or.inr ⟨j + 1, t, ht, by omega, hcovered⟩
    · rintro (⟨hlt, t, ht, hk⟩ | ⟨j, t, ht, hk, hcovered⟩)
      · rcases List.mem_cons.mp ht with rfl | ht
        · exact Or.inl (Or.inl ⟨hlt, hk⟩)
        · exact Or.inr (Or.inl ⟨hlt, t, ht, hk⟩)
      · cases j with
        | zero =>
          cases ht
          exact Or.inl (Or.inr ⟨hk, hcovered⟩)
        | succ j => exact Or.inr (Or.inr ⟨j, t, ht, by omega, hcovered⟩)

/-- Entries stay inside a buffer when their clearing and each of their fields does. -/
theorem inside_writes_iff {size : ℕ} (ss : List (Slot B)) :
    Inside size (L.writes zero k₀ ss) ↔ ∀ j s, ss[j]? = some s →
      L.place s.clearAt + L.clearLen ≤ size ∧
        ∀ f ∈ s.fields, L.place (k₀ + j) + f.offset + f.bytes.length ≤ size := by
  induction ss generalizing k₀ with
  | nil =>
    refine iff_of_true (fun w hw => ?_) fun j s hj => ?_
    · cases hw
    · cases hj
  | cons s ss ih =>
    have hhead : Inside size
        (L.clear zero s.clearAt :: s.fields.map fun f => f.shift (L.place k₀)) ↔
        L.place s.clearAt + L.clearLen ≤ size ∧
          ∀ f ∈ s.fields, L.place k₀ + f.offset + f.bytes.length ≤ size := by
      rw [inside_cons, clear, List.length_replicate]
      exact and_congr_right' List.forall_mem_map
    rw [writes, inside_append, hhead, ih]
    constructor
    · rintro ⟨hfirst, hrest⟩ j t ht
      cases j with
      | zero =>
        cases ht
        exact hfirst
      | succ j =>
        rw [← Nat.add_assoc, Nat.add_right_comm]
        exact hrest j t ht
    · intro hall
      refine ⟨hall 0 s rfl, fun j t ht => ?_⟩
      rw [Nat.add_right_comm, Nat.add_assoc]
      exact hall (j + 1) t ht

/-- Nothing is written before the entries. -/
theorem place_le_of_covered (ss : List (Slot B)) {m : ℕ} (hm : m ≤ k₀)
    (hclear : ∀ s ∈ ss, m ≤ s.clearAt) (hcovered : Covered (L.writes zero k₀ ss) p) :
    L.place m ≤ p := by
  have hmono : ∀ {n : ℕ}, m ≤ n → L.place m ≤ L.place n := fun hn =>
    Nat.add_le_add_left (Nat.mul_le_mul_left _ hn) _
  induction ss generalizing k₀ with
  | nil => exact absurd hcovered covered_nil
  | cons s ss ih =>
    rw [writes, covered_append, covered_cons, covered_clear] at hcovered
    rcases hcovered with (hwipe | ⟨w, hw, hcovers⟩) | hrest
    · exact (hmono (hclear s List.mem_cons_self)).trans hwipe.1
    · obtain ⟨f, -, rfl⟩ := List.mem_map.mp hw
      exact (hmono hm).trans ((Nat.le_add_right _ _).trans hcovers.1)
    · exact ih (by omega) (fun t ht => hclear t (List.mem_cons_of_mem s ht)) hrest

end Layout

end ShipServer.BufferWrites
