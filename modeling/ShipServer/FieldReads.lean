import ShipServer.StringReads

set_option autoImplicit false

/-! Fields of a record in memory: bytes, numbers with their low byte first, and texts. -/

namespace ShipServer.FieldReads

open TracedReads Probe StringReads

/-- So many bytes from a place on. -/
def bytes : ℕ → ℕ → Probe ℕ UInt8 (List UInt8)
  | 0, _ => pure []
  | n + 1, i => do
    let b ← cell i
    let bs ← bytes n (i + 1)
    pure (b :: bs)

/-- The number with these bytes. -/
def leValue : List UInt8 → ℕ
  | [] => 0
  | b :: bs => b.toNat + 256 * leValue bs

/-- The bytes of a number. -/
def leBytes : ℕ → ℕ → List UInt8
  | 0, _ => []
  | n + 1, v => UInt8.ofNat v :: leBytes n (v / 256)

def number (n i : ℕ) : Probe ℕ UInt8 ℕ := do
  let bs ← bytes n i
  pure (leValue bs)

/-- A text up to its NUL, or the whole field. -/
def text : ℕ → ℕ → Probe ℕ UInt8 (List UInt8)
  | 0, _ => pure []
  | n + 1, i => do
    let b ← cell i
    if b = 0 then pure []
    else do
      let bs ← text n (i + 1)
      pure (b :: bs)

/-- The same computation, from another place on. -/
def relocate {α : Type} (d : ℕ) : Probe ℕ UInt8 α → Probe ℕ UInt8 α
  | .done a => .done a
  | .look i k => .look (d + i) fun b => relocate d (k b)

/-- The list stands in memory from a place on. -/
def Holds (m : ℕ → UInt8) : ℕ → List UInt8 → Prop
  | _, [] => True
  | i, b :: bs => m i = b ∧ Holds m (i + 1) bs

section Values

theorem length_leBytes (n v : ℕ) : (leBytes n v).length = n := by
  induction n generalizing v with
  | zero => rfl
  | succ n ih => rw [leBytes, List.length_cons, ih]

theorem leValue_leBytes (n v : ℕ) : leValue (leBytes n v) = v % 256 ^ n := by
  induction n generalizing v with
  | zero => exact (Nat.mod_one v).symm
  | succ n ih =>
    have hpow : 256 ^ (n + 1) = 256 * 256 ^ n := pow_succ' 256 n
    rw [leBytes, leValue, ih, hpow, Nat.mod_mul]
    rfl

end Values

variable {m : ℕ → UInt8} {S : ℕ → Prop}

section Places

variable {α β : Type}

theorem relocate_bind (d : ℕ) (p : Probe ℕ UInt8 α) (f : α → Probe ℕ UInt8 β) :
    relocate d (p >>= f) = relocate d p >>= fun a => relocate d (f a) := by
  induction p with
  | done a => rfl
  | look i k ih => exact congrArg (Probe.look (d + i)) (funext ih)

theorem relocate_cell (d i : ℕ) : relocate d (cell i) = cell (d + i) := rfl

theorem relocate_ite (d : ℕ) (P : Prop) [Decidable P] (p q : Probe ℕ UInt8 α) :
    relocate d (if P then p else q) = if P then relocate d p else relocate d q :=
  apply_ite (relocate d) P p q

theorem result_relocate (d : ℕ) (p : Probe ℕ UInt8 α) :
    (relocate d p).result m = p.result fun i => m (d + i) := by
  induction p with
  | done a => rfl
  | look i k ih => exact ih (m (d + i))

theorem mem_reads_relocate {d i : ℕ} {p : Probe ℕ UInt8 α} (h : i ∈ p.reads fun i => m (d + i)) :
    d + i ∈ (relocate d p).reads m := by
  induction p with
  | done a => exact absurd h List.not_mem_nil
  | look j k ih =>
    rcases List.mem_cons.mp h with rfl | h
    · exact .head _
    · exact .tail _ (ih (m (d + j)) h)

theorem bytes_relocate (d n i : ℕ) : relocate d (bytes n i) = bytes n (d + i) := by
  induction n generalizing i with
  | zero => rfl
  | succ n ih =>
    rw [bytes, relocate_bind, relocate_cell]
    refine congrArg _ (funext fun b => ?_)
    rw [relocate_bind, ih]
    rfl

theorem number_relocate (d n i : ℕ) : relocate d (number n i) = number n (d + i) := by
  rw [number, relocate_bind, bytes_relocate]
  rfl

theorem text_relocate (d n i : ℕ) : relocate d (text n i) = text n (d + i) := by
  induction n generalizing i with
  | zero => rfl
  | succ n ih =>
    rw [text, relocate_bind, relocate_cell]
    refine congrArg _ (funext fun b => ?_)
    rw [relocate_ite, relocate_bind, ih]
    rfl

end Places

section Holding

theorem holds_append {i : ℕ} {l l' : List UInt8} :
    Holds m i (l ++ l') ↔ Holds m i l ∧ Holds m (i + l.length) l' := by
  induction l generalizing i with
  | nil => exact (iff_of_eq (true_and _)).symm
  | cons b l ih =>
    rw [List.cons_append, Holds, Holds, ih, and_assoc, List.length_cons, Nat.add_comm l.length 1,
      Nat.add_assoc]

theorem holds_memory_behind (before l : List UInt8) (junk : ℕ → UInt8) :
    Holds (memory (before ++ l) junk) before.length l := by
  induction l generalizing before with
  | nil => exact trivial
  | cons b l ih =>
    refine ⟨memory_of_drop (r := l) junk List.drop_left, ?_⟩
    have hrest := ih (before ++ [b])
    rwa [List.append_assoc, List.singleton_append, List.length_append,
      List.length_singleton] at hrest

/-- A memory holds what it starts with. -/
theorem holds_memory (l : List UInt8) (junk : ℕ → UInt8) : Holds (memory l junk) 0 l :=
  holds_memory_behind [] l junk

end Holding

section Bytes

theorem result_bytes {n i : ℕ} {l : List UInt8} (h : Holds m i l) (hn : l.length = n) :
    (bytes n i).result m = l := by
  induction l generalizing n i with
  | nil =>
    subst hn
    rfl
  | cons b l ih =>
    subst hn
    rw [List.length_cons, bytes, result_bind, result_cell, result_bind, ih h.2 rfl, h.1]
    rfl

theorem length_bytes (n i : ℕ) : ((bytes n i).result m).length = n := by
  induction n generalizing i with
  | zero => rfl
  | succ n ih => rw [bytes, result_bind, result_bind, result_pure, List.length_cons, ih]

theorem within_bytes {n i : ℕ} (h : ∀ j, i ≤ j → j < i + n → S j) :
    Within m S (bytes n i) := by
  induction n generalizing i with
  | zero => exact within_pure _
  | succ n ih =>
    refine Within.step (h i le_rfl (by omega)) (Within.bind (ih fun j hij hj => ?_) (within_pure _))
    exact h j (by omega) (by omega)

end Bytes

section Numbers

theorem result_number {n i v : ℕ} (h : Holds m i (leBytes n v)) :
    (number n i).result m = v % 256 ^ n := by
  rw [number, result_bind, result_bytes h (length_leBytes n v), result_pure, leValue_leBytes]

theorem within_number {n i : ℕ} (h : ∀ j, i ≤ j → j < i + n → S j) : Within m S (number n i) :=
  (within_bytes h).bind (within_pure _)

end Numbers

section Texts

theorem within_text {n i : ℕ} (h : ∀ j, i ≤ j → j < i + n → S j) : Within m S (text n i) := by
  induction n generalizing i with
  | zero => exact within_pure _
  | succ n ih =>
    refine Within.step (h i le_rfl (by omega)) (Within.ite (fun _ => within_pure _) fun _ => ?_)
    exact Within.bind (ih fun j hij hj => h j (by omega) (by omega)) (within_pure _)

/-- A text that is padded with zeros, or fills the field. -/
theorem result_text {n i : ℕ} {s : List UInt8} (hs : ∀ b ∈ s, b ≠ 0) (hn : s.length ≤ n)
    (h : Holds m i (s ++ List.replicate (n - s.length) 0)) : (text n i).result m = s := by
  induction s generalizing n i with
  | nil =>
    cases n with
    | zero => rfl
    | succ n =>
      have hzero : m i = 0 := h.1
      rw [text, result_bind, result_cell, hzero, if_pos rfl]
      rfl
  | cons b s ih =>
    cases n with
    | zero => exact absurd hn (Nat.not_succ_le_zero _)
    | succ n =>
      rw [List.length_cons, Nat.succ_sub_succ] at h
      have hb : m i ≠ 0 := h.1 ▸ hs b (.head _)
      rw [text, result_bind, result_cell, if_neg hb, result_bind,
        ih (fun c hc => hs c (.tail _ hc)) (Nat.le_of_succ_le_succ hn) h.2, h.1]
      rfl

end Texts

end ShipServer.FieldReads
