import ShipServer.FueledLoops

set_option autoImplicit false

/-! The strings of 16-bit units of `utils.c`, where the data is aligned and where it is not. -/

namespace ShipServer.RawStrings

open FueledLoops

abbrev Memory := ℕ → UInt8

abbrev store (m : Memory) (a : ℕ) (b : UInt8) : Memory :=
  Function.update m a b

/-- The unit at an address, with its low byte first. -/
def unit (m : Memory) (a : ℕ) : ℕ :=
  (m a).toNat + 256 * (m (a + 1)).toNat

def storeUnit (m : Memory) (a u : ℕ) : Memory :=
  store (store m a (UInt8.ofNat u)) (a + 1) (UInt8.ofNat (u / 256))

/-- `while((*d++ = *s++)) ;` -/
def copyUnits : ℕ → Memory → ℕ → ℕ → Option Memory
  | 0, _, _, _ => none
  | fuel + 1, m, d, s =>
    let u := unit m s
    let m := storeUnit m d u
    if u = 0 then some m else copyUnits fuel m (d + 2) (s + 2)

/-- `while(*d++) ;` and the step back. -/
def seekUnits : ℕ → Memory → ℕ → Option ℕ
  | 0, _, _ => none
  | fuel + 1, m, d => if unit m d = 0 then some d else seekUnits fuel m (d + 2)

def strcpy16 (m : Memory) (d s fuel : ℕ) : Option Memory :=
  copyUnits fuel m d s

def strcat16 (m : Memory) (d s fuel : ℕ) : Option Memory :=
  (seekUnits fuel m d).bind fun d => copyUnits fuel m d s

/-- The loop of `strlen16_raw`. -/
def countRaw : ℕ → Memory → ℕ → ℕ → Option ℕ
  | 0, _, _, _ => none
  | fuel + 1, m, str8, sz =>
    let tmp := (m str8).toNat ||| (m (str8 + 1)).toNat <<< 8
    if tmp ≠ 0 then countRaw fuel m (str8 + 2) (sz + 1) else some sz

def strlen16Raw (m : Memory) (str fuel : ℕ) : Option ℕ :=
  countRaw fuel m str 0

/-- `*src++ << 8`, as it is stored in a byte. -/
def shifted (b : UInt8) : UInt8 :=
  UInt8.ofNat (b.toNat <<< 8)

/-- The loop that copies, in `strcpy16_raw` and in `strcat16_raw`. -/
def copyRaw : ℕ → Memory → ℕ → ℕ → Option Memory
  | 0, _, _, _ => none
  | fuel + 1, m, dst, src =>
    if m src ≠ 0 ∨ m (src + 1) ≠ 0 then
      let m := store m dst (m src)
      let m := store m (dst + 1) (shifted (m (src + 1)))
      copyRaw fuel m (dst + 2) (src + 2)
    else some m

/-- `while(*dst || *(dst + 1)) dst += 2;` -/
def seekRaw : ℕ → Memory → ℕ → Option ℕ
  | 0, _, _ => none
  | fuel + 1, m, dst =>
    if m dst ≠ 0 ∨ m (dst + 1) ≠ 0 then seekRaw fuel m (dst + 2) else some dst

def strcpy16Raw (m : Memory) (d s fuel : ℕ) : Option Memory :=
  copyRaw fuel m d s

def strcat16Raw (m : Memory) (d s fuel : ℕ) : Option Memory :=
  (seekRaw fuel m d).bind fun dst => copyRaw fuel m dst s

/-- A string of so many units, with its terminator. -/
structure Terminated (m : Memory) (s n : ℕ) : Prop where
  units : ∀ i < n, unit m (s + 2 * i) ≠ 0
  ends : unit m (s + 2 * n) = 0

/-- A string of so many units may be copied: the copy does not begin inside it. -/
def Clear (d s n : ℕ) : Prop :=
  d ≤ s ∨ s + 2 * n + 2 ≤ d

section Units

variable {m : Memory}

theorem unit_eq_zero_iff (m : Memory) (a : ℕ) : unit m a = 0 ↔ m a = 0 ∧ m (a + 1) = 0 := by
  rw [unit, ← UInt8.toNat_inj, ← UInt8.toNat_inj]
  change _ ↔ (m a).toNat = 0 ∧ (m (a + 1)).toNat = 0
  omega

theorem raw_ne_zero_iff (m : Memory) (a : ℕ) : m a ≠ 0 ∨ m (a + 1) ≠ 0 ↔ unit m a ≠ 0 := by
  rw [ne_eq (unit m a), unit_eq_zero_iff, not_and_or]

theorem tmp_eq_zero_iff (m : Memory) (a : ℕ) :
    (m a).toNat ||| (m (a + 1)).toNat <<< 8 = 0 ↔ unit m a = 0 := by
  rw [unit_eq_zero_iff, Nat.or_eq_zero_iff, Nat.shiftLeft_eq, ← UInt8.toNat_inj,
    ← UInt8.toNat_inj]
  change _ ↔ (m a).toNat = 0 ∧ (m (a + 1)).toNat = 0
  omega

/-- The shift leaves nothing of a byte. -/
theorem shifted_eq_zero (b : UInt8) : shifted b = 0 := by
  rw [shifted, Nat.shiftLeft_eq, ← UInt8.toNat_inj, UInt8.toNat_ofNat']
  change b.toNat * 256 % 256 = 0
  exact Nat.mul_mod_left _ _

theorem terminated_succ {s n : ℕ} (h : Terminated m s (n + 1)) :
    unit m s ≠ 0 ∧ Terminated m (s + 2) n := by
  refine ⟨h.units 0 (Nat.succ_pos n), fun i hi => ?_, ?_⟩
  · have hunit := h.units (i + 1) (by omega)
    rwa [show s + 2 * (i + 1) = s + 2 + 2 * i by ring] at hunit
  · have hend := h.ends
    rwa [show s + 2 * (n + 1) = s + 2 + 2 * n by ring] at hend

theorem unit_congr {m m' : Memory} {a : ℕ} (h : m a = m' a) (h' : m (a + 1) = m' (a + 1)) :
    unit m a = unit m' a := by
  rw [unit, unit, h, h']

/-- A string stays where none of its bytes is touched. -/
theorem Terminated.congr {m' : Memory} {s n : ℕ} (h : Terminated m s n)
    (hsame : ∀ a, s ≤ a → a < s + 2 * n + 2 → m' a = m a) : Terminated m' s n := by
  have hunit : ∀ i ≤ n, unit m' (s + 2 * i) = unit m (s + 2 * i) := by
    intro i hi
    exact unit_congr (hsame _ (by omega) (by omega)) (hsame _ (by omega) (by omega))
  refine ⟨fun i hi => ?_, ?_⟩
  · rw [hunit i hi.le]
    exact h.units i hi
  · rw [hunit n le_rfl]
    exact h.ends

end Units

/-- Memory with other bytes from a place on. -/
def overwrite (m : Memory) (d : ℕ) (b : ℕ → UInt8) (len : ℕ) : Memory :=
  fun a => if d ≤ a ∧ a < d + len then b (a - d) else m a

section Overwrite

variable {m : Memory} {d : ℕ} {b : ℕ → UInt8} {len : ℕ}

theorem overwrite_at {k : ℕ} (h : k < len) : overwrite m d b len (d + k) = b k := by
  rw [overwrite, if_pos ⟨by omega, by omega⟩, Nat.add_sub_cancel_left]

theorem overwrite_of_outside {a : ℕ} (h : a < d ∨ d + len ≤ a) : overwrite m d b len a = m a := by
  rw [overwrite, if_neg (by omega)]

theorem overwrite_zero (m : Memory) (d : ℕ) (b : ℕ → UInt8) : overwrite m d b 0 = m := by
  funext a
  exact overwrite_of_outside (by omega)

theorem overwrite_congr {b' : ℕ → UInt8} (h : ∀ k < len, b k = b' k) :
    overwrite m d b len = overwrite m d b' len := by
  funext a
  by_cases ha : d ≤ a ∧ a < d + len
  · rw [overwrite, overwrite, if_pos ha, if_pos ha, h (a - d) (by omega)]
  · rw [overwrite, overwrite, if_neg ha, if_neg ha]

/-- What is written in two parts. -/
theorem overwrite_add (m : Memory) (d : ℕ) (b : ℕ → UInt8) (k len : ℕ) :
    overwrite (overwrite m d b k) (d + k) (fun j => b (k + j)) len =
      overwrite m d b (k + len) := by
  funext a
  by_cases hfirst : a < d + k
  · rw [overwrite_of_outside (Or.inl hfirst)]
    by_cases ha : d ≤ a
    · rw [overwrite, overwrite, if_pos ⟨ha, hfirst⟩, if_pos ⟨ha, by omega⟩]
    · rw [overwrite_of_outside (by omega), overwrite_of_outside (by omega)]
  · by_cases hlast : a < d + k + len
    · obtain ⟨j, rfl⟩ := Nat.exists_eq_add_of_le (Nat.not_lt.mp hfirst)
      rw [overwrite_at (by omega), Nat.add_assoc, overwrite_at (by omega)]
    · rw [overwrite_of_outside (by omega), overwrite_of_outside (by omega),
        overwrite_of_outside (by omega)]

/-- Two stores are the first two bytes. -/
theorem store_store (m : Memory) (d : ℕ) (b : ℕ → UInt8) :
    store (store m d (b 0)) (d + 1) (b 1) = overwrite m d b 2 := by
  funext a
  by_cases hlow : a = d
  · subst hlow
    rw [store, Function.update_of_ne (by omega), store, Function.update_self]
    exact (overwrite_at (by omega : 0 < 2)).symm
  · by_cases hhigh : a = d + 1
    · subst hhigh
      rw [store, Function.update_self]
      exact (overwrite_at (by omega : 1 < 2)).symm
    · rw [store, Function.update_of_ne hhigh, store, Function.update_of_ne hlow,
        overwrite_of_outside (by omega)]

/-- Two ways to write from one place on agree exactly where they put the same bytes. -/
theorem overwrite_eq_iff {b' : ℕ → UInt8} {k : ℕ} :
    overwrite m d b len = overwrite m d b' (len + k) ↔
      (∀ j < len, b j = b' j) ∧ ∀ j < k, m (d + (len + j)) = b' (len + j) := by
  constructor
  · intro h
    refine ⟨fun j hj => ?_, fun j hj => ?_⟩
    · have hat := congrFun h (d + j)
      rwa [overwrite_at hj, overwrite_at (by omega)] at hat
    · have hat := congrFun h (d + (len + j))
      rwa [overwrite_of_outside (by omega), overwrite_at (by omega)] at hat
  · rintro ⟨hsame, hthere⟩
    funext a
    by_cases ha : d ≤ a ∧ a < d + (len + k)
    · obtain ⟨j, rfl⟩ := Nat.exists_eq_add_of_le ha.1
      rw [overwrite_at (by omega : j < len + k)]
      by_cases hj : j < len
      · rw [overwrite_at hj, hsame j hj]
      · obtain ⟨i, rfl⟩ := Nat.exists_eq_add_of_le (Nat.not_lt.mp hj)
        rw [overwrite_of_outside (by omega), hthere i (by omega)]
    · rw [overwrite_of_outside (by omega), overwrite_of_outside (by omega)]

/-- A unit of the copy. -/
theorem unit_overwrite {s i : ℕ} (h : 2 * i + 1 < len) :
    unit (overwrite m d (fun j => m (s + j)) len) (d + 2 * i) = unit m (s + 2 * i) := by
  have hlow : overwrite m d (fun j => m (s + j)) len (d + 2 * i) = m (s + 2 * i) :=
    overwrite_at (by omega)
  have hhigh : overwrite m d (fun j => m (s + j)) len (d + 2 * i + 1) = m (s + 2 * i + 1) :=
    overwrite_at (k := 2 * i + 1) h
  rw [unit, unit, hlow, hhigh]

/-- A unit before the bytes that are written. -/
theorem unit_overwrite_before {a : ℕ} (h : a + 1 < d) : unit (overwrite m d b len) a = unit m a :=
  unit_congr (overwrite_of_outside (by omega)) (overwrite_of_outside (by omega))

end Overwrite

section Runs

variable {m : Memory} {d s n : ℕ}

theorem Clear.succ (h : Clear d s (n + 1)) : Clear (d + 2) (s + 2) n := by
  rcases h with h | h
  · exact Or.inl (by omega)
  · exact Or.inr (by omega)

/-- Writing one unit of the copy leaves the rest of the source. -/
theorem Clear.kept (h : Clear d s (n + 1)) (b : ℕ → UInt8) {a : ℕ} (hle : s + 2 ≤ a)
    (hlt : a < s + 2 + (2 * n + 2)) : overwrite m d b 2 a = m a := by
  refine overwrite_of_outside ?_
  rcases h with h | h
  · exact Or.inr (by omega)
  · exact Or.inl (by omega)

theorem storeUnit_unit (m : Memory) (d s : ℕ) :
    storeUnit m d (unit m s) = overwrite m d (fun k => m (s + k)) 2 := by
  rw [← store_store, storeUnit, unit]
  have hlow : UInt8.ofNat ((m s).toNat + 256 * (m (s + 1)).toNat) = m s := by
    rw [← UInt8.toNat_inj, UInt8.toNat_ofNat']
    have hlt := (m s).toNat_lt
    change ((m s).toNat + 256 * (m (s + 1)).toNat) % 256 = (m s).toNat
    omega
  have hhigh : UInt8.ofNat (((m s).toNat + 256 * (m (s + 1)).toNat) / 256) = m (s + 1) := by
    rw [← UInt8.toNat_inj, UInt8.toNat_ofNat']
    have hlt := (m s).toNat_lt
    have hlt' := (m (s + 1)).toNat_lt
    change ((m s).toNat + 256 * (m (s + 1)).toNat) / 256 % 256 = (m (s + 1)).toNat
    omega
  rw [hlow, hhigh]
  rfl

/-- The aligned loop copies the string and its terminator. -/
theorem copyUnits_eq {fuel : ℕ} (hs : Terminated m s n) (hclear : Clear d s n)
    (hfuel : n < fuel) :
    copyUnits fuel m d s = some (overwrite m d (fun k => m (s + k)) (2 * n + 2)) := by
  induction n generalizing m d s fuel with
  | zero =>
    obtain ⟨fuel, rfl⟩ := Nat.exists_eq_add_of_lt hfuel
    have hunit : unit m s = 0 := hs.ends
    rw [Nat.zero_add, copyUnits]
    rw [if_pos hunit, storeUnit_unit]
  | succ n ih =>
    obtain ⟨fuel, rfl⟩ := Nat.exists_eq_succ_of_ne_zero (by omega : fuel ≠ 0)
    obtain ⟨hunit, hrest⟩ := terminated_succ hs
    rw [copyUnits]
    rw [if_neg hunit, storeUnit_unit]
    have hkept := fun a => hclear.kept (m := m) (fun k => m (s + k)) (a := a)
    have hstill : Terminated (overwrite m d (fun k => m (s + k)) 2) (s + 2) n :=
      hrest.congr fun a hle hlt => hkept a hle (by omega)
    rw [ih hstill hclear.succ (by omega)]
    have hbytes : ∀ k < 2 * n + 2,
        overwrite m d (fun k => m (s + k)) 2 (s + 2 + k) = m (s + (2 + k)) := by
      intro k hk
      rw [hkept _ (by omega) (by omega), Nat.add_assoc]
    rw [overwrite_congr hbytes, overwrite_add m d (fun k => m (s + k)) 2 (2 * n + 2)]
    rw [show 2 + (2 * n + 2) = 2 * (n + 1) + 2 by ring]

/-- What the other loop writes: the low bytes of the units, with zeros between them. -/
def rawBytes (m : Memory) (s k : ℕ) : UInt8 :=
  if k % 2 = 0 then m (s + k) else 0

theorem rawBytes_two_add (m : Memory) (s k : ℕ) : rawBytes m s (2 + k) = rawBytes m (s + 2) k := by
  rw [rawBytes, rawBytes, Nat.add_mod_left, Nat.add_assoc]

/-- The other loop stops before the terminator. -/
theorem copyRaw_eq {fuel : ℕ} (hs : Terminated m s n) (hclear : Clear d s n) (hfuel : n < fuel) :
    copyRaw fuel m d s = some (overwrite m d (rawBytes m s) (2 * n)) := by
  induction n generalizing m d s fuel with
  | zero =>
    obtain ⟨fuel, rfl⟩ := Nat.exists_eq_add_of_lt hfuel
    have hunit : ¬unit m s ≠ 0 := not_not.mpr hs.ends
    rw [Nat.zero_add, copyRaw, if_neg (mt (raw_ne_zero_iff m s).mp hunit), Nat.mul_zero,
      overwrite_zero]
  | succ n ih =>
    obtain ⟨fuel, rfl⟩ := Nat.exists_eq_succ_of_ne_zero (by omega : fuel ≠ 0)
    obtain ⟨hunit, hrest⟩ := terminated_succ hs
    rw [copyRaw, if_pos ((raw_ne_zero_iff m s).mpr hunit)]
    dsimp only
    rw [shifted_eq_zero]
    have hstores : store (store m d (m s)) (d + 1) 0 = overwrite m d (rawBytes m s) 2 :=
      store_store m d (rawBytes m s)
    rw [hstores]
    have hkept := fun a => hclear.kept (m := m) (rawBytes m s) (a := a)
    have hstill : Terminated (overwrite m d (rawBytes m s) 2) (s + 2) n :=
      hrest.congr fun a hle hlt => hkept a hle (by omega)
    rw [ih hstill hclear.succ (by omega)]
    have hbytes : ∀ k < 2 * n,
        rawBytes (overwrite m d (rawBytes m s) 2) (s + 2) k = rawBytes m s (2 + k) := by
      intro k hk
      rw [rawBytes_two_add, rawBytes, rawBytes, hkept _ (by omega) (by omega)]
    rw [overwrite_congr hbytes, overwrite_add m d (rawBytes m s) 2 (2 * n)]
    rw [show 2 + 2 * n = 2 * (n + 1) by ring]

/-- Both searches find the terminator. -/
theorem seekUnits_eq {fuel : ℕ} (h : Terminated m d n) (hfuel : n < fuel) :
    seekUnits fuel m d = some (d + 2 * n) := by
  induction n generalizing d fuel with
  | zero =>
    obtain ⟨fuel, rfl⟩ := Nat.exists_eq_add_of_lt hfuel
    have hunit : unit m d = 0 := h.ends
    rw [Nat.zero_add, seekUnits, if_pos hunit]
    rfl
  | succ n ih =>
    obtain ⟨fuel, rfl⟩ := Nat.exists_eq_succ_of_ne_zero (by omega : fuel ≠ 0)
    obtain ⟨hunit, hrest⟩ := terminated_succ h
    rw [seekUnits, if_neg hunit, ih hrest (by omega)]
    rw [show d + 2 + 2 * n = d + 2 * (n + 1) by ring]

theorem seekRaw_eq_seekUnits (fuel : ℕ) (m : Memory) (d : ℕ) :
    seekRaw fuel m d = seekUnits fuel m d := by
  induction fuel generalizing d with
  | zero => rfl
  | succ fuel ih =>
    rw [seekRaw, seekUnits, ih]
    by_cases hunit : unit m d = 0
    · rw [if_pos hunit, if_neg (mt (raw_ne_zero_iff m d).mp (not_not.mpr hunit))]
    · rw [if_neg hunit, if_pos ((raw_ne_zero_iff m d).mpr hunit)]

theorem countRaw_eq {fuel sz : ℕ} (h : Terminated m s n) (hfuel : n < fuel) :
    countRaw fuel m s sz = some (sz + n) := by
  induction n generalizing s fuel sz with
  | zero =>
    obtain ⟨fuel, rfl⟩ := Nat.exists_eq_add_of_lt hfuel
    rw [Nat.zero_add, countRaw]
    rw [if_neg (not_not.mpr ((tmp_eq_zero_iff m s).mpr h.ends))]
    rfl
  | succ n ih =>
    obtain ⟨fuel, rfl⟩ := Nat.exists_eq_succ_of_ne_zero (by omega : fuel ≠ 0)
    obtain ⟨hunit, hrest⟩ := terminated_succ h
    rw [countRaw]
    rw [if_pos (mt (tmp_eq_zero_iff m s).mp hunit), ih hrest (by omega)]
    rw [show sz + 1 + n = sz + (n + 1) by ring]

/-- A copy that begins some units into the string never comes to an end. -/
theorem copyUnits_endless {k : ℕ} (hk : 0 < k) (hunits : ∀ j < k, unit m (s + 2 * j) ≠ 0)
    (fuel : ℕ) : copyUnits fuel m (s + 2 * k) s = none := by
  induction fuel generalizing m s with
  | zero => rfl
  | succ fuel ih =>
    have hfirst : unit m s ≠ 0 := hunits 0 hk
    rw [copyUnits]
    rw [if_neg hfirst, storeUnit_unit, show s + 2 * k + 2 = s + 2 + 2 * k by ring]
    refine ih fun j hj => ?_
    rw [show s + 2 + 2 * j = s + 2 * (j + 1) by ring]
    by_cases hlast : j + 1 = k
    · rw [hlast]
      have hcopied : unit (overwrite m (s + 2 * k) (fun k => m (s + k)) 2) (s + 2 * k) = unit m s :=
        unit_overwrite (i := 0) (by omega)
      rwa [hcopied]
    · rw [unit_overwrite_before (by omega)]
      exact hunits (j + 1) (by omega)

end Runs

/-- A copy may be put off the string, or a whole number of units from where it begins. -/
def Placed (d s n : ℕ) : Prop :=
  Clear d s n ∨ d % 2 = s % 2

/-- No unit is above 0xFF. -/
def Narrow (m : Memory) (s n : ℕ) : Prop :=
  ∀ i < n, m (s + 2 * i + 1) = 0

/-- Both ways to copy a string return the same memory, and it holds a string of that length. -/
def CopyAgrees (m : Memory) (d s n : ℕ) : Prop :=
  ∃ r, Returns (strcpy16 m d s) r ∧ Returns (strcpy16Raw m d s) r ∧ Returns (strlen16Raw r d) n

/-- Both ways to append a string return the same memory, and the lengths have been added. -/
def CatAgrees (m : Memory) (d s k n : ℕ) : Prop :=
  ∃ r, Returns (strcat16 m d s) r ∧ Returns (strcat16Raw m d s) r ∧
    Returns (strlen16Raw r d) (k + n)

section Agreement

variable {m : Memory} {d s k n : ℕ}

theorem narrow_iff : Narrow m s n ↔ ∀ j < 2 * n, rawBytes m s j = m (s + j) := by
  constructor
  · intro h j hj
    rw [rawBytes]
    split_ifs with heven
    · rfl
    · have hzero := h (j / 2) (by omega)
      rw [← hzero]
      congr 1
      omega
  · intro h i hi
    have hbyte := h (2 * i + 1) (by omega)
    rw [rawBytes, if_neg (by omega)] at hbyte
    exact hbyte.symm

/-- The two copies are the same memory. -/
theorem copies_eq_iff (hs : Terminated m s n) :
    overwrite m d (rawBytes m s) (2 * n) = overwrite m d (fun k => m (s + k)) (2 * n + 2) ↔
      Narrow m s n ∧ unit m (d + 2 * n) = 0 := by
  obtain ⟨hlow, hhigh⟩ := (unit_eq_zero_iff m (s + 2 * n)).mp hs.ends
  rw [overwrite_eq_iff, narrow_iff, unit_eq_zero_iff]
  refine and_congr_right fun _ => ?_
  constructor
  · intro h
    exact ⟨(h 0 (by omega)).trans hlow, (h 1 (by omega)).trans hhigh⟩
  · rintro ⟨hlow', hhigh'⟩ j hj
    rcases (by omega : j = 0 ∨ j = 1) with rfl | rfl
    · exact hlow'.trans hlow.symm
    · exact hhigh'.trans hhigh.symm

/-- The aligned copy continues the units that stand before it. -/
theorem terminated_copied (hd : ∀ i < k, unit m (d + 2 * i) ≠ 0) (hs : Terminated m s n) :
    Terminated (overwrite m (d + 2 * k) (fun j => m (s + j)) (2 * n + 2)) d (k + n) := by
  have hcopied : ∀ j ≤ n, unit (overwrite m (d + 2 * k) (fun j => m (s + j)) (2 * n + 2))
      (d + 2 * (k + j)) = unit m (s + 2 * j) := by
    intro j hj
    rw [show d + 2 * (k + j) = d + 2 * k + 2 * j by ring]
    exact unit_overwrite (by omega)
  refine ⟨fun i hi => ?_, ?_⟩
  · by_cases hbefore : i < k
    · rw [unit_overwrite_before (by omega)]
      exact hd i hbefore
    · obtain ⟨j, rfl⟩ := Nat.exists_eq_add_of_le (Nat.not_lt.mp hbefore)
      rw [hcopied j (by omega)]
      exact hs.units j (by omega)
  · rw [hcopied n le_rfl]
    exact hs.ends

theorem returns_strlen16Raw (h : Terminated m s n) : Returns (strlen16Raw m s) n := by
  refine returns_of_lt (n := n) fun fuel hfuel => ?_
  rw [strlen16Raw, countRaw_eq h hfuel, Nat.zero_add]

/-- Where the aligned copy is put over the string that is read, it does not return. -/
theorem copyUnits_eq_none (hs : Terminated m s n) (hplaced : Placed d s n) (hclear : ¬Clear d s n)
    (fuel : ℕ) : copyUnits fuel m d s = none := by
  have heven := hplaced.resolve_left hclear
  rw [Clear] at hclear
  obtain ⟨k, rfl⟩ : ∃ k, d = s + 2 * k := ⟨(d - s) / 2, by omega⟩
  exact copyUnits_endless (by omega) (fun j hj => hs.units j (by omega)) fuel

/-- What is common to the two functions: each copies to the place that it has found. -/
theorem agrees_iff {f g : ℕ → Option Memory} {e len : ℕ} (hs : Terminated m s n)
    (hplaced : Placed e s n) (hf : ∀ r, Returns f r ↔ Returns (strcpy16 m e s) r)
    (hg : ∀ r, Returns g r ↔ Returns (strcpy16Raw m e s) r)
    (hlen : Terminated (overwrite m e (fun j => m (s + j)) (2 * n + 2)) d len) :
    (∃ r, Returns f r ∧ Returns g r ∧ Returns (strlen16Raw r d) len) ↔
      Clear e s n ∧ Narrow m s n ∧ unit m (e + 2 * n) = 0 := by
  simp only [hf, hg]
  by_cases hclear : Clear e s n
  · have haligned : Returns (strcpy16 m e s) _ :=
      returns_of_lt fun fuel hfuel => copyUnits_eq hs hclear hfuel
    have hraw : Returns (strcpy16Raw m e s) _ :=
      returns_of_lt fun fuel hfuel => copyRaw_eq hs hclear hfuel
    rw [haligned.exists_iff, and_iff_left (returns_strlen16Raw hlen), and_iff_right hclear,
      ← copies_eq_iff hs]
    constructor
    · intro h
      exact hraw.unique h
    · intro h
      rw [← h]
      exact hraw
  · refine iff_of_false ?_ fun h => hclear h.1
    rintro ⟨r, ⟨fuel, hfuel⟩, -⟩
    have hnone : strcpy16 m e s fuel = none := copyUnits_eq_none hs hplaced hclear fuel
    rw [hfuel fuel le_rfl] at hnone
    cases hnone

theorem copyAgrees_iff (hs : Terminated m s n) (hplaced : Placed d s n) :
    CopyAgrees m d s n ↔ Clear d s n ∧ Narrow m s n ∧ unit m (d + 2 * n) = 0 := by
  refine agrees_iff hs hplaced (fun _ => Iff.rfl) (fun _ => Iff.rfl) ?_
  have hcopied := terminated_copied (k := 0) (m := m) (d := d) (fun i hi => by omega) hs
  rwa [Nat.zero_add] at hcopied

theorem catAgrees_iff (hs : Terminated m s n) (hd : Terminated m d k)
    (hplaced : Placed (d + 2 * k) s n) :
    CatAgrees m d s k n ↔
      Clear (d + 2 * k) s n ∧ Narrow m s n ∧ unit m (d + 2 * (k + n)) = 0 := by
  rw [show d + 2 * (k + n) = d + 2 * k + 2 * n by ring]
  refine agrees_iff hs hplaced (fun r => ?_) (fun r => ?_) (terminated_copied hd.units hs)
  · refine returns_congr (n := k + 1) fun fuel hfuel => ?_
    rw [strcat16, seekUnits_eq hd hfuel]
    rfl
  · refine returns_congr (n := k + 1) fun fuel hfuel => ?_
    rw [strcat16Raw, seekRaw_eq_seekUnits, seekUnits_eq hd hfuel]
    rfl

end Agreement

/-- On every string and for every destination that does not begin inside it, the unaligned
functions do what the aligned ones do exactly when no unit is above 0xFF and zeros already stand
where the terminator belongs. -/
theorem rawStrings_agree_iff {m : Memory} {d s k n : ℕ} (hs : Terminated m s n) :
    (Placed d s n →
      (CopyAgrees m d s n ↔ Clear d s n ∧ Narrow m s n ∧ unit m (d + 2 * n) = 0)) ∧
    (Terminated m d k → Placed (d + 2 * k) s n →
      (CatAgrees m d s k n ↔
        Clear (d + 2 * k) s n ∧ Narrow m s n ∧ unit m (d + 2 * (k + n)) = 0)) :=
  ⟨copyAgrees_iff hs, catAgrees_iff hs⟩

/-- Some units, and zeros behind them. -/
def unitsAt (s : ℕ) (units : List ℕ) : Memory :=
  fun a => if s ≤ a then UInt8.ofNat (units.getD ((a - s) / 2) 0 / 256 ^ ((a - s) % 2)) else 0

theorem rawStrings_agree_iff_letter :
    CopyAgrees (unitsAt 0 [0x41]) 8 0 1 ∧ CatAgrees (unitsAt 0 [0x41]) 8 0 0 1 := by
  have hs : Terminated (unitsAt 0 [0x41]) 0 1 := ⟨by decide, by decide⟩
  have hd : Terminated (unitsAt 0 [0x41]) 8 0 := ⟨by decide, by decide⟩
  have hclear : Clear 8 0 1 := Or.inr (by decide)
  have hnarrow : Narrow (unitsAt 0 [0x41]) 0 1 := by unfold Narrow; decide
  obtain ⟨hcopy, hcat⟩ := rawStrings_agree_iff (k := 0) (d := 8) hs
  exact ⟨(hcopy (Or.inl hclear)).mpr ⟨hclear, hnarrow, by decide⟩,
    (hcat hd (Or.inl hclear)).mpr ⟨hclear, hnarrow, by decide⟩⟩

/-- A kana loses its high byte. -/
theorem rawStrings_agree_not :
    Terminated (unitsAt 0 [0x3042]) 0 1 ∧ Terminated (unitsAt 0 [0x3042]) 8 0 ∧ Clear 8 0 1 ∧
      ¬CopyAgrees (unitsAt 0 [0x3042]) 8 0 1 ∧ ¬CatAgrees (unitsAt 0 [0x3042]) 8 0 0 1 := by
  have hs : Terminated (unitsAt 0 [0x3042]) 0 1 := ⟨by decide, by decide⟩
  have hd : Terminated (unitsAt 0 [0x3042]) 8 0 := ⟨by decide, by decide⟩
  have hclear : Clear 8 0 1 := Or.inr (by decide)
  have hwide : ¬Narrow (unitsAt 0 [0x3042]) 0 1 := by unfold Narrow; decide
  refine ⟨hs, hd, hclear, fun h => ?_, fun h => ?_⟩
  · exact hwide ((copyAgrees_iff hs (Or.inl hclear)).mp h).2.1
  · exact hwide ((catAgrees_iff hs hd (Or.inl hclear)).mp h).2.1

end ShipServer.RawStrings
