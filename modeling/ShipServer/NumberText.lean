import Mathlib

set_option autoImplicit false

namespace ShipServer.NumberText

/-- The value of a digit, in any base up to 36. -/
def digitVal (c : Char) : Option ℕ :=
  if '0' ≤ c ∧ c ≤ '9' then some (c.toNat - '0'.toNat)
  else if 'a' ≤ c ∧ c ≤ 'z' then some (c.toNat - 'a'.toNat + 10)
  else if 'A' ≤ c ∧ c ≤ 'Z' then some (c.toNat - 'A'.toNat + 10)
  else none

/-- The digits up to the first character that is none. -/
def readDigits (base : ℕ) : List Char → ℕ → ℕ
  | [], acc => acc
  | c :: cs, acc =>
    match digitVal c with
    | some d => if d < base then readDigits base cs (acc * base + d) else acc
    | none => acc

def isHexDigit (c : Char) : Bool :=
  match digitVal c with
  | some d => d < 16
  | none => false

/-- A number whose base the text tells: hexadecimal after 0x, octal after 0, otherwise decimal. -/
def magnitude : List Char → ℕ
  | '0' :: x :: d :: cs =>
    if (x = 'x' ∨ x = 'X') ∧ isHexDigit d = true then readDigits 16 (d :: cs) 0
    else readDigits 8 (x :: d :: cs) 0
  | '0' :: cs => readDigits 8 cs 0
  | cs => readDigits 10 cs 0

def isSpace (c : Char) : Bool :=
  c = ' ' ∨ ('\t' ≤ c ∧ c ≤ '\r')

/-- The sign and the magnitude of the number at the start of a text. -/
def readNumber (s : String) : Bool × ℕ :=
  match s.toList.dropWhile isSpace with
  | '-' :: cs => (true, magnitude cs)
  | '+' :: cs => (false, magnitude cs)
  | cs => (false, magnitude cs)

/-- `strtoul` with the base 0, for 64 bits: nothing if it sets `errno`. -/
def strtoul (s : String) : Option ℕ :=
  let n := readNumber s
  if 2 ^ 64 ≤ n.2 then none
  else some (if n.1 then (2 ^ 64 - n.2) % 2 ^ 64 else n.2)

/-- The values of a signed type of 64 bits. -/
abbrev Int64Range := {v : ℤ // -2 ^ 63 ≤ v ∧ v < 2 ^ 63}

/-- `strtoll` with the base 0: nothing if it sets `errno`. -/
def strtoll (s : String) : Option Int64Range :=
  let n := readNumber s
  let v : ℤ := if n.1 then -(n.2 : ℤ) else n.2
  if h : -2 ^ 63 ≤ v ∧ v < 2 ^ 63 then some ⟨v, h⟩ else none

/-- What `sprintf` writes for a natural number. -/
def decimalChars (n : ℕ) : List Char :=
  if n = 0 then ['0'] else (Nat.digits 10 n).reverse.map Nat.digitChar

def decimal (n : ℕ) : String :=
  String.ofList (decimalChars n)

def signedDecimal (v : ℤ) : String :=
  if v < 0 then String.ofList ('-' :: decimalChars v.natAbs) else decimal v.natAbs

theorem digitVal_digitChar {d : ℕ} (h : d < 10) : digitVal (Nat.digitChar d) = some d := by
  have hall : ∀ d < 10, digitVal (Nat.digitChar d) = some d := by decide
  exact hall d h

theorem readDigits_digits {ds : List ℕ} (h : ∀ d ∈ ds, d < 10) (acc : ℕ) :
    readDigits 10 (ds.map Nat.digitChar) acc = ds.foldl (fun a d => a * 10 + d) acc := by
  induction ds generalizing acc with
  | nil => rfl
  | cons d ds ih =>
    have hd : d < 10 := h d List.mem_cons_self
    rw [List.map_cons, readDigits, digitVal_digitChar hd]
    dsimp only
    rw [if_pos hd, ih fun e he => h e (List.mem_cons_of_mem d he)]
    rfl

theorem foldl_digits (n : ℕ) :
    (Nat.digits 10 n).reverse.foldl (fun a d => a * 10 + d) 0 = n := by
  rw [List.foldl_reverse]
  conv_rhs => rw [← Nat.ofDigits_digits 10 n, Nat.ofDigits_eq_foldr]
  congr 1
  funext d a
  rw [Nat.cast_id, Nat.add_comm, Nat.mul_comm]

/-- The first digit of a number that is not zero is not 0, nor is it a sign or a space. -/
theorem decimalChars_cases {n : ℕ} (hn : n ≠ 0) :
    ∃ d ds, decimalChars n = Nat.digitChar d :: ds.map Nat.digitChar ∧ 0 < d ∧ d < 10 ∧
      (∀ e ∈ ds, e < 10) ∧ (d :: ds).foldl (fun a d => a * 10 + d) 0 = n := by
  have hne : Nat.digits 10 n ≠ [] := Nat.digits_ne_nil_iff_ne_zero.mpr hn
  have hlt : ∀ d ∈ (Nat.digits 10 n).reverse, d < 10 := by
    intro d hd
    exact Nat.digits_lt_base (by decide) (List.mem_reverse.mp hd)
  have hfold := foldl_digits n
  have hlast := Nat.getLast_digit_ne_zero 10 hn
  rw [decimalChars, if_neg hn]
  cases hrev : (Nat.digits 10 n).reverse with
  | nil => exact absurd (List.reverse_eq_nil_iff.mp hrev) hne
  | cons d ds =>
    rw [hrev] at hlt hfold
    have hfirst : (Nat.digits 10 n).getLast hne = d := by
      have hhead := List.getLast_eq_head_reverse hne
      simp only [hrev, List.head_cons] at hhead
      exact hhead
    rw [hfirst] at hlast
    exact ⟨d, ds, rfl, Nat.pos_of_ne_zero hlast, hlt d List.mem_cons_self,
      fun e he => hlt e (List.mem_cons_of_mem d he), hfold⟩

theorem digitChar_plain {d : ℕ} (h : d < 10) :
    isSpace (Nat.digitChar d) = false ∧ Nat.digitChar d ≠ '-' ∧ Nat.digitChar d ≠ '+' := by
  have hall : ∀ d < 10, isSpace (Nat.digitChar d) = false ∧ Nat.digitChar d ≠ '-' ∧
      Nat.digitChar d ≠ '+' := by decide
  exact hall d h

theorem digitChar_ne_zero {d : ℕ} (hpos : 0 < d) (h : d < 10) : Nat.digitChar d ≠ '0' := by
  have hall : ∀ d < 10, 0 < d → Nat.digitChar d ≠ '0' := by decide
  exact hall d h hpos

theorem magnitude_decimal (n : ℕ) : magnitude (decimalChars n) = n := by
  by_cases hn : n = 0
  · rw [hn]
    rfl
  · obtain ⟨d, ds, hchars, hpos, hd, hds, hfold⟩ := decimalChars_cases hn
    have hten : magnitude (decimalChars n) = readDigits 10 (decimalChars n) 0 := by
      rw [hchars]
      have hfirst := digitChar_ne_zero hpos hd
      generalize Nat.digitChar d = c at hfirst
      generalize ds.map Nat.digitChar = cs
      unfold magnitude
      split
      · rename_i heq
        exact absurd (List.cons.inj heq).1 hfirst
      · rename_i heq
        exact absurd (List.cons.inj heq).1 hfirst
      · rfl
    rw [hten, hchars, ← List.map_cons, readDigits_digits, hfold]
    intro e he
    rcases List.mem_cons.mp he with rfl | he
    · exact hd
    · exact hds e he

theorem readNumber_decimal (n : ℕ) : readNumber (decimal n) = (false, n) := by
  have hmagnitude := magnitude_decimal n
  unfold readNumber decimal
  rw [String.toList_ofList]
  by_cases hn : n = 0
  · rw [hn]
    rfl
  · obtain ⟨d, ds, hchars, -, hd, -, -⟩ := decimalChars_cases hn
    obtain ⟨hspace, hminus, hplus⟩ := digitChar_plain hd
    rw [hchars] at hmagnitude ⊢
    rw [List.dropWhile_cons_of_neg (by rw [hspace]; decide)]
    generalize Nat.digitChar d = c at *
    split
    · rename_i heq
      exact absurd (List.cons.inj heq).1 hminus
    · rename_i heq
      exact absurd (List.cons.inj heq).1 hplus
    · rw [hmagnitude]

theorem readNumber_negative (n : ℕ) :
    readNumber (String.ofList ('-' :: decimalChars n)) = (true, n) := by
  unfold readNumber
  rw [String.toList_ofList, List.dropWhile_cons_of_neg (by decide)]
  change (true, magnitude (decimalChars n)) = (true, n)
  rw [magnitude_decimal]

theorem strtoul_decimal {n : ℕ} (h : n < 2 ^ 64) : strtoul (decimal n) = some n := by
  rw [strtoul, readNumber_decimal]
  dsimp only
  rw [if_neg (not_le.mpr h)]
  rfl

theorem strtoll_signedDecimal (v : Int64Range) : strtoll (signedDecimal v.1) = some v := by
  obtain ⟨v, hv⟩ := v
  unfold strtoll signedDecimal
  by_cases hneg : v < 0
  · have hvalue : -(v.natAbs : ℤ) = v := by omega
    rw [if_pos hneg, readNumber_negative]
    simp only [if_true, hvalue, dif_pos hv]
  · have hvalue : (v.natAbs : ℤ) = v := by omega
    rw [if_neg hneg, readNumber_decimal]
    simp only [Bool.false_eq_true, if_false, hvalue, dif_pos hv]

end ShipServer.NumberText
