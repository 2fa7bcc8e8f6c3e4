import Mathlib

set_option autoImplicit false

/-! Character encodings, and the conversion of texts between them. -/

namespace ShipServer.Transcoding

/-- An encoding in which a text ends at a unit that is zero. -/
structure Encoding (U : Type) [Zero U] where
  encode : ℕ → Option (List U)
  decode : List U → Option (ℕ × List U)
  decode_encode : ∀ {c units} (rest : List U), encode c = some units →
    decode (units ++ rest) = some (c, rest)
  encode_decode : ∀ {l c rest}, decode l = some (c, rest) →
    ∃ units, encode c = some units ∧ l = units ++ rest
  encode_ne_nil : ∀ c, encode c ≠ some []
  encode_zero : encode 0 = some [0]

variable {U V : Type} [Zero U] [Zero V]

namespace Encoding

theorem length_lt_of_decode (e : Encoding U) {l rest : List U} {c : ℕ}
    (h : e.decode l = some (c, rest)) : rest.length < l.length := by
  obtain ⟨units, henc, rfl⟩ := e.encode_decode h
  have hne : units ≠ [] := by
    intro hnil
    rw [hnil] at henc
    exact e.encode_ne_nil c henc
  have hpos := List.length_pos_of_ne_nil hne
  rw [List.length_append]
  omega

/-- The characters of a text, up to the first units that are none. -/
def chars (e : Encoding U) (l : List U) : List ℕ :=
  match _h : e.decode l with
  | none => []
  | some (c, rest) => c :: chars e rest
termination_by l.length
decreasing_by exact e.length_lt_of_decode _h

def text (e : Encoding U) (l : List U) : List ℕ :=
  (e.chars l).takeWhile (· ≠ 0)

/-- The first characters that the encoding has and that fit into some units. -/
def fit (e : Encoding U) : ℕ → List ℕ → List ℕ
  | _, [] => []
  | n, c :: cs =>
    match e.encode c with
    | none => []
    | some units => if units.length ≤ n then c :: e.fit (n - units.length) cs else []

def units (e : Encoding U) (cs : List ℕ) : List U :=
  cs.flatMap fun c => (e.encode c).getD []

/-- Texts in the encoding `w` are read by the encoding `r`. -/
def Reads (r w : Encoding U) : Prop :=
  ∀ c units, w.encode c = some units → r.encode c = some units

theorem reads_self (e : Encoding U) : e.Reads e :=
  fun _ _ h => h

theorem chars_of_none (e : Encoding U) {l : List U} (h : e.decode l = none) : e.chars l = [] := by
  rw [chars]
  split
  · rfl
  · rename_i h'
    rw [h] at h'
    cases h'

theorem chars_of_some (e : Encoding U) {l rest : List U} {c : ℕ}
    (h : e.decode l = some (c, rest)) : e.chars l = c :: e.chars rest := by
  rw [chars]
  split
  · rename_i h'
    rw [h] at h'
    cases h'
  · rename_i h'
    rw [h] at h'
    cases h'
    rfl

theorem chars_nil (e : Encoding U) : e.chars [] = [] := by
  apply e.chars_of_none
  cases h : e.decode [] with
  | none => rfl
  | some p => exact absurd (e.length_lt_of_decode h) (Nat.not_lt_zero _)

theorem chars_encode (e : Encoding U) {c : ℕ} {units : List U} (h : e.encode c = some units)
    (rest : List U) : e.chars (units ++ rest) = c :: e.chars rest :=
  e.chars_of_some (e.decode_encode rest h)

theorem chars_zeros (e : Encoding U) (n : ℕ) :
    e.chars (List.replicate n 0) = List.replicate n 0 := by
  induction n with
  | zero => exact e.chars_nil
  | succ n ih =>
    have h := e.chars_encode e.encode_zero (List.replicate n 0)
    rw [ih] at h
    exact h

theorem units_cons (e : Encoding U) {c : ℕ} {l : List U} (h : e.encode c = some l)
    (cs : List ℕ) : e.units (c :: cs) = l ++ e.units cs := by
  rw [units, List.flatMap_cons, h]
  rfl

theorem chars_units_fit {r w : Encoding U} (hreads : r.Reads w) (n : ℕ) (cs : List ℕ)
    (rest : List U) :
    r.chars (w.units (w.fit n cs) ++ rest) = w.fit n cs ++ r.chars rest := by
  induction cs generalizing n with
  | nil => rfl
  | cons c cs ih =>
    rw [fit]
    cases h : w.encode c with
    | none => rfl
    | some l =>
      dsimp only
      by_cases hl : l.length ≤ n
      · rw [if_pos hl, w.units_cons h, List.append_assoc, r.chars_encode (hreads c l h), ih]
        rfl
      · rw [if_neg hl]
        rfl

theorem length_units_fit (e : Encoding U) (n : ℕ) (cs : List ℕ) :
    (e.units (e.fit n cs)).length ≤ n := by
  induction cs generalizing n with
  | nil => exact Nat.zero_le n
  | cons c cs ih =>
    rw [fit]
    cases h : e.encode c with
    | none => exact Nat.zero_le n
    | some l =>
      dsimp only
      by_cases hl : l.length ≤ n
      · rw [if_pos hl, e.units_cons h, List.length_append]
        have hih := ih (n - l.length)
        omega
      · rw [if_neg hl]
        exact Nat.zero_le n

theorem takeWhile_fit (e : Encoding U) (p : ℕ → Bool) (n : ℕ) (cs : List ℕ) :
    (e.fit n cs).takeWhile p = e.fit n (cs.takeWhile p) := by
  induction cs generalizing n with
  | nil => rfl
  | cons c cs ih =>
    rw [List.takeWhile_cons, fit]
    by_cases hp : p c
    · rw [if_pos hp, fit]
      cases e.encode c with
      | none => rfl
      | some l =>
        dsimp only
        by_cases hl : l.length ≤ n
        · rw [if_pos hl, if_pos hl, List.takeWhile_cons, if_pos hp, ih]
        · rw [if_neg hl, if_neg hl]
          rfl
    · rw [if_neg hp, fit]
      cases e.encode c with
      | none => rfl
      | some l =>
        dsimp only
        by_cases hl : l.length ≤ n
        · rw [if_pos hl, List.takeWhile_cons, if_neg hp]
        · rw [if_neg hl]
          rfl

theorem isPrefix_fit (e : Encoding U) (n : ℕ) (cs : List ℕ) : e.fit n cs <+: cs := by
  induction cs generalizing n with
  | nil => exact List.prefix_refl []
  | cons c cs ih =>
    rw [fit]
    cases e.encode c with
    | none => exact List.nil_prefix
    | some l =>
      dsimp only
      by_cases hl : l.length ≤ n
      · rw [if_pos hl]
        exact (List.prefix_cons_inj c).mpr (ih _)
      · rw [if_neg hl]
        exact List.nil_prefix

/-- A text that fits fits into as many units as it takes. -/
theorem fit_of_fit (e : Encoding U) {n : ℕ} {cs : List ℕ} (h : e.fit n cs = cs) (m : ℕ)
    (hm : (e.units cs).length ≤ m) : e.fit m cs = cs := by
  induction cs generalizing n m with
  | nil => rfl
  | cons c cs ih =>
    rw [fit] at h ⊢
    cases henc : e.encode c with
    | none =>
      rw [henc] at h
      cases h
    | some l =>
      rw [henc] at h
      dsimp only at h ⊢
      rw [e.units_cons henc, List.length_append] at hm
      by_cases hl : l.length ≤ n
      · rw [if_pos hl] at h
        rw [if_pos (by omega), ih (List.cons.inj h).2 (m - l.length) (by omega)]
      · rw [if_neg hl] at h
        cases h

theorem length_units_of_fit (e : Encoding U) {n : ℕ} {cs : List ℕ} (h : e.fit n cs = cs) :
    (e.units cs).length ≤ n := by
  have hlen := e.length_units_fit n cs
  rw [h] at hlen
  exact hlen

theorem fit_mono (e : Encoding U) {n m : ℕ} {cs : List ℕ} (h : e.fit n cs = cs) (hnm : n ≤ m) :
    e.fit m cs = cs :=
  e.fit_of_fit h m ((e.length_units_of_fit h).trans hnm)

theorem fit_chars (e : Encoding U) (l : List U) : e.fit l.length (e.chars l) = e.chars l := by
  induction hn : l.length using Nat.strong_induction_on generalizing l with
  | _ n ih =>
    cases hdec : e.decode l with
    | none =>
      rw [e.chars_of_none hdec]
      rfl
    | some p =>
      obtain ⟨c, rest⟩ := p
      have hlt := e.length_lt_of_decode hdec
      rw [e.chars_of_some hdec]
      obtain ⟨us, henc, hl⟩ := e.encode_decode hdec
      have hlen : l.length = us.length + rest.length := by
        rw [hl, List.length_append]
      have hrest : n - us.length = rest.length := by omega
      rw [fit, henc]
      dsimp only
      rw [if_pos (by omega), hrest, ih rest.length (by omega) rest rfl]

/-- What stands in a field fits into it. -/
theorem fit_text (e : Encoding U) {l : List U} {n : ℕ} (h : l.length ≤ n) :
    e.fit n (e.text l) = e.text l := by
  refine e.fit_mono ?_ h
  rw [text, ← takeWhile_fit, fit_chars]

theorem fit_of_isPrefix (e : Encoding U) {n : ℕ} {cs cs' : List ℕ} (h : e.fit n cs' = cs')
    (hcs : cs <+: cs') : e.fit n cs = cs := by
  induction cs generalizing n cs' with
  | nil => rfl
  | cons c cs ih =>
    obtain ⟨rest, rfl⟩ := hcs
    rw [List.cons_append, fit] at h
    rw [fit]
    cases henc : e.encode c with
    | none =>
      rw [henc] at h
      cases h
    | some l =>
      rw [henc] at h
      dsimp only at h ⊢
      by_cases hl : l.length ≤ n
      · rw [if_pos hl] at h ⊢
        exact congrArg (c :: ·) (ih (List.cons.inj h).2 (List.prefix_append cs rest))
      · rw [if_neg hl] at h
        cases h

theorem text_of_none (e : Encoding U) {l : List U} (h : e.decode l = none) : e.text l = [] := by
  rw [text, e.chars_of_none h]
  rfl

theorem text_of_some (e : Encoding U) {l rest : List U} {c : ℕ}
    (h : e.decode l = some (c, rest)) (hc : c ≠ 0) : e.text l = c :: e.text rest := by
  rw [text, e.chars_of_some h, List.takeWhile_cons, if_pos (decide_eq_true hc)]
  rfl

theorem text_of_zero (e : Encoding U) {l rest : List U} (h : e.decode l = some (0, rest)) :
    e.text l = [] := by
  rw [text, e.chars_of_some h, List.takeWhile_cons, if_neg (by simp)]

theorem decode_take (e : Encoding U) {l : List U} (h : e.decode l = none) (n : ℕ) :
    e.decode (l.take n) = none := by
  cases hdec : e.decode (l.take n) with
  | none => rfl
  | some p =>
    obtain ⟨c, rest⟩ := p
    obtain ⟨us, henc, hus⟩ := e.encode_decode hdec
    have hl := e.decode_encode (rest ++ l.drop n) henc
    rw [← List.append_assoc, ← hus, List.take_append_drop, h] at hl
    cases hl

/-- Nothing of a text is lost where its units end. -/
theorem text_take (e : Encoding U) {l : List U} {n : ℕ} (h : (e.units (e.text l)).length ≤ n) :
    e.text (l.take n) = e.text l := by
  induction hn : l.length using Nat.strong_induction_on generalizing l n with
  | _ k ih =>
    cases hdec : e.decode l with
    | none => rw [e.text_of_none hdec, e.text_of_none (e.decode_take hdec n)]
    | some p =>
      obtain ⟨c, rest⟩ := p
      have hlt := e.length_lt_of_decode hdec
      obtain ⟨us, henc, hl⟩ := e.encode_decode hdec
      by_cases hc : c = 0
      · rw [hc] at hdec henc
        rw [e.text_of_zero hdec, hl]
        rw [e.encode_zero] at henc
        rw [← Option.some.inj henc]
        cases n with
        | zero => exact congrArg (List.takeWhile _) e.chars_nil
        | succ n => exact e.text_of_zero (e.decode_encode (rest.take n) e.encode_zero)
      · rw [e.text_of_some hdec hc] at h ⊢
        rw [e.units_cons henc, List.length_append] at h
        have htake : l.take n = us ++ rest.take (n - us.length) := by
          rw [hl, List.take_append, List.take_of_length_le (by omega)]
        rw [htake, e.text_of_some (e.decode_encode _ henc) hc]
        exact congrArg (c :: ·) (ih rest.length (by omega) (by omega) rfl)

theorem text_units_fit {r w : Encoding U} (hreads : r.Reads w) (n k : ℕ) (cs : List ℕ) :
    r.text (w.units (w.fit n cs) ++ List.replicate k 0) = w.fit n (cs.takeWhile (· ≠ 0)) := by
  rw [text, chars_units_fit hreads, chars_zeros, ← takeWhile_fit, List.takeWhile_append]
  split_ifs with hall
  · have hzeros : (List.replicate k 0).takeWhile (fun c : ℕ => decide (c ≠ 0)) = [] := by
      cases k with
      | zero => rfl
      | succ k => rfl
    rw [hzeros, List.append_nil]
    exact ((List.takeWhile_sublist _).eq_of_length hall).symm
  · rfl

end Encoding

/-- `iconv` stops at units that are no character, at characters that the encoding does not have and
at the end of its room. -/
def iconv (src : Encoding U) (dst : Encoding V) (l : List U) (room : ℕ) : List V :=
  match _h : src.decode l with
  | none => []
  | some (c, rest) =>
    match dst.encode c with
    | none => []
    | some units =>
      if units.length ≤ room then units ++ iconv src dst rest (room - units.length) else []
termination_by l.length
decreasing_by exact src.length_lt_of_decode _h

theorem iconv_of_none {src : Encoding U} (dst : Encoding V) {l : List U}
    (h : src.decode l = none) (room : ℕ) : iconv src dst l room = [] := by
  rw [iconv]
  split
  · rfl
  · rename_i h'
    rw [h] at h'
    cases h'

theorem iconv_of_some {src : Encoding U} (dst : Encoding V) {l rest : List U} {c : ℕ}
    (h : src.decode l = some (c, rest)) (room : ℕ) :
    iconv src dst l room =
      match dst.encode c with
      | none => []
      | some units =>
        if units.length ≤ room then units ++ iconv src dst rest (room - units.length) else [] := by
  rw [iconv]
  split
  · rename_i h'
    rw [h] at h'
    cases h'
  · rename_i h'
    rw [h] at h'
    cases h'
    rfl

theorem iconv_eq (src : Encoding U) (dst : Encoding V) (l : List U) (room : ℕ) :
    iconv src dst l room = dst.units (dst.fit room (src.chars l)) := by
  induction hn : l.length using Nat.strong_induction_on generalizing l room with
  | _ n ih =>
    cases hdec : src.decode l with
    | none =>
      rw [iconv_of_none dst hdec, src.chars_of_none hdec]
      rfl
    | some p =>
      obtain ⟨c, rest⟩ := p
      have hlt := src.length_lt_of_decode hdec
      rw [iconv_of_some dst hdec, src.chars_of_some hdec, Encoding.fit]
      cases henc : dst.encode c with
      | none => rfl
      | some us =>
        dsimp only
        split_ifs with hroom
        · rw [dst.units_cons henc, ih rest.length (by omega) rest _ rfl]
        · rfl

theorem length_iconv_le (src : Encoding U) (dst : Encoding V) (l : List U) (room : ℕ) :
    (iconv src dst l room).length ≤ room := by
  rw [iconv_eq]
  exact dst.length_units_fit room _

/-- The text that a reader finds in the field that is filled. -/
theorem text_iconv (src : Encoding U) {r dst : Encoding V} (hreads : r.Reads dst) (l : List U)
    (room k : ℕ) :
    r.text (iconv src dst l room ++ List.replicate k 0) = dst.fit room (src.text l) := by
  rw [iconv_eq, Encoding.text_units_fit hreads]
  rfl

/-- A character that stands second, after one that takes one unit, stands second afterwards. -/
theorem second_iconv {src : Encoding U} {dst : Encoding V} {c : ℕ} {u : U} {v : V} (hv : v ≠ 0)
    (hsrc : src.encode c = some [u]) (hdst : dst.encode c = some [v]) {c₀ : ℕ} {u₀ : U} {v₀ : V}
    (hsrc₀ : src.encode c₀ = some [u₀]) (hdst₀ : dst.encode c₀ = some [v₀]) (rest : List U)
    (room k : ℕ) :
    (iconv src dst (u₀ :: rest) (room + 2) ++ List.replicate k 0)[1]? = some v ↔
      rest[0]? = some u := by
  have hzeros : ∀ k : ℕ, (List.replicate k (0 : V))[0]? ≠ some v := by
    intro k hk
    cases k with
    | zero => cases hk
    | succ k => exact hv (Option.some.inj hk).symm
  have hread : ∀ l : List U, src.decode (u :: l) = some (c, l) :=
    fun l => src.decode_encode l hsrc
  have hfirst : src.decode (u₀ :: rest) = some (c₀, rest) := src.decode_encode rest hsrc₀
  rw [iconv_of_some dst hfirst, hdst₀]
  dsimp only
  rw [if_pos (by exact Nat.le_add_left 1 _), List.singleton_append, List.cons_append,
    List.getElem?_cons_succ]
  change (iconv src dst rest (room + 1) ++ List.replicate k 0)[0]? = some v ↔ _
  cases hdec : src.decode rest with
  | none =>
    rw [iconv_of_none dst hdec, List.nil_append]
    constructor
    · intro h
      exact absurd h (hzeros k)
    · intro h
      cases rest with
      | nil => cases h
      | cons w l =>
        rw [Option.some.inj h, hread l] at hdec
        cases hdec
  | some p =>
    obtain ⟨c₁, rest'⟩ := p
    obtain ⟨us, henc, hrest⟩ := src.encode_decode hdec
    rw [iconv_of_some dst hdec]
    constructor
    · intro h
      cases henc' : dst.encode c₁ with
      | none =>
        rw [henc'] at h
        exact absurd h (hzeros k)
      | some vs =>
        rw [henc'] at h
        dsimp only at h
        cases vs with
        | nil => exact absurd henc' (dst.encode_ne_nil c₁)
        | cons w vs =>
          by_cases hroom : (w :: vs).length ≤ room + 1
          · rw [if_pos hroom] at h
            have hw : w = v := Option.some.inj h
            have h₁ := dst.decode_encode [] henc'
            have h₂ := dst.decode_encode vs hdst
            rw [List.append_nil, hw] at h₁
            change dst.decode (v :: vs) = some (c, vs) at h₂
            rw [h₁] at h₂
            have hc : c₁ = c := (Prod.ext_iff.mp (Option.some.inj h₂)).1
            rw [hc, hsrc] at henc
            rw [hrest, ← Option.some.inj henc]
            rfl
          · rw [if_neg hroom] at h
            exact absurd h (hzeros k)
    · intro h
      cases rest with
      | nil => cases h
      | cons w l =>
        rw [Option.some.inj h, hread l] at hdec
        have hc : c₁ = c := ((Prod.ext_iff.mp (Option.some.inj hdec)).1).symm
        rw [hc, hdst]
        dsimp only
        rw [if_pos (by exact Nat.le_add_left 1 _)]
        rfl

section Strings

variable [DecidableEq U]

/-- The string in a field: its units up to a zero. -/
def string (l : List U) : List U :=
  l.takeWhile (· ≠ 0)

theorem string_take_append (l : List U) (n k : ℕ) :
    string (l.take n ++ List.replicate k 0) = (string l).take n := by
  induction l generalizing n with
  | nil =>
    rw [List.take_nil, List.nil_append]
    cases k with
    | zero => exact (List.take_nil).symm
    | succ k =>
      rw [List.replicate_succ, string, List.takeWhile_cons, if_neg (by simp)]
      exact (List.take_nil).symm
  | cons u l ih =>
    cases n with
    | zero =>
      rw [List.take_zero, List.take_zero, List.nil_append]
      cases k with
      | zero => rfl
      | succ k =>
        rw [List.replicate_succ, string, List.takeWhile_cons, if_neg (by simp)]
    | succ n =>
      rw [string, string, List.take_succ_cons, List.cons_append, List.takeWhile_cons,
        List.takeWhile_cons]
      split_ifs with hu
      · rw [List.take_succ_cons]
        exact congrArg (u :: ·) (ih n)
      · rfl

end Strings

/-! Fields of a packet and the copies into them. -/

structure Field (U : Type) (n : ℕ) where
  units : List U
  length_units : units.length = n

/-- A span of a field that is read or written. -/
structure Access where
  pos : ℕ
  count : ℕ
  width : ℕ

def Access.Inside (a : Access) : Prop :=
  a.pos + a.count ≤ a.width

instance (a : Access) : Decidable a.Inside :=
  inferInstanceAs (Decidable (a.pos + a.count ≤ a.width))

/-- What stands in memory from the start of a field on, and how wide the field is. -/
structure Region (U : Type) where
  units : List U
  width : ℕ

/-- A field that is being filled, with the accesses so far. -/
structure Fill (U : Type) (n : ℕ) where
  field : Field U n
  accesses : List Access

variable {n : ℕ}

namespace Field

def region (f : Field U n) : Region U where
  units := f.units
  width := n

omit [Zero U] in
theorem length_splice (f : Field U n) {pos : ℕ} {l : List U} (h : pos + l.length ≤ n) :
    (f.units.take pos ++ l ++ f.units.drop (pos + l.length)).length = n := by
  have hlen := f.length_units
  rw [List.length_append, List.length_append, List.length_take, List.length_drop]
  omega

def write (f : Field U n) (pos : ℕ) (l : List U) : Field U n :=
  if h : pos + l.length ≤ n then
    ⟨f.units.take pos ++ l ++ f.units.drop (pos + l.length), f.length_splice h⟩
  else f

omit [Zero U] in
theorem units_write (f : Field U n) {pos : ℕ} {l : List U} (h : pos + l.length ≤ n) :
    (f.write pos l).units = f.units.take pos ++ l ++ f.units.drop (pos + l.length) := by
  rw [write, dif_pos h]

end Field

namespace Fill

/-- A field of zeros that starts with some units. -/
def starting (head : List U) : Fill U n where
  field := Field.write ⟨List.replicate n 0, List.length_replicate⟩ 0 head
  accesses := [⟨0, head.length, n⟩]

def memcpy (dst : Fill U n) (pos : ℕ) (src : Region U) (srcPos count : ℕ) : Fill U n where
  field := dst.field.write pos ((src.units.drop srcPos).take count)
  accesses := dst.accesses ++ [⟨srcPos, count, src.width⟩, ⟨pos, count, n⟩]

def convert (e : Encoding U) (e' : Encoding V) (dst : Fill V n) (pos room : ℕ) (src : Region U)
    (srcPos count : ℕ) : Fill V n where
  field := dst.field.write pos (iconv e e' ((src.units.drop srcPos).take count) room)
  accesses := dst.accesses ++ [⟨srcPos, count, src.width⟩, ⟨pos, room, n⟩]

theorem field_starting (head : List U) (h : head.length ≤ n) :
    (starting head : Fill U n).field.units = head ++ List.replicate (n - head.length) 0 := by
  rw [starting, Field.units_write _ (by omega), List.take_zero, List.nil_append,
    Nat.zero_add, List.drop_replicate]

theorem write_starting (head l : List U) (h : head.length + l.length ≤ n) :
    ((starting head : Fill U n).field.write head.length l).units =
      head ++ (l ++ List.replicate (n - head.length - l.length) 0) := by
  rw [Field.units_write _ h, field_starting head (by omega), List.take_left, List.drop_append,
    List.drop_replicate, List.drop_of_length_le (by omega), List.nil_append, Nat.add_sub_cancel_left,
    List.append_assoc]

theorem field_memcpy (head : List U) (src : Region U) (srcPos count : ℕ)
    (h : head.length + count ≤ n) :
    ∃ k, ((starting head : Fill U n).memcpy head.length src srcPos count).field.units =
      head ++ ((src.units.drop srcPos).take count ++ List.replicate k 0) := by
  have hlen := List.length_take_le count (src.units.drop srcPos)
  exact ⟨_, write_starting head _ (by omega)⟩

theorem field_convert (e : Encoding U) (e' : Encoding V) (head : List V) (room : ℕ)
    (src : Region U) (srcPos count : ℕ) (h : head.length + room ≤ n) :
    ∃ k, ((starting head : Fill V n).convert e e' head.length room src srcPos count).field.units =
      head ++ (iconv e e' ((src.units.drop srcPos).take count) room ++ List.replicate k 0) := by
  have hlen := length_iconv_le e e' ((src.units.drop srcPos).take count) room
  exact ⟨_, write_starting head _ (by omega)⟩

end Fill

end ShipServer.Transcoding
