import ShipServer.CommandText

set_option autoImplicit false

/-! The trigger that is looked up for a chat message. -/

namespace ShipServer.CommandNames

open TracedReads StringReads Transcoding CommandText

/-- The triggers are short words of plain characters, without a slash. -/
theorem plain_of_trigger {e : String × Parser} (he : e ∈ cmds) :
    e.1.toList ≠ [] ∧ e.1.toList.length < 10 ∧
      ∀ ch ∈ e.1.toList.map Char.toNat, ch ≠ 0x2F ∧ ch < 128 := by
  have hall : ∀ t ∈ cmds.map Prod.fst, t.toList ≠ [] ∧ t.toList.length < 10 ∧
      ∀ ch ∈ t.toList.map Char.toNat, ch ≠ 0x2F ∧ ch < 128 := by
    decide +kernel
  exact hall e.1 (List.mem_map_of_mem he)

section Lookup

variable {codes : List ℕ}

theorem trigger_of_lookup {e : String × Parser} (h : lookup codes = some e) :
    e ∈ cmds ∧ e.1.toList.map Char.toNat = codes :=
  ⟨List.mem_of_find?_eq_some h, of_decide_eq_true
    (List.find?_some (p := fun e : String × Parser => e.1.toList.map Char.toNat = codes) h)⟩

theorem lookup_eq_none (h : ∀ e ∈ cmds, e.1.toList.map Char.toNat ≠ codes) :
    lookup codes = none := by
  cases hl : lookup codes with
  | none => rfl
  | some e =>
    obtain ⟨hmem, heq⟩ := trigger_of_lookup hl
    exact absurd heq (h e hmem)

theorem lookup_nil : lookup [] = none := by
  refine lookup_eq_none fun e he h => ?_
  exact (plain_of_trigger he).1 (List.map_eq_nil_iff.mp h)

theorem lookup_long (h : 10 ≤ codes.length) : lookup codes = none := by
  refine lookup_eq_none fun e he heq => ?_
  have hlen := (plain_of_trigger he).2.1
  rw [← heq, List.length_map] at h
  omega

theorem lookup_strange {ch : ℕ} (hch : ch ∈ codes) (hstrange : ch = 0x2F ∨ 128 ≤ ch) :
    lookup codes = none := by
  refine lookup_eq_none fun e he heq => ?_
  have hplain := (plain_of_trigger he).2.2 ch (by rw [heq]; exact hch)
  omega

end Lookup

/-! The bytes of the characters. -/

section Bytes

variable (T : ChatCodecs)

/-- The characters that UTF-8 has. -/
def Encoded (cs : List ℕ) : Prop :=
  ∀ c ∈ cs, ∃ units, T.utf8.encode c = some units

theorem encoded_fit (n : ℕ) (cs : List ℕ) : Encoded T (T.utf8.fit n cs) := by
  induction cs generalizing n with
  | nil =>
    intro c hc
    cases hc
  | cons c cs ih =>
    rw [Encoding.fit]
    cases henc : T.utf8.encode c with
    | none =>
      intro c' hc
      cases hc
    | some l =>
      dsimp only
      split_ifs
      · intro c' hc
        rcases List.mem_cons.mp hc with rfl | hin
        · exact ⟨l, henc⟩
        · exact ih _ c' hin
      · intro c' hc
        cases hc

variable {T}

theorem units_ascii {c : ℕ} (hc : c < 128) (cs : List ℕ) :
    T.utf8.units (c :: cs) = BitVec.ofNat 8 c :: T.utf8.units cs :=
  T.utf8.units_cons (T.utf8_ascii c hc) cs

theorem toNat_ascii {c : ℕ} (hc : c < 128) : (BitVec.ofNat 8 c).toNat = c := by
  rw [BitVec.toNat_ofNat]
  exact Nat.mod_eq_of_lt (by omega)

theorem encoded_tail {c : ℕ} {cs : List ℕ} (h : Encoded T (c :: cs)) : Encoded T cs :=
  fun c' hc => h c' (List.mem_cons_of_mem c hc)

/-- A byte that no trigger has. -/
def Strange (b : Byte) : Prop :=
  b = 0x2F ∨ 128 ≤ b.toNat

theorem inWord_of_strange {b : Byte} (h : Strange b) : inWord b = true := by
  rcases h with rfl | h
  · decide
  · refine decide_eq_true ⟨?_, ?_⟩
    · rintro rfl
      exact absurd h (by decide)
    · rintro rfl
      exact absurd h (by decide)

theorem lookup_of_strange {l : List Byte} {b : Byte} (hb : b ∈ l) (h : Strange b) :
    lookup (codesOf l) = none := by
  refine lookup_strange (List.mem_map_of_mem hb) ?_
  rcases h with rfl | h
  · exact Or.inl (by decide)
  · exact Or.inr h

/-- What is left of a character of more than one byte. -/
theorem drop_high {c k : ℕ} {units : List Byte} (hc : 128 ≤ c)
    (henc : T.utf8.encode c = some units) (hk : k < units.length) (rest : List Byte) :
    ∃ b r, (units ++ rest).drop k = b :: r ∧ Strange b := by
  obtain ⟨-, hhigh⟩ := T.utf8_high c units hc henc
  refine ⟨units[k], units.drop (k + 1) ++ rest, ?_, Or.inr (hhigh _ (List.getElem_mem hk))⟩
  rw [List.drop_append_of_le_length hk.le, List.drop_eq_getElem_cons hk, List.cons_append]

theorem inWord_ascii {c : ℕ} (hc : c < 128) (hw : wordChar c = true) :
    inWord (BitVec.ofNat 8 c) = true := by
  obtain ⟨hblank, hzero⟩ := of_decide_eq_true hw
  refine decide_eq_true ⟨fun hb => hblank ?_, fun hb => hzero ?_⟩
  · rw [← toNat_ascii hc, hb]
    rfl
  · rw [← toNat_ascii hc, hb]
    rfl

/-- A word of plain characters is read as it is. -/
theorem codesOf_word {cs : List ℕ} (n : ℕ) (h : ∀ ch ∈ (cs.takeWhile wordChar).take n, ch < 128) :
    codesOf (((T.utf8.units cs).takeWhile inWord).take n) = (cs.takeWhile wordChar).take n := by
  induction cs generalizing n with
  | nil =>
    cases n with
    | zero => rfl
    | succ n => rfl
  | cons c cs ih =>
    cases n with
    | zero => rfl
    | succ n =>
      by_cases hw : wordChar c = true
      · rw [List.takeWhile_cons, if_pos hw, List.take_succ_cons] at h ⊢
        have hc := h c List.mem_cons_self
        rw [units_ascii hc, List.takeWhile_cons, if_pos (inWord_ascii hc hw),
          List.take_succ_cons, codesOf, List.map_cons, toNat_ascii hc]
        exact congrArg (c :: ·) (ih n fun ch hch => h ch (List.mem_cons_of_mem c hch))
      · have hc : c = 0x20 ∨ c = 0 := by
          by_contra hne
          obtain ⟨hblank, hzero⟩ := not_or.mp hne
          exact hw (decide_eq_true ⟨hblank, hzero⟩)
        rw [List.takeWhile_cons, if_neg hw]
        rcases hc with rfl | rfl
        · rw [units_ascii (by decide), List.takeWhile_cons, if_neg (by decide)]
          rfl
        · rw [units_ascii (by decide), List.takeWhile_cons, if_neg (by decide)]
          rfl

/-- Other characters leave bytes in the word that no trigger has. -/
theorem strange_word {cs : List ℕ} (hcs : Encoded T cs) (n : ℕ) {ch : ℕ}
    (hch : ch ∈ (cs.takeWhile wordChar).take n) (hhigh : 128 ≤ ch) :
    ∃ b ∈ ((T.utf8.units cs).takeWhile inWord).take n, Strange b := by
  induction cs generalizing n with
  | nil =>
    rw [List.takeWhile_nil, List.take_nil] at hch
    cases hch
  | cons c cs ih =>
    rw [List.takeWhile_cons] at hch
    split_ifs at hch with hw
    · cases n with
      | zero => cases hch
      | succ n =>
        rw [List.take_succ_cons] at hch
        by_cases hc : c < 128
        · rcases List.mem_cons.mp hch with rfl | htail
          · omega
          · obtain ⟨b, hb, hstrange⟩ := ih (encoded_tail hcs) n htail
            rw [units_ascii hc, List.takeWhile_cons, if_pos (inWord_ascii hc hw),
              List.take_succ_cons]
            exact ⟨b, List.mem_cons_of_mem _ hb, hstrange⟩
        · obtain ⟨us, henc⟩ := hcs c List.mem_cons_self
          obtain ⟨hlen, -⟩ := T.utf8_high c us (Nat.le_of_not_lt hc) henc
          obtain ⟨b, r, hdrop, hstrange⟩ := drop_high (T := T) (Nat.le_of_not_lt hc) henc
            (k := 0) (by omega) (T.utf8.units cs)
          refine ⟨b, ?_, hstrange⟩
          rw [T.utf8.units_cons henc, ← List.drop_zero (l := us ++ _), hdrop,
            List.takeWhile_cons, if_pos (inWord_of_strange hstrange), List.take_succ_cons]
          exact List.mem_cons_self
    · rw [List.take_nil] at hch
      cases hch

theorem lookup_word {cs : List ℕ} (hcs : Encoded T cs) (n : ℕ) :
    lookup (codesOf (((T.utf8.units cs).takeWhile inWord).take n)) =
      lookup ((cs.takeWhile wordChar).take n) := by
  by_cases hplain : ∀ ch ∈ (cs.takeWhile wordChar).take n, ch < 128
  · rw [codesOf_word n hplain]
  · obtain ⟨ch, hex⟩ := not_forall.mp hplain
    obtain ⟨hch, hlt⟩ := Classical.not_imp.mp hex
    have hhigh := Nat.le_of_not_lt hlt
    obtain ⟨b, hb, hstrange⟩ := strange_word hcs n hch hhigh
    rw [lookup_of_strange hb hstrange, lookup_strange hch (Or.inr hhigh)]

/-- The end of a text is the end of its bytes. -/
theorem zero_mem_of_units {cs : List ℕ} (hcs : Encoded T cs) (h : 0 ∈ T.utf8.units cs) :
    0 ∈ cs := by
  obtain ⟨c, hc, hzero⟩ := List.mem_flatMap.mp h
  obtain ⟨us, henc⟩ := hcs c hc
  rw [henc] at hzero
  change 0 ∈ us at hzero
  by_cases hlt : c < 128
  · rw [T.utf8_ascii c hlt] at henc
    rw [← Option.some.inj henc] at hzero
    have hc0 : c = 0 := by
      rw [← toNat_ascii hlt, ← List.mem_singleton.mp hzero]
      rfl
    rw [hc0] at hc
    exact hc
  · obtain ⟨-, hhigh⟩ := T.utf8_high c us (Nat.le_of_not_lt hlt) henc
    exact absurd (hhigh 0 hzero) (by decide)

/-- The third character of a command is a slash, or one of the first is no plain one. -/
def Slashed (cs : List ℕ) : Prop :=
  ∀ a b ch rest, cs = a :: b :: ch :: rest →
    2 ^ 16 ≤ a ∨ 2 ^ 16 ≤ b ∨ ch = 0x2F ∨ 128 ≤ ch

/-- Where the word starts if the characters in front of it do not take a byte each. -/
def Shifted (l : List Byte) : Prop :=
  (∃ b r, l = b :: r ∧ (b = 0 ∨ Strange b)) ∨ ∃ a b r, l = a :: b :: r ∧ Strange b

theorem lookup_of_shifted {l : List Byte} (h : Shifted l) :
    lookup (codesOf ((l.takeWhile inWord).take 9)) = none := by
  rcases h with ⟨b, r, rfl, rfl | hb⟩ | ⟨a, b, r, rfl, hb⟩
  · exact lookup_nil
  · refine lookup_of_strange (b := b) ?_ hb
    rw [List.takeWhile_cons, if_pos (inWord_of_strange hb), List.take_succ_cons]
    exact List.mem_cons_self
  · by_cases ha : inWord a = true
    · refine lookup_of_strange (b := b) ?_ hb
      rw [List.takeWhile_cons, if_pos ha, List.takeWhile_cons, if_pos (inWord_of_strange hb),
        List.take_succ_cons, List.take_succ_cons]
      exact List.mem_cons_of_mem _ List.mem_cons_self
    · rw [List.takeWhile_cons, if_neg ha]
      exact lookup_nil

/-- The first byte of the third character. -/
theorem strange_third {ch : ℕ} {cs : List ℕ} (hcs : Encoded T (ch :: cs))
    (hch : ch = 0x2F ∨ 128 ≤ ch) : ∃ b r, T.utf8.units (ch :: cs) = b :: r ∧ Strange b := by
  rcases hch with rfl | hhigh
  · exact ⟨_, _, units_ascii (by decide) cs, Or.inl rfl⟩
  · obtain ⟨us, henc⟩ := hcs ch List.mem_cons_self
    obtain ⟨hlen, -⟩ := T.utf8_high ch us hhigh henc
    have hdrop := drop_high (T := T) hhigh henc (k := 0) (by omega) (T.utf8.units cs)
    rw [T.utf8.units_cons henc]
    exact hdrop

theorem third_of_slashed {a b : ℕ} {cs : List ℕ} (hslash : Slashed (a :: b :: cs))
    (hcs : Encoded T cs) (ha : a < 2 ^ 16) (hb : b < 2 ^ 16) (hne : cs ≠ []) :
    ∃ x r, T.utf8.units cs = x :: r ∧ Strange x := by
  obtain ⟨ch, rest, rfl⟩ := List.exists_cons_of_ne_nil hne
  refine strange_third hcs ?_
  rcases hslash a b ch rest rfl with h | h | h | h
  · omega
  · omega
  · exact Or.inl h
  · exact Or.inr h

theorem ne_nil_of_zero {cs : List ℕ} {k : ℕ} (h : 0 ∈ (T.utf8.units cs).drop k) : cs ≠ [] := by
  rintro rfl
  have hnil := List.mem_of_mem_drop h
  cases hnil

theorem lt_of_short {a : ℕ} {us : List Byte} (henc : T.utf8.encode a = some us)
    (hlen : us.length < 4) : a < 2 ^ 16 := by
  by_contra hle
  have hlong := T.utf8_long a us (Nat.le_of_not_lt hle) henc
  omega

/-- The text behind a character of one byte. -/
theorem shifted_of_plain {a : ℕ} {cs : List ℕ} (hcs : Encoded T (a :: cs))
    (hslash : Slashed (a :: cs)) (ha : a < 128) (hwide : ∃ ch ∈ cs.take 2, 128 ≤ ch)
    (hend : 0 ∈ (T.utf8.units cs).drop 2) : Shifted ((T.utf8.units cs).drop 2) := by
  obtain ⟨b, rest, rfl⟩ := List.exists_cons_of_ne_nil (ne_nil_of_zero hend)
  have hrest := encoded_tail (encoded_tail hcs)
  by_cases hb : b < 128
  · rw [units_ascii hb, List.drop_succ_cons] at hend ⊢
    obtain ⟨ch, rest', rfl⟩ := List.exists_cons_of_ne_nil (ne_nil_of_zero hend)
    have hch : 128 ≤ ch := by
      obtain ⟨ch', hmem, hhigh⟩ := hwide
      rcases List.mem_cons.mp hmem with rfl | hmem
      · omega
      · rw [← List.mem_singleton.mp hmem]
        exact hhigh
    obtain ⟨us, henc⟩ := hrest ch List.mem_cons_self
    obtain ⟨hlen, -⟩ := T.utf8_high ch us hch henc
    obtain ⟨x, r, hdrop, hx⟩ := drop_high (T := T) hch henc (k := 1) (by omega)
      (T.utf8.units rest')
    rw [T.utf8.units_cons henc]
    exact Or.inl ⟨x, r, hdrop, Or.inr hx⟩
  · obtain ⟨us, henc⟩ := encoded_tail hcs b List.mem_cons_self
    obtain ⟨hlen, -⟩ := T.utf8_high b us (Nat.le_of_not_lt hb) henc
    rw [T.utf8.units_cons henc] at hend ⊢
    by_cases htwo : us.length = 2
    · rw [List.drop_left' htwo] at hend ⊢
      obtain ⟨x, r, hunits, hx⟩ := third_of_slashed hslash hrest (by omega)
        (lt_of_short henc (by omega)) (ne_nil_of_zero (k := 0) hend)
      exact Or.inl ⟨x, r, hunits, Or.inr hx⟩
    · obtain ⟨x, r, hdrop, hx⟩ := drop_high (T := T) (Nat.le_of_not_lt hb) henc (k := 2)
        (by omega) (T.utf8.units rest)
      exact Or.inl ⟨x, r, hdrop, Or.inr hx⟩

/-- The text behind a character of some bytes. -/
theorem shifted_of_wide {a : ℕ} {us : List Byte} {cs : List ℕ} (hcs : Encoded T (a :: cs))
    (hslash : Slashed (a :: cs)) (ha : 128 ≤ a) (henc : T.utf8.encode a = some us)
    (hend : 0 ∈ (us ++ T.utf8.units cs).drop 3) : Shifted ((us ++ T.utf8.units cs).drop 3) := by
  obtain ⟨hlen, -⟩ := T.utf8_high a us ha henc
  by_cases hfour : 4 ≤ us.length
  · obtain ⟨x, r, hdrop, hx⟩ := drop_high (T := T) ha henc (k := 3) (by omega) (T.utf8.units cs)
    exact Or.inl ⟨x, r, hdrop, Or.inr hx⟩
  · have hshort := lt_of_short henc (by omega)
    have hdrop3 : (us ++ T.utf8.units cs).drop 3 = (T.utf8.units cs).drop (3 - us.length) := by
      rw [List.drop_append, List.drop_eq_nil_of_le (by omega), List.nil_append]
    rw [hdrop3] at hend ⊢
    obtain ⟨b, rest, rfl⟩ := List.exists_cons_of_ne_nil (ne_nil_of_zero hend)
    have hrest := encoded_tail (encoded_tail hcs)
    by_cases hb : b < 128
    · rw [units_ascii hb] at hend ⊢
      by_cases hthree : us.length = 3
      · rw [hthree, Nat.sub_self, List.drop_zero] at hend ⊢
        by_cases hnil : rest = []
        · rw [hnil] at hend ⊢
          exact Or.inl ⟨_, _, rfl, Or.inl (List.mem_singleton.mp hend).symm⟩
        · obtain ⟨x, r, hunits, hx⟩ := third_of_slashed hslash hrest hshort (by omega) hnil
          exact Or.inr ⟨_, x, r, congrArg _ hunits, hx⟩
      · have hone : 3 - us.length = 1 := by omega
        rw [hone, List.drop_succ_cons, List.drop_zero] at hend ⊢
        obtain ⟨x, r, hunits, hx⟩ := third_of_slashed hslash hrest hshort (by omega)
          (ne_nil_of_zero (k := 0) hend)
        exact Or.inl ⟨x, r, hunits, Or.inr hx⟩
    · obtain ⟨us', henc'⟩ := encoded_tail hcs b List.mem_cons_self
      obtain ⟨hlen', -⟩ := T.utf8_high b us' (Nat.le_of_not_lt hb) henc'
      obtain ⟨x, r, hdrop, hx⟩ := drop_high (T := T) (Nat.le_of_not_lt hb) henc'
        (k := 3 - us.length) (by omega) (T.utf8.units rest)
      rw [T.utf8.units_cons henc']
      exact Or.inl ⟨x, r, hdrop, Or.inr hx⟩

theorem shifted_units {cs : List ℕ} (hcs : Encoded T cs) (hslash : Slashed cs)
    (hwide : ∃ ch ∈ cs.take 3, 128 ≤ ch) (hend : 0 ∈ (T.utf8.units cs).drop 3) :
    Shifted ((T.utf8.units cs).drop 3) := by
  obtain ⟨a, rest, rfl⟩ := List.exists_cons_of_ne_nil (ne_nil_of_zero hend)
  by_cases ha : a < 128
  · rw [units_ascii ha, List.drop_succ_cons] at hend ⊢
    refine shifted_of_plain hcs hslash ha ?_ hend
    obtain ⟨ch, hmem, hhigh⟩ := hwide
    rcases List.mem_cons.mp hmem with rfl | hmem
    · omega
    · exact ⟨ch, hmem, hhigh⟩
  · obtain ⟨us, henc⟩ := hcs a List.mem_cons_self
    rw [T.utf8.units_cons henc] at hend ⊢
    exact shifted_of_wide hcs hslash (Nat.le_of_not_lt ha) henc hend

end Bytes

/-! The characters of the packets. -/

section Packets

theorem decode_of_chars {U : Type} [Zero U] {e : Encoding U} {l : List U} {c : ℕ} {cs : List ℕ}
    (h : e.chars l = c :: cs) :
    ∃ units rest, e.encode c = some units ∧ l = units ++ rest ∧ e.chars rest = cs := by
  cases hdec : e.decode l with
  | none =>
    rw [e.chars_of_none hdec] at h
    cases h
  | some p =>
    obtain ⟨c', rest⟩ := p
    rw [e.chars_of_some hdec] at h
    obtain ⟨units, henc, hl⟩ := e.encode_decode hdec
    rw [(List.cons.inj h).1] at henc
    exact ⟨units, rest, henc, hl, (List.cons.inj h).2⟩

theorem slashed_of_units {w : ℕ} {e : Encoding (BitVec w)} {l : List (BitVec w)}
    (hunits : ∀ c units, e.encode c = some units →
      (c < 2 ^ w ∧ units = [BitVec.ofNat w c]) ∨ 2 ^ 16 ≤ c)
    (hthird : ∀ u, l[2]? = some u → u.toNat = 0x2F ∨ 128 ≤ u.toNat) : Slashed (e.chars l) := by
  intro a b ch rest h
  obtain ⟨ua, ra, hea, rfl, hra⟩ := decode_of_chars h
  obtain ⟨ub, rb, heb, rfl, hrb⟩ := decode_of_chars hra
  obtain ⟨uc, rc, hec, rfl, -⟩ := decode_of_chars hrb
  rcases hunits a ua hea with ⟨-, rfl⟩ | ha
  · rcases hunits b ub heb with ⟨-, rfl⟩ | hb
    · rcases hunits ch uc hec with ⟨hlt, rfl⟩ | hc
      · have hvalue := hthird (BitVec.ofNat w ch) rfl
        rw [BitVec.toNat_ofNat, Nat.mod_eq_of_lt hlt] at hvalue
        exact Or.inr (Or.inr hvalue)
      · exact Or.inr (Or.inr (Or.inr (by omega)))
    · exact Or.inr (Or.inl hb)
  · exact Or.inl ha

theorem third_of_range {U : Type} {msg : ℕ → U} {n : ℕ} {u : U}
    (h : ((List.range n).map msg)[2]? = some u) : u = msg 2 := by
  rw [List.getElem?_map] at h
  obtain ⟨i, hi, rfl⟩ := Option.map_eq_some_iff.mp h
  rw [List.getElem?_eq_some_iff] at hi
  obtain ⟨hlt, hi⟩ := hi
  rw [← hi, List.getElem_range]

theorem range_three {U : Type} (msg : ℕ → U) (n : ℕ) :
    (List.range (n + 3)).map msg =
      msg 0 :: msg 1 :: msg 2 :: (List.range n).map fun i => msg (i + 3) := by
  rw [List.range_succ_eq_map, List.range_succ_eq_map, List.range_succ_eq_map]
  simp only [List.map_cons, List.map_map]
  rfl

variable (T : ChatCodecs)

theorem slashed_sjis {msg : ℕ → Byte} (h0 : msg 0 = 0x09) (h1 : msg 1 = 0x4A)
    (h2 : msg 2 = 0x2F) (n : ℕ) : Slashed (T.sjis.chars ((List.range n).map msg)) := by
  have hfirst : ∀ l : List Byte, T.sjis.chars (0x09 :: l) = 0x09 :: T.sjis.chars l :=
    T.sjis.chars_encode (T.sjis_ascii 0x09 (by decide))
  have hsecond : ∀ l : List Byte, T.sjis.chars (0x4A :: l) = 0x4A :: T.sjis.chars l :=
    T.sjis.chars_encode (T.sjis_ascii 0x4A (by decide))
  have hthird : ∀ l : List Byte, T.sjis.chars (0x2F :: l) = 0x2F :: T.sjis.chars l :=
    T.sjis.chars_encode (T.sjis_ascii 0x2F (by decide))
  intro a b ch rest h
  match n with
  | 0 =>
    rw [List.range_zero, List.map_nil, T.sjis.chars_nil] at h
    cases h
  | 1 =>
    change T.sjis.chars [msg 0] = _ at h
    rw [h0, hfirst, T.sjis.chars_nil] at h
    cases h
  | 2 =>
    change T.sjis.chars [msg 0, msg 1] = _ at h
    rw [h0, h1, hfirst, hsecond, T.sjis.chars_nil] at h
    cases h
  | n + 3 =>
    rw [range_three, h0, h1, h2, hfirst, hsecond, hthird] at h
    cases h
    exact Or.inr (Or.inr (Or.inl rfl))

theorem latin1_units (c : ℕ) (units : List Byte)
    (h : GuildCards.latin1.encode c = some units) :
    (c < 2 ^ 8 ∧ units = [BitVec.ofNat 8 c]) ∨ 2 ^ 16 ≤ c := by
  change (if c < 256 then some [BitVec.ofNat 8 c] else none) = some units at h
  split_ifs at h with hc
  exact Or.inl ⟨hc, (Option.some.inj h).symm⟩

theorem slashed_chars (pkt : Chat) : Slashed (pkt.chars T) := by
  cases pkt with
  | dc pktLen msg slash =>
    rw [Chat.chars]
    split_ifs with hj
    · exact slashed_sjis T hj.1 hj.2 slash _
    · refine slashed_of_units latin1_units fun u hu => Or.inl ?_
      rw [third_of_range hu, slash]
      rfl
  | pc pktLen msg slash =>
    refine slashed_of_units T.utf16_units fun u hu => ?_
    rw [third_of_range hu]
    omega
  | bb pktLen msg slash =>
    refine slashed_of_units T.utf16_units fun u hu => Or.inl ?_
    rw [third_of_range hu, slash]
    rfl

theorem converted_eq (pkt : Chat) :
    pkt.converted T = T.utf8.units (T.utf8.fit pkt.bufSize (pkt.chars T)) := by
  cases pkt with
  | dc pktLen msg slash => exact iconv_eq _ _ _ _
  | pc pktLen msg slash => exact iconv_eq _ _ _ _
  | bb pktLen msg slash => exact iconv_eq _ _ _ _

theorem length_converted (pkt : Chat) : (pkt.converted T).length ≤ pkt.bufSize := by
  rw [converted_eq]
  exact T.utf8.length_units_fit _ _

/-- Three plain characters in front of the word take three bytes. -/
theorem three_of_plain {cs : List ℕ} (hplain : ∀ ch ∈ cs.take 3, ch < 128)
    (hend : 0 ∈ (T.utf8.units cs).drop 3) :
    ∃ a b ch rest, cs = a :: b :: ch :: rest ∧
      (T.utf8.units cs).drop 3 = T.utf8.units rest := by
  obtain ⟨a, cs₁, rfl⟩ := List.exists_cons_of_ne_nil (ne_nil_of_zero hend)
  have ha := hplain a List.mem_cons_self
  rw [units_ascii ha, List.drop_succ_cons] at hend ⊢
  obtain ⟨b, cs₂, rfl⟩ := List.exists_cons_of_ne_nil (ne_nil_of_zero hend)
  have hb := hplain b (List.mem_cons_of_mem a List.mem_cons_self)
  rw [units_ascii hb, List.drop_succ_cons] at hend ⊢
  obtain ⟨ch, cs₃, rfl⟩ := List.exists_cons_of_ne_nil (ne_nil_of_zero hend)
  have hch := hplain ch (List.mem_cons_of_mem a (List.mem_cons_of_mem b List.mem_cons_self))
  rw [units_ascii hch]
  exact ⟨a, b, ch, cs₃, rfl, rfl⟩

theorem encoded_converted (pkt : Chat) :
    Encoded T (T.utf8.fit pkt.bufSize (pkt.chars T)) :=
  encoded_fit T _ _

theorem slashed_of_isPrefix {cs cs' : List ℕ} (h : Slashed cs') (hcs : cs <+: cs') :
    Slashed cs := by
  obtain ⟨t, rfl⟩ := hcs
  rintro a b ch rest rfl
  exact h a b ch (rest ++ t) rfl

/-- What is looked up where the first characters are plain. -/
theorem lookup_plain {pkt : Chat} (hend : 0 ∈ (pkt.converted T).drop 3)
    (hplain : ∀ ch ∈ (pkt.chars T).take 3, ch < 128) :
    lookup (codesOf (cmdOf (pkt.converted T))) = lookup ((pkt.spoken T).take 9) := by
  have hstart := T.utf8.isPrefix_fit pkt.bufSize (pkt.chars T)
  have henc := encoded_converted T pkt
  rw [cmdOf, span]
  rw [converted_eq] at hend ⊢
  set P := T.utf8.fit pkt.bufSize (pkt.chars T)
  obtain ⟨t, ht⟩ := hstart
  have hplain' : ∀ ch ∈ P.take 3, ch < 128 := by
    intro ch hch
    refine hplain ch ?_
    rw [← ht, List.take_append]
    exact List.mem_append_left _ hch
  obtain ⟨a, b, ch, rest, hP, hdrop⟩ := three_of_plain T hplain' hend
  have hrest : Encoded T rest := by
    rw [hP] at henc
    exact encoded_tail (encoded_tail (encoded_tail henc))
  have hzero : 0 ∈ rest := by
    rw [hdrop] at hend
    exact zero_mem_of_units hrest hend
  have hspoken : pkt.spoken T = rest.takeWhile wordChar := by
    have hlt := length_takeWhile_lt (p := wordChar) hzero (by decide)
    rw [Chat.spoken, ← ht, hP]
    change (rest ++ t).takeWhile wordChar = _
    rw [List.takeWhile_append, if_neg hlt.ne]
  rw [hdrop, hspoken, lookup_word hrest]

/-- No trigger is found where one of the first characters is not plain. -/
theorem lookup_wide {pkt : Chat} (hend : 0 ∈ (pkt.converted T).drop 3)
    (hwide : ¬∀ ch ∈ (pkt.chars T).take 3, ch < 128) :
    lookup (codesOf (cmdOf (pkt.converted T))) = none := by
  have hstart := T.utf8.isPrefix_fit pkt.bufSize (pkt.chars T)
  have henc := encoded_converted T pkt
  rw [cmdOf, span]
  rw [converted_eq] at hend ⊢
  refine lookup_of_shifted
    (shifted_units henc (slashed_of_isPrefix (slashed_chars T pkt) hstart) ?_ hend)
  by_contra hno
  have hplain : ∀ ch ∈ (T.utf8.fit pkt.bufSize (pkt.chars T)).take 3, ch < 128 := by
    intro ch hch
    by_contra hle
    exact hno ⟨ch, hch, Nat.le_of_not_lt hle⟩
  obtain ⟨a, b, ch, rest, hP, -⟩ := three_of_plain T hplain hend
  obtain ⟨t, ht⟩ := hstart
  refine hwide ?_
  rw [← ht, hP]
  rw [hP] at hplain
  exact hplain

/-- The handler is that of the word exactly where the word is read as it is. -/
theorem named_iff {pkt : Chat} (hend : 0 ∈ (pkt.converted T).drop 3) :
    (lookup (codesOf (cmdOf (pkt.converted T)))).map Prod.fst =
      (lookup (pkt.spoken T)).map Prod.fst ↔ Named T pkt := by
  rw [Named]
  by_cases hplain : ∀ ch ∈ (pkt.chars T).take 3, ch < 128
  · rw [if_pos hplain, lookup_plain T hend hplain]
    by_cases hshort : (pkt.spoken T).length < 10
    · rw [List.take_of_length_le (by omega)]
      exact iff_of_true rfl (Or.inl hshort)
    · have hlong : lookup (pkt.spoken T) = none := lookup_long (by omega)
      rw [hlong]
      exact Option.map_eq_none_iff.trans (or_iff_right hshort).symm
  · rw [if_neg hplain, lookup_wide T hend hplain]
    exact eq_comm.trans Option.map_eq_none_iff

end Packets

end ShipServer.CommandNames
