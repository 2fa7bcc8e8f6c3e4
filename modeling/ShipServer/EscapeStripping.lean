import ShipServer.FueledLoops

set_option autoImplicit false

/-! How `send_dcnte_txt` takes the escapes out of a text, in the array where it stands. -/

namespace ShipServer.EscapeStripping

open FueledLoops

def tab : UInt8 := 9

def letterC : UInt8 := 67

/-- A difference in a `size_t`. -/
def sizeSub (a b : ℕ) : ℕ :=
  (a + (2 ^ 64 - b)) % 2 ^ 64

/-- `memmove` within an array, where neither end of it is outside. -/
def memmove (a : List UInt8) (dst src n : ℕ) : Option (List UInt8) :=
  if dst + n ≤ a.length ∧ src + n ≤ a.length then
    some (a.take dst ++ ((a.drop src).take n ++ a.drop (dst + n)))
  else none

/-- `vsnprintf` of a text into so many bytes of an array. -/
def vsnprintf (a : List UInt8) (offset size : ℕ) (text : List UInt8) : List UInt8 :=
  let s := text.take (size - 1) ++ [0]
  a.take offset ++ (s ++ a.drop (offset + s.length))

def strlen (a : List UInt8) : ℕ :=
  (a.takeWhile (· ≠ 0)).length

/-- How many bytes the escape at a tab takes up. -/
def escapeLength (tm : List UInt8) (i : ℕ) : Option ℕ := do
  let b ← tm[i + 1]?
  if b = letterC then do
    let c ← tm[i + 2]?
    pure (if c ≠ 0 then 3 else 2)
  else pure (if b ≠ tab then 2 else 1)

/-- The loop over the text, with the length that `in` holds. After a deletion the index is stepped
back before the loop steps it forward. Nothing is returned after an access outside the array. -/
def stripLoop : ℕ → List UInt8 → ℕ → ℕ → Option (List UInt8 × ℕ)
  | 0, _, _, _ => none
  | fuel + 1, tm, len, i =>
    if i < len then do
      let b ← tm[i]?
      if b = tab then do
        let k ← escapeLength tm i
        let tm ← memmove tm i (i + k) (sizeSub (sizeSub len i) k)
        stripLoop fuel tm (sizeSub len k) i
      else stripLoop fuel tm len (i + 1)
    else some (tm, len)

/-- The array with the formatted message. -/
def formatted (tm msg : List UInt8) : List UInt8 :=
  (((vsnprintf tm 2 510 msg).set 0 62).set 1 32).set 511 0

/-- `send_dcnte_txt` up to the conversion: the array and the length of what is converted. -/
def sendDcnteTxt (tm msg : List UInt8) (fuel : ℕ) : Option (List UInt8 × ℕ) :=
  stripLoop fuel (formatted tm msg) (strlen (formatted tm msg) + 1) 0

/-- What a text consists of: characters, colours, other escapes, tabs with another one behind them,
and a tab at the end. -/
inductive Piece where
  | char (b : UInt8)
  | colour (digit : UInt8)
  | escape (b : UInt8)
  | tab
  | cut
  deriving DecidableEq

namespace Piece

def bytes : Piece → List UInt8
  | .char b => [b]
  | .colour digit => [EscapeStripping.tab, letterC, digit]
  | .escape b => [EscapeStripping.tab, b]
  | .tab => [EscapeStripping.tab]
  | .cut => [EscapeStripping.tab]

/-- What is left of a piece without the escapes. -/
def kept : Piece → List UInt8
  | .char b => [b]
  | _ => []

end Piece

def pieces : List UInt8 → List Piece
  | [] => []
  | [b] => if b = tab then [.cut] else [.char b]
  | [b, c] =>
    if b = tab then
      if c = tab then [.tab, .cut] else [.escape c]
    else .char b :: pieces [c]
  | b :: c :: d :: rest =>
    if b = tab then
      if c = tab then .tab :: pieces (c :: d :: rest)
      else if c = letterC then .colour d :: pieces rest
      else .escape c :: pieces (d :: rest)
    else .char b :: pieces (c :: d :: rest)

/-- The text without its escapes. -/
def stripped (text : List UInt8) : List UInt8 :=
  (pieces text).flatMap Piece.kept

/-- The last byte is a tab with nothing behind it to escape. -/
def CutOff (text : List UInt8) : Prop :=
  Piece.cut ∈ pieces text

instance decidableCutOff (text : List UInt8) : Decidable (CutOff text) :=
  inferInstanceAs (Decidable (Piece.cut ∈ pieces text))

example : stripped [9, 67, 55, 72, 9, 69, 105, 9, 9, 74, 33] = [72, 105, 33] := by decide

section Pieces

theorem pieces_char {b : UInt8} (hb : b ≠ tab) (text : List UInt8) :
    pieces (b :: text) = .char b :: pieces text := by
  rcases text with _ | ⟨c, _ | ⟨d, rest⟩⟩
  · exact if_neg hb
  · exact if_neg hb
  · exact if_neg hb

theorem pieces_tab (text : List UInt8) :
    pieces (tab :: tab :: text) = .tab :: pieces (tab :: text) := by
  cases text with
  | nil => rfl
  | cons d rest => rw [pieces, if_pos rfl, if_pos rfl]

theorem pieces_colour (d : UInt8) (rest : List UInt8) :
    pieces (tab :: letterC :: d :: rest) = .colour d :: pieces rest := by
  rw [pieces, if_pos rfl, if_neg (by decide), if_pos rfl]

/-- A `C` with nothing behind it is escaped like other characters. -/
theorem pieces_escape {c : UInt8} (hc : c ≠ tab) {rest : List UInt8}
    (hC : c = letterC → rest = []) : pieces (tab :: c :: rest) = .escape c :: pieces rest := by
  cases rest with
  | nil => exact (if_pos rfl).trans (if_neg hc)
  | cons d rest =>
    have hnot : c ≠ letterC := fun h => List.cons_ne_nil d rest (hC h)
    rw [pieces, if_pos rfl, if_neg hc, if_neg hnot]

/-- A text begins with a character, one of these escapes or the tab at its end. -/
theorem pieces_induction {motive : List UInt8 → Prop} (nil : motive [])
    (char : ∀ b text, b ≠ tab → motive text → motive (b :: text))
    (double : ∀ text, motive (tab :: text) → motive (tab :: tab :: text))
    (colour : ∀ d text, motive text → motive (tab :: letterC :: d :: text))
    (escape : ∀ c text, c ≠ tab → (c = letterC → text = []) → motive text →
      motive (tab :: c :: text))
    (cut : motive [tab]) (text : List UInt8) : motive text := by
  induction hn : text.length using Nat.strong_induction_on generalizing text with
  | _ n ih =>
    subst hn
    rcases text with _ | ⟨b, text⟩
    · exact nil
    · by_cases hb : b = tab
      · subst hb
        rcases text with _ | ⟨c, text⟩
        · exact cut
        · by_cases hc : c = tab
          · subst hc
            exact double text (ih _ (Nat.lt_succ_self _) _ rfl)
          · by_cases hC : c = letterC
            · rcases text with _ | ⟨d, text⟩
              · exact escape c [] hc (fun _ => rfl) nil
              · subst hC
                exact colour d text (ih _ (by simp only [List.length_cons]; omega) _ rfl)
            · exact escape c text hc (fun h => absurd h hC)
                (ih _ (by simp only [List.length_cons]; omega) _ rfl)
      · exact char b text hb (ih _ (Nat.lt_succ_self _) _ rfl)

/-- The pieces are the whole text. -/
theorem flatMap_bytes_pieces (text : List UInt8) : (pieces text).flatMap Piece.bytes = text := by
  induction text using pieces_induction with
  | nil => rfl
  | char b text hb ih =>
    rw [pieces_char hb, List.flatMap_cons, ih]
    rfl
  | double text ih =>
    rw [pieces_tab, List.flatMap_cons, ih]
    rfl
  | colour d text ih =>
    rw [pieces_colour, List.flatMap_cons, ih]
    rfl
  | escape c text hc hC ih =>
    rw [pieces_escape hc hC, List.flatMap_cons, ih]
    rfl
  | cut => rfl

theorem char_mem_pieces {b : UInt8} {text : List UInt8} (h : Piece.char b ∈ pieces text) :
    b ≠ tab := by
  induction text using pieces_induction with
  | nil => cases h
  | char c text hc ih =>
    rw [pieces_char hc, List.mem_cons] at h
    rcases h with h | h
    · cases h
      exact hc
    · exact ih h
  | double text ih =>
    rw [pieces_tab, List.mem_cons] at h
    rcases h with h | h
    · cases h
    · exact ih h
  | colour d text ih =>
    rw [pieces_colour, List.mem_cons] at h
    rcases h with h | h
    · cases h
    · exact ih h
  | escape c text hc hC ih =>
    rw [pieces_escape hc hC, List.mem_cons] at h
    rcases h with h | h
    · cases h
    · exact ih h
  | cut => cases h with | tail _ h => cases h

theorem mem_stripped {b : UInt8} {text : List UInt8} :
    b ∈ stripped text ↔ Piece.char b ∈ pieces text := by
  rw [stripped, List.mem_flatMap]
  constructor
  · rintro ⟨p, hp, hb⟩
    cases p with
    | char c =>
      cases List.mem_singleton.mp hb
      exact hp
    | colour _ | escape _ | tab | cut => cases hb
  · intro h
    exact ⟨_, h, List.mem_singleton_self b⟩

theorem tab_notMem_stripped (text : List UInt8) : tab ∉ stripped text :=
  fun h => char_mem_pieces (mem_stripped.mp h) rfl

/-- Nothing is left that was not in the text. -/
theorem mem_of_mem_stripped {b : UInt8} {text : List UInt8} (h : b ∈ stripped text) : b ∈ text := by
  rw [← flatMap_bytes_pieces text, List.mem_flatMap]
  exact ⟨_, mem_stripped.mp h, List.mem_singleton_self b⟩

end Pieces

section Arrays

theorem sizeSub_eq {a b : ℕ} (hle : b ≤ a) (hlt : a < 2 ^ 64) : sizeSub a b = a - b := by
  rw [sizeSub]
  omega

theorem getElem?_behind (pre : List UInt8) (k : ℕ) (l : List UInt8) :
    (pre ++ l)[pre.length + k]? = l[k]? := by
  rw [List.getElem?_append_right (Nat.le_add_right _ _), Nat.add_sub_cancel_left]

/-- Moving what is kept over a gap takes the gap out. -/
theorem memmove_gap (pre gap kept junk : List UInt8) :
    ∃ junk', junk'.length = gap.length + junk.length ∧
      memmove (pre ++ (gap ++ (kept ++ junk))) pre.length (pre.length + gap.length) kept.length =
        some (pre ++ (kept ++ junk')) := by
  refine ⟨(gap ++ (kept ++ junk)).drop kept.length, ?_, ?_⟩
  · simp only [List.length_drop, List.length_append]
    omega
  · have hsrc : (pre ++ (gap ++ (kept ++ junk))).drop (pre.length + gap.length) = kept ++ junk := by
      rw [← List.drop_drop, List.drop_left, List.drop_left]
    have hdst : (pre ++ (gap ++ (kept ++ junk))).drop (pre.length + kept.length) =
        (gap ++ (kept ++ junk)).drop kept.length := by
      rw [← List.drop_drop, List.drop_left]
    rw [memmove, if_pos, hsrc, hdst, List.take_left, List.take_left]
    simp only [List.length_append]
    omega

end Arrays

section Loop

/-- The NUL at the end, as long as it has not been taken for an escaped character. -/
def ending (text : List UInt8) : List UInt8 :=
  if CutOff text then [] else [0]

variable {pre text junk : List UInt8}

/-- The array in the middle of the loop: what is done, the text to come with its NUL, and bytes
that do not matter. -/
def midway (pre text junk : List UInt8) : List UInt8 :=
  pre ++ (text ++ 0 :: junk)

theorem stripLoop_end {fuel : ℕ} (tm : List UInt8) (len : ℕ) :
    stripLoop (fuel + 1) tm len len = some (tm, len) := by
  rw [stripLoop, if_neg (Nat.lt_irrefl len)]

theorem stripLoop_nul (fuel : ℕ) :
    stripLoop (fuel + 2) (midway pre [] junk) (pre.length + 1) pre.length =
      some (midway pre [] junk, pre.length + 1) := by
  have hread : (midway pre [] junk)[pre.length]? = some 0 := getElem?_behind pre 0 (0 :: junk)
  rw [stripLoop, if_pos (Nat.lt_succ_self _), hread, Option.bind_eq_bind, Option.bind_some,
    if_neg (by decide), stripLoop_end]

theorem stripLoop_char {b : UInt8} (hb : b ≠ tab) (fuel : ℕ) :
    stripLoop (fuel + 1) (midway pre (b :: text) junk) (pre.length + (text.length + 1) + 1)
        pre.length =
      stripLoop fuel (midway (pre ++ [b]) text junk) ((pre ++ [b]).length + text.length + 1)
        (pre ++ [b]).length := by
  have hread : (midway pre (b :: text) junk)[pre.length]? = some b :=
    getElem?_behind pre 0 (b :: (text ++ 0 :: junk))
  have hsame : midway pre (b :: text) junk = midway (pre ++ [b]) text junk := by
    rw [midway, midway, List.append_assoc]
    rfl
  rw [stripLoop, if_pos (by omega), hread, Option.bind_eq_bind, Option.bind_some, if_neg hb,
    hsame, List.length_append, List.length_singleton]
  congr 1
  omega

/-- The escape at a tab is taken out, and the loop goes on at the same place. -/
theorem stripLoop_escape {gap : List UInt8}
    (hlen : pre.length + (gap.length + text.length) < 2 ^ 63)
    (hfirst : gap.head? = some tab)
    (hescape : escapeLength (midway pre (gap ++ text) junk) pre.length = some gap.length) :
    ∃ junk', junk'.length = gap.length + junk.length ∧ ∀ fuel,
      stripLoop (fuel + 1) (midway pre (gap ++ text) junk)
          (pre.length + (gap.length + text.length) + 1) pre.length =
        stripLoop fuel (midway pre text junk') (pre.length + text.length + 1) pre.length := by
  obtain ⟨junk', hjunk, hmove⟩ := memmove_gap pre gap (text ++ [0]) junk
  refine ⟨junk', hjunk, fun fuel => ?_⟩
  have harray : midway pre (gap ++ text) junk = pre ++ (gap ++ ((text ++ [0]) ++ junk)) := by
    simp only [midway, List.append_assoc, List.singleton_append]
  have harray' : midway pre text junk' = pre ++ ((text ++ [0]) ++ junk') := by
    simp only [midway, List.append_assoc, List.singleton_append]
  have hread : (midway pre (gap ++ text) junk)[pre.length]? = some tab := by
    rw [harray, ← Nat.add_zero pre.length, getElem?_behind, ← List.head?_eq_getElem?,
      List.head?_append, hfirst]
    rfl
  have hcount : sizeSub (sizeSub (pre.length + (gap.length + text.length) + 1) pre.length)
      gap.length = (text ++ [0]).length := by
    have hrest := @sizeSub_eq (pre.length + (gap.length + text.length) + 1) pre.length (by omega)
      (by omega)
    rw [hrest, sizeSub_eq (by omega) (by omega), List.length_append, List.length_singleton]
    omega
  rw [stripLoop, if_pos (by omega), hread, Option.bind_eq_bind, Option.bind_some, if_pos rfl,
    hescape, Option.bind_eq_bind, Option.bind_some, hcount, harray, hmove, Option.bind_eq_bind,
    Option.bind_some, harray', sizeSub_eq (by omega) (by omega)]
  congr 1
  omega

/-- A tab with the NUL behind it takes the NUL along. -/
theorem stripLoop_cut (junk : List UInt8) (hlen : pre.length < 2 ^ 63) :
    ∃ junk', junk'.length = 2 + junk.length ∧ ∀ fuel,
      stripLoop (fuel + 2) (midway pre [tab] junk) (pre.length + 1 + 1) pre.length =
        some (pre ++ junk', pre.length) := by
  obtain ⟨junk', hjunk, hmove⟩ := memmove_gap pre [tab, 0] [] junk
  refine ⟨junk', hjunk, fun fuel => ?_⟩
  have hread : (midway pre [tab] junk)[pre.length]? = some tab :=
    getElem?_behind pre 0 (tab :: 0 :: junk)
  have hnext : (midway pre [tab] junk)[pre.length + 1]? = some 0 :=
    getElem?_behind pre 1 (tab :: 0 :: junk)
  have hescape : escapeLength (midway pre [tab] junk) pre.length = some 2 := by
    rw [escapeLength, hnext]
    rfl
  have hcount : sizeSub (sizeSub (pre.length + 1 + 1) pre.length) 2 = 0 := by
    have hrest := @sizeSub_eq (pre.length + 1 + 1) pre.length (by omega) (by omega)
    rw [hrest, sizeSub_eq (by omega) (by omega)]
    omega
  have hmove' : memmove (midway pre [tab] junk) pre.length (pre.length + 2) 0 =
      some (pre ++ junk') := hmove
  rw [stripLoop, if_pos (by omega), hread, Option.bind_eq_bind, Option.bind_some, if_pos rfl,
    hescape, Option.bind_eq_bind, Option.bind_some, hcount, hmove', Option.bind_eq_bind,
    Option.bind_some, sizeSub_eq (by omega) (by omega), Nat.add_assoc, Nat.add_sub_cancel,
    stripLoop_end]

theorem stripped_of_pieces {text' : List UInt8} {p : Piece} (h : pieces text' = p :: pieces text) :
    stripped text' = p.kept ++ stripped text := by
  rw [stripped, h, List.flatMap_cons, stripped]

theorem ending_of_pieces {text' : List UInt8} {p : Piece} (h : pieces text' = p :: pieces text)
    (hp : Piece.cut ≠ p) : ending text' = ending text := by
  have hcut : CutOff text' ↔ CutOff text := by
    rw [CutOff, h, List.mem_cons, or_iff_right hp, CutOff]
  rw [ending, ending]
  exact if_congr hcut rfl rfl

/-- What the loop has made of a text: the array, of the same size as before, and the length. -/
def Strips (pre text junk : List UInt8) : Prop :=
  ∃ junk', (stripped text ++ (ending text ++ junk')).length = text.length + (1 + junk.length) ∧
    ∀ fuel, text.length + 2 ≤ fuel →
      stripLoop fuel (midway pre text junk) (pre.length + text.length + 1) pre.length =
        some (pre ++ (stripped text ++ (ending text ++ junk')),
          pre.length + ((stripped text).length + (ending text).length))

/-- One escape and what the loop makes of the rest. -/
theorem strips_escape (gap : List UInt8) {p : Piece}
    (hpieces : pieces (gap ++ text) = p :: pieces text) (hp : Piece.cut ≠ p) (hkept : p.kept = [])
    (hfirst : gap.head? = some tab) (hlen : pre.length + (gap ++ text).length < 2 ^ 63)
    (hescape : escapeLength (midway pre (gap ++ text) junk) pre.length = some gap.length)
    (ih : ∀ junk, Strips pre text junk) : Strips pre (gap ++ text) junk := by
  rw [List.length_append] at hlen
  obtain ⟨junk₁, hjunk, hstep⟩ := stripLoop_escape hlen hfirst hescape
  obtain ⟨junk₂, hlength, hrest⟩ := ih junk₁
  have hgap : 0 < gap.length := by
    cases gap with
    | nil => cases hfirst
    | cons _ _ => exact Nat.succ_pos _
  rw [Strips, stripped_of_pieces hpieces, hkept, List.nil_append, ending_of_pieces hpieces hp,
    List.length_append]
  refine ⟨junk₂, by omega, fun fuel hfuel => ?_⟩
  obtain ⟨fuel, rfl⟩ := Nat.exists_eq_succ_of_ne_zero (by omega : fuel ≠ 0)
  rw [hstep fuel]
  exact hrest fuel (by omega)

theorem stripLoop_strips (hlen : pre.length + text.length < 2 ^ 63) (hnul : 0 ∉ text) :
    Strips pre text junk := by
  induction text using pieces_induction generalizing pre junk with
  | nil =>
    refine ⟨junk, by simp only [List.length_append]; rfl, fun fuel hfuel => ?_⟩
    obtain ⟨fuel, rfl⟩ := Nat.exists_eq_add_of_le' hfuel
    exact stripLoop_nul fuel
  | char b text hb ih =>
    rw [List.length_cons] at hlen
    have hpieces := pieces_char hb text
    have hshort : (pre ++ [b]).length + text.length < 2 ^ 63 := by
      rw [List.length_append, List.length_singleton]
      omega
    obtain ⟨junk', hlength, hrun⟩ :=
      @ih (pre ++ [b]) junk hshort (fun h => hnul (List.mem_cons_of_mem b h))
    rw [Strips, stripped_of_pieces hpieces, ending_of_pieces hpieces (by simp), List.length_cons]
    refine ⟨junk', ?_, fun fuel hfuel => ?_⟩
    · change (stripped text ++ (ending text ++ junk')).length + 1 = _
      omega
    · obtain ⟨fuel, rfl⟩ := Nat.exists_eq_succ_of_ne_zero (by omega : fuel ≠ 0)
      rw [stripLoop_char hb fuel, hrun fuel (by omega), List.append_assoc, List.length_append,
        List.length_singleton, List.length_append, Nat.add_assoc, Nat.add_assoc]
      rfl
  | double text ih =>
    have hnext : (midway pre ([tab] ++ tab :: text) junk)[pre.length + 1]? = some tab :=
      getElem?_behind pre 1 (tab :: tab :: (text ++ 0 :: junk))
    refine strips_escape [tab] (pieces_tab text) (by simp) rfl rfl hlen ?_ fun junk' =>
      @ih pre junk' ?_ fun h => hnul (List.mem_cons_of_mem tab h)
    · rw [escapeLength, hnext]
      rfl
    · rw [List.length_cons] at hlen
      omega
  | colour d text ih =>
    have hd : d ≠ 0 := by
      rintro rfl
      exact hnul (by simp)
    have hnext : (midway pre ([tab, letterC, d] ++ text) junk)[pre.length + 1]? = some letterC :=
      getElem?_behind pre 1 (tab :: letterC :: d :: (text ++ 0 :: junk))
    have hdigit : (midway pre ([tab, letterC, d] ++ text) junk)[pre.length + 2]? = some d :=
      getElem?_behind pre 2 (tab :: letterC :: d :: (text ++ 0 :: junk))
    refine strips_escape [tab, letterC, d] (pieces_colour d text) (by simp) rfl rfl hlen ?_
      fun junk' => @ih pre junk' ?_ fun h => hnul (by simp [h])
    · rw [escapeLength, hnext, Option.bind_eq_bind, Option.bind_some, if_pos rfl, hdigit,
        Option.bind_some, if_pos hd]
      rfl
    · simp only [List.length_cons] at hlen
      omega
  | escape c text hc hC ih =>
    have hnext : (midway pre ([tab, c] ++ text) junk)[pre.length + 1]? = some c :=
      getElem?_behind pre 1 (tab :: c :: (text ++ 0 :: junk))
    refine strips_escape [tab, c] (pieces_escape hc hC) (by simp) rfl rfl hlen ?_
      fun junk' => @ih pre junk' ?_ fun h => hnul (by simp [h])
    · rw [escapeLength, hnext, Option.bind_eq_bind, Option.bind_some]
      by_cases hletter : c = letterC
      · have hend : (midway pre ([tab, c] ++ text) junk)[pre.length + 2]? = some 0 := by
          rw [hC hletter]
          exact getElem?_behind pre 2 (tab :: c :: 0 :: junk)
        rw [if_pos hletter, hend]
        rfl
      · rw [if_neg hletter, if_pos hc]
        rfl
    · simp only [List.length_cons] at hlen
      omega
  | cut =>
    obtain ⟨junk', hjunk, hrun⟩ := @stripLoop_cut pre junk (by omega)
    refine ⟨junk', by rw [← Nat.add_assoc]; exact hjunk, fun fuel hfuel => ?_⟩
    obtain ⟨fuel, rfl⟩ := Nat.exists_eq_add_of_le' (by omega : 2 ≤ fuel)
    exact hrun fuel

end Loop

/-- A formatted message: what `vsnprintf` puts before the NUL. -/
structure Message where
  bytes : List UInt8
  noNul : 0 ∉ bytes
  short : bytes.length ≤ 509

/-- The text has been stripped: the array has kept its size, and what is converted is a C string,
the text without its escapes and without a tab. -/
def Leaves (msg : Message) (out : List UInt8 × ℕ) : Prop :=
  out.1.length = 512 ∧ out.1.take out.2 = 62 :: 32 :: (stripped msg.bytes ++ [0]) ∧
    strlen out.1 + 1 = out.2 ∧ tab ∉ out.1.take out.2

section Message

variable (tm : Vector UInt8 512) (msg : Message)

theorem set_nul (rest : List UInt8) (k : ℕ) :
    ∃ junk, junk.length = rest.length ∧ (0 :: rest).set k 0 = 0 :: junk := by
  cases k with
  | zero => exact ⟨rest, rfl, rfl⟩
  | succ k => exact ⟨rest.set k 0, List.length_set, rfl⟩

/-- The message stands behind its two first characters, with a NUL. -/
theorem formatted_eq : ∃ junk, junk.length = 509 - msg.bytes.length ∧
    formatted tm.toList msg.bytes = midway [] (62 :: 32 :: msg.bytes) junk := by
  have hshort := msg.short
  obtain ⟨rest, hrest⟩ : ∃ rest, rest = tm.toList.drop (2 + (msg.bytes ++ [0]).length) := ⟨_, rfl⟩
  have hlength : rest.length = 509 - msg.bytes.length := by
    rw [hrest, List.length_drop, Vector.length_toList, List.length_append, List.length_singleton]
    omega
  obtain ⟨junk, hjunk, hset⟩ := set_nul rest (509 - msg.bytes.length)
  refine ⟨junk, hjunk.trans hlength, ?_⟩
  have htake : msg.bytes.take (510 - 1) = msg.bytes := List.take_of_length_le hshort
  obtain ⟨a, b, hab⟩ : ∃ a b, tm.toList.take 2 = [a, b] := by
    refine List.length_eq_two.mp ?_
    rw [List.length_take, Vector.length_toList]
    rfl
  rw [formatted, vsnprintf, htake, hab, ← hrest]
  change 62 :: 32 :: ((msg.bytes ++ [0]) ++ rest).set 509 0 = 62 :: 32 :: (msg.bytes ++ 0 :: junk)
  rw [List.append_assoc, List.singleton_append, List.set_append_right _ _ hshort, hset]

theorem strlen_midway {text : List UInt8} (h : 0 ∉ text) (junk : List UInt8) :
    strlen (midway [] text junk) = text.length := by
  have hkept : ∀ b ∈ text, decide (b ≠ 0) = true := by
    intro b hb
    refine decide_eq_true fun h0 => ?_
    rw [h0] at hb
    exact h hb
  rw [strlen, midway, List.nil_append, List.takeWhile_append_of_pos hkept, List.takeWhile_cons,
    if_neg (by decide), List.append_nil]

/-- The loop comes to an end inside the array, whatever the message is. -/
theorem sendDcnteTxt_returns : ∃ junk,
    (stripped msg.bytes ++ (ending msg.bytes ++ junk)).length = 510 ∧
      Returns (sendDcnteTxt tm.toList msg.bytes)
        (62 :: 32 :: (stripped msg.bytes ++ (ending msg.bytes ++ junk)),
          2 + ((stripped msg.bytes).length + (ending msg.bytes).length)) := by
  obtain ⟨junk, hjunk, hformatted⟩ := formatted_eq tm msg
  have hshort := msg.short
  have hnul : (0 : UInt8) ∉ 62 :: 32 :: msg.bytes := by
    rw [List.mem_cons, List.mem_cons, not_or, not_or]
    exact ⟨by decide, by decide, msg.noNul⟩
  have hlen : ([] : List UInt8).length + (62 :: 32 :: msg.bytes).length < 2 ^ 63 := by
    simp only [List.length_cons, List.length_nil]
    omega
  obtain ⟨junk', hlength, hrun⟩ := @stripLoop_strips [] _ junk hlen hnul
  have hfirst : pieces (62 :: 32 :: msg.bytes) = .char 62 :: pieces (32 :: msg.bytes) :=
    pieces_char (by decide) _
  have hsecond : pieces (32 :: msg.bytes) = .char 32 :: pieces msg.bytes :=
    pieces_char (by decide) _
  rw [stripped_of_pieces hfirst, stripped_of_pieces hsecond,
    ending_of_pieces hfirst (by simp), ending_of_pieces hsecond (by simp)] at hlength hrun
  refine ⟨junk', ?_, returns_of_lt (n := msg.bytes.length + 3) fun fuel hfuel => ?_⟩
  · change (stripped msg.bytes ++ (ending msg.bytes ++ junk')).length + 2 =
      msg.bytes.length + 2 + (1 + junk.length) at hlength
    omega
  · rw [sendDcnteTxt, hformatted, strlen_midway hnul]
    have hstripped := hrun fuel (by simp only [List.length_cons]; omega)
    rw [List.length_nil, Nat.zero_add, Nat.zero_add] at hstripped
    rw [hstripped]
    congr 2
    change (stripped msg.bytes).length + 2 + (ending msg.bytes).length =
      2 + ((stripped msg.bytes).length + (ending msg.bytes).length)
    omega

theorem leaves_iff {junk : List UInt8}
    (hlength : (stripped msg.bytes ++ (ending msg.bytes ++ junk)).length = 510) :
    Leaves msg (62 :: 32 :: (stripped msg.bytes ++ (ending msg.bytes ++ junk)),
        2 + ((stripped msg.bytes).length + (ending msg.bytes).length)) ↔
      ¬CutOff msg.bytes := by
  have htake : (62 :: 32 :: (stripped msg.bytes ++ (ending msg.bytes ++ junk))).take
      (2 + ((stripped msg.bytes).length + (ending msg.bytes).length)) =
        62 :: 32 :: (stripped msg.bytes ++ ending msg.bytes) := by
    rw [Nat.add_comm 2, ← List.length_append, ← List.append_assoc]
    change 62 :: 32 :: (_ ++ junk).take _ = _
    rw [List.take_left]
  have hsize : (62 :: 32 :: (stripped msg.bytes ++ (ending msg.bytes ++ junk))).length = 512 := by
    rw [List.length_cons, List.length_cons, hlength]
  constructor
  · rintro ⟨-, htext, -⟩ hcut
    rw [htake, ending, if_pos hcut] at htext
    have hlong := congrArg List.length htext
    simp only [List.length_cons, List.length_append, List.length_nil] at hlong
    omega
  · intro hcut
    have hending : ending msg.bytes = [0] := if_neg hcut
    have hnul : (0 : UInt8) ∉ 62 :: 32 :: stripped msg.bytes := by
      rw [List.mem_cons, List.mem_cons, not_or, not_or]
      exact ⟨by decide, by decide, fun h => msg.noNul (mem_of_mem_stripped h)⟩
    have hstrlen := strlen_midway hnul junk
    rw [Leaves, htake, hsize, hending]
    refine ⟨rfl, rfl, ?_, ?_⟩
    · change strlen (midway [] (62 :: 32 :: stripped msg.bytes) junk) + 1 = _
      rw [hstrlen]
      simp only [List.length_cons, List.length_nil]
      omega
    · rw [List.mem_cons, List.mem_cons, List.mem_append, not_or, not_or, not_or]
      exact ⟨by decide, by decide, tab_notMem_stripped _, by decide⟩

end Message

/-- Whatever the message and whatever was in the array before, the loop comes to an end without
leaving the array; the text is stripped as it should be exactly when the message does not end in a
tab that has nothing behind it to escape. -/
theorem sendDcnteTxt_leaves_iff (tm : Vector UInt8 512) (msg : Message) :
    (∃ out, Returns (sendDcnteTxt tm.toList msg.bytes) out ∧ out.1.length = 512) ∧
      ((∃ out, Returns (sendDcnteTxt tm.toList msg.bytes) out ∧ Leaves msg out) ↔
        ¬CutOff msg.bytes) := by
  obtain ⟨junk, hlength, hreturns⟩ := sendDcnteTxt_returns tm msg
  refine ⟨⟨_, hreturns, ?_⟩, ?_⟩
  · rw [List.length_cons, List.length_cons, hlength]
  · rw [hreturns.exists_iff, leaves_iff msg hlength]

/-- A message that ends in a tab. -/
def lastTab : Message where
  bytes := [72, 105, 9]
  noNul := by decide
  short := by decide

/-- The terminator goes with the tab. -/
theorem sendDcnteTxt_leaves_not : ¬∀ (tm : Vector UInt8 512) (msg : Message),
    ∃ out, Returns (sendDcnteTxt tm.toList msg.bytes) out ∧ Leaves msg out := by
  intro hall
  obtain ⟨junk, hlength, hreturns⟩ := sendDcnteTxt_returns (Vector.replicate 512 0) lastTab
  have hleaves := hreturns.exists_iff.mp (hall (Vector.replicate 512 0) lastTab)
  exact (leaves_iff lastTab hlength).mp hleaves (by decide)

end ShipServer.EscapeStripping
