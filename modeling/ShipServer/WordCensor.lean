import ShipServer.WordCheck

set_option autoImplicit false

namespace ShipServer.WordCensor

open ShipServer.PatternOccurrences ShipServer.WordCheck

/-- `censor_str`: "#!@%". -/
def censorStr : List WChar := [35, 33, 64, 37]

def censorChar (k : ℕ) : WChar := censorStr.getD (k % 4) 0

/-- The string, and the places that have been written. -/
structure Text where
  wstr : List WChar
  written : List ℕ

/-- What is left of the search at one place: `cmp` is the word that was looked at last, without the
space that is skipped at the beginning of the string. -/
structure Search where
  matched : Bool
  cmp : List WChar
  skip : ℕ

def Search.len2 (s : Search) : ℕ := s.cmp.length

def skipAt (word : List WChar) (j : ℕ) : ℕ :=
  if j = 0 ∧ word.headD 0 = space then 1 else 0

def lookAt (letter : WChar → WChar → Bool) (word wstr : List WChar) (j : ℕ) : Search where
  matched := matchedAt letter word wstr j
  cmp := cmpAt word j
  skip := skipAt word j

/-- The loop over the words. A list with no words leaves everything as it was. -/
def search (letter : WChar → WChar → Bool) (wstr : List WChar) (j : ℕ) :
    List (List WChar) → Search → Search
  | [], s => s
  | word :: words, _ =>
    if matchedAt letter word wstr j then lookAt letter word wstr j
    else search letter wstr j words (lookAt letter word wstr j)

def writeAt (skip j k : ℕ) (t : Text) : Text :=
  if t.wstr.getD (j + k) 0 ≠ 0 ∧ t.wstr.getD (j + k) 0 ≠ space then
    ⟨t.wstr.set (j + k) (censorChar (k + skip)), t.written ++ [j + k]⟩
  else t

/-- The loop over the letters that are censored, with the number of those that are left. -/
def overwrite (skip j : ℕ) : ℕ → ℕ → Text → Text
  | 0, _, t => t
  | n + 1, k, t => overwrite skip j n (k + 1) (writeAt skip j k t)

/-- `cmp[len2 - 1]` is a space. Before a word of which nothing is left stands the space that has
been skipped. -/
def Search.ends (s : Search) : Bool :=
  match s.cmp.getLast? with
  | some c => c == space
  | none => s.skip == 1

/-- The place after the censored word, or its last space. The only step below 0 wraps around. -/
def Search.next (s : Search) (j : ℕ) : ℕ :=
  if s.ends then (if j + s.len2 = 0 then 2 ^ 64 - 1 else j + s.len2 - 1) else j + s.len2

/-- The loop over the string. It may be endless, and is given up when there is no fuel left. -/
def censorLoop (letter : WChar → WChar → Bool) (words : List (List WChar)) (len : ℕ) :
    ℕ → ℕ → Search → Text → Option (Search × Text)
  | 0, _, _, _ => none
  | fuel + 1, j, s, t =>
    if j < len then
      let s := search letter t.wstr j words s
      if s.matched then
        censorLoop letter words len fuel (s.next j) s (overwrite s.skip j s.len2 0 t)
      else censorLoop letter words len fuel (j + 1) s t
    else some (s, t)

/-- The loop with one of the lists, when it has been chosen. -/
def censorList (on : Prop) [Decidable on] (letter : WChar → WChar → Bool)
    (words : List (List WChar)) (len fuel : ℕ) (s : Search) (t : Text) : Option (Search × Text) :=
  if on then censorLoop letter words len fuel 0 s t else some (s, t)

def smutdataCensorString (fuel : ℕ) (data : Option Smutdata) (str : List WChar)
    (which : BitVec 32) : Option Text :=
  match data with
  | none => some ⟨str, []⟩
  | some lists =>
    if which &&& smutdataBoth = 0 then some ⟨str, []⟩
    else do
      let wstr := stripped str
      let (s, t) ← censorList (which &&& smutdataWest ≠ 0) westLetter lists.west wstr.length fuel
        ⟨false, [], 0⟩ ⟨wstr, []⟩
      let (_, t) ← censorList (which &&& smutdataEast ≠ 0) eastLetter lists.east wstr.length fuel
        s t
      some ⟨(if marked str then str.take 2 else []) ++ t.wstr, t.written⟩

/-- A comparison in which a censor character is no other character. -/
def Sharp (letter : WChar → WChar → Bool) : Prop :=
  ∀ c x, x ∈ censorStr → c ∉ censorStr → letter c x = false

theorem sharp_west : Sharp westLetter := by
  intro c x hx hc
  have hlower : towlower x = x ∧ x ≠ 108 ∧ x ≠ 124 := by
    revert x
    decide
  rw [westLetter, hlower.1, beq_false_of_ne hlower.2.1, beq_false_of_ne hlower.2.2, Bool.or_self,
    Bool.and_false, Bool.or_false, beq_eq_false_iff_ne]
  rintro rfl
  exact hc hx

theorem sharp_east : Sharp eastLetter := by
  intro c x hx hc
  rw [eastLetter, beq_eq_false_iff_ne]
  rintro rfl
  exact hc hx

theorem censorChar_mem (k : ℕ) : censorChar k ∈ censorStr := by
  have hlt : k % 4 < censorStr.length := Nat.mod_lt _ (by decide)
  rw [censorChar, List.getD_eq_getElem _ _ hlt]
  exact List.getElem_mem _

theorem censorStr_pos {c : WChar} (h : c ∈ censorStr) : c ≠ 0 ∧ c ≠ space := by
  revert c
  decide

/-- Some characters of the text have become censor characters, but no spaces. -/
structure Faded (wstr wstr' : List WChar) : Prop where
  length : wstr'.length = wstr.length
  getD : ∀ i, wstr'.getD i 0 = wstr.getD i 0 ∨
    wstr.getD i 0 ≠ 0 ∧ wstr.getD i 0 ≠ space ∧ wstr'.getD i 0 ∈ censorStr

section Fading

theorem Faded.refl (wstr : List WChar) : Faded wstr wstr where
  length := rfl
  getD _ := Or.inl rfl

theorem Faded.trans {a b c : List WChar} (hab : Faded a b) (hbc : Faded b c) : Faded a c where
  length := hbc.length.trans hab.length
  getD i := by
    rcases hbc.getD i with h | h
    · rw [h]
      exact hab.getD i
    · rcases hab.getD i with h' | h'
      · rw [h'] at h
        exact Or.inr h
      · exact Or.inr ⟨h'.1, h'.2.1, h.2.2⟩

theorem Faded.eq_zero {a b : List WChar} (h : Faded a b) (i : ℕ) :
    b.getD i 0 = 0 ↔ a.getD i 0 = 0 := by
  rcases h.getD i with heq | ⟨hzero, _, hmem⟩
  · rw [heq]
  · exact iff_of_false (censorStr_pos hmem).1 hzero

theorem Faded.eq_space {a b : List WChar} (h : Faded a b) (i : ℕ) :
    b.getD i 0 = space ↔ a.getD i 0 = space := by
  rcases h.getD i with heq | ⟨_, hspace, hmem⟩
  · rw [heq]
  · exact iff_of_false (censorStr_pos hmem).2 hspace

theorem Faded.pos {a b : List WChar} (h : Faded a b) (ha : ∀ c ∈ a, 0 < c) : ∀ c ∈ b, 0 < c := by
  intro c hc
  obtain ⟨i, hi, rfl⟩ := List.getElem_of_mem hc
  refine Nat.pos_of_ne_zero fun hzero => ?_
  have hat : b.getD i 0 = 0 := by
    rw [List.getD_eq_getElem _ _ hi]
    exact hzero
  rw [h.eq_zero, getD_eq_zero ha, ← h.length] at hat
  omega

end Fading

section Writing

theorem getD_set (l : List WChar) {p i : ℕ} (c : WChar) (hp : p < l.length) :
    (l.set p c).getD i 0 = if p = i then c else l.getD i 0 := by
  rw [List.getD_eq_getElem?_getD, List.getElem?_set, List.getD_eq_getElem?_getD]
  split
  · rfl
  · rfl

theorem lt_of_getD {l : List WChar} {p : ℕ} (h : l.getD p 0 ≠ 0) : p < l.length := by
  by_contra hp
  exact h (List.getD_eq_default _ _ (Nat.not_lt.mp hp))

theorem getD_writeAt (skip j k i : ℕ) (t : Text) :
    (writeAt skip j k t).wstr.getD i 0 =
      if j + k = i ∧ t.wstr.getD i 0 ≠ 0 ∧ t.wstr.getD i 0 ≠ space then censorChar (k + skip)
      else t.wstr.getD i 0 := by
  rw [writeAt]
  by_cases h : t.wstr.getD (j + k) 0 ≠ 0 ∧ t.wstr.getD (j + k) 0 ≠ space
  · rw [if_pos h, getD_set _ _ (lt_of_getD h.1)]
    by_cases hi : j + k = i
    · subst hi
      rw [if_pos rfl, if_pos ⟨rfl, h⟩]
    · rw [if_neg hi, if_neg fun h' => hi h'.1]
  · rw [if_neg h, if_neg]
    rintro ⟨rfl, h'⟩
    exact h h'

/-- What the loop writes. -/
theorem getD_overwrite (skip j n k i : ℕ) (t : Text) :
    (overwrite skip j n k t).wstr.getD i 0 =
      if j + k ≤ i ∧ i < j + k + n ∧ t.wstr.getD i 0 ≠ 0 ∧ t.wstr.getD i 0 ≠ space then
        censorChar (i - j + skip)
      else t.wstr.getD i 0 := by
  induction n generalizing k t with
  | zero =>
    rw [overwrite, if_neg]
    omega
  | succ n ih =>
    rw [overwrite, ih]
    by_cases hi : j + k = i
    · subst hi
      have hk : j + k - j + skip = k + skip := by omega
      rw [if_neg (fun h => absurd h.1 (by omega)), getD_writeAt, hk]
      exact if_congr ⟨fun h => ⟨le_rfl, by omega, h.2⟩, fun h => ⟨rfl, h.2.2⟩⟩ rfl rfl
    · have hsame : (writeAt skip j k t).wstr.getD i 0 = t.wstr.getD i 0 := by
        rw [getD_writeAt, if_neg fun h => hi h.1]
      rw [hsame]
      refine if_congr ⟨fun h => ⟨by omega, by omega, h.2.2⟩, fun h => ⟨?_, by omega, h.2.2⟩⟩ rfl rfl
      omega

theorem length_overwrite (skip j n k : ℕ) (t : Text) :
    (overwrite skip j n k t).wstr.length = t.wstr.length := by
  induction n generalizing k t with
  | zero => rfl
  | succ n ih =>
    rw [overwrite, ih, writeAt]
    split
    · exact List.length_set
    · rfl

theorem faded_overwrite (skip j n k : ℕ) (t : Text) :
    Faded t.wstr (overwrite skip j n k t).wstr where
  length := length_overwrite skip j n k t
  getD i := by
    rw [getD_overwrite]
    split
    · rename_i h
      exact Or.inr ⟨h.2.2.1, h.2.2.2, censorChar_mem _⟩
    · exact Or.inl rfl

/-- The places that are written stand one after the other, and there are some where there is a
character to censor. -/
theorem written_overwrite (skip j n k : ℕ) (t : Text) :
    ∃ l, (overwrite skip j n k t).written = t.written ++ l ∧
      ((∃ i, j + k ≤ i ∧ i < j + k + n ∧ t.wstr.getD i 0 ≠ 0 ∧ t.wstr.getD i 0 ≠ space) →
        l ≠ []) := by
  induction n generalizing k t with
  | zero =>
    refine ⟨[], (List.append_nil _).symm, ?_⟩
    rintro ⟨i, hlow, hhigh, _⟩
    omega
  | succ n ih =>
    obtain ⟨l, hl, hne⟩ := ih (k + 1) (writeAt skip j k t)
    rw [overwrite, hl]
    by_cases h : t.wstr.getD (j + k) 0 ≠ 0 ∧ t.wstr.getD (j + k) 0 ≠ space
    · refine ⟨(j + k) :: l, ?_, fun _ => List.cons_ne_nil _ _⟩
      rw [writeAt, if_pos h, List.append_assoc, List.singleton_append]
    · rw [writeAt, if_neg h] at hne ⊢
      refine ⟨l, rfl, ?_⟩
      rintro ⟨i, hlow, hhigh, hi⟩
      refine hne ⟨i, ?_, by omega, hi⟩
      rcases Nat.eq_or_lt_of_le hlow with rfl | hlt
      · exact absurd hi h
      · exact hlt

end Writing

/-- A character of the text, or the space behind it. -/
def paddedAt (wstr : List WChar) (i : ℕ) : WChar :=
  if i < wstr.length then wstr.getD i 0 else space

/-- A word that is not only spaces. -/
def HasLetter (word : List WChar) : Prop := ∃ c ∈ word, c ≠ space

section Matching

variable {letter : WChar → WChar → Bool}

theorem starts_getD (cmp text : List WChar) :
    Starts (Agrees letter) cmp text ↔
      cmp.length ≤ text.length ∧
        ∀ k < cmp.length, letter (cmp.getD k 0) (text.getD k 0) = true := by
  induction cmp generalizing text with
  | nil =>
    exact iff_of_true (Starts.nil _) ⟨Nat.zero_le _, fun k hk => absurd hk (Nat.not_lt_zero k)⟩
  | cons c cmp ih =>
    cases text with
    | nil => exact iff_of_false starts_cons_nil fun h => absurd h.1 (Nat.not_succ_le_zero _)
    | cons x text =>
      rw [starts_cons_cons, ih]
      constructor
      · rintro ⟨hc, hlen, hall⟩
        refine ⟨Nat.succ_le_succ hlen, fun k hk => ?_⟩
        cases k with
        | zero => exact hc
        | succ k => exact hall k (Nat.lt_of_succ_lt_succ hk)
      · rintro ⟨hlen, hall⟩
        refine ⟨hall 0 (Nat.succ_pos _), Nat.le_of_succ_le_succ hlen, fun k hk => ?_⟩
        exact hall (k + 1) (Nat.succ_lt_succ hk)

/-- A match, letter by letter. -/
theorem matchedAt_padded (hspace : KeepsSpace letter) {wstr : List WChar}
    (hstr : ∀ c ∈ wstr, 0 < c) (word : List WChar) {j : ℕ} (hj : j ≤ wstr.length) :
    matchedAt letter word wstr j = true ↔
      j + (cmpAt word j).length ≤ wstr.length + 1 ∧
        ∀ k < (cmpAt word j).length,
          letter ((cmpAt word j).getD k 0) (paddedAt wstr (j + k)) = true := by
  have hlen : (wstr.drop j ++ [space]).length = wstr.length - j + 1 := by
    rw [List.length_append, List.length_drop, List.length_singleton]
  have hat {k : ℕ} (hk : k < wstr.length - j + 1) :
      (wstr.drop j ++ [space]).getD k 0 = paddedAt wstr (j + k) := by
    rw [paddedAt, List.getD_eq_getElem?_getD]
    by_cases h : j + k < wstr.length
    · rw [List.getElem?_append_left (by rw [List.length_drop]; omega), List.getElem?_drop, if_pos h,
        List.getD_eq_getElem?_getD]
    · have hend : k - (wstr.drop j).length = 0 := by
        rw [List.length_drop]
        omega
      rw [List.getElem?_append_right (by rw [List.length_drop]; omega), if_neg h, hend]
      rfl
  rw [matchedAt_iff hspace hstr word hj, starts_getD, hlen]
  constructor
  · rintro ⟨hle, hall⟩
    refine ⟨by omega, fun k hk => ?_⟩
    rw [← hat (by omega)]
    exact hall k hk
  · rintro ⟨hle, hall⟩
    refine ⟨by omega, fun k hk => ?_⟩
    rw [hat (by omega)]
    exact hall k hk

theorem Faded.paddedAt {a b : List WChar} (h : Faded a b) (i : ℕ) :
    paddedAt b i = paddedAt a i ∨ paddedAt b i ∈ censorStr := by
  rw [WordCensor.paddedAt, WordCensor.paddedAt, h.length]
  split
  · exact (h.getD i).imp_right fun h' => h'.2.2
  · exact Or.inl rfl

theorem mem_cmpAt {word : List WChar} {j : ℕ} {c : WChar} (h : c ∈ cmpAt word j) : c ∈ word := by
  rw [cmpAt] at h
  split at h
  · exact List.mem_of_mem_tail h
  · exact h

theorem HasLetter.cmpAt {word : List WChar} (h : HasLetter word) (j : ℕ) :
    HasLetter (cmpAt word j) := by
  rw [WordCheck.cmpAt]
  split
  · rename_i hj
    obtain ⟨c, hc, hne⟩ := h
    cases word with
    | nil => cases hc
    | cons d word =>
      refine ⟨c, ?_, hne⟩
      rcases List.mem_cons.mp hc with rfl | hc
      · exact absurd hj.2 hne
      · exact hc
  · exact h

/-- Where a word stands in the censored text it stood before. -/
theorem matchedAt_of_faded (hspace : KeepsSpace letter) (hsharp : Sharp letter)
    {a b : List WChar} (hfaded : Faded a b) (ha : ∀ c ∈ a, 0 < c) {word : List WChar}
    (hword : ∀ c ∈ word, c ∉ censorStr) {j : ℕ} (hj : j ≤ a.length)
    (h : matchedAt letter word b j = true) : matchedAt letter word a j = true := by
  have hjb : j ≤ b.length := hfaded.length ▸ hj
  rw [matchedAt_padded hspace (hfaded.pos ha) word hjb, hfaded.length] at h
  rw [matchedAt_padded hspace ha word hj]
  refine ⟨h.1, fun k hk => ?_⟩
  rcases hfaded.paddedAt (j + k) with heq | hmem
  · rw [← heq]
    exact h.2 k hk
  · have hc : (cmpAt word j).getD k 0 ∉ censorStr := by
      rw [List.getD_eq_getElem _ _ hk]
      exact hword _ (mem_cmpAt (List.getElem_mem hk))
    have hno := hsharp _ _ hmem hc
    rw [h.2 k hk] at hno
    cases hno

/-- A match looks at the rest of the text only. -/
theorem matchedAt_congr (hspace : KeepsSpace letter) {a b : List WChar} (ha : ∀ c ∈ a, 0 < c)
    (hb : ∀ c ∈ b, 0 < c) (hlen : b.length = a.length) {j : ℕ} (hj : j ≤ a.length)
    (hrest : ∀ i, j ≤ i → b.getD i 0 = a.getD i 0) (word : List WChar) :
    matchedAt letter word b j = matchedAt letter word a j := by
  have hpad (k : ℕ) : paddedAt b (j + k) = paddedAt a (j + k) := by
    rw [paddedAt, paddedAt, hlen, hrest _ (Nat.le_add_right j k)]
  rw [Bool.eq_iff_iff, matchedAt_padded hspace hb word (hlen ▸ hj),
    matchedAt_padded hspace ha word hj, hlen]
  simp only [hpad]

/-- The letters of a word that stands in the text are characters of the text. -/
theorem letter_in_text (hspace : KeepsSpace letter) {wstr : List WChar}
    (hstr : ∀ c ∈ wstr, 0 < c) {word : List WChar} {j : ℕ} (hj : j ≤ wstr.length)
    (h : matchedAt letter word wstr j = true) {k : ℕ} (hk : k < (cmpAt word j).length) :
    (cmpAt word j).getD k 0 = space ↔ paddedAt wstr (j + k) = space := by
  have hmatch := ((matchedAt_padded hspace hstr word hj).mp h).2 k hk
  constructor
  · intro hc
    exact ((hspace _ _).1 hc).mp hmatch
  · intro hx
    exact ((hspace _ _).2 hx).mp hmatch

end Matching

section Searching

variable {letter : WChar → WChar → Bool} {wstr : List WChar} {j : ℕ}

theorem search_cases (words : List (List WChar)) (s : Search) :
    words = [] ∧ search letter wstr j words s = s ∨
    (∃ word ∈ words, matchedAt letter word wstr j = true ∧
      search letter wstr j words s = lookAt letter word wstr j) ∨
    words ≠ [] ∧ (search letter wstr j words s).matched = false ∧
      ∀ word ∈ words, matchedAt letter word wstr j = false := by
  induction words generalizing s with
  | nil => exact Or.inl ⟨rfl, rfl⟩
  | cons word words ih =>
    refine Or.inr ?_
    rw [search]
    by_cases hm : matchedAt letter word wstr j = true
    · rw [if_pos hm]
      exact Or.inl ⟨word, .head _, hm, rfl⟩
    · have hfalse : matchedAt letter word wstr j = false := Bool.eq_false_iff.mpr hm
      rw [if_neg hm]
      rcases ih (lookAt letter word wstr j) with ⟨rfl, _⟩ | ⟨found, hfound, h⟩ | ⟨_, hnone, hall⟩
      · exact Or.inr ⟨List.cons_ne_nil _ _, hfalse, List.forall_mem_singleton.mpr hfalse⟩
      · exact Or.inl ⟨found, .tail _ hfound, h⟩
      · exact Or.inr ⟨List.cons_ne_nil _ _, hnone, List.forall_mem_cons.mpr ⟨hfalse, hall⟩⟩

/-- After a word with a letter the loop goes on. -/
theorem Search.lt_next {s : Search} (h : HasLetter s.cmp) : j < s.next j := by
  obtain ⟨c, hc, hne⟩ := h
  have hpos : 0 < s.cmp.length := List.length_pos_of_mem hc
  rw [Search.next, Search.len2]
  split
  · rename_i hends
    have htwo : 2 ≤ s.cmp.length := by
      by_contra hone
      obtain ⟨d, hd⟩ := List.length_eq_one_iff.mp (show s.cmp.length = 1 by omega)
      rw [Search.ends, hd] at hends
      rw [hd, List.mem_singleton] at hc
      exact hne (hc.trans (beq_iff_eq.mp hends))
    rw [if_neg (by omega)]
    omega
  · omega

theorem Search.ends_iff {s : Search} (h : HasLetter s.cmp) :
    s.ends = true ↔ s.cmp.getD (s.len2 - 1) 0 = space := by
  have hpos : 0 < s.cmp.length := List.length_pos_of_mem h.choose_spec.1
  have hlast : s.cmp.length - 1 < s.cmp.length := by omega
  rw [Search.ends, Search.len2, List.getLast?_eq_getElem?, List.getElem?_eq_getElem hlast,
    List.getD_eq_getElem _ _ hlast]
  exact beq_iff_eq

theorem Search.next_eq {s : Search} (h : HasLetter s.cmp) :
    s.next j = if s.cmp.getD (s.len2 - 1) 0 = space then j + s.len2 - 1 else j + s.len2 := by
  have hpos : 0 < s.cmp.length := List.length_pos_of_mem h.choose_spec.1
  rw [Search.next, Search.len2, if_neg (show ¬j + s.cmp.length = 0 by omega)]
  exact if_congr (Search.ends_iff h) rfl rfl

/-- Of the word only a space may stand at the next place. -/
theorem Search.getD_next {s : Search} (h : HasLetter s.cmp) {k : ℕ} (hk : s.next j ≤ j + k)
    (hlen : k < s.len2) : s.cmp.getD k 0 = space := by
  rw [Search.next_eq h] at hk
  split at hk
  · rename_i hends
    have hlast : k = s.len2 - 1 := by omega
    rw [hlast, hends]
  · omega

/-- A place from which on the word is only spaces is not its last one when the loop skips it. -/
theorem Search.succ_lt_next {s : Search} {i : ℕ} (h : HasLetter s.cmp) (hi : i < s.next j)
    (hj : j ≤ i) (hspaces : ∀ k, i ≤ j + k → k < s.len2 → s.cmp.getD k 0 = space) :
    i + 1 < j + s.len2 := by
  have hpos : 0 < s.len2 := List.length_pos_of_mem h.choose_spec.1
  rw [Search.next_eq h] at hi
  split at hi
  · omega
  · rename_i hends
    by_contra hlast
    exact hends (hspaces _ (by omega) (by omega))

end Searching

end ShipServer.WordCensor
