import ShipServer.WordCensor

set_option autoImplicit false

namespace ShipServer.WordCensor

open ShipServer.PatternOccurrences ShipServer.WordCheck

/-- The place is in a word that stands in the text. -/
def Covered (letter : WChar → WChar → Bool) (words : List (List WChar)) (wstr : List WChar)
    (i : ℕ) : Prop :=
  ∃ word ∈ words, ∃ j < wstr.length, matchedAt letter word wstr j = true ∧
    j ≤ i ∧ i < j + (cmpAt word j).length

/-- A word stands in the text at one of the spaces that another word ends with, but not at the last
one. -/
def Overlaps (letter : WChar → WChar → Bool) (words : List (List WChar))
    (wstr : List WChar) : Prop :=
  ∃ first ∈ words, ∃ second ∈ words, ∃ i < wstr.length, ∃ j < wstr.length,
    matchedAt letter first wstr i = true ∧ matchedAt letter second wstr j = true ∧
      i < j ∧ j + 1 < i + (cmpAt first i).length ∧
      ∀ k, j ≤ i + k → k < (cmpAt first i).length → (cmpAt first i).getD k 0 = space

/-- The loop is over after a word that stands in the text. -/
def Reaches (letter : WChar → WChar → Bool) (words : List (List WChar))
    (wstr : List WChar) : Prop :=
  ∃ word ∈ words, ∃ j < wstr.length, matchedAt letter word wstr j = true ∧
    wstr.length ≤ (lookAt letter word wstr j).next j

section Running

variable {letter : WChar → WChar → Bool} {words : List (List WChar)} {len : ℕ}

/-- What each turn of the loop keeps holds at its end. -/
theorem censorLoop_run (P : ℕ → Search → Text → Prop)
    (hfound : ∀ j s t, j < len → P j s t → (search letter t.wstr j words s).matched = true →
      j < (search letter t.wstr j words s).next j ∧
        P ((search letter t.wstr j words s).next j) (search letter t.wstr j words s)
          (overwrite (search letter t.wstr j words s).skip j
            (search letter t.wstr j words s).len2 0 t))
    (hnone : ∀ j s t, j < len → P j s t → (search letter t.wstr j words s).matched = false →
      P (j + 1) (search letter t.wstr j words s) t)
    {j : ℕ} {s : Search} {t : Text} (hP : P j s t) :
    ∃ j' s' t', len ≤ j' ∧ P j' s' t' ∧
      ∀ fuel, len - j < fuel → censorLoop letter words len fuel j s t = some (s', t') := by
  induction hn : len - j using Nat.strong_induction_on generalizing j s t with
  | _ n ih =>
    by_cases hj : j < len
    · cases hm : (search letter t.wstr j words s).matched with
      | true =>
        obtain ⟨hlt, hP'⟩ := hfound j s t hj hP hm
        obtain ⟨j', s', t', hle, hend, hrun⟩ := ih _ (by omega) hP' rfl
        refine ⟨j', s', t', hle, hend, fun fuel hfuel => ?_⟩
        cases fuel with
        | zero => exact absurd hfuel (Nat.not_lt_zero _)
        | succ fuel =>
          rw [censorLoop, if_pos hj]
          dsimp only
          rw [if_pos hm]
          exact hrun fuel (by omega)
      | false =>
        obtain ⟨j', s', t', hle, hend, hrun⟩ := ih (len - (j + 1)) (by omega)
          (hnone j s t hj hP hm) rfl
        refine ⟨j', s', t', hle, hend, fun fuel hfuel => ?_⟩
        cases fuel with
        | zero => exact absurd hfuel (Nat.not_lt_zero _)
        | succ fuel =>
          rw [censorLoop, if_pos hj]
          dsimp only
          rw [if_neg (by rw [hm]; exact Bool.false_ne_true)]
          exact hrun fuel (by omega)
    · refine ⟨j, s, t, Nat.not_lt.mp hj, hP, fun fuel hfuel => ?_⟩
      cases fuel with
      | zero => exact absurd hfuel (Nat.not_lt_zero _)
      | succ fuel => rw [censorLoop, if_neg hj]

/-- The word that was matched last has a letter. -/
def Search.Good (s : Search) : Prop := s.matched = true → HasLetter s.cmp

/-- What holds of every run of the loop over the string `wstr`. -/
structure Fading (wstr : List WChar) (before : List ℕ) (s : Search) (t : Text) : Prop where
  good : s.Good
  faded : Faded wstr t.wstr
  written : ∃ l, t.written = before ++ l

theorem search_good (hwords : ∀ word ∈ words, HasLetter word) {wstr : List WChar} {j : ℕ}
    {s : Search} (h : s.Good) : (search letter wstr j words s).Good := by
  intro hm
  rcases @search_cases letter wstr j words s with ⟨_, heq⟩ | ⟨word, hword, _, heq⟩ | ⟨_, hno, _⟩
  · rw [heq] at hm ⊢
    exact h hm
  · rw [heq]
    exact (hwords word hword).cmpAt j
  · rw [hno] at hm
    cases hm

theorem Fading.found (hwords : ∀ word ∈ words, HasLetter word) {wstr : List WChar}
    {before : List ℕ} {j : ℕ} {s : Search} {t : Text} (h : Fading wstr before s t) {n : ℕ} :
    Fading wstr before (search letter t.wstr j words s)
      (overwrite (search letter t.wstr j words s).skip j n 0 t) := by
  refine ⟨search_good hwords h.good, h.faded.trans (faded_overwrite _ _ _ _ _), ?_⟩
  obtain ⟨l, hl⟩ := h.written
  obtain ⟨l', hl', _⟩ := written_overwrite (search letter t.wstr j words s).skip j n 0 t
  exact ⟨l ++ l', by rw [hl', hl, List.append_assoc]⟩

theorem Fading.none (hwords : ∀ word ∈ words, HasLetter word) {wstr : List WChar}
    {before : List ℕ} {j : ℕ} {s : Search} {t : Text} (h : Fading wstr before s t) :
    Fading wstr before (search letter t.wstr j words s) t :=
  ⟨search_good hwords h.good, h.faded, h.written⟩

/-- The loop is over some time, whatever the search before it left behind. -/
theorem censorLoop_fading (hwords : ∀ word ∈ words, HasLetter word) {wstr : List WChar}
    {before : List ℕ} {s : Search} {t : Text} (h : Fading wstr before s t) :
    ∃ s' t', Fading wstr before s' t' ∧
      ∀ fuel, len < fuel → censorLoop letter words len fuel 0 s t = some (s', t') := by
  obtain ⟨_, s', t', _, hend, hrun⟩ := @censorLoop_run letter words len
    (fun _ s t => Fading wstr before s t)
    (fun j s t _ h hm => ⟨Search.lt_next (search_good hwords h.good hm), h.found hwords⟩)
    (fun j s t _ h _ => h.none hwords) 0 s t h
  exact ⟨s', t', hend, hrun⟩

/-- What holds of a run that starts with no match left over from another list: where nothing has
been written no word has been met, all that was changed is in a word of the list, and no word
stands any more at the places the loop has left behind. -/
structure Censoring (letter : WChar → WChar → Bool) (words : List (List WChar))
    (wstr : List WChar) (before : List ℕ) (j : ℕ) (s : Search) (t : Text) : Prop
    extends Fading wstr before s t where
  fresh : words = [] → s.matched = false
  rest : ∀ i, j ≤ i → t.wstr.getD i 0 = wstr.getD i 0
  covered : ∀ i, t.wstr.getD i 0 ≠ wstr.getD i 0 → Covered letter words wstr i
  unwritten : t.written = before → t.wstr = wstr ∧
    ∀ i < j, i < wstr.length → ∀ word ∈ words, matchedAt letter word wstr i = false
  met : t.written ≠ before → checkList letter words wstr = true
  reaches : s.matched = true → wstr.length ≤ j → Reaches letter words wstr
  clean : (∀ word ∈ words, ∀ c ∈ word, c ∉ censorStr) → ¬Overlaps letter words wstr →
    ∀ i < j, i < wstr.length → ∀ word ∈ words, matchedAt letter word t.wstr i = false

section Steps

variable {wstr : List WChar} {before : List ℕ} {j : ℕ} {s : Search} {t : Text}

/-- The word is censored. -/
def censorWord (word : List WChar) (j : ℕ) (t : Text) : Text :=
  overwrite (skipAt word j) j (cmpAt word j).length 0 t

theorem getD_censorWord_of (word : List WChar) (i : ℕ) :
    (censorWord word j t).wstr.getD i 0 =
      if j ≤ i ∧ i < j + (cmpAt word j).length ∧ t.wstr.getD i 0 ≠ 0 ∧ t.wstr.getD i 0 ≠ space then
        censorChar (i - j + skipAt word j)
      else t.wstr.getD i 0 :=
  getD_overwrite _ _ _ 0 i t

/-- A letter of a word that is met is a character of the text. -/
theorem letter_met (hspace : KeepsSpace letter) (hstr : ∀ c ∈ wstr, 0 < c) (hj : j < wstr.length)
    {word : List WChar} (hyes : matchedAt letter word wstr j = true) {k : ℕ}
    (hk : k < (cmpAt word j).length) (hne : (cmpAt word j).getD k 0 ≠ space) :
    j + k < wstr.length ∧ wstr.getD (j + k) 0 ≠ 0 ∧ wstr.getD (j + k) 0 ≠ space := by
  have hpad := (letter_in_text hspace hstr hj.le hyes hk).not.mp hne
  have hin : j + k < wstr.length := by
    by_contra hout
    exact hpad (if_neg hout)
  rw [paddedAt, if_pos hin] at hpad
  refine ⟨hin, ?_, hpad⟩
  rw [ne_eq, getD_eq_zero hstr]
  omega

theorem HasLetter.getD {word : List WChar} (h : HasLetter word) :
    ∃ k < word.length, word.getD k 0 ≠ space := by
  obtain ⟨c, hc, hne⟩ := h
  obtain ⟨k, hk, rfl⟩ := List.getElem_of_mem hc
  refine ⟨k, hk, ?_⟩
  rw [List.getD_eq_getElem _ _ hk]
  exact hne

/-- Some character of a word that is met is written. -/
theorem written_censorWord (hspace : KeepsSpace letter) (hstr : ∀ c ∈ t.wstr, 0 < c)
    (hj : j < t.wstr.length) {word : List WChar} (hletter : HasLetter word)
    (hyes : matchedAt letter word t.wstr j = true) (hold : ∃ l, t.written = before ++ l) :
    (censorWord word j t).written ≠ before := by
  obtain ⟨l, hl, hne⟩ := written_overwrite (skipAt word j) j (cmpAt word j).length 0 t
  obtain ⟨k, hk, hspace'⟩ := (hletter.cmpAt j).getD
  obtain ⟨_, hat⟩ := letter_met hspace hstr hj hyes hk hspace'
  have hwritten : l ≠ [] := hne ⟨j + k, by omega, by omega, hat⟩
  obtain ⟨l', hl'⟩ := hold
  rw [censorWord, hl, hl', List.append_assoc]
  intro hsame
  have hnil := List.append_right_eq_self.mp hsame
  exact hwritten (List.append_eq_nil_iff.mp hnil).2

/-- From the next place on nothing is changed. -/
theorem getD_censorWord (hspace : KeepsSpace letter) (hstr : ∀ c ∈ t.wstr, 0 < c)
    (hj : j < t.wstr.length) {word : List WChar} (hletter : HasLetter word)
    (hyes : matchedAt letter word t.wstr j = true) {i : ℕ}
    (hi : (lookAt letter word t.wstr j).next j ≤ i) :
    (censorWord word j t).wstr.getD i 0 = t.wstr.getD i 0 := by
  have hcmp : HasLetter (lookAt letter word t.wstr j).cmp := hletter.cmpAt j
  have hlt : j < (lookAt letter word t.wstr j).next j := Search.lt_next hcmp
  obtain ⟨k, rfl⟩ := Nat.exists_eq_add_of_le (hlt.le.trans hi)
  rw [getD_censorWord_of, if_neg]
  rintro ⟨_, hk, hzero, hspace'⟩
  have hk' : k < (cmpAt word j).length := by omega
  have hlast : (cmpAt word j).getD k 0 = space := Search.getD_next hcmp hi hk'
  have hpad := (letter_in_text hspace hstr hj.le hyes hk').mp hlast
  rw [paddedAt, if_pos (lt_of_getD hzero)] at hpad
  exact hspace' hpad

/-- After a word has been censored, no word of the list stands where the loop does not look any
more, unless two words overlap in their spaces. -/
theorem clean_censorWord (hspace : KeepsSpace letter) (hsharp : Sharp letter)
    (hwords : ∀ word ∈ words, HasLetter word) (hstr : ∀ c ∈ wstr, 0 < c)
    (hfaded : Faded wstr t.wstr) {word : List WChar} (hj : j < wstr.length)
    (hyes : matchedAt letter word wstr j = true) (hword : word ∈ words)
    (hno : ∀ word ∈ words, ∀ c ∈ word, c ∉ censorStr) (hover : ¬Overlaps letter words wstr) {i : ℕ}
    (hij : j ≤ i) (hi : i < (lookAt letter word t.wstr j).next j) (hlen : i < wstr.length)
    {other : List WChar} (hother : other ∈ words) :
    matchedAt letter other (censorWord word j t).wstr i = false := by
  by_contra htrue
  rw [Bool.not_eq_false] at htrue
  have hfaded' : Faded wstr (censorWord word j t).wstr :=
    hfaded.trans (faded_overwrite _ _ _ _ _)
  have hstr' := hfaded'.pos hstr
  have hat := matchedAt_of_faded hspace hsharp hfaded' hstr (hno other hother) hlen.le htrue
  have hleni : i < (censorWord word j t).wstr.length := hfaded'.length.symm ▸ hlen
  -- the letters of the other word are behind the censored one
  have hbehind : ∀ k < (cmpAt other i).length, (cmpAt other i).getD k 0 ≠ space →
      j + (cmpAt word j).length ≤ i + k := by
    intro k hk hne
    by_contra hin
    obtain ⟨hlt, hzero, hspace'⟩ := letter_met hspace hstr' hleni htrue hk hne
    have hstep := faded_overwrite (skipAt word j) j (cmpAt word j).length 0 t
    have hcensored : (censorWord word j t).wstr.getD (i + k) 0 ∈ censorStr := by
      rw [getD_censorWord_of, if_pos ⟨by omega, by omega, (hstep.eq_zero _).not.mp hzero,
        (hstep.eq_space _).not.mp hspace'⟩]
      exact censorChar_mem _
    have hmatch := ((matchedAt_padded hspace hstr' other hleni.le).mp htrue).2 k hk
    rw [paddedAt, if_pos hlt] at hmatch
    have hc : (cmpAt other i).getD k 0 ∉ censorStr := by
      rw [List.getD_eq_getElem _ _ hk]
      exact hno other hother _ (mem_cmpAt (List.getElem_mem hk))
    rw [hsharp _ _ hcensored hc] at hmatch
    cases hmatch
  obtain ⟨last, hlast, hlastne⟩ := ((hwords other hother).cmpAt i).getD
  have hfar := hbehind last hlast hlastne
  have hspaces : ∀ k, i ≤ j + k → k < (cmpAt word j).length →
      (cmpAt word j).getD k 0 = space := by
    intro k hik hk
    obtain ⟨k', hk'⟩ := Nat.exists_eq_add_of_le hik
    have hother' : (cmpAt other i).getD k' 0 = space := by
      by_contra hne
      have hle := hbehind k' (by omega) hne
      omega
    rw [letter_in_text hspace hstr hj.le hyes hk, hk',
      ← letter_in_text hspace hstr hlen.le hat (by omega)]
    exact hother'
  have hletter : HasLetter (lookAt letter word t.wstr j).cmp := (hwords word hword).cmpAt j
  rcases Nat.eq_or_lt_of_le hij with rfl | hlt
  · obtain ⟨k, hk, hne⟩ := hletter.getD
    exact hne (hspaces k (Nat.le_add_right _ _) hk)
  · exact hover ⟨word, hword, other, hother, j, hj, i, hlen, hyes, hat, hlt,
      Search.succ_lt_next hletter hi hij hspaces, hspaces⟩

theorem Censoring.none (hspace : KeepsSpace letter)
    (hwords : ∀ word ∈ words, HasLetter word) (hstr : ∀ c ∈ wstr, 0 < c) (hj : j < wstr.length)
    (h : Censoring letter words wstr before j s t)
    (hm : (search letter t.wstr j words s).matched = false) :
    Censoring letter words wstr before (j + 1) (search letter t.wstr j words s) t := by
  have hnone : ∀ word ∈ words, matchedAt letter word t.wstr j = false := by
    rcases @search_cases letter t.wstr j words s with
      ⟨rfl, _⟩ | ⟨_, _, hyes, heq⟩ | ⟨_, _, hall⟩
    · exact fun word hword => absurd hword List.not_mem_nil
    · rw [heq] at hm
      exact absurd (hyes.symm.trans hm) (by decide)
    · exact hall
  have hnone' : ∀ word ∈ words, matchedAt letter word wstr j = false := by
    intro word hword
    rw [← matchedAt_congr hspace hstr (h.faded.pos hstr) h.faded.length hj.le h.rest word]
    exact hnone word hword
  have hupto {P : ℕ → Prop} (hlow : ∀ i < j, P i) (hat : P j) : ∀ i < j + 1, P i := by
    intro i hi
    rcases Nat.lt_succ_iff_lt_or_eq.mp hi with hlt | rfl
    · exact hlow i hlt
    · exact hat
  exact
    { h.toFading.none hwords with
      fresh := fun hnil => hm
      rest := fun i hi => h.rest i (by omega)
      covered := h.covered
      unwritten := fun hw => ⟨(h.unwritten hw).1, hupto (h.unwritten hw).2 fun _ => hnone'⟩
      met := h.met
      reaches := fun hm' => absurd (hm.symm.trans hm') (by decide)
      clean := fun hno hover => hupto (h.clean hno hover) fun _ => hnone }

theorem Censoring.found (hspace : KeepsSpace letter) (hsharp : Sharp letter)
    (hwords : ∀ word ∈ words, HasLetter word) (hstr : ∀ c ∈ wstr, 0 < c) (hj : j < wstr.length)
    (h : Censoring letter words wstr before j s t)
    (hm : (search letter t.wstr j words s).matched = true) :
    Censoring letter words wstr before ((search letter t.wstr j words s).next j)
      (search letter t.wstr j words s)
      (overwrite (search letter t.wstr j words s).skip j
        (search letter t.wstr j words s).len2 0 t) := by
  have hfading := @Fading.found letter words hwords wstr before j s t h.toFading
    (search letter t.wstr j words s).len2
  obtain ⟨word, hword, hyes, heq⟩ : ∃ word ∈ words, matchedAt letter word t.wstr j = true ∧
      search letter t.wstr j words s = lookAt letter word t.wstr j := by
    rcases @search_cases letter t.wstr j words s with ⟨hnil, heq⟩ | hfound | ⟨_, hno, _⟩
    · rw [heq, h.fresh hnil] at hm
      cases hm
    · exact hfound
    · rw [hno] at hm
      cases hm
  rw [heq] at hm hfading ⊢
  have hletter : HasLetter (lookAt letter word t.wstr j).cmp := (hwords word hword).cmpAt j
  have htext := h.faded.pos hstr
  have hyes' : matchedAt letter word wstr j = true := by
    rw [← matchedAt_congr hspace hstr htext h.faded.length hj.le h.rest word]
    exact hyes
  have hgrown : (censorWord word j t).written ≠ before :=
    written_censorWord hspace htext (h.faded.length.symm ▸ hj) (hwords word hword) hyes h.written
  have hlook : (lookAt letter word t.wstr j).next j = (lookAt letter word wstr j).next j := rfl
  exact
    { hfading with
      fresh := fun hnil => absurd hword (hnil ▸ List.not_mem_nil)
      rest := fun i hi => by
        refine Eq.trans ?_ (h.rest i ((Search.lt_next hletter).le.trans hi))
        exact getD_censorWord hspace htext (h.faded.length.symm ▸ hj) (hwords word hword) hyes hi
      covered := fun i hi => by
        by_cases hsame : t.wstr.getD i 0 = wstr.getD i 0
        · refine ⟨word, hword, j, hj, hyes', ?_⟩
          by_contra hout
          refine hi (Eq.trans (getD_censorWord_of word i) ?_)
          rw [if_neg fun hin => hout ⟨hin.1, hin.2.1⟩]
          exact hsame
        · exact h.covered i hsame
      unwritten := fun hw => absurd hw hgrown
      met := fun _ => by
        rw [checkList, List.any_eq_true]
        exact ⟨j, List.mem_range.mpr hj, List.any_eq_true.mpr ⟨word, hword, hyes'⟩⟩
      reaches := fun _ hend => ⟨word, hword, j, hj, hyes', hend⟩
      clean := fun hno hover i hi hlen other hother => by
        rcases Nat.lt_or_ge i j with hij | hij
        · have hclean := h.clean hno hover i hij hlen other hother
          by_contra htrue
          rw [Bool.not_eq_false] at htrue
          have hbefore := matchedAt_of_faded hspace hsharp (faded_overwrite _ _ _ _ t) htext
            (hno other hother) (h.faded.length.symm ▸ hlen.le) htrue
          rw [hclean] at hbefore
          cases hbefore
        · exact clean_censorWord hspace hsharp hwords hstr h.faded hj hyes' hword hno hover hij hi
            hlen hother }

end Steps

/-- The loop over a list, from the start of the string. -/
theorem censorLoop_censoring (hspace : KeepsSpace letter) (hsharp : Sharp letter)
    (hwords : ∀ word ∈ words, HasLetter word) {t : Text} (hstr : ∀ c ∈ t.wstr, 0 < c) {s : Search}
    (hgood : s.Good) (hfresh : words = [] → s.matched = false)
    (hstart : s.matched = true → t.wstr ≠ []) :
    ∃ j s' t', t.wstr.length ≤ j ∧ Censoring letter words t.wstr t.written j s' t' ∧
      ∀ fuel, t.wstr.length < fuel →
        censorLoop letter words t.wstr.length fuel 0 s t = some (s', t') := by
  have hbegin : Censoring letter words t.wstr t.written 0 s t :=
    { good := hgood
      faded := Faded.refl _
      written := ⟨[], (List.append_nil _).symm⟩
      fresh := hfresh
      rest := fun _ _ => rfl
      covered := fun _ h => absurd rfl h
      unwritten := fun _ => ⟨rfl, fun i hi => absurd hi (Nat.not_lt_zero i)⟩
      met := fun h => absurd rfl h
      reaches := fun hm hlen =>
        absurd (List.eq_nil_of_length_eq_zero (Nat.le_zero.mp hlen)) (hstart hm)
      clean := fun _ _ i hi => absurd hi (Nat.not_lt_zero i) }
  refine censorLoop_run (fun j s t' => Censoring letter words t.wstr t.written j s t')
    (fun j s t' hj h hm => ⟨?_, h.found hspace hsharp hwords hstr hj hm⟩)
    (fun j s t' hj h hm => h.none hspace hwords hstr hj hm) hbegin
  exact Search.lt_next (search_good hwords h.good hm)

theorem Reaches.checkList {wstr : List WChar} (h : Reaches letter words wstr) :
    checkList letter words wstr = true := by
  obtain ⟨word, hword, j, hj, hyes, _⟩ := h
  rw [WordCheck.checkList, List.any_eq_true]
  exact ⟨j, List.mem_range.mpr hj, List.any_eq_true.mpr ⟨word, hword, hyes⟩⟩

/-- What the loops over one list do, when the list has been chosen and no match is left over from
another list. -/
structure Staged (on : Prop) (letter : WChar → WChar → Bool) (words : List (List WChar))
    (t : Text) (s' : Search) (t' : Text) : Prop where
  same : t'.written = t.written → t'.wstr = t.wstr
  written : t'.written ≠ t.written ↔ on ∧ checkList letter words t.wstr = true
  covered : ∀ i, t'.wstr.getD i 0 ≠ t.wstr.getD i 0 → on ∧ Covered letter words t.wstr i
  reaches : s'.matched = true → on → Reaches letter words t.wstr
  clean : (∀ word ∈ words, ∀ c ∈ word, c ∉ censorStr) → ¬Overlaps letter words t.wstr → on →
    checkList letter words t'.wstr = false

theorem staged (on : Prop) [Decidable on] (hspace : KeepsSpace letter) (hsharp : Sharp letter)
    (hwords : ∀ word ∈ words, HasLetter word) {t : Text} (hstr : ∀ c ∈ t.wstr, 0 < c) {s : Search}
    (hgood : s.Good) (hstart : s.matched = true → t.wstr ≠ []) :
    ∃ s' t', Fading t.wstr t.written s' t' ∧
      (¬on → s' = s ∧ t' = t) ∧
      ((on → words = [] → s.matched = false) → Staged on letter words t s' t') ∧
      ∀ fuel, t.wstr.length < fuel →
        censorList on letter words t.wstr.length fuel s t = some (s', t') := by
  by_cases hon : on
  · by_cases hfresh : words = [] → s.matched = false
    · obtain ⟨j, s', t', hend, h, hrun⟩ :=
        censorLoop_censoring hspace hsharp hwords hstr hgood hfresh hstart
      refine ⟨s', t', h.toFading, fun hoff => absurd hon hoff, fun _ => ?_, fun fuel hfuel => ?_⟩
      · refine ⟨fun hw => (h.unwritten hw).1, ⟨fun hw => ⟨hon, h.met hw⟩, ?_⟩,
          fun i hi => ⟨hon, h.covered i hi⟩, fun hm _ => h.reaches hm hend, ?_⟩
        · rintro ⟨_, hcheck⟩ hw
          rw [checkList, List.any_eq_true] at hcheck
          obtain ⟨i, hi, hany⟩ := hcheck
          obtain ⟨word, hword, hyes⟩ := List.any_eq_true.mp hany
          have hlt := List.mem_range.mp hi
          have hno := (h.unwritten hw).2 i (lt_of_lt_of_le hlt hend) hlt word hword
          rw [hno] at hyes
          cases hyes
        · intro hno hover _
          rw [checkList, List.any_eq_false]
          intro i hi
          rw [List.mem_range, h.faded.length] at hi
          rw [Bool.not_eq_true, List.any_eq_false]
          intro word hword
          rw [h.clean hno hover i (lt_of_lt_of_le hi hend) hi word hword]
          exact Bool.false_ne_true
      · rw [censorList, if_pos hon]
        exact hrun fuel hfuel
    · obtain ⟨s', t', h, hrun⟩ := @censorLoop_fading letter words t.wstr.length hwords t.wstr
        t.written s t ⟨hgood, Faded.refl _, [], (List.append_nil _).symm⟩
      refine ⟨s', t', h, fun hoff => absurd hon hoff, fun hf => absurd (hf hon) hfresh, ?_⟩
      intro fuel hfuel
      rw [censorList, if_pos hon]
      exact hrun fuel hfuel
  · refine ⟨s, t, ⟨hgood, Faded.refl _, [], (List.append_nil _).symm⟩, fun _ => ⟨rfl, rfl⟩,
      fun _ => ?_, fun fuel _ => if_neg hon⟩
    exact ⟨fun _ => rfl, ⟨fun hw => absurd rfl hw, fun h => absurd h.1 hon⟩,
      fun i hi => absurd rfl hi, fun _ h => absurd h hon, fun _ _ h => absurd h hon⟩

/-- Words that overlap in the censored text overlapped before. -/
theorem Overlaps.of_faded (hspace : KeepsSpace letter) (hsharp : Sharp letter) {a b : List WChar}
    (hfaded : Faded a b) (ha : ∀ c ∈ a, 0 < c)
    (hno : ∀ word ∈ words, ∀ c ∈ word, c ∉ censorStr) (h : Overlaps letter words b) :
    Overlaps letter words a := by
  obtain ⟨first, hfirst, second, hsecond, i, hi, j, hj, hati, hatj, hrest⟩ := h
  rw [hfaded.length] at hi hj
  exact ⟨first, hfirst, second, hsecond, i, hi, j, hj,
    matchedAt_of_faded hspace hsharp hfaded ha (hno first hfirst) hi.le hati,
    matchedAt_of_faded hspace hsharp hfaded ha (hno second hsecond) hj.le hatj, hrest⟩

/-- A list that finds nothing finds nothing in the censored text either. -/
theorem checkList_of_faded (hspace : KeepsSpace letter) (hsharp : Sharp letter)
    {a b : List WChar} (hfaded : Faded a b) (ha : ∀ c ∈ a, 0 < c)
    (hno : ∀ word ∈ words, ∀ c ∈ word, c ∉ censorStr) (h : checkList letter words a = false) :
    checkList letter words b = false := by
  rw [← Bool.not_eq_true] at h ⊢
  intro hb
  refine h ?_
  rw [checkList, List.any_eq_true] at hb ⊢
  obtain ⟨j, hj, hany⟩ := hb
  obtain ⟨word, hword, hyes⟩ := List.any_eq_true.mp hany
  have hlt : j < a.length := hfaded.length ▸ List.mem_range.mp hj
  exact ⟨j, List.mem_range.mpr hlt, List.any_eq_true.mpr ⟨word, hword,
    matchedAt_of_faded hspace hsharp hfaded ha (hno word hword) hlt.le hyes⟩⟩

end Running

section Markers

theorem Faded.append {a b : List WChar} (h : Faded a b) (p : List WChar) :
    Faded (p ++ a) (p ++ b) where
  length := by rw [List.length_append, List.length_append, h.length]
  getD i := by
    rcases Nat.lt_or_ge i p.length with hi | hi
    · exact Or.inl (by rw [List.getD_append _ _ _ _ hi, List.getD_append _ _ _ _ hi])
    · rw [List.getD_append_right _ _ _ _ hi, List.getD_append_right _ _ _ _ hi]
      exact h.getD _

theorem marked_of_faded {a b : List WChar} (h : Faded a b) (hb : marked b = true) :
    marked a = true := by
  have hkeep {i : ℕ} {c : WChar} (hc : c ∉ censorStr) (hi : b.getD i 0 = c) : a.getD i 0 = c := by
    rcases h.getD i with heq | ⟨_, _, hmem⟩
    · rw [← heq, hi]
    · exact absurd (hi ▸ hmem) hc
  rw [marked, Bool.and_eq_true, Bool.and_eq_true, Bool.or_eq_true, beq_iff_eq, beq_iff_eq,
    beq_iff_eq, decide_eq_true_eq, h.length] at hb
  rw [marked, Bool.and_eq_true, Bool.and_eq_true, Bool.or_eq_true, beq_iff_eq, beq_iff_eq,
    beq_iff_eq, decide_eq_true_eq]
  exact ⟨⟨hb.1.1, hkeep (by decide) hb.1.2⟩, hb.2.imp (hkeep (by decide)) (hkeep (by decide))⟩

theorem marked_length {str : List WChar} (h : marked str = true) : 2 ≤ str.length := by
  rw [marked, Bool.and_eq_true, Bool.and_eq_true, decide_eq_true_eq] at h
  exact h.1.1

/-- The string with its marker, and the censored text behind it. -/
def remarked (str wstr : List WChar) : List WChar :=
  (if marked str then str.take 2 else []) ++ wstr

theorem remarked_stripped (str : List WChar) : remarked str (stripped str) = str := by
  rw [remarked, stripped]
  split
  · exact List.take_append_drop 2 str
  · rfl

theorem faded_remarked {str wstr : List WChar} (h : Faded (stripped str) wstr) :
    Faded str (remarked str wstr) := by
  have happend := h.append (if marked str then str.take 2 else [])
  rwa [← remarked, remarked_stripped] at happend

theorem take_remarked {str wstr : List WChar} (h : marked str = true) :
    (remarked str wstr).take 2 = str.take 2 := by
  have hlen : (str.take 2).length = 2 := by
    rw [List.length_take]
    exact Nat.min_eq_left (marked_length h)
  rw [remarked, if_pos h, List.take_left' hlen]

theorem marked_remarked {str wstr : List WChar} (h : Faded (stripped str) wstr) :
    marked (remarked str wstr) = marked str := by
  rw [Bool.eq_iff_iff]
  refine ⟨marked_of_faded (faded_remarked h), fun hm => ?_⟩
  have hlen := marked_length hm
  match str, hlen with
  | a :: b :: rest, _ =>
    rw [remarked, if_pos hm]
    rw [marked, Bool.and_eq_true, Bool.and_eq_true] at hm ⊢
    exact ⟨⟨decide_eq_true (Nat.le_add_left 2 wstr.length), hm.1.2⟩, hm.2⟩

theorem stripped_remarked {str wstr : List WChar} (h : Faded (stripped str) wstr) :
    stripped (remarked str wstr) = wstr := by
  rw [stripped, marked_remarked h, remarked]
  split
  · rename_i hm
    have hlen : (str.take 2).length = 2 := by
      rw [List.length_take]
      exact Nat.min_eq_left (marked_length hm)
    exact List.drop_left' hlen
  · rfl

end Markers

/-- The string is censored to this, when the loops have had enough turns. -/
def Censors (data : Option Smutdata) (str : List WChar) (which : BitVec 32) (r : Text) : Prop :=
  ∃ n, ∀ fuel, n ≤ fuel → smutdataCensorString fuel data str which = some r

/-- Something is written exactly where the check finds something, and length, marker and spaces
stay. -/
structure Kept (data : Option Smutdata) (str : List WChar) (which : BitVec 32) (r : Text) :
    Prop where
  checked : r.written ≠ [] ↔ smutdataCheckString data str which = 1
  length : r.wstr.length = str.length
  marker : marked r.wstr = marked str ∧ (marked str = true → r.wstr.take 2 = str.take 2)
  spaces : ∀ i, r.wstr.getD i 0 = space ↔ str.getD i 0 = space

/-- Only characters of words that stand in the text are changed: of western words in the text, of
eastern words in the text as the western list has left it. And the check finds nothing any more. -/
structure Cleaned (data : Option Smutdata) (str : List WChar) (which : BitVec 32) (r : Text) :
    Prop where
  outside : ∀ mid, Censors data str (which &&& smutdataWest) mid → ∀ i,
    (stripped r.wstr).getD i 0 ≠ (stripped str).getD i 0 → ∃ lists, data = some lists ∧
      (which &&& smutdataWest ≠ 0 ∧ Covered westLetter lists.west (stripped str) i ∨
        which &&& smutdataEast ≠ 0 ∧ Covered eastLetter lists.east (stripped mid.wstr) i)
  clean : (∀ lists, data = some lists →
      ∀ word ∈ lists.west ++ lists.east, ∀ c ∈ word, c ∉ censorStr) →
    smutdataCheckString data r.wstr which = 0

/-- No match of the western list is left over when the eastern list has no words, and no two words
of a list overlap in the spaces of the first one. -/
structure Careful (lists : Smutdata) (str : List WChar) (which : BitVec 32) : Prop where
  ending : which &&& smutdataWest ≠ 0 → which &&& smutdataEast ≠ 0 → lists.east = [] →
    ¬Reaches westLetter lists.west (stripped str)
  west : which &&& smutdataWest ≠ 0 → ¬Overlaps westLetter lists.west (stripped str)
  east : which &&& smutdataEast ≠ 0 → ¬Overlaps eastLetter lists.east (stripped str)

section Both

variable {lists : Smutdata} {str : List WChar} {which : BitVec 32}

theorem and_eq_zero (h : which &&& smutdataBoth = 0) :
    which &&& smutdataWest = 0 ∧ which &&& smutdataEast = 0 := by
  have hwest : smutdataWest = smutdataBoth &&& smutdataWest := by decide
  have heast : smutdataEast = smutdataBoth &&& smutdataEast := by decide
  constructor
  · rw [hwest, ← BitVec.and_assoc, h]
    exact BitVec.zero_and
  · rw [heast, ← BitVec.and_assoc, h]
    exact BitVec.zero_and

theorem check_eq_one :
    smutdataCheckString (some lists) str which = 1 ↔
      (which &&& smutdataWest ≠ 0 ∧ checkList westLetter lists.west (stripped str) = true) ∨
        (which &&& smutdataEast ≠ 0 ∧ checkList eastLetter lists.east (stripped str) = true) := by
  rw [smutdataCheckString]
  by_cases hboth : which &&& smutdataBoth = 0
  · obtain ⟨hwest, heast⟩ := and_eq_zero hboth
    rw [if_pos hboth]
    refine iff_of_false Nat.zero_ne_one ?_
    rintro (h | h)
    · exact h.1 hwest
    · exact h.1 heast
  · rw [if_neg hboth]
    dsimp only
    by_cases hwest : which &&& smutdataWest ≠ 0 ∧
        checkList westLetter lists.west (stripped str) = true
    · rw [if_pos hwest]
      exact iff_of_true rfl (Or.inl hwest)
    · rw [if_neg hwest]
      by_cases heast : which &&& smutdataEast ≠ 0 ∧
          checkList eastLetter lists.east (stripped str) = true
      · rw [if_pos heast]
        exact iff_of_true rfl (Or.inr heast)
      · rw [if_neg heast]
        exact iff_of_false Nat.zero_ne_one fun h => h.elim hwest heast

theorem check_zero_or_one (data : Option Smutdata) :
    smutdataCheckString data str which = 0 ∨ smutdataCheckString data str which = 1 := by
  unfold smutdataCheckString
  split
  · exact Or.inl rfl
  · split
    · exact Or.inl rfl
    · dsimp only
      split
      · exact Or.inr rfl
      · split
        · exact Or.inr rfl
        · exact Or.inl rfl

theorem censorString_eq {fuel : ℕ} {s₁ s₂ : Search} {t₁ t₂ : Text}
    (hboth : which &&& smutdataBoth ≠ 0)
    (hwest : censorList (which &&& smutdataWest ≠ 0) westLetter lists.west (stripped str).length
      fuel ⟨false, [], 0⟩ ⟨stripped str, []⟩ = some (s₁, t₁))
    (heast : censorList (which &&& smutdataEast ≠ 0) eastLetter lists.east (stripped str).length
      fuel s₁ t₁ = some (s₂, t₂)) :
    smutdataCensorString fuel (some lists) str which =
      some ⟨remarked str t₂.wstr, t₂.written⟩ := by
  rw [smutdataCensorString, if_neg hboth]
  dsimp only
  rw [hwest]
  dsimp only [Option.bind_eq_bind, Option.bind_some]
  rw [heast]
  rfl

/-- What the western list alone leaves. -/
theorem stripped_mid {mid : Text} (hmid : Censors (some lists) str (which &&& smutdataWest) mid)
    {s₁ : Search} {t₁ : Text} (hfaded : Faded (stripped str) t₁.wstr)
    (hoff : ¬which &&& smutdataWest ≠ 0 → s₁ = ⟨false, [], 0⟩ ∧ t₁ = ⟨stripped str, []⟩)
    (hrun : ∀ fuel, (stripped str).length < fuel →
      censorList (which &&& smutdataWest ≠ 0) westLetter lists.west (stripped str).length fuel
        ⟨false, [], 0⟩ ⟨stripped str, []⟩ = some (s₁, t₁)) :
    stripped mid.wstr = t₁.wstr := by
  obtain ⟨n, hn⟩ := hmid
  have hmid := hn (n + ((stripped str).length + 1)) (Nat.le_add_right _ _)
  have hboth : which &&& smutdataWest &&& smutdataBoth = which &&& smutdataWest := by
    rw [BitVec.and_assoc]
    rfl
  by_cases hwest : which &&& smutdataWest = 0
  · rw [smutdataCensorString, hboth, if_pos hwest] at hmid
    cases hmid
    rw [(hoff (not_not_intro hwest)).2]
  · have hon : which &&& smutdataWest &&& smutdataWest = which &&& smutdataWest := by
      rw [BitVec.and_assoc]
      rfl
    have heast : which &&& smutdataWest &&& smutdataEast = 0 := by
      rw [BitVec.and_assoc]
      exact BitVec.and_zero
    have heq := @censorString_eq lists str (which &&& smutdataWest)
      (n + ((stripped str).length + 1)) s₁ s₁ t₁ t₁ (by rw [hboth]; exact hwest)
      (by simp only [hon]; exact hrun _ (by omega))
      (by rw [censorList, if_neg (not_not_intro heast)])
    rw [heq] at hmid
    cases hmid
    exact stripped_remarked hfaded

/-- A string that nobody looks at. -/
theorem untouched {data : Option Smutdata} (hcheck : smutdataCheckString data str which = 0)
    (hcensor : ∀ fuel, smutdataCensorString fuel data str which = some ⟨str, []⟩) :
    ∃ r, Censors data str which r ∧ Kept data str which r ∧ Cleaned data str which r := by
  refine ⟨⟨str, []⟩, ⟨0, fun fuel _ => hcensor fuel⟩, ?_, ?_⟩
  · refine ⟨iff_of_false (not_not_intro rfl) ?_, rfl, ⟨rfl, fun _ => rfl⟩, fun _ => Iff.rfl⟩
    rw [hcheck]
    exact Nat.zero_ne_one
  · exact ⟨fun _ _ _ h => absurd rfl h, fun _ => hcheck⟩

/-- The loops over both lists, one after the other. What the western ones leave of their search goes
into the eastern ones. -/
structure BothStaged (lists : Smutdata) (str : List WChar) (which : BitVec 32) (s₁ s₂ : Search)
    (t₁ t₂ : Text) : Prop where
  first : Fading (stripped str) [] s₁ t₁
  second : Fading t₁.wstr t₁.written s₂ t₂
  off : ¬which &&& smutdataWest ≠ 0 → s₁ = ⟨false, [], 0⟩ ∧ t₁ = ⟨stripped str, []⟩
  west : Staged (which &&& smutdataWest ≠ 0) westLetter lists.west ⟨stripped str, []⟩ s₁ t₁
  leftOver : s₁.matched = true →
    which &&& smutdataWest ≠ 0 ∧ Reaches westLetter lists.west (stripped str)
  east : (which &&& smutdataEast ≠ 0 → lists.east = [] → s₁.matched = false) →
    Staged (which &&& smutdataEast ≠ 0) eastLetter lists.east t₁ s₂ t₂
  westRun : ∀ fuel, (stripped str).length < fuel →
    censorList (which &&& smutdataWest ≠ 0) westLetter lists.west (stripped str).length fuel
      ⟨false, [], 0⟩ ⟨stripped str, []⟩ = some (s₁, t₁)
  eastRun : ∀ fuel, (stripped str).length < fuel →
    censorList (which &&& smutdataEast ≠ 0) eastLetter lists.east (stripped str).length fuel
      s₁ t₁ = some (s₂, t₂)

theorem both_staged (hwords : ∀ word ∈ lists.west ++ lists.east, HasLetter word)
    (hpos : ∀ c ∈ stripped str, 0 < c) (which : BitVec 32) :
    ∃ s₁ s₂ t₁ t₂, BothStaged lists str which s₁ s₂ t₁ t₂ := by
  have hwestwords : ∀ word ∈ lists.west, HasLetter word :=
    fun word hword => hwords word (List.mem_append_left _ hword)
  have heastwords : ∀ word ∈ lists.east, HasLetter word :=
    fun word hword => hwords word (List.mem_append_right _ hword)
  obtain ⟨s₁, t₁, hfading₁, hoff₁, hstaged₁, hrun₁⟩ :=
    @staged westLetter lists.west (which &&& smutdataWest ≠ 0) _ keepsSpace_west sharp_west
      hwestwords ⟨stripped str, []⟩ hpos ⟨false, [], 0⟩ (fun h => absurd h Bool.false_ne_true)
      (fun h => absurd h Bool.false_ne_true)
  have hstage₁ := hstaged₁ fun _ _ => rfl
  have hover : s₁.matched = true →
      which &&& smutdataWest ≠ 0 ∧ Reaches westLetter lists.west (stripped str) := by
    intro hm
    have hon : which &&& smutdataWest ≠ 0 := by
      intro hoff
      rw [(hoff₁ (not_not_intro hoff)).1] at hm
      cases hm
    exact ⟨hon, hstage₁.reaches hm hon⟩
  have hstart₂ : s₁.matched = true → t₁.wstr ≠ [] := by
    intro hm hnil
    obtain ⟨_, _, _, j, hj, _⟩ := hover hm
    have hlen := hfading₁.faded.length
    rw [hnil] at hlen
    exact absurd hj (by rw [← hlen]; exact Nat.not_lt_zero j)
  obtain ⟨s₂, t₂, hfading₂, _, hstaged₂, hrun₂⟩ :=
    @staged eastLetter lists.east (which &&& smutdataEast ≠ 0) _ keepsSpace_east sharp_east
      heastwords t₁ (hfading₁.faded.pos hpos) s₁ hfading₁.good hstart₂
  rw [hfading₁.faded.length] at hrun₂
  exact ⟨s₁, s₂, t₁, t₂, hfading₁, hfading₂, hoff₁, hstage₁, hover, hstaged₂, hrun₁, hrun₂⟩

namespace BothStaged

variable {s₁ s₂ : Search} {t₁ t₂ : Text}

theorem faded (h : BothStaged lists str which s₁ s₂ t₁ t₂) : Faded (stripped str) t₂.wstr :=
  h.first.faded.trans h.second.faded

/-- Without a western match that comes to the end no match is left over. -/
theorem fresh (h : BothStaged lists str which s₁ s₂ t₁ t₂)
    (hending : which &&& smutdataWest ≠ 0 → which &&& smutdataEast ≠ 0 → lists.east = [] →
      ¬Reaches westLetter lists.west (stripped str)) :
    which &&& smutdataEast ≠ 0 → lists.east = [] → s₁.matched = false := by
  intro heast hnil
  by_contra hm
  rw [Bool.not_eq_false] at hm
  exact hending (h.leftOver hm).1 heast hnil (h.leftOver hm).2

theorem kept (h : BothStaged lists str which s₁ s₂ t₁ t₂) :
    Kept (some lists) str which ⟨remarked str t₂.wstr, t₂.written⟩ := by
  have hall := faded_remarked h.faded
  refine ⟨?_, hall.length, ⟨marked_remarked h.faded, take_remarked⟩, hall.eq_space⟩
  obtain ⟨l, hl⟩ := h.second.written
  rw [check_eq_one]
  by_cases hwritten : t₁.written = []
  · have hsame : t₁.wstr = stripped str := h.west.same hwritten
    have hno := fun hfound => h.west.written.mpr hfound hwritten
    have hfresh : s₁.matched = false := by
      by_contra hm
      rw [Bool.not_eq_false] at hm
      exact hno ⟨(h.leftOver hm).1, (h.leftOver hm).2.checkList⟩
    have hmet := (h.east fun _ _ => hfresh).written
    rw [hwritten, hsame] at hmet
    exact hmet.trans (or_iff_right hno).symm
  · refine iff_of_true ?_ (Or.inl (h.west.written.mp hwritten))
    rw [hl]
    exact fun hnil => hwritten (List.append_eq_nil_iff.mp hnil).1

theorem cleaned (h : BothStaged lists str which s₁ s₂ t₁ t₂) (hpos : ∀ c ∈ stripped str, 0 < c)
    (hc : Careful lists str which) :
    Cleaned (some lists) str which ⟨remarked str t₂.wstr, t₂.written⟩ := by
  have heast := h.east (h.fresh hc.ending)
  refine ⟨fun mid hmid i hi => ⟨lists, rfl, ?_⟩, fun hno => ?_⟩
  · have hmidtext : stripped mid.wstr = t₁.wstr :=
      stripped_mid hmid h.first.faded h.off h.westRun
    rw [stripped_remarked h.faded] at hi
    rw [hmidtext]
    by_cases hsame : t₁.wstr.getD i 0 = (stripped str).getD i 0
    · exact Or.inr (heast.covered i (by rw [hsame]; exact hi))
    · exact Or.inl (h.west.covered i hsame)
  · have hnowest : ∀ word ∈ lists.west, ∀ c ∈ word, c ∉ censorStr :=
      fun word hword => hno lists rfl word (List.mem_append_left _ hword)
    have hnoeast : ∀ word ∈ lists.east, ∀ c ∈ word, c ∉ censorStr :=
      fun word hword => hno lists rfl word (List.mem_append_right _ hword)
    refine (check_zero_or_one _).resolve_right fun hone => ?_
    rw [check_eq_one, stripped_remarked h.faded] at hone
    rcases hone with ⟨hon, hfound⟩ | ⟨hon, hfound⟩
    · have hclean := checkList_of_faded keepsSpace_west sharp_west h.second.faded
        (h.first.faded.pos hpos) hnowest (h.west.clean hnowest (hc.west hon) hon)
      rw [hclean] at hfound
      cases hfound
    · have hover : ¬Overlaps eastLetter lists.east t₁.wstr := fun hmet =>
        hc.east hon (hmet.of_faded keepsSpace_east sharp_east h.first.faded hpos hnoeast)
      rw [heast.clean hnoeast hover hon] at hfound
      cases hfound

end BothStaged

end Both

/-- The lists with the one western word "bad". -/
def oneWord : Smutdata := ⟨[[98, 97, 100]], []⟩

theorem oneWord_letters (lists : Smutdata) (h : some oneWord = some lists) :
    ∀ word ∈ lists.west ++ lists.east, HasLetter word := by
  cases h
  intro word hword
  rw [List.mem_singleton.mp hword]
  exact ⟨98, .head _, by decide⟩

end ShipServer.WordCensor
