import ShipServer.WordMemory

set_option autoImplicit false

namespace ShipServer.WordMemory

open TracedReads Probe WordCheck
open WordCensor (censorChar Sharp HasLetter Search)

/-- The string behind its marker stands in memory, with its NUL. -/
def Shows (m : Addr → WChar) (base : ℕ) (wstr : List WChar) : Prop :=
  ∀ k ≤ wstr.length, m (.wstr (base + k)) = wstr.getD k 0

/-- A word that has been stored with its NUL. -/
structure Spells (stored : Stored) (word : List WChar) : Prop where
  cells : ∃ rest, stored = some (word ++ 0 :: rest)
  pos : ∀ c ∈ word, 0 < c

/-- No letter of a word agrees with the NUL of the string. -/
def Stops (letter : WChar → WChar → Bool) : Prop :=
  ∀ c, c ≠ 0 → letter c 0 = false

theorem stops_west : Stops westLetter := by
  intro c hc
  have hzero : towlower 0 = 0 := rfl
  rw [westLetter, hzero, beq_false_of_ne hc]
  exact Bool.and_false _

theorem stops_east : Stops eastLetter := by
  intro c hc
  exact beq_false_of_ne hc

section Loops

variable {m : Addr → WChar} {S : Addr → Prop}

theorem result_wcslen {ptr : ℕ → Addr} {word : List WChar} (hword : ∀ c ∈ word, 0 < c) {n k : ℕ}
    (hn : word.length < n) (hm : ∀ i ≤ word.length, m (ptr (k + i)) = word.getD i 0) :
    (wcslen ptr n k).result m = k + word.length := by
  induction word generalizing n k with
  | nil =>
    obtain ⟨n, rfl⟩ := Nat.exists_eq_succ_of_ne_zero (Nat.ne_of_gt hn)
    have hzero : m (ptr k) = 0 := hm 0 le_rfl
    rw [wcslen, result_bind, result_cell, if_pos hzero]
    rfl
  | cons c word ih =>
    obtain ⟨n, rfl⟩ := Nat.exists_eq_succ_of_ne_zero (Nat.ne_of_gt (Nat.zero_lt_of_lt hn))
    have hfirst : m (ptr k) = c := hm 0 (Nat.zero_le _)
    have hne : c ≠ 0 := (hword c (.head _)).ne'
    rw [wcslen, result_bind, result_cell, hfirst, if_neg hne,
      ih (fun d hd => hword d (.tail _ hd)) (Nat.lt_of_succ_lt_succ hn), List.length_cons]
    · omega
    · intro i hi
      rw [Nat.add_assoc, Nat.add_comm 1 i]
      exact hm (i + 1) (Nat.succ_le_succ hi)

theorem within_wcslen {ptr : ℕ → Addr} {n k e : ℕ} (hk : k ≤ e) (hn : e - k ≤ n)
    (hzero : n ≠ e - k → m (ptr e) = 0) (hS : ∀ i ≤ e, S (ptr i)) :
    Within m S (wcslen ptr n k) := by
  induction n generalizing k with
  | zero => exact Within.step (hS k hk) (within_pure _)
  | succ n ih =>
    refine Within.step (hS k hk) (Within.ite (fun _ => within_pure _) fun hne => ?_)
    have hlt : k < e := by
      rcases Nat.eq_or_lt_of_le hk with rfl | hlt
      · exact absurd (hzero (by omega)) hne
      · exact hlt
    exact ih hlt (by omega) fun h => hzero (by omega)

theorem result_compare {letter : WChar → WChar → Bool} {cmp wstr : ℕ → Addr}
    (word text : List WChar) (k : ℕ)
    (hcmp : ∀ i < word.length, m (cmp (k + i)) = word.getD i 0)
    (hwstr : ∀ i < text.length, m (wstr (k + i)) = text.getD i 0) :
    (compareLetters letter cmp wstr (min text.length word.length) k).result m =
      (k + (compared letter word text).1, (compared letter word text).2) := by
  induction word generalizing text k with
  | nil =>
    rw [List.length_nil, Nat.min_zero]
    rfl
  | cons c word ih =>
    cases text with
    | nil =>
      rw [List.length_nil, Nat.zero_min]
      rfl
    | cons x text =>
      have hc : m (cmp k) = c := hcmp 0 (Nat.succ_pos _)
      have hx : m (wstr k) = x := hwstr 0 (Nat.succ_pos _)
      rw [List.length_cons, List.length_cons, Nat.succ_min_succ, compareLetters, result_bind,
        result_cell, result_bind, result_cell, hc, hx, result_ite, compared]
      split
      · rw [ih]
        · rw [Nat.add_assoc, Nat.add_comm 1]
        · intro i hi
          rw [Nat.add_assoc, Nat.add_comm 1]
          exact hcmp (i + 1) (Nat.succ_lt_succ hi)
        · intro i hi
          rw [Nat.add_assoc, Nat.add_comm 1]
          exact hwstr (i + 1) (Nat.succ_lt_succ hi)
      · rfl

/-- The comparison never goes behind the NUL of the string. -/
theorem within_compare {letter : WChar → WChar → Bool} (hstop : Stops letter)
    {cmp wstr : ℕ → Addr} {len2 e : ℕ} (hcmp : ∀ i < len2, m (cmp i) ≠ 0 ∧ S (cmp i))
    (hend : m (wstr e) = 0) (hwstr : ∀ i ≤ e, S (wstr i)) {n k : ℕ} (hk : k ≤ e)
    (hn : k + n ≤ len2) :
    Within m S (compareLetters letter cmp wstr n k) ∧
      ((compareLetters letter cmp wstr n k).result m).1 ≤ e := by
  induction n generalizing k with
  | zero => exact ⟨within_pure _, hk⟩
  | succ n ih =>
    obtain ⟨hne, hin⟩ := hcmp k (by omega)
    rw [compareLetters, result_bind, result_cell, result_bind, result_cell, result_ite]
    by_cases hletter : letter (m (cmp k)) (m (wstr k)) = true
    · have hlt : k < e := by
        rcases Nat.eq_or_lt_of_le hk with rfl | hlt
        · rw [hend, hstop _ hne] at hletter
          cases hletter
        · exact hlt
      obtain ⟨hwithin, hle⟩ := ih hlt (by omega)
      rw [if_pos hletter]
      refine ⟨Within.step (hwstr k hk) (Within.step hin (Within.ite (fun _ => hwithin) ?_)), hle⟩
      exact fun h => absurd hletter h
    · rw [if_neg hletter]
      refine ⟨Within.step (hwstr k hk) (Within.step hin (Within.ite ?_ fun _ => within_pure _)), hk⟩
      exact fun h => absurd h hletter

end Loops

section Words

variable {letter : WChar → WChar → Bool} {lists : Lists} {m : Addr → WChar} {east : Bool}
  {i : ℕ} {stored : Stored} {word : List WChar}

/-- The word at one place of a list. -/
structure Listed (lists : Lists) (east : Bool) (i : ℕ) (stored : Stored) (word : List WChar) :
    Prop extends Spells stored word where
  entry : (lists east)[i]? = some stored

theorem Listed.mem (h : Listed lists east i stored word) (hm : HoldsWords lists m) {k : ℕ}
    (hk : k ≤ word.length) :
    m (stored.ptr east i k) = word.getD k 0 ∧
      ∀ chars, Inside lists chars (stored.ptr east i k) := by
  obtain ⟨rest, hcells⟩ := h.cells
  have hentry := h.entry
  rw [hcells] at hentry ⊢
  have hlt : k < (word ++ 0 :: rest).length := by
    rw [List.length_append, List.length_cons]
    omega
  refine ⟨?_, fun chars => ⟨_, hentry, hlt⟩⟩
  rw [Stored.ptr, hm east i _ hentry k hlt]
  rcases Nat.eq_or_lt_of_le hk with rfl | hk
  · rw [List.getD_append_right _ _ _ _ le_rfl, Nat.sub_self, List.getD_eq_default _ _ le_rfl]
    rfl
  · exact List.getD_append _ _ _ _ hk

theorem Listed.size (h : Listed lists east i stored word) : word.length < stored.size := by
  obtain ⟨rest, hcells⟩ := h.cells
  rw [hcells, Stored.size, List.length_append, List.length_cons]
  omega

theorem Listed.result_wcslen (h : Listed lists east i stored word) (hm : HoldsWords lists m) :
    (wcslen (stored.ptr east i) stored.size 0).result m = word.length := by
  rw [WordMemory.result_wcslen h.pos h.size fun k hk => ?_, Nat.zero_add]
  rw [Nat.zero_add]
  exact (h.mem hm hk).1

theorem Listed.within_wcslen (h : Listed lists east i stored word) (hm : HoldsWords lists m)
    (chars : ℕ) :
    Within m (Inside lists chars) (wcslen (stored.ptr east i) stored.size 0) := by
  refine WordMemory.within_wcslen (Nat.zero_le word.length) h.size.le (fun _ => ?_)
    fun k hk => (h.mem hm hk).2 chars
  rw [(h.mem hm le_rfl).1]
  exact List.getD_eq_default _ _ le_rfl

/-- The first letter, where the code looks at it. -/
theorem Listed.result_firstLetter (h : Listed lists east i stored word) (hm : HoldsWords lists m)
    (j : ℕ) :
    (firstLetter (stored.ptr east i) j).result m = if j = 0 then word.getD 0 0 else 0 := by
  rw [firstLetter, result_ite, result_cell, result_pure, (h.mem hm (Nat.zero_le _)).1]

theorem headD_eq (word : List WChar) : word.headD 0 = word.getD 0 0 := by
  cases word <;> rfl

theorem skipAt_eq (word : List WChar) (j : ℕ) :
    (if j = 0 ∧ (if j = 0 then word.getD 0 0 else 0) = space then 1 else 0) =
      WordCensor.skipAt word j := by
  rw [WordCensor.skipAt, headD_eq]
  refine if_congr (and_congr_right fun hj => ?_) rfl rfl
  rw [if_pos hj]

theorem skipAt_le (word : List WChar) (j : ℕ) : WordCensor.skipAt word j ≤ word.length := by
  rw [WordCensor.skipAt]
  split
  · rename_i h
    cases word with
    | nil => exact absurd h.2 (by decide)
    | cons c word => exact Nat.succ_le_succ (Nat.zero_le _)
  · exact Nat.zero_le _

theorem cmpAt_eq (word : List WChar) (j : ℕ) :
    cmpAt word j = word.drop (WordCensor.skipAt word j) := by
  rw [cmpAt, WordCensor.skipAt]
  split
  · exact List.drop_one.symm
  · rfl

/-- Where the last letter of the word stands. -/
def lastAt (east : Bool) (i : ℕ) (stored : Stored) (word : List WChar) : Addr :=
  if word.length = 0 then .outside 0 else stored.ptr east i (word.length - 1)

/-- A look at a word reads the word and the string up to its NUL, when it begins in the string. -/
theorem within_lookWord (hstop : Stops letter) (h : Listed lists east i stored word)
    (hm : HoldsWords lists m) {base e len j : ℕ} (hend : m (.wstr (base + e)) = 0) (hj : j ≤ e) :
    Within m (Inside lists (base + e)) (lookWord letter east base len j i stored) := by
  have hword {k : ℕ} (hk : k ≤ word.length) := h.mem hm hk
  have hskip := skipAt_le word j
  have hstr {k : ℕ} (hk : k ≤ e) : Inside lists (base + e) (.wstr (base + k)) :=
    Nat.add_le_add_left hk base
  have hcompare := @within_compare m (Inside lists (base + e)) letter hstop
    (fun k => stored.ptr east i (WordCensor.skipAt word j + k)) (fun k => .wstr (base + (j + k)))
    (word.length - WordCensor.skipAt word j) (e - j)
    (fun k hk => by
      obtain ⟨heq, hin⟩ := hword (k := WordCensor.skipAt word j + k) (by omega)
      refine ⟨?_, hin _⟩
      rw [heq, List.getD_eq_getElem _ _ (by omega)]
      exact (h.pos _ (List.getElem_mem _)).ne')
    (by rw [Nat.add_sub_cancel' hj]; exact hend)
    (fun k hk => hstr (by omega))
    (min (len - j) (word.length - WordCensor.skipAt word j)) 0 (Nat.zero_le _)
    (by rw [Nat.zero_add]; exact Nat.min_le_right _ _)
  rw [lookWord]
  refine (h.within_wcslen hm _).bind ?_
  rw [h.result_wcslen hm]
  refine Within.bind (Within.ite (fun _ => within_cell ((hword (Nat.zero_le _)).2 _))
    fun _ => within_pure _) ?_
  rw [h.result_firstLetter hm, skipAt_eq]
  refine hcompare.1.bind (Within.bind ?_ (within_pure _))
  refine Within.ite (fun _ => ?_) fun _ => within_pure _
  refine Within.step (hstr (by have hle := hcompare.2; omega)) ?_
  refine Within.ite (fun hlt => ?_) fun _ => within_pure _
  refine Within.step ((hword ?_).2 _) (within_pure _)
  have hlt := hlt.2
  omega

theorem result_lookEnd {cmp wstr : ℕ → Addr} {found : ℕ × Bool} {x : WChar}
    (hx : m (wstr found.1) = x) (hcmp : m (cmp found.1) = word.getD found.1 0) :
    (lookEnd cmp wstr word.length found).result m =
      if found.2 = true ∧ x = 0 then
        if found.1 < word.length then
          word.getD found.1 0 == space && word.length == found.1 + 1
        else true
      else found.2 := by
  rw [lookEnd, result_ite]
  by_cases hfound : found.2 = true
  · rw [if_pos hfound, result_bind, result_cell, hx, result_ite, result_bind, result_cell, hcmp,
      result_pure, result_pure]
    by_cases hzero : x = 0
    · rw [if_pos (And.intro hfound hzero)]
      by_cases hlt : found.1 < word.length
      · rw [if_pos ⟨hzero, hlt⟩, if_pos hlt, Bool.decide_and]
        rfl
      · rw [if_neg fun h => hlt h.2, if_neg hlt]
    · rw [if_neg fun h => hzero h.1, if_neg fun h => hzero h.2, hfound]
  · rw [if_neg hfound, if_neg fun h => hfound h.1, result_pure, Bool.eq_false_iff.mpr hfound]

/-- At a place of the string the look finds what the list model finds. -/
theorem result_lookWord (h : Listed lists east i stored word) (hm : HoldsWords lists m)
    {base j : ℕ} {wstr : List WChar} (hshows : Shows m base wstr) (hj : j ≤ wstr.length) :
    (lookWord letter east base wstr.length j i stored).result m =
      ⟨matchedAt letter word wstr j, (cmpAt word j).length, WordCensor.skipAt word j,
        lastAt east i stored word⟩ := by
  have hskip := skipAt_le word j
  have hlen : (cmpAt word j).length = word.length - WordCensor.skipAt word j := by
    rw [cmpAt_eq, List.length_drop]
  have hsum : WordCensor.skipAt word j + (word.length - WordCensor.skipAt word j) = word.length :=
    Nat.add_sub_cancel' hskip
  have hcmp {k : ℕ} (hk : k ≤ (cmpAt word j).length) :
      m (stored.ptr east i (WordCensor.skipAt word j + k)) = (cmpAt word j).getD k 0 := by
    rw [(h.mem hm (by omega)).1, cmpAt_eq, List.getD_eq_getElem?_getD, List.getD_eq_getElem?_getD,
      List.getElem?_drop]
  have hwstr {k : ℕ} (hk : k ≤ (wstr.drop j).length) :
      m (.wstr (base + (j + k))) = wstr.getD (j + k) 0 := by
    rw [List.length_drop] at hk
    exact hshows (j + k) (by omega)
  have hcompare := @result_compare m letter
    (fun k => stored.ptr east i (WordCensor.skipAt word j + k)) (fun k => .wstr (base + (j + k)))
    (cmpAt word j) (wstr.drop j) 0
    (fun k hk => by rw [Nat.zero_add]; exact hcmp hk.le)
    (fun k hk => by
      rw [Nat.zero_add, hwstr hk.le, List.getD_eq_getElem?_getD, List.getD_eq_getElem?_getD,
        List.getElem?_drop])
  have hle := @compared_le letter (cmpAt word j) (wstr.drop j)
  have hend := @result_lookEnd m (cmpAt word j)
    (fun k => stored.ptr east i (WordCensor.skipAt word j + k)) (fun k => .wstr (base + (j + k)))
    (compared letter (cmpAt word j) (wstr.drop j)) _ (hwstr hle.2) (hcmp hle.1)
  rw [lookWord, result_bind, h.result_wcslen hm, result_bind, h.result_firstLetter hm, skipAt_eq,
    lookFrom, ← hlen, result_bind, ← List.length_drop, hcompare, Nat.zero_add, result_bind, hend,
    result_pure, matchedAt, hlen, hsum]
  rfl

/-- A list holds these words from one place on. -/
structure Spelled (lists : Lists) (east : Bool) (i : ℕ) (entries : List Stored)
    (words : List (List WChar)) : Prop where
  entries_eq : (lists east).drop i = entries
  spells : List.Forall₂ Spells entries words

theorem Spelled.listed {entries : List Stored} {words : List (List WChar)}
    (h : Spelled lists east i (stored :: entries) (word :: words)) :
    Listed lists east i stored word := by
  refine ⟨(List.forall₂_cons.mp h.spells).1, ?_⟩
  rw [← List.head?_drop, h.entries_eq]
  rfl

theorem Spelled.tail {entries : List Stored} {words : List (List WChar)}
    (h : Spelled lists east i (stored :: entries) (word :: words)) :
    Spelled lists east (i + 1) entries words := by
  refine ⟨?_, (List.forall₂_cons.mp h.spells).2⟩
  rw [← List.drop_drop, h.entries_eq]
  rfl

/-- All looks at the words of a list stay inside. -/
theorem within_lookWords (hstop : Stops letter) {entries : List Stored}
    {words : List (List WChar)} (h : Spelled lists east i entries words) (hm : HoldsWords lists m)
    {base e len j : ℕ} (hend : m (.wstr (base + e)) = 0) (hj : j ≤ e) (s : Look) :
    Within m (Inside lists (base + e)) (lookWords letter east base len j i entries s) := by
  induction entries generalizing i words s with
  | nil => exact within_pure _
  | cons stored entries ih =>
    cases words with
    | nil => cases h.spells
    | cons word words =>
      refine (within_lookWord hstop h.listed hm hend hj).bind ?_
      exact Within.ite (fun _ => within_pure _) fun _ => ih h.tail _

/-- The look has found what the search of the list model has found. -/
structure Same (lists : Lists) (s : Look) (s' : Search) : Prop where
  matched : s.matched = s'.matched
  found : s.matched = true → s.len2 = s'.len2 ∧ s.skip = s'.skip ∧
    (∀ chars, Inside lists chars s.last) ∧
    ∀ m, HoldsWords lists m → (m s.last = space ↔ s'.ends = true)

theorem same_lookWord (h : Listed lists east i stored word) (hletter : HasLetter word)
    (wstr : List WChar) (j : ℕ) :
    Same lists ⟨matchedAt letter word wstr j, (cmpAt word j).length, WordCensor.skipAt word j,
      lastAt east i stored word⟩ (WordCensor.lookAt letter word wstr j) := by
  refine ⟨rfl, fun _ => ⟨rfl, rfl, ?_⟩⟩
  have hpos : 0 < word.length := List.length_pos_of_mem hletter.choose_spec.1
  have hlast {m : Addr → WChar} (hm : HoldsWords lists m) :=
    h.mem hm (k := word.length - 1) (Nat.sub_le _ _)
  rw [lastAt, if_neg hpos.ne']
  constructor
  · obtain ⟨rest, hcells⟩ := h.cells
    have hentry := h.entry
    rw [hcells] at hentry ⊢
    refine fun chars => ⟨_, hentry, ?_⟩
    rw [List.length_append]
    omega
  · intro m hm
    have hcmp : HasLetter (WordCensor.lookAt letter word wstr j).cmp := hletter.cmpAt j
    have hcmppos : 0 < (cmpAt word j).length := List.length_pos_of_mem hcmp.choose_spec.1
    have hskip := skipAt_le word j
    have hat : WordCensor.skipAt word j + ((cmpAt word j).length - 1) = word.length - 1 := by
      rw [cmpAt_eq, List.length_drop] at hcmppos ⊢
      omega
    have heq : (cmpAt word j).getD ((cmpAt word j).length - 1) 0 =
        word.getD (word.length - 1) 0 := by
      rw [← hat, cmpAt_eq, List.getD_eq_getElem?_getD, List.getD_eq_getElem?_getD,
        List.getElem?_drop]
    rw [(hlast hm).1, WordCensor.Search.ends_iff hcmp, ← heq]
    rfl

/-- The loop over the words finds what the search of the list model finds. -/
theorem same_lookWords {entries : List Stored} {words : List (List WChar)}
    (h : Spelled lists east i entries words) (hm : HoldsWords lists m)
    (hletter : ∀ word ∈ words, HasLetter word) {base j : ℕ} {wstr : List WChar}
    (hshows : Shows m base wstr) (hj : j ≤ wstr.length) {s : Look} {s' : Search}
    (hs : Same lists s s') :
    Same lists ((lookWords letter east base wstr.length j i entries s).result m)
      (WordCensor.search letter wstr j words s') := by
  induction entries generalizing i words s s' with
  | nil =>
    cases words with
    | nil => exact hs
    | cons word words => cases h.spells
  | cons stored entries ih =>
    cases words with
    | nil => cases h.spells
    | cons word words =>
      have hlook := @result_lookWord letter _ _ _ _ _ _ h.listed hm _ _ _ hshows hj
      have hsame := @same_lookWord letter _ _ _ _ _ h.listed (hletter word (.head _)) wstr j
      rw [lookWords, result_bind, hlook, WordCensor.search, result_ite]
      split
      · exact hsame
      · exact ih h.tail (fun w hw => hletter w (.tail _ hw)) hsame

end Words

end ShipServer.WordMemory
