import Mathlib
import ShipServer.PatternOccurrences

set_option autoImplicit false

namespace ShipServer.WordCheck

open ShipServer.PatternOccurrences

/-- A wide character. A string is the list of those before its NUL. -/
abbrev WChar := ℕ

def tab : WChar := 9

def space : WChar := 32

/-- The characters that are one byte of the string. -/
def SingleByte (c : WChar) : Prop := 0 < c ∧ c < 128

def towlower (c : WChar) : WChar := if 65 ≤ c ∧ c ≤ 90 then c + 32 else c

/-- The western comparison: a tab of the word is a tab, an l or a bar. -/
def westLetter (c x : WChar) : Bool :=
  c == towlower x || (c == tab && (towlower x == 108 || towlower x == 124))

def eastLetter (c x : WChar) : Bool := c == x

/-- The loop over the letters: how many agreed, and that none disagreed. -/
def compared (letter : WChar → WChar → Bool) : List WChar → List WChar → ℕ × Bool
  | c :: cmp, x :: rest =>
    if letter c x then ((compared letter cmp rest).1 + 1, (compared letter cmp rest).2)
    else (0, false)
  | [], _ => (0, true)
  | _ :: _, [] => (0, true)

/-- The word as it is compared at a place: at the first one without its leading space. -/
def cmpAt (word : List WChar) (j : ℕ) : List WChar :=
  if j = 0 ∧ word.headD 0 = space then word.tail else word

def matchedAt (letter : WChar → WChar → Bool) (word wstr : List WChar) (j : ℕ) : Bool :=
  let cmp := cmpAt word j
  let k := (compared letter cmp (wstr.drop j)).1
  let matched := (compared letter cmp (wstr.drop j)).2
  -- at the end of the string the word may lack one space, and nothing else
  if matched ∧ wstr.getD (j + k) 0 = 0 then
    if k < cmp.length then cmp.getD k 0 == space && cmp.length == k + 1 else true
  else matched

def checkList (letter : WChar → WChar → Bool) (words : List (List WChar))
    (wstr : List WChar) : Bool :=
  (List.range wstr.length).any fun j => words.any fun word => matchedAt letter word wstr j

/-- The string starts with a language marker. -/
def marked (wstr : List WChar) : Bool :=
  decide (2 ≤ wstr.length) && wstr.getD 0 0 == tab &&
    (wstr.getD 1 0 == 74 || wstr.getD 1 0 == 69)

def stripped (wstr : List WChar) : List WChar :=
  if marked wstr then wstr.drop 2 else wstr

/-- The two lists of words, when the censor is loaded. -/
structure Smutdata where
  west : List (List WChar)
  east : List (List WChar)

/-- The flags for the lists: bit 0 is the western one, bit 1 the eastern one. -/
def smutdataWest : BitVec 32 := 1

def smutdataEast : BitVec 32 := 2

def smutdataBoth : BitVec 32 := 3

def smutdataCheckString (data : Option Smutdata) (str : List WChar) (which : BitVec 32) : ℕ :=
  match data with
  | none => 0
  | some lists =>
    if which &&& smutdataBoth = 0 then 0
    else
      let wstr := stripped str
      if which &&& smutdataWest ≠ 0 ∧ checkList westLetter lists.west wstr then 1
      else if which &&& smutdataEast ≠ 0 ∧ checkList eastLetter lists.east wstr then 1
      else 0

/-- A comparison for which nothing but the space is a space. -/
def KeepsSpace (letter : WChar → WChar → Bool) : Prop :=
  ∀ c x, (c = space → (letter c x = true ↔ x = space)) ∧
    (x = space → (letter c x = true ↔ c = space))

theorem towlower_eq_space (x : WChar) : towlower x = space ↔ x = space := by
  change (if 65 ≤ x ∧ x ≤ 90 then x + 32 else x) = (32 : ℕ) ↔ x = (32 : ℕ)
  by_cases h : 65 ≤ x ∧ x ≤ 90
  · rw [if_pos h]
    refine iff_of_false (fun h' => ?_) (fun h' => ?_)
    · exact absurd h.1 (by rw [Nat.add_eq_right.mp h']; decide)
    · rw [h'] at h
      exact absurd h.1 (by decide)
  · rw [if_neg h]

theorem keepsSpace_west : KeepsSpace westLetter := by
  intro c x
  simp only [westLetter, Bool.or_eq_true, Bool.and_eq_true, beq_iff_eq]
  constructor
  · rintro rfl
    rw [eq_comm, towlower_eq_space]
    refine or_iff_left ?_
    rintro ⟨h, -⟩
    exact absurd h (by decide)
  · rintro rfl
    refine or_iff_left ?_
    rintro ⟨-, h | h⟩ <;> exact absurd h (by decide)

theorem keepsSpace_east : KeepsSpace eastLetter := by
  intro c x
  simp only [eastLetter, beq_iff_eq]
  constructor
  · rintro rfl
    exact eq_comm
  · rintro rfl
    rfl

variable {letter : WChar → WChar → Bool}

/-- The relation of a word's letter to a character of the text. -/
abbrev Agrees (letter : WChar → WChar → Bool) (c x : WChar) : Prop := letter c x = true

theorem compared_le (cmp rest : List WChar) :
    (compared letter cmp rest).1 ≤ cmp.length ∧
      (compared letter cmp rest).1 ≤ rest.length := by
  induction cmp generalizing rest with
  | nil => exact ⟨Nat.zero_le _, Nat.zero_le _⟩
  | cons c cmp ih =>
    cases rest with
    | nil => exact ⟨Nat.zero_le _, Nat.zero_le _⟩
    | cons x rest =>
      rw [compared]
      split
      · exact ⟨Nat.succ_le_succ (ih rest).1, Nat.succ_le_succ (ih rest).2⟩
      · exact ⟨Nat.zero_le _, Nat.zero_le _⟩

/-- Letters that all agree end with the word or with the text. -/
theorem compared_ends (cmp rest : List WChar) (h : (compared letter cmp rest).2 = true) :
    (compared letter cmp rest).1 = cmp.length ∨
      (compared letter cmp rest).1 = rest.length := by
  induction cmp generalizing rest with
  | nil => exact Or.inl rfl
  | cons c cmp ih =>
    cases rest with
    | nil => exact Or.inr rfl
    | cons x rest =>
      rw [compared] at h ⊢
      split at h
      · rename_i hcx
        rw [if_pos hcx]
        exact (ih rest h).imp (congrArg Nat.succ) (congrArg Nat.succ)
      · cases h

/-- The word stands at the start of the text and one space after it. -/
theorem compared_iff (hspace : KeepsSpace letter) (cmp rest : List WChar) :
    ((compared letter cmp rest).2 = true ∧ ((compared letter cmp rest).1 < cmp.length →
        cmp.getD (compared letter cmp rest).1 0 = space ∧
          cmp.length = (compared letter cmp rest).1 + 1)) ↔
      Starts (Agrees letter) cmp (rest ++ [space]) := by
  induction cmp generalizing rest with
  | nil => exact iff_of_true ⟨rfl, fun h => absurd h (Nat.lt_irrefl 0)⟩ (Starts.nil _)
  | cons c cmp ih =>
    cases rest with
    | nil =>
      rw [List.nil_append, starts_singleton, Agrees, (hspace c space).2 rfl]
      constructor
      · intro h
        have hlast := h.2 (Nat.succ_pos _)
        exact ⟨hlast.1, List.eq_nil_of_length_eq_zero (Nat.succ.inj hlast.2)⟩
      · rintro ⟨hc, rfl⟩
        exact ⟨rfl, fun _ => ⟨hc, rfl⟩⟩
    | cons x rest =>
      rw [List.cons_append, starts_cons_cons, compared]
      by_cases hcx : letter c x = true
      · rw [if_pos hcx, ← ih rest]
        simp only [List.length_cons, Nat.add_lt_add_iff_right, List.getD_cons_succ,
          Nat.add_right_cancel_iff]
        exact ⟨fun h => ⟨hcx, h⟩, And.right⟩
      · rw [if_neg hcx]
        exact iff_of_false (fun h => Bool.false_ne_true h.1) (fun h => hcx h.1)

theorem getD_eq_zero {wstr : List WChar} (hstr : ∀ c ∈ wstr, 0 < c) (i : ℕ) :
    wstr.getD i 0 = 0 ↔ wstr.length ≤ i := by
  rcases Nat.lt_or_ge i wstr.length with hi | hi
  · rw [List.getD_eq_getElem _ _ hi]
    exact iff_of_false (hstr _ (List.getElem_mem hi)).ne' (by omega)
  · rw [List.getD_eq_default _ _ hi]
    exact iff_of_true rfl hi

theorem matchedAt_iff (hspace : KeepsSpace letter) {wstr : List WChar}
    (hstr : ∀ c ∈ wstr, 0 < c) (word : List WChar) {j : ℕ} (hj : j ≤ wstr.length) :
    matchedAt letter word wstr j = true ↔
      Starts (Agrees letter) (cmpAt word j) (wstr.drop j ++ [space]) := by
  have hle := @compared_le letter (cmpAt word j) (wstr.drop j)
  have hends := @compared_ends letter (cmpAt word j) (wstr.drop j)
  rw [← compared_iff hspace, matchedAt]
  generalize compared letter (cmpAt word j) (wstr.drop j) = found at hle hends ⊢
  rw [List.length_drop] at hle hends
  have hzero := getD_eq_zero hstr (j + found.1)
  by_cases hm : found.2 = true
  · by_cases hend : wstr.getD (j + found.1) 0 = 0
    · rw [if_pos ⟨hm, hend⟩]
      by_cases hk : found.1 < (cmpAt word j).length
      · rw [if_pos hk, Bool.and_eq_true, beq_iff_eq, beq_iff_eq]
        exact ⟨fun h => ⟨hm, fun _ => h⟩, fun h => h.2 hk⟩
      · rw [if_neg hk]
        exact iff_of_true rfl ⟨hm, fun h => absurd h hk⟩
    · rw [if_neg (fun h => hend h.2)]
      refine iff_of_true hm ⟨hm, fun hk => ?_⟩
      have hlong : ¬wstr.length ≤ j + found.1 := fun h => hend (hzero.mpr h)
      have := hends hm
      omega
  · rw [if_neg (fun h => hm h.1)]
    exact iff_of_false hm (fun h => hm h.1)

theorem checkList_iff (hspace : KeepsSpace letter) (words : List (List WChar))
    {wstr : List WChar} (hstr : ∀ c ∈ wstr, 0 < c) :
    checkList letter words wstr = true ↔ ∃ j < wstr.length, ∃ word ∈ words,
      Starts (Agrees letter) (cmpAt word j) (wstr.drop j ++ [space]) := by
  simp only [checkList, List.any_eq_true, List.mem_range]
  refine exists_congr fun j => and_congr_right fun hj => ?_
  refine exists_congr fun word => and_congr_right fun _ => ?_
  exact matchedAt_iff hspace hstr word hj.le

/-- The text with one space on each side. -/
def padded (wstr : List WChar) : List WChar := space :: wstr ++ [space]

/-- The word stands at a place of the padded text. Place 1 is the first character of the text. -/
abbrev StandsAt (letter : WChar → WChar → Bool) (word wstr : List WChar) (p : ℕ) : Prop :=
  Starts (Agrees letter) word ((padded wstr).drop p)

/-- A word can stand at the text's own first character, though it starts with a space, only when
another word, or another place, shows the same text to be unclean; and an empty text has no word
that is a space or two. -/
structure SpacesSeen (letter : WChar → WChar → Bool) (words : List (List WChar))
    (wstr : List WChar) : Prop where
  empty : wstr = [] → ∀ word ∈ words, word ≠ [space] ∧ word ≠ [space, space]
  leading : wstr ≠ [] → ∀ word ∈ words, word.headD 0 = space → StandsAt letter word wstr 1 →
    ∃ other ∈ words, ∃ p, StandsAt letter other wstr p ∧ (other.headD 0 = space → p ≠ 1)

theorem padded_drop_succ {wstr : List WChar} {j : ℕ} (hj : j ≤ wstr.length) :
    (padded wstr).drop (j + 1) = wstr.drop j ++ [space] := by
  rw [padded, List.cons_append, List.drop_succ_cons, List.drop_append_of_le_length hj]

/-- What the loop compares at a place is the word at one place of the padded text: the one after
it, and for a leading space of the word at the first place, the one before. -/
theorem starts_cmpAt (hspace : KeepsSpace letter) {word wstr : List WChar} {j : ℕ}
    (hne : word ≠ []) (hj : j ≤ wstr.length) :
    Starts (Agrees letter) (cmpAt word j) (wstr.drop j ++ [space]) ↔
      StandsAt letter word wstr (if j = 0 ∧ word.headD 0 = space then 0 else j + 1) := by
  rw [cmpAt, StandsAt]
  by_cases h : j = 0 ∧ word.headD 0 = space
  · obtain ⟨c, rest, rfl⟩ := List.exists_cons_of_ne_nil hne
    have hc : letter c space = true := ((hspace c space).2 rfl).mpr h.2
    rw [if_pos h, if_pos h, h.1, List.drop_zero, List.drop_zero, padded, List.cons_append,
      starts_cons_cons]
    exact (and_iff_right hc).symm
  · rw [if_neg h, if_neg h, padded_drop_succ hj]

/-- A word that is not empty and stands at place 0 starts with a space. -/
theorem StandsAt.headD {word wstr : List WChar} (hspace : KeepsSpace letter)
    (h : StandsAt letter word wstr 0) (hne : word ≠ []) : word.headD 0 = space := by
  obtain ⟨c, rest, rfl⟩ := List.exists_cons_of_ne_nil hne
  exact ((hspace c space).2 rfl).mp (starts_cons_cons.mp h).1

/-- The words that the loops find are those that stand at some place, except for a leading space
of the word at the text's own first character. -/
theorem checkList_places (hspace : KeepsSpace letter) {words : List (List WChar)}
    (hwords : ∀ word ∈ words, word ≠ []) {wstr : List WChar} (hstr : ∀ c ∈ wstr, 0 < c)
    (hne : wstr ≠ []) :
    checkList letter words wstr = true ↔ ∃ word ∈ words, ∃ p,
      StandsAt letter word wstr p ∧ (word.headD 0 = space → p ≠ 1) := by
  rw [checkList_iff hspace words hstr]
  constructor
  · rintro ⟨j, hj, word, hword, h⟩
    rw [starts_cmpAt hspace (hwords word hword) hj.le] at h
    refine ⟨word, hword, _, h, fun hhead => ?_⟩
    split
    · exact Nat.zero_ne_one
    · rename_i hj0
      have : j ≠ 0 := fun h0 => hj0 ⟨h0, hhead⟩
      omega
  · rintro ⟨word, hword, p, h, hp⟩
    have hpos := List.length_pos_of_ne_nil hne
    have hfound : ∃ j < wstr.length,
        StandsAt letter word wstr (if j = 0 ∧ word.headD 0 = space then 0 else j + 1) := by
      have hlt := h.lt_length (hwords word hword)
      have hlen : (padded wstr).length = wstr.length + 2 := by
        rw [padded, List.length_append, List.length_cons, List.length_singleton]
      rcases Nat.eq_zero_or_pos p with rfl | hp0
      · refine ⟨0, hpos, ?_⟩
        rw [if_pos ⟨rfl, h.headD hspace (hwords word hword)⟩]
        exact h
      · rcases Nat.lt_or_ge p (wstr.length + 1) with hlast | hlast
        · refine ⟨p - 1, by omega, ?_⟩
          rw [if_neg, Nat.sub_add_cancel hp0]
          · exact h
          · rintro ⟨h1, hhead⟩
            have := hp hhead
            omega
        · -- only a single space stands at the padding behind the text
          have hpeq : p = wstr.length + 1 := by omega
          rw [hpeq, StandsAt, padded_drop_succ le_rfl, List.drop_length, List.nil_append] at h
          obtain ⟨c, rest, rfl⟩ := List.exists_cons_of_ne_nil (hwords word hword)
          obtain ⟨hc, rfl⟩ := starts_singleton.mp h
          have hc' : c = space := ((hspace c space).2 rfl).mp hc
          refine ⟨0, hpos, ?_⟩
          rw [if_pos ⟨rfl, hc'⟩]
          exact Starts.cons hc (Starts.nil _)
    obtain ⟨j, hj, hat⟩ := hfound
    exact ⟨j, hj, word, hword, (starts_cmpAt hspace (hwords word hword) hj.le).mpr hat⟩

/-- An empty text is two spaces, and only a word of one or two spaces stands in it. -/
theorem occurs_padded_nil (hspace : KeepsSpace letter) {word : List WChar} (hne : word ≠ []) :
    Occurs (Agrees letter) word (padded []) ↔ word = [space] ∨ word = [space, space] := by
  obtain ⟨c, rest, rfl⟩ := List.exists_cons_of_ne_nil hne
  have hc : letter c space = true ↔ c = space := (hspace c space).2 rfl
  have hone (a : WChar) (pattern : List WChar) :
      Occurs (Agrees letter) (a :: pattern) [space] ↔ a = space ∧ pattern = [] := by
    rw [occurs_cons, starts_singleton, Agrees, (hspace a space).2 rfl]
    refine or_iff_left ?_
    rintro ⟨p, h⟩
    rw [List.drop_nil] at h
    exact starts_cons_nil h
  rw [padded, List.singleton_append, occurs_cons, hone, starts_cons_cons, Agrees, hc]
  cases rest with
  | nil =>
    refine ⟨fun h => Or.inl ?_, fun h => Or.inr ?_⟩
    · rw [h.elim And.left And.left]
    · rcases h with h | h
      · exact ⟨(List.cons.inj h).1, rfl⟩
      · cases (List.cons.inj h).2
  | cons d rest =>
    rw [starts_singleton, Agrees, (hspace d space).2 rfl]
    constructor
    · rintro (⟨rfl, rfl, rfl⟩ | ⟨-, h⟩)
      · exact Or.inr rfl
      · cases h
    · rintro (h | h)
      · cases (List.cons.inj h).2
      · obtain ⟨hfirst, htail⟩ := List.cons.inj h
        obtain ⟨hsecond, hend⟩ := List.cons.inj htail
        exact Or.inl ⟨hfirst, hsecond, hend⟩

/-- The loops over one list find the words that stand in the padded text exactly when the spaces
at the text's ends are seen. -/
theorem checkList_occurs (hspace : KeepsSpace letter) {words : List (List WChar)}
    (hwords : ∀ word ∈ words, word ≠ []) {wstr : List WChar} (hstr : ∀ c ∈ wstr, 0 < c) :
    (checkList letter words wstr = true ↔
        ∃ word ∈ words, Occurs (Agrees letter) word (padded wstr)) ↔
      SpacesSeen letter words wstr := by
  rcases eq_or_ne wstr [] with rfl | hne
  · rw [checkList_iff hspace words hstr]
    have hnone : ¬∃ j < ([] : List WChar).length, ∃ word ∈ words,
        Starts (Agrees letter) (cmpAt word j) (([] : List WChar).drop j ++ [space]) := by
      rintro ⟨j, hj, -⟩
      exact absurd hj (Nat.not_lt_zero j)
    rw [iff_false_left hnone]
    constructor
    · intro h
      refine ⟨fun _ word hword => ?_, fun h' => absurd rfl h'⟩
      refine ⟨fun heq => h ⟨word, hword, ?_⟩, fun heq => h ⟨word, hword, ?_⟩⟩
      · exact (occurs_padded_nil hspace (hwords word hword)).mpr (Or.inl heq)
      · exact (occurs_padded_nil hspace (hwords word hword)).mpr (Or.inr heq)
    · rintro h ⟨word, hword, hoccurs⟩
      rcases (occurs_padded_nil hspace (hwords word hword)).mp hoccurs with heq | heq
      · exact (h.empty rfl word hword).1 heq
      · exact (h.empty rfl word hword).2 heq
  · rw [checkList_places hspace hwords hstr hne]
    constructor
    · intro h
      refine ⟨fun h' => absurd h' hne, fun _ word hword _ hat => ?_⟩
      exact h.mpr ⟨word, hword, 1, hat⟩
    · intro h
      constructor
      · rintro ⟨word, hword, p, hat, -⟩
        exact ⟨word, hword, p, hat⟩
      · rintro ⟨word, hword, p, hat⟩
        by_cases hp : word.headD 0 = space ∧ p = 1
        · exact h.leading hne word hword hp.1 (by rw [← hp.2]; exact hat)
        · exact ⟨word, hword, p, hat, fun hhead hp1 => hp ⟨hhead, hp1⟩⟩

theorem mem_stripped {str : List WChar} {c : WChar} (h : c ∈ stripped str) : c ∈ str := by
  rw [stripped] at h
  split at h
  · exact List.mem_of_mem_drop h
  · exact h

theorem smutdataCheckString_west (lists : Smutdata) (str : List WChar) :
    smutdataCheckString (some lists) str smutdataWest = 1 ↔
      checkList westLetter lists.west (stripped str) = true := by
  have hboth : smutdataWest &&& smutdataBoth ≠ 0 := by decide
  have hwest : smutdataWest &&& smutdataWest ≠ 0 := by decide
  have heast : ¬(smutdataWest &&& smutdataEast ≠ 0) := by decide
  rw [smutdataCheckString, if_neg hboth]
  dsimp only
  by_cases h : checkList westLetter lists.west (stripped str) = true
  · rw [if_pos ⟨hwest, h⟩]
    exact iff_of_true rfl h
  · rw [if_neg (fun h' => h h'.2), if_neg (fun h' => heast h'.1)]
    exact iff_of_false Nat.zero_ne_one h

/-- The western check is the occurrence of a word in the padded text exactly when the spaces at
the text's ends are seen. -/
theorem checks_iff (lists : Smutdata) (str : List WChar)
    (hwords : ∀ word ∈ lists.west, word ≠ []) (hstr : ∀ c ∈ str, SingleByte c) :
    (smutdataCheckString (some lists) str smutdataWest = 1 ↔
        ∃ word ∈ lists.west, Occurs (Agrees westLetter) word (padded (stripped str))) ↔
      SpacesSeen westLetter lists.west (stripped str) := by
  rw [smutdataCheckString_west]
  exact checkList_occurs keepsSpace_west hwords (fun c hc => (hstr c (mem_stripped hc)).1)

/-- The lists with the one word "bad" between two spaces. -/
def badWord : Smutdata := ⟨[[32, 98, 97, 100, 32]], []⟩

theorem checks_bad :
    (smutdataCheckString (some badWord) [9, 69, 66, 97, 100] smutdataWest = 1 ↔
        ∃ word ∈ badWord.west,
          Occurs (Agrees westLetter) word (padded (stripped [9, 69, 66, 97, 100]))) ↔
      SpacesSeen westLetter badWord.west (stripped [9, 69, 66, 97, 100]) :=
  checks_iff badWord [9, 69, 66, 97, 100] (by decide) (by unfold SingleByte; decide)

/-- The text " bad" has the word, and the check does not find it. -/
theorem not_checks :
    ¬∀ (lists : Smutdata) (str : List WChar), (∀ word ∈ lists.west, word ≠ []) →
      (∀ c ∈ str, SingleByte c) →
      (smutdataCheckString (some lists) str smutdataWest = 1 ↔
        ∃ word ∈ lists.west, Occurs (Agrees westLetter) word (padded (stripped str))) := by
  intro h
  have hfound := (h badWord [32, 98, 97, 100] (by decide) (by unfold SingleByte; decide)).mpr
    ⟨[32, 98, 97, 100, 32], List.mem_singleton.mpr rfl, 1, by decide⟩
  exact absurd hfound (by decide)

end ShipServer.WordCheck
