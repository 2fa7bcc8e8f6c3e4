import ShipServer.FieldReads
import ShipServer.WordSafety

set_option autoImplicit false

/-! The reader of the word files, and what the words are used for after it has accepted one. -/

namespace ShipServer.WordFiles

open TracedReads Probe StringReads FieldReads WordMemory
open WordCheck (Smutdata WChar smutdataWest smutdataEast stripped westLetter)
open WordCensor (HasLetter)

/-- What the reader and the users of the words take from the C library: what `iconv` and
`mbsnrtowcs` leave of a word, what stands behind the buffer for its letters, and the wide
characters of a string. -/
structure Library where
  convert : List ℕ → Stored
  past : ℕ
  mbsrtowcs : List UInt8 → Wide

/-- A word as it has been read: the letters that `iconv` gets, and what becomes of them. -/
structure Entry where
  letters : List ℕ
  stored : Stored

/-- The loop over the letters of a word, with the number of turns that are left. -/
def readLetters (sz : ℕ) : ℕ → ℕ → Probe ℕ UInt8 (Option (List ℕ))
  | 0, _ => pure (some [])
  | n + 1, off2 =>
    if sz < (off2 + 2) % 2 ^ 32 then pure none
    else do
      let low ← cell off2
      let high ← cell ((off2 + 1) % 2 ^ 32)
      if leValue [low, high] = 0 then pure (some [0])
      else do
        let rest ← readLetters sz n ((off2 + 2) % 2 ^ 32)
        pure (rest.map (leValue [low, high] :: ·))

/-- A loop that has not met a NUL ends one letter further. -/
def Library.entry (lib : Library) (letters : List ℕ) : Entry :=
  let given := if 0 ∈ letters then letters else letters ++ [lib.past]
  ⟨given, lib.convert given⟩

/-- The loop over the words of a list, with the number of those that are left. -/
def readWords (lib : Library) (sz : ℕ) : ℕ → ℕ → Probe ℕ UInt8 (Option (List Entry))
  | 0, _ => pure (some [])
  | n + 1, off1 => do
    let off2 ← number 4 off1
    match ← readLetters sz 32 off2 with
    | none => pure none
    | some letters => do
      let rest ← readWords lib sz n ((off1 + 4) % 2 ^ 32)
      pure (rest.map (lib.entry letters :: ·))

/-- `smutdata_read` of a decompressed file of a size. The counts are of 32 bits. -/
def smutdataRead (lib : Library) (sz : ℕ) :
    Probe ℕ UInt8 (Option (List Entry × List Entry)) := do
  let i ← number 4 0
  if i ≠ 2 then pure none
  else do
    let entries1 ← number 4 4
    let entries2 ← number 4 8
    if sz < (entries1 + entries2 + 3) * 4 % 2 ^ 32 then pure none
    else do
      let westCount := (entries1 + (2 ^ 32 - 1)) % 2 ^ 32
      let eastCount := (entries2 + (2 ^ 32 - 1)) % 2 ^ 32
      match ← readWords lib sz westCount 12 with
      | none => pure none
      | some west => do
        let east ← readWords lib sz eastCount ((12 + 4 * westCount + 4) % 2 ^ 32)
        pure (east.map (west, ·))

def listsOf (entries : List Entry × List Entry) : Lists
  | false => entries.1.map Entry.stored
  | true => entries.2.map Entry.stored

/-- The converted string stands in memory, with its NUL when it came to it. -/
def HoldsString (str : Wide) (mem : Addr → WChar) : Prop :=
  (∀ k < str.chars.length, mem (.wstr k) = str.chars.getD k 0) ∧
    (str.complete = true → mem (.wstr str.chars.length) = 0)

/-- What may be read of the words and the string. -/
def InWords (lists : Lists) (str : Wide) : Addr → Prop
  | .wstr k => k < str.chars.length + (if str.complete then 1 else 0)
  | a => Inside lists 0 a

/-- The file is read inside, and what its words are used for comes to its end and reads only the
words and the string. -/
structure Safe (lib : Library) (file str : List UInt8) (which : BitVec 32) : Prop where
  read : ∀ junk entries, (smutdataRead lib file.length).result (memory file junk) = some entries →
    Within (memory file junk) (· < file.length) (smutdataRead lib file.length) ∧
      ∀ entry ∈ entries.1 ++ entries.2, entry.letters.length ≤ 32
  check : ∀ junk entries, (smutdataRead lib file.length).result (memory file junk) = some entries →
    ∀ mem, HoldsWords (listsOf entries) mem → HoldsString (lib.mbsrtowcs str) mem →
      Within mem (InWords (listsOf entries) (lib.mbsrtowcs str))
        (smutdataCheckString (some (listsOf entries)) str.length which)
  censor : ∀ junk entries, (smutdataRead lib file.length).result (memory file junk) = some entries →
    ∀ mem, HoldsWords (listsOf entries) mem → HoldsString (lib.mbsrtowcs str) mem →
      ∃ n, ∀ fuel, n ≤ fuel → ∃ c,
        smutdataCensorString fuel (some (listsOf entries)) (lib.mbsrtowcs str) which mem = some c ∧
          ∀ a ∈ c.reads, InWords (listsOf entries) (lib.mbsrtowcs str) a

/-- A list of words in the file: their offsets from a place on, and at each its letters and a NUL,
together at most 32. -/
def TableAt (file : List UInt8) (start : ℕ) (words : List (List ℕ)) : Prop :=
  ∀ k word, words[k]? = some word → ∃ off, off + 2 * (word.length + 1) ≤ file.length ∧
    (∀ junk, Holds (memory file junk) (start + 4 * k) (leBytes 4 off)) ∧
    (∀ junk, Holds (memory file junk) off ((word ++ [0]).flatMap (leBytes 2))) ∧
    word.length < 32 ∧ ∀ w ∈ word, w ≠ 0 ∧ w < 2 ^ 16

/-- A file with these words. Each list has one entry more, and both tables with the header and three
entries fit into the file. -/
structure Formed (file : List UInt8) (west east : List (List ℕ)) : Prop where
  size : file.length < 2 ^ 31
  head : ∀ junk, Holds (memory file junk) 0
    (leBytes 4 2 ++ (leBytes 4 (west.length + 1) ++ leBytes 4 (east.length + 1)))
  tables : (west.length + 1 + (east.length + 1) + 3) * 4 ≤ file.length
  westTable : TableAt file 12 west
  eastTable : TableAt file (12 + 4 * west.length + 4) east

section Reading

variable {m : ℕ → UInt8} {lib : Library} {sz : ℕ}

theorem read_letter (hsz : sz < 2 ^ 31) {w off n : ℕ} (hw : w < 2 ^ 16) (hoff : off + 2 ≤ sz)
    (h : Holds m off (leBytes 2 w)) :
    (readLetters sz (n + 1) off).result m =
        (if w = 0 then some [0] else ((readLetters sz n (off + 2)).result m).map (w :: ·)) ∧
      ((w ≠ 0 → Within m (· < sz) (readLetters sz n (off + 2))) →
        Within m (· < sz) (readLetters sz (n + 1) off)) := by
  obtain ⟨hlow, hhigh, _⟩ := h
  have hone : (off + 1) % 2 ^ 32 = off + 1 := Nat.mod_eq_of_lt (by omega)
  have htwo : (off + 2) % 2 ^ 32 = off + 2 := Nat.mod_eq_of_lt (by omega)
  have hvalue : leValue [m off, m (off + 1)] = w := by
    have hbytes := leValue_leBytes 2 w
    rw [hlow, hhigh]
    exact hbytes.trans (Nat.mod_eq_of_lt hw)
  have hfits : ¬sz < off + 2 := Nat.not_lt.mpr hoff
  rw [readLetters, hone, htwo, if_neg hfits]
  constructor
  · rw [result_bind, result_cell, result_bind, result_cell, hvalue, result_ite, result_bind]
    rfl
  · intro hrest
    refine Within.step (by omega) (Within.step (by omega) ?_)
    rw [hvalue]
    exact Within.ite (fun _ => within_pure _) fun hne => (hrest hne).bind (within_pure _)

theorem read_letters (hsz : sz < 2 ^ 31) {word : List ℕ} (hword : ∀ w ∈ word, w ≠ 0 ∧ w < 2 ^ 16)
    {off n : ℕ} (hn : word.length < n) (hoff : off + 2 * (word.length + 1) ≤ sz)
    (h : Holds m off ((word ++ [0]).flatMap (leBytes 2))) :
    (readLetters sz n off).result m = some (word ++ [0]) ∧
      Within m (· < sz) (readLetters sz n off) := by
  induction word generalizing n off with
  | nil =>
    obtain ⟨n, rfl⟩ := Nat.exists_eq_succ_of_ne_zero (Nat.ne_of_gt hn)
    obtain ⟨hresult, hwithin⟩ := read_letter (n := n) hsz (by decide) hoff h
    exact ⟨hresult, hwithin fun hne => absurd rfl hne⟩
  | cons w word ih =>
    obtain ⟨n, rfl⟩ := Nat.exists_eq_succ_of_ne_zero (Nat.ne_of_gt (Nat.zero_lt_of_lt hn))
    rw [List.cons_append, List.flatMap_cons, holds_append, length_leBytes] at h
    rw [List.length_cons] at hoff hn
    obtain ⟨hne, hlt⟩ := hword w (.head _)
    obtain ⟨hresult, hwithin⟩ := read_letter (n := n) hsz hlt (by omega) h.1
    obtain ⟨hrest, hinside⟩ := ih (fun v hv => hword v (.tail _ hv)) (Nat.lt_of_succ_lt_succ hn)
      (by omega) h.2
    rw [hresult, hrest, if_neg hne]
    exact ⟨rfl, hwithin fun _ => hinside⟩

theorem entry_word (word : List ℕ) :
    lib.entry (word ++ [0]) = ⟨word ++ [0], lib.convert (word ++ [0])⟩ := by
  rw [Library.entry, if_pos (List.mem_append_right _ (.head _))]

theorem read_words {file : List UInt8} {junk : ℕ → UInt8} (hsz : file.length < 2 ^ 31)
    {words : List (List ℕ)} {start : ℕ} (hstart : start + 4 * words.length ≤ file.length)
    (h : TableAt file start words) :
    (readWords lib file.length words.length start).result (memory file junk) =
        some (words.map fun word => lib.entry (word ++ [0])) ∧
      Within (memory file junk) (· < file.length)
        (readWords lib file.length words.length start) := by
  induction words generalizing start with
  | nil => exact ⟨rfl, within_pure _⟩
  | cons word words ih =>
    rw [List.length_cons] at hstart ⊢
    obtain ⟨off, hoff, hentry, hletters, hshort, hword⟩ := h 0 word rfl
    have hnext : (start + 4) % 2 ^ 32 = start + 4 := Nat.mod_eq_of_lt (by omega)
    have hnumber : (number 4 start).result (memory file junk) = off :=
      (result_number (hentry junk)).trans (Nat.mod_eq_of_lt (by omega))
    obtain ⟨hread, hinside⟩ := read_letters hsz hword hshort hoff (hletters junk)
    obtain ⟨hrest, hbehind⟩ := @ih (start + 4) (by omega) (by
      intro k word hk
      obtain ⟨off, hoff, hentry, hmore⟩ := h (k + 1) word hk
      have hplace : start + 4 * (k + 1) = start + 4 + 4 * k := by omega
      exact ⟨off, hoff, hplace ▸ hentry, hmore⟩)
    constructor
    · rw [readWords, result_bind, hnumber, result_bind, hread, hnext]
      dsimp only
      rw [result_bind, hrest]
      rfl
    · refine (within_number fun j _ hj => ?_).bind ?_
      · omega
      · rw [hnumber]
        refine hinside.bind ?_
        rw [hread, hnext]
        exact hbehind.bind (within_pure _)

theorem read_file {file : List UInt8} {west east : List (List ℕ)} (h : Formed file west east)
    (junk : ℕ → UInt8) :
    (smutdataRead lib file.length).result (memory file junk) =
        some (west.map fun word => lib.entry (word ++ [0]),
          east.map fun word => lib.entry (word ++ [0])) ∧
      Within (memory file junk) (· < file.length) (smutdataRead lib file.length) := by
  have hsize := h.size
  have htables := h.tables
  have hhead := h.head junk
  rw [holds_append, holds_append, length_leBytes, length_leBytes] at hhead
  obtain ⟨htwo, hentries1, hentries2⟩ := hhead
  have hnumber {i v : ℕ} (hv : v < 2 ^ 32) (hi : Holds (memory file junk) i (leBytes 4 v)) :
      (number 4 i).result (memory file junk) = v := by
    rw [result_number hi]
    exact Nat.mod_eq_of_lt hv
  have hmod : (west.length + 1 + (east.length + 1) + 3) * 4 % 2 ^ 32 =
      (west.length + 1 + (east.length + 1) + 3) * 4 := Nat.mod_eq_of_lt (by omega)
  have hwestCount : (west.length + 1 + (2 ^ 32 - 1)) % 2 ^ 32 = west.length := by omega
  have heastCount : (east.length + 1 + (2 ^ 32 - 1)) % 2 ^ 32 = east.length := by omega
  have hstart : (12 + 4 * west.length + 4) % 2 ^ 32 = 12 + 4 * west.length + 4 :=
    Nat.mod_eq_of_lt (by omega)
  obtain ⟨hwest, hwestin⟩ := @read_words lib file junk hsize west 12 (by omega) h.westTable
  obtain ⟨heast, heastin⟩ := @read_words lib file junk hsize east (12 + 4 * west.length + 4)
    (by omega) h.eastTable
  have hfour {i : ℕ} (hi : i + 4 ≤ file.length) :
      Within (memory file junk) (· < file.length) (number 4 i) :=
    within_number fun j _ hj => lt_of_lt_of_le hj hi
  constructor
  · rw [smutdataRead, result_bind, hnumber (by decide) htwo, result_ite,
      if_neg (not_not_intro rfl), result_bind, hnumber (by omega) hentries1, result_bind,
      hnumber (by omega) hentries2, hmod, result_ite, if_neg (by omega)]
    dsimp only
    rw [hwestCount, heastCount, result_bind, hwest, hstart]
    dsimp only
    rw [result_bind, heast]
    rfl
  · refine (hfour (by omega)).bind (Within.ite (fun _ => within_pure _) fun _ => ?_)
    refine (hfour (by omega)).bind ?_
    rw [hnumber (by omega) hentries1]
    refine (hfour (by omega)).bind (Within.ite (fun _ => within_pure _) fun _ => ?_)
    rw [hnumber (by omega) hentries2]
    dsimp only
    rw [hwestCount, heastCount, hstart]
    refine hwestin.bind ?_
    rw [hwest]
    exact heastin.bind (within_pure _)

end Reading

/-- What is asked of a file, and of a string that its words are used for: a file with its words,
which all convert and have a letter; a string that converts, with at most one byte more than
characters; and where both lists are chosen and the eastern one is empty, no western word that
leaves its match to that list. -/
structure Sound (lib : Library) (file str : List UInt8) (which : BitVec 32)
    (west east : List (List ℕ)) (data : Smutdata) : Prop where
  formed : Formed file west east
  westWords : List.Forall₂ (fun word text => Spells (lib.convert (word ++ [0])) text) west data.west
  eastWords : List.Forall₂ (fun word text => Spells (lib.convert (word ++ [0])) text) east data.east
  letters : ∀ word ∈ data.west ++ data.east, HasLetter word
  complete : (lib.mbsrtowcs str).complete = true
  bytes : str.length ≤ (lib.mbsrtowcs str).chars.length + 1
  ending : which &&& smutdataWest ≠ 0 → which &&& smutdataEast ≠ 0 → data.east = [] →
    ¬WordCensor.Reaches westLetter data.west (stripped (lib.mbsrtowcs str).chars)

section Using

variable {lib : Library} {file str : List UInt8} {which : BitVec 32} {west east : List (List ℕ)}
  {data : Smutdata}

theorem spelled_entries {words : List (List ℕ)} {texts : List (List WChar)}
    (h : List.Forall₂ (fun word text => Spells (lib.convert (word ++ [0])) text) words texts) :
    List.Forall₂ Spells ((words.map fun word => lib.entry (word ++ [0])).map Entry.stored)
      texts := by
  induction h with
  | nil => exact List.Forall₂.nil
  | cons hword _ ih =>
    rw [List.map_cons, List.map_cons, entry_word]
    exact List.Forall₂.cons hword ih

theorem length_entries {file : List UInt8} {start : ℕ} {words : List (List ℕ)}
    (h : TableAt file start words) {entry : Entry}
    (hentry : entry ∈ words.map fun word => lib.entry (word ++ [0])) :
    entry.letters.length ≤ 32 := by
  obtain ⟨word, hword, rfl⟩ := List.mem_map.mp hentry
  obtain ⟨k, hk⟩ := List.getElem?_of_mem hword
  obtain ⟨_, _, _, _, hshort, _⟩ := h k word hk
  rw [entry_word, List.length_append, List.length_singleton]
  exact hshort

theorem inWords_of_inside {lists : Lists} {w : Wide} (hw : w.complete = true) {a : Addr}
    (h : Inside lists w.chars.length a) : InWords lists w a := by
  cases a with
  | word e i k => exact h
  | wstr k =>
    rw [InWords, if_pos hw]
    exact Nat.lt_succ_of_le h
  | outside k => exact h

theorem shows_string {w : Wide} {mem : Addr → WChar} (hw : w.complete = true)
    (h : HoldsString w mem) : Shows mem 0 w.chars := by
  intro k hk
  rw [Nat.zero_add]
  rcases Nat.eq_or_lt_of_le hk with rfl | hlt
  · rw [h.2 hw, List.getD_eq_default _ _ le_rfl]
  · exact h.1 k hlt

/-- `mbsrtowcs` makes at most one character of a byte, and none of them is the NUL. -/
def Converts (lib : Library) : Prop :=
  ∀ str, (lib.mbsrtowcs str).chars.length ≤ str.length ∧
    ∀ c ∈ (lib.mbsrtowcs str).chars, 0 < c

/-- The lists that a file with these words gives. -/
abbrev entriesOf (lib : Library) (west east : List (List ℕ)) : List Entry × List Entry :=
  (west.map fun word => lib.entry (word ++ [0]), east.map fun word => lib.entry (word ++ [0]))

end Using

section Files

/-- The library on ASCII. -/
def asciiLibrary : Library where
  convert letters := if letters.all (· < 128) then some letters else none
  past := 0
  mbsrtowcs str := ⟨(str.map UInt8.toNat).takeWhile (· ≠ 0), true⟩

theorem converts_ascii : Converts asciiLibrary := by
  intro str
  constructor
  · exact (List.takeWhile_sublist _).length_le.trans (List.length_map _).le
  · intro c hc
    have hmem : c ∈ (str.map UInt8.toNat).takeWhile (· ≠ 0) := hc
    have hne := List.mem_takeWhile_imp (p := fun x => decide (x ≠ 0)) hmem
    exact Nat.pos_of_ne_zero (of_decide_eq_true hne)

/-- A file with one western word. -/
def oneWordFile (word : List ℕ) : List UInt8 :=
  [2, 2, 1, 24, 0, 0].flatMap (leBytes 4) ++ (word ++ [0]).flatMap (leBytes 2)

theorem length_words (word : List ℕ) : (word.flatMap (leBytes 2)).length = 2 * word.length := by
  induction word with
  | nil => rfl
  | cons w word ih =>
    rw [List.flatMap_cons, List.length_append, length_leBytes, ih, List.length_cons]
    omega

theorem formed_oneWord {word : List ℕ} (hshort : word.length < 32)
    (hword : ∀ w ∈ word, w ≠ 0 ∧ w < 2 ^ 16) : Formed (oneWordFile word) [word] [] := by
  have hhead (junk : ℕ → UInt8) := holds_memory (oneWordFile word) junk
  have hlen : (oneWordFile word).length = 24 + 2 * (word.length + 1) := by
    rw [oneWordFile, List.length_append, length_words, List.length_append, List.length_singleton]
    rfl
  have hparts (junk : ℕ → UInt8) : Holds (memory (oneWordFile word) junk) 0
      ([2, 2, 1].flatMap (leBytes 4) ++ (leBytes 4 24 ++ ([0, 0].flatMap (leBytes 4) ++
        (word ++ [0]).flatMap (leBytes 2)))) := hhead junk
  simp only [holds_append] at hparts
  refine ⟨by omega, fun junk => (hparts junk).1, ?_, ?_, ?_⟩
  · rw [hlen]
    change 24 ≤ _
    omega
  · intro k found hk
    cases k with
    | zero =>
      cases hk
      exact ⟨24, by omega, fun junk => (hparts junk).2.1, fun junk => (hparts junk).2.2.2, hshort,
        hword⟩
    | succ k => cases hk
  · intro k found hk
    cases hk

end Files

end ShipServer.WordFiles
