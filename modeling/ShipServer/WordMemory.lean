import ShipServer.TracedReads
import ShipServer.WordCensor

set_option autoImplicit false

/-! The word check and the censor again, with all that they read: the words as they are stored and
the string as it has been converted. -/

namespace ShipServer.WordMemory

open TracedReads Probe WordCheck
open WordCensor (censorChar Sharp HasLetter)

/-- What is read: letters of a word in one of the two lists, characters of the converted string, and
what a pointer that is NULL, or one before a word, leads to. -/
inductive Addr where
  | word (east : Bool) (i k : ℕ)
  | wstr (k : ℕ)
  | outside (k : ℕ)
  deriving DecidableEq

/-- An entry of a list: nothing where the pointer is NULL, or else what has been written to the
array. -/
abbrev Stored := Option (List WChar)

namespace Stored

def ptr (east : Bool) (i : ℕ) : Stored → ℕ → Addr
  | none => .outside
  | some _ => .word east i

def size : Stored → ℕ
  | none => 0
  | some cells => cells.length

end Stored

/-- The lists with their words. -/
abbrev Lists := Bool → List Stored

/-- What may be read where the string has so many characters before its NUL. -/
def Inside (lists : Lists) (chars : ℕ) : Addr → Prop
  | .word east i k => ∃ cells, (lists east)[i]? = some (some cells) ∧ k < cells.length
  | .wstr k => k ≤ chars
  | .outside _ => False

/-- The lists stand in memory. -/
def HoldsWords (lists : Lists) (m : Addr → WChar) : Prop :=
  ∀ east i cells, (lists east)[i]? = some (some cells) →
    ∀ k < cells.length, m (.word east i k) = cells.getD k 0

/-- `wcslen`. A scan that has left the array is not followed any further. -/
def wcslen (ptr : ℕ → Addr) : ℕ → ℕ → Probe Addr WChar ℕ
  | 0, k => do
    let _ ← cell (ptr k)
    pure k
  | n + 1, k => do
    let c ← cell (ptr k)
    if c = 0 then pure k else wcslen ptr n (k + 1)

/-- The loop over the letters, with the number of turns that are left: how many agreed, and that
none disagreed. -/
def compareLetters (letter : WChar → WChar → Bool) (cmp wstr : ℕ → Addr) :
    ℕ → ℕ → Probe Addr WChar (ℕ × Bool)
  | 0, k => pure (k, true)
  | n + 1, k => do
    let x ← cell (wstr k)
    let c ← cell (cmp k)
    if letter c x then compareLetters letter cmp wstr n (k + 1) else pure (k, false)

/-- What is left of the look at one word: `last` is where `cmp[len2 - 1]` stands. -/
structure Look where
  matched : Bool
  len2 : ℕ
  skip : ℕ
  last : Addr

def firstLetter (ptr : ℕ → Addr) (j : ℕ) : Probe Addr WChar WChar :=
  if j = 0 then cell (ptr 0) else pure 0

/-- The test for the end of the string, after so many letters that agreed. -/
def lookEnd (cmp wstr : ℕ → Addr) (len2 : ℕ) (found : ℕ × Bool) : Probe Addr WChar Bool :=
  if found.2 then do
    let x ← cell (wstr found.1)
    if x = 0 ∧ found.1 < len2 then do
      let c ← cell (cmp found.1)
      pure (decide (c = space ∧ len2 = found.1 + 1))
    else pure true
  else pure false

/-- The look at a word of a size without the space that is skipped. -/
def lookFrom (letter : WChar → WChar → Bool) (ptr : ℕ → Addr) (base len j size skip : ℕ) :
    Probe Addr WChar Look := do
  let cmp := fun k => ptr (skip + k)
  let wstr := fun k => Addr.wstr (base + (j + k))
  let len2 := size - skip
  let found ← compareLetters letter cmp wstr (min (len - j) len2) 0
  let matched ← lookEnd cmp wstr len2 found
  pure ⟨matched, len2, skip, if skip + len2 = 0 then .outside 0 else ptr (skip + len2 - 1)⟩

/-- One word at one place. `base` is where the string begins behind its marker, and `len` its
length. -/
def lookWord (letter : WChar → WChar → Bool) (east : Bool) (base len j i : ℕ) (stored : Stored) :
    Probe Addr WChar Look := do
  let ptr := stored.ptr east i
  let size ← wcslen ptr stored.size 0
  let first ← firstLetter ptr j
  lookFrom letter ptr base len j size (if j = 0 ∧ first = space then 1 else 0)

/-- The loop over the words of a list, from one of them on. -/
def lookWords (letter : WChar → WChar → Bool) (east : Bool) (base len j : ℕ) :
    ℕ → List Stored → Look → Probe Addr WChar Look
  | _, [], s => pure s
  | i, stored :: words, _ => do
    let s ← lookWord letter east base len j i stored
    if s.matched then pure s else lookWords letter east base len j (i + 1) words s

/-- What `mbsrtowcs` makes of a string: the characters, and whether it came to the NUL. -/
structure Wide where
  chars : List WChar
  complete : Bool

/-- The test for a language marker. -/
def markerLength (len : ℕ) : Probe Addr WChar ℕ :=
  if 2 ≤ len then do
    let a ← cell (.wstr 0)
    if a = tab then do
      let b ← cell (.wstr 1)
      pure (if b = 74 ∨ b = 69 then 2 else 0)
    else pure 0
  else pure 0

/-- The loop over the places, with the number of those that are left. -/
def checkPlaces (letter : WChar → WChar → Bool) (east : Bool) (base len : ℕ)
    (words : List Stored) : ℕ → ℕ → Probe Addr WChar Bool
  | 0, _ => pure false
  | n + 1, j => do
    let s ← lookWords letter east base len j 0 words ⟨false, 0, 0, .outside 0⟩
    if s.matched then pure true else checkPlaces letter east base len words n (j + 1)

/-- The loops over one of the lists, when it has been chosen. -/
def checkList (on : Prop) [Decidable on] (letter : WChar → WChar → Bool) (east : Bool)
    (base len : ℕ) (words : List Stored) : Probe Addr WChar Bool :=
  if on then checkPlaces letter east base len words len 0 else pure false

/-- `smutdata_check_string` of a string of so many bytes. -/
def smutdataCheckString (lists : Option Lists) (bytes : ℕ) (which : BitVec 32) :
    Probe Addr WChar ℕ :=
  match lists with
  | none => pure 0
  | some lists =>
    if which &&& smutdataBoth = 0 then pure 0
    else do
      let base ← markerLength bytes
      let west ← checkList (which &&& smutdataWest ≠ 0) westLetter false base (bytes - base)
        (lists false)
      if west then pure 1
      else do
        let east ← checkList (which &&& smutdataEast ≠ 0) eastLetter true base (bytes - base)
          (lists true)
        pure (if east then 1 else 0)

/-- The memory, and what has been read so far. -/
structure Machine where
  mem : Addr → WChar
  reads : List Addr

def Machine.run {α : Type} (p : Probe Addr WChar α) (c : Machine) : α × Machine :=
  (p.result c.mem, ⟨c.mem, c.reads ++ p.reads c.mem⟩)

def censorLetter (skip place k : ℕ) (c : Machine) : Machine :=
  let x := c.mem (.wstr (place + k))
  let reads := c.reads ++ [.wstr (place + k)]
  if x ≠ 0 ∧ x ≠ space then
    ⟨Function.update c.mem (.wstr (place + k)) (censorChar (k + skip)), reads⟩
  else ⟨c.mem, reads⟩

/-- The loop over the letters that are censored, with the number of those that are left. -/
def censorLetters (skip place : ℕ) : ℕ → ℕ → Machine → Machine
  | 0, _, c => c
  | n + 1, k, c => censorLetters skip place n (k + 1) (censorLetter skip place k c)

/-- The place after the censored word, or its last space, in 64 bits. -/
def nextPlace (s : Look) (j : ℕ) (c : WChar) : ℕ :=
  if c = space then (if j + s.len2 = 0 then 2 ^ 64 - 1 else j + s.len2 - 1) else j + s.len2

/-- The loop over the string. It may be endless, and is given up when there is no fuel left. -/
def censorLoop (letter : WChar → WChar → Bool) (east : Bool) (words : List Stored)
    (base len : ℕ) : ℕ → ℕ → Look → Machine → Option (Look × Machine)
  | 0, _, _, _ => none
  | fuel + 1, j, s, c =>
    if j < len then
      let (s, c) := c.run (lookWords letter east base len j 0 words s)
      if s.matched then
        let c := censorLetters s.skip (base + j) s.len2 0 c
        let (x, c) := c.run (cell s.last)
        censorLoop letter east words base len fuel (nextPlace s j x) s c
      else censorLoop letter east words base len fuel (j + 1) s c
    else some (s, c)

def censorList (on : Prop) [Decidable on] (letter : WChar → WChar → Bool) (east : Bool)
    (words : List Stored) (base len fuel : ℕ) (s : Look) (c : Machine) :
    Option (Look × Machine) :=
  if on then censorLoop letter east words base len fuel 0 s c else some (s, c)

/-- The two calls of `wcsrtombs` read the string up to its NUL. -/
def readOut (n : ℕ) (c : Machine) : Machine :=
  (((c.run (wcslen .wstr n 0)).2).run (wcslen .wstr n 0)).2

/-- `smutdata_censor_string` of a string that is converted so. A string that is not converted to its
end has the length -1. -/
def smutdataCensorString (fuel : ℕ) (lists : Option Lists) (str : Wide) (which : BitVec 32)
    (mem : Addr → WChar) : Option Machine :=
  let chars := str.chars.length
  let c : Machine := ⟨mem, []⟩
  match lists with
  | none => some (readOut chars c)
  | some lists =>
    if which &&& smutdataBoth = 0 then some (readOut chars c)
    else do
      let size := if str.complete then chars else 2 ^ 64 - 1
      let (base, c) := c.run (markerLength size)
      let len := size - base
      let (s, c) ← censorList (which &&& smutdataWest ≠ 0) westLetter false (lists false) base len
        fuel ⟨false, 0, 0, .outside 0⟩ c
      let (_, c) ← censorList (which &&& smutdataEast ≠ 0) eastLetter true (lists true) base len
        fuel s c
      some (readOut chars c)

end ShipServer.WordMemory
