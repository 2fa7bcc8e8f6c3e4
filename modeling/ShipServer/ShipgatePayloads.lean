import ShipServer.LoggedLoops

set_option autoImplicit false

/-! The accesses that the handlers of shipgate packets with a payload of variable length make. -/

namespace ShipServer.ShipgatePayloads

open LoggedLoops

/-- The receive buffer, from the start of the packet on. -/
abbrev Buffer := ℕ → BitVec 8

/-- `ntohl` of the word at an offset. -/
def word (m : Buffer) (off : ℕ) : BitVec 32 :=
  m off ++ m (off + 1) ++ m (off + 2) ++ m (off + 3)

/-- `read` is of the packet, `write` of the first bytes of a structure of `cap` bytes, `text` of
the message buffer of a handler, and `block` of `s->blocks[i - 1]`. -/
inductive Access where
  | read (off size : ℕ)
  | write (size cap : ℕ)
  | text (off size : ℕ)
  | block (i : ℕ)

def Allowed (plen blocks : ℕ) : Access → Prop
  | .read off size => off + size ≤ plen
  | .write size cap => size ≤ cap
  | .text off size => off + size ≤ 1024
  | .block i => 1 ≤ i ∧ i ≤ blocks

/-- A client, with the sizes of the structures behind `pl` and `bb_pl`. -/
structure GateClient where
  guildcard : BitVec 32
  pl : Option ℕ
  bbPl : Option ℕ

/-- `miniship_t`. -/
structure MiniShip where
  name : List (BitVec 8)
  number : BitVec 8
  menuCode : BitVec 16

/-- The ship: `cfg->blocks`, the clients of the blocks that have been started, counted from 1, the
other ships, and the answers of `malloc`. -/
structure GateShip where
  blocks : ℕ
  clients : ℕ → Option (List GateClient)
  findShip : BitVec 32 → Option MiniShip
  malloc : ℕ → Bool

/-- `sizeof` of the packet headers. -/
def charDataSize : ℕ := 20

def friendListSize : ℕ := 16

def userOptSize : ℕ := 24

def blocklistSize : ℕ := 24

/-- `SHDR_RESPONSE` in the header's flags. -/
def isResponse (m : Buffer) : Bool :=
  (m 6).getLsbD 7

/-- The first client with the guildcard, as `handle_creq` finds it. -/
def findClient (s : GateShip) (dest : BitVec 32) : Option GateClient :=
  ((List.range s.blocks).flatMap fun i => (s.clients (i + 1)).getD []).find?
    fun c => c.guildcard = dest

/-- The `size_t` that the length of the character data is turned into. -/
def clen (plen : ℕ) : ℕ :=
  if charDataSize ≤ plen then plen - charDataSize else 2 ^ 64 - (charDataSize - plen)

/-- The structure that the character data goes to. -/
def GateClient.target (c : GateClient) : Option ℕ :=
  c.bbPl.or c.pl

def handleCreq (s : GateShip) (m : Buffer) (plen : ℕ) : ℕ → List Access × Bool :=
  let reads := [Access.read 8 4]
  if isResponse m = false then halt reads
  else
    match (findClient s (word m 8)).bind GateClient.target with
    | none => halt reads
    | some cap => halt (reads ++ [.read charDataSize (clen plen), .write (clen plen) cap])

/-- The string at an offset, as far as it is in the packet. -/
def name (m : Buffer) (plen off : ℕ) : List (BitVec 8) :=
  ((List.range (plen - off)).map fun k => m (off + k)).takeWhile (· ≠ 0)

def ascii (s : String) : List (BitVec 8) :=
  s.toList.map fun ch => BitVec.ofNat 8 ch.toNat

/-- `%d` of an `uint32_t`. -/
def decimal (v : BitVec 32) : String :=
  toString v.toInt

/-- The `02` of a format. -/
def padded (s : String) : String :=
  if s.length < 2 then "0" ++ s else s

def hex (v : BitVec 8) : String :=
  String.ofList (Nat.toDigits 16 v.toNat)

/-- The `%c%c/` of a ship that has a menu code. -/
def menuText (code : BitVec 16) : List (BitVec 8) :=
  if code ≠ 0 then [code.extractLsb' 0 8, code.extractLsb' 8 8] ++ ascii "/" else []

/-- What is printed of a friend on another ship, or on none. -/
def onlineText (ms : MiniShip) (nm : List (BitVec 8)) (gc bl : BitVec 32) : List (BitVec 8) :=
  ascii "\tC2" ++ nm ++ ascii (" (" ++ decimal gc ++ ")\n\tC7" ++ padded (hex ms.number) ++ ":") ++
    menuText ms.menuCode ++ ms.name ++ ascii (" BLOCK" ++ padded (decimal bl) ++ "\n")

def offlineText (nm : List (BitVec 8)) (gc : BitVec 32) : List (BitVec 8) :=
  ascii "\tC4" ++ nm ++ ascii (" (" ++ decimal gc ++ ")\n")

/-- What the friend list prints for an entry, if the entry is not skipped. -/
def entryText (s : GateShip) (m : Buffer) (plen j : ℕ) : Option (List (BitVec 8)) :=
  let e := friendListSize + 48 * j
  let nm := name m plen (e + 16)
  if word m (e + 4) ≠ 0 ∧ word m 12 ≠ 0 then
    (s.findShip (word m (e + 4))).map fun ms => onlineText ms nm (word m e) (word m (e + 8))
  else some (offlineText nm (word m e))

/-- `snprintf(msg + len, 1023 - len, ...)`: past the end the difference is a huge `size_t`. -/
def snprintf (len : ℕ) (text : List (BitVec 8)) : List Access :=
  if len < 1023 then [.text len (min text.length (1022 - len) + 1)]
  else if len = 1023 then []
  else [.text len (text.length + 1)]

/-- The loop of `handle_frlist`: the number of the entry, the bytes left and the bytes printed. -/
def friendTurn (s : GateShip) (m : Buffer) (plen : ℕ) (t : ℕ × ℤ × ℕ) :
    List Access × Option (ℕ × ℤ × ℕ) :=
  match t with
  | (j, total, len) =>
    if total = 0 then ([], none)
    else
      let e := friendListSize + 48 * j
      let reads := [Access.read (e + 4) 4, .read (e + 8) 4, .read e 4]
      match entryText s m plen j with
      | none => (reads, some (j + 1, total - 48, len))
      | some text =>
        (reads ++ .read (e + 16) ((name m plen (e + 16)).length + 1) :: snprintf len text,
          some (j + 1, total - 48, len + text.length))

/-- Whether a client of the block has the guildcard. -/
def inBlock (s : GateShip) (block : ℕ) (gc : BitVec 32) : Bool :=
  ((s.clients block).getD []).any fun c => c.guildcard = gc

/-- The list of the block named by a word of the packet. What lies in front of the table, and what
happens at a block that has not been started, is not followed further. -/
def withBlock (s : GateShip) (block : ℕ) (gc : BitVec 32) (run : ℕ → List Access × Bool) :
    ℕ → List Access × Bool :=
  if s.blocks < block then halt []
  else before [.block block] (if block ≠ 0 ∧ inBlock s block gc then run else halt [])

def noFriends : List (BitVec 8) :=
  ascii "\tENo friends at that offset."

def handleFrlist (s : GateShip) (m : Buffer) (plen : ℕ) : ℕ → List Access × Bool :=
  before [.read 8 4, .read 12 4] <| withBlock s (word m 12).toNat (word m 8) <|
    let total : ℤ := plen - friendListSize
    before (if total = 0 then [.text 0 (noFriends.length + 1)] else []) fun n =>
      loop (friendTurn s m plen) n (0, total, 0)

/-- The `USER_OPT_*` codes that a ship uses. -/
def knownOption (option : BitVec 32) : Bool :=
  option = 1 ∨ option = 2 ∨ option = 3 ∨ option = 4 ∨ option = 5 ∨ option = 6

/-- The loop of `handle_useropt`: the offset of the next option. -/
def optionTurn (m : Buffer) (plen ptr : ℕ) : List Access × Option ℕ :=
  if plen ≤ ptr then ([], none)
  else if word m ptr = 0 then ([.read ptr 4], none)
  else
    let length := word m (ptr + 4)
    ([Access.read ptr 4, .read (ptr + 4) 4] ++
        (if knownOption (word m ptr) ∧ length = 16 then [.read (ptr + 8) 1] else []),
      some (ptr + length.toNat))

def handleUseropt (s : GateShip) (m : Buffer) (plen : ℕ) : ℕ → List Access × Bool :=
  before [.read 8 4, .read 12 4] <| withBlock s (word m 12).toNat (word m 8) fun n =>
    loop (optionTurn m plen) n userOptSize

/-- The copying loop of `handle_ubl`. -/
def copyEntries (count : ℕ) : List Access :=
  (List.range count).flatMap fun j =>
    [.read (blocklistSize + 8 * j) 4, .read (blocklistSize + 8 * j + 4) 4,
      .write (8 * (j + 1)) (8 * count)]

/-- `8 * count` is computed in 32 bits where the length of the packet is checked. -/
def handleUbl (s : GateShip) (m : Buffer) (plen : ℕ) : ℕ → List Access × Bool :=
  if plen < blocklistSize ∨ m 4 ≠ 0 then halt []
  else
    let count := word m 16
    before [.read 8 4, .read 12 4, .read 16 4] <|
      if plen < blocklistSize + (8 * count).toNat then halt []
      else
        withBlock s (word m 12).toNat (word m 8) <|
          if s.malloc (8 * count.toNat) then halt (copyEntries count.toNat) else halt []

inductive Handler where
  | creq
  | frlist
  | useropt
  | ubl

def handle (s : GateShip) (m : Buffer) (plen : ℕ) : Handler → ℕ → List Access × Bool
  | .creq => handleCreq s m plen
  | .frlist => handleFrlist s m plen
  | .useropt => handleUseropt s m plen
  | .ubl => handleUbl s m plen

/-! ### The packets for which the handlers keep to their bounds -/

variable {s : GateShip} {m : Buffer} {plen : ℕ}

theorem contained_withBlock_iff {block : ℕ} {gc : BitVec 32} {run : ℕ → List Access × Bool} :
    Contained (Allowed plen s.blocks) (withBlock s block gc run) ↔
      (block ≤ s.blocks → block ≠ 0 ∧
        (inBlock s block gc = true → Contained (Allowed plen s.blocks) run)) := by
  rw [withBlock]
  split_ifs with hlast hin
  · rw [contained_halt_iff]
    exact ⟨fun _ hle => absurd hlast (by omega), fun _ a ha => absurd ha List.not_mem_nil⟩
  · rw [contained_before_iff, List.forall_mem_singleton, Allowed]
    have hle : block ≤ s.blocks := by omega
    have hone : 1 ≤ block := by omega
    simp [hle, hone, hin.1, hin.2]
  · rw [contained_before_iff, List.forall_mem_singleton, Allowed, contained_halt_iff]
    have hle : block ≤ s.blocks := by omega
    constructor
    · rintro ⟨⟨hone, -⟩, -⟩ -
      have hpos : block ≠ 0 := by omega
      exact ⟨hpos, fun hfound => absurd ⟨hpos, hfound⟩ hin⟩
    · intro h
      refine ⟨⟨?_, hle⟩, fun a ha => absurd ha List.not_mem_nil⟩
      have hpos := (h hle).1
      omega

/-- The packet reaches the end of its header, and the character data fits the structure it goes
to. -/
structure CharDataFits (s : GateShip) (m : Buffer) (plen : ℕ) : Prop where
  header : 12 ≤ plen
  data : isResponse m = true → ∀ cap, (findClient s (word m 8)).bind GateClient.target = some cap →
    charDataSize ≤ plen ∧ plen ≤ charDataSize + cap

theorem handleCreq_contained_iff :
    Contained (Allowed plen s.blocks) (handleCreq s m plen) ↔ CharDataFits s m plen := by
  have hdata (cap : ℕ) : (charDataSize + clen plen ≤ plen ∧ clen plen ≤ cap) ↔
      charDataSize ≤ plen ∧ plen ≤ charDataSize + cap := by
    rw [clen]
    split_ifs with h
    · omega
    · simp only [charDataSize] at h ⊢
      omega
  rw [handleCreq]
  split_ifs with hflag
  · rw [contained_halt_iff, List.forall_mem_singleton, Allowed]
    exact ⟨fun h => ⟨h, by simp [hflag]⟩, fun h => h.header⟩
  · cases htarget : (findClient s (word m 8)).bind GateClient.target with
    | none =>
      rw [contained_halt_iff, List.forall_mem_singleton, Allowed]
      exact ⟨fun h => ⟨h, by simp [htarget]⟩, fun h => h.header⟩
    | some cap =>
      rw [contained_halt_iff]
      simp only [List.singleton_append, List.forall_mem_cons, List.not_mem_nil, Allowed,
        false_implies, implies_true, and_true]
      rw [hdata cap]
      constructor
      · rintro ⟨hheader, hfits⟩
        refine ⟨hheader, fun _ cap' h => ?_⟩
        rw [htarget, Option.some_inj] at h
        rwa [← h]
      · intro h
        exact ⟨h.header, h.data (Bool.not_eq_false _ ▸ hflag) cap htarget⟩

/-- The number of bytes that the first `j` entries print. -/
def printed (s : GateShip) (m : Buffer) (plen j : ℕ) : ℕ :=
  ((List.range j).map fun i => ((entryText s m plen i).getD []).length).sum

/-- An entry that is printed ends its name within the packet, and starts within the message. -/
def EntryFits (s : GateShip) (m : Buffer) (plen j : ℕ) : Prop :=
  entryText s m plen j ≠ none →
    (∃ k, friendListSize + 48 * j + 16 + k < plen ∧ m (friendListSize + 48 * j + 16 + k) = 0) ∧
      printed s m plen j ≤ 1023

theorem printed_succ (s : GateShip) (m : Buffer) (plen j : ℕ) :
    printed s m plen (j + 1) =
      printed s m plen j + ((entryText s m plen j).getD []).length := by
  simp [printed, List.range_succ]

theorem name_terminated_iff {off : ℕ} :
    off + ((name m plen off).length + 1) ≤ plen ↔ ∃ k, off + k < plen ∧ m (off + k) = 0 := by
  have hlength : (name m plen off).length < plen - off ↔
      ∃ k, k < plen - off ∧ m (off + k) = 0 := by
    rw [name, List.takeWhile_eq_take_findIdx_not, List.length_take]
    have hfind := @List.findIdx_lt_length _ (fun b : BitVec 8 => !decide (b ≠ 0))
      ((List.range (plen - off)).map fun k => m (off + k))
    simp only [List.length_map, List.length_range, List.mem_map, List.mem_range] at hfind ⊢
    rw [show ∀ a, min a (plen - off) < plen - off ↔ a < plen - off by omega, hfind]
    simp
  constructor
  · intro h
    obtain ⟨k, hk, hzero⟩ := hlength.mp (by omega)
    exact ⟨k, by omega, hzero⟩
  · rintro ⟨k, hk, hzero⟩
    have hin := hlength.mpr ⟨k, by omega, hzero⟩
    omega

theorem snprintf_allowed_iff {len : ℕ} {text : List (BitVec 8)} :
    (∀ a ∈ snprintf len text, Allowed plen s.blocks a) ↔ len ≤ 1023 := by
  rw [snprintf]
  split_ifs with hless heq
  · rw [List.forall_mem_singleton, Allowed]
    omega
  · simp [heq]
  · rw [List.forall_mem_singleton, Allowed]
    omega

/-- A turn of the friend list. -/
theorem friendTurn_allowed_iff {j len : ℕ} {total : ℤ} (htotal : total ≠ 0) :
    (∀ a ∈ (friendTurn s m plen (j, total, len)).1, Allowed plen s.blocks a) ↔
      friendListSize + 48 * j + 12 ≤ plen ∧ (entryText s m plen j ≠ none →
        (∃ k, friendListSize + 48 * j + 16 + k < plen ∧
          m (friendListSize + 48 * j + 16 + k) = 0) ∧ len ≤ 1023) := by
  simp only [friendTurn, if_neg htotal]
  cases entryText s m plen j with
  | none =>
    simp only [List.forall_mem_cons, List.not_mem_nil, false_implies, implies_true, and_true,
      Allowed, ne_eq, not_true_eq_false]
    omega
  | some text =>
    simp only [List.forall_mem_append, List.forall_mem_cons, List.not_mem_nil, false_implies,
      implies_true, and_true, ne_eq, reduceCtorEq, not_false_eq_true, true_implies]
    rw [snprintf_allowed_iff]
    simp only [Allowed]
    rw [name_terminated_iff]
    constructor
    · rintro ⟨⟨hship, hblock, hgc⟩, hname, hlen⟩
      exact ⟨by omega, hname, hlen⟩
    · rintro ⟨hin, hname, hlen⟩
      exact ⟨⟨by omega, by omega, by omega⟩, hname, hlen⟩

theorem friendTurn_next {j len : ℕ} {total : ℤ} (htotal : total ≠ 0) :
    (friendTurn s m plen (j, total, len)).2 =
      some (j + 1, total - 48, len + ((entryText s m plen j).getD []).length) := by
  simp only [friendTurn, if_neg htotal]
  cases entryText s m plen j with
  | none => rfl
  | some text => rfl

/-- The loop of the friend list ends only where it meets the end of the packet exactly. -/
theorem entries_of_tame {t : ℕ × ℤ × ℕ} (h : Tame (friendTurn s m plen) (Allowed plen s.blocks) t)
    (hlen : t.2.2 = printed s m plen t.1) :
    ∃ r : ℕ, t.2.1 = 48 * r ∧ ∀ i < r, EntryFits s m plen (t.1 + i) := by
  induction h with
  | turn t here rest ih =>
    obtain ⟨j, total, len⟩ := t
    dsimp only at hlen ⊢
    by_cases htotal : total = 0
    · exact ⟨0, by simp [htotal], by simp⟩
    · obtain ⟨r, hr, hentries⟩ := ih _ (friendTurn_next htotal) (by
        rw [printed_succ, ← hlen])
      have hfirst := ((friendTurn_allowed_iff htotal).mp here).2
      refine ⟨r + 1, ?_, ?_⟩
      · dsimp only at hr
        push_cast
        omega
      · intro i hi
        cases i with
        | zero =>
          rw [Nat.add_zero, EntryFits, ← hlen]
          exact hfirst
        | succ i =>
          have hi' := hentries i (by omega)
          rwa [show j + (i + 1) = j + 1 + i by omega]

/-- `r` entries that fit, up to the end of the packet, take the loop to its end. -/
theorem tame_of_entries {r : ℕ} : ∀ {j : ℕ}, friendListSize + 48 * (j + r) = plen →
    (∀ i < r, EntryFits s m plen (j + i)) →
    Tame (friendTurn s m plen) (Allowed plen s.blocks) (j, 48 * r, printed s m plen j) := by
  induction r with
  | zero =>
    intro j _ _
    rw [tame_iff]
    simp [friendTurn]
  | succ r ih =>
    intro j hend hentries
    have htotal : (48 * (r + 1 : ℕ) : ℤ) ≠ 0 := by omega
    rw [tame_iff, friendTurn_allowed_iff htotal, friendTurn_next htotal]
    refine ⟨⟨by omega, hentries 0 (by omega)⟩, ?_⟩
    intro t ht
    rw [Option.some_inj] at ht
    have hrest := @ih (j + 1) (by omega) (fun i hi => by
      have hi' := hentries (i + 1) (by omega)
      rwa [show j + (i + 1) = j + 1 + i by omega] at hi')
    rw [← ht, ← printed_succ]
    rwa [show (48 * (r + 1 : ℕ) : ℤ) - 48 = 48 * r by push_cast; omega]

/-- The entries of a friend list fill the rest of the packet, and each of them fits. -/
structure FriendsFit (s : GateShip) (m : Buffer) (plen : ℕ) : Prop where
  whole : 48 ∣ plen - friendListSize
  entries : ∀ j < (plen - friendListSize) / 48, EntryFits s m plen j

theorem friends_tame_iff (hheader : friendListSize ≤ plen) :
    Tame (friendTurn s m plen) (Allowed plen s.blocks) (0, plen - friendListSize, 0) ↔
      FriendsFit s m plen := by
  constructor
  · intro h
    obtain ⟨r, hr, hentries⟩ := entries_of_tame h rfl
    dsimp only at hr
    have hrest : plen - friendListSize = 48 * r := by omega
    refine ⟨⟨r, hrest⟩, fun j hj => ?_⟩
    rw [hrest, Nat.mul_div_cancel_left r (by omega)] at hj
    have hfits := hentries j hj
    rwa [Nat.zero_add] at hfits
  · rintro ⟨⟨r, hr⟩, hentries⟩
    rw [hr, Nat.mul_div_cancel_left r (by omega)] at hentries
    have htame := @tame_of_entries s m plen r 0 (by omega) (fun i hi => by
      rw [Nat.zero_add]
      exact hentries i hi)
    rwa [show ((plen : ℤ) - (friendListSize : ℕ)) = 48 * r by omega]

/-- The list of options ends at an option 0 or at the end of the packet, and is in the packet as
far as it is read. -/
inductive Options (m : Buffer) (plen : ℕ) : ℕ → Prop where
  | finish (ptr : ℕ) (hend : plen ≤ ptr) : Options m plen ptr
  | stop (ptr : ℕ) (hin : ptr + 4 ≤ plen) (hzero : word m ptr = 0) : Options m plen ptr
  | next (ptr : ℕ) (hin : ptr + 8 ≤ plen) (hlength : word m (ptr + 4) ≠ 0)
      (hdata : knownOption (word m ptr) ∧ word m (ptr + 4) = 16 → ptr + 9 ≤ plen)
      (hrest : Options m plen (ptr + (word m (ptr + 4)).toNat)) : Options m plen ptr

theorem optionTurn_next {ptr : ℕ} (hlt : ptr < plen) (hoption : word m ptr ≠ 0) :
    optionTurn m plen ptr = ([Access.read ptr 4, .read (ptr + 4) 4] ++
        (if knownOption (word m ptr) ∧ word m (ptr + 4) = 16 then [.read (ptr + 8) 1] else []),
      some (ptr + (word m (ptr + 4)).toNat)) := by
  rw [optionTurn, if_neg (by omega), if_neg hoption]

theorem optionTurn_allowed_iff {ptr : ℕ} (hlt : ptr < plen) (hoption : word m ptr ≠ 0) :
    (∀ a ∈ (optionTurn m plen ptr).1, Allowed plen s.blocks a) ↔ ptr + 8 ≤ plen ∧
      (knownOption (word m ptr) ∧ word m (ptr + 4) = 16 → ptr + 9 ≤ plen) := by
  rw [optionTurn_next hlt hoption]
  split_ifs with hdata
  · simp only [List.cons_append, List.nil_append, List.forall_mem_cons, List.not_mem_nil,
      false_implies, implies_true, and_true, Allowed, hdata, true_implies]
    omega
  · simp only [List.append_nil, List.forall_mem_cons, List.not_mem_nil, false_implies,
      implies_true, and_true, Allowed, hdata, false_implies]
    omega

theorem options_tame_iff {ptr : ℕ} :
    Tame (optionTurn m plen) (Allowed plen s.blocks) ptr ↔ Options m plen ptr := by
  constructor
  · intro h
    induction h with
    | turn ptr here rest ih =>
      by_cases hend : plen ≤ ptr
      · exact .finish ptr hend
      · by_cases hzero : word m ptr = 0
        · rw [optionTurn, if_neg hend, if_pos hzero] at here
          exact .stop ptr (here _ List.mem_cons_self) hzero
        · have hnext := ih _ (by rw [optionTurn_next (by omega) hzero])
          obtain ⟨hin, hdata⟩ := (optionTurn_allowed_iff (by omega) hzero).mp here
          by_cases hlength : word m (ptr + 4) = 0
          · rwa [hlength] at hnext
          · exact .next ptr hin hlength hdata hnext
  · intro h
    induction h with
    | finish ptr hend =>
      rw [tame_iff, optionTurn, if_pos hend]
      simp
    | stop ptr hin hzero =>
      rw [tame_iff, optionTurn, if_neg (by omega), if_pos hzero]
      simpa [Allowed] using hin
    | next ptr hin hlength hdata hrest ih =>
      by_cases hzero : word m ptr = 0
      · rw [tame_iff, optionTurn, if_neg (by omega), if_pos hzero]
        simp [Allowed]
        omega
      · rw [tame_iff, optionTurn_allowed_iff (by omega) hzero,
          optionTurn_next (by omega) hzero]
        refine ⟨⟨hin, hdata⟩, fun t ht => ?_⟩
        rw [Option.some_inj] at ht
        rwa [← ht]

theorem headers_allowed_iff {blocks : ℕ} :
    (∀ a ∈ [Access.read 8 4, .read 12 4], Allowed plen blocks a) ↔ 16 ≤ plen := by
  simp only [List.forall_mem_cons, List.not_mem_nil, false_implies, implies_true, and_true,
    Allowed]
  omega

theorem copyEntries_allowed_iff {blocks count : ℕ} (hheader : blocklistSize ≤ plen) :
    (∀ a ∈ copyEntries count, Allowed plen blocks a) ↔ blocklistSize + 8 * count ≤ plen := by
  simp only [copyEntries, List.forall_mem_flatMap, List.mem_range, List.forall_mem_cons,
    List.not_mem_nil, false_implies, implies_true, and_true, Allowed]
  constructor
  · intro h
    cases count with
    | zero => exact hheader
    | succ count =>
      have hlast := (h count (by omega)).2.1
      omega
  · intro h j hj
    omega

/-- What is asked of a packet about a client of a block: not to name block 0, and to be right if
the client is found. A block past the last one is refused. -/
def Addressed (s : GateShip) (m : Buffer) (fits : Prop) : Prop :=
  (word m 12).toNat ≤ s.blocks → word m 12 ≠ 0 ∧
    (inBlock s (word m 12).toNat (word m 8) = true → fits)

theorem contained_addressed_iff {run : ℕ → List Access × Bool} :
    Contained (Allowed plen s.blocks) (withBlock s (word m 12).toNat (word m 8) run) ↔
      Addressed s m (Contained (Allowed plen s.blocks) run) := by
  have hzero : (word m 12).toNat ≠ 0 ↔ word m 12 ≠ 0 := by
    rw [ne_eq, ne_eq, ← BitVec.toNat_inj]
    rfl
  rw [contained_withBlock_iff, Addressed, hzero]

/-- The packets that the handlers do no harm with. -/
def WellFormed (s : GateShip) (m : Buffer) (plen : ℕ) : Handler → Prop
  | .creq => CharDataFits s m plen
  | .frlist => friendListSize ≤ plen ∧ Addressed s m (FriendsFit s m plen)
  | .useropt => 16 ≤ plen ∧ Addressed s m (Options m plen userOptSize)
  | .ubl => blocklistSize ≤ plen → m 4 = 0 → blocklistSize + (8 * word m 16).toNat ≤ plen →
      Addressed s m (s.malloc (8 * (word m 16).toNat) = true →
        blocklistSize + 8 * (word m 16).toNat ≤ plen)

theorem handleFrlist_contained_iff :
    Contained (Allowed plen s.blocks) (handleFrlist s m plen) ↔ WellFormed s m plen .frlist := by
  rw [handleFrlist, contained_before_iff, headers_allowed_iff, contained_addressed_iff,
    contained_before_iff, contained_loop_iff, WellFormed]
  refine and_congr_right fun hheader => ?_
  rw [friends_tame_iff hheader]
  refine iff_of_eq (congrArg _ (propext (and_iff_right ?_)))
  split_ifs with htotal
  · rw [List.forall_mem_singleton, Allowed]
    decide
  · exact fun a ha => absurd ha List.not_mem_nil

theorem handleUseropt_contained_iff :
    Contained (Allowed plen s.blocks) (handleUseropt s m plen) ↔ WellFormed s m plen .useropt := by
  rw [handleUseropt, contained_before_iff, headers_allowed_iff, contained_addressed_iff,
    contained_loop_iff, options_tame_iff, WellFormed]

theorem handleUbl_contained_iff :
    Contained (Allowed plen s.blocks) (handleUbl s m plen) ↔ WellFormed s m plen .ubl := by
  rw [handleUbl, WellFormed]
  split_ifs with hskip
  · rw [contained_halt_iff]
    refine iff_of_true (fun a ha => absurd ha List.not_mem_nil) fun hheader hversion => ?_
    rcases hskip with hshort | hother
    · exact absurd hheader (by omega)
    · exact absurd hversion hother
  · rw [not_or, not_lt, not_not] at hskip
    obtain ⟨hheader, hversion⟩ := hskip
    have hreads : ∀ a ∈ [Access.read 8 4, .read 12 4, .read 16 4],
        Allowed plen s.blocks a := by
      simp only [List.forall_mem_cons, List.not_mem_nil, false_implies, implies_true, and_true,
        Allowed]
      simp only [blocklistSize] at hheader
      omega
    rw [contained_before_iff, and_iff_right hreads]
    split_ifs with hshort hmalloc
    · rw [contained_halt_iff]
      exact iff_of_true (fun a ha => absurd ha List.not_mem_nil)
        fun _ _ hlong => absurd hlong (by omega)
    · rw [contained_addressed_iff, contained_halt_iff, copyEntries_allowed_iff hheader]
      rw [not_lt] at hshort
      simp only [hheader, hversion, hshort, hmalloc, true_implies]
    · rw [contained_addressed_iff, contained_halt_iff]
      rw [not_lt] at hshort
      simp only [hheader, hversion, hshort, hmalloc, true_implies, Bool.false_eq_true,
        false_implies, List.not_mem_nil, implies_true]

/-- The handlers of the shipgate's packets of variable length end and stay within the packet, the
structures they write to and the table of blocks just for the packets that are well formed. -/
theorem shipgatePayloads_contained (s : GateShip) (m : Buffer) (plen : ℕ) (h : Handler) :
    Contained (Allowed plen s.blocks) (handle s m plen h) ↔ WellFormed s m plen h := by
  cases h with
  | creq => exact handleCreq_contained_iff
  | frlist => exact handleFrlist_contained_iff
  | useropt => exact handleUseropt_contained_iff
  | ubl => exact handleUbl_contained_iff

/-- The options of guildcard 42 in block 1: option 1, with the length left at 0. -/
def stuckOptions : Buffer := fun i =>
  if i = 11 then 42 else if i = 15 ∨ i = 27 then 1 else 0

/-- A ship of one block, with guildcard 42 in it. -/
def oneBlock : GateShip :=
  { blocks := 1, clients := fun _ => some [{ guildcard := 42, pl := none, bbPl := none }],
    findShip := fun _ => none, malloc := fun _ => true }

theorem stuckOptions_runs (n : ℕ) :
    (loop (optionTurn stuckOptions 48) n userOptSize).2 = false := by
  induction n with
  | zero => rfl
  | succ n ih =>
    have hturn : (optionTurn stuckOptions 48 userOptSize).2 = some userOptSize := by decide
    rw [loop_turn hturn]
    exact ih

theorem shipgatePayloads_not_contained :
    ¬∀ (s : GateShip) (m : Buffer) (plen : ℕ) (h : Handler),
      Contained (Allowed plen s.blocks) (handle s m plen h) := by
  intro h
  have hrun := h oneBlock stuckOptions 48 .useropt
  rw [handle, handleUseropt, contained_before_iff, contained_addressed_iff] at hrun
  obtain ⟨n, hn⟩ := ((hrun.2 (by decide)).2 (by decide)).ends
  rw [stuckOptions_runs] at hn
  cases hn

end ShipServer.ShipgatePayloads
