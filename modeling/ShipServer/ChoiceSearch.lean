import ShipServer.LimitedScans
import ShipServer.ListSizes

set_option autoImplicit false

namespace ShipServer.ChoiceSearch

open LimitedScans BufferWrites Versions ListPackets ListSizes

/-- What a search looks at in `pl->v1`. -/
structure PlayerData where
  level : BitVec 32
  chClass : BitVec 8

/-- A client on a block; `pl` is missing without a player, and `id` tells the clients apart. -/
structure SearchedClient where
  id : ℕ
  version : ClientVersion
  nte : Bool
  inLobby : Bool
  pl : Option PlayerData

/-- The client that searches, which has a player. -/
structure Searcher where
  id : ℕ
  version : ClientVersion
  ipv6 : Bool
  level : BitVec 32

structure SearchBlock where
  run : Bool
  clients : List SearchedClient

/-- The size of an entry of a reply. -/
def entrySize (v : ClientVersion) (ipv6 : Bool) : ℕ :=
  (if v = .pc then 0x154 else 0xD4) + if ipv6 then 12 else 0

/-- The bytes of an entry: the guild card, the texts and the address of a client. -/
structure Entries where
  fields : ClientVersion → Bool → ℕ → SearchedClient → List UInt8
  length_eq : ∀ v ipv6 portOff it, (fields v ipv6 portOff it).length = entrySize v ipv6

/-- The tests that a search makes. -/
structure Query where
  minlvl : BitVec 32
  maxlvl : BitVec 32
  cl : ℕ
  vmin : ℕ
  vmax : ℕ
  valt : Option ℕ

/-- `fill_one_choice_entry` and `fill_one_choice6_entry`: the writes and the number of bytes. -/
def fillOneChoiceEntry (E : Entries) (c : Searcher) (it : SearchedClient) (entry portOff : ℕ) :
    List (Write UInt8) × ℕ :=
  match c.version with
  | .pc | .dcv2 | .gc | .ep3 | .xbox =>
    ([put (4 + entrySize c.version c.ipv6 * entry) (E.fields c.version c.ipv6 portOff it)],
      entrySize c.version c.ipv6)
  | .dcv1 | .bb => ([], 0)

/-- The entries so far. `listed` tells which clients they are about. -/
structure Fill where
  len : ℕ
  entries : ℕ
  writes : List (Write UInt8)
  listed : List SearchedClient

def Fill.start : Fill :=
  { len := 0, entries := 0, writes := [], listed := [] }

def Fill.add (E : Entries) (c : Searcher) (portOff : ℕ) (f : Fill) (it : SearchedClient) : Fill :=
  let written := fillOneChoiceEntry E c it f.entries portOff
  { len := f.len + written.2
    entries := f.entries + 1
    writes := f.writes ++ written.1
    listed := f.listed ++ [it] }

/-- The levels are compared as unsigned numbers, whatever the bounds were. -/
def Query.finds (q : Query) (c : Searcher) (it : SearchedClient) : Bool :=
  match it.pl with
  | none => false
  | some pl =>
    it.inLobby ∧ ¬(pl.level < q.minlvl ∨ q.maxlvl < pl.level) ∧
      ¬(q.cl ≠ 0 ∧ pl.chClass.toNat + 1 ≠ q.cl) ∧ it.id ≠ c.id ∧
      ¬((q.vmax < it.version.code ∨ it.version.code < q.vmin) ∧ some it.version.code ≠ q.valt) ∧
      ¬it.nte

/-- The clients of the blocks that run. -/
def running (blocks : List (Option SearchBlock)) : List (List SearchedClient) :=
  blocks.filterMap fun b => b.bind fun b => if b.run then some b.clients else none

def fillChoiceEntries (E : Entries) (blocks : List (Option SearchBlock)) (c : Searcher)
    (q : Query) (portOff : ℕ) : Fill :=
  scanAll (q.finds c) (Fill.add E c portOff) (fun f => f.entries = 32) (running blocks) .start

/-- A reply as it is handed to `crypt_send`. -/
structure Reply where
  header : Header
  flags : ℕ
  len : ℕ
  writes : List (Write UInt8)
  listed : List SearchedClient

def Reply.bytes (r : Reply) (buf : ℕ → UInt8) : List UInt8 :=
  packet (r.writes ++ [r.header.typeField 0xC4, r.header.lenField r.len,
    r.header.flagsField r.flags]) r.len buf

/-- The four builders of a reply. The blank entry at the end is cleared where it is without
IPv6. -/
def choiceReply (E : Entries) (blocks : List (Option SearchBlock)) (c : Searcher) (q : Query)
    (portOff : ℕ) : Reply :=
  let f := fillChoiceEntries E blocks c q portOff
  let blank := put (4 + entrySize c.version false * f.entries) (zeros (entrySize c.version c.ipv6))
  { header := if c.version = .pc then .pc else .dc
    flags := if c.ipv6 then f.entries ||| 0x80 else f.entries
    len := (f.len + 4 + entrySize c.version c.ipv6) % 65536
    writes := f.writes ++ [blank]
    listed := f.listed }

/-- The levels for a choice, as 32 bits. -/
def levelRange (choice : BitVec 16) (own : BitVec 32) : BitVec 32 × BitVec 32 :=
  match choice.toNat with
  | 1 => (own - 5, own + 5)
  | 2 => (0, 9)
  | 3 => (10, 19)
  | 4 => (20, 39)
  | 5 => (40, 59)
  | 6 => (60, 79)
  | 7 => (80, 99)
  | 8 => (100, 119)
  | 9 => (120, 159)
  | 10 => (160, 199)
  | _ => (0, 199)

/-- The first and the last version that is looked for, and one besides. -/
def versionRange : ClientVersion → ℕ × ℕ × Option ℕ
  | .dcv1 | .dcv2 | .pc | .bb => (0, 2, none)
  | .gc | .xbox => (3, 3, some 6)
  | .ep3 => (4, 4, none)

def portOffset : ClientVersion → ℕ
  | .dcv1 | .dcv2 | .bb => 0
  | .pc => 1
  | .gc => 2
  | .xbox => 5
  | .ep3 => 3

def query (c : Searcher) (choice cl : BitVec 16) : Query where
  minlvl := (levelRange choice c.level).1
  maxlvl := (levelRange choice c.level).2
  cl := cl.toNat
  vmin := (versionRange c.version).1
  vmax := (versionRange c.version).2.1
  valt := (versionRange c.version).2.2

/-- A packet with the choices of the level and the class. -/
def sendChoiceReply (E : Entries) (blocks : List (Option SearchBlock)) (c : Searcher)
    (choice cl : BitVec 16) : Option Reply :=
  match c.version with
  | .dcv1 | .dcv2 | .pc | .gc | .xbox | .ep3 =>
    some (choiceReply E blocks c (query c choice cl) (portOffset c.version))
  | .bb => none

/-- The levels that a choice stands for. -/
def levelsOf (choice : BitVec 16) (own : BitVec 32) : ℤ × ℤ :=
  match choice.toNat with
  | 1 => ((own.toNat : ℤ) - 5, (own.toNat : ℤ) + 5)
  | 2 => (0, 9)
  | 3 => (10, 19)
  | 4 => (20, 39)
  | 5 => (40, 59)
  | 6 => (60, 79)
  | 7 => (80, 99)
  | 8 => (100, 119)
  | 9 => (120, 159)
  | 10 => (160, 199)
  | _ => (0, 199)

/-- The clients that a client can play with. -/
def meets (v w : ClientVersion) : Bool :=
  match v with
  | .dcv1 | .dcv2 | .pc => w = .dcv1 ∨ w = .dcv2 ∨ w = .pc
  | .gc | .xbox => w = .gc ∨ w = .xbox
  | .ep3 => w = .ep3
  | .bb => false

/-- The clients that a search is for. -/
def wanted (c : Searcher) (choice cl : BitVec 16) (it : SearchedClient) : Bool :=
  match it.pl with
  | none => false
  | some pl =>
    (levelsOf choice c.level).1 ≤ pl.level.toNat ∧ pl.level.toNat ≤ (levelsOf choice c.level).2 ∧
      (cl = 0 ∨ pl.chClass.toNat + 1 = cl.toNat) ∧ it.id ≠ c.id ∧ meets c.version it.version ∧
      it.nte = false

def sought (blocks : List (Option SearchBlock)) (c : Searcher) (choice cl : BitVec 16) :
    List SearchedClient :=
  (running blocks).flatten.filter (wanted c choice cl)

/-- A reply says how many entries it has and how long it is, and has an entry for each client and a
blank one at the end. -/
structure Lists (E : Entries) (c : Searcher) (clients : List SearchedClient) (r : Reply)
    (buf : ℕ → UInt8) : Prop where
  length : (r.bytes buf).length = 4 + entrySize c.version c.ipv6 * (clients.length + 1)
  declared : fromLe (r.header.lenField r.len).bytes = (r.bytes buf).length
  count : fromLe (r.header.flagsField r.flags).bytes =
    if c.ipv6 then clients.length ||| 0x80 else clients.length
  entry : ∀ k it, clients[k]? = some it →
    ((r.bytes buf).drop (4 + entrySize c.version c.ipv6 * k)).take
        (entrySize c.version c.ipv6) =
      E.fields c.version c.ipv6 (portOffset c.version) it
  blank : ((r.bytes buf).drop (4 + entrySize c.version c.ipv6 * clients.length)).take
      (entrySize c.version c.ipv6) = zeros (entrySize c.version c.ipv6)

/-- A reply lists some clients, whatever was in the buffer before. -/
def Right (E : Entries) (c : Searcher) (clients : List SearchedClient) (r : Reply) : Prop :=
  r.listed = clients ∧ ∀ buf, Lists E c clients r buf

/-- The bounds of the levels are the ones that were meant. -/
def InRange (c : Searcher) (choice : BitVec 16) : Prop :=
  choice = 1 → 5 ≤ c.level.toNat ∧ c.level.toNat + 5 < 2 ^ 32

section Matches

variable {c : Searcher} {choice cl : BitVec 16}

theorem sub_five {own : BitVec 32} (h : 5 ≤ own.toNat) : (own - 5).toNat = own.toNat - 5 := by
  rw [BitVec.toNat_sub]
  have hlt := own.isLt
  change (2 ^ 32 - 5 + own.toNat) % 2 ^ 32 = own.toNat - 5
  omega

theorem add_five {own : BitVec 32} (h : own.toNat + 5 < 2 ^ 32) :
    (own + 5).toNat = own.toNat + 5 := by
  rw [BitVec.toNat_add]
  exact Nat.mod_eq_of_lt h

theorem levels_iff (h : InRange c choice) (level : BitVec 32) :
    ¬(level < (levelRange choice c.level).1 ∨ (levelRange choice c.level).2 < level) ↔
      (levelsOf choice c.level).1 ≤ level.toNat ∧ level.toNat ≤ (levelsOf choice c.level).2 := by
  have hbounds : ∀ lo hi : BitVec 32, ¬(level < lo ∨ hi < level) ↔
      (lo.toNat : ℤ) ≤ level.toNat ∧ (level.toNat : ℤ) ≤ hi.toNat := by
    intro lo hi
    rw [BitVec.lt_def, BitVec.lt_def]
    omega
  rw [hbounds]
  unfold levelRange levelsOf
  split
  case h_1 heq =>
    obtain ⟨hlow, hhigh⟩ := h (BitVec.eq_of_toNat_eq heq)
    dsimp only
    rw [sub_five hlow, add_five hhigh]
    omega
  all_goals exact Iff.rfl

/-- Bounds that have wrapped around leave no level between them. -/
theorem levels_none (h : ¬InRange c choice) (level : BitVec 32) :
    level < (levelRange choice c.level).1 ∨ (levelRange choice c.level).2 < level := by
  obtain ⟨rfl, hrange⟩ := Classical.not_imp.mp h
  have hlow : (c.level - 5).toNat = (2 ^ 32 - 5 + c.level.toNat) % 2 ^ 32 := BitVec.toNat_sub _ _
  have hhigh : (c.level + 5).toNat = (c.level.toNat + 5) % 2 ^ 32 := BitVec.toNat_add _ _
  have hlt := c.level.isLt
  change level.toNat < (c.level - 5).toNat ∨ (c.level + 5).toNat < level.toNat
  omega

theorem versions_iff {v : ClientVersion} (hv : v ≠ .bb) (w : ClientVersion) :
    ¬(((versionRange v).2.1 < w.code ∨ w.code < (versionRange v).1) ∧
      some w.code ≠ (versionRange v).2.2) ↔ meets v w = true := by
  cases v <;> first | exact absurd rfl hv | (cases w <;> decide)

theorem finds_iff (hc : c.version ≠ .bb) (h : InRange c choice) (it : SearchedClient) :
    (query c choice cl).finds c it = (it.inLobby && wanted c choice cl it) := by
  unfold Query.finds wanted
  cases it.pl with
  | none => exact (Bool.and_false _).symm
  | some pl =>
    have hclass : ¬(cl.toNat ≠ 0 ∧ pl.chClass.toNat + 1 ≠ cl.toNat) ↔
        (cl = 0 ∨ pl.chClass.toNat + 1 = cl.toNat) := by
      rw [not_and_or, not_not, not_not]
      exact or_congr_left ⟨fun h => BitVec.eq_of_toNat_eq h, fun h => by rw [h]; rfl⟩
    have hlevels := levels_iff h pl.level
    have hversions := versions_iff hc it.version
    rw [Bool.eq_iff_iff, Bool.and_eq_true, decide_eq_true_iff, decide_eq_true_iff]
    dsimp only [query]
    rw [hlevels, hversions, hclass, Bool.not_eq_true, and_assoc]

theorem finds_none (h : ¬InRange c choice) (it : SearchedClient) :
    (query c choice cl).finds c it = false := by
  unfold Query.finds
  cases it.pl with
  | none => rfl
  | some pl =>
    rw [decide_eq_false_iff_not]
    rintro ⟨-, hlevel, -⟩
    exact hlevel (levels_none h pl.level)

end Matches

section Writes

variable {E : Entries} {c : Searcher} {portOff : ℕ}

/-- The first clients that a search finds. -/
def found (blocks : List (Option SearchBlock)) (c : Searcher) (q : Query) :
    List SearchedClient :=
  ((running blocks).flatten.filter (q.finds c)).take 32

/-- The writes for some clients, from an entry on. -/
def entryWrites (E : Entries) (c : Searcher) (portOff : ℕ) :
    ℕ → List SearchedClient → List (Write UInt8)
  | _, [] => []
  | k, it :: rest =>
    (fillOneChoiceEntry E c it k portOff).1 ++ entryWrites E c portOff (k + 1) rest

/-- The bytes that are counted for an entry. -/
def writtenSize (c : Searcher) : ℕ :=
  if c.version = .dcv1 ∨ c.version = .bb then 0 else entrySize c.version c.ipv6

theorem fillOneChoiceEntry_size (it : SearchedClient) (entry : ℕ) :
    (fillOneChoiceEntry E c it entry portOff).2 = writtenSize c := by
  unfold fillOneChoiceEntry writtenSize
  cases c.version <;> rfl

theorem counts : Counts (Fill.add E c portOff) (fun f => f.entries = 32) Fill.entries 32 where
  add_ := fun _ _ => rfl
  full_ := fun _ => decide_eq_true_iff

theorem foldl_add (ms : List SearchedClient) (f : Fill) :
    ms.foldl (Fill.add E c portOff) f =
      { len := f.len + writtenSize c * ms.length
        entries := f.entries + ms.length
        writes := f.writes ++ entryWrites E c portOff f.entries ms
        listed := f.listed ++ ms } := by
  induction ms generalizing f with
  | nil => simp [entryWrites]
  | cons it ms ih =>
    have hlen : f.len + (fillOneChoiceEntry E c it f.entries portOff).2 +
        writtenSize c * ms.length = f.len + writtenSize c * (ms.length + 1) := by
      rw [fillOneChoiceEntry_size, Nat.mul_succ]
      omega
    rw [List.foldl_cons, ih, Fill.add]
    dsimp only
    rw [hlen, List.length_cons, entryWrites, List.append_assoc, List.append_assoc,
      Nat.add_assoc, Nat.add_comm 1]
    rfl

/-- The blocks are gone through until 32 clients are found. -/
theorem fillChoiceEntries_eq (blocks : List (Option SearchBlock)) (q : Query) :
    fillChoiceEntries E blocks c q portOff =
      { len := writtenSize c * (found blocks c q).length
        entries := (found blocks c q).length
        writes := entryWrites E c portOff 0 (found blocks c q)
        listed := found blocks c q } := by
  rw [fillChoiceEntries, scanAll_eq counts _ (show Fill.entries .start < 32 by decide), foldl_add]
  simp only [Fill.start, Nat.zero_add, List.nil_append]
  rfl

theorem entrySize_pos (v : ClientVersion) (ipv6 : Bool) : 0 < entrySize v ipv6 := by
  unfold entrySize
  split_ifs <;> decide

theorem entrySize_le (v : ClientVersion) (ipv6 : Bool) : entrySize v ipv6 ≤ 0x160 := by
  unfold entrySize
  split_ifs <;> decide

theorem fillOneChoiceEntry_writes (hc : ¬(c.version = .dcv1 ∨ c.version = .bb))
    (it : SearchedClient) (k : ℕ) : (fillOneChoiceEntry E c it k portOff).1 =
      [put (4 + entrySize c.version c.ipv6 * k) (E.fields c.version c.ipv6 portOff it)] := by
  unfold fillOneChoiceEntry
  revert hc
  cases c.version with
  | dcv1 => exact fun hc => absurd (Or.inl rfl) hc
  | bb => exact fun hc => absurd (Or.inr rfl) hc
  | dcv2 | pc | gc | ep3 | xbox => exact fun _ => rfl

theorem put_apply {offset r : ℕ} {bs : List UInt8} (hr : r < bs.length) (buf : ℕ → UInt8) :
    (put offset bs).apply buf (offset + r) = bs[r] := by
  have hle : offset ≤ offset + r := Nat.le_add_right _ _
  change (if offset ≤ offset + r then bs[offset + r - offset]?.getD (buf (offset + r))
    else buf (offset + r)) = bs[r]
  rw [if_pos hle, Nat.add_sub_cancel_left, List.getElem?_eq_getElem hr]
  rfl

/-- Entries are written from their place on. -/
theorem le_of_covered_entryWrites (hc : ¬(c.version = .dcv1 ∨ c.version = .bb))
    {ms : List SearchedClient} {k p : ℕ} (h : Covered (entryWrites E c portOff k ms) p) :
    4 + entrySize c.version c.ipv6 * k ≤ p := by
  induction ms generalizing k with
  | nil => exact absurd h covered_nil
  | cons it ms ih =>
    rw [entryWrites, fillOneChoiceEntry_writes hc, List.singleton_append, covered_cons] at h
    rcases h with h | h
    · exact h.1
    · have hnext := ih h
      rw [Nat.mul_succ] at hnext
      omega

/-- A byte of an entry is the one that was written for it. -/
theorem after_entryWrites (hc : ¬(c.version = .dcv1 ∨ c.version = .bb))
    {ms : List SearchedClient} {k j r : ℕ} {it : SearchedClient} (hit : ms[j]? = some it)
    (hr : r < (E.fields c.version c.ipv6 portOff it).length) (buf : ℕ → UInt8) :
    after (entryWrites E c portOff k ms) buf (4 + entrySize c.version c.ipv6 * (k + j) + r) =
      (E.fields c.version c.ipv6 portOff it)[r] := by
  induction ms generalizing k j buf with
  | nil => cases hit
  | cons first ms ih =>
    rw [entryWrites, fillOneChoiceEntry_writes hc, List.singleton_append]
    change after (entryWrites E c portOff (k + 1) ms) (Write.apply _ buf) _ = _
    cases j with
    | zero =>
      cases hit
      have hnot : ¬Covered (entryWrites E c portOff (k + 1) ms)
          (4 + entrySize c.version c.ipv6 * (k + 0) + r) := by
        intro hcovered
        have hle := le_of_covered_entryWrites hc hcovered
        rw [E.length_eq] at hr
        rw [Nat.mul_succ] at hle
        rw [Nat.add_zero] at hle
        omega
      rw [after_of_not_covered hnot, Nat.add_zero]
      exact put_apply hr buf
    | succ j =>
      have hplace : k + (j + 1) = k + 1 + j := by omega
      rw [hplace]
      exact ih hit _

end Writes

section Replies

variable {E : Entries} {c : Searcher} {ms : List SearchedClient}

/-- A reply about some clients. -/
def replyOf (E : Entries) (c : Searcher) (ms : List SearchedClient) : Reply where
  header := if c.version = .pc then .pc else .dc
  flags := if c.ipv6 then ms.length ||| 0x80 else ms.length
  len := (writtenSize c * ms.length + 4 + entrySize c.version c.ipv6) % 65536
  writes := entryWrites E c (portOffset c.version) 0 ms ++
    [put (4 + entrySize c.version false * ms.length) (zeros (entrySize c.version c.ipv6))]
  listed := ms

theorem sendChoiceReply_eq (E : Entries) (blocks : List (Option SearchBlock)) {c : Searcher}
    (hc : c.version ≠ .bb) (choice cl : BitVec 16) : sendChoiceReply E blocks c choice cl =
      some (replyOf E c (found blocks c (query c choice cl))) := by
  have hreply : choiceReply E blocks c (query c choice cl) (portOffset c.version) =
      replyOf E c (found blocks c (query c choice cl)) := by
    rw [choiceReply, fillChoiceEntries_eq]
    rfl
  rw [← hreply, sendChoiceReply]
  revert hc
  cases c.version with
  | bb => exact fun hc => absurd rfl hc
  | dcv1 | dcv2 | pc | gc | ep3 | xbox => exact fun _ => rfl

theorem packet_slice {w : List (Write UInt8)} {n a : ℕ} {b : ℕ → UInt8} {s : List UInt8}
    (h : a + s.length ≤ n) (hbytes : ∀ i (hi : i < s.length), after w b (a + i) = s[i]) :
    ((packet w n b).drop a).take s.length = s := by
  refine List.ext_getElem ?_ fun i hi hi' => ?_
  · rw [List.length_take, List.length_drop, packet, List.length_map, List.length_range]
    omega
  · rw [List.getElem_take, List.getElem_drop, ← hbytes i hi']
    simp [packet]

/-- The header is written in front of everything. -/
theorem after_header (ws : List (Write UInt8)) (pc : Bool) (len flags : ℕ) (buf : ℕ → UInt8)
    {p : ℕ} (hp : 4 ≤ p) :
    after (ws ++ [(if pc then Header.pc else .dc).typeField 0xC4,
      (if pc then Header.pc else .dc).lenField len,
      (if pc then Header.pc else .dc).flagsField flags]) buf p = after ws buf p := by
  have hnot : ¬Covered [(if pc then Header.pc else .dc).typeField 0xC4,
      (if pc then Header.pc else .dc).lenField len,
      (if pc then Header.pc else .dc).flagsField flags] p := by
    cases pc <;>
      simp [Covered, Write.Covers, Header.typeField, Header.lenField, Header.flagsField, put,
        ListPackets.le16] <;>
      omega
  rw [after, List.foldl_append]
  exact after_of_not_covered hnot _

/-- Nothing is written for no client, and each entry has its size for the others. -/
theorem writtenSize_mul (h : ms = [] ∨ c.version ≠ .dcv1 ∧ c.version ≠ .bb) :
    writtenSize c * ms.length = entrySize c.version c.ipv6 * ms.length := by
  rcases h with rfl | ⟨hv1, hbb⟩
  · rfl
  · rw [writtenSize, if_neg (not_or.mpr ⟨hv1, hbb⟩)]

/-- Replies of up to 32 entries are as long as they have to be. -/
theorem replyOf_len (hms : ms.length ≤ 32) (h : ms = [] ∨ c.version ≠ .dcv1 ∧ c.version ≠ .bb) :
    (replyOf E c ms).len = 4 + entrySize c.version c.ipv6 * (ms.length + 1) := by
  have hle := Nat.mul_le_mul (entrySize_le c.version c.ipv6) (Nat.add_le_add_right hms 1)
  change (writtenSize c * ms.length + 4 + entrySize c.version c.ipv6) % 65536 = _
  rw [writtenSize_mul h]
  rw [Nat.mul_succ] at hle ⊢
  omega

theorem replyOf_bytes_length (buf : ℕ → UInt8) :
    ((replyOf E c ms).bytes buf).length = (replyOf E c ms).len := by
  rw [Reply.bytes, packet, List.length_map, List.length_range]

/-- The bytes behind the header. -/
theorem after_replyOf (buf : ℕ → UInt8) {p : ℕ} (hp : 4 ≤ p) :
    after ((replyOf E c ms).writes ++ [(replyOf E c ms).header.typeField 0xC4,
      (replyOf E c ms).header.lenField (replyOf E c ms).len,
      (replyOf E c ms).header.flagsField (replyOf E c ms).flags]) buf p =
      after (replyOf E c ms).writes buf p := by
  have hheader : (replyOf E c ms).header = if decide (c.version = .pc) then Header.pc else .dc := by
    simp [replyOf]
  rw [hheader]
  exact after_header _ _ _ _ _ hp

theorem lists_replyOf (hms : ms.length ≤ 32)
    (h : ms = [] ∨ (c.version ≠ .dcv1 ∧ c.version ≠ .bb) ∧ c.ipv6 = false) (buf : ℕ → UInt8) :
    Lists E c ms (replyOf E c ms) buf := by
  have hwritten : ms = [] ∨ c.version ≠ .dcv1 ∧ c.version ≠ .bb := h.imp_right And.left
  have hlen := replyOf_len (E := E) hms hwritten
  have hblank : entrySize c.version false * ms.length =
      entrySize c.version c.ipv6 * ms.length := by
    rcases h with rfl | ⟨-, h6⟩
    · rfl
    · rw [h6]
  have hsize := entrySize_le c.version c.ipv6
  have hor : ms.length ||| 0x80 < 2 ^ 8 := Nat.or_lt_two_pow (by omega) (by decide)
  have hend : (replyOf E c ms).len =
      4 + entrySize c.version c.ipv6 * ms.length + entrySize c.version c.ipv6 := by
    rw [hlen, Nat.mul_succ]
    omega
  constructor
  · rw [replyOf_bytes_length, hlen]
  · have hsmall : (replyOf E c ms).len < 2 ^ 16 := Nat.mod_lt _ (by decide)
    have hfield : fromLe ((replyOf E c ms).header.lenField (replyOf E c ms).len).bytes =
        (replyOf E c ms).len % 2 ^ 16 := by
      cases (replyOf E c ms).header <;> exact fromLe_le16 _
    rw [replyOf_bytes_length, hfield, Nat.mod_eq_of_lt hsmall]
  · have hbyte : ∀ n, fromLe [UInt8.ofNat n] = n % 2 ^ 8 := by
      intro n
      simp only [fromLe, UInt8.toNat_ofNat']
      omega
    have hfield : fromLe ((replyOf E c ms).header.flagsField (replyOf E c ms).flags).bytes =
        (replyOf E c ms).flags % 2 ^ 8 := by
      rw [replyOf]
      dsimp only
      split_ifs <;> exact hbyte _
    rw [hfield, replyOf]
    dsimp only
    split_ifs
    · exact Nat.mod_eq_of_lt hor
    · exact Nat.mod_eq_of_lt (by omega)
  · intro k it hit
    have hk : k < ms.length := (List.getElem?_eq_some_iff.mp hit).1
    have hplace : entrySize c.version c.ipv6 * (k + 1) ≤
        entrySize c.version c.ipv6 * ms.length := Nat.mul_le_mul_left _ hk
    rw [Nat.mul_succ] at hplace
    have hc : ¬(c.version = .dcv1 ∨ c.version = .bb) := by
      rcases hwritten with rfl | hc
      · cases hit
      · exact not_or.mpr hc
    have hbytes := packet_slice (n := (replyOf E c ms).len)
      (a := 4 + entrySize c.version c.ipv6 * k) (b := buf)
      (w := (replyOf E c ms).writes ++ [(replyOf E c ms).header.typeField 0xC4,
        (replyOf E c ms).header.lenField (replyOf E c ms).len,
        (replyOf E c ms).header.flagsField (replyOf E c ms).flags])
      (s := E.fields c.version c.ipv6 (portOffset c.version) it)
      (by rw [E.length_eq]; omega) ?_
    · rw [E.length_eq] at hbytes
      exact hbytes
    · intro r hr
      have hr' : r < entrySize c.version c.ipv6 := E.length_eq c.version c.ipv6 _ it ▸ hr
      rw [after_replyOf buf (by omega), replyOf, after, List.foldl_append]
      change Write.apply _ (after (entryWrites E c (portOffset c.version) 0 ms) buf) _ = _
      rw [Write.apply_of_not_covers]
      · have hentry := after_entryWrites (k := 0) hc hit hr buf
        rw [Nat.zero_add] at hentry
        exact hentry
      · rintro ⟨hle, -⟩
        change 4 + entrySize c.version false * ms.length ≤ _ at hle
        omega
  · have hbytes := packet_slice (n := (replyOf E c ms).len)
      (a := 4 + entrySize c.version c.ipv6 * ms.length) (b := buf)
      (w := (replyOf E c ms).writes ++ [(replyOf E c ms).header.typeField 0xC4,
        (replyOf E c ms).header.lenField (replyOf E c ms).len,
        (replyOf E c ms).header.flagsField (replyOf E c ms).flags])
      (s := zeros (entrySize c.version c.ipv6))
      (by rw [zeros, List.length_replicate]; omega) ?_
    · rw [zeros, List.length_replicate] at hbytes
      exact hbytes
    · intro r hr
      rw [after_replyOf buf (by omega), replyOf, after, List.foldl_append]
      change Write.apply (put (4 + entrySize c.version false * ms.length) _) _ _ = _
      rw [hblank]
      exact put_apply hr _

theorem lt_of_covered_entryWrites {portOff : ℕ} (hc : ¬(c.version = .dcv1 ∨ c.version = .bb))
    {ms : List SearchedClient} {k p : ℕ} (h : Covered (entryWrites E c portOff k ms) p) :
    p < 4 + entrySize c.version c.ipv6 * (k + ms.length) := by
  induction ms generalizing k with
  | nil => exact absurd h covered_nil
  | cons it ms ih =>
    rw [entryWrites, fillOneChoiceEntry_writes hc, List.singleton_append, covered_cons] at h
    have hle : entrySize c.version c.ipv6 * (k + 1) ≤
        entrySize c.version c.ipv6 * (k + (it :: ms).length) :=
      Nat.mul_le_mul_left _ (by rw [List.length_cons]; omega)
    rw [Nat.mul_succ] at hle
    rcases h with ⟨-, hlt⟩ | h
    · change p < 4 + entrySize c.version c.ipv6 * k + (E.fields _ _ _ it).length at hlt
      rw [E.length_eq] at hlt
      omega
    · have hnext := ih h
      have hplace : k + 1 + ms.length = k + (it :: ms).length := by
        rw [List.length_cons]
        omega
      rw [hplace] at hnext
      exact hnext

/-- With IPv6 the entry that is cleared is not quite the one at the end. -/
theorem not_blank (hc : ¬(c.version = .dcv1 ∨ c.version = .bb)) (hms : ms ≠ [])
    (hmax : ms.length ≤ 32) (h6 : c.ipv6 = true) :
    ¬∀ buf, Lists E c ms (replyOf E c ms) buf := by
  intro h
  have hpos : 0 < ms.length := List.length_pos_iff.mpr hms
  have hsize : entrySize c.version c.ipv6 = entrySize c.version false + 12 := by
    rw [h6]
    rfl
  have hplace : entrySize c.version c.ipv6 * ms.length =
      entrySize c.version false * ms.length + 12 * ms.length := by
    rw [hsize, Nat.add_mul]
  have hlen := replyOf_len (E := E) hmax (Or.inr (not_or.mp hc))
  rw [Nat.mul_succ] at hlen
  have hfirst := entrySize_pos c.version c.ipv6
  have hblank := congrArg (·[entrySize c.version c.ipv6 - 1]?) (h fun _ => 1).blank
  rw [List.getElem?_take_of_lt (by omega), List.getElem?_drop, zeros,
    List.getElem?_replicate_of_lt (by omega), Reply.bytes, packet, List.getElem?_map,
    List.getElem?_range (by omega), Option.map_some, after_replyOf _ (by omega),
    after_of_not_covered] at hblank
  · cases hblank
  · change ¬Covered (entryWrites E c (portOffset c.version) 0 ms ++ [put _ _]) _
    rw [covered_append, not_or]
    constructor
    · intro hcovered
      have hlt := lt_of_covered_entryWrites hc hcovered
      rw [Nat.zero_add] at hlt
      omega
    · rintro ⟨w, hw, -, hlt⟩
      rw [List.mem_singleton.mp hw] at hlt
      change _ < 4 + entrySize c.version false * ms.length + (zeros _).length at hlt
      rw [zeros, List.length_replicate] at hlt
      omega

theorem right_replyOf_iff (hbb : c.version ≠ .bb) (hmax : ms.length ≤ 32)
    (clients : List SearchedClient) : Right E c clients (replyOf E c ms) ↔
      ms = clients ∧ (ms = [] ∨ c.version ≠ .dcv1 ∧ c.ipv6 = false) := by
  constructor
  · rintro ⟨hlisted, hall⟩
    change ms = clients at hlisted
    subst hlisted
    refine ⟨rfl, ?_⟩
    by_cases hms : ms = []
    · exact Or.inl hms
    · have hv1 : c.version ≠ .dcv1 := by
        intro hv1
        have hlength := (hall fun _ => 0).length
        have hpos : 0 < ms.length := List.length_pos_iff.mpr hms
        have hzero : writtenSize c = 0 := if_pos (Or.inl hv1)
        have hmore := Nat.mul_le_mul_left (entrySize c.version c.ipv6) hpos
        have hle := entrySize_le c.version c.ipv6
        have hfirst := entrySize_pos c.version c.ipv6
        rw [replyOf_bytes_length, Nat.mul_succ] at hlength
        change (writtenSize c * ms.length + 4 + entrySize c.version c.ipv6) % 65536 = _ at hlength
        rw [hzero, Nat.zero_mul] at hlength
        omega
      refine Or.inr ⟨hv1, Bool.eq_false_iff.mpr fun h6 => ?_⟩
      exact not_blank (not_or.mpr ⟨hv1, hbb⟩) hms hmax h6 hall
  · rintro ⟨rfl, h⟩
    refine ⟨rfl, fun buf => lists_replyOf hmax ?_ buf⟩
    exact h.imp_right fun h => ⟨⟨h.1, hbb⟩, h.2⟩

end Replies

theorem found_length (blocks : List (Option SearchBlock)) (c : Searcher) (q : Query) :
    (found blocks c q).length ≤ 32 :=
  List.length_take_le _ _

/-- A search finds what it is for, if its bounds are right and all of that is in lobbies. -/
theorem found_eq_iff (blocks : List (Option SearchBlock)) {c : Searcher} (hc : c.version ≠ .bb)
    (choice cl : BitVec 16) :
    found blocks c (query c choice cl) = (sought blocks c choice cl).take 32 ↔
      (sought blocks c choice cl = [] ∨ InRange c choice) ∧
        ∀ it ∈ (sought blocks c choice cl).take 32, it.inLobby = true := by
  by_cases hrange : InRange c choice
  · have hfound : found blocks c (query c choice cl) =
        ((sought blocks c choice cl).filter SearchedClient.inLobby).take 32 := by
      rw [found, sought, List.filter_filter]
      refine congrArg (List.take 32) (List.filter_congr fun it _ => ?_)
      exact finds_iff hc hrange it
    rw [hfound, take_filter_eq_iff, and_iff_right (Or.inr hrange)]
  · have hfound : found blocks c (query c choice cl) = [] := by
      rw [found, List.filter_eq_nil_iff.mpr, List.take_nil]
      intro it _
      rw [finds_none hrange it]
      exact Bool.false_ne_true
    rw [hfound, or_iff_left hrange]
    constructor
    · intro hnone
      have hnil : sought blocks c choice cl = [] := by
        simpa using hnone.symm
      refine ⟨hnil, ?_⟩
      rw [← hnone]
      exact fun it hit => absurd hit List.not_mem_nil
    · rintro ⟨hnil, -⟩
      rw [hnil, List.take_nil]

/-- Entries without any text. -/
def blankEntries : Entries where
  fields := fun v ipv6 _ _ => zeros (entrySize v ipv6)
  length_eq := fun _ _ _ _ => List.length_replicate

/-- A client of version 2 with a level. -/
def player (id : ℕ) (level : BitVec 32) : SearchedClient where
  id := id
  version := .dcv2
  nte := false
  inLobby := true
  pl := some ⟨level, 0⟩

def searcher (level : BitVec 32) : Searcher where
  id := 1
  version := .dcv2
  ipv6 := false
  level := level

/-- One block, with the searcher and another client of its level. -/
def twoPlayers (level : BitVec 32) : List (Option SearchBlock) :=
  [some ⟨true, [player 1 level, player 2 level]⟩]

end ShipServer.ChoiceSearch
