import ShipServer.LockTraces
import ShipServer.CommandHandlers
import ShipServer.DropGenerators

set_option autoImplicit false

/-! The locks that some functions take and give back: the check of a client's items, the character
data, the kick and the ban by a guild card, and the answers about quest flags. Functions that take
no locks, and what is done under the locks, are left out. -/

namespace ShipServer.LockBalance

open Versions CommandState LockTraces
open DropGenerators (ItemVersion itemVersion)

/-- The mutexes of the clients and of the lobbies, and the rwlocks of the blocks. -/
inductive Lock where
  | client (i : ClientId)
  | block (j : ℕ)
  | lobby (l : LobbyId)
  deriving DecidableEq

/-- What a function has done with locks, and what it returns. -/
structure Traced where
  ops : List (Op Lock)
  rv : ℤ

/-- A function that gives back the locks it takes, and has been called. -/
structure Called where
  ops : List (Op Lock)
  givesBack : GivesBack ops
  rv : ℤ

/-- The part of a function inside of a loop or of a lock: what it has done, and what it has returned
if it has. -/
abbrev Part := List (Op Lock) × Option ℤ

/-- `lobby_check_client_legit`, with the results of `lobby_check_player_legit`. -/
def lobbyCheckClientLegit (c : ClientId) (version : ClientVersion) (check : ItemVersion → ℤ) :
    Traced :=
  match itemVersion version with
  | none => { ops := [.acquire (.client c)], rv := 1 }
  | some v => { ops := [.acquire (.client c), .release (.client c)], rv := check v }

/-- Character data from a client, and the calls for it. -/
structure CharData where
  client : ClientId
  level : BitVec 32
  leavesGame : Bool
  inLobby : Bool
  sentMotd : Bool
  lobbyRemovePlayer : Called
  lobbyAddToAny : Called
  sendLobbyJoin : Called
  sendLobbyAddPlayer : Called
  blockLogin : Called

/-- `dc_process_char` for a client that is in no lobby. The script of `blockLogin` is run once in a
session. -/
def enterLobby (x : CharData) : Traced :=
  if x.lobbyAddToAny.rv ≠ 0 then
    { ops := x.lobbyAddToAny.ops ++ [.release (.client x.client)], rv := -1 }
  else if x.sendLobbyJoin.rv ≠ 0 then
    { ops := x.lobbyAddToAny.ops ++ (x.sendLobbyJoin.ops ++ [.release (.client x.client)])
      rv := -2 }
  else if x.sendLobbyAddPlayer.rv ≠ 0 then
    { ops := x.lobbyAddToAny.ops ++ (x.sendLobbyJoin.ops ++ (x.sendLobbyAddPlayer.ops ++
        [.release (.client x.client)]))
      rv := -3 }
  else
    { ops := x.lobbyAddToAny.ops ++ (x.sendLobbyJoin.ops ++ (x.sendLobbyAddPlayer.ops ++
        ((if x.sentMotd then [] else x.blockLogin.ops) ++ [.release (.client x.client)])))
      rv := 0 }

/-- `dc_process_char` after the mutex has been locked. -/
def charLocked (x : CharData) : Traced :=
  if 199 < x.level then { ops := [], rv := -1 }
  else if x.leavesGame then
    { ops := .release (.client x.client) :: x.lobbyRemovePlayer.ops, rv := x.lobbyRemovePlayer.rv }
  else if x.inLobby then { ops := [.release (.client x.client)], rv := 0 }
  else enterLobby x

def dcProcessChar (x : CharData) : Traced :=
  { charLocked x with ops := .acquire (.client x.client) :: (charLocked x).ops }

section Blocks

variable {Lim : Type} (s : Ship Lim)

/-- The loop over the blocks, each of which is locked while its clients are looked at. A block that
is missing is one that does not run. -/
def overBlocks (body : ℕ → List ClientId → Part) : ℕ → List Block → Part
  | _, [] => ([], none)
  | j, b :: rest =>
    if b.run then
      match body j b.clients with
      | (here, some rv) => (.acquire (.block j) :: here, some rv)
      | (here, none) =>
        let there := overBlocks body (j + 1) rest
        (.acquire (.block j) :: (here ++ .release (.block j) :: there.1), there.2)
    else overBlocks body (j + 1) rest

/-- What a GM asks for: the client with a guild card. `sendTxt` is what `send_txt` returns. -/
structure GmRequest where
  gm : ClientId
  guildcard : BitVec 32
  sendTxt : ℤ

variable (x : GmRequest)

/-- The client has been found and is locked; both returns unlock it and its block. -/
def kick (j : ℕ) (i : ClientId) : Part :=
  if (s.clients x.gm).privilege ≤ (s.clients i).privilege then
    ([.release (.client i), .release (.block j)], some x.sendTxt)
  else ([.release (.client i), .release (.block j)], some 0)

/-- The loop of `kill_guildcard` over the clients of a block. -/
def killLoop (j : ℕ) : List ClientId → Part
  | [] => ([], none)
  | i :: rest =>
    if (s.clients i).guildcard = x.guildcard then
      (.acquire (.client i) :: (kick s x j i).1, (kick s x j i).2)
    else
      (.acquire (.client i) :: .release (.client i) :: (killLoop j rest).1, (killLoop j rest).2)

def killGuildcard : Traced :=
  if localGm (s.clients x.gm) = false then { ops := [], rv := -1 }
  else
    let found := overBlocks (killLoop s x) 0 s.blocks
    { ops := found.1, rv := found.2.getD 0 }

/-- The loop of `global_ban`: only the client that is looked for is locked, but each other client is
unlocked. -/
def banLoop (j : ℕ) : List ClientId → Part
  | [] => ([], none)
  | i :: rest =>
    if (s.clients i).guildcard = x.guildcard then
      (.acquire (.client i) :: (kick s x j i).1, (kick s x j i).2)
    else (.release (.client i) :: (banLoop j rest).1, (banLoop j rest).2)

def globalBan (gateSends : Bool) : Traced :=
  if globalGm (s.clients x.gm) = false then { ops := [], rv := -1 }
  else if gateSends = false then { ops := [], rv := x.sendTxt }
  else
    let found := overBlocks (banLoop s x) 0 s.blocks
    { ops := found.1, rv := found.2.getD 0 }

end Blocks

section Flags

/-- A client on a block, as an answer about a quest flag finds it. -/
structure Questing where
  id : ClientId
  guildcard : BitVec 32
  curLobby : Option LobbyId
  qstackLock : Bool

/-- The blocks of the ship, from the first one on. -/
abbrev Blocks := List (Option (List Questing))

/-- `s->blocks[block - 1]`, in 32 bits: nothing outside of the array. -/
def blockAt (blocks : Blocks) (block : BitVec 32) : Option (Option (List Questing)) :=
  blocks[(block - 1).toNat]?

/-- `quest_flag_reply` for a client whose stack is locked. -/
def questFlagReply (l : LobbyId) : List (Op Lock) :=
  [.acquire (.lobby l), .release (.lobby l)]

/-- What both handlers do for the client that has been found. An answer that is not about a call is
dropped if it is for a long flag, and after a look at the lobby if its flag is too large. -/
def flagClient (long tooLarge : Bool) (i : Questing) : Part :=
  match i.curLobby with
  | none => ([.acquire (.client i.id), .release (.client i.id)], none)
  | some l =>
    if i.qstackLock then
      (.acquire (.client i.id) :: (questFlagReply l ++ [.release (.client i.id)]), none)
    else if long then ([.acquire (.client i.id)], some 0)
    else
      (.acquire (.client i.id) :: .acquire (.lobby l) :: .release (.lobby l) ::
          if tooLarge then [] else [.release (.client i.id)],
        if tooLarge then some 0 else none)

/-- A part under the lock of a block, which is given back at the end and not where the part
returns. -/
def underBlock (j : ℕ) (part : Part) : Traced :=
  match part with
  | (ops, some rv) => { ops := .acquire (.block j) :: ops, rv }
  | (ops, none) => { ops := .acquire (.block j) :: (ops ++ [.release (.block j)]), rv := 0 }

/-- A packet about a quest flag. `isReply` tells that its header is that of an answer, and
`flagIdHi` is used by one of the handlers only. -/
structure QflagPkt where
  isReply : Bool
  guildcard : BitVec 32
  block : BitVec 32
  flagId : BitVec 32
  flagIdHi : BitVec 16

/-- The flag is one of 32 bits. -/
def QflagPkt.long (pkt : QflagPkt) : Bool :=
  pkt.flagId &&& 0x80000000 ≠ 0

/-- The parts of the flag's id, put together. -/
def QflagPkt.flag (pkt : QflagPkt) : BitVec 32 :=
  pkt.flagId &&& 0x0000FFFF ||| pkt.flagIdHi.setWidth 32 <<< 16

/-- The first client of a block with the guild card of a packet; the search ends there. -/
def QflagPkt.addressee (pkt : QflagPkt) (clients : List Questing) : Option Questing :=
  clients.find? fun i => i.guildcard = pkt.guildcard

/-- Nothing where the block is outside of the array, or there is none. -/
def handleQflag (blocks : Blocks) (pkt : QflagPkt) : Option Traced :=
  if pkt.isReply = false then some { ops := [], rv := -1 }
  else if blocks.length < pkt.block.toNat then some { ops := [], rv := -1 }
  else
    match blockAt blocks pkt.block with
    | none | some none => none
    | some (some clients) =>
      some (underBlock pkt.block.toNat
        ((pkt.addressee clients).elim ([], none) (flagClient pkt.long (0xFF < pkt.flag))))

/-- Nothing where the block is outside of the array. -/
def handleQflagErr (blocks : Blocks) (pkt : QflagPkt) : Option Traced :=
  if blocks.length < pkt.block.toNat then some { ops := [], rv := 0 }
  else
    match blockAt blocks pkt.block with
    | none => none
    | some none => some { ops := [], rv := 0 }
    | some (some clients) =>
      some (underBlock pkt.block.toNat
        ((pkt.addressee clients).elim ([], none) (flagClient pkt.long false)))

end Flags

/-- Whatever a call returns, it has given back exactly the locks that it has taken. -/
def Kept (returned : Option Traced) : Prop :=
  ∀ t ∈ returned, GivesBack t.ops

/-- The client that an answer about a quest flag reaches. -/
def Addressed (blocks : Blocks) (pkt : QflagPkt) (i : Questing) : Prop :=
  pkt.block.toNat ≤ blocks.length ∧
    ∃ clients, blockAt blocks pkt.block = some (some clients) ∧ pkt.addressee clients = some i

/-- A call of one of the functions. -/
inductive Use (Lim : Type) where
  | lobbyCheckClientLegit (c : ClientId) (version : ClientVersion) (check : ItemVersion → ℤ)
  | dcProcessChar (x : CharData)
  | globalBan (s : Ship Lim) (x : GmRequest) (gateSends : Bool)
  | killGuildcard (s : Ship Lim) (x : GmRequest)
  | handleQflag (blocks : Blocks) (pkt : QflagPkt)
  | handleQflagErr (blocks : Blocks) (pkt : QflagPkt)

namespace Use

variable {Lim : Type}

def run : Use Lim → Option Traced
  | .lobbyCheckClientLegit c version check =>
    some (LockBalance.lobbyCheckClientLegit c version check)
  | .dcProcessChar x => some (LockBalance.dcProcessChar x)
  | .globalBan s x gateSends => some (LockBalance.globalBan s x gateSends)
  | .killGuildcard s x => some (LockBalance.killGuildcard s x)
  | .handleQflag blocks pkt => LockBalance.handleQflag blocks pkt
  | .handleQflagErr blocks pkt => LockBalance.handleQflagErr blocks pkt

/-- None of the returns that have been forgotten is taken: the versions without a list of items, a
level above 199, a client in front of the one that is banned, and an answer that is dropped. -/
def Careful : Use Lim → Prop
  | .lobbyCheckClientLegit _ version _ => version ≠ .ep3 ∧ version ≠ .bb
  | .dcProcessChar x => x.level ≤ 199
  | .globalBan s x gateSends =>
    globalGm (s.clients x.gm) = true → gateSends = true →
      ∀ i ∈ s.running.head?, (s.clients i).guildcard = x.guildcard
  | .killGuildcard _ _ => True
  | .handleQflag blocks pkt =>
    pkt.isReply = true → ∀ i, Addressed blocks pkt i →
      i.curLobby = none ∨ i.qstackLock = true ∨ pkt.long = false ∧ pkt.flag ≤ 0xFF
  | .handleQflagErr blocks pkt =>
    ∀ i, Addressed blocks pkt i → i.curLobby = none ∨ i.qstackLock = true ∨ pkt.long = false

end Use

theorem kept_none : Kept none :=
  fun t ht => absurd ht (Option.not_mem_none t)

theorem kept_some {t : Traced} : Kept (some t) ↔ GivesBack t.ops :=
  ⟨fun h => h t rfl, fun h _ ht => Option.some.inj ht ▸ h⟩

section Checks

theorem lobbyCheckClientLegit_iff (c : ClientId) (version : ClientVersion)
    (check : ItemVersion → ℤ) : GivesBack (lobbyCheckClientLegit c version check).ops ↔
      version ≠ .ep3 ∧ version ≠ .bb := by
  unfold lobbyCheckClientLegit
  cases hv : itemVersion version with
  | none =>
    have hlocked : after [.acquire (.client c)] 0 = some {Lock.client c} := rfl
    refine iff_of_false (not_givesBack hlocked (Multiset.singleton_ne_zero _)) ?_
    cases version <;> cases hv <;> decide
  | some v =>
    refine iff_of_true after_release ?_
    cases version <;> cases hv <;> decide

theorem enterLobby_after (x : CharData) :
    after (enterLobby x).ops {.client x.client} = some 0 := by
  have hlogin : GivesBack (if x.sentMotd then [] else x.blockLogin.ops) := by
    split
    · exact GivesBack.nil
    · exact x.blockLogin.givesBack
  unfold enterLobby
  split
  · rw [x.lobbyAddToAny.givesBack.then]
    exact after_release
  split
  · rw [x.lobbyAddToAny.givesBack.then, x.sendLobbyJoin.givesBack.then]
    exact after_release
  split
  · rw [x.lobbyAddToAny.givesBack.then, x.sendLobbyJoin.givesBack.then,
      x.sendLobbyAddPlayer.givesBack.then]
    exact after_release
  · rw [x.lobbyAddToAny.givesBack.then, x.sendLobbyJoin.givesBack.then,
      x.sendLobbyAddPlayer.givesBack.then, hlogin.then]
    exact after_release

theorem dcProcessChar_iff (x : CharData) : GivesBack (dcProcessChar x).ops ↔ x.level ≤ 199 := by
  have hops : GivesBack (dcProcessChar x).ops ↔
      after (charLocked x).ops {.client x.client} = some 0 := Iff.rfl
  rw [hops, charLocked]
  by_cases hlevel : 199 < x.level
  · rw [if_pos hlevel]
    refine iff_of_false ?_ (BitVec.not_le.mpr hlevel)
    exact fun h => Multiset.singleton_ne_zero _ (Option.some.inj h)
  · rw [if_neg hlevel]
    refine iff_of_true ?_ (BitVec.not_lt.mp hlevel)
    split
    · have hremove := x.lobbyRemovePlayer.givesBack
      exact after_release.trans hremove
    split
    · exact after_release
    · exact enterLobby_after x

end Checks

section Blocks

variable {Lim : Type} {s : Ship Lim} {x : GmRequest}

/-- Both returns of a kick give back the locks of the client and of its block. -/
theorem kick_after (j : ℕ) (i : ClientId) :
    after (kick s x j i).1 (.client i ::ₘ {.block j}) = some 0 ∧
      (kick s x j i).2.isSome = true := by
  unfold kick
  split <;> exact ⟨after_release.trans after_release, rfl⟩

/-- A part under the lock of a block keeps the lock if it goes on, and gives it back if it
returns. -/
def Part.Ends (j : ℕ) (p : Part) : Prop :=
  after p.1 {.block j} = some (if p.2.isSome then 0 else {.block j})

theorem killLoop_ends (j : ℕ) (is : List ClientId) : Part.Ends j (killLoop s x j is) := by
  induction is with
  | nil => rfl
  | cons i rest ih =>
    rw [killLoop]
    split
    · obtain ⟨hafter, hreturns⟩ := kick_after (s := s) (x := x) j i
      unfold Part.Ends
      rw [after_acquire, hafter, if_pos hreturns]
    · unfold Part.Ends
      rw [after_acquire, after_release]
      exact ih

/-- A block that runs: its part, and the blocks after it unless the part has returned. -/
theorem overBlocks_after {body : ℕ → List ClientId → Part} {b : Block} (hrun : b.run = true)
    (j : ℕ) (rest : List Block) : after (overBlocks body j (b :: rest)).1 0 =
      (after (body j b.clients).1 {.block j}).bind fun held =>
        if (body j b.clients).2.isSome then some held
        else after (.release (.block j) :: (overBlocks body (j + 1) rest).1) held := by
  rw [overBlocks, if_pos hrun]
  obtain ⟨here, rv⟩ := body j b.clients
  cases rv with
  | none => exact after_append
  | some rv => exact (Option.bind_fun_some _).symm

theorem overBlocks_ends {body : ℕ → List ClientId → Part} {b : Block} (hrun : b.run = true)
    {j : ℕ} (hends : Part.Ends j (body j b.clients)) (rest : List Block) :
    GivesBack (overBlocks body j (b :: rest)).1 ↔
      (body j b.clients).2.isSome ∨ GivesBack (overBlocks body (j + 1) rest).1 := by
  rw [GivesBack, overBlocks_after hrun, hends, Option.bind_some]
  by_cases hreturns : (body j b.clients).2.isSome = true
  · rw [if_pos hreturns, if_pos hreturns]
    exact iff_of_true rfl (Or.inl hreturns)
  · rw [if_neg hreturns, if_neg hreturns, or_iff_right hreturns]
    exact Eq.congr_left after_release

theorem killGuildcard_givesBack (s : Ship Lim) (x : GmRequest) :
    GivesBack (killGuildcard s x).ops := by
  have hblocks : ∀ (bs : List Block) (j : ℕ), GivesBack (overBlocks (killLoop s x) j bs).1 := by
    intro bs
    induction bs with
    | nil => exact fun _ => GivesBack.nil
    | cons b rest ih =>
      intro j
      by_cases hrun : b.run = true
      · exact (overBlocks_ends hrun (killLoop_ends j b.clients) rest).mpr (Or.inr (ih (j + 1)))
      · rw [overBlocks, if_neg hrun]
        exact ih (j + 1)
  unfold killGuildcard
  split
  · exact GivesBack.nil
  · exact hblocks s.blocks 0

/-- The client that is banned is in front. -/
theorem banLoop_found {i : ClientId} (hi : (s.clients i).guildcard = x.guildcard) (j : ℕ)
    (rest : List ClientId) : Part.Ends j (banLoop s x j (i :: rest)) ∧
      (banLoop s x j (i :: rest)).2.isSome = true := by
  obtain ⟨hafter, hreturns⟩ := kick_after (s := s) (x := x) j i
  unfold Part.Ends
  rw [banLoop, if_pos hi, after_acquire, hafter, if_pos hreturns]
  exact ⟨rfl, hreturns⟩

/-- Another client is in front, and is given back without having been taken. -/
theorem banLoop_other {i : ClientId} (hi : (s.clients i).guildcard ≠ x.guildcard) (j : ℕ)
    (rest : List ClientId) : after (banLoop s x j (i :: rest)).1 {.block j} = none := by
  rw [banLoop, if_neg hi]
  exact after_unheld (by simp)

theorem overBlocks_ban (bs : List Block) (j : ℕ) : GivesBack (overBlocks (banLoop s x) j bs).1 ↔
    ∀ i ∈ ((bs.filter Block.run).flatMap Block.clients).head?,
      (s.clients i).guildcard = x.guildcard := by
  induction bs generalizing j with
  | nil => exact iff_of_true GivesBack.nil fun i hi => absurd hi (Option.not_mem_none i)
  | cons b rest ih =>
    by_cases hrun : b.run = true
    · rw [List.filter_cons_of_pos hrun, List.flatMap_cons]
      cases hclients : b.clients with
      | nil =>
        have hends : Part.Ends j (banLoop s x j b.clients) := by
          rw [hclients]
          rfl
        rw [overBlocks_ends hrun hends, hclients, List.nil_append, ← ih (j + 1)]
        exact or_iff_right Bool.false_ne_true
      | cons i more =>
        rw [List.cons_append, List.head?_cons]
        by_cases hi : (s.clients i).guildcard = x.guildcard
        · have hfound := banLoop_found hi j more
          rw [← hclients] at hfound
          refine iff_of_true ((overBlocks_ends hrun hfound.1 rest).mpr (Or.inl hfound.2)) ?_
          intro i' hi'
          rwa [← Option.some.inj hi']
        · refine iff_of_false ?_ fun h => hi (h i rfl)
          rw [GivesBack, overBlocks_after hrun, hclients, banLoop_other hi]
          exact (Option.some_ne_none 0).symm
    · rw [overBlocks, if_neg hrun, List.filter_cons_of_neg hrun]
      exact ih (j + 1)

theorem globalBan_iff (s : Ship Lim) (x : GmRequest) (gateSends : Bool) :
    GivesBack (globalBan s x gateSends).ops ↔
      (globalGm (s.clients x.gm) = true → gateSends = true →
        ∀ i ∈ s.running.head?, (s.clients i).guildcard = x.guildcard) := by
  unfold globalBan
  cases hgm : globalGm (s.clients x.gm) with
  | false => exact iff_of_true GivesBack.nil fun h => absurd h Bool.false_ne_true
  | true =>
    cases gateSends with
    | false => exact iff_of_true GivesBack.nil fun _ h => absurd h Bool.false_ne_true
    | true =>
      change GivesBack (overBlocks (banLoop s x) 0 s.blocks).1 ↔ _
      rw [overBlocks_ban]
      exact ⟨fun h _ _ => h, fun h => h rfl rfl⟩

end Blocks

section Flags

variable {long tooLarge : Bool}

theorem flagClient_kept {i : Questing} (hi : i.curLobby = none ∨ i.qstackLock = true ∨
    long = false ∧ tooLarge = false) : GivesBack (flagClient long tooLarge i).1 ∧
      (flagClient long tooLarge i).2 = none := by
  unfold flagClient
  cases hlobby : i.curLobby with
  | none => exact ⟨after_release, rfl⟩
  | some l =>
    dsimp only
    by_cases hlock : i.qstackLock = true
    · have hreply : GivesBack (questFlagReply l) := after_release
      rw [if_pos hlock]
      exact ⟨hreply.locked (.client i.id), rfl⟩
    · have hin : i.curLobby ≠ none := by
        rw [hlobby]
        exact Option.some_ne_none l
      obtain ⟨rfl, rfl⟩ := (hi.resolve_left hin).resolve_left hlock
      rw [if_neg hlock, if_neg Bool.false_ne_true]
      exact ⟨after_release.trans after_release, rfl⟩

/-- A dropped answer leaves the client locked. -/
theorem flagClient_dropped {i : Questing} {l : LobbyId} (hlobby : i.curLobby = some l)
    (hlock : i.qstackLock = false) (hdrop : long = true ∨ tooLarge = true) (held : Multiset Lock) :
    after (flagClient long tooLarge i).1 held = some (.client i.id ::ₘ held) ∧
      (flagClient long tooLarge i).2 = some 0 := by
  unfold flagClient
  rw [hlobby]
  dsimp only
  rw [if_neg (ne_true_of_eq_false hlock)]
  cases long with
  | true => exact ⟨rfl, rfl⟩
  | false =>
    obtain rfl := hdrop.resolve_left Bool.false_ne_true
    exact ⟨after_release, rfl⟩

theorem underBlock_kept {part : Part} (hpart : GivesBack part.1 ∧ part.2 = none) (j : ℕ) :
    GivesBack (underBlock j part).ops := by
  obtain ⟨ops, rv⟩ := part
  obtain ⟨hops, rfl⟩ := hpart
  exact hops.locked _

theorem underBlock_dropped {part : Part} {i : ClientId} {rv : ℤ} {j : ℕ}
    (hpart : after part.1 {.block j} = some (.client i ::ₘ {.block j}) ∧ part.2 = some rv) :
    ¬GivesBack (underBlock j part).ops := by
  obtain ⟨ops, returned⟩ := part
  obtain ⟨hops, rfl⟩ := hpart
  exact not_givesBack hops (Multiset.cons_ne_zero)

theorem underBlock_iff (j : ℕ) (found : Option Questing) :
    GivesBack (underBlock j (found.elim ([], none) (flagClient long tooLarge))).ops ↔
      ∀ i, found = some i →
        i.curLobby = none ∨ i.qstackLock = true ∨ long = false ∧ tooLarge = false := by
  cases found with
  | none =>
    refine iff_of_true (underBlock_kept ⟨GivesBack.nil, rfl⟩ j) fun i hi => ?_
    cases hi
  | some i =>
    have hmine : (∀ i', some i = some i' → i'.curLobby = none ∨ i'.qstackLock = true ∨
        long = false ∧ tooLarge = false) ↔ (i.curLobby = none ∨ i.qstackLock = true ∨
          long = false ∧ tooLarge = false) :=
      ⟨fun h => h i rfl, fun h i' hi' => Option.some.inj hi' ▸ h⟩
    rw [hmine]
    by_cases hkept : i.curLobby = none ∨ i.qstackLock = true ∨ long = false ∧ tooLarge = false
    · exact iff_of_true (underBlock_kept (flagClient_kept hkept) j) hkept
    · refine iff_of_false ?_ hkept
      rw [not_or, not_or, Bool.not_eq_true] at hkept
      obtain ⟨hlobby, hlock, hflag⟩ := hkept
      obtain ⟨l, hl⟩ := Option.ne_none_iff_exists'.mp hlobby
      have hdrop : long = true ∨ tooLarge = true := by
        cases long <;> cases tooLarge <;> simp at hflag ⊢
      exact underBlock_dropped (flagClient_dropped hl hlock hdrop _)

/-- On a block that there is, the handlers keep the locks unless an answer is dropped. -/
theorem reply_iff {blocks : Blocks} {pkt : QflagPkt} (hinside : pkt.block.toNat ≤ blocks.length)
    {clients : List Questing} (hblock : blockAt blocks pkt.block = some (some clients)) (j : ℕ) :
    GivesBack (underBlock j
        ((pkt.addressee clients).elim ([], none) (flagClient long tooLarge))).ops ↔
      ∀ i, Addressed blocks pkt i →
        i.curLobby = none ∨ i.qstackLock = true ∨ long = false ∧ tooLarge = false := by
  have haddressed : ∀ i, Addressed blocks pkt i ↔ pkt.addressee clients = some i := by
    intro i
    constructor
    · rintro ⟨-, clients', hblock', hfound⟩
      rw [hblock] at hblock'
      obtain rfl := Option.some.inj (Option.some.inj hblock')
      exact hfound
    · exact fun hfound => ⟨hinside, clients, hblock, hfound⟩
  rw [underBlock_iff]
  exact forall_congr' fun i => imp_congr_left (haddressed i).symm

/-- Where no client is reached, nothing is asked of one. -/
theorem kept_unaddressed {blocks : Blocks} {pkt : QflagPkt} {returned : Option Traced}
    (hkept : Kept returned) (hnone : pkt.block.toNat ≤ blocks.length →
      ∀ clients, blockAt blocks pkt.block ≠ some (some clients)) {P : Questing → Prop} :
    Kept returned ↔ ∀ i, Addressed blocks pkt i → P i := by
  refine iff_of_true hkept ?_
  rintro i ⟨hinside, clients, hblock, -⟩
  exact absurd hblock (hnone hinside clients)

theorem blockAt_ne {blocks : Blocks} {block : BitVec 32} {b : Option (Option (List Questing))}
    (hblock : blockAt blocks block = b) (hb : b.join = none) (clients : List Questing) :
    blockAt blocks block ≠ some (some clients) := by
  intro hclients
  rw [hblock] at hclients
  subst hclients
  cases hb

theorem handleQflag_iff (blocks : Blocks) (pkt : QflagPkt) : Kept (handleQflag blocks pkt) ↔
    (pkt.isReply = true → ∀ i, Addressed blocks pkt i →
      i.curLobby = none ∨ i.qstackLock = true ∨ pkt.long = false ∧ pkt.flag ≤ 0xFF) := by
  unfold handleQflag
  cases hreply : pkt.isReply with
  | false => exact iff_of_true (kept_some.mpr GivesBack.nil) fun h => absurd h Bool.false_ne_true
  | true =>
    rw [if_neg Bool.true_eq_false.mp, forall_prop_of_true rfl]
    by_cases hout : blocks.length < pkt.block.toNat
    · rw [if_pos hout]
      exact kept_unaddressed (kept_some.mpr GivesBack.nil) fun hin => absurd hout (not_lt.mpr hin)
    · rw [if_neg hout]
      split
      case h_1 hblock => exact kept_unaddressed kept_none fun _ => blockAt_ne hblock rfl
      case h_2 hblock => exact kept_unaddressed kept_none fun _ => blockAt_ne hblock rfl
      case h_3 clients hblock =>
        have hsmall : decide (0xFF < pkt.flag) = false ↔ pkt.flag ≤ 0xFF := by
          rw [decide_eq_false_iff_not, BitVec.not_lt]
        rw [kept_some, reply_iff (not_lt.mp hout) hblock, hsmall]

theorem handleQflagErr_iff (blocks : Blocks) (pkt : QflagPkt) :
    Kept (handleQflagErr blocks pkt) ↔ ∀ i, Addressed blocks pkt i →
      i.curLobby = none ∨ i.qstackLock = true ∨ pkt.long = false := by
  unfold handleQflagErr
  by_cases hout : blocks.length < pkt.block.toNat
  · rw [if_pos hout]
    exact kept_unaddressed (kept_some.mpr GivesBack.nil) fun hin => absurd hout (not_lt.mpr hin)
  · rw [if_neg hout]
    split
    case h_1 hblock => exact kept_unaddressed kept_none fun _ => blockAt_ne hblock rfl
    case h_2 hblock =>
      exact kept_unaddressed (kept_some.mpr GivesBack.nil) fun _ => blockAt_ne hblock rfl
    case h_3 clients hblock =>
      rw [kept_some, reply_iff (not_lt.mp hout) hblock]
      simp only [and_true]

end Flags

/-- Every call of the functions gives back exactly the locks it has taken, if and only if it takes
none of the returns that have been forgotten. -/
theorem lockBalance_iff {Lim : Type} (u : Use Lim) : Kept u.run ↔ u.Careful := by
  cases u with
  | lobbyCheckClientLegit c version check =>
    exact kept_some.trans (lobbyCheckClientLegit_iff c version check)
  | dcProcessChar x => exact kept_some.trans (dcProcessChar_iff x)
  | globalBan s x gateSends => exact kept_some.trans (globalBan_iff s x gateSends)
  | killGuildcard s x =>
    exact kept_some.trans (iff_of_true (killGuildcard_givesBack s x) trivial)
  | handleQflag blocks pkt => exact handleQflag_iff blocks pkt
  | handleQflagErr blocks pkt => exact handleQflagErr_iff blocks pkt

/-- The check of a Blue Burst client leaves its mutex locked. -/
theorem lockBalance_not : ¬∀ u : Use Unit, Kept u.run := by
  intro h
  have hbb := h (.lobbyCheckClientLegit 0 .bb fun _ => 1)
  rw [Use.run, kept_some, lobbyCheckClientLegit_iff] at hbb
  exact hbb.2 rfl

end ShipServer.LockBalance
