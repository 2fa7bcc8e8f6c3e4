import ShipServer.LobbyMembership

set_option autoImplicit false

namespace ShipServer.RefusedJoins

open LabelledRuns Versions LobbyRooms LobbyState LobbyFunctions LobbyRefinement
open BlockPackets BlockInvariants LobbyMembership

/-- A block, and what `join_game` works on beyond it. `highestItem l i` is `highest_item[i]` of
lobby `l`, from 4 on the memory behind that array; `limitRefs` counts the references to the list
of legal items that a client holds. -/
structure JoinState where
  block : Block
  shopping : ClientId → Bool
  itemIds : ClientId → List (BitVec 32)
  limitRefs : ClientId → ℤ
  highestItem : LobbyHandle → Slot → BitVec 32

/-- `lobby_change_lobby`. A client that is moved stops shopping. -/
def changeLobby (s : JoinState) (env : Env) (c : ClientId) (req : LobbyHandle) :
    JoinState × Int :=
  let moves := (s.block.client c).curLobby.isSome
  let (b, rv) := lobbyChangeLobby s.block env c req
  let shopping := if moves ∧ rv = 0 then Function.update s.shopping c false else s.shopping
  ({ s with block := b, shopping := shopping }, rv)

/-- The client's legit mode flag is cleared, with its reference to the list of legal items. -/
def clearLegit (s : JoinState) (c : ClientId) : JoinState :=
  let x := (s.block.client c).account
  if x.legit then
    { s with
      block := setAccount s.block c (fun a => { a with legit := false })
      limitRefs :=
        if x.limits then Function.update s.limitRefs c (s.limitRefs c - 1) else s.limitRefs }
  else s

/-- The first item id that `join_game` hands out in a slot. -/
def firstItemId (slot : Slot) (highest : BitVec 32) : BitVec 32 :=
  0x00010000 ||| BitVec.ofNat 32 slot <<< 21 ||| highest

/-- The inventory is fixed up for the new lobby. -/
def renumber (s : JoinState) (c : ClientId) (l : LobbyHandle) : JoinState :=
  let slot := (s.block.client c).clientId
  let id := firstItemId slot (s.highestItem l slot)
  let last := id + BitVec.ofNat 32 (s.itemIds c).length - 1
  { s with
    itemIds := Function.update s.itemIds c
      ((s.itemIds c).mapIdx fun i _ => id + BitVec.ofNat 32 i)
    highestItem := Function.update s.highestItem l
      (Function.update (s.highestItem l) slot last) }

/-- `join_game`. The branch for -15 lacks an `else`, so the last one runs after it too. -/
def joinGame (s : JoinState) (env : Env) (c : ClientId) (l : LobbyHandle) : JoinState × Int :=
  if (s.block.client c).account.gcProtect then
    (s, -1)
  else
    let (s, rv) := changeLobby s env c l
    if rv < 0 ∧ rv ≠ -15 then (s, rv) else (renumber (clearLegit s c) c l, rv)

theorem clearLegit_block (s : JoinState) (c : ClientId) :
    (clearLegit s c).block = setAccount s.block c (fun a => { a with legit := false }) := by
  simp only [clearLegit]
  by_cases hlegit : (s.block.client c).account.legit = true
  · rw [if_pos hlegit]
  · rw [if_neg hlegit]
    have hsame : ({ (s.block.client c).account with legit := false } : Account) =
        (s.block.client c).account := by
      rw [← Bool.eq_false_iff.mpr hlegit]
    rw [setAccount, Block.modClient, hsame]
    simp only [Function.update_eq_self]

/-- The block part is `join_game` of the block. -/
theorem joinGame_block (s : JoinState) (env : Env) (c : ClientId) (l : LobbyHandle) :
    (joinGame s env c l).1.block = (BlockPackets.joinGame s.block env c l).1 ∧
      (joinGame s env c l).2 = (BlockPackets.joinGame s.block env c l).2 := by
  rw [joinGame, BlockPackets.joinGame]
  by_cases hprotect : (s.block.client c).account.gcProtect = true
  · rw [if_pos hprotect, if_pos hprotect]
    exact ⟨rfl, rfl⟩
  rw [if_neg hprotect, if_neg hprotect, changeLobby]
  generalize lobbyChangeLobby s.block env c l = t
  dsimp only
  by_cases hrefused : t.2 < 0 ∧ t.2 ≠ -15
  · rw [if_pos hrefused, if_pos hrefused]
    exact ⟨rfl, rfl⟩
  · rw [if_neg hrefused, if_neg hrefused]
    exact ⟨clearLegit_block _ c, rfl⟩

/-- Nothing has changed but the client's override flag and its request for a default lobby. -/
structure Traceless (s s' : JoinState) (c : ClientId) : Prop where
  lobby : s'.block.lobby = s.block.lobby
  lobbies : s'.block.lobbies = s.block.lobbies
  others : ∀ d, d ≠ c → s'.block.client d = s.block.client d
  client : ∃ override req, s'.block.client c =
    { s.block.client c with overrideGame := override, lobbyReq := req }
  shopping : s'.shopping = s.shopping
  itemIds : s'.itemIds = s.itemIds
  limitRefs : s'.limitRefs = s.limitRefs
  highestItem : s'.highestItem = s.highestItem

/-- `lobby_change_lobby` is called and refuses. -/
def Refused (s : JoinState) (env : Env) (c : ClientId) (l : LobbyHandle) : Prop :=
  (s.block.client c).account.gcProtect = false ∧ (changeLobby s env c l).2 ≠ 0

/-- A refused join leaves no trace, and `join_game` reports it. -/
def LeavesNoTrace (s : JoinState) (env : Env) (c : ClientId) (l : LobbyHandle) : Prop :=
  Refused s env c l → Traceless s (joinGame s env c l).1 c ∧ (joinGame s env c l).2 ≠ 0

/-- A default lobby with space that the client can see. -/
def OpenTo (b : Block) (c : ClientId) (h : LobbyHandle) : Prop :=
  ¬((b.client c).account.version = .dcv1 ∧ 10 < (b.lobby h).lobbyId) ∧
    hasRoom (b.lobby h).toRoom = true

/-- Some default lobby takes one more client. -/
def Vacancy (b : Block) (c : ClientId) (l : LobbyHandle) : Prop :=
  hasRoom (b.lobby l).toRoom = true ∨ ∃ h ∈ b.lobbies, OpenTo b c h

/-- A class that version 1 does not have, on the way into a game for version 1. -/
def ClassBarred (b : Block) (c : ClientId) (l : LobbyHandle) : Prop :=
  (b.lobby l).type = .game ∧ (b.lobby l).version = .dcv1 ∧ 8 < (b.client c).account.player.chClass

/-- The last branch of `join_game` finds everything as it would leave it: no legit mode, and item
ids that go on from the counter and end at it. -/
structure Settled (s : JoinState) (c : ClientId) (l : LobbyHandle) : Prop where
  legit : (s.block.client c).account.legit = false
  itemIds : ∀ i (h : i < (s.itemIds c).length), (s.itemIds c)[i] =
    firstItemId (s.block.client c).clientId (s.highestItem l (s.block.client c).clientId) +
      BitVec.ofNat 32 i
  highestItem : s.highestItem l (s.block.client c).clientId =
    firstItemId (s.block.client c).clientId (s.highestItem l (s.block.client c).clientId) +
      BitVec.ofNat 32 (s.itemIds c).length - 1

/-- A client in no lobby is not put into a default one without being told, and a client whose class
is barred has nothing that the last branch would change. -/
structure Clean (s : JoinState) (env : Env) (c : ClientId) (l : LobbyHandle) : Prop where
  told : (s.block.client c).curLobby = none → Vacancy s.block c l →
    env.joinSent = true ∧ env.arrivalSent = true
  settled : (s.block.client c).curLobby ≠ none → ClassBarred s.block c l → Settled s c l

/-- Under the counts of a sound room, a lobby with space has a free slot. -/
theorem freeSlot_of_spare {m : Room} (hm : m.Sound) (hcap : m.maxClients ≤ 12)
    (hspare : m.numClients < m.maxClients) : ∃ i, freeSlot m = some i := by
  rw [freeSlot]
  split_ifs
  · exact ⟨1, rfl⟩
  · cases hfind : (slots m).find? (fun i => m.clients i = none) with
    | some i => exact ⟨i, rfl⟩
    | none =>
      have hfull : ∀ i : Slot, (i : ℕ) < m.maxClients → (m.clients i).isSome = true := by
        intro i hi
        have hmem : i ∈ slots m := by
          rw [slots, List.mem_filter]
          exact ⟨List.mem_finRange i, decide_eq_true hi⟩
        have htaken := List.find?_eq_none.mp hfind i hmem
        rw [decide_eq_true_eq, ← ne_eq, Option.ne_none_iff_isSome] at htaken
        exact htaken
      have hcard : m.maxClients ≤ headcount m.clients := by
        rw [headcount_eq_card]
        have hsub : Finset.univ.filter (fun i : Slot => (i : ℕ) < m.maxClients) ⊆
            Finset.univ.filter (fun i => (m.clients i).isSome) := by
          intro i hi
          rw [Finset.mem_filter] at hi ⊢
          exact ⟨hi.1, hfull i hi.2⟩
        refine le_trans ?_ (Finset.card_le_card hsub)
        rw [Fin.card_filter_val_lt]
        omega
      have hcount := hm.count
      omega

/-- A lobby either takes the client or is full, and then nothing happens. -/
theorem lobbyAddClientLocked_full {b : Block} (hb : b.rooms.Sound) (hcap : Capped b.rooms)
    (now : ℕ) (c : ClientId) (h : LobbyHandle) :
    (b.lobby h).numClients < (b.lobby h).maxClients ∧ (lobbyAddClientLocked b now c h).2 = 0 ∨
      ¬(b.lobby h).numClients < (b.lobby h).maxClients ∧
        lobbyAddClientLocked b now c h = (b, -1) := by
  rw [lobbyAddClientLocked]
  by_cases hspare : (b.lobby h).numClients < (b.lobby h).maxClients
  · left
    rw [if_neg (not_le.mpr hspare)]
    have hroom : ((clearOnlyOne b h).lobby h).toRoom = b.rooms.room h := by
      rw [← clearOnlyOne_rooms]
      rfl
    obtain ⟨i, hi⟩ := freeSlot_of_spare (hb.room h) (hcap h) hspare
    dsimp only
    rw [hroom, hi]
    exact ⟨hspare, rfl⟩
  · right
    rw [if_pos (not_lt.mp hspare)]
    exact ⟨hspare, rfl⟩

theorem addIfRoom_cases {b : Block} (hb : b.rooms.Sound) (hcap : Capped b.rooms) (now : ℕ)
    (c : ClientId) (h : LobbyHandle) :
    hasRoom (b.lobby h).toRoom = true ∧ (addIfRoom b now c h).2 = 0 ∨
      ¬hasRoom (b.lobby h).toRoom = true ∧ addIfRoom b now c h = (b, -1) := by
  rw [addIfRoom]
  by_cases hroom : hasRoom (b.lobby h).toRoom = true
  · left
    rw [if_pos hroom]
    have hspare : (b.lobby h).numClients < (b.lobby h).maxClients := (of_decide_eq_true hroom).2
    rcases lobbyAddClientLocked_full hb hcap now c h with ⟨-, hok⟩ | ⟨hfull, -⟩
    · dsimp only
      rw [if_pos hok]
      exact ⟨hroom, rfl⟩
    · exact absurd hspare hfull
  · right
    rw [if_neg hroom]
    exact ⟨hroom, rfl⟩

theorem addToFirst_cases {b : Block} (hb : b.rooms.Sound) (hcap : Capped b.rooms) (now : ℕ)
    (c : ClientId) (hs : List LobbyHandle) :
    (∃ h ∈ hs, OpenTo b c h) ∧ (addToFirst now c hs b).2 = 0 ∨
      (¬∃ h ∈ hs, OpenTo b c h) ∧ addToFirst now c hs b = (b, 1) := by
  induction hs with
  | nil =>
    right
    exact ⟨by simp, rfl⟩
  | cons h hs ih =>
    rw [addToFirst, List.exists_mem_cons_iff]
    by_cases hhidden : (b.client c).account.version = .dcv1 ∧ 10 < (b.lobby h).lobbyId
    · have hclosed : ¬OpenTo b c h := fun hopen => hopen.1 hhidden
      rw [if_pos hhidden, or_iff_right hclosed]
      exact ih
    · rw [if_neg hhidden]
      rcases addIfRoom_cases hb hcap now c h with ⟨hroom, hok⟩ | ⟨hfull, hnone⟩
      · left
        dsimp only
        rw [if_pos hok]
        exact ⟨Or.inl ⟨hhidden, hroom⟩, rfl⟩
      · have hclosed : ¬OpenTo b c h := fun hopen => hfull hopen.2
        rw [hnone]
        dsimp only
        rw [if_neg (show ¬(-1 : Int) = 0 by decide), or_iff_right hclosed]
        exact ih

/-- `lobby_add_to_any` finds a place if there is one, and else forgets the request and nothing
more. -/
theorem lobbyAddToAny_cases {b : Block} (hb : b.rooms.Sound) (hcap : Capped b.rooms) (now : ℕ)
    (c : ClientId) (l : LobbyHandle) :
    Vacancy b c l ∧ (lobbyAddToAny b now c (some l)).2 = 0 ∨
      ¬Vacancy b c l ∧ lobbyAddToAny b now c (some l) =
        (b.modClient c (fun x => { x with lobbyReq := none }), 1) := by
  have hrooms : (b.modClient c (fun x => { x with lobbyReq := none })).rooms = b.rooms :=
    b.rooms_modClient_same rfl
  have hopen : ∀ h, OpenTo (b.modClient c (fun x => { x with lobbyReq := none })) c h ↔
      OpenTo b c h := by
    intro h
    rw [OpenTo, OpenTo, Block.client_modClient, Block.lobby_modClient]
  have hlobby : (b.modClient c (fun x => { x with lobbyReq := none })).lobby = b.lobby := rfl
  have hlobbies : (b.modClient c (fun x => { x with lobbyReq := none })).lobbies = b.lobbies := rfl
  rw [← hrooms] at hb hcap
  have htry := addIfRoom_cases hb hcap now c l
  have hloop := addToFirst_cases hb hcap now c b.lobbies
  simp only [hopen, hlobby] at hloop htry
  rw [lobbyAddToAny, Vacancy]
  dsimp only
  generalize b.modClient c (fun x => { x with lobbyReq := none }) = b₁ at *
  rcases htry with ⟨hroom, hok⟩ | ⟨hfull, hnone⟩
  · left
    rw [if_pos hok]
    exact ⟨Or.inl hroom, rfl⟩
  · rw [hnone]
    dsimp only
    rw [if_neg (show ¬(-1 : Int) = 0 by decide), or_iff_right hfull, hlobbies]
    exact hloop

theorem changeFromNowhere_of_vacancy {b : Block} (hb : b.rooms.Sound) (hcap : Capped b.rooms)
    (env : Env) (c : ClientId) (l : LobbyHandle) :
    Vacancy b c l ∧ (env.joinSent = true ∧ env.arrivalSent = true) ∧
        (changeFromNowhere b env c l).2 = 0 ∨
      Vacancy b c l ∧ ¬(env.joinSent = true ∧ env.arrivalSent = true) ∧
        (changeFromNowhere b env c l).2 = -11 ∧
        ((changeFromNowhere b env c l).1.client c).curLobby ≠ none ∨
      ¬Vacancy b c l ∧ changeFromNowhere b env c l =
        (b.modClient c (fun x => { x with lobbyReq := none }), -11) := by
  rw [changeFromNowhere]
  rcases lobbyAddToAny_cases hb hcap env.now c l with ⟨hvacancy, hok⟩ | ⟨hfull, hnone⟩
  · have hplaced : ((lobbyAddToAny b env.now c (some l)).1.client c).curLobby ≠ none := by
      rcases lobbyAddToAny_attempted hb env.now c (some l) with ⟨hno, -⟩ | ⟨-, k, i, hsit, -⟩
      · exact absurd hok hno
      · change ((lobbyAddToAny b env.now c (some l)).1.rooms.presence c).curLobby ≠ none
        rw [hsit, Rooms.curLobby_sit, if_pos rfl]
        exact Option.some_ne_none k
    generalize lobbyAddToAny b env.now c (some l) = t at *
    dsimp only
    by_cases hsent : env.joinSent = true ∧ env.arrivalSent = true
    · left
      rw [if_neg (by simp [hok, hsent.1, hsent.2])]
      exact ⟨hvacancy, hsent, rfl⟩
    · right
      left
      have hlost : t.2 ≠ 0 ∨ (!env.joinSent) = true ∨ (!env.arrivalSent) = true := by
        right
        rw [not_and_or] at hsent
        simpa using hsent
      rw [if_pos hlost]
      exact ⟨hvacancy, hsent, rfl, hplaced⟩
  · right
    right
    rw [hnone]
    exact ⟨hfull, if_pos (Or.inl (by decide))⟩

/-- The class check is the first one, and the only one with its code. -/
theorem changeRefusal_cases (env : Env) (x : ShipClient) (override : Bool) (req : Lobby) :
    (req.type = .game ∧ req.version = .dcv1 ∧ 8 < x.account.player.chClass) ∧
        changeRefusal env x override req = some (-15) ∨
      ¬(req.type = .game ∧ req.version = .dcv1 ∧ 8 < x.account.player.chClass) ∧
        ∀ rv, changeRefusal env x override req = some rv → rv ≠ -15 := by
  by_cases hbarred : req.type = .game ∧ req.version = .dcv1 ∧ 8 < x.account.player.chClass
  · left
    refine ⟨hbarred, ?_⟩
    rw [changeRefusal, changeChecks, List.find?_cons, decide_eq_true hbarred]
    rfl
  · right
    refine ⟨hbarred, fun rv hrv => ?_⟩
    rw [changeRefusal, changeChecks, List.find?_cons, decide_eq_false hbarred] at hrv
    obtain ⟨check, hfind, rfl⟩ := Option.map_eq_some_iff.mp hrv
    have hmem := List.mem_map_of_mem (f := Prod.snd) (List.mem_of_find?_eq_some hfind)
    intro hcode
    rw [hcode] at hmem
    simp at hmem

/-- A client that nothing else keeps out gets into another lobby just if there is room. -/
theorem changeToOther_full {b : Block} (hb : b.rooms.Sound) (hcap : Capped b.rooms) (env : Env)
    {c : ClientId} {k l : LobbyHandle} (hcur : (b.client c).curLobby = some k) (hne : k ≠ l) :
    (b.lobby l).numClients < (b.lobby l).maxClients ∧ (changeToOther b env c k l).2 = 0 ∨
      ¬(b.lobby l).numClients < (b.lobby l).maxClients ∧
        changeToOther b env c k l = (b, -1) := by
  rw [changeToOther]
  rcases lobbyAddClientLocked_full hb hcap env.now c l with ⟨hspare, hok⟩ | ⟨hfull, hsame⟩
  · left
    obtain hno | ⟨i, -, hsit, -⟩ := lobbyAddClientLocked_cases hb env.now c l
    · rw [hno.1] at hok
      exact absurd hok (by decide)
    generalize lobbyAddClientLocked b env.now c l = t at *
    have hseat : (t.1.rooms.room k).clients (b.client c).clientId = some c := by
      have hroom : t.1.rooms.room k = b.rooms.room k := by
        rw [hsit]
        simp [Rooms.sit, Rooms.setRoom, Rooms.setPresence, hne]
      rw [hroom]
      exact hb.clients_of_curLobby hcur
    obtain ⟨v, -, -, hrv⟩ := lobbyRemoveClientLocked_cases env.now hseat
    have hleft : ¬(lobbyRemoveClientLocked t.1 env.now c (b.client c).clientId k).2 < 0 := by
      rw [hrv]
      split_ifs <;> decide
    dsimp only
    rw [if_neg (fun h => h hok), if_neg hleft]
    exact ⟨hspare, rfl⟩
  · right
    rw [hsame]
    exact ⟨hfull, if_pos (by decide)⟩

/-- A client in a lobby is refused for its class, or refused without a trace, or moved. -/
theorem lobbyChangeLobby_of_some {b : Block} (hb : b.rooms.Sound) (hcap : Capped b.rooms)
    (env : Env) {c : ClientId} {k : LobbyHandle} (hcur : (b.client c).curLobby = some k)
    (l : LobbyHandle) :
    ClassBarred b c l ∧ lobbyChangeLobby b env c l =
        (b.modClient c (fun x => { x with overrideGame := false }), -15) ∨
      ¬ClassBarred b c l ∧ ((lobbyChangeLobby b env c l).2 = 0 ∨
        ∃ rv : Int, rv < 0 ∧ rv ≠ -15 ∧ lobbyChangeLobby b env c l =
          (b.modClient c (fun x => { x with overrideGame := false }), rv)) := by
  have hrooms : (b.modClient c (fun x => { x with overrideGame := false })).rooms = b.rooms :=
    b.rooms_modClient_same rfl
  have hlobby : (b.modClient c (fun x => { x with overrideGame := false })).lobby = b.lobby := rfl
  have hx : (b.modClient c (fun x => { x with overrideGame := false })).client c =
      { b.client c with overrideGame := false } := b.client_modClient c _
  have hcases := changeRefusal_cases env { b.client c with overrideGame := false }
    (b.client c).overrideGame (b.lobby l)
  rw [lobbyChangeLobby, ClassBarred]
  rw [hx, hlobby, hcur]
  rw [← hrooms] at hb hcap
  generalize hb₀ : b.modClient c (fun x => { x with overrideGame := false }) = b₀ at *
  have hcur₀ : (b₀.client c).curLobby = some k := by
    rw [hx]
    exact hcur
  cases hrefusal : changeRefusal env { b.client c with overrideGame := false }
      (b.client c).overrideGame (b.lobby l) with
  | some rv =>
    rw [hrefusal] at hcases
    rcases hcases with ⟨hbarred, hcode⟩ | ⟨hfree, hother⟩
    · cases hcode
      exact Or.inl ⟨hbarred, rfl⟩
    · exact Or.inr ⟨hfree, Or.inr ⟨rv, changeRefusal_neg hrefusal, hother rv rfl, rfl⟩⟩
  | none =>
    rw [hrefusal] at hcases
    rcases hcases with ⟨-, hcode⟩ | ⟨hfree, -⟩
    · cases hcode
    right
    refine ⟨hfree, ?_⟩
    dsimp only
    by_cases hsame : k = l
    · rw [if_pos hsame]
      exact Or.inl rfl
    rw [if_neg hsame]
    rcases changeToOther_full hb hcap env hcur₀ hsame with ⟨-, hok⟩ | ⟨-, hfull⟩
    · exact Or.inl hok
    · right
      rw [hfull]
      exact ⟨-1, by decide, by decide, rfl⟩

theorem mapIdx_eq_self {α : Type*} (l : List α) (f : ℕ → α) :
    l.mapIdx (fun i _ => f i) = l ↔ ∀ i (h : i < l.length), l[i] = f i := by
  constructor
  · intro hsame i hi
    have hget := congrArg (fun m : List α => m[i]?) hsame
    simp only [List.getElem?_mapIdx, List.getElem?_eq_getElem hi, Option.map_some,
      Option.some.injEq] at hget
    exact hget.symm
  · intro hall
    apply List.ext_getElem
    · rw [List.length_mapIdx]
    · intro i hi hi'
      rw [List.getElem_mapIdx, hall i hi']

/-- The last branch leaves no trace if it finds nothing to do. -/
theorem settled_iff {s : JoinState} {c : ClientId} (l : LobbyHandle) {b : Block}
    (hb : b = s.block.modClient c (fun x => { x with overrideGame := false })) :
    Traceless s (renumber (clearLegit { s with block := b } c) c l) c ↔ Settled s c l := by
  have hclient : b.client c = { s.block.client c with overrideGame := false } := by
    rw [hb, Block.client_modClient]
  have hothers : ∀ d, d ≠ c → b.client d = s.block.client d := by
    intro d hd
    rw [hb]
    simp [Block.modClient, hd]
  by_cases hlegit : (s.block.client c).account.legit = true
  · constructor
    · intro htrace
      obtain ⟨override, req, hsame⟩ := htrace.client
      have hcleared : ((renumber (clearLegit { s with block := b } c) c l).block.client
          c).account.legit = false := by
        change ((clearLegit { s with block := b } c).block.client c).account.legit = false
        rw [clearLegit_block, setAccount, Block.client_modClient]
      rw [hsame] at hcleared
      exact absurd hlegit (Bool.eq_false_iff.mp hcleared)
    · intro hsettled
      exact absurd hlegit (Bool.eq_false_iff.mp hsettled.legit)
  · have hkept : clearLegit { s with block := b } c = { s with block := b } := by
      have hno : ¬(b.client c).account.legit = true := by
        rw [hclient]
        exact hlegit
      rw [clearLegit]
      exact if_neg hno
    have hslot : (b.client c).clientId = (s.block.client c).clientId := by
      rw [hclient]
    rw [hkept]
    constructor
    · intro htrace
      have hids := htrace.itemIds
      have hhighest := htrace.highestItem
      simp only [renumber, hslot, Function.update_eq_self_iff] at hids hhighest
      exact ⟨Bool.eq_false_iff.mpr hlegit, (mapIdx_eq_self _ _).mp hids, hhighest.symm⟩
    · intro hsettled
      refine ⟨?_, ?_, hothers, ⟨false, _, hclient⟩, rfl, ?_, rfl, ?_⟩
      · change b.lobby = s.block.lobby
        rw [hb, Block.lobby_modClient]
      · change b.lobbies = s.block.lobbies
        rw [hb, Block.lobbies_modClient]
      · simp only [renumber, hslot, Function.update_eq_self_iff]
        exact (mapIdx_eq_self _ _).mpr hsettled.itemIds
      · simp only [renumber, hslot, Function.update_eq_self_iff]
        exact hsettled.highestItem.symm

/-- A block in which only the client's override flag or request has changed. -/
theorem traceless_of_modClient {s s' : JoinState} {c : ClientId} {b : Block}
    {f : ShipClient → ShipClient} (hs : s' = { s with block := b })
    (hb : b = s.block.modClient c f)
    (hf : ∃ override req, f (s.block.client c) =
      { s.block.client c with overrideGame := override, lobbyReq := req }) :
    Traceless s s' c := by
  rw [hs]
  refine ⟨?_, ?_, ?_, ?_, rfl, rfl, rfl, rfl⟩
  · rw [hb, Block.lobby_modClient]
  · rw [hb, Block.lobbies_modClient]
  · intro d hd
    rw [hb]
    simp [Block.modClient, hd]
  · rw [hb, Block.client_modClient]
    exact hf

theorem leavesNoTrace_nowhere {s : JoinState} (hb : s.block.rooms.Sound)
    (hcap : Capped s.block.rooms) (env : Env) {c : ClientId}
    (hprotect : (s.block.client c).account.gcProtect = false)
    (hcur : (s.block.client c).curLobby = none) (l : LobbyHandle) :
    LeavesNoTrace s env c l ↔
      (Vacancy s.block c l → env.joinSent = true ∧ env.arrivalSent = true) := by
  have hopen : ¬(s.block.client c).account.gcProtect = true := Bool.eq_false_iff.mp hprotect
  have hrooms : (s.block.modClient c (fun x => { x with overrideGame := false })).rooms =
      s.block.rooms := s.block.rooms_modClient_same rfl
  have hx := s.block.client_modClient c (fun x => { x with overrideGame := false })
  have hvacant : Vacancy (s.block.modClient c (fun x => { x with overrideGame := false })) c l ↔
      Vacancy s.block c l := by
    simp only [Vacancy, OpenTo, hx, Block.lobby_modClient, Block.lobbies_modClient]
  rw [← hrooms] at hb hcap
  have hcases := changeFromNowhere_of_vacancy hb hcap env c l
  have hchange : lobbyChangeLobby s.block env c l = changeFromNowhere
      (s.block.modClient c (fun x => { x with overrideGame := false })) env c l := by
    rw [lobbyChangeLobby, hx, hcur]
  rw [LeavesNoTrace, Refused, joinGame, if_neg hopen, changeLobby, hchange]
  rw [hvacant] at hcases
  rcases hcases with ⟨-, hsent, hok⟩ | ⟨hvacancy, hunsent, hlost, hplaced⟩ | ⟨hfull, hnone⟩
  · constructor
    · intro _ _
      exact hsent
    · intro _ hrefused
      exact absurd hok hrefused.2
  · generalize changeFromNowhere _ env c l = t at *
    dsimp only
    rw [if_pos ⟨by rw [hlost]; decide, by rw [hlost]; decide⟩]
    constructor
    · intro htrace
      have hrefused : t.2 ≠ 0 := by
        rw [hlost]
        decide
      obtain ⟨override, req, hsame⟩ := (htrace ⟨hprotect, hrefused⟩).1.client
      have hstill : (t.1.client c).curLobby = none := by
        change t.1.client c = _ at hsame
        rw [hsame]
        exact hcur
      exact absurd hstill hplaced
    · intro hsent
      exact absurd (hsent hvacancy) hunsent
  · rw [hnone]
    dsimp only
    rw [if_pos (by decide), if_neg (fun h => absurd h.2 (by decide))]
    constructor
    · intro _ hvacancy
      exact absurd hvacancy hfull
    · intro _ _
      refine ⟨traceless_of_modClient (f := fun x => { x with overrideGame := false, lobbyReq := none })
        rfl ?_ ⟨false, none, rfl⟩, show (-11 : Int) ≠ 0 by decide⟩
      simp [Block.modClient]

theorem leavesNoTrace_somewhere {s : JoinState} (hb : s.block.rooms.Sound)
    (hcap : Capped s.block.rooms) (env : Env) {c : ClientId} {k : LobbyHandle}
    (hprotect : (s.block.client c).account.gcProtect = false)
    (hcur : (s.block.client c).curLobby = some k) (l : LobbyHandle) :
    LeavesNoTrace s env c l ↔ (ClassBarred s.block c l → Settled s c l) := by
  have hopen : ¬(s.block.client c).account.gcProtect = true := Bool.eq_false_iff.mp hprotect
  have hcases := lobbyChangeLobby_of_some hb hcap env hcur l
  rw [LeavesNoTrace, Refused, joinGame, if_neg hopen, changeLobby]
  generalize hmoved : lobbyChangeLobby s.block env c l = t at *
  dsimp only
  rcases hcases with ⟨hbarred, ht⟩ | ⟨hfree, hok | ⟨rv, hneg, hcode, ht⟩⟩
  · rw [ht]
    dsimp only
    rw [if_neg (show ¬((-15 : Int) < 0 ∧ (-15 : Int) ≠ -15) by decide),
      if_neg (fun h => absurd h.2 (by decide))]
    constructor
    · intro htrace _
      exact (settled_iff l rfl).mp (htrace ⟨hprotect, by decide⟩).1
    · intro hsettled _
      exact ⟨(settled_iff l rfl).mpr (hsettled hbarred), show (-15 : Int) ≠ 0 by decide⟩
  · constructor
    · intro _ hbarred
      exact absurd hbarred hfree
    · intro _ hrefused
      exact absurd hok hrefused.2
  · rw [ht]
    dsimp only
    have hnonzero : rv ≠ 0 := by omega
    rw [if_pos ⟨hneg, hcode⟩, if_neg (fun h => hnonzero h.2)]
    constructor
    · intro _ hbarred
      exact absurd hbarred hfree
    · intro _ _
      exact ⟨traceless_of_modClient rfl rfl ⟨false, _, rfl⟩, hnonzero⟩

/-- Client 0 is in a game for version 1; client 1 plays version 2, as a class of that version, and
is in a lobby. -/
def barredClass : List CallEvent :=
  (obliging [.charData 0 false newcomer, .gameCreate 0 (gameWith []), .doneBurst 0,
    .account 1 { ShipClient.fresh.account with version := .dcv2, legit := true, limits := true },
    .charData 1 false { newcomer with chClass := 9 }]).map (fun e => ⟨e.env, .packet e.action⟩)

/-- Client 1 carries two items, and no item of the game has been numbered. -/
def barredState : JoinState where
  block := barredClass.foldl callNext Block.start
  shopping _ := false
  itemIds c := if c = 1 then [0x00210000, 0x00210001] else []
  limitRefs c := if c = 1 then 1 else 0
  highestItem _ _ := 0

end ShipServer.RefusedJoins
