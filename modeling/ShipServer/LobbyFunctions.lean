import ShipServer.LobbyState

set_option autoImplicit false

namespace ShipServer.LobbyFunctions

open Versions LobbyRooms LobbyState

/-- What the lobby code asks the rest of the ship, the system and its libraries. The results of
packet handlers and sends come in the order of the calls. -/
structure Env where
  now : ℕ
  playerLegit : Bool
  joinSent : Bool
  arrivalSent : Bool
  result : ℕ → Int
  beyond : Bool
  allocated : Bool
  enemiesLoaded : Bool
  defLimits : Bool
  legitPassed : Bool
  utf16ToAscii : List UInt8 → List UInt8

/-- The slots that a lobby uses, in order. -/
def slots (m : Room) : List Slot :=
  (List.finRange 12).filter (fun i => i < m.maxClients)

/-- The number of leading challenge stages with a recorded time. -/
def stagesDone {n : ℕ} (times : Vector ℕ n) : ℕ :=
  (times.toList.takeWhile (· ≠ 0)).length

/-- One turn of the loop of `lobby_find_max_challenge`. The state is lost when the source
returns from inside the loop. -/
def challengeStep (b : Block) (m : Room) (lev : Option (ℕ × ℕ)) (j : Slot) : Option (ℕ × ℕ) :=
  match lev, m.clients j with
  | none, _ => none
  | some lev, none => some lev
  | some (minLev, minLev2), some c =>
    let pl := (b.client c).account.player
    match (b.client c).account.version with
    | .dcv2 | .pc => some (min (stagesDone pl.times) minLev, 0)
    | .gc | .bb | .xbox =>
      some (min (stagesDone pl.times) minLev, min (stagesDone pl.timesEp2) minLev2)
    | .dcv1 | .ep3 => none

def lobbyFindMaxChallenge (b : Block) (l : Lobby) : ℕ :=
  if l.challenge then
    match (slots l.toRoom).foldl (challengeStep b l.toRoom) (some (255, 255)) with
    | none => 0xFF
    | some (minLev, minLev2) =>
      if l.version < .gc then (minLev + 1) % 256
      else ((minLev + 1) ||| ((minLev2 + 1) <<< 4)) % 256
  else 0

/-- `if(l->challenge) l->max_chal = lobby_find_max_challenge(l)`. -/
def updateMaxChal (b : Block) (h : LobbyHandle) : Block :=
  if (b.lobby h).challenge then
    b.modLobby h (fun l => { l with maxChal := lobbyFindMaxChallenge b l })
  else b

/-- The slot for a newcomer: slot 1 goes first in the teams of the older versions. -/
def freeSlot (m : Room) : Option Slot :=
  if m.clients 1 = none ∧ m.version < .gc ∧ m.type = .game then some 1
  else (slots m).find? (fun i => m.clients i = none)

/-- The client is put into a slot that has been found for it. -/
def putClient (b : Block) (now : ℕ) (c : ClientId) (h : LobbyHandle) (i : Slot) : Block :=
  let b := b.modClient c (fun x => { x with curLobby := some h, clientId := i, joinTime := now })
  let b := b.modLobby h (fun l => { l with toRoom := l.toRoom.enter c i })
  let b := updateMaxChal b h
  if (b.lobby h).numClients = 1 then b.modLobby h (fun l => { l with leaderId := i }) else b

/-- `if(l->num_clients) l->flags &= ~LOBBY_FLAG_ONLY_ONE`. -/
def clearOnlyOne (b : Block) (h : LobbyHandle) : Block :=
  if (b.lobby h).numClients = 0 then b
  else b.modLobby h (fun l => { l with onlyOne := false })

def lobbyAddClientLocked (b : Block) (now : ℕ) (c : ClientId) (h : LobbyHandle) : Block × Int :=
  if ((b.lobby h).maxClients : ℤ) ≤ (b.lobby h).numClients then
    (b, -1)
  else
    let b := clearOnlyOne b h
    match freeSlot (b.lobby h).toRoom with
    | none => (b, -1)
    | some i => (putClient b now c h i, 0)

/-- One turn of the election loops: the slot and the join time of the best client so far. -/
def electStep (b : Block) (l : Lobby) (eligible : ShipClient → Bool) (best : Option Slot × ℕ)
    (i : Slot) : Option Slot × ℕ :=
  match l.clients i with
  | none => best
  | some d =>
    if (i : ℕ) ≠ l.leaderId ∧ (b.client d).joinTime < best.2 ∧ eligible (b.client d) then
      (some i, (b.client d).joinTime)
    else best

def lobbyElectLeaderLocked (b : Block) (now : ℕ) (l : Lobby) : Option Slot :=
  ((slots l.toRoom).foldl (electStep b l (fun _ => true)) (none, now)).1

/-- Without a leader on Dreamcast or PC the game stops being a cross-platform one. -/
def lobbyElectLeaderCrossLocked (b : Block) (now : ℕ) (h : LobbyHandle) : Block × Option Slot :=
  let l := b.lobby h
  match ((slots l.toRoom).foldl
      (electStep b l (fun x => x.account.version < .gc)) (none, now)).1 with
  | some i => (b, some i)
  | none =>
    (b.modLobby h (fun l =>
        { l with version := .gc, episode := 1, settings := { l.settings with gcAllowed := false } }),
      lobbyElectLeaderLocked b now l)

/-- The client that leaves was the leader. -/
def replaceLeader (b : Block) (now : ℕ) (h : LobbyHandle) : Block :=
  let l := b.lobby h
  let (b, newLeader) :=
    if l.version < .gc ∧ l.settings.gcAllowed then lobbyElectLeaderCrossLocked b now h
    else (b, lobbyElectLeaderLocked b now l)
  b.modLobby h (fun l => { l with leaderId := newLeader.elim 0 Fin.val })

/-- A slot of the lobby is emptied. -/
def emptySlot (b : Block) (now : ℕ) (clientId : Slot) (h : LobbyHandle) : Block :=
  let b := if (clientId : ℕ) = (b.lobby h).leaderId then replaceLeader b now h else b
  updateMaxChal
    (b.modLobby h (fun l => { l with toRoom := l.toRoom.release clientId l.version })) h

/-- `if(c->cur_lobby == l)`, the client is in no lobby any more. -/
def clearCurLobby (b : Block) (c : ClientId) (h : LobbyHandle) : Block :=
  if (b.client c).curLobby = some h then
    b.modClient c (fun x => { x with curLobby := none, clientId := 0 })
  else b

/-- The result is 1 if the lobby has to be destroyed now. -/
def lobbyRemoveClientLocked (b : Block) (now : ℕ) (c : ClientId) (clientId : Slot)
    (h : LobbyHandle) : Block × Int :=
  if (b.lobby h).clients clientId = some c then
    let b := clearCurLobby (emptySlot b now clientId h) c h
    (b, if (b.lobby h).type = .lobby then 0 else if (b.lobby h).numClients = 0 then 1 else 0)
  else
    (b, -1)

/-- `lobby_destroy_locked` of a lobby that is on the list. -/
def lobbyDestroyLocked (b : Block) (h : LobbyHandle) : Block :=
  let b :=
    { b with
      lobbies := b.lobbies.erase h
      numGames := if (b.lobby h).type ≠ LobbyType.lobby then b.numGames - 1 else b.numGames }
  b.modLobby h (fun l => { l with pktQueue := [], burstQueue := [] })

/-- A default lobby with space, as `lobby_add_to_any` tests for it. -/
def hasRoom (m : Room) : Bool :=
  m.type = .lobby ∧ m.numClients < m.maxClients

/-- One attempt of `lobby_add_to_any`. -/
def addIfRoom (b : Block) (now : ℕ) (c : ClientId) (h : LobbyHandle) : Block × Int :=
  if hasRoom (b.lobby h).toRoom then
    let (b, rv) := lobbyAddClientLocked b now c h
    if rv = 0 then (b.modClient c (fun x => { x with lobbyId := (b.lobby h).lobbyId }), 0)
    else (b, rv)
  else
    (b, -1)

/-- The loop of `lobby_add_to_any` over the lobbies of the block. -/
def addToFirst (now : ℕ) (c : ClientId) : List LobbyHandle → Block → Block × Int
  | [], b => (b, 1)
  | h :: hs, b =>
    if (b.client c).account.version = .dcv1 ∧ 10 < (b.lobby h).lobbyId then
      addToFirst now c hs b
    else
      let (b, rv) := addIfRoom b now c h
      if rv = 0 then (b, 0) else addToFirst now c hs b

def lobbyAddToAny (b : Block) (now : ℕ) (c : ClientId) (req : Option LobbyHandle) : Block × Int :=
  match req with
  | none => addToFirst now c b.lobbies b
  | some h =>
    let b := b.modClient c (fun x => { x with lobbyReq := none })
    let (b, rv) := addIfRoom b now c h
    if rv = 0 then (b, 0) else addToFirst now c b.lobbies b

/-- The item check of `lobby_check_client_legit` is the environment's answer. -/
def lobbyCheckClientLegit (env : Env) (x : ShipClient) : Bool :=
  match x.account.version with
  | .dcv1 | .dcv2 | .pc | .gc | .xbox => env.playerLegit
  | .ep3 | .bb => true

/-- The checks of `lobby_change_lobby`, in order: when each one refuses, and with which code.
`DCPCClassMax` is 8. -/
def changeChecks (env : Env) (x : ShipClient) (override : Bool) (req : Lobby) :
    List (Bool × Int) :=
  let s := req.settings
  let level := x.account.player.level + 1
  let version := x.account.version
  [(req.type = .game ∧ req.version = .dcv1 ∧ 8 < x.account.player.chClass, -15),
   (s.singlePlayer ∧ req.numClients ≠ 0, -14),
   (s.pcOnly ∧ version ≠ .pc ∧ !override, -13),
   (s.v1Only ∧ version ≠ .dcv1 ∧ !override, -12),
   (s.dcOnly ∧ version ≠ .dcv1 ∧ version ≠ .dcv2 ∧ !override, -11),
   (s.tempUnavail, -10),
   (req.bursting, -3),
   (s.questing ∧ !s.qJoin, -7),
   (s.questSel, -8),
   (level < s.minLevel ∧ !override, -4),
   (s.maxLevel < level ∧ !override, -5),
   (version = .dcv1 ∧ req.v2, -6),
   (req.type = .game ∧ s.legitMode ∧ !lobbyCheckClientLegit env x ∧ !override, -9)]

/-- The code of the first check that refuses. -/
def changeRefusal (env : Env) (x : ShipClient) (override : Bool) (req : Lobby) : Option Int :=
  ((changeChecks env x override req).find? Prod.fst).map Prod.snd

/-- The client is told about its new lobby; in a game it starts to burst. -/
def settle (b : Block) (c : ClientId) : Block :=
  match (b.client c).curLobby with
  | none => b
  | some h =>
    if (b.lobby h).type = .lobby then
      b.modClient c (fun x => { x with lobbyId := (b.lobby h).lobbyId })
    else
      (b.modLobby h (fun l => { l with bursting := true })).modClient c
        (fun x => { x with bursting := true })

/-- The part of `lobby_change_lobby` for a client that is in no lobby. -/
def changeFromNowhere (b : Block) (env : Env) (c : ClientId) (req : LobbyHandle) : Block × Int :=
  let (b, rv) := lobbyAddToAny b env.now c (some req)
  if rv ≠ 0 ∨ !env.joinSent ∨ !env.arrivalSent then (b, -11) else (b, 0)

/-- The part of `lobby_change_lobby` for a client that nothing keeps from another lobby: it is
added to the new one first. -/
def changeToOther (b : Block) (env : Env) (c : ClientId) (l req : LobbyHandle) : Block × Int :=
  let oldCid := (b.client c).clientId
  let (b, rv) := lobbyAddClientLocked b env.now c req
  if rv ≠ 0 then
    (b, -1)
  else
    let (b, deleteLobby) := lobbyRemoveClientLocked b env.now c oldCid l
    if deleteLobby < 0 then
      (b, -2)
    else
      let b := settle b c
      (if deleteLobby = 0 then b else lobbyDestroyLocked b l, 0)

def lobbyChangeLobby (b : Block) (env : Env) (c : ClientId) (req : LobbyHandle) : Block × Int :=
  let override := (b.client c).overrideGame
  let b := b.modClient c (fun x => { x with overrideGame := false })
  match (b.client c).curLobby with
  | none => changeFromNowhere b env c req
  | some l =>
    match changeRefusal env (b.client c) override (b.lobby req) with
    | some rv => (b, rv)
    | none => if l = req then (settle b c, 0) else changeToOther b env c l req

/-- The string that `strncpy` copies out of a field, at most `n` bytes of it. -/
def strncpy (n : ℕ) (bytes : List UInt8) : List UInt8 :=
  (bytes.takeWhile (· ≠ 0)).take n

def LobbySettings.initial (minLevel maxLevel : ℕ) : LobbySettings :=
  { questing := false, questSel := false, tempUnavail := false, legitMode := false
    dcOnly := false, pcOnly := false, v1Only := false, gcAllowed := false
    singlePlayer := false, qJoin := false, minLevel := minLevel, maxLevel := maxLevel }

/-- A lobby as `memset` leaves it. -/
def Lobby.zero (type : LobbyType) (lobbyId maxClients minLevel maxLevel : ℕ) : Lobby :=
  { type := type, version := .dcv1, maxClients := maxClients, numClients := 0
    clients := fun _ => none, bursting := false, passwd := [], lobbyId := lobbyId, leaderId := 0
    challenge := false, v2 := false, episode := 0, maxChal := 0, onlyOne := false
    settings := LobbySettings.initial minLevel maxLevel, pktQueue := [], burstQueue := [] }

def lobbyCreateDefault (lobbyId : ℕ) : Lobby :=
  Lobby.zero .lobby lobbyId 12 0 9001

def gameRequiredLevel : Fin 4 → ℕ :=
  ![1, 20, 40, 80]

/-- `block_get_lobby`, and the same loop in `process_change_lobby`. -/
def blockGetLobby (b : Block) (id : ℕ) : Option LobbyHandle :=
  b.lobbies.find? (fun h => (b.lobby h).lobbyId = id)

/-- The searches for an unused lobby id. One step more than there are lobbies is enough. -/
def unusedId (b : Block) (step : ℕ → ℕ) : ℕ → ℕ → ℕ
  | 0, id => id
  | n + 1, id => if blockGetLobby b id = none then id else unusedId b step n (step id)

/-- The arguments of `lobby_create_game`. -/
structure GameArgs where
  passwd : List UInt8
  difficulty : Fin 4
  battle : Bool
  chal : Bool
  v2 : Bool
  version : ClientVersion
  episode : ℕ
  singlePlayer : Bool

/-- An Xbox game counts as a Gamecube one. -/
def GameArgs.platform (a : GameArgs) : ClientVersion :=
  if a.version = .xbox then .gc else a.version

def newGame (a : GameArgs) (id : ℕ) (legit : Bool) : Lobby :=
  { Lobby.zero .game id (if a.singlePlayer then 1 else 4) 0 0 with
    version := if a.platform = .dcv2 ∧ !a.v2 then .dcv1 else a.platform
    passwd := strncpy 64 a.passwd
    leaderId := 1
    challenge := a.chal
    v2 := a.v2
    episode := a.episode
    maxChal := 0xFF
    onlyOne := true
    settings := { LobbySettings.initial (gameRequiredLevel a.difficulty) 200 with
      legitMode := legit
      singlePlayer := a.singlePlayer } }

/-- The lobby structure is filled in, and its creator's password is on record. -/
def addLobby (b : Block) (c : ClientId) (l : Lobby) : Block :=
  { b with
    lobby := Function.update b.lobby b.nextLobby l
    nextLobby := b.nextLobby + 1
    submitted := Function.update b.submitted c
      (Function.update (b.submitted c) b.nextLobby (some l.passwd)) }

def listLobby (b : Block) (h : LobbyHandle) : Block :=
  { b with lobbies := b.lobbies ++ [h], numGames := b.numGames + 1 }

def setAccount (b : Block) (c : ClientId) (f : Account → Account) : Block :=
  b.modClient c (fun x => { x with account := f x.account })

/-- The next search for an id starts after this one. -/
def takeId (b : Block) (id : ℕ) : Block :=
  { b with nextId := if id ≠ 0xFFFF then id + 1 else 0x20 }

/-- A game in legit mode takes its creator's reference to the legit list. -/
def stealLimits (b : Block) (c : ClientId) : Block :=
  if (b.client c).account.legit ∧ (b.client c).account.limits then
    setAccount b c (fun a => { a with legit := false, limits := false })
  else b

/-- The games that are put on the list right away: a PC game may have to wait for its type. -/
def ListedAtOnce (x : Account) (a : GameArgs) : Prop :=
  a.platform ≠ .pc ∨ a.battle = true ∨ a.chal = true ∨ a.difficulty = 3 ∨ x.isNte = true

instance (x : Account) (a : GameArgs) : Decidable (ListedAtOnce x a) :=
  inferInstanceAs (Decidable (_ ∨ _))

def lobbyCreateGame (b : Block) (env : Env) (c : ClientId) (a : GameArgs) :
    Block × Option LobbyHandle :=
  let x := (b.client c).account
  let id := unusedId b (fun id => if 0xFFFF < id + 1 then 0x20 else id + 1)
    (b.lobbies.length + 1) b.nextId
  let b := stealLimits (takeId b id) c
  if env.enemiesLoaded = false then
    (b, none)
  else
    let h := b.nextLobby
    let b := addLobby b c (newGame a id (x.legit && x.limits))
    (if ListedAtOnce x a then listLobby b h else b, some h)

def newEp3Game (passwd : List UInt8) (id : ℕ) : Lobby :=
  { Lobby.zero .ep3Game id 4 1 200 with
    version := .ep3
    passwd := strncpy 16 passwd
    episode := 3 }

def lobbyCreateEp3Game (b : Block) (c : ClientId) (passwd : List UInt8) :
    Block × LobbyHandle :=
  let h := b.nextLobby
  let id := unusedId b (· + 1) (b.lobbies.length + 1) 0x21
  (listLobby (addLobby b c (newEp3Game passwd id)) h, h)

end ShipServer.LobbyFunctions
