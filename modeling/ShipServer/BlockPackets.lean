import ShipServer.DeferredPackets

set_option autoImplicit false

namespace ShipServer.BlockPackets

open Versions LobbyRooms LobbyState LobbyFunctions DeferredPackets

/-- A client record that a connection starts with, or that nobody uses. -/
def ShipClient.fresh : ShipClient :=
  { curLobby := none, clientId := 0, bursting := false, createLobby := none
    account :=
      { version := .dcv1, isNte := false, gcProtect := false, localGm := false
        alwaysLegit := false, legit := false, limits := false
        player :=
          { level := 0, chClass := 0, times := Vector.replicate 9 0
            timesEp2 := Vector.replicate 5 0 } }
    overrideGame := false, gotChar := false, waitQping := false, joinTime := 0, lobbyId := 0
    lobbyReq := none }

def lobbyDestroyNoremove (b : Block) (h : LobbyHandle) : Block :=
  b.modLobby h (fun l => { l with pktQueue := [], burstQueue := [] })

/-- A disconnected client is taken out of its lobby, and its record is freed. -/
def disconnect (b : Block) (env : Env) (c : ClientId) : Block :=
  let b := (lobbyRemovePlayer b env c).1
  let b := match (b.client c).createLobby with
    | none => b
    | some h => lobbyDestroyNoremove b h
  b.modClient c (fun _ => ShipClient.fresh)

/-- The "Meet the User" part of the login handlers. -/
def meetTheUser (b : Block) (c : ClientId) (menu : ℕ) : Block :=
  match b.lobbies.find? (fun h => (b.lobby h).lobbyId = menu ∧ (b.lobby h).type = .lobby) with
  | none => b
  | some h => b.modClient c (fun x => { x with lobbyReq := some h })

/-- The end of the character data handlers: a client that is in no lobby is added to one. -/
def arriveWithChar (b : Block) (env : Env) (c : ClientId) : Block × Int :=
  let gotChar (b : Block) : Block := b.modClient c (fun x => { x with gotChar := true })
  match (b.client c).curLobby with
  | some _ => (gotChar b, 0)
  | none =>
    let (b, rv) := lobbyAddToAny b env.now c (b.client c).lobbyReq
    if rv ≠ 0 then (b, -1)
    else if env.joinSent = false then (b, -2)
    else if env.arrivalSent = false then (b, -3)
    else (gotChar b, 0)

def dcProcessChar (b : Block) (env : Env) (c : ClientId) (leaveGame : Bool) (pl : PlayerData) :
    Block × Int :=
  if 199 < pl.level then
    (b, -1)
  else
    let b := setAccount b c (fun a => { a with player := pl })
    if leaveGame then
      lobbyRemovePlayer (setAccount b c (fun a => { a with legit := false })) env c
    else
      arriveWithChar b env c

def bbProcessChar (b : Block) (env : Env) (c : ClientId) (leaveGame : Bool) (pl : PlayerData) :
    Block × Int :=
  let b := setAccount b c (fun a => { a with player := pl })
  if leaveGame then lobbyRemovePlayer b env c else arriveWithChar b env c

def processChangeLobby (b : Block) (env : Env) (c : ClientId) (itemId : ℕ) : Block × Int :=
  if (b.client c).account.gcProtect then
    (b, 0)
  else
    match blockGetLobby b itemId with
    | none => (b, 0)
    | some req => lobbyChangeLobby b env c req

/-- After the refusal with -15 the source goes on as if the client had got in. -/
def joinGame (b : Block) (env : Env) (c : ClientId) (l : LobbyHandle) : Block × Int :=
  if (b.client c).account.gcProtect then
    (b, -1)
  else
    let (b, rv) := lobbyChangeLobby b env c l
    if rv < 0 ∧ rv ≠ -15 then (b, rv)
    else (setAccount b c (fun a => { a with legit := false }), rv)

/-- The password string that `process_menu` makes out of the end of the packet. -/
def passwdCmp (env : Env) (x : ShipClient) (passwd : List UInt8) : Option (List UInt8) :=
  if x.account.version = .pc ∨ x.account.version = .bb then
    if 0x20 < passwd.length then none
    else some (strncpy 16 (env.utf16ToAscii (passwd ++ List.replicate (32 - passwd.length) 0)))
  else if 0x10 < passwd.length then none
  else some (strncpy 16 passwd)

/-- The client gives a password for a lobby. -/
def submit (b : Block) (c : ClientId) (l : LobbyHandle) (passwd : List UInt8) : Block :=
  { b with submitted :=
      Function.update b.submitted c (Function.update (b.submitted c) l (some passwd)) }

/-- `process_menu` for `MENU_ID_GAME`, up to the call of `join_game`: the lobby to join, or the
return code. -/
def processMenuGame (b : Block) (env : Env) (c : ClientId) (itemId : ℕ) (passwd : List UInt8) :
    Block × Except Int LobbyHandle :=
  if (b.client c).gotChar = false then
    (b, .error (-1))
  else
    match passwdCmp env (b.client c) passwd with
    | none => (b, .error (-1))
    | some cmp =>
      match blockGetLobby b itemId with
      | none => (b, .error 0)
      | some l =>
        let b := submit b c l cmp
        if (b.client c).overrideGame = false ∧ (b.lobby l).passwd ≠ [] ∧ cmp ≠ (b.lobby l).passwd
        then (b, .error 0)
        else (b, .ok l)

/-- A game creation packet. `passwd` is the memory that `strncpy` copies the password from. -/
structure CreatePkt where
  passwd : List UInt8
  difficulty : Fin 4
  battle : Bool
  challenge : Bool
  version : Bool
  episode : ℕ
  singlePlayer : Bool

def tooLow (x : ShipClient) (difficulty : Fin 4) : Bool :=
  !x.overrideGame ∧ x.account.player.level + 1 < gameRequiredLevel difficulty

/-- `lobby_create_game` as the game creation handlers call it: without a game they return 0. -/
def makeGame (b : Block) (env : Env) (c : ClientId) (args : GameArgs) :
    Block × Except Int LobbyHandle :=
  match lobbyCreateGame b env c args with
  | (b, none) => (b, .error 0)
  | (b, some l) => (b, .ok l)

/-- The game creation handlers are alike from the call of `join_game` on. This is what each does
up to there: the game to join, or the return code. -/
def dcnteProcessGameCreate (b : Block) (env : Env) (c : ClientId) (pkt : CreatePkt) :
    Block × Except Int LobbyHandle :=
  let x := b.client c
  if x.gotChar = false then (b, .error (-1))
  else
    makeGame b env c
      { passwd := pkt.passwd, difficulty := 0, battle := false, chal := false, v2 := false
        version := x.account.version, episode := 0, singlePlayer := false }

def dcProcessGameCreate (b : Block) (env : Env) (c : ClientId) (pkt : CreatePkt) :
    Block × Except Int LobbyHandle :=
  let x := b.client c
  if x.gotChar = false then (b, .error (-1))
  else if tooLow x pkt.difficulty then (b, .error 0)
  else
    makeGame b env c
      { passwd := pkt.passwd, difficulty := pkt.difficulty, battle := pkt.battle
        chal := pkt.challenge, v2 := pkt.version, version := x.account.version, episode := 0
        singlePlayer := false }

def gcProcessGameCreate (b : Block) (env : Env) (c : ClientId) (pkt : CreatePkt) :
    Block × Except Int LobbyHandle :=
  let x := b.client c
  if x.gotChar = false then (b, .error (-1))
  else if tooLow x pkt.difficulty then (b, .error 0)
  else
    makeGame b env c
      { passwd := pkt.passwd, difficulty := pkt.difficulty, battle := pkt.battle
        chal := pkt.challenge, v2 := false, version := x.account.version, episode := pkt.episode
        singlePlayer := false }

def bbProcessGameCreate (b : Block) (env : Env) (c : ClientId) (pkt : CreatePkt) :
    Block × Except Int LobbyHandle :=
  let x := b.client c
  if x.gotChar = false then (b, .error (-1))
  else if pkt.battle ∨ pkt.challenge then (b, .error 0)
  else if tooLow x pkt.difficulty then (b, .error 0)
  else
    makeGame b env c
      { passwd := pkt.passwd, difficulty := pkt.difficulty, battle := pkt.battle
        chal := pkt.challenge, v2 := false, version := x.account.version, episode := pkt.episode
        singlePlayer := pkt.singlePlayer }

/-- The client is asked about compatibility with version 1. -/
def AsksGameType (x : Account) (pkt : CreatePkt) : Prop :=
  pkt.battle = false ∧ pkt.challenge = false ∧ pkt.difficulty ≠ 3 ∧ x.isNte = false

instance (x : Account) (pkt : CreatePkt) : Decidable (AsksGameType x pkt) :=
  inferInstanceAs (Decidable (_ ∧ _))

def pcProcessGameCreate (b : Block) (env : Env) (c : ClientId) (pkt : CreatePkt) :
    Block × Except Int LobbyHandle :=
  let x := b.client c
  if x.gotChar = false then (b, .error (-1))
  else if tooLow x pkt.difficulty then (b, .error 0)
  else
    match makeGame b env c
      { passwd := pkt.passwd, difficulty := pkt.difficulty, battle := pkt.battle
        chal := pkt.challenge, v2 := true, version := x.account.version, episode := 0
        singlePlayer := false } with
    | (b, .error rv) => (b, .error rv)
    | (b, .ok l) =>
      if AsksGameType x.account pkt then
        (b.modClient c (fun x => { x with createLobby := some l }), .error 0)
      else (b, .ok l)

def ep3ProcessGameCreate (b : Block) (c : ClientId) (passwd : List UInt8) :
    Block × Except Int LobbyHandle :=
  if (b.client c).account.version ≠ .ep3 then (b, .error (-1))
  else if (b.client c).gotChar = false then (b, .error (-1))
  else
    let (b, l) := lobbyCreateEp3Game b c passwd
    (b, .ok l)

/-- `GAME_CREATE_TYPE`, as `dc_process_pkt` and `bb_process_pkt` dispatch it. -/
def gameCreate (b : Block) (env : Env) (c : ClientId) (pkt : CreatePkt) :
    Block × Except Int LobbyHandle :=
  match (b.client c).account.version, (b.client c).account.isNte with
  | .bb, _ => bbProcessGameCreate b env c pkt
  | .dcv1, true => dcnteProcessGameCreate b env c pkt
  | .pc, _ => pcProcessGameCreate b env c pkt
  | .gc, _ | .xbox, _ => gcProcessGameCreate b env c pkt
  | .dcv1, false | .dcv2, _ | .ep3, _ => dcProcessGameCreate b env c pkt

/-- The choice of the game type is recorded in the game. -/
def setGameType (itemId : ℕ) (l : Lobby) : Lobby :=
  if itemId = 0 then { l with v2 := false, version := .dcv1 }
  else if itemId = 2 then { l with settings := { l.settings with pcOnly := true } }
  else l

/-- `process_menu` for `MENU_ID_GAME_TYPE`, up to the call of `join_game`. -/
def processGameType (b : Block) (c : ClientId) (itemId : ℕ) : Block × Except Int LobbyHandle :=
  if (b.client c).gotChar = false then
    (b, .error (-1))
  else
    match (b.client c).createLobby with
    | none => (b, .error 0)
    | some l =>
      let b := listLobby (b.modLobby l (setGameType itemId)) l
      (b.modClient c (fun x => { x with createLobby := none }), .ok l)

/-- The end of the handlers that join a lobby that exists. -/
def joinSelected (env : Env) (c : ClientId) : Block × Except Int LobbyHandle → Block × Int
  | (b, .error rv) => (b, rv)
  | (b, .ok l) => ((joinGame b env c l).1, 0)

/-- The end of the handlers that make a game: if the client cannot join, it is destroyed. -/
def joinMade (env : Env) (c : ClientId) : Block × Except Int LobbyHandle → Block × Int
  | (b, .error rv) => (b, rv)
  | (b, .ok l) =>
    let (b, rv) := joinGame b env c l
    (if rv = 0 then b else lobbyDestroyLocked b l, 0)

def dcProcessDoneBurst (b : Block) (env : Env) (c : ClientId) : Block × Int :=
  match (b.client c).curLobby with
  | none => (b, -1)
  | some h =>
    if (b.lobby h).type = .lobby ∨ (b.client c).gotChar = false then
      (b, -1)
    else if (b.lobby h).settings.questing then
      (b.modClient c (fun x => { x with waitQping := true }), env.result 0)
    else
      let b := b.modLobby h (fun l => { l with bursting := false })
      let b := b.modClient c (fun x => { x with bursting := false })
      lobbyHandleDoneBurst b env h

/-- The legit check that the first ping after a login leads to. The result is false when the
ship has no legit lists and the source returns. -/
def pingLegitCheck (b : Block) (env : Env) (c : ClientId) : Block × Bool :=
  if (b.client c).account.alwaysLegit = true ∧ (b.client c).account.legit = false then
    if env.defLimits = false then
      (setAccount b c (fun a => { a with alwaysLegit := false }), false)
    else if env.legitPassed = false then
      (setAccount b c (fun a => { a with alwaysLegit := false }), true)
    else
      (setAccount b c (fun a => { a with legit := true, limits := true }), true)
  else
    (b, true)

/-- `PING_TYPE` in `dc_process_pkt`. -/
def processPing (b : Block) (env : Env) (c : ClientId) : Block × Int :=
  let (b, goOn) := pingLegitCheck b env c
  if goOn = false ∨ (b.client c).waitQping = false then
    (b, 0)
  else
    match (b.client c).curLobby with
    | none => (b, -1)
    | some h =>
      let b := b.modLobby h (fun l => { l with bursting := false })
      let b := b.modClient c (fun x => { x with bursting := false, waitQping := false })
      lobbyHandleDoneBurst (lobbyResendBurst b h) env h

/-- The game packets of `dc_process_pkt`; Blue Burst packets are never deferred. -/
def processGamePkt (b : Block) (env : Env) (c : ClientId) (p : GamePkt) : Block × Int :=
  if (b.client c).account.version = .bb then (b, env.result 0)
  else if p.pktType = gameCommand0Type then subcmdHandleBcast b env 0 c p
  else if p.pktType = gameCommand2Type ∨ p.pktType = gameCommandDType then
    subcmdHandleOne b env 0 c p
  else (b, 0)

/-- `/passwd`. -/
def handlePasswd (b : Block) (c : ClientId) (params : List UInt8) : Block :=
  match (b.client c).curLobby with
  | none => b
  | some h =>
    if (b.lobby h).type ≠ .lobby ∧ (b.lobby h).leaderId = (b.client c).clientId ∧
        params.length ≤ 16 ∧ ∀ ch ∈ params, 0x20 ≤ ch ∧ ch < 0x7F then
      b.modLobby h (fun l => { l with passwd := params })
    else b

/-- `/override`. -/
def handleOverride (b : Block) (c : ClientId) : Block :=
  match (b.client c).curLobby with
  | none => b
  | some h =>
    if (b.client c).account.localGm = true ∧ (b.lobby h).type = .lobby then
      b.modClient c (fun x => { x with overrideGame := true })
    else b

/-- `/logout`. -/
def handleLogout (b : Block) (c : ClientId) : Block :=
  b.modClient c (fun x =>
    { x with overrideGame := false, account := { x.account with localGm := false } })

/-- What can happen on a block. `account` stands for logins, shipgate packets and commands that
set a client's own fields, `settings` for commands, quests and scripts that set a lobby's. -/
inductive Action where
  | disconnect (c : ClientId)
  | account (c : ClientId) (a : Account)
  | meetTheUser (c : ClientId) (menu : ℕ)
  | settings (h : LobbyHandle) (s : LobbySettings)
  | passwd (c : ClientId) (params : List UInt8)
  | override (c : ClientId)
  | logout (c : ClientId)
  | charData (c : ClientId) (leaveGame : Bool) (pl : PlayerData)
  | changeLobby (c : ClientId) (itemId : ℕ)
  | menuGame (c : ClientId) (itemId : ℕ) (passwd : List UInt8)
  | gameCreate (c : ClientId) (pkt : CreatePkt)
  | ep3GameCreate (c : ClientId) (passwd : List UInt8)
  | gameType (c : ClientId) (itemId : ℕ)
  | doneBurst (c : ClientId)
  | ping (c : ClientId)
  | gamePkt (c : ClientId) (p : GamePkt)

structure Event where
  env : Env
  action : Action

/-- `join_game` calls `lobby_change_lobby` unless the client is protected. -/
def joinRequest (c : ClientId) :
    Block × Except Int LobbyHandle → Option (Block × ClientId × LobbyHandle)
  | (_, .error _) => none
  | (b, .ok l) => if (b.client c).account.gcProtect then none else some (b, c, l)

/-- The call of `lobby_change_lobby` that an event leads to: the block at the time, the client
and the lobby. -/
def changeRequest (b : Block) (e : Event) : Option (Block × ClientId × LobbyHandle) :=
  match e.action with
  | .changeLobby c itemId => joinRequest c (b, (blockGetLobby b itemId).elim (.error 0) .ok)
  | .menuGame c itemId passwd => joinRequest c (processMenuGame b e.env c itemId passwd)
  | .gameCreate c pkt => joinRequest c (gameCreate b e.env c pkt)
  | .ep3GameCreate c passwd => joinRequest c (ep3ProcessGameCreate b c passwd)
  | .gameType c itemId => joinRequest c (processGameType b c itemId)
  | _ => none

def next (b : Block) (e : Event) : Block :=
  match e.action with
  | .disconnect c => disconnect b e.env c
  | .account c a => setAccount b c (fun _ => a)
  | .meetTheUser c menu => meetTheUser b c menu
  | .settings h s => b.modLobby h (fun l => { l with settings := s })
  | .passwd c params => handlePasswd b c params
  | .override c => handleOverride b c
  | .logout c => handleLogout b c
  | .charData c leaveGame pl =>
    if (b.client c).account.version = .bb then (bbProcessChar b e.env c leaveGame pl).1
    else (dcProcessChar b e.env c leaveGame pl).1
  | .changeLobby c itemId => (processChangeLobby b e.env c itemId).1
  | .menuGame c itemId passwd => (joinSelected e.env c (processMenuGame b e.env c itemId passwd)).1
  | .gameCreate c pkt => (joinMade e.env c (gameCreate b e.env c pkt)).1
  | .ep3GameCreate c passwd => (joinMade e.env c (ep3ProcessGameCreate b c passwd)).1
  | .gameType c itemId => (joinMade e.env c (processGameType b c itemId)).1
  | .doneBurst c => (dcProcessDoneBurst b e.env c).1
  | .ping c =>
    if (b.client c).account.version = .bb then b else (processPing b e.env c).1
  | .gamePkt c p => (processGamePkt b e.env c p).1

/-- A block with its twenty default lobbies and nobody on it. -/
def Block.start : Block where
  client _ := ShipClient.fresh
  lobby h := if h < 20 then lobbyCreateDefault (h + 1) else Lobby.zero .lobby 0 0 0 0
  lobbies := List.range 20
  nextLobby := 20
  nextId := 0x20
  numGames := 0
  submitted _ _ := none
  accepted _ := []
  handed _ := []

/-- Every send, allocation and handler succeeds. -/
def obligingEnv : Env where
  now := 1
  playerLegit := true
  joinSent := true
  arrivalSent := true
  result _ := 0
  beyond := false
  allocated := true
  enemiesLoaded := true
  defLimits := true
  legitPassed := true
  utf16ToAscii := id

/-- Character data of a new character. -/
def newcomer : PlayerData :=
  { level := 0, chClass := 0, times := Vector.replicate 9 0, timesEp2 := Vector.replicate 5 0 }

/-- A packet that makes a game. -/
def gameWith (passwd : List UInt8) : CreatePkt :=
  { passwd := passwd, difficulty := 0, battle := false, challenge := false, version := false
    episode := 0, singlePlayer := false }

/-- The actions as events, where everything succeeds. -/
def obliging (actions : List Action) : List Event :=
  actions.map (fun action => ⟨obligingEnv, action⟩)

end ShipServer.BlockPackets
