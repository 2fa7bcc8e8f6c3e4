import ShipServer.CommandHandlers

set_option autoImplicit false

/-! The commands that every player may give, the table of all commands, and the GM menu. -/

namespace ShipServer.PlayerCommands

open Versions NumberText QuestSetup CommandState CommandHandlers

variable {Lim : Type}

/-- Commands of a GM about the flags of the client itself. -/
def gmFlag (set : Bool → ClientFlags → ClientFlags) : Handler Lim := fun _ s c params =>
  if localGm (s.clients c) = false then answer s
  else (s.modFlags c (set (params ≠ "off".toList)), [])

def handleInvuln : Handler Lim :=
  gmFlag fun on f => { f with invulnerable := on }

def handleInftp : Handler Lim :=
  gmFlag fun on f => { f with infiniteTp := on }

def handleShowdcpc : Handler Lim := fun o s c params =>
  if localGm (s.clients c) = false then answer s
  else if (s.clients c).version ≠ .gc then answer s
  else gmFlag (fun on f => { f with showDcpcOnGc := on }) o s c params

def handleOverride : Handler Lim := fun _ s c _ =>
  if localGm (s.clients c) = false then answer s
  else if (s.lobbyOf c).type ≠ .lobby then answer s
  else (s.modFlags c fun f => { f with overrideGame := true }, [])

def handleTrackinv : Handler Lim := fun _ s c _ =>
  if localGm (s.clients c) = false then answer s
  else if (s.lobbyOf c).type ≠ .lobby then answer s
  else (s.modFlags c fun f => { f with trackInventory := true }, [])

/-- `/maps`: up to 32 digits. -/
def handleMaps : Handler Lim := fun o s c params =>
  if localGm (s.clients c) = false then answer s
  else if params.any (fun d => !d.isDigit) = true ∨ 32 < params.length then answer s
  else
    let maps := (List.range 32).map fun k => (params[k]?).elim 0 fun d => d.toNat - '0'.toNat
    (s.modClient c fun i => { i with nextMaps := if o.mapsAllocated then some maps else none }, [])

def handleExp : Handler Lim := fun _ s c params =>
  if localGm (s.clients c) = false then answer s
  else if (s.lobbyOf c).type ≠ .game then answer s
  else if (s.clients c).version ≠ .bb then answer s
  else (s, (strtoulEnd 10 params).1.elim [] fun n => [.giveExp (n % 2 ^ 32)])

/-- The level that `/level` names, or the next one. -/
def namedLevel (params : List Char) (level : BitVec 32) : Option (BitVec 32) :=
  if params = [] then some (level + 1)
  else (strtoulEnd 10 params).1.map fun n => BitVec.ofNat 32 n - 1

def handleLevel : Handler Lim := fun _ s c params =>
  let level : List Effect := (namedLevel params (s.clients c).level).elim [] fun l =>
    if 199 < l then [] else [.giveLevel l.toNat]
  if localGm (s.clients c) = false then answer s
  else if (s.clients c).version = .bb then
    if (s.lobbyOf c).type ≠ .game then answer s else (s, level)
  else if (s.clients c).version = .dcv2 ∨ (s.clients c).version = .pc then
    if (s.lobbyOf c).type = .game then answer s else (s, level)
  else answer s

/-- `/allowgc`, for a GM who leads the game. -/
def handleAllowgc : Handler Lim := fun _ s c params =>
  let l := s.lobbyOf c
  if localGm (s.clients c) = false then answer s
  else if l.type ≠ .game then answer s
  else if l.leaderId ≠ (s.clients c).clientId then answer s
  else if params ≠ "off".toList ∧
      (l.settings.flags.dcOnly || l.settings.flags.pcOnly || l.settings.flags.v1Only) = true then
    answer s
  else
    (s.modSettings c fun g =>
      { g with flags := { g.flags with gcAllowed := params ≠ "off".toList } }, [])

/-- The commands of a leader: in which lobbies they are valid, and what becomes of the settings. -/
def leaderCommand (allowed : LobbyType → Bool) (change : Lobby → Option GameSettings)
    (s : Ship Lim) (c : ClientId) : Outcome Lim :=
  let l := s.lobbyOf c
  if allowed l.type = false then answer s
  else if l.leaderId ≠ (s.clients c).clientId then answer s
  else (change l).elim (answer s) fun g => (s.modSettings c fun _ => g, [])

def notLobby (t : LobbyType) : Bool :=
  t ≠ .lobby

def isGame (t : LobbyType) : Bool :=
  t = .game

/-- `game_required_level`. -/
def gameRequiredLevel : Fin 4 → ℕ
  | 0 => 0
  | 1 => 20
  | 2 => 40
  | 3 => 80

/-- The level that a command names. -/
def namedLimit (params : List Char) : Option ℕ :=
  (strtoulEnd 10 params).1.bind fun n =>
    let lvl := (BitVec.ofNat 32 n).toInt
    if 200 < lvl ∨ lvl < 1 then none else some lvl.toNat

def handleMinLevel : Handler Lim := fun _ s c params =>
  leaderCommand notLobby (fun l => (namedLimit params).bind fun lvl =>
    if lvl < gameRequiredLevel l.difficulty ∨ l.settings.maxLevel < lvl then none
    else some { l.settings with minLevel := lvl }) s c

def handleMaxLevel : Handler Lim := fun _ s c params =>
  leaderCommand notLobby (fun l => (namedLimit params).bind fun lvl =>
    if lvl < l.settings.minLevel then none else some { l.settings with maxLevel := lvl }) s c

def isPrintable (c : Char) : Bool :=
  0x20 ≤ c.toNat ∧ c.toNat < 0x7F

def handlePasswd : Handler Lim := fun _ s c params =>
  leaderCommand notLobby (fun l =>
    if 16 < params.length ∨ params.all isPrintable = false then none
    else some { l.settings with passwd := params }) s c

def handleLname : Handler Lim := fun _ s c params =>
  leaderCommand notLobby (fun l =>
    if 16 < params.length then none else some { l.settings with name := params }) s c

def handleNormal : Handler Lim := fun _ s c _ =>
  leaderCommand isGame (fun l =>
    if l.settings.flags.legitMode then
      some { l.settings with flags := { l.settings.flags with legitMode := false } }
    else none) s c

/-- All clients of a game have versions of a kind. -/
def allAre (s : Ship Lim) (l : Lobby) (p : ClientVersion → Bool) : Bool :=
  ((List.range l.maxClients).filterMap l.clients).all fun i => p (s.clients i).version

/-- `/dconly` and `/v1only`. -/
def restrictTo (p : ClientVersion → Bool) (set : Bool → LobbyFlags → LobbyFlags) : Handler Lim :=
  fun _ s c params =>
    leaderCommand isGame (fun l =>
      if params = "off".toList then some { l.settings with flags := set false l.settings.flags }
      else if allAre s l p then some { l.settings with flags := set true l.settings.flags }
      else none) s c

def handleDconly : Handler Lim :=
  restrictTo (fun v => v = .dcv1 ∨ v = .dcv2) fun on f => { f with dcOnly := on }

def handleV1only : Handler Lim :=
  restrictTo (fun v => v = .dcv1) fun on f => { f with v1Only := on }

/-- The NPC, its client and the client that it follows, with the defaults for what is missing. -/
def npcArguments (l : Lobby) (own : ℕ) : List ℤ → Option (ℤ × ℤ × ℤ)
  | [] => none
  | [num] =>
    let free := ((List.range l.maxClients).reverse.find? fun k => (l.clients k).isNone)
    some (num, free.elim (-1) fun k => k, own)
  | [num, client] => some (num, client, own)
  | num :: client :: follow :: _ => some (num, client, follow)

/-- `/npc`, which makes the game one for a single player. -/
def handleNpc : Handler Lim := fun _ s c params =>
  let l := s.lobbyOf c
  if l.type ≠ .game then answer s
  else if l.numClients ≠ 1 then answer s
  else if l.battle || l.challenge then answer s
  else if l.quest.questing then answer s
  else if (s.clients c).pos.curArea ≠ 0 then answer s
  else
    match npcArguments l (s.clients c).clientId (scanMany scanInt true 3 params) with
    | none => answer s
    | some (num, client, follow) =>
      if num < 0 ∨ 63 < num then answer s
      else if client < 0 ∨ l.maxClients ≤ client ∨ (l.clients client.toNat).isSome then answer s
      else if follow < 0 ∨ l.maxClients ≤ follow ∨ (l.clients follow.toNat).isNone then answer s
      else
        (s.modSettings c fun g =>
            { g with flags := { g.flags with singlePlayer := true, hasNpc := true } },
          [.lobby (s.clients c).curLobby (.spawnNpc num client follow)])

/-- What a client under guild card protection may not do. -/
def unprotected (s : Ship Lim) (c : ClientId) (r : Outcome Lim) : Outcome Lim :=
  if (s.clients c).flags.gcProtect then answer s else r

/-- The character slots of `/save` and `/restore`, after those of Blue Burst. -/
def slotCommand (message : ℕ → GateMessage) : Handler Lim := fun _ s c params =>
  unprotected s c
    (if (s.lobbyOf c).type ≠ .lobby then answer s
    else if (s.clients c).version = .bb then answer s
    else
      (strtoulEnd 10 params).1.elim (answer s) fun n =>
        let slot := (BitVec.ofNat 32 n).toNat
        if 4 < slot ∨ slot < 1 then answer s else (s, [.gate (message (slot + 4))]))

def handleSave : Handler Lim :=
  slotCommand .cdata

def handleRestore : Handler Lim :=
  slotCommand .creq

def handleRestorebk : Handler Lim := fun _ s c _ =>
  unprotected s c
    (if (s.lobbyOf c).type ≠ .lobby then answer s
    else if (s.clients c).version = .bb then answer s
    else (s, [.gate .cbkupReq]))

def handleArrow : Handler Lim := fun _ s c params =>
  unprotected s c
    (s.modClient c fun i => { i with arrow := atoi params },
      [.lobby (s.clients c).curLobby .arrows])

/-- The two words of a login: each shorter than 32 characters, or it is refused. A text without a
blank ends here; the source reads on. -/
def loginWords (params : List Char) : Option (List Char × List Char) :=
  let username := params.takeWhile (· ≠ ' ')
  let password := ((params.dropWhile (· ≠ ' ')).tail).takeWhile (· ≠ ' ')
  if params = [] ∨ 32 ≤ username.length ∨ 32 ≤ password.length then none
  else some (username, password)

def loginCommand (token xbox : Bool) : Handler Lim := fun _ s _ params =>
  (s, (loginWords params).elim [] fun w => [.gate (.usrlogin w.1 w.2 token xbox)])

def handleLogin : Handler Lim :=
  loginCommand false false

def handleTlogin : Handler Lim :=
  loginCommand true false

def handleXblink : Handler Lim := fun o s c params =>
  if (s.clients c).version ≠ .xbox then answer s else loginCommand true true o s c params

def handleLogout : Handler Lim := fun _ s c _ =>
  if (s.clients c).flags.loggedIn = false then answer s
  else
    (s.modClient c fun i =>
      { i with
        flags := { i.flags with loggedIn := false, overrideGame := false }
        privilege := i.privilege &&&
          ~~~(Privilege.localGm.mask ||| Privilege.localRoot.mask) }, [])

def handleQuit : Handler Lim := fun _ s c _ =>
  (s.disconnect c, [])

/-- `/legit`, for the versions whose items can be checked. -/
def handleLegit : Handler Lim := fun o s c params =>
  if (s.lobbyOf c).type ≠ .lobby then answer s
  else if (s.clients c).version = .ep3 ∨ (s.clients c).version = .bb then answer s
  else if params = "off".toList then (s.modFlags c fun f => { f with legit := false }, [])
  else if s.defLimits.isNone ∨ o.legitItems s.defLimits = false then answer s
  else (s.modFlags c fun f => { f with legit := true }, [])

def handleSdrops : Handler Lim := fun o s c params =>
  let supported : Bool := match (s.clients c).version with
    | .dcv1 | .dcv2 | .pc => o.dropFiles
    | .gc | .xbox => o.dropFiles && localGm (s.clients c)
    | .ep3 | .bb => false
  if supported = false then answer s
  else (s.modFlags c fun f => { f with serverDrops := params ≠ "off".toList }, [])

/-- An option of the account that the shipgate stores, and the flag that goes with it. -/
def optionCommand (name : String) (set : Bool → ClientFlags → ClientFlags) (on : Bool)
    (s : Ship Lim) (c : ClientId) : Outcome Lim :=
  if (s.clients c).flags.loggedIn = false then answer s
  else (s.modFlags c (set on), [.gate (.userOpt name on.toNat)])

def handleEnablebk : Handler Lim := fun _ s c _ =>
  optionCommand "USER_OPT_ENABLE_BACKUP" (fun on f => { f with autoBackup := on }) true s c

def handleDisablebk : Handler Lim := fun _ s c _ =>
  optionCommand "USER_OPT_ENABLE_BACKUP" (fun on f => { f with autoBackup := on }) false s c

def handleGcprotect : Handler Lim := fun _ s c params =>
  optionCommand "USER_OPT_GC_PROTECT" (fun _ f => f) (params ≠ "off".toList) s c

def handleTrackkill : Handler Lim := fun _ s c params =>
  optionCommand "USER_OPT_TRACK_KILLS" (fun on f => { f with trackKills := on })
    (params ≠ "off".toList) s c

/-- `/autolegit`, which checks the client at once when it is turned on. -/
def handleAutolegit : Handler Lim := fun o s c params =>
  let on : Bool := params ≠ "off".toList
  let passed : Bool := s.defLimits.isSome && ((s.clients c).version = .ep3 ||
    (s.clients c).version = .bb || o.legitItems s.defLimits)
  optionCommand "USER_OPT_LEGIT_ALWAYS" (fun on f =>
    { f with alwaysLegit := on && passed, legit := f.legit || (on && passed) }) on s c

/-- `/censor` asks for no login. -/
def handleCensor : Handler Lim := fun _ s c params =>
  let on : Bool := params ≠ "off".toList
  (s.modFlags c fun f => { f with wordCensor := on },
    [.gate (.userOpt "USER_OPT_WORD_CENSOR" on.toNat)])

def handleFriendadd : Handler Lim := fun _ s c params =>
  unprotected s c
    ((scanGuildcard params).1.elim (answer s) fun gc =>
      match (scanGuildcard params).2 with
      | ' ' :: ch :: cs => (s, [.gate (.friendAdd gc (ch :: cs))])
      | _ => answer s)

def handleFrienddel : Handler Lim := fun _ s c params =>
  unprotected s c ((scanGuildcard params).1.elim (answer s) fun gc =>
    (s, [.gate (.friendDel gc)]))

def handleFriends : Handler Lim := fun _ s c params =>
  unprotected s c ((strtoulEnd 10 params).1.elim (answer s) fun n =>
    (s, [.gate (.frlistReq (BitVec.ofNat 32 n * 5))]))

def handleSearch : Handler Lim := fun _ s c params =>
  unprotected s c ((scanGuildcard params).1.elim (answer s) fun gc => (s, [.guildSearch gc]))

def handleCc : Handler Lim := fun _ s c params =>
  unprotected s c
    (if params = "off".toList then (s.modClient c fun i => { i with ccChar := none }, [])
    else if params.length ≠ 1 then answer s
    else (s.modClient c fun i => { i with ccChar := params.head? }, []))

/-- The index of a code of two letters among the language codes. -/
def languageIndex (params : List Char) : Option ℕ :=
  (["jp", "en", "de", "fr", "es", "cs", "ct", "kr"].findIdx? fun code => code.toList = params)

def handleQlang : Handler Lim := fun _ s c params =>
  unprotected s c
    ((languageIndex params).elim (answer s) fun k =>
      (s.modClient c fun i => { i with qLang := k }, [.gate (.userOpt "USER_OPT_QUEST_LANG" k)]))

/-- The first free entry of the ignore list takes the guild card. -/
def addIgnored (gc : BitVec 32) : List (BitVec 32) → List (BitVec 32)
  | [] => []
  | e :: es => if e = 0 then gc :: es else e :: addIgnored gc es

def handleIgnore : Handler Lim := fun _ s c params =>
  unprotected s c
    ((scanInt params).elim (answer s) fun id =>
      (lobbyClient (s.lobbyOf c) id.1).elim (answer s) fun i =>
        (s.modClient c fun d =>
          { d with ignoreList := addIgnored (s.clients i).guildcard d.ignoreList }, []))

def handleUnignore : Handler Lim := fun _ s c params =>
  unprotected s c
    ((scanInt params).elim (answer s) fun id =>
      if 10 ≤ id.1 ∨ id.1 < 0 then answer s
      else (s.modClient c fun d => { d with ignoreList := d.ignoreList.set id.1.toNat 0 }, []))

/-- Commands that only tell the client something, some for a GM and some for everyone. They leave
the ship alone, whatever they tell. -/
def tells : Handler Lim := fun _ s _ _ =>
  answer s

def handleBstat : Handler Lim :=
  tells

def handleBug : Handler Lim :=
  tells

def handleClinfo : Handler Lim :=
  tells

def handleList : Handler Lim :=
  tells

def handleMotd : Handler Lim :=
  tells

def handleDumpinv : Handler Lim :=
  tells

def handleLl : Handler Lim :=
  tells

def handleVer : Handler Lim :=
  tells

def handleGm : Handler Lim :=
  tells

def handleShowmaps : Handler Lim :=
  tells

def handleNoevent : Handler Lim :=
  tells

def handleLflags : Handler Lim :=
  tells

def handleCflags : Handler Lim :=
  tells

def handleShowpos : Handler Lim :=
  tells

def handleInfo : Handler Lim :=
  tells

def handleForgegc : Handler Lim :=
  tells

/-- Without `DEBUG` this tells that it is not there, and so does `/logme`. -/
def handleDsdrops : Handler Lim :=
  tells

def handleLogme : Handler Lim :=
  tells

/-- `cmds`, in its order. -/
def cmds : List (String × Handler Lim) :=
  [("warp", handleWarp), ("kill", handleKill), ("minlvl", handleMinLevel),
    ("maxlvl", handleMaxLevel), ("refresh", handleRefresh), ("save", handleSave),
    ("restore", handleRestore), ("bstat", handleBstat), ("bcast", handleBcast),
    ("arrow", handleArrow), ("login", handleLogin), ("item", handleItem), ("item4", handleItem4),
    ("event", handleEvent), ("passwd", handlePasswd), ("lname", handleLname),
    ("warpall", handleWarpall), ("bug", handleBug), ("clinfo", handleClinfo),
    ("gban:d", handleGbanD), ("gban:w", handleGbanW), ("gban:m", handleGbanM),
    ("gban:p", handleGbanP), ("list", handleList), ("legit", handleLegit),
    ("normal", handleNormal), ("shutdown", handleShutdown), ("log", handleLog),
    ("endlog", handleEndlog), ("motd", handleMotd), ("friendadd", handleFriendadd),
    ("frienddel", handleFrienddel), ("dconly", handleDconly), ("v1only", handleV1only),
    ("forgegc", handleForgegc), ("invuln", handleInvuln), ("inftp", handleInftp),
    ("smite", handleSmite), ("makeitem", handleMakeitem), ("teleport", handleTeleport),
    ("dumpinv", handleDumpinv), ("showdcpc", handleShowdcpc), ("allowgc", handleAllowgc),
    ("ws", handleWs), ("ll", handleLl), ("npc", handleNpc), ("stfu", handleStfu),
    ("unstfu", handleUnstfu), ("ignore", handleIgnore), ("unignore", handleUnignore),
    ("quit", handleQuit), ("gameevent", handleGameevent), ("ban:d", handleBanD),
    ("ban:w", handleBanW), ("ban:m", handleBanM), ("ban:p", handleBanP), ("unban", handleUnban),
    ("cc", handleCc), ("qlang", handleQlang), ("friends", handleFriends), ("gbc", handleGbc),
    ("logout", handleLogout), ("override", handleOverride), ("ver", handleVer),
    ("restart", handleRestart), ("search", handleSearch), ("gm", handleGm), ("maps", handleMaps),
    ("showmaps", handleShowmaps), ("restorebk", handleRestorebk), ("enablebk", handleEnablebk),
    ("disablebk", handleDisablebk), ("exp", handleExp), ("level", handleLevel),
    ("sdrops", handleSdrops), ("gcprotect", handleGcprotect), ("trackinv", handleTrackinv),
    ("trackkill", handleTrackkill), ("ep3music", handleEp3music), ("tlogin", handleTlogin),
    ("dsdrops", handleDsdrops), ("noevent", handleNoevent), ("lflags", handleLflags),
    ("cflags", handleCflags), ("stalk", handleTeleport), ("showpos", handleShowpos),
    ("t", handleT), ("info", handleInfo), ("quest", handleQuest), ("autolegit", handleAutolegit),
    ("censor", handleCensor), ("teamlog", handleTeamlog), ("eteamlog", handleEteamlog),
    ("ib", handleIb), ("xblink", handleXblink), ("logme", handleLogme)]

/-- The command, of at most nine characters, and what follows it. -/
def splitCommand : ℕ → List Char → List Char × List Char
  | 0, cs => ([], cs)
  | _ + 1, [] => ([], [])
  | n + 1, c :: cs =>
    if c = ' ' then ([], c :: cs)
    else
      let rest := splitCommand n cs
      (c :: rest.1, rest.2)

/-- `command_call`, on the text of a chat packet after its conversion. The language code and the
slash are skipped; a command that is not in the table goes to the scripts. -/
def commandCall (o : Outside Lim) (s : Ship Lim) (c : ClientId) (txt : List Char) : Outcome Lim :=
  let t := splitCommand 9 (txt.drop 3)
  match cmds.find? fun e => e.1.toList = t.1 with
  | some e => e.2 o s c t.2.tail
  | none => (s, [.unknownCommand t.1 t.2.tail])

def menuIdGm : BitVec 32 := 0x7

def menuIdGmShutdown : BitVec 32 := 0x407

def menuIdGmRestart : BitVec 32 := 0x507

def menuIdGmGameEvent : BitVec 32 := 0x607

def menuIdGmLobbyEvent : BitVec 32 := 0x707

/-- `process_gm_menu`. The entries 4 to 7 of the first menu open the others. -/
def processGmMenu (o : Outside Lim) (s : Ship Lim) (c : ClientId) (menuId itemId : BitVec 32) :
    Outcome Lim :=
  if localGm (s.clients c) = false then answer s
  else if menuId = menuIdGm then
    if itemId = 1 then refreshQuests o s c
    else if itemId = 2 then refreshGms o s c
    else if itemId = 3 then refreshLimits o s c
    else answer s
  else if menuId = menuIdGmShutdown ∨ menuId = menuIdGmRestart then
    scheduleShutdown o s c itemId (menuId = menuIdGmRestart)
  else if menuId = menuIdGmGameEvent then
    if itemId < 7 then ({ s with gameEvent := itemId.toNat }, []) else answer s
  else if menuId = menuIdGmLobbyEvent then
    if itemId < 15 then (updateLobbyEvent { s with lobbyEvent := itemId.toNat }, []) else answer s
  else answer s

/-- `process_menu`, as far as it is about the GM menus: those whose last byte is 7. -/
def processMenu (o : Outside Lim) (s : Ship Lim) (c : ClientId) (menuId itemId : BitVec 32) :
    Outcome Lim :=
  if (s.clients c).flags.gotChar = false then answer s
  else if menuId &&& 0xFF = menuIdGm then processGmMenu o s c menuId itemId
  else answer s

end ShipServer.PlayerCommands
