import ShipServer.CommandState

set_option autoImplicit false

/-! The chat commands, one handler each, and the GM menu. -/

namespace ShipServer.CommandHandlers

open Versions NumberText QuestSetup CommandState

variable {Lim : Type}

/-- What a handler gets: the outside world, the ship, the client and the parameters. -/
abbrev Handler (Lim : Type) := Outside Lim → Ship Lim → ClientId → List Char → Outcome Lim

/-- The floor that a warp names. -/
def commandArea (params : List Char) : Option ℕ :=
  (strtoulEnd 10 params).1.bind fun area => if 17 < area then none else some area

/-- `send_warp`: version 1 has no such packet. -/
def sendWarp (s : Ship Lim) (i : ClientId) (area : ℕ) : List Effect :=
  if (s.clients i).version = .dcv1 then [] else [.warp i area]

/-- `send_lobby_warp`, which leaves Blue Burst out too. -/
def sendLobbyWarp (s : Ship Lim) (l : Lobby) (area : ℕ) : List Effect :=
  ((List.range l.maxClients).filterMap l.clients).flatMap fun i =>
    if (s.clients i).version = .bb then [] else sendWarp s i area

def handleWarp : Handler Lim := fun _ s c params =>
  if localGm (s.clients c) = false then answer s
  else if (s.lobbyOf c).type ≠ .game then answer s
  else (s, (commandArea params).elim [] fun area => sendWarp s c (area % 256))

def handleWarpall : Handler Lim := fun _ s c params =>
  if localGm (s.clients c) = false then answer s
  else if (s.lobbyOf c).type ≠ .game then answer s
  else (s, (commandArea params).elim [] fun area => sendLobbyWarp s (s.lobbyOf c) (area % 256))

/-- The first of some clients that has a guild card. -/
def findGuildcard (s : Ship Lim) (is : List ClientId) (gc : BitVec 32) : Option ClientId :=
  is.find? fun i => (s.clients i).guildcard = gc

/-- `kill_guildcard`. The privileges are compared as numbers. -/
def killGuildcard (s : Ship Lim) (c : ClientId) (gc : BitVec 32) : Outcome Lim :=
  if localGm (s.clients c) = false then answer s
  else
    match findGuildcard s s.running gc with
    | some i =>
      if (s.clients c).privilege ≤ (s.clients i).privilege then answer s else (s.disconnect i, [])
    | none => if globalGm (s.clients c) then (s, [.gate (.kick gc)]) else answer s

def handleKill : Handler Lim := fun _ s c params =>
  if localGm (s.clients c) = false then answer s
  else (scanGuildcard params).1.elim (answer s) fun gc => killGuildcard s c gc

/-- `global_ban`. The shipgate is told before the privileges are compared. -/
def globalBan (o : Outside Lim) (s : Ship Lim) (c : ClientId) (gc : BitVec 32) (length : ℕ) :
    Outcome Lim :=
  if globalGm (s.clients c) = false then answer s
  else if o.gateSends = false then answer s
  else
    match findGuildcard s s.running gc with
    | some i =>
      if (s.clients c).privilege ≤ (s.clients i).privilege then (s, [.gate (.ban gc length)])
      else (s.disconnect i, [.gate (.ban gc length)])
    | none => (s, [.gate (.ban gc length), .gate (.kick gc)])

/-- The commands `/gban:*`, which differ in the length of the ban. -/
def gbanFor (length : ℕ) : Handler Lim := fun o s c params =>
  if globalGm (s.clients c) = false then answer s
  else (scanGuildcard params).1.elim (answer s) fun gc => globalBan o s c gc length

def handleGbanD : Handler Lim :=
  gbanFor 86400

def handleGbanW : Handler Lim :=
  gbanFor 604800

def handleGbanM : Handler Lim :=
  gbanFor 2592000

def handleGbanP : Handler Lim :=
  gbanFor 0xFFFFFFFF

/-- `ban_guildcard`. A list that cannot be saved has changed nevertheless. -/
def banGuildcard (o : Outside Lim) (s : Ship Lim) (endTime : Option ℤ) (setBy gc : BitVec 32)
    (reason : List Char) : Ship Lim × Bool :=
  if o.banAllocated = false then (s, false)
  else ({ s with gcBans := s.gcBans ++ [⟨setBy, gc, o.now, endTime, reason⟩] }, o.bansSaved)

/-- The connected clients that match, all of whom a ban disconnects. -/
def matching (s : Ship Lim) (p : Client → Bool) : List ClientId :=
  s.connected.filter fun i => p (s.clients i)

def hasGuildcard (gc : BitVec 32) (i : Client) : Bool :=
  i.guildcard = gc

def hasAddress (ip : BitVec 32) (i : Client) : Bool :=
  i.ipAddr = some ip

/-- The commands `/ban:*`, which differ in the length of the ban. -/
def banFor (length : Option ℤ) : Handler Lim := fun o s c params =>
  if localGm (s.clients c) = false then answer s
  else
    (scanGuildcard params).1.elim (answer s) fun gc =>
      let banned := banGuildcard o s (length.map (o.now + ·)) (s.clients c).guildcard gc
        (scanGuildcard params).2.tail
      if banned.2 = false then (banned.1, [])
      else (banned.1.disconnectAll (matching s (hasGuildcard gc)), [])

def handleBanD : Handler Lim :=
  banFor (some 86400)

def handleBanW : Handler Lim :=
  banFor (some 604800)

def handleBanM : Handler Lim :=
  banFor (some 2592000)

def handleBanP : Handler Lim :=
  banFor none

/-- `ban_lift_guildcard_ban`, which removes the bans that are over too. -/
def liftBans (o : Outside Lim) (gc : BitVec 32) (bans : List GcBan) : List GcBan :=
  bans.filter fun i => i.bannedGc ≠ gc ∧ i.endTime.all (o.now ≤ ·)

def handleUnban : Handler Lim := fun o s c params =>
  if localGm (s.clients c) = false then answer s
  else
    (scanGuildcard params).1.elim (answer s) fun gc =>
      ({ s with gcBans := liftBans o gc s.gcBans }, [])

/-- `/ib days ip reason`. -/
def handleIb : Handler Lim := fun o s c params =>
  if localGm (s.clients c) = false then answer s
  else
    let length := strtok params
    let ip := strtok length.2
    match length.1.bind fun t => (strtoulEnd 10 t).1, ip.1.bind o.pton4 with
    | some len, some addr =>
      if o.banAllocated = false then answer s
      else
        let endTime := o.now + (86400 * BitVec.ofNat 32 len : BitVec 32).toNat
        let banned := { s with
          ipBans := s.ipBans ++ [⟨(s.clients c).guildcard, addr, o.now, endTime, ip.2⟩] }
        if o.bansSaved = false then (banned, [])
        else (banned.disconnectAll (matching s (hasAddress addr)), [])
    | _, _ => answer s

/-- `load_quests`. -/
def loadQuests (o : Outside Lim) (s : Ship Lim) : Ship Lim :=
  { s with quests := if s.questsDir then o.readQuests else [] }

def refreshQuests (o : Outside Lim) (s : Ship Lim) (c : ClientId) : Outcome Lim :=
  if localGm (s.clients c) = false then answer s else (loadQuests o s, [])

/-- `refresh_gms`. A list that cannot be read leaves the old one. -/
def refreshGms (o : Outside Lim) (s : Ship Lim) (c : ClientId) : Outcome Lim :=
  if localRoot (s.clients c) = false then answer s
  else if s.gmFile = false then answer s
  else ({ s with gmList := o.readGms.getD s.gmList }, [])

def refreshLimits (o : Outside Lim) (s : Ship Lim) (c : ClientId) : Outcome Lim :=
  if localGm (s.clients c) = false then answer s
  else if s.limitsCount = 0 then answer s
  else
    o.readLimits.elim (answer s) fun l => ({ s with allLimits := l.1, defLimits := l.2 }, [])

def handleRefresh : Handler Lim := fun o s c params =>
  if localGm (s.clients c) = false then answer s
  else if params = "quests".toList then refreshQuests o s c
  else if params = "gms".toList then
    if localRoot (s.clients c) = false then answer s else refreshGms o s c
  else if params = "limits".toList then refreshLimits o s c
  else answer s

/-- `update_lobby_event`: all default lobbies of the blocks that run. -/
def updateLobbyEvent (s : Ship Lim) : Ship Lim :=
  { s with lobbies := fun l =>
      if (∃ b ∈ s.blocks, b.run = true ∧ l ∈ b.lobbies) ∧ (s.lobbies l).type = .lobby then
        { s.lobbies l with event := s.lobbyEvent }
      else s.lobbies l }

def handleEvent : Handler Lim := fun _ s c params =>
  if localGm (s.clients c) = false then answer s
  else if atoi params < 0 ∨ 14 < atoi params then answer s
  else (updateLobbyEvent { s with lobbyEvent := (atoi params).toNat }, [])

def handleGameevent : Handler Lim := fun _ s c params =>
  if localGm (s.clients c) = false then answer s
  else if atoi params < 0 ∨ 6 < atoi params then answer s
  else ({ s with gameEvent := (atoi params).toNat }, [])

/-- `schedule_shutdown`. The seconds are counted in 32 bits. -/
def scheduleShutdown (o : Outside Lim) (s : Ship Lim) (c : ClientId) (minutes : BitVec 32)
    (restart : Bool) : Outcome Lim :=
  if localRoot (s.clients c) = false then answer s
  else
    ({ s with
        restartOnShutdown := restart
        shutdownTime := o.now + (minutes * 60 : BitVec 32).toNat }, [])

/-- The commands `/shutdown` and `/restart`. -/
def shutdownCommand (restart : Bool) : Handler Lim := fun o s c params =>
  if localRoot (s.clients c) = false then answer s
  else
    (strtoulEnd 10 params).1.elim (answer s) fun n =>
      scheduleShutdown o s c (if BitVec.ofNat 32 n < 1 then 1 else BitVec.ofNat 32 n) restart

def handleShutdown : Handler Lim :=
  shutdownCommand false

def handleRestart : Handler Lim :=
  shutdownCommand true

/-- `pkt_log_start` of a client. -/
def pktLogStart (o : Outside Lim) (s : Ship Lim) (i : ClientId) : Ship Lim :=
  if (s.clients i).logging = true ∨ o.logOpened = false then s
  else s.modClient i fun c => { c with logging := true }

def pktLogStop (s : Ship Lim) (i : ClientId) : Ship Lim :=
  s.modClient i fun c => { c with logging := false }

/-- The commands about a client of the same block, which a local root may give. -/
def logCommand (act : Ship Lim → ClientId → Ship Lim) : Handler Lim := fun _ s c params =>
  if localRoot (s.clients c) = false then answer s
  else
    (scanGuildcard params).1.elim (answer s) fun gc =>
      (findGuildcard s (s.blockClients c) gc).elim (answer s) fun i => (act s i, [])

def handleLog : Handler Lim := fun o =>
  logCommand (pktLogStart o) o

def handleEndlog : Handler Lim :=
  logCommand pktLogStop

def handleStfu : Handler Lim := fun _ s c params =>
  if localGm (s.clients c) = false then answer s
  else
    (scanGuildcard params).1.elim (answer s) fun gc =>
      let found := (s.blockClients c).find? fun i => (s.clients i).guildcard = gc ∧
        (s.clients i).privilege < (s.clients c).privilege
      found.elim (answer s) fun i => (s.modFlags i fun f => { f with stfu := true }, [])

def handleUnstfu : Handler Lim := fun _ s c params =>
  if localGm (s.clients c) = false then answer s
  else
    (scanGuildcard params).1.elim (answer s) fun gc =>
      (findGuildcard s (s.blockClients c) gc).elim (answer s) fun i =>
        (s.modFlags i fun f => { f with stfu := false }, [])

def handleBcast : Handler Lim := fun _ s c params =>
  if localGm (s.clients c) = false then answer s else (s, [.broadcast params])

def handleGbc : Handler Lim := fun _ s c params =>
  if globalGm (s.clients c) = false then answer s
  else if params = [] then answer s
  else (s, [.gate (.globalMsg params)])

/-- `/item`, whose missing words are 0. -/
def handleItem : Handler Lim := fun _ s c params =>
  if localGm (s.clients c) = false then answer s
  else
    let item := scanMany scanHex true 4 params
    if item.length = 0 then answer s
    else
      (s.modClient c fun i =>
        { i with nextItem := fun k => BitVec.ofNat 32 (item.getD k 0) }, [])

def handleItem4 : Handler Lim := fun _ s c params =>
  if localGm (s.clients c) = false then answer s
  else
    (scanHex params).elim (answer s) fun item =>
      (s.modClient c fun i =>
        { i with nextItem := Function.update i.nextItem 3 (BitVec.ofNat 32 item.1) }, [])

/-- `lobby_add_item_locked`, for Blue Burst only. -/
def lobbyAddItem (o : Outside Lim) (l : Lobby) (item : Fin 4 → BitVec 32) : Option Floor :=
  if l.version ≠ .bb ∨ o.itemAllocated = false then none
  else some ⟨l.floor.itemId + 1, (l.floor.itemId, item) :: l.floor.itemQueue⟩

def handleMakeitem : Handler Lim := fun o s c _ =>
  if localGm (s.clients c) = false then answer s
  else
    let l := s.lobbyOf c
    let item := (s.clients c).nextItem
    if l.type ≠ .game then answer s
    else if item 0 = 0 then answer s
    else
      let floor : Option Floor :=
        if l.version = .bb then lobbyAddItem o l item
        else some { l.floor with itemId := l.floor.itemId + 1 }
      floor.elim (answer s) fun f =>
        let dropped := s.modLobby (s.clients c).curLobby fun l => { l with floor := f }
        (dropped.modClient c fun i => { i with nextItem := fun _ => 0 },
          [.lobby (s.clients c).curLobby (.dropStack item (f.itemId - 1))])

/-- `/teleport` and `/stalk`. The client's own position follows that of the other. -/
def handleTeleport : Handler Lim := fun _ s c params =>
  if localGm (s.clients c) = false then answer s
  else
    let l := s.lobbyOf c
    if l.type ≠ .game then answer s
    else
      (strtoulEnd 10 params).1.elim (answer s) fun n =>
        let client := (BitVec.ofNat 32 n).toInt
        if (l.maxClients : ℤ) < client ∨ client < 0 then answer s
        else
          (l.clients client.toNat).elim (answer s) fun i =>
            let p := (s.clients i).pos
            if p.curArea ≠ (s.clients c).pos.curArea then (s, sendWarp s c (p.curArea % 256))
            else
              (s.modClient c fun d => { d with pos := { p with curArea := d.pos.curArea } },
                [.lobby (s.clients c).curLobby (.teleport p)])

/-- `/t x, y, z`. -/
def handleT : Handler Lim := fun o s c params =>
  if localGm (s.clients c) = false then answer s
  else
    let x := strtok params
    let y := strtok x.2
    let z := strtok y.2
    match x.1.bind o.strtof, y.1.bind o.strtof, z.1.bind o.strtof with
    | some x, some y, some z =>
      let p := { (s.clients c).pos with x := x, y := y, z := z }
      (s.modClient c fun d => { d with pos := p }, [.lobby (s.clients c).curLobby (.teleport p)])
    | _, _, _ => answer s

/-- The client of a lobby that a number names. -/
def lobbyClient (l : Lobby) (id : ℤ) : Option ClientId :=
  if (l.maxClients : ℤ) ≤ id ∨ id < 0 then none else l.clients id.toNat

/-- `/smite`: hit and technique points go down. -/
def handleSmite : Handler Lim := fun _ s c params =>
  if localGm (s.clients c) = false then answer s
  else if (s.lobbyOf c).type ≠ .game then answer s
  else
    match scanMany scanInt false 3 params with
    | [id, hp, tp] =>
      if hp < 0 ∨ tp < 0 ∨ 2040 < hp ∨ 2040 < tp then answer s
      else
        (lobbyClient (s.lobbyOf c) id).elim (answer s) fun i =>
          if hp = 0 ∧ tp = 0 then answer s
          else (s, [.lobby (s.clients c).curLobby (.modStat i hp tp)])
    | _ => answer s

/-- `/ws`: words that are not given are empty. -/
def handleWs : Handler Lim := fun _ s c params =>
  if localGm (s.clients c) = false then answer s
  else
    let ws := scanMany scanHex true 4 params
    if ws.length = 0 then answer s
    else (s, [.lobby (s.clients c).curLobby (.wordSelect ws)])

def handleEp3music : Handler Lim := fun _ s c params =>
  if localGm (s.clients c) = false then answer s
  else if (s.lobbyOf c).type ≠ .lobby then answer s
  else if params = [] then answer s
  else
    (strtoulEnd 10 params).1.elim (answer s) fun song =>
      (s, [.lobby (s.clients c).curLobby (.jukebox (song % 256))])

/-- `lobby_setup_quest` for the quests of the ship. -/
def setupQuest (o : Outside Lim) (s : Ship Lim) (l : Lobby) (qid : BitVec 32) (lang : ℕ) : Lobby :=
  let env : SetupEnv := { o.setup with
    configured := !s.quests.isEmpty
    questLookup := fun qid => s.quests.lookup qid }
  let setup : SetupLobby := ⟨l.version, l.challenge, l.battle⟩
  match findQuest env setup qid, lobbySetupQuest env setup qid l.quest.setup with
  | some found, some regs =>
    { l with quest := ⟨true, false, found.1, lang, regs⟩ }
  | _, _ => { l with quest := { l.quest with questSel := false } }

/-- `/quest`, for the English language. -/
def handleQuest : Handler Lim := fun o s c params =>
  if localGm (s.clients c) = false then answer s
  else
    let l := s.lobbyOf c
    if l.type ≠ .game then answer s
    else if l.settings.flags.bursting then answer s
    else
      ((strtok params).1.bind fun t => strtoul (String.ofList t)).elim (answer s) fun n =>
        if s.quests.isEmpty then answer s
        else if (s.quests.lookup (BitVec.ofNat 32 n)).isNone then answer s
        else
          (s.modLobby (s.clients c).curLobby fun l =>
            setupQuest o s l (BitVec.ofNat 32 n) 1, [])

/-- The commands `/teamlog` and `/eteamlog`. -/
def teamLogCommand (set : Lobby → Bool) : Handler Lim := fun _ s c _ =>
  if localGm (s.clients c) = false then answer s
  else if (s.lobbyOf c).type ≠ .game then answer s
  else (s.modLobby (s.clients c).curLobby fun l => { l with logging := set l }, [])

def handleTeamlog : Handler Lim := fun o =>
  teamLogCommand (fun l => l.logging || o.logOpened) o

def handleEteamlog : Handler Lim :=
  teamLogCommand fun _ => false

end ShipServer.CommandHandlers
