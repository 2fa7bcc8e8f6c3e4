import ShipServer.NumberText
import ShipServer.QuestSetup

set_option autoImplicit false

/-! What the chat commands and the GM menu read and write. -/

namespace ShipServer.CommandState

open Versions NumberText QuestSetup

/-- A client of the ship is named by a number, and so is a lobby. -/
abbrev ClientId := ℕ

abbrev LobbyId := ℕ

/-- The `CLIENT_PRIV_*` values that an action asks for. -/
inductive Privilege where
  | localGm
  | globalGm
  | localRoot
  deriving DecidableEq, Repr

def Privilege.mask : Privilege → BitVec 32
  | .localGm => 0x1
  | .globalGm => 0x2
  | .localRoot => 0x4

/-- `CLIENT_PRIV_GLOBAL_ROOT` asks for no action of its own. -/
def globalRootMask : BitVec 32 := 0x8

/-- All GM and root privileges, without that of a tester. -/
def powers : BitVec 32 :=
  Privilege.localGm.mask ||| Privilege.globalGm.mask ||| Privilege.localRoot.mask |||
    globalRootMask

def grants (privilege : BitVec 32) (p : Privilege) : Bool :=
  privilege &&& p.mask ≠ 0

/-- The `CLIENT_FLAG_*` bits that the commands read or write. -/
structure ClientFlags where
  loggedIn : Bool
  disconnected : Bool
  stfu : Bool
  gcProtect : Bool
  gotChar : Bool
  legit : Bool
  alwaysLegit : Bool
  invulnerable : Bool
  infiniteTp : Bool
  showDcpcOnGc : Bool
  overrideGame : Bool
  autoBackup : Bool
  serverDrops : Bool
  trackInventory : Bool
  trackKills : Bool
  wordCensor : Bool

/-- Where a client is: `cur_area` and the words of `x`, `y`, `z` and `w`. -/
structure Position where
  curArea : ℕ
  x : BitVec 32
  y : BitVec 32
  z : BitVec 32
  w : BitVec 32

structure Client where
  guildcard : BitVec 32
  clientId : ℕ
  ipAddr : Option (BitVec 32)
  version : ClientVersion
  privilege : BitVec 32
  flags : ClientFlags
  pos : Position
  logging : Bool
  curBlock : ℕ
  curLobby : LobbyId
  arrow : ℤ
  nextItem : Fin 4 → BitVec 32
  nextMaps : Option (List ℕ)
  ignoreList : List (BitVec 32)
  ccChar : Option Char
  qLang : ℕ
  level : BitVec 32

/-- The `LOBBY_FLAG_*` bits that the commands read or write, apart from those of the quest. -/
structure LobbyFlags where
  bursting : Bool
  legitMode : Bool
  dcOnly : Bool
  pcOnly : Bool
  v1Only : Bool
  gcAllowed : Bool
  singlePlayer : Bool
  hasNpc : Bool

/-- The items on the floor of a game. -/
structure Floor where
  itemId : BitVec 32
  itemQueue : List (BitVec 32 × (Fin 4 → BitVec 32))

/-- The quest of a game, with its `LOBBY_FLAG_*` bits. -/
structure GameQuest where
  questing : Bool
  questSel : Bool
  qid : BitVec 32
  qlang : ℕ
  setup : LobbyQuest

/-- What the leader of a game may change. -/
structure GameSettings where
  minLevel : ℕ
  maxLevel : ℕ
  passwd : List Char
  name : List Char
  flags : LobbyFlags

structure Lobby where
  type : LobbyType
  version : ClientVersion
  maxClients : ℕ
  numClients : ℕ
  clients : ℕ → Option ClientId
  leaderId : ℕ
  difficulty : Fin 4
  battle : Bool
  challenge : Bool
  settings : GameSettings
  event : ℕ
  floor : Floor
  quest : GameQuest
  logging : Bool

/-- A ban of a guild card. The end `none` is forever. -/
structure GcBan where
  setBy : BitVec 32
  bannedGc : BitVec 32
  startTime : ℤ
  endTime : Option ℤ
  reason : List Char

/-- A ban of a single address. -/
structure IpBan where
  setBy : BitVec 32
  ipAddr : BitVec 32
  startTime : ℤ
  endTime : ℤ
  reason : List Char

structure Block where
  run : Bool
  clients : List ClientId
  lobbies : List LobbyId

/-- The ship. A limits file has the type `Lim`; `elsewhere` are the clients of other ships, with
their privileges. -/
structure Ship (Lim : Type) where
  clients : ClientId → Client
  lobbies : LobbyId → Lobby
  blocks : List Block
  elsewhere : List (BitVec 32 × BitVec 32)
  questsDir : Bool
  gmFile : Bool
  limitsCount : ℕ
  lobbyEvent : ℕ
  gameEvent : ℕ
  quests : List (BitVec 32 × QuestMapElem)
  gmList : List (BitVec 32 × BitVec 32)
  allLimits : List Lim
  defLimits : Option Lim
  gcBans : List GcBan
  ipBans : List IpBan
  shutdownTime : ℤ
  restartOnShutdown : Bool

/-- What a command meets outside of the ship: the clock, files, memory and the shipgate. -/
structure Outside (Lim : Type) where
  now : ℤ
  readQuests : List (BitVec 32 × QuestMapElem)
  readGms : Option (List (BitVec 32 × BitVec 32))
  readLimits : Option (List Lim × Option Lim)
  banAllocated : Bool
  bansSaved : Bool
  logOpened : Bool
  itemAllocated : Bool
  mapsAllocated : Bool
  gateSends : Bool
  legitItems : Option Lim → Bool
  dropFiles : Bool
  setup : SetupEnv
  strtof : List Char → Option (BitVec 32)
  pton4 : List Char → Option (BitVec 32)

/-- What is sent to all clients of a lobby. -/
inductive LobbyPacket where
  | arrows
  | dropStack (item : Fin 4 → BitVec 32) (itemId : BitVec 32)
  | teleport (pos : Position)
  | modStat (target : ClientId) (hp tp : ℤ)
  | wordSelect (words : List ℕ)
  | spawnNpc (number client follow : ℤ)
  | jukebox (song : ℕ)
  | legitOff

/-- What is sent to the shipgate. -/
inductive GateMessage where
  | cdata (slot : ℕ)
  | creq (slot : ℕ)
  | cbkupReq
  | usrlogin (username password : List Char) (token xbox : Bool)
  | friendAdd (gc : BitVec 32) (nick : List Char)
  | friendDel (gc : BitVec 32)
  | frlistReq (start : BitVec 32)
  | userOpt (option : String) (value : ℕ)
  | globalMsg (text : List Char)
  | ban (gc : BitVec 32) (length : ℕ)
  | kick (gc : BitVec 32)

inductive Effect where
  | warp (target : ClientId) (area : ℕ)
  | lobby (l : LobbyId) (p : LobbyPacket)
  | gate (m : GateMessage)
  | broadcast (text : List Char)
  | giveExp (amount : ℕ)
  | giveLevel (level : ℕ)
  | guildSearch (gc : BitVec 32)
  | unknownCommand (cmd params : List Char)

/-- A command leaves the ship in a new state and sends packets. Its answers to the client itself
are left out. -/
abbrev Outcome (Lim : Type) := Ship Lim × List Effect

variable {Lim : Type}

/-- Nothing but an answer. -/
def answer (s : Ship Lim) : Outcome Lim :=
  (s, [])

def localGm (c : Client) : Bool :=
  grants c.privilege .localGm && c.flags.loggedIn

def globalGm (c : Client) : Bool :=
  grants c.privilege .globalGm && c.flags.loggedIn

def localRoot (c : Client) : Bool :=
  grants c.privilege .localRoot && c.flags.loggedIn

namespace Ship

def modClient (s : Ship Lim) (i : ClientId) (f : Client → Client) : Ship Lim :=
  { s with clients := Function.update s.clients i (f (s.clients i)) }

def modFlags (s : Ship Lim) (i : ClientId) (f : ClientFlags → ClientFlags) : Ship Lim :=
  s.modClient i fun c => { c with flags := f c.flags }

def modLobby (s : Ship Lim) (l : LobbyId) (f : Lobby → Lobby) : Ship Lim :=
  { s with lobbies := Function.update s.lobbies l (f (s.lobbies l)) }

/-- The lobby of a client. -/
def lobbyOf (s : Ship Lim) (c : ClientId) : Lobby :=
  s.lobbies (s.clients c).curLobby

/-- The settings of the game that a client is in. -/
def modSettings (s : Ship Lim) (c : ClientId) (f : GameSettings → GameSettings) : Ship Lim :=
  s.modLobby (s.clients c).curLobby fun l => { l with settings := f l.settings }

/-- The clients of `c->cur_block`. -/
def blockClients (s : Ship Lim) (c : ClientId) : List ClientId :=
  (s.blocks[(s.clients c).curBlock]?).elim [] Block.clients

/-- The clients of all blocks. -/
def connected (s : Ship Lim) : List ClientId :=
  s.blocks.flatMap Block.clients

/-- The clients of the blocks that run. -/
def running (s : Ship Lim) : List ClientId :=
  (s.blocks.filter Block.run).flatMap Block.clients

def disconnect (s : Ship Lim) (i : ClientId) : Ship Lim :=
  s.modFlags i fun f => { f with disconnected := true }

/-- All of some clients are disconnected. -/
def disconnectAll (s : Ship Lim) (is : List ClientId) : Ship Lim :=
  is.foldl disconnect s

end Ship

/-- The digits at the start of a text, their value and what follows. -/
def scanDigits (base : ℕ) : List Char → ℕ → ℕ × List Char
  | [], acc => (acc, [])
  | c :: cs, acc =>
    match digitVal c with
    | some d => if d < base then scanDigits base cs (acc * base + d) else (acc, c :: cs)
    | none => (acc, c :: cs)

def startsNumber (base : ℕ) (s : List Char) : Bool :=
  s.head?.any fun c => (digitVal c).any (· < base)

/-- The sign at the start of a text, and what follows. -/
def scanSign : List Char → Bool × List Char
  | '-' :: cs => (true, cs)
  | '+' :: cs => (false, cs)
  | cs => (false, cs)

/-- `strtoul` with a base of 8 and more and with an end pointer: no value if it sets `errno`. -/
def strtoulEnd (base : ℕ) (s : List Char) : Option ℕ × List Char :=
  let t := scanSign (s.dropWhile isSpace)
  if startsNumber base t.2 = false then (some 0, s)
  else
    let n := scanDigits base t.2 0
    if 2 ^ 64 ≤ n.1 then (none, n.2)
    else (some (if t.1 then (2 ^ 64 - n.1) % 2 ^ 64 else n.1), n.2)

/-- The guild card at the start of the parameters, and the text after it. -/
def scanGuildcard (params : List Char) : Option (BitVec 32) × List Char :=
  let n := strtoulEnd 10 params
  (n.1.map (BitVec.ofNat 32), n.2)

/-- `%d` of `sscanf`. -/
def scanInt (s : List Char) : Option (ℤ × List Char) :=
  let t := scanSign (s.dropWhile isSpace)
  if startsNumber 10 t.2 = false then none
  else
    let n := scanDigits 10 t.2 0
    some ((BitVec.ofInt 32 (if t.1 then -(n.1 : ℤ) else n.1)).toInt, n.2)

def skipHexPrefix : List Char → List Char
  | '0' :: x :: cs => if x = 'x' ∨ x = 'X' then cs else '0' :: x :: cs
  | cs => cs

/-- `%x` of `sscanf`. -/
def scanHex (s : List Char) : Option (ℕ × List Char) :=
  let t := scanSign (s.dropWhile isSpace)
  let u := skipHexPrefix t.2
  if startsNumber 16 u = false then none
  else
    let n := scanDigits 16 u 0
    some ((BitVec.ofInt 32 (if t.1 then -(n.1 : ℤ) else n.1)).toNat, n.2)

/-- Up to `n` conversions of `sscanf`, with a comma between them or with blanks. -/
def scanMany {α : Type} (conv : List Char → Option (α × List Char)) (comma : Bool) :
    ℕ → List Char → List α
  | 0, _ => []
  | n + 1, s =>
    match conv s with
    | none => []
    | some (v, rest) =>
      if comma = false then v :: scanMany conv comma n rest
      else if rest.head? = some ',' then v :: scanMany conv comma n rest.tail
      else [v]

def atoi (s : List Char) : ℤ :=
  ((scanInt s).map Prod.fst).getD 0

def isDelim (c : Char) : Bool :=
  c = ' ' ∨ c = ','

/-- `strtok_r` with blanks and commas between the tokens: the token, and what is left. -/
def strtok (s : List Char) : Option (List Char) × List Char :=
  let t := s.dropWhile isDelim
  if t = [] then (none, [])
  else (some (t.takeWhile fun c => !isDelim c), (t.dropWhile fun c => !isDelim c).tail)

end ShipServer.CommandState
