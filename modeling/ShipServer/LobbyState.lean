import ShipServer.LobbyRooms

set_option autoImplicit false

namespace ShipServer.LobbyState

open Versions LobbyRooms

/-- A game packet: the header's type and destination slot, the subcommand, and the rest. -/
structure GamePkt where
  pktType : ℕ
  subcmd : ℕ
  dest : ℕ
  body : List UInt8
  deriving DecidableEq

/-- The parts of the character data that the lobby code looks at. -/
structure PlayerData where
  level : ℕ
  chClass : ℕ
  times : Vector ℕ 9
  timesEp2 : Vector ℕ 5

/-- The fields of a client that logins, chat commands and the shipgate set. -/
structure Account where
  version : ClientVersion
  isNte : Bool
  gcProtect : Bool
  localGm : Bool
  alwaysLegit : Bool
  legit : Bool
  limits : Bool
  player : PlayerData

structure ShipClient extends Presence where
  account : Account
  overrideGame : Bool
  gotChar : Bool
  waitQping : Bool
  joinTime : ℕ
  lobbyId : ℕ
  lobbyReq : Option LobbyHandle

/-- The fields of a lobby that chat commands, quests and scripts set. -/
structure LobbySettings where
  questing : Bool
  questSel : Bool
  tempUnavail : Bool
  legitMode : Bool
  dcOnly : Bool
  pcOnly : Bool
  v1Only : Bool
  gcAllowed : Bool
  singlePlayer : Bool
  qJoin : Bool
  minLevel : ℕ
  maxLevel : ℕ

structure Lobby extends Room where
  lobbyId : ℕ
  leaderId : ℕ
  challenge : Bool
  v2 : Bool
  episode : ℕ
  maxChal : ℕ
  onlyOne : Bool
  settings : LobbySettings
  pktQueue : List (ClientId × GamePkt)
  burstQueue : List (ClientId × GamePkt)

/-- A queued packet as the drain loop hands it over: `lobby` is where its source is then. -/
structure Handing where
  src : ClientId
  pkt : GamePkt
  lobby : Option LobbyHandle
  deriving DecidableEq

/-- A block with its clients and lobbies; `nextId` is the lobby id of the block's thread. The
last three fields are history: the last password each client gave for each lobby, the packets
each lobby has queued and those it has handed over. -/
structure Block where
  client : ClientId → ShipClient
  lobby : LobbyHandle → Lobby
  lobbies : List LobbyHandle
  nextLobby : LobbyHandle
  nextId : ℕ
  numGames : ℤ
  submitted : ClientId → LobbyHandle → Option (List UInt8)
  accepted : LobbyHandle → List (ClientId × GamePkt)
  handed : LobbyHandle → List Handing

/-- The packet queues of the lobbies, and the history. -/
structure Ledger where
  submitted : ClientId → LobbyHandle → Option (List UInt8)
  pktQueue : LobbyHandle → List (ClientId × GamePkt)
  accepted : LobbyHandle → List (ClientId × GamePkt)
  handed : LobbyHandle → List Handing

namespace Ledger

/-- The queue of a lobby is thrown away. -/
def clear (m : Ledger) (h : LobbyHandle) : Ledger :=
  { m with pktQueue := Function.update m.pktQueue h [] }

/-- A lobby queues a packet. -/
def accept (m : Ledger) (h : LobbyHandle) (x : ClientId × GamePkt) : Ledger :=
  { m with
    pktQueue := Function.update m.pktQueue h (m.pktQueue h ++ [x])
    accepted := Function.update m.accepted h (m.accepted h ++ [x]) }

/-- A lobby hands a packet over. -/
def handOver (m : Ledger) (h : LobbyHandle) (x : Handing) : Ledger :=
  { m with handed := Function.update m.handed h (m.handed h ++ [x]) }

end Ledger

namespace Block

variable (b : Block)

def modClient (c : ClientId) (f : ShipClient → ShipClient) : Block :=
  { b with client := Function.update b.client c (f (b.client c)) }

def modLobby (l : LobbyHandle) (f : Lobby → Lobby) : Block :=
  { b with lobby := Function.update b.lobby l (f (b.lobby l)) }

def rooms : Rooms where
  presence c := (b.client c).toPresence
  room l := (b.lobby l).toRoom
  lobbies := b.lobbies
  nextLobby := b.nextLobby

def ledger : Ledger where
  submitted := b.submitted
  pktQueue l := (b.lobby l).pktQueue
  accepted := b.accepted
  handed := b.handed

@[simp] theorem client_modLobby (l : LobbyHandle) (f : Lobby → Lobby) :
    (b.modLobby l f).client = b.client := rfl

@[simp] theorem lobby_modClient (c : ClientId) (f : ShipClient → ShipClient) :
    (b.modClient c f).lobby = b.lobby := rfl

@[simp] theorem client_modClient (c : ClientId) (f : ShipClient → ShipClient) :
    (b.modClient c f).client c = f (b.client c) := by
  simp [modClient]

@[simp] theorem lobby_modLobby (l : LobbyHandle) (f : Lobby → Lobby) :
    (b.modLobby l f).lobby l = f (b.lobby l) := by
  simp [modLobby]

@[simp] theorem lobbies_modClient (c : ClientId) (f : ShipClient → ShipClient) :
    (b.modClient c f).lobbies = b.lobbies := rfl

@[simp] theorem lobbies_modLobby (l : LobbyHandle) (f : Lobby → Lobby) :
    (b.modLobby l f).lobbies = b.lobbies := rfl

@[simp] theorem ledger_modClient (c : ClientId) (f : ShipClient → ShipClient) :
    (b.modClient c f).ledger = b.ledger := rfl

theorem rooms_modClient (c : ClientId) (f : ShipClient → ShipClient) :
    (b.modClient c f).rooms = b.rooms.setPresence c (f (b.client c)).toPresence := by
  have hpresence : (fun d => ((b.modClient c f).client d).toPresence) =
      Function.update (fun d => (b.client d).toPresence) c (f (b.client c)).toPresence := by
    funext d
    by_cases hd : d = c
    · subst hd
      simp
    · simp [modClient, hd]
  simp only [rooms, Rooms.setPresence, hpresence]
  rfl

theorem rooms_modLobby (l : LobbyHandle) (f : Lobby → Lobby) :
    (b.modLobby l f).rooms = b.rooms.setRoom l (f (b.lobby l)).toRoom := by
  have hroom : (fun k => ((b.modLobby l f).lobby k).toRoom) =
      Function.update (fun k => (b.lobby k).toRoom) l (f (b.lobby l)).toRoom := by
    funext k
    by_cases hk : k = l
    · subst hk
      simp
    · simp [modLobby, hk]
  simp only [rooms, Rooms.setRoom, hroom]
  rfl

/-- Changes to the other fields of a client leave everybody where they are. -/
theorem rooms_modClient_same {c : ClientId} {f : ShipClient → ShipClient}
    (hf : (f (b.client c)).toPresence = (b.client c).toPresence) :
    (b.modClient c f).rooms = b.rooms := by
  rw [rooms_modClient, hf, Rooms.setPresence]
  simp only [rooms, Function.update_eq_self]

theorem rooms_modLobby_same {l : LobbyHandle} {f : Lobby → Lobby}
    (hf : (f (b.lobby l)).toRoom = (b.lobby l).toRoom) :
    (b.modLobby l f).rooms = b.rooms := by
  rw [rooms_modLobby, hf, Rooms.setRoom]
  simp only [rooms, Function.update_eq_self]

theorem ledger_modLobby (l : LobbyHandle) (f : Lobby → Lobby) :
    (b.modLobby l f).ledger =
      { b.ledger with pktQueue :=
          Function.update b.ledger.pktQueue l (f (b.lobby l)).pktQueue } := by
  have hqueue : (fun k => ((b.modLobby l f).lobby k).pktQueue) =
      Function.update (fun k => (b.lobby k).pktQueue) l (f (b.lobby l)).pktQueue := by
    funext k
    by_cases hk : k = l
    · subst hk
      simp
    · simp [modLobby, hk]
  simp only [ledger, hqueue]
  rfl

theorem ledger_modLobby_same {l : LobbyHandle} {f : Lobby → Lobby}
    (hf : (f (b.lobby l)).pktQueue = (b.lobby l).pktQueue) :
    (b.modLobby l f).ledger = b.ledger := by
  rw [ledger_modLobby, hf]
  simp only [ledger, Function.update_eq_self]

end Block

end ShipServer.LobbyState
