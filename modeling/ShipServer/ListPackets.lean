import ShipServer.BufferWrites
import ShipServer.QuestLists
import ShipServer.ShipList

set_option autoImplicit false

/-! The packets with lists that clients choose from, as they are built in the buffer of a thread. -/

namespace ShipServer.ListPackets

open BufferWrites Versions QuestLists ShipList

def le16 (n : ℕ) : List UInt8 :=
  [UInt8.ofNat n, UInt8.ofNat (n / 256)]

def le32 (n : ℕ) : List UInt8 :=
  le16 n ++ le16 (n / 65536)

def zeros (n : ℕ) : List UInt8 :=
  List.replicate n 0

def put (offset : ℕ) (bytes : List UInt8) : Write UInt8 where
  offset := offset
  bytes := bytes

/-- The three packet headers. -/
inductive Header where
  | dc
  | pc
  | bb
  deriving DecidableEq

namespace Header

def size : Header → ℕ
  | .dc | .pc => 4
  | .bb => 8

def typeField (h : Header) (type : ℕ) : Write UInt8 :=
  match h with
  | .dc => put 0 [UInt8.ofNat type]
  | .pc => put 2 [UInt8.ofNat type]
  | .bb => put 2 (le16 type)

def flagsField (h : Header) (flags : ℕ) : Write UInt8 :=
  match h with
  | .dc => put 1 [UInt8.ofNat flags]
  | .pc => put 3 [UInt8.ofNat flags]
  | .bb => put 4 (le32 flags)

def lenField (h : Header) (len : ℕ) : Write UInt8 :=
  match h with
  | .dc => put 2 (le16 len)
  | .pc | .bb => put 0 (le16 len)

/-- How many values the flags can have. -/
def flagsLimit : Header → ℕ
  | .dc | .pc => 2 ^ 8
  | .bb => 2 ^ 32

end Header

/-- The texts are converted by `iconv`, which is given room for some bytes. -/
inductive Conversion where
  | fromUtf8 (e : Encoding)
  | latinToUtf16

structure Iconv where
  convert : Conversion → ℕ → List UInt8 → List UInt8
  length_le : ∀ cd out text, (convert cd out text).length ≤ out

def istrncpy (ic : Iconv) (cd : Conversion) (offset : ℕ) (text : List UInt8) (n : ℕ) :
    List (Write UInt8) :=
  [put offset (zeros n), put offset (ic.convert cd n text)]

def strncpy (offset : ℕ) (text : List UInt8) (n : ℕ) : Write UInt8 :=
  put offset (text.take n ++ zeros (n - text.length))

def strcpy (offset : ℕ) (text : List UInt8) : Write UInt8 :=
  put offset (text ++ [0])

def ascii (text : String) : List UInt8 :=
  text.toList.map fun c => UInt8.ofNat c.toNat

/-- Characters that become UTF-16 one by one. The sign of a character is kept. -/
def widen (text : List UInt8) : List UInt8 :=
  text.flatMap fun c => [c, if 128 ≤ c.toNat then 0xFF else 0]

/-- The fields that a list builder sets: `first` is an entry before the list, whose own entries
are numbered from `start` on. -/
structure ListPacket where
  header : Header
  type : ℕ
  cleared : ℕ
  first : List (Write UInt8)
  start : ℕ
  stride : ℕ
  clearLen : ℕ
  slots : List (Slot UInt8)

namespace ListPacket

def layout (p : ListPacket) : Layout where
  base := p.header.size
  stride := p.stride
  clearLen := p.clearLen

/-- The number of bytes that are handed over. -/
def len (p : ListPacket) : ℕ :=
  p.layout.place (p.start + p.slots.length)

/-- What is written before the list. -/
def head (p : ListPacket) : List (Write UInt8) :=
  put 0 (zeros p.cleared) :: p.header.typeField p.type ::
    p.first.map fun f => f.shift p.header.size

def writes (p : ListPacket) : List (Write UInt8) :=
  p.head ++ p.layout.writes 0 p.start p.slots ++
    [p.header.flagsField p.slots.length, p.header.lenField p.len]

def bytes (p : ListPacket) (buf : ℕ → UInt8) : List UInt8 :=
  packet p.writes p.len buf

end ListPacket

/-- Entries that are cleared where they are written. -/
def inOrder : ℕ → List (List (Write UInt8)) → List (Slot UInt8)
  | _, [] => []
  | k, fields :: rest => ⟨k, fields⟩ :: inOrder (k + 1) rest

/-- A menu id and the id of an item of it. -/
def menuItem (menu item : ℕ) : List (Write UInt8) :=
  [put 0 (le32 menu), put 4 (le32 item)]

def menuIdInfodesk : ℕ := 0

def menuIdBlock : ℕ := 1

def menuIdGame : ℕ := 2

def menuIdQcategory : ℕ := 3

def menuIdQuest : ℕ := 4

def menuIdShip : ℕ := 5

def menuIdLobby : ℕ := 0xFFFFFFFF

/-- A lobby as the game lists see it. The last flags are those in `flags`. -/
structure ListedLobby where
  type : LobbyType
  episode : ℕ
  v2 : Bool
  version : ClientVersion
  lobbyId : ℕ
  difficulty : ℕ
  numClients : ℕ
  maxClients : ℕ
  challenge : Bool
  battle : Bool
  hasPasswd : Bool
  name : List UInt8
  v1only : Bool
  dconly : Bool
  pconly : Bool
  singleplayer : Bool
  nte : Bool
  gcAllowed : Bool

/-- The kinds of quests that categories are for. -/
inductive QuestType where
  | normal
  | battle
  | challenge
  deriving DecidableEq

/-- A category in a menu. Types that no game asks for are `none`. -/
structure CategoryInfo where
  type : Option QuestType
  debug : Bool
  privileges : BitVec 32
  name : List UInt8
  desc : List UInt8

structure InfoFile where
  versions : List ClientVersion
  languages : ℕ
  desc : Option (List UInt8)

/-- What the lists are made from. `running` says for each configured block whether it is there and
runs, and `behind` is what follows the name of a ship in memory. -/
structure ServerState where
  shipName : List UInt8
  running : List Bool
  infoFiles : List InfoFile
  ships : List Miniship
  menuCodes : List ℕ
  behind : Miniship → List UInt8
  lobbies : List ListedLobby
  quests : QuestConfig
  categories : ClientVersion → Lang → List CategoryInfo

/-- A client, with the lobby it is in. -/
structure Viewer extends Member where
  nte : Bool
  showDcpcOnGc : Bool
  gcMsgBoxes : Bool
  lobby : Game
  battle : Bool

def Viewer.globalGm (c : Viewer) : Bool :=
  c.privilege &&& 2 ≠ 0 ∧ c.loggedIn = true

section Games

variable (ic : Iconv) (s : ServerState) (c : Viewer)

def listsOnDc (l : ListedLobby) : Bool :=
  l.type = .game ∧ l.episode = 0 ∧ !(c.version = .dcv1 ∧ l.v2) ∧
    !(c.version = .dcv2 ∧ l.v1only) ∧ !l.pconly ∧ !l.singleplayer ∧ l.nte = c.nte

def listsOnPc (l : ListedLobby) : Bool :=
  l.type = .game ∧ l.episode = 0 ∧ !l.v1only ∧ !l.dconly ∧ !l.singleplayer ∧
    if c.nte then l.nte ∧ l.version = .pc else !l.nte

def listsOnGc (l : ListedLobby) : Bool :=
  l.type = .game ∧ l.version ≠ .bb ∧ !(l.episode = 0 ∧ (!c.showDcpcOnGc ∨ !l.gcAllowed)) ∧
    !l.singleplayer ∧ !l.nte

def listsOnEp3 (l : ListedLobby) : Bool :=
  l.type = .ep3Game

def listsOnBb (l : ListedLobby) : Bool :=
  l.type = .game ∧ l.version = .bb

/-- The bits of a game that all lists show. -/
def gameBits (l : ListedLobby) : ℕ :=
  (if l.challenge then 0x20 else 0) ||| (if l.battle then 0x10 else 0) |||
    (if l.hasPasswd then 2 else 0)

/-- What all game lists say about a game before its name. -/
def gameFields (l : ListedLobby) : List (Write UInt8) :=
  menuItem menuIdGame l.lobbyId ++
    [put 8 [UInt8.ofNat (0x22 + l.difficulty)], put 9 [UInt8.ofNat l.numClients]]

/-- A name in one byte per character. -/
def byteName (l : ListedLobby) : List (Write UInt8) :=
  if l.name[1]? = some 0x4A then istrncpy ic (.fromUtf8 .sjis) 10 l.name 16
  else istrncpy ic (.fromUtf8 .iso8859) 10 l.name 16

def dcGameEntry (l : ListedLobby) : List (Write UInt8) :=
  gameFields l ++
    [put 27 [UInt8.ofNat (gameBits l ||| if l.v2 then 0x40 else 0)]] ++
    (if l.nte then istrncpy ic (.fromUtf8 .sjis) 10 (l.name.drop 2) 16 else []) ++ byteName ic l

def gcGameEntry (l : ListedLobby) : List (Write UInt8) :=
  gameFields l ++
    [put 27 [UInt8.ofNat ((if l.episode ≤ 1 then 0x40 else 0x80) ||| gameBits l)]] ++
    byteName ic l

def pcGameEntry (l : ListedLobby) : List (Write UInt8) :=
  gameFields l ++ [put 42 [if l.v2 then 1 else 0],
    put 43 [UInt8.ofNat (gameBits l ||| if l.v2 then 0x40 else 0)]] ++
    istrncpy ic (.fromUtf8 .utf16) 10 l.name 0x1C

def bbGameEntry (l : ListedLobby) : List (Write UInt8) :=
  gameFields l ++ [put 42 [UInt8.ofNat ((l.maxClients <<< 4) ||| l.episode)],
    put 43 [UInt8.ofNat (gameBits l ||| if l.singleplayer then 4 else 0)]] ++
    istrncpy ic (.fromUtf8 .utf16) 10 l.name 0x20

/-- The lists of games on Dreamcast and Gamecube, which start with the name of the ship. -/
def byteGameList (entries : List (List (Write UInt8))) : ListPacket where
  header := .dc
  type := 0x08
  cleared := 0x20
  first := menuItem menuIdLobby 0xFFFFFFFF ++ [put 27 [4], strcpy 10 s.shipName]
  start := 1
  stride := 0x1C
  clearLen := 0x1C
  slots := inOrder 1 entries

def sendDcGameList : ListPacket :=
  byteGameList s ((s.lobbies.filter (listsOnDc c)).map (dcGameEntry ic))

def sendGcGameList : ListPacket :=
  byteGameList s ((s.lobbies.filter (listsOnGc c)).map (gcGameEntry ic))

def sendEp3GameList : ListPacket :=
  byteGameList s ((s.lobbies.filter listsOnEp3).map (gcGameEntry ic))

def wideGameList (header : Header) (entries : List (List (Write UInt8))) : ListPacket where
  header := header
  type := 0x08
  cleared := header.size + 0x2C
  first := menuItem menuIdLobby 0xFFFFFFFF ++ [put 43 [4]] ++
    istrncpy ic .latinToUtf16 10 s.shipName 0x20
  start := 1
  stride := 0x2C
  clearLen := 0x2C
  slots := inOrder 1 entries

def sendPcGameList : ListPacket :=
  wideGameList ic s .pc ((s.lobbies.filter (listsOnPc c)).map (pcGameEntry ic))

def sendBbGameList : ListPacket :=
  wideGameList ic s .bb ((s.lobbies.filter listsOnBb).map (bbGameEntry ic))

def sendGameList : ListPacket :=
  match c.version with
  | .dcv1 | .dcv2 => sendDcGameList ic s c
  | .pc => sendPcGameList ic s c
  | .gc | .xbox => sendGcGameList ic s c
  | .ep3 => sendEp3GameList ic s
  | .bb => sendBbGameList ic s

end Games

section Blocks

variable (ic : Iconv) (s : ServerState) (c : Viewer)

/-- An entry that names the ship itself, in one byte per character. -/
def byteShipEntry : List (Write UInt8) :=
  put 0 (zeros 0x1C) :: menuItem 0x00040000 0 ++
    [put 8 (le16 0), strncpy 10 s.shipName 0x10, put 25 [0], put 26 [8], put 27 [0]]

def wideShipEntry : List (Write UInt8) :=
  put 0 (zeros 0x2C) :: menuItem 0x00040000 0 ++
    [put 8 (le16 0), put 10 (widen (s.shipName.take 0x10))]

/-- The numbers of the blocks that run. -/
def runningBlocks : List ℕ :=
  (s.running.zipIdx 1).filterMap fun b => if b.1 then some b.2 else none

def blockName (i : ℕ) : List UInt8 :=
  ascii "BLOCK" ++ [UInt8.ofNat (i / 10 + 48), UInt8.ofNat (i % 10 + 48)]

def blockFields (item : ℕ) (name : Write UInt8) : List (Write UInt8) :=
  menuItem menuIdBlock item ++ [put 8 (le16 0), name]

def sendDcBlockList : ListPacket where
  header := .dc
  type := 0x07
  cleared := 4
  first := byteShipEntry s
  start := 1
  stride := 0x1C
  clearLen := 0x1C
  slots := inOrder 1 ((runningBlocks s).map (fun i => blockFields i (put 10 (blockName i))) ++
    [blockFields 0xFFFFFFFF (strncpy 10 (ascii "Ship Select") 0x11)])

def wideBlockList (header : Header) : ListPacket where
  header := header
  type := 0x07
  cleared := header.size
  first := wideShipEntry s
  start := 1
  stride := 0x2C
  clearLen := 0x2C
  slots := inOrder 1
    ((runningBlocks s).map (fun i => blockFields i (put 10 (widen (blockName i)))) ++
      [blockFields 0xFFFFFFFF (put 10 (widen (ascii "Ship Select")))])

def sendPcBlockList : ListPacket :=
  wideBlockList s .pc

def sendBbBlockList : ListPacket :=
  wideBlockList s .bb

def sendBlockList : ListPacket :=
  match c.version with
  | .dcv1 | .dcv2 | .gc | .ep3 | .xbox => sendDcBlockList s
  | .pc => sendPcBlockList s
  | .bb => sendBbBlockList s

/-- The information files for a version, with their numbers and titles. -/
def infoFiles (v : ClientVersion) : List (ℕ × List UInt8) :=
  s.infoFiles.zipIdx.filterMap fun f =>
    if v ∈ f.1.versions ∧ f.1.languages.testBit c.qLang then f.1.desc.map fun d => (f.2, d)
    else none

def infoFields (item : ℕ) (title : List (Write UInt8)) : List (Write UInt8) :=
  menuItem menuIdInfodesk item ++ [put 8 (le16 0)] ++ title

def sendDcInfoList (v : ClientVersion) : ListPacket where
  header := .dc
  type := 0x1F
  cleared := 4
  first := byteShipEntry s
  start := 1
  stride := 0x1C
  clearLen := 0x1C
  slots := inOrder 1 ((infoFiles s c v).map fun f =>
    infoFields f.1 [strncpy 10 f.2 0x11, put 27 [0]])

def sendPcInfoList : ListPacket where
  header := .pc
  type := 0x1F
  cleared := 0x30
  first := put 0 (zeros 0x1C) :: menuItem 0x00040000 0 ++ [put 8 (le16 0)] ++
    istrncpy ic .latinToUtf16 10 s.shipName 0x20
  start := 1
  stride := 0x2C
  clearLen := 0x2C
  slots := inOrder 1 ((infoFiles s c .pc).map fun f =>
    infoFields f.1 (istrncpy ic .latinToUtf16 10 f.2 0x20))

def sendInfoList : Option ListPacket :=
  match c.version with
  | .dcv1 => some (sendDcInfoList s c .dcv1)
  | .dcv2 => some (sendDcInfoList s c .dcv2)
  | .gc | .xbox => if c.gcMsgBoxes then some (sendDcInfoList s c .gc) else none
  | .pc => some (sendPcInfoList ic s c)
  | .ep3 | .bb => none

end Blocks

section Ships

variable (ic : Iconv) (s : ServerState) (c : Viewer)

/-- The `LOGIN_FLAG_*` bits. -/
def flagGmonly : ℕ := 0

def flagNov1 : ℕ := 4

def flagNodcnte : ℕ := 10

def flagNoxbox : ℕ := 11

def flagNopcnte : ℕ := 12

def mayEnter (i : Miniship) : Bool :=
  i.info.privileges &&& c.privilege.toNat = i.info.privileges

/-- The bit that keeps a client from a ship, as `is_ship_menu_empty` has it. -/
def versionBit : ℕ :=
  match c.version with
  | .dcv1 => if c.nte then flagNodcnte else flagNov1
  | .dcv2 | .gc | .ep3 | .bb => flagNov1 + c.version.code
  | .xbox => flagNoxbox
  | .pc => if c.nte then flagNopcnte else flagNov1 + c.version.code

def inMenu (i : Miniship) (menuCode : ℕ) : Bool :=
  i.shipId ≠ 0 ∧ i.menuCode = menuCode

def isShipMenuEmpty (menuCode : ℕ) : Bool :=
  !s.ships.any fun i => inMenu i menuCode ∧ !(i.info.flags.testBit flagGmonly ∧ !c.globalGm) ∧
    !i.info.flags.testBit (versionBit c) ∧ (mayEnter c i ∨ c.globalGm)

/-- Ships for global GMs only are hidden by the privileges alone. -/
def gmonly (i : Miniship) : Bool :=
  i.info.flags.testBit flagGmonly ∧ c.privilege &&& 2 = 0

def listsOnDcShip (menuCode : ℕ) (i : Miniship) : Bool :=
  inMenu i menuCode ∧ !gmonly c i ∧
    (if c.nte then !i.info.flags.testBit flagNodcnte else mayEnter c i ∨ c.globalGm) ∧
    !i.info.flags.testBit (if c.version = .xbox then flagNoxbox else flagNov1 + c.version.code)

def listsOnPcShip (menuCode : ℕ) (i : Miniship) : Bool :=
  inMenu i menuCode ∧ !gmonly c i ∧
    if c.nte then !i.info.flags.testBit flagNopcnte
    else !i.info.flags.testBit (flagNov1 + c.version.code) ∧ (mayEnter c i ∨ c.globalGm)

def listsOnBbShip (menuCode : ℕ) (i : Miniship) : Bool :=
  inMenu i menuCode ∧ !gmonly c i ∧ !i.info.flags.testBit (flagNov1 + 5) ∧
    (mayEnter c i ∨ c.globalGm)

/-- The two characters of a menu code. -/
def codeText (menuCode : ℕ) : List UInt8 :=
  le16 menuCode

/-- The bytes before the first zero. -/
def cString (bytes : List UInt8) : List UInt8 :=
  bytes.takeWhile fun b => b ≠ 0

def isAlpha (b : UInt8) : Bool :=
  (65 ≤ b.toNat ∧ b.toNat ≤ 90) ∨ (97 ≤ b.toNat ∧ b.toNat ≤ 122)

/-- What `sprintf` writes for `%02x`. -/
def hexText (n : ℕ) : List UInt8 :=
  let digits := (Nat.digits 16 n).reverse.map fun d => UInt8.ofNat (Nat.digitChar d).toNat
  List.replicate (2 - digits.length) 48 ++ digits

/-- The text for a ship. Its name ends at the first zero, if need be behind its array. -/
def shipText (menuCode : ℕ) (i : Miniship) : List UInt8 :=
  hexText i.shipNumber ++ ascii ":" ++ cString (codeText menuCode) ++
    (if UInt8.ofNat menuCode ≠ 0 then ascii "/" else []) ++ cString (i.info.name ++ s.behind i)

/-- The codes of the other menus that are shown. -/
def otherMenus (menuCode : ℕ) : List ℕ :=
  s.menuCodes.filter fun code => code ≠ menuCode ∧ !isShipMenuEmpty s c code ∧
    ((codeText code).all (· = 0) ∨ (codeText code).all isAlpha)

def menuText (code : ℕ) : List UInt8 :=
  if (codeText code).all (· ≠ 0) then ascii "SHIP/" ++ codeText code else ascii "SHIP/Main"

/-- An entry of a ship list with the writes of its text. -/
def shipFields (menu item flags : ℕ) (text : List (Write UInt8)) : List (Write UInt8) :=
  menuItem menu item ++ [put 8 (le16 flags)] ++ text

/-- The ships and menus that a list shows. -/
def shipEntries (text : List UInt8 → List (Write UInt8)) (lists : Miniship → Bool)
    (menuCode : ℕ) : List (List (Write UInt8)) :=
  ((s.ships.filter lists).map fun i =>
      shipFields menuIdShip i.shipId 0 (text (shipText s menuCode i))) ++
    (otherMenus s c menuCode).map fun code =>
      shipFields (menuIdShip ||| (code <<< 8)) 0 0 (text (menuText code))

def sendDcShipList (menuCode : ℕ) : ListPacket where
  header := .dc
  type := if c.nte then 0x8E else 0xA0
  cleared := 0x20
  first := put 0 (zeros 0x1C) ::
    shipFields menuIdShip 0 4 [strcpy 10 (ascii "SHIP/US"), put 27 [8]]
  start := 1
  stride := 0x1C
  clearLen := 0x1C
  slots := inOrder 1
    (shipEntries s c (fun text => [strcpy 10 text]) (listsOnDcShip c menuCode) menuCode)

/-- The lists with names in UTF-16. Both versions clear as much at the beginning. -/
def wideShipList (header : Header) (lists : Miniship → Bool) (menuCode : ℕ) : ListPacket where
  header := header
  type := 0xA0
  cleared := 0x30
  first := put 0 (zeros 0x1C) :: shipFields menuIdShip 0 4 [put 10 (widen (ascii "SHIP/US"))]
  start := 1
  stride := 0x2C
  clearLen := 0x2C
  slots := inOrder 1
    (shipEntries s c (fun text => istrncpy ic .latinToUtf16 10 text 0x22) lists menuCode)

def sendPcShipList (menuCode : ℕ) : ListPacket :=
  wideShipList ic s c .pc (listsOnPcShip c menuCode) menuCode

def sendBbShipList (menuCode : ℕ) : ListPacket :=
  wideShipList ic s c .bb (listsOnBbShip c menuCode) menuCode

def sendShipList (menuCode : ℕ) : ListPacket :=
  match c.version with
  | .dcv1 | .dcv2 | .gc | .ep3 | .xbox => sendDcShipList s c menuCode
  | .pc => sendPcShipList ic s c menuCode
  | .bb => sendBbShipList ic s c menuCode

end Ships

section Quests

variable (ic : Iconv) (s : ServerState) (c : Viewer)

/-- Texts behind a marker of their language. -/
def markedText (e : Encoding) (offset : ℕ) (text : List UInt8) (room : ℕ) : List (Write UInt8) :=
  [put (offset + 2) (ic.convert (.fromUtf8 e) room text),
    put offset (ascii (if e = .sjis then "\tJ" else "\tE"))]

def markedEntry (menu item : ℕ) (e : Encoding) (name desc : List UInt8) (descRoom : ℕ) :
    List (Write UInt8) :=
  menuItem menu item ++ markedText ic e 8 name 30 ++ markedText ic e 40 desc descRoom

def wideEntry (menu item : ℕ) (name desc : List UInt8) (descRoom : ℕ) : List (Write UInt8) :=
  menuItem menu item ++ [put 8 (ic.convert (.fromUtf8 .utf16) 64 name),
    put 72 (ic.convert (.fromUtf8 .utf16) descRoom desc)]

/-- The quest menus have no entry before the list. -/
def questMenu (header : Header) (cleared stride clearLen : ℕ) (slots : List (Slot UInt8)) :
    ListPacket where
  header := header
  type := 0xA2
  cleared := cleared
  first := []
  start := 0
  stride := stride
  clearLen := clearLen
  slots := slots

def questType : QuestType :=
  if c.battle then .battle else if c.lobby.challenge then .challenge else .normal

def listsCategory (cat : CategoryInfo) : Bool :=
  cat.type = some (questType c) ∧ !(cat.debug ∧ !c.localGm) ∧
    (cat.privileges &&& c.privilege = cat.privileges ∨ c.localGm)

/-- The categories that are shown, with their numbers. -/
def shownCategories (cats : List CategoryInfo) : List (CategoryInfo × ℕ) :=
  cats.zipIdx.filter fun cat => listsCategory c cat.1

/-- The language whose list is shown, and the list. The English one stands in for an empty list. -/
def categoryList (v fallback : ClientVersion) (lang : Lang) : Lang × List CategoryInfo :=
  if (s.categories v lang).length = 0 then (english, s.categories fallback english)
  else (lang, s.categories v lang)

def categoryMenu (lang : Lang) : ℕ :=
  menuIdQcategory ||| (lang.val <<< 24)

/-- The encoding of the menus in one byte per character. -/
def menuEncoding (lang : Lang) : Encoding :=
  if lang = japanese then .sjis else .iso8859

def dcVersion : ClientVersion :=
  if c.lobby.version = .gc ∨ c.version = .ep3 ∨ c.lobby.version = .xbox then .gc
  else if c.lobby.v2 then .dcv2 else .dcv1

def sendDcQuestCategories (lang : Lang) : ListPacket :=
  let found := categoryList s (dcVersion c) (dcVersion c) lang
  questMenu .dc 4 0x98 0x98 (inOrder 0 ((shownCategories c found.2).map fun cat =>
    markedEntry ic (categoryMenu found.1) cat.2 (menuEncoding found.1) cat.1.name cat.1.desc 110))

def sendXboxQuestCategories (lang : Lang) : ListPacket :=
  let found := categoryList s .gc .gc lang
  questMenu .dc 4 0xA8 0xA8 (inOrder 0 ((shownCategories c found.2).map fun cat =>
    markedEntry ic (categoryMenu found.1) cat.2 (menuEncoding found.1) cat.1.name cat.1.desc 126))

/-- Entries that are cleared at the number of the category. -/
def wideCategories (found : Lang × List CategoryInfo) (descRoom : ℕ) : List (Slot UInt8) :=
  (shownCategories c found.2).map fun cat =>
    ⟨cat.2, wideEntry ic (categoryMenu found.1) cat.2 cat.1.name cat.1.desc descRoom⟩

/-- The English list for PC is the one for Dreamcast. -/
def pcCategoryList (lang : Lang) : Lang × List CategoryInfo :=
  if c.lobby.v2 then categoryList s .pc .dcv2 lang else categoryList s .dcv1 .dcv1 lang

def bbCategoryList (lang : Lang) : Lang × List CategoryInfo :=
  categoryList s .bb .bb lang

def sendPcQuestCategories (lang : Lang) : ListPacket :=
  questMenu .pc 4 0x128 0x128 (wideCategories ic c (pcCategoryList s c lang) 224)

def sendBbQuestCategories (lang : Lang) : Option ListPacket :=
  if (bbCategoryList s lang).2.length = 0 then none
  else some (questMenu .bb 0 0x13C 0x13C (wideCategories ic c (bbCategoryList s lang) 244))

def listCategories (lang : Lang) : Option ListPacket :=
  match c.version with
  | .dcv1 | .dcv2 | .gc | .ep3 => some (sendDcQuestCategories ic s c lang)
  | .pc => some (sendPcQuestCategories ic s c lang)
  | .xbox => some (sendXboxQuestCategories ic s c lang)
  | .bb => sendBbQuestCategories ic s c lang

/-- The language that is asked for, or the client's own. -/
def categoryLang (lang : ℤ) : ℕ :=
  if lang < 0 ∨ 8 ≤ lang then c.languageCode else lang.toNat

/-- Nothing is known of a list for a language that there is not. -/
def sendQuestCategories (lang : ℤ) : Option ListPacket :=
  if h : categoryLang c lang < 8 then listCategories ic s c ⟨categoryLang c lang, h⟩ else none

def questMenuId (o : Offer) : ℕ :=
  menuIdQuest ||| (o.episode.getD 0 <<< 8) ||| (o.lang.val <<< 24)

def byteOffer (descRoom : ℕ) (o : Offer) : List (Write UInt8) :=
  markedEntry ic (questMenuId o) o.qid.toNat o.encoding o.name o.desc descRoom

def wideOffer (descRoom : ℕ) (o : Offer) : List (Write UInt8) :=
  wideEntry ic (questMenuId o) o.qid.toNat o.name o.desc descRoom

/-- The packet for the quests that a builder offers. Xbox clears less than it sends. -/
def offerMenu (offers : List Offer) : ListPacket :=
  match c.version with
  | .dcv1 | .dcv2 | .gc | .ep3 =>
    questMenu .dc 4 0x98 0x98 (inOrder 0 (offers.map (byteOffer ic 110)))
  | .pc => questMenu .pc 4 0x128 0x128 (inOrder 0 (offers.map (wideOffer ic 224)))
  | .xbox => questMenu .dc 4 0xA8 0x98 (inOrder 0 (offers.map (byteOffer ic 126)))
  | .bb => questMenu .bb 0 0x13C 0x13C (inOrder 0 (offers.map (wideOffer ic 244)))

def sendQuestMenu (now cn langCode : ℕ) : Option ListPacket :=
  match sendQuestList s.quests c.lobby c.toMember now cn langCode with
  | .sent offers => some (offerMenu ic c offers)
  | _ => none

end Quests

/-- The lists that a client can get. -/
inductive Request where
  | games
  | categories (lang : ℤ)
  | quests (now cn langCode : ℕ)
  | ships (menuCode : ℕ)
  | blocks
  | infos

/-- The packet of a list, if one is sent. -/
def listPacket (ic : Iconv) (s : ServerState) (c : Viewer) : Request → Option ListPacket
  | .games => some (sendGameList ic s c)
  | .categories lang => sendQuestCategories ic s c lang
  | .quests now cn langCode => sendQuestMenu ic s c now cn langCode
  | .ships menuCode => some (sendShipList ic s c menuCode)
  | .blocks => some (sendBlockList s c)
  | .infos => sendInfoList ic s c

end ShipServer.ListPackets
