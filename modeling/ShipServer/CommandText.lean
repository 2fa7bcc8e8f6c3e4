import ShipServer.StringReads
import ShipServer.GuildCards
import ShipServer.CommandState

set_option autoImplicit false

/-! How the text of a chat command is taken apart. -/

namespace ShipServer.CommandText

open TracedReads Probe StringReads Transcoding Versions CommandState

abbrev Byte := GuildCards.Byte

abbrev Wide := GuildCards.Wide

/-- What the parsing of a command depends on beside its text. -/
structure Caller where
  localGm : Bool
  gcProtect : Bool
  version : ClientVersion
  clientId : ℕ
  lobbyType : LobbyType
  maxClients : ℕ
  occupied : ℕ → Bool
  /-- `/npc` is allowed: one player, no battle, challenge or quest, on Pioneer 2. -/
  npcAllowed : Bool
  bursting : Bool

/-- What a handler does with its parameters: positions written in local buffers with the sizes of
these, whether a token is used that is missing or that was freed, and the slots of the lobby that
it looks at. -/
structure Uses where
  writes : List (ℕ × ℕ)
  missing : Bool
  freed : Bool
  slots : List ℤ

def nothing : Uses where
  writes := []
  missing := false
  freed := false
  slots := []

/-- A handler reads its parameters from a buffer of some size. -/
abbrev Parser := Caller → ℕ → Probe ℕ Byte Uses

def isBlank (b : Byte) : Bool :=
  b = 0x20

def notBlank (b : Byte) : Bool :=
  !isBlank b

def isUnit (b : Byte) : Bool :=
  b ≠ 0

/-- The units of a word: neither a blank nor the end. -/
def inWord (b : Byte) : Bool :=
  b ≠ 0x20 ∧ b ≠ 0

def asChars (s : List Byte) : List Char :=
  s.map fun b => Char.ofNat b.toNat

/-- Handlers that do not look at their parameters. -/
def ignores : Parser := fun _ _ => pure nothing

/-- Handlers that hand the parameters to functions of the C library, which read them up to their
end: `strtoul`, `sscanf`, `atoi`, `strlen`, `strcmp`, `strcpy`, `strdup`. -/
def ofString (use : Caller → List Char → Uses) : Parser := fun c size => do
  let s ← readWhile isUnit size 0
  pure (use c (asChars s))

def plain : Parser :=
  ofString fun _ _ => nothing

/-- `/forgegc`: the name is copied into a field of 24 bytes. -/
def handleForgegc : Parser :=
  ofString fun c params =>
    let name := (strtoulEnd 10 params).2
    if c.localGm = false ∨ (strtoulEnd 10 params).1 = none then nothing
    else if name.head? ≠ some ' ' ∨ name.tail = [] then nothing
    else { nothing with writes := [(15, 24)] }

/-- `/ban:d` and its siblings: what is taken as the reason starts one byte behind the number. -/
def handleBan : Parser := fun c size => do
  let params ← readWhile isUnit size 0
  let gc := strtoulEnd 10 (asChars params)
  if c.localGm = false ∨ gc.1 = none then pure nothing
  else do
    let _ ← readWhile isUnit size (params.length - gc.2.length + 1)
    pure nothing

def handleBanD : Parser :=
  handleBan

def handleBanW : Parser :=
  handleBan

def handleBanM : Parser :=
  handleBan

def handleBanP : Parser :=
  handleBan

/-- `/maps`: one entry for every digit. -/
def handleMaps : Parser :=
  ofString fun c params =>
    if c.localGm = false then nothing
    else
      { nothing with
        writes := (List.range (min 32 (params.takeWhile Char.isDigit).length)).map
          fun i => (i, 32) }

/-- The loops of `/login`, `/tlogin` and `/xblink`. The first has no test for the end. -/
def credentials : Parser := fun _ _ => do
  let first ← cell 0
  if first = 0 then pure nothing
  else do
    let username ← readWhile notBlank 32 0
    if username.length = 32 then pure { nothing with writes := [(31, 32)] }
    else do
      let password ← readWhile inWord 32 (username.length + 1)
      pure { nothing with writes := [(username.length, 32), (min password.length 31, 32)] }

def handleLogin : Parser :=
  credentials

def handleTlogin : Parser :=
  credentials

def handleXblink : Parser := fun c size =>
  if c.version ≠ .xbox then pure nothing else credentials c size

/-- The slot that `%d` names, if it is one of the lobby. -/
def namedSlot (c : Caller) (params : List Char) : List ℤ :=
  (scanInt params).elim [] fun v => if (c.maxClients : ℤ) ≤ v.1 ∨ v.1 < 0 then [] else [v.1]

def handleClinfo : Parser :=
  ofString fun c params =>
    if c.localGm = false then nothing else { nothing with slots := namedSlot c params }

def handleIgnore : Parser :=
  ofString fun c params =>
    if c.gcProtect = true then nothing else { nothing with slots := namedSlot c params }

def handleSmite : Parser :=
  ofString fun c params =>
    if c.localGm = false ∨ c.lobbyType ≠ .game then nothing
    else
      match scanMany scanInt false 3 params with
      | [id, hp, tp] =>
        if (c.maxClients : ℤ) ≤ id ∨ id < 0 ∨ hp < 0 ∨ tp < 0 ∨ 2040 < hp ∨ 2040 < tp then nothing
        else { nothing with slots := [id] }
      | _ => nothing

/-- The slots that are looked at from the last one down to a free one, and that one. -/
def searchSlot (occupied : ℕ → Bool) : ℕ → List ℤ × ℤ
  | 0 => ([], -1)
  | n + 1 =>
    if occupied n = false then ([(n : ℤ)], n)
    else ((n : ℤ) :: (searchSlot occupied n).1, (searchSlot occupied n).2)

/-- The checks of `/npc` on the slots it got. -/
def npcSlots (c : Caller) (npcnum clientId follow : ℤ) : List ℤ :=
  if npcnum < 0 ∨ 63 < npcnum then []
  else if clientId < 0 ∨ (c.maxClients : ℤ) ≤ clientId then []
  else if c.occupied clientId.toNat = true then [clientId]
  else if follow < 0 ∨ (c.maxClients : ℤ) ≤ follow then [clientId]
  else [clientId, follow]

def handleNpc : Parser :=
  ofString fun c params =>
    if c.lobbyType ≠ .game ∨ c.npcAllowed = false then nothing
    else
      match scanMany scanInt true 3 params with
      | [npcnum] =>
        let found := searchSlot c.occupied c.maxClients
        { nothing with slots := found.1 ++ npcSlots c npcnum found.2 c.clientId }
      | [npcnum, clientId] => { nothing with slots := npcSlots c npcnum clientId c.clientId }
      | [npcnum, clientId, follow] => { nothing with slots := npcSlots c npcnum clientId follow }
      | _ => nothing

/-- The int that `strtoul` is assigned to. -/
def asInt (n : ℕ) : ℤ :=
  (BitVec.ofNat 32 n).toInt

/-- `/teleport` and `/stalk`. -/
def handleTeleport : Parser :=
  ofString fun c params =>
    if c.localGm = false ∨ c.lobbyType ≠ .game then nothing
    else
      (strtoulEnd 10 params).1.elim nothing fun n =>
        if (c.maxClients : ℤ) < asInt n then nothing else { nothing with slots := [asInt n] }

def handleDumpinv : Parser :=
  ofString fun c params =>
    if c.localGm = false ∨ params = "lobby".toList ∨ params = [] then nothing
    else
      (strtoulEnd 10 params).1.elim nothing fun n =>
        let client : ℕ := n % 2 ^ 32
        if 12 ≤ client ∨ (4 ≤ client ∧ c.lobbyType = .game) then nothing
        else { nothing with slots := [(client : ℤ)] }

/-- The tokens that successive calls of `strtok_r` give. -/
def tokens (isDelim : Char → Bool) (s : List Char) : List (List Char) :=
  (s.splitOnP isDelim).filter (· ≠ [])

/-- `/ib`: a length and an address. A length out of range is refused before the address is used. -/
def handleIb : Parser :=
  ofString fun c params =>
    if c.localGm = false then nothing
    else
      match tokens isDelim params with
      | [] => { nothing with missing := true }
      | [slen] => { nothing with missing := (strtoulEnd 10 slen).1.isSome }
      | _ => nothing

def handleQuest : Parser :=
  ofString fun c params =>
    if c.localGm = false ∨ c.lobbyType ≠ .game ∨ c.bursting = true then nothing
    else { nothing with missing := (tokens isDelim params).isEmpty }

/-- `strtol` with base 0 leaves the range of a long. -/
def strtolFails (s : List Char) : Bool :=
  let t := scanSign (s.dropWhile NumberText.isSpace)
  let u := skipHexPrefix t.2
  let base := if u ≠ t.2 then 16 else if t.2.head? = some '0' then 8 else 10
  let n := (scanDigits base u 0).1
  if t.1 then 2 ^ 63 < n else 2 ^ 63 ≤ n

/-- The names of `classes`. -/
def classes : List (List Char) :=
  ["HUmar", "HUnewearl", "HUcast", "RAmar", "RAcast", "RAcaseal", "FOmarl", "FOnewm", "FOnewearl",
    "HUcaseal", "FOmar", "RAmarl"].map String.toList

/-- A class as it is looked up. -/
def classCased (s : List Char) : List Char :=
  (s.take 2).map Char.toUpper ++ (s.drop 2).map Char.toLower

/-- The options of `/list` that take a number without a test that there is one. -/
def isNumbered (tok : List Char) : Bool :=
  tok = "p".toList ∨ tok = "mnlv".toList ∨ tok = "mxlv".toList ∨ tok = "lv".toList

/-- The loop of `send_player_list` over the tokens after the domain. A name is a part of the copy
that is freed before the search for it. -/
def listLoop (named : Bool) : List (List Char) → Uses
  | [] => { nothing with freed := named }
  | [tok] =>
    if isNumbered tok = true then { nothing with missing := true }
    else if tok = "n".toList ∨ tok = "c".toList then nothing
    else { nothing with freed := named }
  | tok :: value :: rest =>
    if isNumbered tok = true then
      if strtolFails value = true then nothing else listLoop named rest
    else if tok = "c".toList then
      if value.length < 5 ∨ classCased value ∉ classes then nothing else listLoop named rest
    else listLoop (named || tok = "n".toList) rest

def handleList : Parser :=
  ofString fun c params =>
    if c.localGm = false then nothing
    else
      match tokens (· = ' ') params with
      | [] => nothing
      | dom :: rest =>
        if dom = "s".toList ∨ dom = "b".toList ∨ dom = "l".toList then listLoop false rest
        else nothing

/-- `cmds`: how the handler of each trigger reads its parameters. -/
def cmds : List (String × Parser) :=
  [("warp", plain), ("kill", plain), ("minlvl", plain), ("maxlvl", plain), ("refresh", plain),
    ("save", plain), ("restore", plain), ("bstat", ignores), ("bcast", plain), ("arrow", plain),
    ("login", handleLogin), ("item", plain), ("item4", plain), ("event", plain),
    ("passwd", plain), ("lname", plain), ("warpall", plain), ("bug", ignores),
    ("clinfo", handleClinfo), ("gban:d", plain), ("gban:w", plain), ("gban:m", plain),
    ("gban:p", plain), ("list", handleList), ("legit", plain), ("normal", ignores),
    ("shutdown", plain), ("log", plain), ("endlog", plain), ("motd", ignores),
    ("friendadd", plain), ("frienddel", plain), ("dconly", plain), ("v1only", plain),
    ("forgegc", handleForgegc), ("invuln", plain), ("inftp", plain), ("smite", handleSmite),
    ("makeitem", ignores), ("teleport", handleTeleport), ("dumpinv", handleDumpinv),
    ("showdcpc", plain), ("allowgc", plain), ("ws", plain), ("ll", ignores), ("npc", handleNpc),
    ("stfu", plain), ("unstfu", plain), ("ignore", handleIgnore), ("unignore", plain),
    ("quit", ignores), ("gameevent", plain), ("ban:d", handleBanD), ("ban:w", handleBanW),
    ("ban:m", handleBanM), ("ban:p", handleBanP), ("unban", plain), ("cc", plain),
    ("qlang", plain), ("friends", plain), ("gbc", plain), ("logout", ignores),
    ("override", ignores), ("ver", ignores), ("restart", plain), ("search", plain), ("gm", ignores),
    ("maps", handleMaps), ("showmaps", ignores), ("restorebk", ignores), ("enablebk", ignores),
    ("disablebk", ignores), ("exp", plain), ("level", plain), ("sdrops", plain),
    ("gcprotect", plain), ("trackinv", ignores), ("trackkill", plain), ("ep3music", plain),
    ("tlogin", handleTlogin), ("dsdrops", ignores), ("noevent", ignores), ("lflags", ignores),
    ("cflags", ignores), ("stalk", handleTeleport), ("showpos", ignores), ("t", plain),
    ("info", ignores), ("quest", handleQuest), ("autolegit", plain), ("censor", plain),
    ("teamlog", ignores), ("eteamlog", ignores), ("ib", handleIb), ("xblink", handleXblink),
    ("logme", ignores)]

/-- The handler of a command. -/
def lookup (codes : List ℕ) : Option (String × Parser) :=
  cmds.find? fun e => e.1.toList.map Char.toNat = codes

def codesOf (s : List Byte) : List ℕ :=
  s.map BitVec.toNat

/-- `command_call`: the command and the parameters, of a text of some length. A copy of the
parameters that is cut off at this length has left the text. -/
def commandCall (len : ℕ) : Probe ℕ Byte (List Byte × List Byte) := do
  let cmd ← readWhile inWord 9 3
  let b ← cell (3 + cmd.length)
  if b = 0 then pure (cmd, [])
  else do
    let params ← readWhile isUnit len (4 + cmd.length)
    pure (cmd, params)

/-- The encodings that the texts of chat packets are converted between. -/
structure ChatCodecs where
  sjis : Encoding Byte
  utf16 : Encoding Wide
  utf8 : Encoding Byte
  sjis_ascii : ∀ c ∈ [0x09, 0x4A, 0x2F], sjis.encode c = some [BitVec.ofNat 8 c]
  utf16_units : ∀ c units, utf16.encode c = some units →
    (c < 2 ^ 16 ∧ units = [BitVec.ofNat 16 c]) ∨ 2 ^ 16 ≤ c
  utf8_ascii : ∀ c < 128, utf8.encode c = some [BitVec.ofNat 8 c]
  utf8_high : ∀ c units, 128 ≤ c → utf8.encode c = some units →
    2 ≤ units.length ∧ ∀ b ∈ units, 128 ≤ b.toNat
  utf8_long : ∀ c units, 2 ^ 16 ≤ c → utf8.encode c = some units → 4 ≤ units.length

/-- A chat packet that is taken as a command, with its length and what stands in the receive buffer
from its message on. For the PC version only the low byte of the third unit is looked at. -/
inductive Chat where
  | dc (pktLen : ℕ) (msg : ℕ → Byte) (slash : msg 2 = 0x2F)
  | pc (pktLen : ℕ) (msg : ℕ → Wide) (slash : (msg 2).toNat % 256 = 0x2F)
  | bb (pktLen : ℕ) (msg : ℕ → Wide) (slash : msg 2 = 0x2F)

section Parse

variable (T : ChatCodecs)

/-- The characters of the message. A length below that of the headers leaves none. -/
def Chat.chars : Chat → List ℕ
  | .dc pktLen msg _ =>
    (if msg 0 = 0x09 ∧ msg 1 = 0x4A then T.sjis else GuildCards.latin1).chars
      ((List.range (pktLen - 12)).map msg)
  | .pc pktLen msg _ => T.utf16.chars ((List.range ((pktLen - 12) / 2)).map msg)
  | .bb pktLen msg _ => T.utf16.chars ((List.range ((pktLen - 16) / 2)).map msg)

def commandParse (pktLen : ℕ) (msg : ℕ → Byte) : List Byte :=
  iconv (if msg 0 = 0x09 ∧ msg 1 = 0x4A then T.sjis else GuildCards.latin1) T.utf8
    ((List.range (pktLen - 12)).map msg) ((pktLen - 12) * 2)

def wcommandParse (pktLen : ℕ) (msg : ℕ → Wide) : List Byte :=
  iconv T.utf16 T.utf8 ((List.range ((pktLen - 12) / 2)).map msg) ((pktLen - 12) * 2)

def bbcommandParse (pktLen : ℕ) (msg : ℕ → Wide) : List Byte :=
  iconv T.utf16 T.utf8 ((List.range ((pktLen - 16) / 2)).map msg) ((pktLen - 16) * 2)

/-- The text that `command_call` gets. -/
def Chat.converted : Chat → List Byte
  | .dc pktLen msg _ => commandParse T pktLen msg
  | .pc pktLen msg _ => wcommandParse T pktLen msg
  | .bb pktLen msg _ => bbcommandParse T pktLen msg

end Parse

/-! What it means that a command stays inside its text. -/

/-- The writes, tokens and slots of a handler are good. -/
structure Good (c : Caller) (u : Uses) : Prop where
  writes : ∀ w ∈ u.writes, w.1 < w.2
  missing : u.missing = false
  freed : u.freed = false
  slots : ∀ v ∈ u.slots, 0 ≤ v ∧ v < c.maxClients

/-- A handler with its parameters in a buffer of some size, with any bytes behind their end. -/
def HandlerInside (c : Caller) (p : Parser) (params : List Byte) (size : ℕ) (junk : ℕ → Byte) :
    Prop :=
  (∀ i ∈ (p c size).reads (memory (params ++ [0]) junk), i < (params ++ [0]).length) ∧
    Good c ((p c size).result (memory (params ++ [0]) junk))

def wordChar (ch : ℕ) : Bool :=
  ch ≠ 0x20 ∧ ch ≠ 0

/-- The command in a chat message: what stands between its slash and the first blank or the end. -/
def Chat.spoken (T : ChatCodecs) (pkt : Chat) : List ℕ :=
  ((pkt.chars T).drop 3).takeWhile wordChar

/-- The size of the buffer for the converted text. -/
def Chat.bufSize : Chat → ℕ
  | .dc pktLen _ _ => (pktLen - 12) * 2
  | .pc pktLen _ _ => (pktLen - 12) * 2
  | .bb pktLen _ _ => (pktLen - 16) * 2

structure StaysInside (T : ChatCodecs) (c : Caller) (pkt : Chat) (junk junk' : ℕ → Byte)
    (cmd params : List Byte) : Prop where
  buffer : (pkt.converted T).length ≤ pkt.bufSize
  reads : ∀ i ∈ (commandCall (pkt.converted T).length).reads (memory (pkt.converted T) junk),
    i < (pkt.converted T).length
  cmdSize : cmd.length < 10
  paramsSize : params.length < (pkt.converted T).length
  handler : (lookup (codesOf cmd)).map Prod.fst = (lookup (pkt.spoken T)).map Prod.fst
  inside : ∀ e, lookup (codesOf cmd) = some e →
    HandlerInside c e.2 params (pkt.converted T).length junk'

/-- A chat packet that is taken as a command. -/
def CommandInside (T : ChatCodecs) (c : Caller) (pkt : Chat) (junk junk' : ℕ → Byte) : Prop :=
  let r := (commandCall (pkt.converted T).length).result (memory (pkt.converted T) junk)
  StaysInside T c pkt junk junk' r.1 r.2

/-! Which commands do. -/

/-- The command of a text that has an end. -/
def cmdOf (txt : List Byte) : List Byte :=
  span inWord 9 3 txt

def paramsOf (txt : List Byte) : List Byte :=
  if (txt.drop (3 + (cmdOf txt).length)).head? = some 0 then []
  else span isUnit txt.length (4 + (cmdOf txt).length) txt

/-- A user name that ends before its text does, or is too long. -/
def Spaced (params : List Byte) : Prop :=
  params = [] ∨ 0x20 ∈ params ∨ 32 ≤ params.length

/-- The options of `/list` are refused, or every option that takes a number has one and no name is
given. -/
def Supplied (named : Bool) : List (List Char) → Prop
  | [] => named = false
  | [tok] => isNumbered tok = false ∧ (tok = "n".toList ∨ tok = "c".toList ∨ named = false)
  | tok :: value :: rest =>
    (isNumbered tok = true ∧ strtolFails value = true) ∨
      (tok = "c".toList ∧ (value.length < 5 ∨ classCased value ∉ classes)) ∨
      Supplied (named || tok = "n".toList) rest

/-- The parameters with which a handler stays inside. -/
def HandlerKeeps (trigger : String) (c : Caller) (params : List Char) (spaced : Prop) : Prop :=
  if trigger = "login" ∨ trigger = "tlogin" then spaced
  else if trigger = "xblink" then c.version = .xbox → spaced
  else if trigger = "teleport" ∨ trigger = "stalk" then
    c.localGm = true → c.lobbyType = .game → ∀ n, (strtoulEnd 10 params).1 = some n →
      0 ≤ asInt n ∧ asInt n ≠ c.maxClients
  else if trigger = "dumpinv" then
    c.localGm = true → params ≠ "lobby".toList → params ≠ [] →
      ∀ n, (strtoulEnd 10 params).1 = some n → n % 2 ^ 32 < 12 →
        (4 ≤ n % 2 ^ 32 → c.lobbyType ≠ .game) → n % 2 ^ 32 < c.maxClients
  else if trigger ∈ ["ban:d", "ban:w", "ban:m", "ban:p"] then
    c.localGm = true → (strtoulEnd 10 params).1 ≠ none → (strtoulEnd 10 params).2 ≠ []
  else if trigger = "quest" then
    c.localGm = true → c.lobbyType = .game → c.bursting = false → tokens isDelim params ≠ []
  else if trigger = "ib" then
    c.localGm = true → ∃ slen rest, tokens isDelim params = slen :: rest ∧
      ((strtoulEnd 10 slen).1 = none ∨ rest ≠ [])
  else if trigger = "list" then
    c.localGm = true → ∀ dom rest, tokens (· = ' ') params = dom :: rest →
      dom = "s".toList ∨ dom = "b".toList ∨ dom = "l".toList → Supplied false rest
  else True

/-- The word behind the slash has at most nine characters or starts with nine that are no trigger.
Where the characters in front of it take more than a byte each, it is no trigger itself. -/
def Named (T : ChatCodecs) (pkt : Chat) : Prop :=
  if ∀ ch ∈ (pkt.chars T).take 3, ch < 128 then
    (pkt.spoken T).length < 10 ∨ lookup ((pkt.spoken T).take 9) = none
  else lookup (pkt.spoken T) = none

/-- The converted text has an end behind the slash, the command is read as its word, and the
parameters are as the handler needs them. -/
structure CommandKeeps (T : ChatCodecs) (c : Caller) (pkt : Chat) : Prop where
  ended : 0 ∈ (pkt.converted T).drop 3
  named : Named T pkt
  handler : ∀ e, lookup (codesOf (cmdOf (pkt.converted T))) = some e →
    HandlerKeeps e.1 c (asChars (paramsOf (pkt.converted T)))
      (Spaced (paramsOf (pkt.converted T)))

end ShipServer.CommandText
