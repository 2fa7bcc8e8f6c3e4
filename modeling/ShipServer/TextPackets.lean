import ShipServer.ListPackets

set_option autoImplicit false

/-! The builders of texts that are sent to clients: chat, messages and message boxes. -/

namespace ShipServer.TextPackets

open Versions QuestLists ListPackets

/-- Whether a text in UTF-16 has a zero among its characters. -/
def hasZero16 : List UInt8 → Bool
  | a :: b :: rest => decide (a = 0 ∧ b = 0) || hasZero16 rest
  | _ => false

/-- The characters before the first zero. -/
def cString16 : List UInt8 → List UInt8
  | a :: b :: rest => if a = 0 ∧ b = 0 then [] else a :: b :: cString16 rest
  | _ => []

/-- The size of a character. -/
inductive Width where
  | narrow
  | wide
  deriving DecidableEq

/-- A text has its terminator. -/
def Ends : Width → List UInt8 → Prop
  | .narrow, text => 0 ∈ text
  | .wide, text => hasZero16 text = true

/-- The zeros that are added to a packet. -/
def pad (k : ℕ) (text : List UInt8) : List UInt8 :=
  text ++ zeros ((k - text.length % k) % k)

/-- What a builder does: the sizes of its arrays with the ends of what it writes to them, the end of
what it writes to the send buffer, and the text behind a header. -/
structure TextPacket where
  arrays : List (ℕ × ℕ)
  sendEnd : ℕ
  hdr : ℕ
  width : Width
  text : List UInt8

/-- `pkt_len` has 16 bits. -/
def declaredLen (p : TextPacket) : ℕ :=
  (p.hdr + p.text.length) % 2 ^ 16

section Conversions

/-- What texts in UTF-16 are converted to. -/
inductive Charset where
  | ascii
  | sjis
  | iso8859

/-- What the builders rely on `iconv` for: texts in UTF-16 have whole characters, and no more of
them than there were bytes; each byte of ISO 8859-1 is one of them, which is zero for none but the
zero byte. -/
structure TextIconv extends Iconv where
  narrow : Charset → ℕ → List UInt8 → List UInt8
  narrow_length_le : ∀ cd out text, (narrow cd out text).length ≤ out
  even : ∀ out text, 2 ∣ (convert (.fromUtf8 .utf16) (2 * out) text).length
  utf16_length_le : ∀ out text, (convert (.fromUtf8 .utf16) out text).length ≤ 2 * text.length
  latin_length : ∀ out text, (convert .latinToUtf16 (2 * out) text).length =
    2 * min out text.length
  latin_nonzero : ∀ out text, 0 ∉ text → hasZero16 (convert .latinToUtf16 out text) = false

end Conversions

/-- Who sends a text: `name` and `bbName` are what is in memory from the two names on. -/
structure Sender where
  version : ClientVersion
  nte : Bool
  clientId : ℕ
  name : List UInt8
  bbName : List UInt8

/-- Who gets it. -/
structure Reader where
  version : ClientVersion
  nte : Bool
  wordCensor : Bool
  typeShip : Bool
  gcMsgBoxes : Bool

/-- What `sprintf` writes for `%X`. -/
def upperHex (n : ℕ) : List UInt8 :=
  if n = 0 then ascii "0"
  else (Nat.digits 16 n).reverse.map fun d => UInt8.ofNat (Nat.digitChar d).toUpper.toNat

section Chat

variable (ic : TextIconv) (c : Reader) (s : Sender)

def nteSender : Bool :=
  s.nte ∧ s.version = .dcv1

/-- A line of chat. Messages are what is in memory from their beginning on. -/
def dcLine (msg : List UInt8) : List UInt8 :=
  cString s.name ++
    if c.nte then
      ascii ">" ++ upperHex s.clientId ++ cString (if nteSender s then msg else msg.drop 2)
    else ascii (if nteSender s then "\t\tJ" else "\t") ++ cString msg

def wideLine (msg : List UInt8) : List UInt8 :=
  cString s.name ++ ascii (if nteSender s then "\t\tJ" else "\t") ++ cString msg

/-- The array that a line is put into, with the room for it that its size is made for. -/
def lineArray (msg line : List UInt8) : ℕ × ℕ :=
  ((cString msg).length + 32, line.length + 1)

def sendDcLobbyChat (msg cmsg : List UInt8) : TextPacket :=
  let line := dcLine c s (if c.wordCensor then cmsg else msg)
  let cd : Encoding := if msg.take 2 = ascii "\tE" then .iso8859 else .sjis
  let text := pad 4 (ic.convert (.fromUtf8 cd) 65520 (line ++ [0]))
  { arrays := [lineArray msg line]
    sendEnd := 12 + text.length
    hdr := 12
    width := .narrow
    text := text }

def sendPcLobbyChat (msg cmsg : List UInt8) : TextPacket :=
  let line := wideLine s (if c.wordCensor then cmsg else msg)
  let text := pad 4 (ic.convert (.fromUtf8 .utf16) 65520 (line ++ [0]))
  { arrays := [lineArray msg line]
    sendEnd := 12 + text.length
    hdr := 12
    width := .wide
    text := text }

/-- The text is measured in the buffer, where something else is behind it. -/
def sendBbLobbyChat (msg cmsg behind : List UInt8) : TextPacket :=
  let line := wideLine s (if c.wordCensor then cmsg else msg)
  let converted := ic.convert (.fromUtf8 .utf16) 65520 (line ++ [0])
  let text := pad 8 (cString16 (converted ++ behind))
  { arrays := [lineArray msg line]
    sendEnd := max (16 + converted.length) (16 + text.length)
    hdr := 16
    width := .wide
    text := text }

def sendChat (msg cmsg behind : List UInt8) : TextPacket :=
  match c.version with
  | .dcv1 | .dcv2 | .gc | .ep3 | .xbox => sendDcLobbyChat ic c s msg cmsg
  | .pc => sendPcLobbyChat ic c s msg cmsg
  | .bb => sendBbLobbyChat ic c s msg cmsg behind

/-- The copies of characters lose the second byte, and no terminator is copied. -/
def lowBytes : List UInt8 → List UInt8
  | a :: _ :: rest => a :: 0 :: lowBytes rest
  | _ => []

/-- Bytes that are put over the beginning of others. -/
def putOver (old new : List UInt8) : List UInt8 :=
  new ++ old.drop new.length

def strcpy16Raw (old src : List UInt8) : List UInt8 :=
  putOver old (lowBytes (cString16 src))

def strcat16Raw (old src : List UInt8) : List UInt8 :=
  let start := (cString16 old).length
  old.take start ++ putOver (old.drop start) (lowBytes (cString16 src))

/-- Where `strcat16_raw` stops writing. -/
def catEnd (old src : List UInt8) : ℕ :=
  (cString16 old).length + (cString16 src).length

def separator : List UInt8 :=
  if c.nte then ascii ">" ++ (upperHex s.clientId).take 1 else ascii "\t"

def sendDcLobbyBbchat (msg : List UInt8) (len : ℕ) : TextPacket :=
  let name := ic.narrow .ascii 65520 (cString16 (s.bbName.drop 4)) ++ separator c s
  let cd : Charset := if c.nte ∨ msg[1]? = some 0x4A then .sjis else .iso8859
  let said := (if c.nte then msg.drop 4 else msg).take len
  let text := pad 4 (name ++ ic.narrow cd (65520 - name.length) said)
  { arrays := []
    sendEnd := 12 + text.length
    hdr := 12
    width := .narrow
    text := text }

/-- A line that is put together in the buffer, over what has been there. -/
def wideBbchat (hdr k : ℕ) (name msg old : List UInt8) : TextPacket :=
  let named := strcpy16Raw old name
  let separated := strcat16Raw named (ascii "\t" ++ [0])
  let text := pad k (cString16 (strcat16Raw separated msg) ++ [0, 0])
  { arrays := []
    sendEnd := hdr + max (max (cString16 name).length (catEnd named (ascii "\t" ++ [0])))
      (max (catEnd separated msg) text.length)
    hdr := hdr
    width := .wide
    text := text }

def sendPcLobbyBbchat (msg old : List UInt8) : TextPacket :=
  wideBbchat 12 4 (s.bbName.drop 4) msg old

def sendBbLobbyBbchat (msg old : List UInt8) : TextPacket :=
  wideBbchat 16 8 s.bbName msg old

def sendBbchat (msg : List UInt8) (len : ℕ) (old : List UInt8) : TextPacket :=
  match c.version with
  | .dcv1 | .dcv2 | .gc | .ep3 | .xbox => sendDcLobbyBbchat ic c s msg len
  | .pc => sendPcLobbyBbchat s msg old
  | .bb => sendBbLobbyBbchat s msg old

end Chat

section Messages

variable (ic : TextIconv) (c : Reader)

/-- Dreamcast, Gamecube and Xbox. -/
def byteVersion (v : ClientVersion) : Bool :=
  v ≠ .pc ∧ v ≠ .bb

def marked (text : List UInt8) : Bool :=
  text.take 2 = ascii "\tE" ∨ text.take 2 = ascii "\tJ"

/-- A text with a marker of its language. -/
def withMarker (text : List UInt8) : List UInt8 :=
  if marked text then text else ascii "\tE" ++ text

/-- What `vsnprintf` leaves of a text in an array. -/
def formatted (size : ℕ) (text : List UInt8) : List UInt8 :=
  text.take (size - 1)

/-- A message in an array of some size, and what becomes of it. -/
def messageWith (size hdr k : ℕ) (width : Width) (out : ℕ) (cd : List UInt8 → Encoding)
    (text : List UInt8) : TextPacket :=
  let line := withMarker (cString (formatted 512 text))
  let sent := pad k (ic.convert (.fromUtf8 (cd line)) out (line ++ [0]))
  { arrays := [(size, (formatted 512 text).length + 1), (size, line.length + 1)]
    sendEnd := hdr + sent.length
    hdr := hdr
    width := width
    text := sent }

def byteCharset (text : List UInt8) : Encoding :=
  if text[1]? = some 0x4A then .sjis else .iso8859

def sendDcMessage (text : List UInt8) : TextPacket :=
  if byteVersion c.version then messageWith ic 512 12 4 .narrow 65520 byteCharset text
  else messageWith ic 512 12 4 .wide 65520 (fun _ => .utf16) text

def sendBbMessage (text : List UInt8) : TextPacket :=
  messageWith ic 512 16 8 .wide 65520 (fun _ => .utf16) text

/-- Nothing is sent to Gamecube clients whose version cannot show it. -/
def sendDcMessageBox (text : List UInt8) : Option TextPacket :=
  if (c.version = .gc ∨ c.version = .ep3 ∨ c.version = .xbox) ∧ !c.typeShip ∧ !c.gcMsgBoxes then
    none
  else if byteVersion c.version then some (messageWith ic 514 4 4 .narrow 65500 byteCharset text)
  else some (messageWith ic 514 4 4 .wide 65500 (fun _ => .utf16) text)

/-- The loop that removes escapes, from a place on. -/
def strip : ℕ → List UInt8 → List UInt8
  | 0, text => text
  | _, [] => []
  | n + 1, a :: rest =>
    if a ≠ 9 then a :: strip n rest
    else
      match rest with
      | [] => [a]
      | b :: rest' =>
        if b = 0x43 ∧ rest'.headI ≠ 0 then strip n rest'.tail
        else if b ≠ 9 then strip n rest'
        else strip n rest

def sendDcnteTxt (text : List UInt8) : TextPacket :=
  let line := cString (ascii "> " ++ formatted 510 text) ++ [0]
  let sent := pad 4 (ic.convert (.fromUtf8 .sjis) 65520 (strip line.length line))
  { arrays := [(512, 2 + (formatted 510 text).length + 1), (512, line.length)]
    sendEnd := 12 + sent.length
    hdr := 12
    width := .narrow
    text := sent }

def sendMessage1 (text : List UInt8) : TextPacket :=
  if c.version = .bb then sendBbMessage ic text else sendDcMessage ic c text

def sendTxt (text : List UInt8) : TextPacket :=
  if c.version = .bb then sendBbMessage ic text
  else if c.version = .dcv1 ∧ c.nte then sendDcnteTxt ic text
  else sendDcMessage ic c text

def sendMessageBox (text : List UInt8) : Option TextPacket :=
  if c.version = .bb then none else sendDcMessageBox ic c text

end Messages

end ShipServer.TextPackets
