import ShipServer.Transcoding
import ShipServer.Versions

set_option autoImplicit false

/-! Guild cards as they are sent from one version of the game to another. -/

namespace ShipServer.GuildCards

open Transcoding Versions

abbrev Byte := BitVec 8

/-- A `uint16_t` of a text. -/
abbrev Wide := BitVec 16

section Direct

variable (w limit : ℕ)

theorem direct_decode_encode (hlimit : limit ≤ 2 ^ w) {c : ℕ} {units : List (BitVec w)}
    (rest : List (BitVec w))
    (h : (if c < limit then some [BitVec.ofNat w c] else none) = some units) :
    (match units ++ rest with
      | [] => none
      | b :: rest => if b.toNat < limit then some (b.toNat, rest) else none) = some (c, rest) := by
  split_ifs at h with hc
  rw [← Option.some.inj h]
  have htoNat : (BitVec.ofNat w c).toNat = c := by
    rw [BitVec.toNat_ofNat]
    exact Nat.mod_eq_of_lt (by omega)
  change (if (BitVec.ofNat w c).toNat < limit then some ((BitVec.ofNat w c).toNat, rest) else none)
    = _
  rw [htoNat, if_pos hc]

theorem direct_encode_decode {l rest : List (BitVec w)} {c : ℕ}
    (h : (match l with
      | [] => none
      | b :: rest => if b.toNat < limit then some (b.toNat, rest) else none) = some (c, rest)) :
    ∃ units : List (BitVec w), (if c < limit then some [BitVec.ofNat w c] else none) = some units ∧
      l = units ++ rest := by
  cases l with
  | nil => cases h
  | cons b l =>
    dsimp only at h
    split_ifs at h with hb
    cases h
    refine ⟨[b], ?_, rfl⟩
    rw [if_pos hb, BitVec.ofNat_toNat, BitVec.setWidth_eq]

theorem direct_encode_ne_nil (c : ℕ) :
    (if c < limit then some [BitVec.ofNat w c] else none : Option (List (BitVec w))) ≠
      some [] := by
  split_ifs
  · simp
  · simp

/-- The characters below a limit, a unit each. -/
def direct (hpos : 0 < limit) (hlimit : limit ≤ 2 ^ w) : Encoding (BitVec w) where
  encode c := if c < limit then some [BitVec.ofNat w c] else none
  decode l :=
    match l with
    | [] => none
    | b :: rest => if b.toNat < limit then some (b.toNat, rest) else none
  decode_encode := direct_decode_encode w limit hlimit
  encode_decode := direct_encode_decode w limit
  encode_ne_nil := direct_encode_ne_nil w limit
  encode_zero := if_pos hpos

end Direct

/-- ISO-8859-1. -/
def latin1 : Encoding Byte :=
  direct 8 256 (by decide) (by decide)

def ascii : Encoding Byte :=
  direct 8 128 (by decide) (by decide)

theorem latin1_reads_ascii : latin1.Reads ascii := by
  intro c units h
  change (if c < 128 then some [BitVec.ofNat 8 c] else none) = some units at h
  change (if c < 256 then some [BitVec.ofNat 8 c] else none) = some units
  split_ifs at h with hc
  rw [if_pos (by omega)]
  exact h

/-- The encodings that `iconv` knows of. -/
structure Codecs where
  sjis : Encoding Byte
  utf16 : Encoding Wide
  sjis_letterJ : sjis.encode 0x4A = some [0x4A]
  utf16_latin : ∀ c < 256, utf16.encode c = some [BitVec.ofNat 16 c]

namespace Codecs

variable (T : Codecs)

/-- Texts whose second character is a J are in Japanese. -/
def ofBytes (l : List Byte) : Encoding Byte :=
  if l[1]? = some 0x4A then T.sjis else latin1

def ofWide (l : List Wide) : Encoding Byte :=
  if l[1]? = some 0x4A then T.sjis else latin1

end Codecs

/-! The packets of the five formats. -/

structure DcGcsend where
  pktType : Byte
  flags : Byte
  pktLen : BitVec 16
  type : Byte
  size : Byte
  unused : BitVec 16
  tag : BitVec 32
  guildcard : BitVec 32
  name : Field Byte 24
  text : Field Byte 88
  unused2 : Byte
  one : Byte
  language : Byte
  sectionId : Byte
  charClass : Byte
  padding : Field Byte 3

structure PcGcsend where
  pktType : Byte
  flags : Byte
  pktLen : BitVec 16
  type : Byte
  size : Byte
  unused : BitVec 16
  tag : BitVec 32
  guildcard : BitVec 32
  name : Field Wide 24
  text : Field Wide 88
  padding : BitVec 32
  one : Byte
  language : Byte
  sectionId : Byte
  charClass : Byte

structure GcGcsend where
  pktType : Byte
  flags : Byte
  pktLen : BitVec 16
  type : Byte
  size : Byte
  unused : BitVec 16
  tag : BitVec 32
  guildcard : BitVec 32
  name : Field Byte 24
  text : Field Byte 104
  padding : BitVec 32
  one : Byte
  language : Byte
  sectionId : Byte
  charClass : Byte

structure XbGcsend where
  pktType : Byte
  flags : Byte
  pktLen : BitVec 16
  type : Byte
  size : Byte
  unk : BitVec 16
  tag : BitVec 32
  guildcard : BitVec 32
  xblUserid : BitVec 64
  name : Field Byte 24
  text : Field Byte 512
  one : Byte
  language : Byte
  sectionId : Byte
  charClass : Byte

structure BbGcsend where
  pktLen : BitVec 16
  pktType : BitVec 16
  flags : BitVec 32
  type : Byte
  size : Byte
  unused : BitVec 16
  guildcard : BitVec 32
  name : Field Wide 24
  teamName : Field Wide 16
  text : Field Wide 88
  one : Byte
  language : Byte
  sectionId : Byte
  charClass : Byte

/-- What a Blue Burst client has of its card, with what follows its name in memory. -/
structure StoredCard where
  guildcard : BitVec 32
  languageCode : Byte
  name : Field Wide 16
  afterName : List Wide
  teamName : Field Wide 16
  guildcardDesc : Field Wide 88
  sectionId : Byte
  chClass : Byte

def le16 (x : BitVec 16) : List Byte :=
  [x.setWidth 8, (x >>> 8).setWidth 8]

def le32 (x : BitVec 32) : List Byte :=
  le16 (x.setWidth 16) ++ le16 ((x >>> 16).setWidth 16)

def le64 (x : BitVec 64) : List Byte :=
  le32 (x.setWidth 32) ++ le32 ((x >>> 32).setWidth 32)

def DcGcsend.wire (p : DcGcsend) : List Byte :=
  [p.pktType, p.flags] ++ le16 p.pktLen ++ [p.type, p.size] ++ le16 p.unused ++ le32 p.tag ++
    le32 p.guildcard ++ p.name.units ++ p.text.units ++
      [p.unused2, p.one, p.language, p.sectionId, p.charClass] ++ p.padding.units

def PcGcsend.wire (p : PcGcsend) : List Byte :=
  [p.pktType, p.flags] ++ le16 p.pktLen ++ [p.type, p.size] ++ le16 p.unused ++ le32 p.tag ++
    le32 p.guildcard ++ p.name.units.flatMap le16 ++ p.text.units.flatMap le16 ++ le32 p.padding ++
      [p.one, p.language, p.sectionId, p.charClass]

def GcGcsend.wire (p : GcGcsend) : List Byte :=
  [p.pktType, p.flags] ++ le16 p.pktLen ++ [p.type, p.size] ++ le16 p.unused ++ le32 p.tag ++
    le32 p.guildcard ++ p.name.units ++ p.text.units ++ le32 p.padding ++
      [p.one, p.language, p.sectionId, p.charClass]

def XbGcsend.wire (p : XbGcsend) : List Byte :=
  [p.pktType, p.flags] ++ le16 p.pktLen ++ [p.type, p.size] ++ le16 p.unk ++ le32 p.tag ++
    le32 p.guildcard ++ le64 p.xblUserid ++ p.name.units ++ p.text.units ++
      [p.one, p.language, p.sectionId, p.charClass]

def BbGcsend.wire (p : BbGcsend) : List Byte :=
  le16 p.pktLen ++ le16 p.pktType ++ le32 p.flags ++ [p.type, p.size] ++ le16 p.unused ++
    le32 p.guildcard ++ p.name.units.flatMap le16 ++ p.teamName.units.flatMap le16 ++
      p.text.units.flatMap le16 ++ [p.one, p.language, p.sectionId, p.charClass]

/-- The five layouts. -/
inductive Format where
  | dc
  | pc
  | gc
  | xb
  | bb
  deriving DecidableEq

def formatOf : ClientVersion → Format
  | .dcv1 | .dcv2 => .dc
  | .pc => .pc
  | .gc | .ep3 => .gc
  | .xbox => .xb
  | .bb => .bb

inductive Card where
  | dc (p : DcGcsend)
  | pc (p : PcGcsend)
  | gc (p : GcGcsend)
  | xb (p : XbGcsend)
  | bb (p : BbGcsend)

/-- A card on its way, with the accesses that were made to fill its texts. -/
structure Sent where
  card : Card
  accesses : List Access

/-- The client that a card is sent to. -/
structure Recipient where
  version : ClientVersion
  isNte : Bool
  clientId : BitVec 32

/-- What all packets take over from the card that is sent. -/
structure Head where
  pktType : Byte
  flags : Byte
  type : Byte
  tag : BitVec 32
  guildcard : BitVec 32
  language : Byte
  sectionId : Byte
  charClass : Byte

def blank {U : Type} [Zero U] {n : ℕ} : Fill U n :=
  Fill.starting []

def toDc (h : Head) (name : Fill Byte 24) (text : Fill Byte 88) : Sent where
  card := .dc
    { pktType := h.pktType, flags := h.flags, pktLen := 0x0088, type := h.type, size := 0x21,
      unused := 0, tag := h.tag, guildcard := h.guildcard, name := name.field, text := text.field,
      unused2 := 0, one := 1, language := h.language, sectionId := h.sectionId,
      charClass := h.charClass, padding := (blank : Fill Byte 3).field }
  accesses := name.accesses ++ text.accesses

def toPc (h : Head) (name : Fill Wide 24) (text : Fill Wide 88) : Sent where
  card := .pc
    { pktType := h.pktType, flags := h.flags, pktLen := 0x00F8, type := h.type, size := 0x3D,
      unused := 0, tag := h.tag, guildcard := h.guildcard, name := name.field, text := text.field,
      padding := 0, one := 1, language := h.language, sectionId := h.sectionId,
      charClass := h.charClass }
  accesses := name.accesses ++ text.accesses

def toGc (h : Head) (name : Fill Byte 24) (text : Fill Byte 104) : Sent where
  card := .gc
    { pktType := h.pktType, flags := h.flags, pktLen := 0x0098, type := h.type, size := 0x25,
      unused := 0, tag := h.tag, guildcard := h.guildcard, name := name.field, text := text.field,
      padding := 0, one := 1, language := h.language, sectionId := h.sectionId,
      charClass := h.charClass }
  accesses := name.accesses ++ text.accesses

def toXb (h : Head) (name : Fill Byte 24) (text : Fill Byte 512) : Sent where
  card := .xb
    { pktType := h.pktType, flags := h.flags, pktLen := 0x0234, type := h.type, size := 0x8C,
      unk := 0xFB0D, tag := h.tag, guildcard := h.guildcard, xblUserid := h.guildcard.setWidth 64,
      name := name.field, text := text.field, one := 1, language := h.language,
      sectionId := h.sectionId, charClass := h.charClass }
  accesses := name.accesses ++ text.accesses

def toBb (h : Head) (clientId : BitVec 32) (name : Fill Wide 24) (teamName : Fill Wide 16)
    (text : Fill Wide 88) : Sent where
  card := .bb
    { pktLen := 0x0114, pktType := 0x0062, flags := clientId, type := 0x06, size := 0x43,
      unused := 0, guildcard := h.guildcard, name := name.field, teamName := teamName.field,
      text := text.field, one := 1, language := h.language, sectionId := h.sectionId,
      charClass := h.charClass }
  accesses := name.accesses ++ teamName.accesses ++ text.accesses

def DcGcsend.head (p : DcGcsend) : Head :=
  ⟨p.pktType, p.flags, p.type, p.tag, p.guildcard, p.language, p.sectionId, p.charClass⟩

def PcGcsend.head (p : PcGcsend) : Head :=
  ⟨p.pktType, p.flags, p.type, p.tag, p.guildcard, p.language, p.sectionId, p.charClass⟩

def GcGcsend.head (p : GcGcsend) : Head :=
  ⟨p.pktType, p.flags, p.type, p.tag, p.guildcard, p.language, p.sectionId, p.charClass⟩

def XbGcsend.head (p : XbGcsend) : Head :=
  ⟨p.pktType, p.flags, p.type, p.tag, p.guildcard, p.language, p.sectionId, p.charClass⟩

def StoredCard.head (s : StoredCard) (d : Recipient) : Head :=
  ⟨0x62, d.clientId.setWidth 8, 0x06, 0x00010000, s.guildcard, s.languageCode, s.sectionId,
    s.chClass⟩

/-- The tab and the letter that a name starts with in Blue Burst. -/
def mark : List Wide :=
  [0x0009, 0x0045]

/-- The hyphens that a name is filled with before it is converted. -/
def hyphens : List Byte :=
  List.replicate 16 0x2D

section Handlers

variable (T : Codecs) (d : Recipient)

-- The lengths are in bytes in the source: two for each unit of a wide text.
def handleDcGcsend (p : DcGcsend) : Option Sent :=
  match formatOf d.version with
  | .dc => some ⟨.dc p, []⟩
  | .gc =>
    some (toGc p.head (blank.memcpy 0 p.name.region 0 24) (blank.memcpy 0 p.text.region 0 88))
  | .xb =>
    some (toXb p.head (blank.memcpy 0 p.name.region 0 24) (blank.memcpy 0 p.text.region 0 88))
  | .pc =>
    if d.isNte then none
    else some (toPc p.head
      (blank.convert latin1 T.utf16 0 (48 / 2) p.name.region 0 24)
      (blank.convert (T.ofBytes p.text.units) T.utf16 0 (176 / 2) p.text.region 0 88))
  | .bb =>
    some (toBb p.head d.clientId
      ((Fill.starting mark).convert latin1 T.utf16 2 (44 / 2) p.name.region 0 24) blank
      (blank.convert (T.ofBytes p.text.units) T.utf16 0 (176 / 2) p.text.region 0 88))

def handlePcGcsend (p : PcGcsend) : Option Sent :=
  match formatOf d.version with
  | .pc => if d.isNte then none else some ⟨.pc p, []⟩
  | .dc =>
    some (toDc p.head
      (blank.convert T.utf16 ascii 0 24 p.name.region 0 (48 / 2))
      (blank.convert T.utf16 (T.ofWide p.text.units) 0 88 p.text.region 0 (176 / 2)))
  | .gc =>
    some (toGc p.head
      (blank.convert T.utf16 ascii 0 24 p.name.region 0 (48 / 2))
      (blank.convert T.utf16 (T.ofWide p.text.units) 0 88 p.text.region 0 (176 / 2)))
  | .xb =>
    some (toXb p.head
      (blank.convert T.utf16 ascii 0 24 p.name.region 0 (48 / 2))
      (blank.convert T.utf16 (T.ofWide p.text.units) 0 512 p.text.region 0 (176 / 2)))
  | .bb =>
    some (toBb p.head d.clientId
      ((Fill.starting mark).memcpy 2 p.name.region 0 (28 / 2)) blank
      (blank.memcpy 0 p.text.region 0 (176 / 2)))

def handleGcGcsend (p : GcGcsend) : Option Sent :=
  match formatOf d.version with
  | .gc => some ⟨.gc p, []⟩
  | .dc =>
    some (toDc p.head (blank.memcpy 0 p.name.region 0 24) (blank.memcpy 0 p.text.region 0 88))
  | .xb =>
    some (toXb p.head (blank.memcpy 0 p.name.region 0 24) (blank.memcpy 0 p.text.region 0 104))
  | .pc =>
    if d.isNte then none
    else some (toPc p.head
      (blank.convert latin1 T.utf16 0 (48 / 2) p.name.region 0 24)
      (blank.convert (T.ofBytes p.text.units) T.utf16 0 (176 / 2) p.text.region 0 88))
  | .bb =>
    some (toBb p.head d.clientId
      ((Fill.starting mark).convert latin1 T.utf16 2 (44 / 2) p.name.region 0 24) blank
      (blank.convert (T.ofBytes p.text.units) T.utf16 0 (176 / 2) p.text.region 0 88))

def handleXbGcsend (p : XbGcsend) : Option Sent :=
  match formatOf d.version with
  | .xb => some ⟨.xb p, []⟩
  | .dc =>
    some (toDc p.head (blank.memcpy 0 p.name.region 0 24) (blank.memcpy 0 p.text.region 0 88))
  | .gc =>
    some (toGc p.head (blank.memcpy 0 p.name.region 0 24) (blank.memcpy 0 p.text.region 0 88))
  | .pc =>
    if d.isNte then none
    else some (toPc p.head
      (blank.convert latin1 T.utf16 0 (48 / 2) p.name.region 0 24)
      (blank.convert (T.ofBytes p.text.units) T.utf16 0 (176 / 2) p.text.region 0 88))
  | .bb =>
    some (toBb p.head d.clientId
      ((Fill.starting mark).convert latin1 T.utf16 2 (44 / 2) p.name.region 0 24) blank
      (blank.convert (T.ofBytes p.text.units) T.utf16 0 (176 / 2) p.text.region 0 88))

/-- The name of the character, with what follows it. -/
def StoredCard.nameRegion (s : StoredCard) : Region Wide where
  units := s.name.units ++ s.afterName
  width := 16

def handleBbGcsend (s : StoredCard) : Option Sent :=
  match formatOf d.version with
  | .dc =>
    some (toDc (s.head d)
      ((Fill.starting hyphens).convert T.utf16 ascii 0 24 s.nameRegion 2 (48 / 2))
      (blank.convert T.utf16 (T.ofWide s.guildcardDesc.units) 0 88 s.guildcardDesc.region 0
        (176 / 2)))
  | .pc =>
    if d.isNte then none
    else some (toPc (s.head d) (blank.memcpy 0 s.nameRegion 2 (28 / 2))
      (blank.memcpy 0 s.guildcardDesc.region 0 (176 / 2)))
  | .gc =>
    some (toGc (s.head d)
      ((Fill.starting hyphens).convert T.utf16 ascii 0 24 s.nameRegion 2 (48 / 2))
      (blank.convert T.utf16 (T.ofWide s.guildcardDesc.units) 0 88 s.guildcardDesc.region 0
        (176 / 2)))
  | .xb =>
    some (toXb (s.head d)
      ((Fill.starting hyphens).convert T.utf16 ascii 0 24 s.nameRegion 2 (48 / 2))
      (blank.convert T.utf16 (T.ofWide s.guildcardDesc.units) 0 512 s.guildcardDesc.region 0
        (176 / 2)))
  | .bb =>
    some (toBb (s.head d) d.clientId (blank.memcpy 0 s.nameRegion 0 (32 / 2))
      (blank.memcpy 0 s.teamName.region 0 (32 / 2))
      (blank.memcpy 0 s.guildcardDesc.region 0 (176 / 2)))

end Handlers

/-- A card that is sent: a packet, or the card of a Blue Burst client. -/
inductive Source where
  | dc (p : DcGcsend)
  | pc (p : PcGcsend)
  | gc (p : GcGcsend)
  | xb (p : XbGcsend)
  | stored (s : StoredCard)

def gcsend (T : Codecs) (d : Recipient) : Source → Option Sent
  | .dc p => handleDcGcsend T d p
  | .pc p => handlePcGcsend T d p
  | .gc p => handleGcGcsend T d p
  | .xb p => handleXbGcsend T d p
  | .stored s => handleBbGcsend T d s

/-! What it means that a card survives. -/

/-- A text in bytes or in UTF-16. -/
inductive Script where
  | narrow (l : List Byte)
  | wide (l : List Wide)

/-- The numbers that all formats have. -/
structure Numbers where
  guildcard : BitVec 32
  language : Byte
  sectionId : Byte
  charClass : Byte

/-- A packet is as long as its header and its size field say. -/
def LaidOut (wire : List Byte) (header : ℕ) (pktLen : BitVec 16) (size : Byte) : Prop :=
  pktLen.toNat = wire.length ∧ header + 4 * size.toNat = wire.length

namespace Card

def format : Card → Format
  | .dc _ => .dc
  | .pc _ => .pc
  | .gc _ => .gc
  | .xb _ => .xb
  | .bb _ => .bb

def numbers : Card → Numbers
  | .dc p => ⟨p.guildcard, p.language, p.sectionId, p.charClass⟩
  | .pc p => ⟨p.guildcard, p.language, p.sectionId, p.charClass⟩
  | .gc p => ⟨p.guildcard, p.language, p.sectionId, p.charClass⟩
  | .xb p => ⟨p.guildcard, p.language, p.sectionId, p.charClass⟩
  | .bb p => ⟨p.guildcard, p.language, p.sectionId, p.charClass⟩

def tag : Card → Option (BitVec 32)
  | .dc p => some p.tag
  | .pc p => some p.tag
  | .gc p => some p.tag
  | .xb p => some p.tag
  | .bb _ => none

/-- The name, without its mark in Blue Burst. -/
def name : Card → Script
  | .dc p => .narrow p.name.units
  | .pc p => .wide p.name.units
  | .gc p => .narrow p.name.units
  | .xb p => .narrow p.name.units
  | .bb p => .wide (p.name.units.drop 2)

def nameRoom : Card → ℕ
  | .dc _ | .pc _ | .gc _ | .xb _ => 24
  | .bb _ => 22

def nameMark : Card → Option (List Wide)
  | .bb p => some (p.name.units.take 2)
  | _ => none

def text : Card → Script
  | .dc p => .narrow p.text.units
  | .pc p => .wide p.text.units
  | .gc p => .narrow p.text.units
  | .xb p => .narrow p.text.units
  | .bb p => .wide p.text.units

def textRoom : Card → ℕ
  | .dc _ | .pc _ | .bb _ => 88
  | .gc _ => 104
  | .xb _ => 512

def teamName : Card → Option (List Wide)
  | .bb p => some p.teamName.units
  | _ => none

def Layout : Card → Prop
  | .dc p => LaidOut p.wire 4 p.pktLen p.size
  | .pc p => LaidOut p.wire 4 p.pktLen p.size
  | .gc p => LaidOut p.wire 4 p.pktLen p.size
  | .xb p => LaidOut p.wire 4 p.pktLen p.size ∧ p.xblUserid = p.guildcard.setWidth 64
  | .bb p => LaidOut p.wire 8 p.pktLen p.size

/-- The card as one that is sent on. A Blue Burst client does not send packets on. -/
def source : Card → Option Source
  | .dc p => some (.dc p)
  | .pc p => some (.pc p)
  | .gc p => some (.gc p)
  | .xb p => some (.xb p)
  | .bb _ => none

end Card

namespace Source

def format : Source → Format
  | .dc _ => .dc
  | .pc _ => .pc
  | .gc _ => .gc
  | .xb _ => .xb
  | .stored _ => .bb

/-- The packet that clients of the same version get as it is. -/
def packet : Source → Option Card
  | .dc p => some (.dc p)
  | .pc p => some (.pc p)
  | .gc p => some (.gc p)
  | .xb p => some (.xb p)
  | .stored _ => none

def numbers : Source → Numbers
  | .dc p => ⟨p.guildcard, p.language, p.sectionId, p.charClass⟩
  | .pc p => ⟨p.guildcard, p.language, p.sectionId, p.charClass⟩
  | .gc p => ⟨p.guildcard, p.language, p.sectionId, p.charClass⟩
  | .xb p => ⟨p.guildcard, p.language, p.sectionId, p.charClass⟩
  | .stored s => ⟨s.guildcard, s.languageCode, s.sectionId, s.chClass⟩

def tag : Source → Option (BitVec 32)
  | .dc p => some p.tag
  | .pc p => some p.tag
  | .gc p => some p.tag
  | .xb p => some p.tag
  | .stored _ => none

def name : Source → Script
  | .dc p => .narrow p.name.units
  | .pc p => .wide p.name.units
  | .gc p => .narrow p.name.units
  | .xb p => .narrow p.name.units
  | .stored s => .wide (s.name.units.drop 2)

def nameMark : Source → List Wide
  | .stored s => s.name.units.take 2
  | _ => mark

def text : Source → Script
  | .dc p => .narrow p.text.units
  | .pc p => .wide p.text.units
  | .gc p => .narrow p.text.units
  | .xb p => .narrow p.text.units
  | .stored s => .wide s.guildcardDesc.units

def teamName : Source → Option (List Wide)
  | .stored s => some s.teamName.units
  | _ => none

end Source

/-- How texts in bytes are read and written, and how they are written on the way back. The second
character of a tagged text says which encoding it has. -/
structure Kind where
  read : List Byte → Encoding Byte
  write : List Wide → Encoding Byte
  back : List Byte → Encoding Byte
  tagged : Bool

def names : Kind where
  read _ := latin1
  write _ := ascii
  back _ := ascii
  tagged := false

def texts (T : Codecs) : Kind where
  read := T.ofBytes
  write := T.ofWide
  back := T.ofBytes
  tagged := true

/-- The first character takes one unit in both encodings. -/
def Single {U V : Type} [Zero U] [Zero V] (e : Encoding U) (e' : Encoding V) (l : List U) : Prop :=
  ∃ c u v rest, l = u :: rest ∧ e.encode c = some [u] ∧ e'.encode c = some [v]

/-- The same string, as far as it fits into the room and its characters exist. -/
def Same (T : Codecs) (k : Kind) (room : ℕ) : Script → Script → Prop
  | .narrow a, .narrow b => string b = (string a).take room
  | .wide a, .wide b => string b = (string a).take room
  | .narrow a, .wide b => T.utf16.text b = T.utf16.fit room ((k.read a).text a)
  | .wide a, .narrow b => (k.write a).text b = (k.write a).fit room (T.utf16.text a)

/-- The original, after a way through another packet with some room, if it has a form there. -/
def Returned (T : Codecs) (k : Kind) (room : ℕ) : Script → Script → Script → Prop
  | .narrow a, .narrow _, .narrow b => (string a).length ≤ room → string b = string a
  | .wide a, .wide _, .wide b => (string a).length ≤ room → string b = string a
  | .narrow a, .wide _, .narrow b =>
    (k.tagged = true → Single (k.read a) T.utf16 a) →
      T.utf16.fit room ((k.read a).text a) = (k.read a).text a →
        (k.back a).fit a.length ((k.read a).text a) = (k.read a).text a →
          (k.back a).text b = (k.read a).text a
  | .wide a, .narrow _, .wide b =>
    (k.tagged = true → Single T.utf16 (k.write a) a) →
      (k.write a).fit room (T.utf16.text a) = T.utf16.text a → T.utf16.text b = T.utf16.text a
  | _, _, _ => False

/-- A card that is translated well. -/
structure Arrives (T : Codecs) (src : Source) (sent : Sent) : Prop where
  layout : src.packet = some sent.card ∨ sent.card.Layout
  numbers : sent.card.numbers = src.numbers
  tag : ∀ t ∈ src.tag, ∀ t' ∈ sent.card.tag, t' = t
  name : Same T names sent.card.nameRoom src.name sent.card.name
  nameMark : ∀ m ∈ sent.card.nameMark, m = src.nameMark
  text : Same T (texts T) sent.card.textRoom src.text sent.card.text
  teamName : ∀ t ∈ src.teamName, ∀ t' ∈ sent.card.teamName, string t' = string t
  inside : ∀ a ∈ sent.accesses, a.Inside

/-- A card that was sent there and back. -/
structure Returns (T : Codecs) (src : Source) (via back : Card) : Prop where
  numbers : back.numbers = src.numbers
  name : Returned T names via.nameRoom src.name via.name back.name
  text : Returned T (texts T) via.textRoom src.text via.text back.text

def Survives (T : Codecs) (d : Recipient) (src : Source) : Prop :=
  ∀ sent, gcsend T d src = some sent →
    sent.card.format = formatOf d.version ∧ Arrives T src sent ∧
      ∀ via, sent.card.source = some via → ∀ home, formatOf home.version = src.format →
        ∀ back, gcsend T home via = some back → Returns T src sent.card back.card

/-- Some first bytes of the text are all that as many units have room for. -/
def Within (T : Codecs) (w : ℕ) (l : List Byte) : Prop :=
  T.utf16.fit w ((T.ofBytes l).text (l.take w)) = T.utf16.fit w ((T.ofBytes l).text l)

/-- The lengths with which a card survives. -/
def Keeps (T : Codecs) : Source → Format → Prop
  | .pc p, .gc =>
    (T.ofWide p.text.units).fit 88 (T.utf16.text p.text.units) =
      (T.ofWide p.text.units).fit 104 (T.utf16.text p.text.units)
  | .pc p, .xb =>
    Single T.utf16 (T.ofWide p.text.units) p.text.units →
      (T.ofWide p.text.units).fit 512 (T.utf16.text p.text.units) = T.utf16.text p.text.units →
        (T.ofWide p.text.units).fit 88 (T.utf16.text p.text.units) = T.utf16.text p.text.units
  | .pc p, .bb => (string p.name.units).length ≤ 14
  | .gc p, .xb => (string p.text.units).length ≤ 88
  | .gc p, .pc | .gc p, .bb => Within T 88 p.text.units
  | .xb p, .gc => (string p.text.units).length ≤ 88
  | .xb p, .pc | .xb p, .bb => Within T 88 p.text.units
  | .stored _, .dc | .stored _, .gc | .stored _, .xb => False
  | _, _ => True

end ShipServer.GuildCards
