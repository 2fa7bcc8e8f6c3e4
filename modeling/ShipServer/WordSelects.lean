import ShipServer.MutedSenders

set_option autoImplicit false

/-! Word selects, translated for the clients of other versions. -/

namespace ShipServer.WordSelects

open Versions LobbyRooms MutedSenders

abbrev Byte := BitVec 8

abbrev Word := BitVec 16

/-- What stands in a packet where there is no word, and in a map where there is no counterpart. -/
def noWord : Word := 0xFFFF

structure DcHdr where
  pktType : Byte
  flags : Byte
  pktLen : BitVec 16
  deriving DecidableEq

structure PcHdr where
  pktLen : BitVec 16
  pktType : Byte
  flags : Byte
  deriving DecidableEq

structure BbHdr where
  pktLen : BitVec 16
  pktType : BitVec 16
  flags : BitVec 32
  deriving DecidableEq

/-- A word select behind its header. `words` are the first eight of its words, `amounts` the
other four. -/
structure Body where
  type : Byte
  size : Byte
  clientId : Byte
  clientIdGc : Byte
  numWords : Byte
  unused1 : Byte
  wsType : Byte
  unused2 : Byte
  words : List Word
  amounts : List Word
  deriving DecidableEq

structure Packet (Hdr : Type) extends Body where
  hdr : Hdr
  deriving DecidableEq

/-- A packet as it is sent. -/
inductive OnWire where
  | dc (p : Packet DcHdr)
  | pc (p : Packet PcHdr)
  | bb (p : Packet BbHdr)
  deriving DecidableEq

/-- `send_pkt_dc` to a client of a version. -/
def sendPktDc (v : ClientVersion) (p : Packet DcHdr) : OnWire :=
  match v with
  | .pc =>
    .pc { toBody := p.toBody
          hdr := { pktLen := p.hdr.pktLen, flags := p.hdr.flags, pktType := p.hdr.pktType } }
  | .bb =>
    .bb { toBody := p.toBody
          hdr :=
            { pktLen := p.hdr.pktLen + 4
              flags := p.hdr.flags.setWidth 32
              pktType := p.hdr.pktType.setWidth 16 } }
  | _ => .dc p

/-- `send_pkt_bb` to a client of a version. -/
def sendPktBb (v : ClientVersion) (p : Packet BbHdr) : OnWire :=
  match v with
  | .bb => .bb p
  | .pc =>
    .pc { toBody := p.toBody
          hdr :=
            { pktLen := p.hdr.pktLen - 4
              flags := p.hdr.flags.setWidth 8
              pktType := p.hdr.pktType.setWidth 8 } }
  | _ =>
    .dc { toBody := p.toBody
          hdr :=
            { pktLen := p.hdr.pktLen - 4
              flags := p.hdr.flags.setWidth 8
              pktType := p.hdr.pktType.setWidth 8 } }

/-- The word maps. An entry is for the other two vocabularies: PC and Gamecube, Dreamcast and
Gamecube, Dreamcast and PC. -/
structure WordMaps where
  dcMap : Fin (0x0463 + 1) → Word × Word
  pcMap : Fin (0x0651 + 1) → Word × Word
  gcMap : Fin (0x0698 + 1) → Word × Word

/-- The entry of a word, if the word is valid. -/
def grab {max : ℕ} (map : Fin (max + 1) → Word × Word) (w : Word) : Option (Word × Word) :=
  if w = noWord then some (noWord, noWord)
  else if h : w.toNat < max + 1 then some (map ⟨w.toNat, h⟩)
  else none

/-- The words for both other vocabularies, and whether one could not be translated. -/
structure Translated where
  fst : List Word
  snd : List Word
  fstUntrans : Bool
  sndUntrans : Bool

/-- The loop over the words, which an invalid word ends. -/
def translate {max : ℕ} (map : Fin (max + 1) → Word × Word) :
    List Word → Translated → Option Translated
  | [], t => some t
  | w :: ws, t =>
    match grab map w with
    | none => none
    | some other =>
      translate map ws
        { fst := t.fst ++ [other.1]
          snd := t.snd ++ [other.2]
          fstUntrans := t.fstUntrans || (decide (other.1 = noWord) && decide (w ≠ noWord))
          sndUntrans := t.sndUntrans || (decide (other.2 = noWord) && decide (w ≠ noWord)) }

def untranslated (untrans : Bool) : Translated where
  fst := []
  snd := []
  fstUntrans := untrans
  sndUntrans := untrans

inductive Event where
  | packet (slot : ℕ) (p : OnWire)
  | text (s : String)
  deriving DecidableEq

def invalid : List Event :=
  [.text "\tE\tC7Invalid word select."]

/-- The clients that the senders send to, with their slots. -/
def listeners (l : Lobby) (c : Client) : List (ℕ × Client) :=
  ((List.range l.maxClients).filterMap fun i => (l.clients i).map fun r => (i, r)).filter
    fun x => x.2.id ≠ c.id ∧ x.2.hasIgnored c.guildcard = false

/-- The loop over the clients, and the message for the sender when there were clients that it
could not send to. -/
def sendAround (l : Lobby) (c : Client) (untrans : ClientVersion → Bool)
    (packet : ClientVersion → OnWire) : List Event :=
  (((listeners l c).filter fun x => !untrans x.2.version).map fun x =>
      .packet x.1 (packet x.2.version)) ++
    if (listeners l c).any fun x => untrans x.2.version then
      [.text "\tE\tC7Some clients did not\nreceive your last word\nselect."]
    else []

/-- What the translated packets have in common. -/
def Body.fill (pkt : Body) (clientId clientIdGc : Byte) (words : List Word) : Body where
  type := 0x74
  size := 0x08
  clientId := clientId
  clientIdGc := clientIdGc
  numWords := pkt.numWords
  unused1 := 0
  wsType := pkt.wsType
  unused2 := 0
  words := words
  amounts := pkt.amounts

def fillDc (pkt : Packet DcHdr) (clientId clientIdGc : Byte) (words : List Word) :
    Packet DcHdr where
  toBody := pkt.toBody.fill clientId clientIdGc words
  hdr := { pktType := 0x60, flags := pkt.hdr.flags, pktLen := 0x0024 }

def fillBb (pkt : Packet DcHdr) (clientId clientIdGc : Byte) (words : List Word) :
    Packet BbHdr where
  toBody := pkt.toBody.fill clientId clientIdGc words
  hdr := { pktType := 0x60, flags := pkt.hdr.flags.setWidth 32, pktLen := 0x0028 }

/-- `word_select_send_dc`. -/
def wordSelectSendDc (maps : WordMaps) (l : Lobby) (c : Client) (pkt : Packet DcHdr) :
    List Event :=
  -- no other version has the menu that lists all words
  match translate maps.dcMap pkt.words (untranslated (pkt.wsType = 6)) with
  | none => invalid
  | some t =>
    sendAround l c
      (fun
        | .dcv1 | .dcv2 => false
        | .pc => t.fstUntrans
        | .gc | .ep3 | .xbox | .bb => t.sndUntrans)
      fun v =>
        match v with
        | .dcv1 | .dcv2 => sendPktDc v pkt
        | .pc => sendPktDc v (fillDc pkt pkt.clientId 0 t.fst)
        | .gc | .ep3 => sendPktDc v (fillDc pkt 0 pkt.clientId t.snd)
        | .xbox => sendPktDc v (fillDc pkt pkt.clientId 0 t.snd)
        | .bb => sendPktBb v (fillBb pkt pkt.clientId 0 t.snd)

/-- `word_select_send_pc`. -/
def wordSelectSendPc (maps : WordMaps) (l : Lobby) (c : Client) (pkt : Packet DcHdr) :
    List Event :=
  match translate maps.pcMap pkt.words (untranslated false) with
  | none => invalid
  | some t =>
    sendAround l c
      (fun
        | .dcv1 | .dcv2 => t.fstUntrans
        | .pc => false
        | .gc | .ep3 | .xbox | .bb => t.sndUntrans)
      fun v =>
        match v with
        | .dcv1 | .dcv2 => sendPktDc v (fillDc pkt pkt.clientId 0 t.fst)
        | .pc => sendPktDc v pkt
        | .gc | .ep3 => sendPktDc v (fillDc pkt 0 pkt.clientId t.snd)
        | .xbox => sendPktDc v (fillDc pkt pkt.clientId 0 t.snd)
        | .bb => sendPktBb v (fillBb pkt pkt.clientId 0 t.snd)

/-- `word_select_send_gc`. -/
def wordSelectSendGc (maps : WordMaps) (l : Lobby) (c : Client) (pkt : Packet DcHdr) :
    List Event :=
  let clientId := if c.version = .xbox then pkt.clientId else pkt.clientIdGc
  let gc := if c.version = .xbox then { pkt with clientId := 0, clientIdGc := clientId } else pkt
  let xb := if c.version = .xbox then pkt else { pkt with clientId := clientId, clientIdGc := 0 }
  match translate maps.gcMap pkt.words (untranslated false) with
  | none => invalid
  | some t =>
    sendAround l c
      (fun
        | .dcv1 | .dcv2 => t.fstUntrans
        | .pc => t.sndUntrans
        | .gc | .ep3 | .xbox | .bb => false)
      fun v =>
        match v with
        | .dcv1 | .dcv2 => sendPktDc v (fillDc pkt clientId 0 t.fst)
        | .pc => sendPktDc v (fillDc pkt clientId 0 t.snd)
        | .gc | .ep3 => sendPktDc v gc
        | .xbox => sendPktDc v xb
        | .bb => sendPktBb v (fillBb pkt clientId 0 pkt.words)

def protectText : String :=
  "\tE\tC7You must login before\nyou can chat."

/-- `handle_word_select`. -/
def handleWordSelect (maps : WordMaps) (l : Lobby) (c : Client) (pkt : Packet DcHdr) :
    List Event :=
  if c.gcProtect then [.text protectText]
  else if c.stfu then []
  else
    match c.version with
    | .dcv1 | .dcv2 => wordSelectSendDc maps l c pkt
    | .pc => wordSelectSendPc maps l c pkt
    | .gc | .ep3 | .bb | .xbox => wordSelectSendGc maps l c pkt

/-- `handle_bb_word_select`. The copy of the packet starts at its header, which is longer than
that of the copy: every field has the bytes of the field four bytes before it, and the last two
words are never written. -/
def handleBbWordSelect (maps : WordMaps) (l : Lobby) (c : Client) (pkt : Packet BbHdr)
    (stack : List Word) : List Event :=
  if c.gcProtect then [.text protectText]
  else if c.stfu then []
  else
    let all := [pkt.unused1 ++ pkt.numWords, pkt.unused2 ++ pkt.wsType] ++
      ((pkt.words ++ pkt.amounts).take 8 ++ stack)
    wordSelectSendGc maps l c
      { type := pkt.hdr.flags.setWidth 8
        size := (pkt.hdr.flags >>> 8).setWidth 8
        clientId := (pkt.hdr.flags >>> 16).setWidth 8
        clientIdGc := pkt.clientId
        numWords := pkt.type
        unused1 := pkt.size
        wsType := pkt.clientId
        unused2 := pkt.clientIdGc
        words := all.take 8
        amounts := all.drop 8
        hdr :=
          { pktType := pkt.hdr.pktType.setWidth 8
            flags := pkt.hdr.flags.setWidth 8
            pktLen := pkt.hdr.pktLen - 4 } }

/-! What a word select means. -/

/-- The versions by the words that they know. -/
inductive Vocabulary where
  | dc
  | pc
  | gc
  deriving DecidableEq

def vocabulary : ClientVersion → Vocabulary
  | .dcv1 | .dcv2 => .dc
  | .pc => .pc
  | .gc | .ep3 | .bb | .xbox => .gc

/-- The words of a vocabulary and their entries. -/
def WordMaps.look (maps : WordMaps) : Vocabulary → Word → Option (Word × Word)
  | .dc => grab maps.dcMap
  | .pc => grab maps.pcMap
  | .gc => grab maps.gcMap

/-- The place of another vocabulary in the entries of one. -/
def place : Vocabulary → Vocabulary → Word × Word → Word
  | .dc, .pc => Prod.fst
  | .pc, .dc | .gc, .dc => Prod.fst
  | _, _ => Prod.snd

/-- The word of a vocabulary that stands for a word of another. -/
def WordMaps.counterpart (maps : WordMaps) (src dst : Vocabulary) (w : Word) : Option Word :=
  if w = noWord ∨ src = dst then some w
  else ((maps.look src w).map (place src dst)).filter fun w' => w' ≠ noWord

/-- A word select without its layout. -/
structure Message where
  clientId : Byte
  numWords : Byte
  wsType : Byte
  words : List Word
  amounts : List Word
  deriving DecidableEq

/-- A word select as a client of a version reads or writes it. -/
def Message.read (v : ClientVersion) (p : Body) : Message where
  clientId := if v = .gc ∨ v = .ep3 then p.clientIdGc else p.clientId
  numWords := p.numWords
  wsType := p.wsType
  words := p.words
  amounts := p.amounts

/-- The same message in the words of another vocabulary, if there are such words. -/
def Message.translate (maps : WordMaps) (src dst : Vocabulary) (m : Message) : Option Message :=
  (m.words.mapM (maps.counterpart src dst)).map fun words => { m with words := words }

def OnWire.body : OnWire → Body
  | .dc p => p.toBody
  | .pc p => p.toBody
  | .bb p => p.toBody

/-- The header of a word select in the layout of a version. -/
def OnWire.Layout (v : ClientVersion) : OnWire → Prop
  | .dc p => v ≠ .pc ∧ v ≠ .bb ∧ p.hdr.pktType = 0x60 ∧ p.hdr.pktLen = 0x0024
  | .pc p => v = .pc ∧ p.hdr.pktType = 0x60 ∧ p.hdr.pktLen = 0x0024
  | .bb p => v = .bb ∧ p.hdr.pktType = 0x60 ∧ p.hdr.pktLen = 0x0028

/-- A packet that has the layout of its sender's version, which is not Blue Burst. -/
def Packet.Proper (p : Packet DcHdr) : Prop :=
  p.hdr.pktType = 0x60 ∧ p.hdr.pktLen = 0x0024 ∧ p.type = 0x74 ∧ p.size = 0x08

/-- The packets for the client in a slot. -/
def sentTo (i : ℕ) (events : List Event) : List OnWire :=
  events.filterMap fun
    | .packet j p => if j = i then some p else none
    | .text _ => none

/-- The client in a slot, if it is one that can hear the sender. -/
def listener (l : Lobby) (c : Client) (i : ℕ) : Option Client :=
  if i < l.maxClients then
    (l.clients i).filter fun r => r.id ≠ c.id ∧ r.hasIgnored c.guildcard = false
  else none

/-- A packet says to a client what another said, in its layout and its words. -/
structure Says (maps : WordMaps) (sender r : ClientVersion) (pkt : Packet DcHdr) (p : OnWire) :
    Prop where
  layout : pkt.Proper → p.Layout r ∧ p.body.type = 0x74 ∧ p.body.size = 0x08
  message : some (Message.read r p.body) =
    (Message.read sender pkt.toBody).translate maps (vocabulary sender) (vocabulary r)
  same : r = sender → p.body = pkt.toBody

/-- Every listener for which `understands` holds is sent one packet, which says what the sender
said, and no other client is sent one. -/
def Delivered (maps : WordMaps) (l : Lobby) (c : Client) (pkt : Packet DcHdr)
    (understands : ClientVersion → Prop) (events : List Event) : Prop :=
  ∀ i, (∀ r, listener l c i = some r → understands r.version →
      ∃ p, sentTo i events = [p] ∧ Says maps c.version r.version pkt p) ∧
    ((∀ r, listener l c i = some r → ¬understands r.version) → sentTo i events = [])

/-- All words of a message are in its sender's vocabulary. -/
def Valid (maps : WordMaps) (v : ClientVersion) (pkt : Packet DcHdr) : Prop :=
  ∀ w ∈ pkt.words, (maps.look (vocabulary v) w).isSome = true

/-- All words of a message have counterparts in the vocabulary of a version. -/
def Translatable (maps : WordMaps) (v r : ClientVersion) (pkt : Packet DcHdr) : Prop :=
  ((Message.read v pkt.toBody).translate maps (vocabulary v) (vocabulary r)).isSome = true

/-- The menu with all words is for Dreamcast only. -/
def ListAll (v r : ClientVersion) (pkt : Packet DcHdr) : Prop :=
  vocabulary v = .dc ∧ vocabulary r ≠ .dc ∧ pkt.wsType = 6

section Words

variable {max : ℕ} (map : Fin (max + 1) → Word × Word)

/-- The entry that the loop uses for a valid word. -/
def wordEntry (w : Word) : Word × Word :=
  (grab map w).getD (noWord, noWord)

/-- The entry of a word has nothing at a place. -/
def lacks (f : Word × Word → Word) (w : Word) : Bool :=
  decide (f (wordEntry map w) = noWord) && decide (w ≠ noWord)

theorem translate_invalid {ws : List Word} (h : ∃ w ∈ ws, grab map w = none) (t : Translated) :
    translate map ws t = none := by
  induction ws generalizing t with
  | nil => simp at h
  | cons w ws ih =>
    rw [translate]
    cases hw : grab map w with
    | none => rfl
    | some other =>
      refine ih ?_ _
      obtain ⟨w', hmem, hnone⟩ := h
      rcases List.mem_cons.mp hmem with rfl | hrest
      · rw [hw] at hnone
        cases hnone
      · exact ⟨w', hrest, hnone⟩

theorem translate_valid {ws : List Word} (h : ∀ w ∈ ws, (grab map w).isSome = true)
    (t : Translated) :
    translate map ws t = some
      { fst := t.fst ++ ws.map fun w => (wordEntry map w).1
        snd := t.snd ++ ws.map fun w => (wordEntry map w).2
        fstUntrans := t.fstUntrans || ws.any (lacks map Prod.fst)
        sndUntrans := t.sndUntrans || ws.any (lacks map Prod.snd) } := by
  induction ws generalizing t with
  | nil => simp [translate]
  | cons w ws ih =>
    obtain ⟨other, hw⟩ := Option.isSome_iff_exists.mp (h w List.mem_cons_self)
    have hentry : wordEntry map w = other := by
      rw [wordEntry, hw]
      rfl
    rw [translate, hw]
    dsimp only
    rw [ih fun w' hw' => h w' (List.mem_cons_of_mem w hw')]
    simp only [List.map_cons, List.any_cons, lacks, hentry, List.append_assoc,
      List.singleton_append, Bool.or_assoc]

theorem mapM_of_lacks {f : Word → Option Word} {bad : Word → Bool} {g : Word → Word}
    {ws : List Word} (hf : ∀ w ∈ ws, f w = if bad w then none else some (g w)) :
    ws.mapM f = if ws.any bad then none else some (ws.map g) := by
  induction ws with
  | nil => rfl
  | cons w ws ih =>
    rw [List.mapM_cons, hf w List.mem_cons_self, List.any_cons,
      ih fun w' hw' => hf w' (List.mem_cons_of_mem w hw')]
    cases hbad : bad w with
    | true => simp
    | false =>
      cases ws.any bad with
      | true => simp
      | false => simp

end Words

/-- Words of the same vocabulary stay what they are. -/
theorem translate_self (maps : WordMaps) (k : Vocabulary) (m : Message) :
    m.translate maps k k = some m := by
  have hself : ∀ w ∈ m.words, maps.counterpart k k w = if false then none else some (id w) := by
    intro w _
    simp [WordMaps.counterpart]
  rw [Message.translate, mapM_of_lacks hself]
  simp

/-- A message in other words. -/
theorem translate_other {maps : WordMaps} {src dst : Vocabulary} (hne : src ≠ dst) {max : ℕ}
    {map : Fin (max + 1) → Word × Word} (hmap : maps.look src = grab map) {m : Message}
    (hvalid : ∀ w ∈ m.words, (maps.look src w).isSome = true) :
    m.translate maps src dst =
      if m.words.any (lacks map (place src dst)) then none
      else some { m with words := m.words.map fun w => place src dst (wordEntry map w) } := by
  have hword : ∀ w ∈ m.words, maps.counterpart src dst w =
      if lacks map (place src dst) w then none else some (place src dst (wordEntry map w)) := by
    intro w hw
    obtain ⟨other, hlook⟩ := Option.isSome_iff_exists.mp (hvalid w hw)
    have hentry : wordEntry map w = other := by
      rw [wordEntry, ← hmap, hlook]
      rfl
    rw [WordMaps.counterpart, lacks, hentry, hlook]
    by_cases hno : w = noWord
    · have hother : other = (noWord, noWord) := by
        rw [hmap, grab, if_pos hno] at hlook
        exact (Option.some.inj hlook).symm
      have hplace : place src dst (noWord, noWord) = noWord := by
        cases src <;> cases dst <;> rfl
      simp [hno, hother, hplace]
    · by_cases hnone : place src dst other = noWord
      · simp [hno, hne, hnone, Option.filter]
      · simp [hno, hne, hnone, Option.filter]
  rw [Message.translate, mapM_of_lacks hword]
  split_ifs <;> rfl

section Slots

variable {l : Lobby} {c : Client} {untrans : ClientVersion → Bool}
  {packet : ClientVersion → OnWire}

theorem filterMap_range_eq {α : Type} (x : ℕ → Option α) (i n : ℕ) :
    (List.range n).filterMap (fun j => if j = i then x j else none) =
      if i < n then (x i).toList else [] := by
  induction n with
  | zero => rfl
  | succ n ih =>
    rw [List.range_succ, List.filterMap_append, ih]
    by_cases hi : n = i
    · subst hi
      cases hx : x n with
      | none => simp [hx]
      | some y => simp [hx]
    · by_cases hlt : i < n
      · rw [if_pos hlt, if_pos (by omega)]
        simp [hi]
      · rw [if_neg hlt, if_neg (by omega)]
        simp [hi]

/-- The loop over the clients sends what it has for the client in a slot. -/
theorem sentTo_sendAround (i : ℕ) :
    sentTo i (sendAround l c untrans packet) =
      (((listener l c i).filter fun r => !untrans r.version).map fun r =>
        packet r.version).toList := by
  have htext : sentTo i (if (listeners l c).any fun x => untrans x.2.version then
      [.text "\tE\tC7Some clients did not\nreceive your last word\nselect."] else []) = [] := by
    split_ifs <;> rfl
  have hloop : sentTo i (((listeners l c).filter fun x => !untrans x.2.version).map fun x =>
      .packet x.1 (packet x.2.version)) =
        (List.range l.maxClients).filterMap fun j => if j = i then
          ((((l.clients j).filter fun r => r.id ≠ c.id ∧ r.hasIgnored c.guildcard = false).filter
            fun r => !untrans r.version).map fun r => packet r.version) else none := by
    rw [sentTo, List.filterMap_map, ← List.filterMap_eq_filter, List.filterMap_filterMap,
      listeners, ← List.filterMap_eq_filter, List.filterMap_filterMap, List.filterMap_filterMap]
    refine List.filterMap_congr fun j _ => ?_
    cases l.clients j with
    | none => simp
    | some r =>
      by_cases hear : r.id ≠ c.id ∧ r.hasIgnored c.guildcard = false
      · cases huntrans : untrans r.version with
        | true => simp [Option.guard, Option.filter, hear, huntrans]
        | false =>
          by_cases hj : j = i
          · simp [Option.guard, Option.filter, hear, huntrans, hj]
          · simp [Option.guard, hear, huntrans, hj]
      · simp [Option.guard, Option.filter, hear]
  have happend : ∀ xs ys : List Event, sentTo i (xs ++ ys) = sentTo i xs ++ sentTo i ys :=
    fun _ _ => List.filterMap_append
  rw [sendAround, happend, htext, List.append_nil, hloop, filterMap_range_eq, listener]
  split_ifs <;> rfl

end Slots

section Senders

variable {maps : WordMaps} {l : Lobby} {c : Client} {pkt : Packet DcHdr}

theorem delivered_sendAround {untrans : ClientVersion → Bool} {packet : ClientVersion → OnWire}
    {understands : ClientVersion → Prop} (hiff : ∀ r, understands r ↔ untrans r = false)
    (htold : ∀ r, untrans r = false → Says maps c.version r pkt (packet r)) :
    Delivered maps l c pkt understands (sendAround l c untrans packet) := by
  intro i
  rw [sentTo_sendAround]
  constructor
  · intro r hr hunder
    have huntrans := (hiff r.version).mp hunder
    refine ⟨packet r.version, ?_, htold _ huntrans⟩
    simp [hr, huntrans, Option.filter]
  · intro hnone
    cases hr : listener l c i with
    | none => rfl
    | some r =>
      have huntrans : untrans r.version = true := by
        rw [← Bool.not_eq_false, ← hiff]
        exact hnone r hr
      simp [huntrans, Option.filter]

theorem translatable_self {v r : ClientVersion} (h : vocabulary r = vocabulary v) :
    Translatable maps v r pkt := by
  rw [Translatable, h, translate_self]
  rfl

theorem translatable_iff {v r : ClientVersion} (hne : vocabulary v ≠ vocabulary r) {max : ℕ}
    {map : Fin (max + 1) → Word × Word} (hmap : maps.look (vocabulary v) = grab map)
    (hvalid : Valid maps v pkt) :
    Translatable maps v r pkt ↔
      pkt.words.any (lacks map (place (vocabulary v) (vocabulary r))) = false := by
  rw [Translatable, translate_other (m := Message.read v pkt.toBody) hne hmap hvalid]
  cases h : (Message.read v pkt.toBody).words.any
      (lacks map (place (vocabulary v) (vocabulary r))) with
  | true => exact iff_of_false (by simp) fun hhas => absurd (h.symm.trans hhas) (by decide)
  | false => exact iff_of_true (by simp) h

/-- A packet of the sender's vocabulary, with the client id in its field. -/
theorem says_same {v r : ClientVersion} (h : vocabulary r = vocabulary v) {p : OnWire}
    (hlayout : pkt.Proper → p.Layout r ∧ p.body.type = 0x74 ∧ p.body.size = 0x08)
    (hread : Message.read r p.body = Message.read v pkt.toBody)
    (hsame : r = v → p.body = pkt.toBody) : Says maps v r pkt p where
  layout := hlayout
  message := by rw [hread, h, translate_self]
  same := hsame

/-- A packet that was filled in for another vocabulary. -/
theorem says_other {v r : ClientVersion} (hne : vocabulary v ≠ vocabulary r) {max : ℕ}
    {map : Fin (max + 1) → Word × Word} (hmap : maps.look (vocabulary v) = grab map)
    (hvalid : Valid maps v pkt)
    (hhas : pkt.words.any (lacks map (place (vocabulary v) (vocabulary r))) = false)
    {p : OnWire} (hlayout : p.Layout r ∧ p.body.type = 0x74 ∧ p.body.size = 0x08)
    (hread : Message.read r p.body =
      { Message.read v pkt.toBody with
        words := pkt.words.map fun w =>
          place (vocabulary v) (vocabulary r) (wordEntry map w) }) :
    Says maps v r pkt p where
  layout _ := hlayout
  message := by
    have hhas' : ¬(Message.read v pkt.toBody).words.any
        (lacks map (place (vocabulary v) (vocabulary r))) = true :=
      fun h => absurd (hhas.symm.trans h) (by decide)
    rw [hread, translate_other (m := Message.read v pkt.toBody) hne hmap hvalid, if_neg hhas']
    rfl
  same h := absurd (congrArg vocabulary h).symm hne

theorem wordSelectSendDc_delivers (hv : vocabulary c.version = .dc)
    (hvalid : Valid maps c.version pkt) :
    Delivered maps l c pkt
      (fun r => Translatable maps c.version r pkt ∧ ¬ListAll c.version r pkt)
      (wordSelectSendDc maps l c pkt) := by
  have hlook : maps.look (vocabulary c.version) = grab maps.dcMap := by rw [hv]; rfl
  have hwords : ∀ w ∈ pkt.words, (grab maps.dcMap w).isSome = true := by
    rw [← hlook]
    exact hvalid
  have hread : Message.read c.version pkt.toBody =
      { clientId := pkt.clientId, numWords := pkt.numWords, wsType := pkt.wsType,
        words := pkt.words, amounts := pkt.amounts } := by
    revert hv
    cases c.version <;> first | exact fun _ => rfl | exact fun h => nomatch h
  rw [wordSelectSendDc, translate_valid _ hwords]
  refine delivered_sendAround (fun r => ?_) fun r hr => ?_
  · cases r with
    | dcv1 | dcv2 =>
      refine iff_of_true ⟨translatable_self hv.symm, fun h => h.2.1 rfl⟩ rfl
    | pc | gc | ep3 | bb | xbox =>
      rw [translatable_iff (by rw [hv]; decide) hlook hvalid, ListAll, hv]
      simp [untranslated, vocabulary, place, and_comm]
  · cases r with
    | dcv1 | dcv2 =>
      refine says_same (by rw [hv]; rfl)
        (fun h => ⟨⟨by decide, by decide, h.1, h.2.1⟩, h.2.2⟩) ?_ fun _ => rfl
      rw [hread]
      rfl
    | pc =>
      refine says_other (by rw [hv]; decide) hlook hvalid ?_ ⟨⟨rfl, rfl, rfl⟩, rfl, rfl⟩ ?_
      · rw [hv]
        exact (Bool.or_eq_false_iff.mp hr).2
      · rw [hread, hv]
        rfl
    | gc | ep3 | xbox =>
      refine says_other (by rw [hv]; decide) hlook hvalid ?_
        ⟨⟨by decide, by decide, rfl, rfl⟩, rfl, rfl⟩ ?_
      · rw [hv]
        exact (Bool.or_eq_false_iff.mp hr).2
      · rw [hread, hv]
        rfl
    | bb =>
      refine says_other (by rw [hv]; decide) hlook hvalid ?_ ⟨⟨rfl, rfl, rfl⟩, rfl, rfl⟩ ?_
      · rw [hv]
        exact (Bool.or_eq_false_iff.mp hr).2
      · rw [hread, hv]
        rfl

theorem wordSelectSendPc_delivers (hv : c.version = .pc) (hvalid : Valid maps c.version pkt) :
    Delivered maps l c pkt
      (fun r => Translatable maps c.version r pkt ∧ ¬ListAll c.version r pkt)
      (wordSelectSendPc maps l c pkt) := by
  have hlook : maps.look (vocabulary c.version) = grab maps.pcMap := by rw [hv]; rfl
  have hwords : ∀ w ∈ pkt.words, (grab maps.pcMap w).isSome = true := by
    rw [← hlook]
    exact hvalid
  have hall : ∀ r, ¬ListAll c.version r pkt := by
    intro r h
    rw [ListAll, hv] at h
    exact absurd h.1 (by decide)
  rw [wordSelectSendPc, translate_valid _ hwords]
  refine delivered_sendAround (fun r => ?_) fun r hr => ?_
  · rw [and_iff_left (hall r)]
    cases r with
    | pc => exact iff_of_true (translatable_self (by rw [hv])) rfl
    | dcv1 | dcv2 | gc | ep3 | bb | xbox =>
      rw [translatable_iff (by rw [hv]; decide) hlook hvalid, hv]
      rfl
  · cases r with
    | pc =>
      refine says_same (by rw [hv]) (fun h => ⟨⟨rfl, h.1, h.2.1⟩, h.2.2⟩) ?_ fun _ => rfl
      rw [hv]
      rfl
    | dcv1 | dcv2 | gc | ep3 | xbox =>
      refine says_other (by rw [hv]; decide) hlook hvalid ?_
        ⟨⟨by decide, by decide, rfl, rfl⟩, rfl, rfl⟩ ?_
      · rw [hv]
        exact hr
      · rw [hv]
        rfl
    | bb =>
      refine says_other (by rw [hv]; decide) hlook hvalid ?_ ⟨⟨rfl, rfl, rfl⟩, rfl, rfl⟩ ?_
      · rw [hv]
        exact hr
      · rw [hv]
        rfl

/-- The client id moves to the other field between Gamecube and Xbox. -/
theorem wordSelectSendGc_delivers (hv : vocabulary c.version = .gc) (hbb : c.version ≠ .bb)
    (hvalid : Valid maps c.version pkt) :
    Delivered maps l c pkt
      (fun r => Translatable maps c.version r pkt ∧ ¬ListAll c.version r pkt)
      (wordSelectSendGc maps l c pkt) := by
  have hlook : maps.look (vocabulary c.version) = grab maps.gcMap := by rw [hv]; rfl
  have hwords : ∀ w ∈ pkt.words, (grab maps.gcMap w).isSome = true := by
    rw [← hlook]
    exact hvalid
  have hall : ∀ r, ¬ListAll c.version r pkt := by
    intro r h
    rw [ListAll, hv] at h
    exact absurd h.1 (by decide)
  have hread : Message.read c.version pkt.toBody =
      { clientId := if c.version = .xbox then pkt.clientId else pkt.clientIdGc
        numWords := pkt.numWords
        wsType := pkt.wsType
        words := pkt.words
        amounts := pkt.amounts } := by
    revert hv hbb
    cases c.version with
    | gc | ep3 | xbox => exact fun _ _ => rfl
    | bb => exact fun _ hbb => absurd rfl hbb
    | dcv1 | dcv2 | pc => exact fun hv => absurd hv (by decide)
  rw [wordSelectSendGc, translate_valid _ hwords]
  refine delivered_sendAround (fun r => ?_) fun r hr => ?_
  · rw [and_iff_left (hall r)]
    cases r with
    | gc | ep3 | bb | xbox => exact iff_of_true (translatable_self (by rw [hv]; rfl)) rfl
    | dcv1 | dcv2 | pc =>
      rw [translatable_iff (by rw [hv]; decide) hlook hvalid, hv]
      rfl
  · cases r with
    | dcv1 | dcv2 =>
      refine says_other (by rw [hv]; decide) hlook hvalid ?_
        ⟨⟨by decide, by decide, rfl, rfl⟩, rfl, rfl⟩ ?_
      · rw [hv]
        exact hr
      · rw [hread, hv]
        rfl
    | pc =>
      refine says_other (by rw [hv]; decide) hlook hvalid ?_ ⟨⟨rfl, rfl, rfl⟩, rfl, rfl⟩ ?_
      · rw [hv]
        exact hr
      · rw [hread, hv]
        rfl
    | gc | ep3 =>
      refine says_same (by rw [hv]; rfl) (fun h => ?_) ?_ fun hsame => ?_
      · split_ifs
        · exact ⟨⟨by decide, by decide, h.1, h.2.1⟩, h.2.2⟩
        · exact ⟨⟨by decide, by decide, h.1, h.2.1⟩, h.2.2⟩
      · rw [hread]
        split_ifs <;> rfl
      · have hx : ¬c.version = .xbox := by
          rw [← hsame]
          decide
        simp only [if_neg hx]
        rfl
    | xbox =>
      refine says_same (by rw [hv]; rfl) (fun h => ?_) ?_ fun hsame => ?_
      · split_ifs
        · exact ⟨⟨by decide, by decide, h.1, h.2.1⟩, h.2.2⟩
        · exact ⟨⟨by decide, by decide, h.1, h.2.1⟩, h.2.2⟩
      · rw [hread]
        split_ifs <;> rfl
      · simp only [if_pos hsame.symm]
        rfl
    | bb =>
      refine says_same (by rw [hv]; rfl) (fun _ => ⟨⟨rfl, rfl, rfl⟩, rfl, rfl⟩) ?_
        fun hsame => absurd hsame.symm hbb
      rw [hread]
      rfl

end Senders

/-- A word that is not in the sender's vocabulary refuses the message. -/
theorem handleWordSelect_invalid {maps : WordMaps} {l : Lobby} {c : Client} {pkt : Packet DcHdr}
    (hprotect : c.gcProtect = false) (hstfu : c.stfu = false)
    (h : ¬Valid maps c.version pkt) : handleWordSelect maps l c pkt = invalid := by
  rw [Valid] at h
  push Not at h
  obtain ⟨w, hw, hnone⟩ := h
  rw [ne_eq, Option.not_isSome_iff_eq_none] at hnone
  rw [handleWordSelect, hprotect, hstfu]
  cases hv : c.version with
  | dcv1 | dcv2 =>
    rw [hv] at hnone
    change wordSelectSendDc maps l c pkt = invalid
    rw [wordSelectSendDc, translate_invalid _ ⟨w, hw, hnone⟩]
  | pc =>
    rw [hv] at hnone
    change wordSelectSendPc maps l c pkt = invalid
    rw [wordSelectSendPc, translate_invalid _ ⟨w, hw, hnone⟩]
  | gc | ep3 | bb | xbox =>
    rw [hv] at hnone
    change wordSelectSendGc maps l c pkt = invalid
    rw [wordSelectSendGc, translate_invalid _ ⟨w, hw, hnone⟩]

/-- What is said in one version is heard in all that have the words for it, but for the menu with
all words, which is for Dreamcast. -/
theorem handleWordSelect_delivers (maps : WordMaps) (l : Lobby) (c : Client) (pkt : Packet DcHdr)
    (hprotect : c.gcProtect = false) (hstfu : c.stfu = false) (hbb : c.version ≠ .bb) :
    (¬Valid maps c.version pkt → handleWordSelect maps l c pkt = invalid) ∧
      (Valid maps c.version pkt →
        Delivered maps l c pkt
          (fun r => Translatable maps c.version r pkt ∧ ¬ListAll c.version r pkt)
          (handleWordSelect maps l c pkt)) := by
  refine ⟨handleWordSelect_invalid hprotect hstfu, fun hvalid => ?_⟩
  cases hv : c.version with
  | dcv1 | dcv2 =>
    have hsend : handleWordSelect maps l c pkt = wordSelectSendDc maps l c pkt := by
      rw [handleWordSelect, hprotect, hstfu, hv]
      rfl
    rw [hsend, ← hv]
    exact wordSelectSendDc_delivers (by rw [hv]; rfl) hvalid
  | pc =>
    have hsend : handleWordSelect maps l c pkt = wordSelectSendPc maps l c pkt := by
      rw [handleWordSelect, hprotect, hstfu, hv]
      rfl
    rw [hsend, ← hv]
    exact wordSelectSendPc_delivers hv hvalid
  | gc | ep3 | xbox =>
    have hsend : handleWordSelect maps l c pkt = wordSelectSendGc maps l c pkt := by
      rw [handleWordSelect, hprotect, hstfu, hv]
      rfl
    rw [hsend, ← hv]
    exact wordSelectSendGc_delivers (by rw [hv]; rfl) hbb hvalid
  | bb => exact absurd hv hbb

/-- Maps in which every word stands for itself. -/
def identityMaps : WordMaps where
  dcMap i := (BitVec.ofNat 16 i, BitVec.ofNat 16 i)
  pcMap i := (BitVec.ofNat 16 i, BitVec.ofNat 16 i)
  gcMap i := (BitVec.ofNat 16 i, BitVec.ofNat 16 i)

def player (n : ClientId) (v : ClientVersion) : Client where
  id := n
  version := v
  isNte := false
  stfu := false
  gcProtect := false
  autoreplyOn := false
  hasData := true
  guildcard := 42000000 + n
  ignoreList := Vector.replicate 10 0
  blacklist := Vector.replicate 30 0

def twoPlayers : Lobby where
  maxClients := 12
  bursting := false
  clients i := if i = 0 then some (player 1 .dcv2) else if i = 1 then some (player 2 .gc) else none

/-- Two words, from a client in slot 0. -/
def twoWords (wsType : Byte) : Packet DcHdr where
  hdr := { pktType := 0x60, flags := 0, pktLen := 0x0024 }
  type := 0x74
  size := 0x08
  clientId := 0
  clientIdGc := 0
  numWords := 2
  unused1 := 0
  wsType := wsType
  unused2 := 0
  words := [0x0010, 0x0020, noWord, noWord, noWord, noWord, noWord, noWord]
  amounts := [0, 0, 0, 0]

theorem handleWordSelect_delivers_two :
    (¬Valid identityMaps .dcv2 (twoWords 1) →
      handleWordSelect identityMaps twoPlayers (player 1 .dcv2) (twoWords 1) = invalid) ∧
      (Valid identityMaps .dcv2 (twoWords 1) →
        Delivered identityMaps twoPlayers (player 1 .dcv2) (twoWords 1)
          (fun r => Translatable identityMaps .dcv2 r (twoWords 1) ∧
            ¬ListAll .dcv2 r (twoWords 1))
          (handleWordSelect identityMaps twoPlayers (player 1 .dcv2) (twoWords 1))) :=
  handleWordSelect_delivers identityMaps twoPlayers (player 1 .dcv2) (twoWords 1) rfl rfl
    (by decide)

/-- A message from the menu with all words does not reach a client that has its words. -/
theorem handleWordSelect_not_delivers :
    ¬∀ (maps : WordMaps) (l : Lobby) (c : Client) (pkt : Packet DcHdr),
      c.gcProtect = false → c.stfu = false → c.version ≠ .bb → Valid maps c.version pkt →
        Delivered maps l c pkt (fun r => Translatable maps c.version r pkt)
          (handleWordSelect maps l c pkt) := by
  intro h
  have hvalid : Valid identityMaps .dcv2 (twoWords 6) := by
    intro w hw
    simp only [twoWords, List.mem_cons, List.not_mem_nil, or_false, or_self] at hw
    rcases hw with rfl | rfl | rfl
    · rfl
    · rfl
    · rfl
  have htranslate : Translatable identityMaps .dcv2 .gc (twoWords 6) := rfl
  obtain ⟨p, hsent, _⟩ := (h identityMaps twoPlayers (player 1 .dcv2) (twoWords 6) rfl rfl
    (by decide) hvalid 1).1 (player 2 .gc) rfl htranslate
  have hnone : sentTo 1 (wordSelectSendDc identityMaps twoPlayers (player 1 .dcv2) (twoWords 6)) =
      [] := by
    refine (wordSelectSendDc_delivers rfl hvalid 1).2 fun r hr hunder => hunder.2 ?_
    cases hr
    exact ⟨rfl, by decide, rfl⟩
  rw [show handleWordSelect identityMaps twoPlayers (player 1 .dcv2) (twoWords 6) =
    wordSelectSendDc identityMaps twoPlayers (player 1 .dcv2) (twoWords 6) from rfl, hnone] at hsent
  cases hsent

end ShipServer.WordSelects
