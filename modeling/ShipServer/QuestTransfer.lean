import ShipServer.InterleavedChunks
import ShipServer.ListPackets
import ShipServer.QuestMapCache

set_option autoImplicit false

/-! The packets that a quest is sent in, and the reader of files with such packets. -/

namespace ShipServer.QuestTransfer

open InterleavedChunks ListPackets
open QuestMapCache (readLe32)

/-- The texts of `sylverant_quest_t` that the packets have. -/
structure QuestTexts where
  name : List UInt8
  pfx : List UInt8

/-- The two header layouts. -/
inductive Header where
  | dc
  | pc
  deriving DecidableEq

def Header.bytes (h : Header) (pktType flags : UInt8) (pktLen : ℕ) : List UInt8 :=
  match h with
  | .dc => [pktType, flags] ++ le16 pktLen
  | .pc => le16 pktLen ++ [pktType, flags]

/-- A text that fits, in a field that has been cleared. -/
def field (size : ℕ) (text : List UInt8) : List UInt8 :=
  text ++ zeros (size - text.length)

/-- `PSO/%-.27s`. -/
def questName (q : QuestTexts) : List UInt8 :=
  [0x50, 0x53, 0x4F, 0x2F] ++ (cString q.name).take 27

def dat : List UInt8 :=
  [0x2E, 0x64, 0x61, 0x74]

def bin : List UInt8 :=
  [0x2E, 0x62, 0x69, 0x6E]

/-- `%-.11s.dat` and `%-.11s.bin`. -/
def fileName (q : QuestTexts) (ext : List UInt8) : List UInt8 :=
  (cString q.pfx).take 11 ++ ext

/-- A packet that announces a file. -/
structure FilePacket where
  name : List UInt8
  filename : List UInt8
  length : BitVec 32
  deriving DecidableEq

/-- A packet with a chunk of a file. `number` is in the header. -/
structure ChunkPacket where
  number : UInt8
  filename : List UInt8
  data : List UInt8
  length : BitVec 32
  deriving DecidableEq

/-- `dc_quest_file_pkt`. -/
def dcQuestFile (p : FilePacket) : List UInt8 :=
  Header.dc.bytes 0x44 0x02 0x3C ++ field 32 p.name ++ zeros 3 ++ field 16 p.filename ++ zeros 1 ++
    QuestMapCache.le32 p.length

/-- `pc_quest_file_pkt`. -/
def pcQuestFile (p : FilePacket) : List UInt8 :=
  Header.pc.bytes 0x44 0x00 0x3C ++ field 32 p.name ++ le16 0 ++ le16 0x0002 ++
    field 16 p.filename ++ QuestMapCache.le32 p.length

/-- `gc_quest_file_pkt`. -/
def gcQuestFile (p : FilePacket) : List UInt8 :=
  Header.dc.bytes 0x44 0x00 0x3C ++ field 32 p.name ++ le16 0 ++ le16 0x0002 ++
    field 16 p.filename ++ QuestMapCache.le32 p.length

/-- `dc_quest_chunk_pkt`. -/
def questChunk (h : Header) (p : ChunkPacket) : List UInt8 :=
  h.bytes 0x13 p.number 0x0418 ++ field 16 p.filename ++ p.data ++ QuestMapCache.le32 p.length

/-- What is sent of a quest, in order. -/
structure Sent where
  header : Header
  fileBytes : FilePacket → List UInt8
  files : List FilePacket
  chunks : List ChunkPacket

/-- The packets one after the other. -/
def Sent.bytes (s : Sent) : List UInt8 :=
  (s.files.map s.fileBytes ++ s.chunks.map (questChunk s.header)).flatten

instance chunkSize : NeZero 0x400 where
  out := by decide

/-- A chunk of the loop as a packet. -/
def chunkPacket (q : QuestTexts) (c : Chunk UInt8) : ChunkPacket where
  number := UInt8.ofNat c.number
  filename := fileName q (if c.first then dat else bin)
  data := field 0x400 c.items
  length := BitVec.ofNat 32 c.items.length

/-- What the senders have in common. The two files may be missing, as may the quest itself. -/
def sendQuestWith (header : Header) (fileBytes : FilePacket → List UInt8)
    (q : Option QuestTexts) (binFile datFile : Option (List UInt8)) : Option Sent :=
  match q, binFile, datFile with
  | some q, some binFile, some datFile =>
    let announce := fun ext (content : List UInt8) =>
      ({ name := questName q, filename := fileName q ext,
         length := BitVec.ofNat 32 content.length } : FilePacket)
    some
      { header := header
        fileBytes := fileBytes
        files := [announce dat datFile, announce bin binFile]
        chunks := (interleave 0x400 0 (some datFile) (some binFile)).map (chunkPacket q) }
  | _, _, _ => none

def sendDcv1Quest : Option QuestTexts → Option (List UInt8) → Option (List UInt8) → Option Sent :=
  sendQuestWith .dc dcQuestFile

def sendDcv2Quest : Option QuestTexts → Option (List UInt8) → Option (List UInt8) → Option Sent :=
  sendQuestWith .dc dcQuestFile

def sendPcQuest : Option QuestTexts → Option (List UInt8) → Option (List UInt8) → Option Sent :=
  sendQuestWith .pc pcQuestFile

def sendGcQuest : Option QuestTexts → Option (List UInt8) → Option (List UInt8) → Option Sent :=
  sendQuestWith .dc gcQuestFile

/-- The text from its last dot on, if it has one. -/
def lastDot : List UInt8 → Option (List UInt8)
  | [] => none
  | b :: bs =>
    match lastDot bs with
    | some ext => some ext
    | none => if b = 0x2E then some (b :: bs) else none

/-- The extension of the file name in a field. -/
def extension (filename : List UInt8) : Option (List UInt8) :=
  lastDot (cString filename)

def bytesAt (buf : List UInt8) (i n : ℕ) : List UInt8 :=
  (buf.drop i).take n

/-- The versions whose files the reader knows, but Blue Burst. -/
inductive QstVersion where
  | dc
  | pc
  | gc
  deriving DecidableEq

/-- The place of the file name in a packet that announces a file. -/
def QstVersion.nameAt : QstVersion → ℕ
  | .dc => 39
  | .pc | .gc => 40

/-- `qst_dat_size`. -/
def qstDatSize (v : QstVersion) (buf : List UInt8) : BitVec 32 :=
  if extension (bytesAt buf v.nameAt 16) = some dat then readLe32 (bytesAt buf 56 4)
  else if extension (bytesAt buf (0x3C + v.nameAt) 16) = some dat then
    readLe32 (bytesAt buf (0x3C + 56) 4)
  else 0

/-- The type and the length in a header. -/
def Header.read (h : Header) (buf : List UInt8) : UInt8 × List UInt8 :=
  match h with
  | .dc => (buf.getD 0 0, bytesAt buf 2 2)
  | .pc => (buf.getD 2 0, bytesAt buf 0 2)

/-- `copy_dc_qst_dat` and `copy_pc_qst_dat`. The offset into the file is a number of 32 bits, so
the loop may be endless: it is given up when there is no fuel left. The inner result is what has
been copied, or nothing where the file is damaged. -/
def copyQstDat (h : Header) (buf : List UInt8) (dsz : BitVec 32) :
    ℕ → BitVec 32 → List UInt8 → Option (Option (List UInt8))
  | 0, _, _ => none
  | fuel + 1, ptr, out =>
    if ptr.toNat < buf.length then
      let ck := buf.drop ptr.toNat
      if h.read ck ≠ (0x13, le16 0x0418) then some none
      else
        let clen := readLe32 (bytesAt ck 1044 4)
        match extension (bytesAt ck 4 16) with
        | none => some none
        | some ext =>
          if 1024 < clen then some none
          else if ext = dat then
            if dsz < BitVec.ofNat 32 out.length + clen then some none
            else copyQstDat h buf dsz fuel (ptr + 0x0418) (out ++ bytesAt ck 20 clen.toNat)
          else copyQstDat h buf dsz fuel (ptr + 0x0418) out
    else some (if BitVec.ofNat 32 out.length = dsz then some out else none)

def QstVersion.header : QstVersion → Header
  | .dc | .gc => .dc
  | .pc => .pc

/-- `read_and_dec_qst`, up to the decompression. -/
def readQst (v : QstVersion) (buf : List UInt8) (fuel : ℕ) : Option (Option (List UInt8)) :=
  if buf.length < 120 then some none
  else
    let dsz := qstDatSize v buf
    if dsz = 0 then some none else copyQstDat v.header buf dsz fuel 120 []

inductive QuestSender where
  | dcv1
  | dcv2
  | pc
  | gc
  deriving DecidableEq

def QuestSender.send :
    QuestSender → Option QuestTexts → Option (List UInt8) → Option (List UInt8) → Option Sent
  | .dcv1 => sendDcv1Quest
  | .dcv2 => sendDcv2Quest
  | .pc => sendPcQuest
  | .gc => sendGcQuest

def QuestSender.reader : QuestSender → QstVersion
  | .dcv1 | .dcv2 => .dc
  | .pc => .pc
  | .gc => .gc

/-- The chunks with a file name. -/
def Sent.ofFile (s : Sent) (filename : List UInt8) : List ChunkPacket :=
  s.chunks.filter fun c => c.filename = filename

/-- Chunks that a file can be put together from. -/
structure Carries (cs : List ChunkPacket) (content : List UInt8) : Prop where
  joined : (cs.flatMap fun c => c.data.take c.length.toNat) = content
  numbers : cs.map ChunkPacket.number =
    (List.range (content.length / 0x400 + 1)).map UInt8.ofNat
  full : ∀ c ∈ cs.dropLast, c.length = 0x400
  array : ∀ c ∈ cs, c.data.length = 0x400

/-- Both files are announced with their lengths, and carried by all the chunks there are. -/
structure Delivers (q : QuestTexts) (binFile datFile : List UInt8) (s : Sent) : Prop where
  announced : (s.files.map fun p => (p.filename, p.length)) =
    [(fileName q dat, BitVec.ofNat 32 datFile.length),
      (fileName q bin, BitVec.ofNat 32 binFile.length)]
  datFile : Carries (s.ofFile (fileName q dat)) datFile
  binFile : Carries (s.ofFile (fileName q bin)) binFile
  others : ∀ c ∈ s.chunks, c.filename = fileName q dat ∨ c.filename = fileName q bin

section Chunks

variable {q : QuestTexts}

theorem field_length {size : ℕ} {text : List UInt8} (h : text.length ≤ size) :
    (field size text).length = size := by
  rw [field, zeros, List.length_append, List.length_replicate]
  omega

theorem fileName_ne : fileName q dat ≠ fileName q bin := by
  intro h
  rw [fileName, fileName, List.append_cancel_left_eq] at h
  exact absurd h (by decide)

theorem fileName_length (ext : List UInt8) (h : ext.length = 4) :
    (fileName q ext).length ≤ 15 := by
  rw [fileName, List.length_append, List.length_take, h]
  omega

theorem fileName_first (first first' : Bool) :
    fileName q (if first then dat else bin) = fileName q (if first' then dat else bin) ↔
      first = first' := by
  cases first <;> cases first'
  · simp
  · simp [fileName_ne.symm]
  · simp [fileName_ne]
  · simp

/-- The chunks of a file are those that the loop has read from it. -/
theorem filter_chunkPacket (first : Bool) (datFile binFile : List UInt8) :
    ((interleave 0x400 0 (some datFile) (some binFile)).map (chunkPacket q)).filter
        (fun c => c.filename = fileName q (if first then dat else bin)) =
      ((chunks 0x400 (if first then datFile else binFile)).zipIdx 0).map fun x =>
        chunkPacket q { first := first, number := x.2, items := x.1 } := by
  have hside : (fun c : Chunk UInt8 => decide ((chunkPacket q c).filename =
      fileName q (if first then dat else bin))) = fun c => decide (c.first = first) := by
    funext c
    exact decide_eq_decide.mpr (fileName_first c.first first)
  rw [List.filter_map]
  change List.map (chunkPacket q) (List.filter (fun c : Chunk UInt8 =>
    decide ((chunkPacket q c).filename = fileName q (if first then dat else bin))) _) = _
  rw [hside, filter_interleave, List.map_map]
  cases first <;> rfl

theorem toNat_length {items : List UInt8} (h : items.length ≤ 0x400) :
    (BitVec.ofNat 32 items.length).toNat = items.length := by
  rw [BitVec.toNat_ofNat]
  exact Nat.mod_eq_of_lt (by omega)

theorem take_field {size : ℕ} (text : List UInt8) :
    (field size text).take text.length = text := by
  rw [field, List.take_append_of_le_length le_rfl, List.take_length]

theorem carries_chunks (first : Bool) (content : List UInt8) :
    Carries (((chunks 0x400 content).zipIdx 0).map fun x =>
      chunkPacket q { first := first, number := x.2, items := x.1 }) content where
  joined := by
    have hitems : ∀ x ∈ (chunks 0x400 content).zipIdx 0,
        (field 0x400 x.1).take (BitVec.ofNat 32 x.1.length).toNat = x.1 := by
      intro x hx
      rw [toNat_length (length_le_of_mem_chunks 0x400 (List.fst_mem_of_mem_zipIdx hx)), take_field]
    rw [List.flatMap_map]
    refine (List.flatMap_congr hitems).trans ?_
    rw [List.flatMap_def, List.zipIdx_map_fst, flatten_chunks]
  numbers := by
    rw [List.map_map]
    change ((chunks 0x400 content).zipIdx 0).map (UInt8.ofNat ∘ Prod.snd) = _
    rw [← List.map_map, List.zipIdx_map_snd, length_chunks, List.range_eq_range']
  full := by
    intro c hc
    rw [← List.map_dropLast] at hc
    obtain ⟨x, hx, rfl⟩ := List.mem_map.mp hc
    have hmem : x.1 ∈ (chunks 0x400 content).dropLast := by
      have hfst := List.mem_map_of_mem (f := Prod.fst) hx
      rw [List.map_dropLast, List.zipIdx_map_fst] at hfst
      exact hfst
    change BitVec.ofNat 32 x.1.length = 0x400
    rw [length_of_mem_dropLast_chunks 0x400 content x.1 hmem]
    rfl
  array := by
    intro c hc
    obtain ⟨x, hx, rfl⟩ := List.mem_map.mp hc
    exact field_length (length_le_of_mem_chunks 0x400 (List.fst_mem_of_mem_zipIdx hx))

theorem sendQuestWith_delivers (header : Header) (fileBytes : FilePacket → List UInt8)
    (q : QuestTexts) (binFile datFile : List UInt8) :
    ∃ s, sendQuestWith header fileBytes (some q) (some binFile) (some datFile) = some s ∧
      Delivers q binFile datFile s := by
  refine ⟨_, rfl, rfl, ?_, ?_, ?_⟩
  · rw [Sent.ofFile]
    change Carries (List.filter (fun c => c.filename = fileName q (if true then dat else bin)) _) _
    rw [filter_chunkPacket]
    exact carries_chunks true datFile
  · rw [Sent.ofFile]
    change Carries (List.filter (fun c => c.filename = fileName q (if false then dat else bin)) _) _
    rw [filter_chunkPacket]
    exact carries_chunks false binFile
  · intro c hc
    obtain ⟨d, _, rfl⟩ := List.mem_map.mp hc
    change fileName q (if d.first then dat else bin) = _ ∨
      fileName q (if d.first then dat else bin) = _
    cases d.first
    · exact Or.inr rfl
    · exact Or.inl rfl

end Chunks

section Reader

variable {q : QuestTexts}

theorem bytesAt_append {a b : List UInt8} {i : ℕ} (h : a.length = i) (n : ℕ) :
    bytesAt (a ++ b) i n = b.take n := by
  rw [bytesAt, List.drop_append_of_le_length h.ge, List.drop_of_length_le h.le, List.nil_append]

theorem lastDot_append {ext : List UInt8} (h : lastDot ext = some ext) (base : List UInt8) :
    lastDot (base ++ ext) = some ext := by
  induction base with
  | nil => exact h
  | cons b base ih => rw [List.cons_append, lastDot, ih]

theorem cString_append_zero {text : List UInt8} (h : ∀ b ∈ text, b ≠ 0) (n : ℕ) :
    cString (text ++ zeros n) = text := by
  rw [cString, List.takeWhile_append_of_pos (by simpa using h)]
  cases n with
  | zero => exact List.append_nil text
  | succ n => simp [zeros, List.replicate_succ]

theorem fileName_ne_zero {ext : List UInt8} (h : ∀ b ∈ ext, b ≠ 0) :
    ∀ b ∈ fileName q ext, b ≠ 0 := by
  intro b hb
  rcases List.mem_append.mp hb with hbase | hext
  · simpa using List.mem_takeWhile_imp (List.mem_of_mem_take hbase)
  · exact h b hext

theorem extension_field {ext : List UInt8} (hzero : ∀ b ∈ ext, b ≠ 0)
    (hdot : lastDot ext = some ext) : extension (field 16 (fileName q ext)) = some ext := by
  rw [extension, field, cString_append_zero (fileName_ne_zero hzero), fileName,
    lastDot_append hdot]

theorem extension_dat : extension (field 16 (fileName q dat)) = some dat :=
  extension_field (by simp [dat]) rfl

theorem extension_bin : extension (field 16 (fileName q bin)) = some bin :=
  extension_field (by simp [bin]) rfl

theorem header_length (h : Header) (pktType flags : UInt8) (pktLen : ℕ) :
    (h.bytes pktType flags pktLen).length = 4 := by
  cases h <;> rfl

theorem questName_length : (questName q).length ≤ 32 := by
  rw [questName, List.length_append, List.length_take]
  change 4 + _ ≤ 32
  omega

theorem chunkName_length (c : Chunk UInt8) :
    (field 16 (chunkPacket q c).filename).length = 16 := by
  refine field_length ((fileName_length _ ?_).trans (by decide))
  cases c.first <;> rfl

theorem chunkData_length {c : Chunk UInt8} (hc : c.items.length ≤ 0x400) :
    (chunkPacket q c).data.length = 0x400 :=
  field_length hc

/-- What the reader sees of a chunk. -/
theorem read_questChunk (h : Header) {c : Chunk UInt8} (hc : c.items.length ≤ 0x400)
    (behind : List UInt8) :
    let ck := questChunk h (chunkPacket q c) ++ behind
    h.read ck = (0x13, le16 0x0418) ∧
      extension (bytesAt ck 4 16) = some (if c.first then dat else bin) ∧
      readLe32 (bytesAt ck 1044 4) = BitVec.ofNat 32 c.items.length ∧
      bytesAt ck 20 c.items.length = c.items ∧ ck.drop 1048 = behind := by
  have hname := chunkName_length (q := q) c
  have hdata := chunkData_length (q := q) hc
  have hck : questChunk h (chunkPacket q c) ++ behind =
      h.bytes 0x13 (chunkPacket q c).number 0x0418 ++ (field 16 (chunkPacket q c).filename ++
        ((chunkPacket q c).data ++ (QuestMapCache.le32 (chunkPacket q c).length ++ behind))) := by
    rw [questChunk]
    simp only [List.append_assoc]
  dsimp only
  rw [hck]
  refine ⟨?_, ?_, ?_, ?_, ?_⟩
  · cases h <;> rfl
  · rw [bytesAt_append (header_length _ _ _ _), List.take_append_of_le_length hname.ge,
      List.take_of_length_le hname.le]
    change extension (field 16 (fileName q (if c.first then dat else bin))) = _
    cases c.first
    · exact extension_bin
    · exact extension_dat
  · rw [← List.append_assoc, ← List.append_assoc, bytesAt_append,
      QuestMapCache.readLe32_le32]
    · rfl
    · rw [List.length_append, List.length_append, header_length, hname, hdata]
  · rw [← List.append_assoc, bytesAt_append]
    · rw [List.take_append_of_le_length (by omega)]
      exact take_field c.items
    · rw [List.length_append, header_length, hname]
  · rw [← List.append_assoc, ← List.append_assoc, ← List.append_assoc,
      List.drop_append_of_le_length, List.drop_of_length_le, List.nil_append]
    · simp only [List.length_append, header_length, hname, hdata]
      rfl
    · simp only [List.length_append, header_length, hname, hdata]
      rfl

theorem questChunk_length (h : Header) {c : Chunk UInt8} (hc : c.items.length ≤ 0x400) :
    (questChunk h (chunkPacket q c)).length = 1048 := by
  rw [questChunk, List.length_append, List.length_append, List.length_append, header_length,
    chunkName_length, chunkData_length hc]
  rfl

/-- The items of the first sequence. -/
def firstItems (cs : List (Chunk UInt8)) : List UInt8 :=
  (cs.filter fun c => c.first).flatMap Chunk.items

/-- The loop of the reader copies the chunks of the .dat file. -/
theorem copyQstDat_chunks (h : Header) {buf : List UInt8} (hbuf : buf.length < 2 ^ 32) {total : ℕ}
    (htotal : total < 2 ^ 32) {cs : List (Chunk UInt8)} (hcs : ∀ c ∈ cs, c.items.length ≤ 0x400)
    {fuel : ℕ} (hfuel : cs.length < fuel) {ptr : BitVec 32} {out : List UInt8}
    (hdrop : buf.drop ptr.toNat = (cs.map fun c => questChunk h (chunkPacket q c)).flatten)
    (hsum : out.length + (firstItems cs).length = total) :
    copyQstDat h buf (BitVec.ofNat 32 total) fuel ptr out = some (some (out ++ firstItems cs)) := by
  induction cs generalizing fuel ptr out with
  | nil =>
    obtain ⟨n, rfl⟩ := Nat.exists_eq_succ_of_ne_zero (Nat.ne_of_gt hfuel)
    have hend : ¬ptr.toNat < buf.length := by
      have hlen := congrArg List.length hdrop
      rw [List.length_drop] at hlen
      change buf.length - ptr.toNat = 0 at hlen
      omega
    have hout : out.length = total := hsum
    rw [copyQstDat, if_neg hend, hout, if_pos rfl, firstItems]
    simp
  | cons c cs ih =>
    obtain ⟨n, rfl⟩ := Nat.exists_eq_succ_of_ne_zero (Nat.ne_zero_of_lt hfuel)
    have hc := hcs c List.mem_cons_self
    rw [List.map_cons, List.flatten_cons] at hdrop
    obtain ⟨hread, hext, hlength, hdata, hbehind⟩ := read_questChunk h hc
      ((cs.map fun c => questChunk h (chunkPacket q c)).flatten)
    have hlen := congrArg List.length hdrop
    rw [List.length_drop, List.length_append, questChunk_length h hc] at hlen
    have hnext : (ptr + 0x0418).toNat = ptr.toNat + 1048 := by
      rw [BitVec.toNat_add]
      exact Nat.mod_eq_of_lt (by change ptr.toNat + 1048 < 2 ^ 32; omega)
    have hdrop' : buf.drop (ptr + 0x0418).toNat =
        (cs.map fun c => questChunk h (chunkPacket q c)).flatten := by
      rw [hnext, ← List.drop_drop, hdrop]
      exact hbehind
    have hclen : (BitVec.ofNat 32 c.items.length).toNat = c.items.length := toNat_length hc
    have hsmall : ¬(1024 : BitVec 32) < BitVec.ofNat 32 c.items.length := by
      rw [BitVec.lt_def, hclen]
      change ¬1024 < c.items.length
      omega
    rw [copyQstDat, if_pos (by omega)]
    dsimp only
    rw [hdrop, hread, if_neg (by simp), hext, hlength]
    dsimp only
    rw [if_neg hsmall]
    have hrest : ∀ c ∈ cs, c.items.length ≤ 0x400 := fun d hd => hcs d (List.mem_cons_of_mem c hd)
    cases hfirst : c.first with
    | true =>
      have hitems : firstItems (c :: cs) = c.items ++ firstItems cs := by
        simp [firstItems, hfirst]
      rw [hitems, List.length_append] at hsum
      have hfits : ¬BitVec.ofNat 32 total < BitVec.ofNat 32 out.length +
          BitVec.ofNat 32 c.items.length := by
        rw [← BitVec.ofNat_add, BitVec.lt_def, BitVec.toNat_ofNat, BitVec.toNat_ofNat,
          Nat.mod_eq_of_lt htotal, Nat.mod_eq_of_lt (by omega)]
        omega
      rw [if_pos rfl, if_pos rfl, if_neg hfits, hclen, hdata, hitems, ← List.append_assoc]
      refine ih hrest (Nat.lt_of_succ_lt_succ hfuel) hdrop' ?_
      rw [List.length_append]
      omega
    | false =>
      have hitems : firstItems (c :: cs) = firstItems cs := by
        simp [firstItems, hfirst]
      rw [hitems] at hsum
      rw [if_neg (by decide), hitems]
      exact ih hrest (Nat.lt_of_succ_lt_succ hfuel) hdrop' hsum

/-- The reader finds the size of the .dat file in the first packet. -/
theorem qstDatSize_append {v : QstVersion} {before : List UInt8}
    (hbefore : before.length = v.nameAt) {mid : List UInt8} (hmid : v.nameAt + 16 + mid.length = 56) (n : BitVec 32)
    (behind : List UInt8) :
    qstDatSize v (before ++ (field 16 (fileName q dat) ++ (mid ++
      (QuestMapCache.le32 n ++ behind)))) = n := by
  have hname : (field 16 (fileName q dat)).length = 16 :=
    field_length ((fileName_length _ rfl).trans (by decide))
  have hext : extension (bytesAt (before ++ (field 16 (fileName q dat) ++ (mid ++
      (QuestMapCache.le32 n ++ behind)))) v.nameAt 16) = some dat := by
    rw [bytesAt_append hbefore, List.take_append_of_le_length hname.ge,
      List.take_of_length_le hname.le]
    exact extension_dat
  rw [qstDatSize, if_pos hext, ← List.append_assoc, ← List.append_assoc, bytesAt_append,
    QuestMapCache.readLe32_le32]
  rw [List.length_append, List.length_append, hname, hbefore]
  exact hmid

/-- The packets that announce files, as the reader finds them. -/
structure Announces (v : QstVersion) (fileBytes : FilePacket → List UInt8) : Prop where
  length : ∀ p : FilePacket, p.name.length ≤ 32 → p.filename.length ≤ 16 →
    (fileBytes p).length = 60
  size : ∀ (q : QuestTexts) (p : FilePacket), p.name.length ≤ 32 → p.filename = fileName q dat →
    ∀ behind, qstDatSize v (fileBytes p ++ behind) = p.length

theorem announces_dc : Announces .dc dcQuestFile where
  length p hname hfile := by
    simp only [dcQuestFile, List.length_append, header_length, field_length hname,
      field_length hfile, zeros, List.length_replicate]
    rfl
  size q p hname hfile behind := by
    have hparts : dcQuestFile p ++ behind =
        (Header.dc.bytes 0x44 0x02 0x3C ++ field 32 p.name ++ zeros 3) ++
          (field 16 (fileName q dat) ++ (zeros 1 ++ (QuestMapCache.le32 p.length ++ behind))) := by
      rw [dcQuestFile, hfile]
      simp only [List.append_assoc]
    rw [hparts, qstDatSize_append _ rfl]
    rw [List.length_append, List.length_append, header_length, field_length hname]
    rfl

theorem announces_pc : Announces .pc pcQuestFile where
  length p hname hfile := by
    simp only [pcQuestFile, List.length_append, header_length, field_length hname,
      field_length hfile]
    rfl
  size q p hname hfile behind := by
    have hparts : pcQuestFile p ++ behind =
        (Header.pc.bytes 0x44 0x00 0x3C ++ field 32 p.name ++ le16 0 ++ le16 0x0002) ++
          (field 16 (fileName q dat) ++ ([] ++ (QuestMapCache.le32 p.length ++ behind))) := by
      rw [pcQuestFile, hfile]
      simp only [List.append_assoc, List.nil_append]
    rw [hparts, qstDatSize_append _ rfl]
    rw [List.length_append, List.length_append, List.length_append, header_length,
      field_length hname]
    rfl

theorem announces_gc : Announces .gc gcQuestFile where
  length p hname hfile := by
    simp only [gcQuestFile, List.length_append, header_length, field_length hname,
      field_length hfile]
    rfl
  size q p hname hfile behind := by
    have hparts : gcQuestFile p ++ behind =
        (Header.dc.bytes 0x44 0x00 0x3C ++ field 32 p.name ++ le16 0 ++ le16 0x0002) ++
          (field 16 (fileName q dat) ++ ([] ++ (QuestMapCache.le32 p.length ++ behind))) := by
      rw [gcQuestFile, hfile]
      simp only [List.append_assoc, List.nil_append]
    rw [hparts, qstDatSize_append _ rfl]
    rw [List.length_append, List.length_append, List.length_append, header_length,
      field_length hname]
    rfl

theorem firstItems_interleave (datFile binFile : List UInt8) :
    firstItems (interleave 0x400 0 (some datFile) (some binFile)) = datFile := by
  have hfirst := filter_interleave 0x400 true 0 (some datFile) (some binFile)
  simp only [Bool.decide_eq_true] at hfirst
  rw [firstItems, hfirst, List.flatMap_map, List.flatMap_def]
  change (((chunks 0x400 datFile).zipIdx 0).map Prod.fst).flatten = datFile
  rw [List.zipIdx_map_fst, flatten_chunks]

theorem length_le_of_mem_interleave {datFile binFile : List UInt8} {c : Chunk UInt8}
    (hc : c ∈ interleave 0x400 0 (some datFile) (some binFile)) : c.items.length ≤ 0x400 := by
  have hfilter : c ∈ (interleave 0x400 0 (some datFile) (some binFile)).filter
      (fun d => d.first = c.first) := List.mem_filter.mpr ⟨hc, by simp⟩
  rw [filter_interleave] at hfilter
  obtain ⟨x, hx, heq⟩ := List.mem_map.mp hfilter
  have hmem := List.fst_mem_of_mem_zipIdx hx
  rw [← heq]
  cases hfirst : c.first with
  | true =>
    rw [hfirst] at hmem
    exact length_le_of_mem_chunks 0x400 hmem
  | false =>
    rw [hfirst] at hmem
    exact length_le_of_mem_chunks 0x400 hmem

theorem questChunks_length (h : Header) {cs : List (Chunk UInt8)}
    (hcs : ∀ c ∈ cs, c.items.length ≤ 0x400) :
    (cs.map fun c => questChunk h (chunkPacket q c)).flatten.length = 1048 * cs.length ∧
      (firstItems cs).length ≤ 1048 * cs.length := by
  induction cs with
  | nil => exact ⟨rfl, le_rfl⟩
  | cons c cs ih =>
    have hc := hcs c List.mem_cons_self
    obtain ⟨hlength, hfirst⟩ := ih fun d hd => hcs d (List.mem_cons_of_mem c hd)
    have hitems : (firstItems (c :: cs)).length ≤ c.items.length + (firstItems cs).length := by
      cases hside : c.first with
      | true => simp [firstItems, hside]
      | false => simp [firstItems, hside]
    rw [List.map_cons, List.flatten_cons, List.length_append, questChunk_length h hc, hlength,
      List.length_cons]
    omega

/-- The reader puts the .dat file together from the packets of a sender. -/
theorem sendQuestWith_read {header : Header} {fileBytes : FilePacket → List UInt8}
    {v : QstVersion} (hv : v.header = header) (hfile : Announces v fileBytes)
    {binFile datFile : List UInt8} {s : Sent}
    (hs : sendQuestWith header fileBytes (some q) (some binFile) (some datFile) = some s)
    (hdat : 0 < datFile.length) (hbytes : s.bytes.length < 2 ^ 32) {fuel : ℕ}
    (hfuel : s.chunks.length < fuel) : readQst v s.bytes fuel = some (some datFile) := by
  cases hs
  let cs := interleave 0x400 0 (some datFile) (some binFile)
  have hcs : ∀ c ∈ cs, c.items.length ≤ 0x400 := fun c hc => length_le_of_mem_interleave hc
  obtain ⟨hlength, hfirst⟩ := questChunks_length (q := q) header hcs
  let announce := fun ext (content : List UInt8) =>
    ({ name := questName q, filename := fileName q ext,
       length := BitVec.ofNat 32 content.length } : FilePacket)
  have hone : (fileBytes (announce dat datFile)).length = 60 :=
    hfile.length _ questName_length ((fileName_length dat rfl).trans (by decide))
  have htwo : (fileBytes (announce bin binFile)).length = 60 :=
    hfile.length _ questName_length ((fileName_length bin rfl).trans (by decide))
  have hbuf : Sent.bytes
      { header := header
        fileBytes := fileBytes
        files := [announce dat datFile, announce bin binFile]
        chunks := cs.map (chunkPacket q) } =
      fileBytes (announce dat datFile) ++ (fileBytes (announce bin binFile) ++
        (cs.map fun c => questChunk header (chunkPacket q c)).flatten) := by
    change fileBytes _ ++ (fileBytes _ ++
      ((cs.map (chunkPacket q)).map (questChunk header)).flatten) = _
    rw [List.map_map]
    rfl
  change (Sent.bytes _).length < 2 ^ 32 at hbytes
  change readQst v (Sent.bytes _) fuel = _
  rw [hbuf] at hbytes ⊢
  rw [List.length_append, List.length_append, hone, htwo, hlength] at hbytes
  have hsize : (firstItems cs).length = datFile.length :=
    congrArg List.length (firstItems_interleave datFile binFile)
  have hdsz : qstDatSize v (fileBytes (announce dat datFile) ++
      (fileBytes (announce bin binFile) ++
        (cs.map fun c => questChunk header (chunkPacket q c)).flatten)) =
      BitVec.ofNat 32 datFile.length := hfile.size q _ questName_length rfl _
  have hne : BitVec.ofNat 32 datFile.length ≠ 0 := by
    intro h
    have hzero := congrArg BitVec.toNat h
    rw [BitVec.toNat_ofNat, Nat.mod_eq_of_lt (by omega)] at hzero
    change datFile.length = 0 at hzero
    omega
  rw [readQst, if_neg (by rw [List.length_append, List.length_append]; omega)]
  dsimp only
  rw [hdsz, if_neg hne, hv]
  have hdrop : (fileBytes (announce dat datFile) ++ (fileBytes (announce bin binFile) ++
      (cs.map fun c => questChunk header (chunkPacket q c)).flatten)).drop
        (120 : BitVec 32).toNat =
      (cs.map fun c => questChunk header (chunkPacket q c)).flatten := by
    rw [← List.append_assoc]
    refine List.drop_left' ?_
    rw [List.length_append, hone, htwo]
    rfl
  have hfuel' : cs.length < fuel := by
    rw [← List.length_map (chunkPacket q)]
    exact hfuel
  have hshort : (fileBytes (announce dat datFile) ++ (fileBytes (announce bin binFile) ++
      (cs.map fun c => questChunk header (chunkPacket q c)).flatten)).length < 2 ^ 32 := by
    rw [List.length_append, List.length_append]
    omega
  have hsum : ([] : List UInt8).length + (firstItems cs).length = datFile.length :=
    (Nat.zero_add _).trans hsize
  rw [copyQstDat_chunks header hshort (by omega) hcs hfuel' hdrop hsum, List.nil_append]
  exact congrArg (fun items => some (some items)) (firstItems_interleave datFile binFile)

end Reader

theorem readQst_of_size {v : QstVersion} {buf : List UInt8} (h : qstDatSize v buf = 0)
    (fuel : ℕ) : readQst v buf fuel = some none := by
  rw [readQst, h]
  split_ifs <;> rfl

/-- Whatever a quest's files are, each sender delivers them, and what it sends is a file that the
reader gets the .dat file back from, if that is not empty and the offsets fit into 32 bits. -/
theorem questTransfer_delivers (k : QuestSender) (q : QuestTexts) (binFile datFile : List UInt8) :
    ∃ s, k.send (some q) (some binFile) (some datFile) = some s ∧ Delivers q binFile datFile s ∧
      (0 < datFile.length → s.bytes.length < 2 ^ 32 → ∀ fuel, s.chunks.length < fuel →
        readQst k.reader s.bytes fuel = some (some datFile)) := by
  cases k with
  | dcv1 | dcv2 =>
    obtain ⟨s, hs, hdelivers⟩ := sendQuestWith_delivers .dc dcQuestFile q binFile datFile
    exact ⟨s, hs, hdelivers, fun hdat hbytes _ hfuel =>
      sendQuestWith_read rfl announces_dc hs hdat hbytes hfuel⟩
  | pc =>
    obtain ⟨s, hs, hdelivers⟩ := sendQuestWith_delivers .pc pcQuestFile q binFile datFile
    exact ⟨s, hs, hdelivers, fun hdat hbytes _ hfuel =>
      sendQuestWith_read rfl announces_pc hs hdat hbytes hfuel⟩
  | gc =>
    obtain ⟨s, hs, hdelivers⟩ := sendQuestWith_delivers .dc gcQuestFile q binFile datFile
    exact ⟨s, hs, hdelivers, fun hdat hbytes _ hfuel =>
      sendQuestWith_read rfl announces_gc hs hdat hbytes hfuel⟩

def nameless : QuestTexts where
  name := []
  pfx := []

theorem questTransfer_delivers_one :
    ∃ s, QuestSender.gc.send (some nameless) (some [1]) (some [2, 3]) = some s ∧
      Delivers nameless [1] [2, 3] s ∧
      (0 < [2, 3].length → s.bytes.length < 2 ^ 32 → ∀ fuel, s.chunks.length < fuel →
        readQst .gc s.bytes fuel = some (some [2, 3])) :=
  questTransfer_delivers .gc nameless [1] [2, 3]

/-- A quest whose .dat file is empty is not read. -/
theorem questTransfer_not_read :
    ¬∀ (k : QuestSender) (q : QuestTexts) (binFile datFile : List UInt8),
      ∃ s, k.send (some q) (some binFile) (some datFile) = some s ∧
        ∃ fuel, readQst k.reader s.bytes fuel = some (some datFile) := by
  intro h
  obtain ⟨s, hs, fuel, hread⟩ := h .gc nameless [] []
  cases hs
  have hsize : qstDatSize .gc (gcQuestFile
      { name := questName nameless, filename := fileName nameless dat, length := 0 } ++
        (gcQuestFile
          { name := questName nameless, filename := fileName nameless bin, length := 0 } ++
          (((interleave 0x400 0 (some []) (some [])).map (chunkPacket nameless)).map
            (questChunk .dc)).flatten)) = 0 :=
    announces_gc.size nameless _ questName_length rfl _
  exact absurd ((readQst_of_size hsize fuel).symm.trans hread) (by simp)

end ShipServer.QuestTransfer
