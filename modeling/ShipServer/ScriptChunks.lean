import ShipServer.LabelledRuns
import ShipServer.ShipgatePayloads

set_option autoImplicit false

/-! The scripts that the shipgate hands out: what `handle_schunk` and `handle_sset` do with the
files and the scripts of the ship, and what the gate is told of them. -/

namespace ShipServer.ScriptChunks

open LabelledRuns
open ShipgatePayloads (Buffer word)

abbrev Byte := BitVec 8

abbrev Path := List Byte

/-- What is at a path. -/
inductive Node where
  | file (content : List Byte)
  | directory
  deriving DecidableEq

/-- The calls of `script_add`, `script_remove` and `script_update_module`, with what is at the path
of the script or module then. -/
inductive Call where
  | add (action : ℤ) (filename : List Byte) (content : Option Node)
  | remove (action : ℤ)
  | updateModule (filename : List Byte) (content : Option Node)
  deriving DecidableEq

/-- The ship: whether it has `LOGIN_FLAG_LUA`, its files, those that are never closed, and its calls
of the scripting functions. -/
structure Ship where
  lua : Bool
  disk : Path → Option Node
  left : ℕ
  calls : List Call

/-- What the system answers while a packet is handled: whether there is a send buffer, memory, and
a file to read or to write, how many bytes `fread` and `fwrite` take, how many of these are in the
file once it is closed, whether the reply can be sent, and what `script_add` returns. -/
structure System where
  sendbuf : Bool
  malloc : Bool
  readable : Bool
  writable : Bool
  reads : ℕ
  accepts : ℕ
  keeps : ℕ
  sends : Bool
  added : ℤ

/-- `shipgate_schunk_err_pkt`, without its constant fields. -/
structure Reply where
  flags : BitVec 16
  errorCode : BitVec 32
  type : Byte
  filename : List Byte
  deriving DecidableEq

/-- A string in an array of 32 characters. -/
def filename (m : Buffer) (off : ℕ) : List Byte :=
  ((List.range 32).map fun i => m (off + i)).takeWhile fun b => b ≠ 0

def scriptsDir : Path :=
  [0x73, 0x63, 0x72, 0x69, 0x70, 0x74, 0x73, 0x2F]

def modulesDir : Path :=
  scriptsDir ++ [0x6D, 0x6F, 0x64, 0x75, 0x6C, 0x65, 0x73, 0x2F]

/-- The path of a script or of a module, in a buffer of 64 characters. -/
def path (script : Bool) (filename : List Byte) : Path :=
  ((if script then scriptsDir else modulesDir) ++ filename).take 63

/-- The test for evil filenames. -/
def evil (filename : List Byte) : Bool :=
  filename.head? = some 0x2E || filename.contains 0x2F || filename.contains 0x5C

section Packet

variable (m : Buffer)

def chunkLength : ℕ :=
  (word m 12).toNat

def chunkCrc : BitVec 32 :=
  word m 16

/-- `script_action_t` has a negative value, so it is signed. -/
def action : ℤ :=
  (word m 20).toInt

def chtype : Byte :=
  m 8 &&& 0x7F

def isCheck : Bool :=
  m 8 &&& 0x80 ≠ 0

/-- The packet is not checked to have as many bytes. -/
def chunk : List Byte :=
  (List.range (chunkLength m)).map fun i => m (56 + i)

def isScript : Bool :=
  chtype m = 1

end Packet

/-- The end of both branches of `handle_schunk`, and its request for a script. -/
def respond (w : System) (m : Buffer) (flags : BitVec 16) (errorCode : BitVec 32) :
    Option Reply × ℤ :=
  if w.sendbuf = false then (none, -1)
  else if w.sends then
    (some ⟨flags, errorCode, chtype m, (List.range 32).map fun i => m (24 + i)⟩, 0)
  else (none, -1)

/-- `SHDR_RESPONSE`, and with it `SHDR_FAILURE` and `ERR_SCHUNK_NEED_SCRIPT`. -/
def acknowledge (w : System) (m : Buffer) : Option Reply × ℤ :=
  respond w m 0x8000 0

def request (w : System) (m : Buffer) : Option Reply × ℤ :=
  respond w m 0xC000 1

/-- A script is added if it has an action, a module is updated. -/
def load (s : Ship) (m : Buffer) : Ship :=
  let fn := filename m 24
  if word m 20 ≠ 0 ∧ isScript m then
    { s with calls := s.calls ++ [.add (action m) fn (s.disk (path true fn))] }
  else if chtype m = 2 then
    { s with calls := s.calls ++ [.updateModule fn (s.disk (path false fn))] }
  else s

def Ship.write (s : Ship) (fn : Path) (content : List Byte) : Ship :=
  { s with disk := Function.update s.disk fn (some (.file content)) }

theorem Ship.write_self (s : Ship) (fn : Path) (content : List Byte) :
    (s.write fn content).disk fn = some (.file content) :=
  Function.update_self fn _ s.disk

theorem Ship.write_of_ne (s : Ship) {fn fn' : Path} (h : fn' ≠ fn) (content : List Byte) :
    (s.write fn content).disk fn' = s.disk fn' :=
  Function.update_of_ne h _ s.disk

section Handlers

variable (crc32 : List Byte → BitVec 32)

/-- A check packet. A file of another length is not closed. -/
def checkFile (w : System) (s : Ship) (m : Buffer) : Ship × Option Reply × ℤ :=
  match if w.readable then s.disk (path (isScript m) (filename m 24)) else none with
  | none => (s, request w m)
  | some .directory => ({ s with left := s.left + 1 }, request w m)
  | some (.file buf) =>
    if buf.length ≠ chunkLength m then ({ s with left := s.left + 1 }, request w m)
    else if w.malloc = false then (s, none, -1)
    else if w.reads < chunkLength m then (s, none, -1)
    else if crc32 buf = chunkCrc m then (load s m, acknowledge w m)
    else (s, request w m)

/-- A chunk packet. -/
def saveFile (w : System) (s : Ship) (m : Buffer) : Ship × Option Reply × ℤ :=
  let fn := path (isScript m) (filename m 24)
  if crc32 (chunk m) ≠ chunkCrc m then (s, none, 0)
  else if w.writable = false ∨ s.disk fn = some .directory then (s, none, 0)
  else
    let s := s.write fn ((chunk m).take (min w.accepts w.keeps))
    if w.accepts < chunkLength m then (s, none, 0)
    else (load s m, acknowledge w m)

def handleSchunk (w : System) (s : Ship) (m : Buffer) : Ship × Option Reply × ℤ :=
  if s.lua = false then (s, none, 0)
  else if 32768 < chunkLength m then (s, none, -1)
  else if m 55 ≠ 0 ∨ 2 < chtype m then (s, none, -1)
  else if evil (filename m 24) then (s, none, -1)
  else if 24 ≤ action m then (s, none, -1)
  else if isCheck m then checkFile crc32 w s m
  else saveFile crc32 w s m

end Handlers

/-- The action as `handle_sset` reads it, without `ntohl`. -/
def rawAction (m : Buffer) : BitVec 32 :=
  m 11 ++ m 10 ++ m 9 ++ m 8

def handleSset (w : System) (s : Ship) (m : Buffer) : Ship × ℤ :=
  let fn := filename m 16
  let action : ℤ := (rawAction m).toNat
  if 24 ≤ action then (s, -1)
  else if m 47 ≠ 0 then (s, -1)
  else if evil fn then (s, -1)
  else if fn ≠ [] then
    ({ s with calls := s.calls ++ [.add action fn (s.disk (path true fn))] }, w.added)
  else ({ s with calls := s.calls ++ [.remove action] }, 0)

/-- A packet of the gate. -/
inductive Event where
  | schunk (w : System) (m : Buffer)
  | sset (w : System) (m : Buffer)

/-- The ship, and the lengths and checksums of the files that the gate has been told are there. -/
structure Distribution where
  ship : Ship
  told : Bool × List Byte → Option (ℕ × BitVec 32)

/-- What the gate makes of the reply to a packet, or of none. A chunk that is not acknowledged has
left it uncertain. -/
def hear (told : Bool × List Byte → Option (ℕ × BitVec 32)) (m : Buffer) :
    Option Reply → Bool × List Byte → Option (ℕ × BitVec 32)
  | some r =>
    Function.update told (isScript m, filename m 24)
      (if r.flags = 0x8000 then some (chunkLength m, chunkCrc m) else none)
  | none => if isCheck m then told else Function.update told (isScript m, filename m 24) none

def next (crc32 : List Byte → BitVec 32) (s : Distribution) : Event → Distribution
  | .schunk w m =>
    let r := handleSchunk crc32 w s.ship m
    ⟨r.1, hear s.told m r.2.1⟩
  | .sset w m => ⟨(handleSset w s.ship m).1, s.told⟩

section Names

variable {fn fn' : List Byte}

/-- A name that leads nowhere but into the directory that it is used in. -/
structure Plain (fn : List Byte) : Prop where
  dotless : fn.head? ≠ some 0x2E
  noSlash : 0x2F ∉ fn
  noBackslash : 0x5C ∉ fn
  noEnd : 0 ∉ fn
  short : fn.length ≤ 31

theorem filename_noEnd (m : Buffer) (off : ℕ) : 0 ∉ filename m off := by
  intro h
  have hne := List.mem_takeWhile_imp h
  simp at hne

theorem length_filename {m : Buffer} {off : ℕ} (h : m (off + 31) = 0) :
    (filename m off).length ≤ 31 := by
  by_contra hlong
  let l := (List.range 32).map fun i => m (off + i)
  have hpre : filename m off <+: l := List.takeWhile_prefix _
  have hlen : l.length = 32 := by rw [List.length_map, List.length_range]
  have hall : filename m off = l := hpre.eq_of_length (by have := hpre.length_le; omega)
  refine filename_noEnd m off ?_
  rw [hall, ← h]
  exact List.mem_map_of_mem (List.mem_range.2 (by decide))

theorem plain_of_not_evil {m : Buffer} {off : ℕ} (hend : m (off + 31) = 0)
    (h : ¬evil (filename m off) = true) : Plain (filename m off) := by
  rw [evil, Bool.or_eq_true, Bool.or_eq_true, decide_eq_true_eq, List.contains_iff_mem,
    List.contains_iff_mem, not_or, not_or] at h
  exact ⟨h.1.1, h.1.2, h.2, filename_noEnd m off, length_filename hend⟩

theorem path_eq (script : Bool) (h : Plain fn) :
    path script fn = (if script then scriptsDir else modulesDir) ++ fn := by
  refine List.take_of_length_le ?_
  have hshort := h.short
  rw [List.length_append]
  cases script
  · have : modulesDir.length = 16 := rfl
    simp only [Bool.false_eq_true, if_false]
    omega
  · have : scriptsDir.length = 8 := rfl
    simp only [if_true]
    omega

/-- Scripts and modules do not get into each other's way. -/
theorem path_injective {script script' : Bool} (h : Plain fn) (h' : Plain fn')
    (heq : path script fn = path script' fn') : (script, fn) = (script', fn') := by
  rw [path_eq script h, path_eq script' h'] at heq
  have hsub : (0x2F : Byte) ∈ [0x6D, 0x6F, 0x64, 0x75, 0x6C, 0x65, 0x73, (0x2F : Byte)] := by decide
  cases script <;> cases script' <;>
    simp only [Bool.false_eq_true, if_false, if_true, modulesDir, List.append_assoc,
      List.append_cancel_left_eq] at heq
  · rw [heq]
  · exact absurd (heq ▸ List.mem_append_left fn hsub) h'.noSlash
  · exact absurd (heq ▸ List.mem_append_left fn' hsub) h.noSlash
  · rw [heq]

end Names

section Runs

variable {crc32 : List Byte → BitVec 32} {w : System} {s : Ship} {m : Buffer}

/-- What `handle_schunk` can do: refuse a packet, ask for a file, find that it has the file, leave a
part of the file, or save it. -/
inductive Outcome (crc32 : List Byte → BitVec 32) (w : System) (s : Ship) (m : Buffer) :
    Ship × Option Reply × ℤ → Prop where
  | refused (rv : ℤ) : Outcome crc32 w s m (s, none, rv)
  | asked (left : ℕ) (check : isCheck m = true) :
      Outcome crc32 w s m ({ s with left := left }, request w m)
  | found (buf : List Byte) (plain : Plain (filename m 24)) (index : action m < 24)
      (there : s.disk (path (isScript m) (filename m 24)) = some (.file buf))
      (len : buf.length = chunkLength m) (crc : crc32 buf = chunkCrc m) (check : isCheck m = true) :
      Outcome crc32 w s m (load s m, acknowledge w m)
  | torn (content : List Byte) (plain : Plain (filename m 24)) (save : isCheck m = false) :
      Outcome crc32 w s m (s.write (path (isScript m) (filename m 24)) content, none, 0)
  | saved (plain : Plain (filename m 24)) (index : action m < 24)
      (taken : chunkLength m ≤ w.accepts) (crc : crc32 (chunk m) = chunkCrc m)
      (save : isCheck m = false) :
      Outcome crc32 w s m (load (s.write (path (isScript m) (filename m 24))
        ((chunk m).take (min w.accepts w.keeps))) m, acknowledge w m)

theorem checkFile_outcome (hplain : Plain (filename m 24)) (hindex : action m < 24)
    (hcheck : isCheck m = true) : Outcome crc32 w s m (checkFile crc32 w s m) := by
  unfold checkFile
  split
  next => exact .asked s.left hcheck
  next => exact .asked (s.left + 1) hcheck
  next buf hbuf =>
    have hthere : s.disk (path (isScript m) (filename m 24)) = some (.file buf) := by
      split at hbuf
      · exact hbuf
      · cases hbuf
    split_ifs with hlen _ _ hcrc
    · exact .asked (s.left + 1) hcheck
    · exact .refused (-1)
    · exact .refused (-1)
    · exact .found buf hplain hindex hthere (not_not.1 hlen) hcrc hcheck
    · exact .asked s.left hcheck

theorem saveFile_outcome (hplain : Plain (filename m 24)) (hindex : action m < 24)
    (hsave : isCheck m = false) : Outcome crc32 w s m (saveFile crc32 w s m) := by
  unfold saveFile
  dsimp only
  split_ifs with hcrc _ htaken
  · exact .refused 0
  · exact .refused 0
  · exact .torn _ hplain hsave
  · exact .saved hplain hindex (not_lt.1 htaken) (not_not.1 hcrc) hsave

theorem handleSchunk_outcome (crc32 : List Byte → BitVec 32) (w : System) (s : Ship) (m : Buffer) :
    Outcome crc32 w s m (handleSchunk crc32 w s m) := by
  unfold handleSchunk
  split_ifs with _ _ hsane hevil hindex hcheck
  · exact .refused 0
  · exact .refused (-1)
  · exact .refused (-1)
  · exact .refused (-1)
  · exact .refused (-1)
  · exact checkFile_outcome (plain_of_not_evil (not_not.1 fun h => hsane (.inl h)) hevil)
      (not_le.1 hindex) hcheck
  · exact saveFile_outcome (plain_of_not_evil (not_not.1 fun h => hsane (.inl h)) hevil)
      (not_le.1 hindex) (eq_false_of_ne_true hcheck)

@[simp]
theorem load_disk (s : Ship) (m : Buffer) : (load s m).disk = s.disk := by
  unfold load
  dsimp only
  split_ifs <;> rfl

theorem length_chunk (m : Buffer) : (chunk m).length = chunkLength m := by
  rw [chunk, List.length_map, List.length_range]

theorem request_flags {r : Reply} (h : (request w m).1 = some r) : r.flags = 0xC000 := by
  unfold request respond at h
  split_ifs at h
  all_goals cases h
  rfl

/-- What the gate is left with after a packet is what the packet says, if it is acknowledged, or
something it has been told before, which is not about the file of a chunk. -/
theorem hear_some {told : Bool × List Byte → Option (ℕ × BitVec 32)} {answer : Option Reply}
    {k : Bool × List Byte} {v : ℕ × BitVec 32} (h : hear told m answer k = some v) :
    (∃ r, answer = some r ∧ r.flags = 0x8000 ∧ k = (isScript m, filename m 24) ∧
      v = (chunkLength m, chunkCrc m)) ∨
    (told k = some v ∧ (isCheck m = false → k ≠ (isScript m, filename m 24))) := by
  cases answer with
  | none =>
    refine .inr ?_
    rw [hear] at h
    split at h
    next hcheck => exact ⟨h, fun hsave => absurd (hcheck.symm.trans hsave) (by decide)⟩
    next =>
      by_cases hk : k = (isScript m, filename m 24)
      · rw [hk, Function.update_self] at h
        cases h
      · exact ⟨by rwa [Function.update_of_ne hk] at h, fun _ => hk⟩
  | some r =>
    rw [hear] at h
    by_cases hk : k = (isScript m, filename m 24)
    · rw [hk, Function.update_self] at h
      split at h
      next hflags =>
        cases h
        exact .inl ⟨r, rfl, hflags, hk, rfl⟩
      next => cases h
    · exact .inr ⟨by rwa [Function.update_of_ne hk] at h, fun _ => hk⟩

/-- No part of a chunk that `fwrite` has taken whole is lost when the file is closed. -/
def Closes (_ : Distribution) : Event → Prop
  | .schunk w m => chunkLength m ≤ w.accepts → chunkLength m ≤ w.keeps
  | .sset _ _ => True

theorem take_chunk (htaken : chunkLength m ≤ w.accepts) (hkeeps : chunkLength m ≤ w.keeps) :
    (chunk m).take (min w.accepts w.keeps) = chunk m :=
  List.take_of_length_le (by rw [length_chunk]; exact le_min htaken hkeeps)

/-- At the path is a file with a length and a checksum. -/
def Stored (crc32 : List Byte → BitVec 32) (n : Option Node) (v : ℕ × BitVec 32) : Prop :=
  ∃ buf, n = some (.file buf) ∧ buf.length = v.1 ∧ crc32 buf = v.2

/-- What the gate has been told is so. -/
def Truthful (crc32 : List Byte → BitVec 32) (s : Distribution) : Prop :=
  ∀ script fn v, s.told (script, fn) = some v →
    Plain fn ∧ Stored crc32 (s.ship.disk (path script fn)) v

theorem next_truthful {s : Distribution} {e : Event} (h : Truthful crc32 s) (he : Closes s e) :
    Truthful crc32 (next crc32 s e) := by
  cases e with
  | sset w m =>
    have hdisk : (handleSset w s.ship m).1.disk = s.ship.disk := by
      unfold handleSset
      dsimp only
      split_ifs <;> rfl
    intro script fn v hv
    rw [next, hdisk]
    exact h script fn v hv
  | schunk w m =>
    have hstep := handleSchunk_outcome crc32 w s.ship m
    rw [next]
    generalize handleSchunk crc32 w s.ship m = r at hstep ⊢
    intro script fn v hv
    rcases hear_some hv with ⟨r', hr', hflags, hk, rfl⟩ | ⟨hv, hother⟩
    · obtain ⟨rfl, rfl⟩ := Prod.mk.inj hk
      cases hstep with
      | refused rv => cases hr'
      | asked left check =>
        rw [request_flags hr'] at hflags
        exact absurd hflags (by decide)
      | found buf plain index there len crc check =>
        rw [load_disk]
        exact ⟨plain, buf, there, len, crc⟩
      | torn content plain save => cases hr'
      | saved plain index taken crc save =>
        rw [load_disk, take_chunk taken (he taken), Ship.write_self]
        exact ⟨plain, chunk m, rfl, length_chunk m, crc⟩
    · obtain ⟨hplain, hstored⟩ := h script fn v hv
      refine ⟨hplain, ?_⟩
      have hwrite : isCheck m = false → Plain (filename m 24) → ∀ content,
          Stored crc32 ((s.ship.write (path (isScript m) (filename m 24)) content).disk
            (path script fn)) v := by
        intro hsave hname content
        rw [Ship.write_of_ne _ fun heq => hother hsave (path_injective hplain hname heq)]
        exact hstored
      cases hstep with
      | refused rv => exact hstored
      | asked left check => exact hstored
      | found buf plain index there len crc check =>
        rw [load_disk]
        exact hstored
      | torn content plain save => exact hwrite save plain content
      | saved plain index taken crc save =>
        rw [load_disk]
        exact hwrite save plain _

/-- The paths of files and modules. -/
def Ours (p : Path) : Prop :=
  ∃ script fn, Plain fn ∧ p = path script fn

theorem next_disk {s : Distribution} {e : Event} {p : Path} (hp : ¬Ours p) :
    (next crc32 s e).ship.disk p = s.ship.disk p := by
  cases e with
  | sset w m =>
    rw [next]
    unfold handleSset
    dsimp only
    split_ifs <;> rfl
  | schunk w m =>
    have hstep := handleSchunk_outcome crc32 w s.ship m
    rw [next]
    generalize handleSchunk crc32 w s.ship m = r at hstep ⊢
    have hwrite : Plain (filename m 24) → ∀ content,
        (s.ship.write (path (isScript m) (filename m 24)) content).disk p = s.ship.disk p :=
      fun hname content => Ship.write_of_ne _ (fun heq => hp ⟨_, _, hname, heq⟩) content
    cases hstep with
    | refused rv => rfl
    | asked left check => rfl
    | found buf plain index there len crc check => exact congrFun (load_disk _ m) p
    | torn content plain save => exact hwrite plain content
    | saved plain index taken crc save =>
      rw [load_disk]
      exact hwrite plain _

/-- A packet about the script `a` that consists of one character. Its action is 2, with another
first byte. -/
def scriptPacket (type sign : Byte) : Buffer :=
  fun i => (List.replicate 8 0 ++ [type, 0, 0, 0, 0, 0, 0, 1, 0xF4, 0xDB, 0xDF, 0x21, sign, 0, 0,
    2, 0x61] ++ List.replicate 31 0 ++ [0x30]).getD i 0

/-- A system where everything works. -/
def working : System :=
  ⟨true, true, true, true, 32768, 32768, 32768, true, 0⟩

/-- A check of a script that is not there, and the script. -/
def twoPackets : List Event :=
  [.schunk working (scriptPacket 0x81 0), .schunk working (scriptPacket 0x01 0)]

theorem twoPackets_closes (s : Distribution) {e : Event} (he : e ∈ twoPackets) : Closes s e := by
  rw [twoPackets, List.mem_cons, List.mem_singleton] at he
  rcases he with rfl | rfl <;> exact fun h => h

def emptyShip : Distribution :=
  ⟨⟨true, fun _ => none, 0, []⟩, fun _ => none⟩

/-- What a packet can make the ship call. -/
def Loads (crc32 : List Byte → BitVec 32) : Event → Call → Prop
  | .schunk _ m, .add index fn content =>
    index = action m ∧ index ≠ 0 ∧ index < 24 ∧ isScript m = true ∧ fn = filename m 24 ∧ Plain fn ∧
      Stored crc32 content (chunkLength m, chunkCrc m)
  | .schunk _ m, .updateModule fn content =>
    chtype m = 2 ∧ fn = filename m 24 ∧ Plain fn ∧
      Stored crc32 content (chunkLength m, chunkCrc m)
  | .schunk _ _, .remove _ => False
  | .sset _ m, .add index fn _ =>
    index = (rawAction m).toNat ∧ index < 24 ∧ fn = filename m 16 ∧ fn ≠ [] ∧ Plain fn
  | .sset _ m, .remove index => index = (rawAction m).toNat ∧ index < 24 ∧ filename m 16 = []
  | .sset _ _, .updateModule _ _ => False

/-- Loading adds a call for the file that is there. -/
theorem load_calls (hplain : Plain (filename m 24)) (hindex : action m < 24)
    (hstored : Stored crc32 (s.disk (path (isScript m) (filename m 24)))
      (chunkLength m, chunkCrc m)) {c : Call} (hc : c ∈ (load s m).calls) :
    c ∈ s.calls ∨ Loads crc32 (.schunk w m) c := by
  unfold load at hc
  dsimp only at hc
  split_ifs at hc with hscript hmodule
  · rcases List.mem_append.1 hc with hc | hc
    · exact .inl hc
    · rw [List.mem_singleton.1 hc]
      rw [hscript.2] at hstored
      refine .inr ⟨rfl, fun h => hscript.1 ?_, hindex, hscript.2, rfl, hplain, hstored⟩
      exact BitVec.eq_of_toInt_eq h
  · rcases List.mem_append.1 hc with hc | hc
    · exact .inl hc
    · have hnot : isScript m = false := by
        rw [isScript, hmodule]
        rfl
      rw [List.mem_singleton.1 hc]
      rw [hnot] at hstored
      exact .inr ⟨hmodule, rfl, hplain, hstored⟩
  · exact .inl hc

theorem next_calls {s : Distribution} {e : Event} (he : Closes s e) {c : Call}
    (hc : c ∈ (next crc32 s e).ship.calls) : c ∈ s.ship.calls ∨ Loads crc32 e c := by
  cases e with
  | schunk w m =>
    have hstep := handleSchunk_outcome crc32 w s.ship m
    rw [next] at hc
    generalize handleSchunk crc32 w s.ship m = r at hstep hc
    cases hstep with
    | refused rv => exact .inl hc
    | asked left check => exact .inl hc
    | found buf plain index there len crc check =>
      exact load_calls plain index ⟨buf, there, len, crc⟩ hc
    | torn content plain save => exact .inl hc
    | saved plain index taken crc save =>
      rw [take_chunk taken (he taken)] at hc
      exact load_calls plain index
        ⟨chunk m, s.ship.write_self _ _, length_chunk m, crc⟩ hc
  | sset w m =>
    rw [next] at hc
    unfold handleSset at hc
    dsimp only at hc
    split_ifs at hc with hindex hend hevil hname
    · exact .inl hc
    · exact .inl hc
    · exact .inl hc
    · rcases List.mem_append.1 hc with hc | hc
      · exact .inl hc
      · rw [List.mem_singleton.1 hc]
        exact .inr ⟨rfl, not_le.1 hindex, rfl, hname, plain_of_not_evil (not_not.1 hend) hevil⟩
    · rcases List.mem_append.1 hc with hc | hc
      · exact .inl hc
      · rw [List.mem_singleton.1 hc]
        exact .inr ⟨rfl, not_le.1 hindex, not_not.1 hname⟩

/-- The index of a call is one of `script_ids_gate`. -/
def Call.InTable : Call → Prop
  | .add index _ _ => 0 ≤ index ∧ index < 24
  | .remove index => 0 ≤ index ∧ index < 24
  | .updateModule _ _ => True

/-- A script that is saved, whatever its action is. -/
structure Saved (crc32 : List Byte → BitVec 32) (w : System) (s : Ship) (m : Buffer) : Prop where
  lua : s.lua = true
  length : chunkLength m ≤ 32768
  ended : m 55 = 0
  script : isScript m = true
  harmless : evil (filename m 24) = false
  save : isCheck m = false
  crc : crc32 (chunk m) = chunkCrc m
  opened : w.writable = true ∧ s.disk (path true (filename m 24)) ≠ some .directory
  taken : chunkLength m ≤ w.accepts

theorem chtype_of_isScript (h : isScript m = true) : chtype m = 1 :=
  of_decide_eq_true h

theorem handleSchunk_saved (h : Saved crc32 w s m) (hindex : action m < 0) :
    ∃ content, .add (action m) (filename m 24) content ∈ (handleSchunk crc32 w s m).1.calls := by
  have hsane : ¬(m 55 ≠ 0 ∨ 2 < chtype m) := by
    rw [chtype_of_isScript h.script, not_or, not_not]
    exact ⟨h.ended, by decide⟩
  have hopened : ¬(w.writable = false ∨ s.disk (path (isScript m) (filename m 24)) =
      some .directory) := by
    rw [h.script, h.opened.1]
    exact fun hor => hor.elim (by decide) h.opened.2
  have haction : word m 20 ≠ 0 := by
    intro h0
    rw [action, h0] at hindex
    exact absurd hindex (by decide)
  unfold handleSchunk saveFile
  dsimp only
  rw [if_neg (by rw [h.lua]; decide), if_neg (not_lt.2 h.length), if_neg hsane,
    if_neg (by rw [h.harmless]; decide), if_neg (by omega), if_neg (by rw [h.save]; decide),
    if_neg (not_not.2 h.crc), if_neg hopened, if_neg (not_lt.2 h.taken)]
  unfold load
  dsimp only
  rw [if_pos ⟨haction, h.script⟩]
  exact ⟨_, List.mem_append_right _ List.mem_cons_self⟩

theorem toNat_append_byte {n : ℕ} (a : BitVec n) (b : Byte) :
    (a ++ b).toNat = a.toNat * 256 + b.toNat := by
  rw [BitVec.toNat_append, ← Nat.shiftLeft_add_eq_or_of_lt b.isLt, Nat.shiftLeft_eq]

/-- A packet for an event that there is, other than the first one. -/
def Real : Event → Prop
  | .schunk _ _ => True
  | .sset _ m => word m 8 ≠ 0 ∧ (word m 8).toNat < 24

theorem rawAction_large (h0 : word m 8 ≠ 0) (h : (word m 8).toNat < 24) :
    24 ≤ (rawAction m).toNat := by
  have hpos : (word m 8).toNat ≠ 0 := fun h => h0 (BitVec.eq_of_toNat_eq h)
  unfold word at hpos h
  unfold rawAction
  simp only [toNat_append_byte, Nat.reduceAdd] at hpos h ⊢
  have hlast : 0 < (m 11).toNat := by omega
  omega

theorem handleSset_refused (w : System) (s : Ship) (h : Real (.sset w m)) :
    handleSset w s m = (s, -1) := by
  have hlarge : (24 : ℤ) ≤ (rawAction m).toNat := by
    exact_mod_cast rawAction_large h.1 h.2
  unfold handleSset
  dsimp only
  rw [if_pos hlarge]

def Event.isSchunk : Event → Bool
  | .schunk _ _ => true
  | .sset _ _ => false

end Runs

end ShipServer.ScriptChunks
