import ShipServer.ByteStreams
import ShipServer.LabelledRuns

set_option autoImplicit false

namespace ShipServer.SendBuffer

open ByteStreams LabelledRuns

variable {σ : Type*}

/-- What a client connection is encrypted with. -/
structure Cipher (σ : Type*) where
  crypt : σ → List UInt8 → σ × List UInt8
  hdrSize : ℕ

/-- The result of one call of `send`. -/
inductive Sent where
  | count (n : ℕ)
  | again
  | error

/-- The sending side of a client. The three indices are of type `int`; `socket` is what has been
handed to the socket. -/
structure Outgoing (σ : Type*) where
  skey : σ
  sendbuf : List UInt8
  sendbufCur : ℤ
  sendbufSize : ℤ
  sendbufStart : ℤ
  socket : List UInt8

/-- The conversion to `int`. -/
def toInt (n : ℤ) : ℤ :=
  Int.bmod n (2 ^ 32)

def intMax : ℤ :=
  2 ^ 31 - 1

/-- A copy of some bytes out of a block of memory. -/
def readFrom (mem : List UInt8) (i n : ℕ) : List UInt8 :=
  (mem.drop i).take n

/-- A copy of some bytes into a block of memory. -/
def writeAt (mem : List UInt8) (i : ℕ) (bytes : List UInt8) : List UInt8 :=
  mem.take i ++ bytes ++ mem.drop (i + bytes.length)

/-- `realloc`: nothing reads the new bytes before they are written, and they are zero here. -/
def resize (mem : List UInt8) (n : ℕ) : List UInt8 :=
  (mem ++ List.replicate n 0).take n

/-- The bytes from `sendbuf_start` to `sendbuf_cur`. -/
def Outgoing.pending (c : Outgoing σ) : List UInt8 :=
  readFrom c.sendbuf c.sendbufStart.toNat (c.sendbufCur - c.sendbufStart).toNat

def Outgoing.start (key : σ) : Outgoing σ :=
  { skey := key, sendbuf := [], sendbufCur := 0, sendbufSize := 0, sendbufStart := 0
    socket := [] }

/-- The loop of `send_raw`: how much has been sent, and whether a call has failed. -/
def sendLoop (len : ℕ) : List Sent → ℕ → ℕ × Bool
  | [], total => (total, false)
  | r :: rs, total =>
    if len ≤ total then (total, false)
    else
      match r with
      | .count n => sendLoop len rs (total + min n (len - total))
      | .again => (total, false)
      | .error => (total, true)

/-- The data already transferred is moved out. -/
def compact (c : Outgoing σ) : Outgoing σ :=
  if c.sendbufStart = 0 then c
  else
    { c with
      sendbuf := writeAt c.sendbuf 0 c.pending
      sendbufCur := c.sendbufCur - c.sendbufStart
      sendbufStart := 0 }

/-- The buffer is reallocated if it is too small. -/
def enlarge (c : Outgoing σ) (allocated : Bool) (need : ℤ) : Option (Outgoing σ) :=
  if c.sendbufSize < need then
    if allocated then
      some { c with sendbuf := resize c.sendbuf need.toNat, sendbufSize := toInt need }
    else none
  else some c

/-- The end of `send_raw`: what is left of the packet goes into the output buffer. -/
def storeRest (c : Outgoing σ) (allocated : Bool) (rest : List UInt8) : Outgoing σ × ℤ :=
  if rest = [] then (c, 0)
  else
    let c := compact c
    match enlarge c allocated (c.sendbufCur + rest.length) with
    | none => (c, -1)
    | some c =>
      ({ c with
          sendbuf := writeAt c.sendbuf c.sendbufCur.toNat rest
          sendbufCur := toInt (c.sendbufCur + rest.length) }, 0)

def sendRaw (c : Outgoing σ) (sends : List Sent) (allocated : Bool) (bytes : List UInt8) :
    Outgoing σ × ℤ :=
  let sent := if c.sendbufCur = 0 then sendLoop bytes.length sends 0 else (0, false)
  let c := { c with socket := c.socket ++ bytes.take sent.1 }
  if sent.2 then (c, -1) else storeRest c allocated (bytes.drop sent.1)

/-- The packet is filled up to a multiple of the header size, which is a power of two. -/
def pad (hsz : ℕ) : ℕ → List UInt8 → List UInt8
  | 0, bytes => bytes
  | n + 1, bytes => if bytes.length &&& (hsz - 1) = 0 then bytes else pad hsz n (bytes ++ [0])

/-- The packet as `crypt_send` encrypts it. -/
def encrypted (k : Cipher σ) (key : σ) (bytes : List UInt8) : σ × List UInt8 :=
  k.crypt key (pad k.hdrSize k.hdrSize bytes)

def cryptSend (k : Cipher σ) (c : Outgoing σ) (sends : List Sent) (allocated : Bool)
    (bytes : List UInt8) : Outgoing σ × ℤ :=
  let (key, bytes) := encrypted k c.skey bytes
  sendRaw { c with skey := key } sends allocated bytes

/-- A buffer that has been sent is freed. -/
def freeSent (c : Outgoing σ) : Outgoing σ :=
  if c.sendbufStart = c.sendbufCur then
    { c with sendbuf := [], sendbufCur := 0, sendbufSize := 0, sendbufStart := 0 }
  else c

/-- The server's loop finds that the socket can be written to. -/
def writeReady (c : Outgoing σ) (r : Sent) : Outgoing σ :=
  if c.sendbufCur = 0 then c
  else
    match r with
    | .count n =>
      let sent := min n (c.sendbufCur - c.sendbufStart).toNat
      freeSent
        { c with
          socket := c.socket ++ c.pending.take sent
          sendbufStart := c.sendbufStart + sent }
    | .again | .error => c

inductive Event where
  | cryptSend (bytes : List UInt8) (sends : List Sent) (allocated : Bool)
  | writeReady (r : Sent)

/-- A connection with, on record, the encrypted packets in the order of the calls. -/
structure Traffic (σ : Type*) where
  out : Outgoing σ
  accepted : List UInt8

def Traffic.start (key : σ) : Traffic σ :=
  { out := .start key, accepted := [] }

def next (k : Cipher σ) (t : Traffic σ) : Event → Traffic σ
  | .cryptSend bytes sends allocated =>
    { out := (cryptSend k t.out sends allocated bytes).1
      accepted := t.accepted ++ (encrypted k t.out.skey bytes).2 }
  | .writeReady r => { t with out := writeReady t.out r }

/-- No call fails: `send` takes a part of what it is given or says `EAGAIN`, and memory is there. -/
def Succeeds : Event → Prop
  | .cryptSend _ sends allocated => .error ∉ sends ∧ allocated = true
  | .writeReady _ => True

/-- With a new packet no more is pending than an `int` can tell. -/
def Bounded (k : Cipher σ) (t : Traffic σ) : Event → Prop
  | .cryptSend bytes _ _ =>
    (t.out.pending.length : ℤ) + (encrypted k t.out.skey bytes).2.length ≤ intMax
  | .writeReady _ => True

instance (k : Cipher σ) (t : Traffic σ) : (e : Event) → Decidable (Bounded k t e)
  | .cryptSend _ _ _ => inferInstanceAs (Decidable (_ ≤ _))
  | .writeReady _ => inferInstanceAs (Decidable True)

def Fits (k : Cipher σ) (t : Traffic σ) (e : Event) : Prop :=
  Succeeds e ∧ Bounded k t e

/-- The indices are in order and the buffer is as long as they say. -/
structure Outgoing.Indexed (c : Outgoing σ) : Prop where
  start_nonneg : 0 ≤ c.sendbufStart
  start_le : c.sendbufStart ≤ c.sendbufCur
  cur_le : c.sendbufCur ≤ c.sendbufSize

structure Outgoing.Sound (c : Outgoing σ) : Prop extends c.Indexed where
  allocated : (c.sendbuf.length : ℤ) = c.sendbufSize

/-- The connection as a pipe. -/
def Outgoing.pipe (c : Outgoing σ) : Pipe UInt8 :=
  { through := c.socket, waiting := c.pending }

theorem toInt_of_le {n : ℤ} (h₀ : 0 ≤ n) (hn : n ≤ intMax) : toInt n = n := by
  rw [intMax] at hn
  rw [toInt, Int.bmod_def]
  omega

theorem length_readFrom {mem : List UInt8} {i n : ℕ} (h : i + n ≤ mem.length) :
    (readFrom mem i n).length = n := by
  rw [readFrom, List.length_take, List.length_drop]
  omega

theorem length_writeAt {mem bytes : List UInt8} {i : ℕ} (h : i + bytes.length ≤ mem.length) :
    (writeAt mem i bytes).length = mem.length := by
  simp only [writeAt, List.length_append, List.length_take, List.length_drop]
  omega

/-- What is written behind the bytes of an interval comes after them. -/
theorem readFrom_writeAt (mem bytes : List UInt8) {i : ℕ}
    (h : i + bytes.length ≤ mem.length) :
    readFrom (writeAt mem i bytes) 0 (i + bytes.length) = readFrom mem 0 i ++ bytes := by
  have hlen : (mem.take i ++ bytes).length = i + bytes.length := by
    rw [List.length_append, List.length_take]
    omega
  rw [readFrom, writeAt, List.drop_zero, readFrom, List.drop_zero,
    List.take_append_of_le_length (by omega), List.take_of_length_le (by omega)]

theorem readFrom_writeAt_zero {mem bytes : List UInt8} (h : bytes.length ≤ mem.length) :
    readFrom (writeAt mem 0 bytes) 0 bytes.length = bytes := by
  have hwrite := readFrom_writeAt mem bytes (i := 0) (by omega)
  rw [Nat.zero_add] at hwrite
  rw [hwrite, readFrom, List.take_zero, List.nil_append]

theorem readFrom_resize {mem : List UInt8} {i n : ℕ} (hi : i ≤ mem.length) (hn : i ≤ n) :
    readFrom (resize mem n) 0 i = readFrom mem 0 i := by
  rw [readFrom, readFrom, resize, List.drop_zero, List.drop_zero, List.take_take,
    Nat.min_eq_left hn, List.take_append_of_le_length hi]

theorem length_resize {mem : List UInt8} (n : ℕ) : (resize mem n).length = n := by
  rw [resize, List.length_take, List.length_append, List.length_replicate]
  omega

theorem Outgoing.Sound.length_pending {c : Outgoing σ} (h : c.Sound) :
    (c.pending.length : ℤ) = c.sendbufCur - c.sendbufStart := by
  have h₁ := h.start_nonneg
  have h₂ := h.start_le
  have h₃ := h.cur_le
  have h₄ := h.allocated
  rw [Outgoing.pending, length_readFrom (by omega)]
  omega

/-- Nothing has been sent of a compacted buffer. -/
theorem compact_spec {c : Outgoing σ} (h : c.Sound) :
    (compact c).Sound ∧ (compact c).sendbufStart = 0 ∧ (compact c).pending = c.pending ∧
      (compact c).socket = c.socket ∧ (compact c).sendbufCur = c.pending.length := by
  have hlen := h.length_pending
  have h₁ := h.start_nonneg
  have h₂ := h.start_le
  have h₃ := h.cur_le
  have h₄ := h.allocated
  rw [compact]
  split_ifs with hstart
  · refine ⟨h, hstart, rfl, rfl, ?_⟩
    omega
  · have hfits : c.pending.length ≤ c.sendbuf.length := by omega
    refine ⟨⟨⟨le_refl (0 : ℤ), ?_, ?_⟩, ?_⟩, rfl, ?_, rfl, hlen.symm⟩
    · change (0 : ℤ) ≤ c.sendbufCur - c.sendbufStart
      omega
    · change c.sendbufCur - c.sendbufStart ≤ c.sendbufSize
      omega
    · change ((writeAt c.sendbuf 0 c.pending).length : ℤ) = c.sendbufSize
      rw [length_writeAt (by omega)]
      exact h₄
    · have hall : (c.sendbufCur - c.sendbufStart - 0).toNat = c.pending.length := by omega
      change readFrom (writeAt c.sendbuf 0 c.pending) 0 _ = c.pending
      rw [hall, readFrom_writeAt_zero hfits]

theorem enlarge_spec {c : Outgoing σ} (h : c.Sound) (hstart : c.sendbufStart = 0) (need : ℤ)
    (hneed : c.sendbufCur ≤ need) (hmax : need ≤ intMax) :
    ∃ c', enlarge c true need = some c' ∧ c'.Sound ∧ c'.sendbufStart = 0 ∧
      c'.sendbufCur = c.sendbufCur ∧ need ≤ c'.sendbufSize ∧ c'.pending = c.pending ∧
      c'.socket = c.socket := by
  have h₂ := h.start_le
  have h₃ := h.cur_le
  have h₄ := h.allocated
  rw [enlarge]
  by_cases hsmall : c.sendbufSize < need
  · rw [if_pos hsmall, if_pos rfl]
    have hint : toInt need = need := toInt_of_le (by omega) hmax
    refine ⟨_, rfl, ⟨⟨h.start_nonneg, h₂, ?_⟩, ?_⟩, hstart, rfl, ?_, ?_, rfl⟩
    · change c.sendbufCur ≤ toInt need
      rw [hint]
      exact hneed
    · change ((resize c.sendbuf need.toNat).length : ℤ) = toInt need
      rw [length_resize, hint]
      omega
    · change need ≤ toInt need
      exact hint.ge
    · have hlen : (c.sendbufCur - 0).toNat ≤ c.sendbuf.length := by omega
      have hle : (c.sendbufCur - 0).toNat ≤ need.toNat := by omega
      rw [Outgoing.pending, Outgoing.pending, hstart]
      exact readFrom_resize hlen hle
  · rw [if_neg hsmall]
    exact ⟨c, rfl, h, hstart, rfl, not_lt.mp hsmall, rfl, rfl⟩

/-- What is left of a packet waits behind what waits already. -/
theorem storeRest_spec {c : Outgoing σ} (h : c.Sound) (rest : List UInt8)
    (hmax : (c.pending.length : ℤ) + rest.length ≤ intMax) :
    (storeRest c true rest).1.Sound ∧
      (storeRest c true rest).1.pipe = c.pipe.push rest := by
  rw [storeRest]
  by_cases hrest : rest = []
  · rw [if_pos hrest, hrest]
    refine ⟨h, ?_⟩
    rw [Pipe.push, List.append_nil]
  · rw [if_neg hrest]
    obtain ⟨hsound, hstart, hpending, hsocket, hcur⟩ := compact_spec h
    dsimp only
    obtain ⟨c', henlarge, h', hstart', hcur', hsize, hpending', hsocket'⟩ :=
      enlarge_spec hsound hstart ((compact c).sendbufCur + rest.length) (by omega)
        (by rw [hcur]; exact hmax)
    have hlen := h'.allocated
    have hnonneg : 0 ≤ c'.sendbufCur := by rw [hcur', hcur]; omega
    have hint : toInt (c'.sendbufCur + rest.length) = c'.sendbufCur + rest.length := by
      rw [hcur', hcur]
      exact toInt_of_le (by omega) hmax
    have hroom : c'.sendbufCur.toNat + rest.length ≤ c'.sendbuf.length := by
      rw [← hcur'] at hsize
      omega
    rw [henlarge]
    dsimp only
    refine ⟨⟨⟨?_, ?_, ?_⟩, ?_⟩, ?_⟩
    · rw [hstart']
    · change c'.sendbufStart ≤ toInt _
      rw [hstart', hint]
      omega
    · change toInt _ ≤ c'.sendbufSize
      rw [hint, hcur']
      exact hsize
    · change ((writeAt c'.sendbuf _ rest).length : ℤ) = c'.sendbufSize
      rw [length_writeAt hroom]
      exact hlen
    · ext1
      · change c'.socket = c.socket
        rw [hsocket', hsocket]
      · change readFrom (writeAt c'.sendbuf _ rest) c'.sendbufStart.toNat
          (toInt _ - c'.sendbufStart).toNat = c.pending ++ rest
        have hall : (c'.sendbufCur + rest.length - 0).toNat =
            c'.sendbufCur.toNat + rest.length := by omega
        rw [hstart', hint, Int.toNat_zero, hall, readFrom_writeAt _ _ hroom, ← hpending, ← hpending',
          Outgoing.pending, hstart', Int.sub_zero, Int.toNat_zero]

theorem sendLoop_spec {len : ℕ} {rs : List Sent} {total : ℕ} (h : .error ∉ rs)
    (htotal : total ≤ len) :
    (sendLoop len rs total).2 = false ∧ (sendLoop len rs total).1 ≤ len := by
  induction rs generalizing total with
  | nil => exact ⟨rfl, htotal⟩
  | cons r rs ih =>
    rw [List.mem_cons, not_or] at h
    cases r with
    | count n =>
      rw [sendLoop]
      split_ifs
      · exact ⟨rfl, htotal⟩
      · exact ih h.2 (by omega)
    | again =>
      rw [sendLoop, ite_self]
      exact ⟨rfl, htotal⟩
    | error => exact absurd rfl h.1

theorem Outgoing.Sound.pending_nil {c : Outgoing σ} (h : c.Sound) (hcur : c.sendbufCur = 0) :
    c.pending = [] := by
  have hlen := h.length_pending
  have h₁ := h.start_nonneg
  apply List.eq_nil_of_length_eq_zero
  omega

/-- A packet goes in at the end of the pipe, and a part of it may get through. -/
theorem sendRaw_spec {c : Outgoing σ} (h : c.Sound) {sends : List Sent} {bytes : List UInt8}
    (hsends : .error ∉ sends)
    (hmax : (c.pending.length : ℤ) + bytes.length ≤ intMax) :
    (sendRaw c sends true bytes).1.Sound ∧
      ∃ n, (sendRaw c sends true bytes).1.pipe = (c.pipe.push bytes).move n := by
  rw [sendRaw]
  by_cases hcur : c.sendbufCur = 0
  · obtain ⟨hok, hle⟩ := sendLoop_spec hsends (Nat.zero_le bytes.length)
    rw [if_pos hcur, if_neg (by rw [hok]; decide)]
    generalize (sendLoop bytes.length sends 0).1 = total at *
    have hdrop : ((bytes.drop total).length : ℤ) ≤ bytes.length := by
      rw [List.length_drop]
      omega
    have hsound : ({ c with socket := c.socket ++ bytes.take total } : Outgoing σ).Sound :=
      ⟨⟨h.start_nonneg, h.start_le, h.cur_le⟩, h.allocated⟩
    obtain ⟨hstored, hpipe⟩ := storeRest_spec hsound (bytes.drop total)
      ((add_le_add_right hdrop _).trans hmax)
    refine ⟨hstored, total, ?_⟩
    rw [hpipe]
    ext1
    · change c.socket ++ bytes.take total = c.socket ++ (c.pending ++ bytes).take total
      rw [h.pending_nil hcur, List.nil_append]
    · change c.pending ++ bytes.drop total = (c.pending ++ bytes).drop total
      rw [h.pending_nil hcur, List.nil_append, List.nil_append]
  · rw [if_neg hcur, if_neg (by decide), List.take_zero, List.append_nil, List.drop_zero]
    obtain ⟨hstored, hpipe⟩ := storeRest_spec h bytes hmax
    refine ⟨hstored, 0, ?_⟩
    rw [hpipe, Pipe.move, List.take_zero, List.append_nil, List.drop_zero]

theorem cryptSend_spec (k : Cipher σ) {c : Outgoing σ} (h : c.Sound) {sends : List Sent}
    {bytes : List UInt8} (hsends : .error ∉ sends)
    (hmax : (c.pending.length : ℤ) + (encrypted k c.skey bytes).2.length ≤ intMax) :
    (cryptSend k c sends true bytes).1.Sound ∧
      ∃ n, (cryptSend k c sends true bytes).1.pipe =
        (c.pipe.push (encrypted k c.skey bytes).2).move n := by
  have hsound : ({ c with skey := (encrypted k c.skey bytes).1 } : Outgoing σ).Sound :=
    ⟨⟨h.start_nonneg, h.start_le, h.cur_le⟩, h.allocated⟩
  exact sendRaw_spec hsound hsends hmax

theorem freeSent_spec {c : Outgoing σ} (h : c.Sound) :
    (freeSent c).Sound ∧ (freeSent c).pipe = c.pipe := by
  rw [freeSent]
  split_ifs with hsent
  · have hnone : c.pending = [] := by
      have hlen := h.length_pending
      apply List.eq_nil_of_length_eq_zero
      omega
    refine ⟨⟨⟨le_refl (0 : ℤ), le_refl (0 : ℤ), le_refl (0 : ℤ)⟩, rfl⟩, ?_⟩
    ext1
    · rfl
    · exact hnone.symm
  · exact ⟨h, rfl⟩

/-- What is sent from the buffer is the front of what waits. -/
theorem readFrom_split (mem : List UInt8) (i n m : ℕ) :
    (readFrom mem i n).drop m = readFrom mem (i + m) (n - m) := by
  rw [readFrom, readFrom, List.drop_take, List.drop_drop]

theorem writeReady_spec {c : Outgoing σ} (h : c.Sound) (r : Sent) :
    (writeReady c r).Sound ∧ ∃ n, (writeReady c r).pipe = c.pipe.move n := by
  have hsame : c.pipe = c.pipe.move 0 := by
    rw [Pipe.move, List.take_zero, List.append_nil, List.drop_zero]
  by_cases hcur : c.sendbufCur = 0
  · rw [writeReady.eq_def, if_pos hcur]
    exact ⟨h, 0, hsame⟩
  · rw [writeReady.eq_def, if_neg hcur]
    cases r with
    | count n =>
      dsimp only
      have h₁ := h.start_nonneg
      have h₂ := h.start_le
      have h₃ := h.cur_le
      have h₄ := h.allocated
      generalize hsent : min n (c.sendbufCur - c.sendbufStart).toNat = sent
      have hle : (sent : ℤ) ≤ c.sendbufCur - c.sendbufStart := by omega
      have hsound : ({ c with
          socket := c.socket ++ c.pending.take sent
          sendbufStart := c.sendbufStart + sent } : Outgoing σ).Sound := by
        refine ⟨⟨?_, ?_, h₃⟩, h₄⟩
        · change 0 ≤ c.sendbufStart + sent
          omega
        · change c.sendbufStart + sent ≤ c.sendbufCur
          omega
      obtain ⟨hfreed, hpipe⟩ := freeSent_spec hsound
      refine ⟨hfreed, sent, ?_⟩
      rw [hpipe]
      ext1
      · rfl
      · have hindex : (c.sendbufStart + sent).toNat = c.sendbufStart.toNat + sent := by omega
        have hcount : (c.sendbufCur - (c.sendbufStart + sent)).toNat =
            (c.sendbufCur - c.sendbufStart).toNat - sent := by omega
        change readFrom c.sendbuf (c.sendbufStart + sent).toNat
          (c.sendbufCur - (c.sendbufStart + sent)).toNat = c.pending.drop sent
        rw [hindex, hcount, Outgoing.pending, readFrom_split]
    | again => exact ⟨h, 0, hsame⟩
    | error => exact ⟨h, 0, hsame⟩

/-- The buffer is sound and the pipe holds what has been accepted. -/
structure Traffic.Carried (t : Traffic σ) : Prop where
  sound : t.out.Sound
  total : t.out.pipe.total = t.accepted

theorem start_carried (key : σ) : (Traffic.start key).Carried where
  sound := ⟨⟨le_refl (0 : ℤ), le_refl (0 : ℤ), le_refl (0 : ℤ)⟩, rfl⟩
  total := rfl

theorem next_carried (k : Cipher σ) {t : Traffic σ} (h : t.Carried) {e : Event}
    (hfits : Fits k t e) : (next k t e).Carried := by
  cases e with
  | cryptSend bytes sends allocated =>
    obtain ⟨⟨hsends, hallocated⟩, hmax⟩ := hfits
    obtain ⟨hsound, n, hpipe⟩ := cryptSend_spec k h.sound hsends hmax
    rw [next, hallocated]
    refine ⟨hsound, ?_⟩
    change (cryptSend k t.out sends true bytes).1.pipe.total = _
    rw [hpipe, Pipe.total_move, Pipe.total_push, h.total]
  | writeReady r =>
    obtain ⟨hsound, n, hpipe⟩ := writeReady_spec h.sound r
    refine ⟨hsound, ?_⟩
    change (writeReady t.out r).pipe.total = t.accepted
    rw [hpipe, Pipe.total_move, h.total]

/-- What has been handed to the socket and what waits in the buffer are the encrypted packets in
the order of the calls. -/
theorem outgoing_stream (k : Cipher σ) {key : σ} {es : List Event} {t : Traffic σ}
    (hrun : Run (StepOf (next k)) (Fits k) (.start key) es t) :
    t.out.Indexed ∧ t.out.socket ++ t.out.pending = t.accepted := by
  have hcarried := hrun.invariant Traffic.Carried (start_carried key) (by
    intro s e t hs hfits htaken
    rw [htaken]
    exact next_carried k hs hfits)
  exact ⟨hcarried.sound.toIndexed, hcarried.total⟩

/-- No encryption, on headers of four bytes. -/
def plainCipher : Cipher Unit :=
  { crypt := fun key bytes => (key, bytes), hdrSize := 4 }

/-- A packet is cut short, another is queued behind the rest, and a part of both is flushed. -/
theorem outgoing_stream_partial :
    ∃ t : Traffic Unit, t.out.Indexed ∧ t.out.socket = [1, 2, 3, 4, 5] ∧
      t.out.socket ++ t.out.pending = [1, 2, 3, 4, 5, 6, 7, 0, 8, 9, 10, 11] := by
  have hrun : Run (StepOf (next plainCipher)) (Fits plainCipher) (.start ())
      [.cryptSend [1, 2, 3, 4, 5, 6, 7] [.count 1, .count 2, .again] true, .writeReady (.count 1),
        .cryptSend [8, 9, 10, 11] [] true, .writeReady .again, .writeReady (.count 1)] _ :=
    .move ⟨⟨by simp, rfl⟩, by decide⟩ rfl
      (.move ⟨trivial, trivial⟩ rfl
        (.move ⟨⟨by simp, rfl⟩, by decide⟩ rfl
          (.move ⟨trivial, trivial⟩ rfl (.move ⟨trivial, trivial⟩ rfl (.stop _)))))
  obtain ⟨hindexed, htotal⟩ := outgoing_stream plainCipher hrun
  exact ⟨_, hindexed, by decide, htotal⟩

/-- Nothing of a packet is sent while the socket is full. -/
theorem storeRest_stalled {c : Outgoing σ} (hstart : c.sendbufStart = 0) {rest : List UInt8}
    (hrest : rest ≠ []) :
    (storeRest c true rest).1.sendbufStart = 0 ∧
      (storeRest c true rest).1.sendbufCur = toInt (c.sendbufCur + rest.length) := by
  rw [storeRest, if_neg hrest, compact, if_pos hstart]
  dsimp only
  rw [enlarge]
  by_cases hsmall : c.sendbufSize < c.sendbufCur + rest.length
  · rw [if_pos hsmall, if_pos rfl]
    exact ⟨hstart, rfl⟩
  · rw [if_neg hsmall]
    exact ⟨hstart, rfl⟩

/-- A packet of 32 KiB for a client that does not read. -/
def unread : Event :=
  .cryptSend (List.replicate 32768 0) [] true

theorem next_unread {t : Traffic Unit} (hstart : t.out.sendbufStart = 0) :
    (next plainCipher t unread).out.sendbufStart = 0 ∧
      (next plainCipher t unread).out.sendbufCur = toInt (t.out.sendbufCur + 32768) := by
  have hlen : (List.replicate 32768 (0 : UInt8)).length = 32768 := List.length_replicate
  have hpad : pad 4 4 (List.replicate 32768 0) = List.replicate 32768 0 := by
    rw [pad, hlen, if_pos (by decide)]
  have hsome : List.replicate 32768 (0 : UInt8) ≠ [] := by
    intro hnil
    rw [hnil] at hlen
    cases hlen
  have hnext : (next plainCipher t unread).out =
      (storeRest t.out true (List.replicate 32768 0)).1 := by
    change (sendRaw t.out [] true (pad 4 4 (List.replicate 32768 0))).1 = _
    rw [hpad, sendRaw, sendLoop, ite_self, if_neg (by decide), List.take_zero, List.append_nil,
      List.drop_zero]
  rw [hnext]
  have hstored := storeRest_stalled hstart hsome
  rw [hlen] at hstored
  exact hstored

theorem unread_backlog {n : ℕ} (hn : n < 65536) :
    ((List.replicate n unread).foldl (next plainCipher) (.start ())).out.sendbufStart = 0 ∧
      ((List.replicate n unread).foldl (next plainCipher) (.start ())).out.sendbufCur =
        32768 * n := by
  induction n with
  | zero => exact ⟨rfl, rfl⟩
  | succ n ih =>
    obtain ⟨hstart, hcur⟩ := ih (by omega)
    obtain ⟨hstart', hcur'⟩ := next_unread hstart
    rw [List.replicate_succ', List.foldl_append, List.foldl_cons, List.foldl_nil]
    refine ⟨hstart', ?_⟩
    rw [hcur', hcur, toInt_of_le (by omega) (by rw [intMax]; omega)]
    omega

/-- With 2 GiB pending, `sendbuf_cur` is negative. -/
theorem outgoing_stream_not :
    ¬∀ (es : List Event) (t : Traffic Unit),
      Run (StepOf (next plainCipher)) (fun _ e => Succeeds e) (.start ()) es t →
        t.out.Indexed ∧ t.out.socket ++ t.out.pending = t.accepted := by
  intro hclaim
  obtain ⟨n, hn⟩ : ∃ n : ℕ, n = 65535 := ⟨_, rfl⟩
  have hsucceeds : ∀ e ∈ List.replicate (n + 1) unread, ∀ _ : Traffic Unit, Succeeds e := by
    intro e he _
    rw [List.eq_of_mem_replicate he]
    exact ⟨List.not_mem_nil, rfl⟩
  have hrun := run_foldl_of (next plainCipher) (.start ()) hsucceeds
  obtain ⟨hindexed, -⟩ := hclaim _ _ hrun
  obtain ⟨hstart, hcur⟩ := unread_backlog (n := n) (by omega)
  obtain ⟨hstart', hcur'⟩ := next_unread hstart
  have hle := hindexed.start_le
  rw [List.replicate_succ', List.foldl_append, List.foldl_cons, List.foldl_nil, hstart', hcur',
    hcur, hn] at hle
  exact absurd hle (by decide)

end ShipServer.SendBuffer
