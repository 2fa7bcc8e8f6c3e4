import ShipServer.IncrementalParsing
import ShipServer.LabelledRuns
import ShipServer.ByteStreams
import ShipServer.Versions

set_option autoImplicit false

namespace ShipServer.PacketFraming

open IncrementalParsing LabelledRuns ByteStreams Versions

variable {σ H : Type*}

/-- What `client_process_pkt` calls: the cipher, the version of the client and the packet
handlers, which work on the rest of the client. -/
structure Link (σ H : Type*) where
  crypt : σ → List UInt8 → σ × List UInt8
  version : H → ClientVersion
  handle : H → List UInt8 → H × Int
  hdrSize : ℕ

/-- The header size of a version: eight bytes on Blue Burst. -/
def Link.HdrSized (k : Link σ H) : Prop :=
  k.hdrSize = 4 ∨ k.hdrSize = 8

/-- The client as the loop of `client_process_pkt` works on it: `pkt` is the decrypted header of
the packet that is being received, if `hdrRead` is set. -/
structure Session (σ H : Type*) where
  ckey : σ
  pkt : List UInt8
  hdrRead : Bool
  host : H
  rv : Int

/-- The client between the calls, with the bytes left over by the last one. -/
structure Client (σ H : Type*) where
  ckey : σ
  pkt : List UInt8
  hdrRead : Bool
  host : H
  recvbuf : List UInt8

def Client.session (c : Client σ H) : Session σ H :=
  { ckey := c.ckey, pkt := c.pkt, hdrRead := c.hdrRead, host := c.host, rv := 0 }

def Session.client (s : Session σ H) (recvbuf : List UInt8) : Client σ H :=
  { ckey := s.ckey, pkt := s.pkt, hdrRead := s.hdrRead, host := s.host, recvbuf := recvbuf }

/-- `LE16` of the two bytes at an index. -/
def le16 (bytes : List UInt8) (i : ℕ) : ℕ :=
  (bytes.getD i 0).toNat + 256 * (bytes.getD (i + 1) 0).toNat

/-- The length in a packet's header. -/
def pktLen (v : ClientVersion) (pkt : List UInt8) : ℕ :=
  match v with
  | .dcv1 | .dcv2 | .gc | .ep3 | .xbox => le16 pkt 2
  | .pc | .bb => le16 pkt 0

/-- The length in a header, rounded up to a multiple of the header size, in 16 bits. -/
def paddedSize (hsz len : ℕ) : ℕ :=
  if len &&& (hsz - 1) = 0 then len else ((len &&& (0x10000 - hsz)) + hsz) % 0x10000

/-- The header is decrypted unless an earlier call has done so. -/
def readHeader (k : Link σ H) (s : Session σ H) (d : List UInt8) : Session σ H :=
  if s.hdrRead then s
  else
    { s with
      ckey := (k.crypt s.ckey (d.take k.hdrSize)).1
      pkt := (k.crypt s.ckey (d.take k.hdrSize)).2
      hdrRead := true }

/-- A whole packet is there: it is decrypted and handed to its handler. -/
def processPkt (k : Link σ H) (s : Session σ H) (size : ℕ) (d : List UInt8) :
    Turn (Session σ H) UInt8 (List UInt8) :=
  let body := k.crypt s.ckey ((d.take size).drop k.hdrSize)
  let handled := k.handle s.host (s.pkt ++ body.2)
  let s := { s with ckey := body.1, hdrRead := false, host := handled.1, rv := handled.2 }
  if handled.2 = 0 then .emit s (s.pkt ++ body.2) (d.drop size)
  else .halt s [s.pkt ++ body.2] (d.drop size)

/-- One turn of the loop of `client_process_pkt`. -/
def processOne (k : Link σ H) (s : Session σ H) (d : List UInt8) :
    Turn (Session σ H) UInt8 (List UInt8) :=
  if d.length < k.hdrSize then
    .wait s
  else
    let s := readHeader k s d
    let len := pktLen (k.version s.host) s.pkt
    if len < k.hdrSize then
      .halt { s with rv := -1 } [] d
    else if paddedSize k.hdrSize len ≤ d.length then
      processPkt k s (paddedSize k.hdrSize len) d
    else
      .wait s

/-- What a call of `client_process_pkt` gets from the system: whether there is a buffer to
receive into, what `recv` puts there (nothing on an error or at the end of the stream), and
whether the client's own buffer can be enlarged. -/
structure Recv where
  gotBuf : Bool
  chunk : List UInt8
  allocated : Bool

/-- The bytes that a call takes from the socket. -/
def Recv.received (r : Recv) : List UInt8 :=
  if r.gotBuf then r.chunk else []

/-- The end of the loop: what is left is kept for the next call. -/
def leftover (r : Recv) (o : Outcome (Session σ H) UInt8 (List UInt8)) :
    List (List UInt8) × Client σ H × Int :=
  if o.halted then (o.outs, o.state.client [], o.state.rv)
  else if o.rest ≠ [] ∧ r.allocated = false then (o.outs, o.state.client [], -1)
  else (o.outs, o.state.client o.rest, 0)

/-- The packets handed to the handlers, the client and the result, if the loop ends: a turn for
each byte is enough for every packet that takes a byte. -/
def clientProcessPkt (k : Link σ H) (c : Client σ H) (r : Recv) :
    Option (List (List UInt8) × Client σ H × Int) :=
  if r.gotBuf = false ∨ r.chunk = [] then some ([], c, -1)
  else
    let d := c.recvbuf ++ r.chunk
    (pass (processOne k) (d.length + 1) c.session d).map (leftover r)

/-- What has come from a client's socket since the connection began, and what has become of it. -/
structure Progress (σ H : Type*) where
  stream : List UInt8
  handed : List (List UInt8)
  client : Client σ H
  rv : Int

def Progress.start (c : Client σ H) : Progress σ H :=
  { stream := [], handed := [], client := c, rv := 0 }

/-- The ship calls `client_process_pkt` until a call fails; `recv` has room for what the buffer of
64 KiB does not hold yet. -/
def Receives (k : Link σ H) (p : Progress σ H) (r : Recv) (q : Progress σ H) : Prop :=
  p.rv = 0 ∧ r.chunk.length ≤ 65536 - p.client.recvbuf.length ∧
    ∃ ps c rv, clientProcessPkt k p.client r = some (ps, c, rv) ∧
      q = { stream := p.stream ++ r.received, handed := p.handed ++ ps, client := c, rv := rv }

/-- The whole stream processed at once. -/
def onePass (k : Link σ H) (c : Client σ H) (stream : List UInt8) :
    Option (Outcome (Session σ H) UInt8 (List UInt8)) :=
  pass (processOne k) (stream.length + 1) c.session stream

/-- A client that has just connected. -/
def Client.Fresh (c : Client σ H) : Prop :=
  c.hdrRead = false ∧ c.recvbuf = []

/-- The lengths in the headers that the loop comes to are good ones. -/
def Sized (k : Link σ H) (s : Session σ H) (d : List UInt8) : Prop :=
  ∀ t f, Reaches (processOne k) s d t f → k.hdrSize ≤ f.length →
    k.hdrSize ≤ pktLen (k.version t.host) (readHeader k t f).pkt ∧
      pktLen (k.version t.host) (readHeader k t f).pkt ≤ 65528

theorem and_mask (x n w : ℕ) : x &&& ((2 ^ w - 1) <<< n) = (x >>> n % 2 ^ w) <<< n := by
  apply Nat.eq_of_testBit_eq
  intro i
  simp only [Nat.testBit_and, Nat.testBit_shiftLeft, Nat.testBit_mod_two_pow,
    Nat.testBit_two_pow_sub_one, Nat.testBit_shiftRight]
  by_cases hi : n ≤ i
  · simp [hi, Nat.add_sub_cancel' hi, Bool.and_comm]
  · simp [hi]

theorem paddedSize_pow {n len : ℕ} (hn : n ≤ 16) :
    paddedSize (2 ^ n) len =
      if len % 2 ^ n = 0 then len
      else (len / 2 ^ n % 2 ^ (16 - n) * 2 ^ n + 2 ^ n) % 0x10000 := by
  have hmask : 0x10000 - 2 ^ n = (2 ^ (16 - n) - 1) <<< n := by
    rw [Nat.shiftLeft_eq, Nat.sub_mul, ← pow_add, Nat.sub_add_cancel hn, one_mul]
    rfl
  rw [paddedSize, Nat.and_two_pow_sub_one_eq_mod, hmask, and_mask, Nat.shiftLeft_eq,
    Nat.shiftRight_eq_div_pow]

/-- A good length is rounded up to a multiple of the header size without running over. -/
theorem paddedSize_spec {k : Link σ H} (hk : k.HdrSized) {len : ℕ} (hlen : len ≤ 65528) :
    len ≤ paddedSize k.hdrSize len ∧ paddedSize k.hdrSize len ≤ 65528 ∧
      k.hdrSize ∣ paddedSize k.hdrSize len := by
  rcases hk with hk | hk
  · have h : paddedSize 4 len =
        if len % 4 = 0 then len else (len / 4 % 16384 * 4 + 4) % 0x10000 :=
      paddedSize_pow (n := 2) (by omega)
    rw [hk, h]
    split_ifs <;> omega
  · have h : paddedSize 8 len =
        if len % 8 = 0 then len else (len / 8 % 8192 * 8 + 8) % 0x10000 :=
      paddedSize_pow (n := 3) (by omega)
    rw [hk, h]
    split_ifs <;> omega

theorem readHeader_append (k : Link σ H) (s : Session σ H) {d : List UInt8}
    (hd : k.hdrSize ≤ d.length) (e : List UInt8) : readHeader k s (d ++ e) = readHeader k s d := by
  rw [readHeader, readHeader, List.take_append_of_le_length hd]

theorem readHeader_host (k : Link σ H) (s : Session σ H) (d : List UInt8) :
    (readHeader k s d).host = s.host := by
  rw [readHeader]
  split_ifs <;> rfl

theorem readHeader_rv (k : Link σ H) (s : Session σ H) (d : List UInt8) :
    (readHeader k s d).rv = s.rv := by
  rw [readHeader]
  split_ifs <;> rfl

theorem readHeader_hdrRead (k : Link σ H) (s : Session σ H) (d : List UInt8) :
    (readHeader k s d).hdrRead = true := by
  rw [readHeader]
  split_ifs with h
  · exact h
  · rfl

/-- A header is decrypted once. -/
theorem readHeader_again (k : Link σ H) (s : Session σ H) (d f : List UInt8) :
    readHeader k (readHeader k s d) f = readHeader k s d := by
  rw [readHeader, if_pos (readHeader_hdrRead k s d)]

/-- The length that the header at hand tells. -/
def lengthAt (k : Link σ H) (s : Session σ H) (d : List UInt8) : ℕ :=
  pktLen (k.version s.host) (readHeader k s d).pkt

/-- All that one turn of the loop can do. -/
theorem processOne_cases (k : Link σ H) (s : Session σ H) (d : List UInt8) :
    (d.length < k.hdrSize ∧ processOne k s d = .wait s) ∨
    (k.hdrSize ≤ d.length ∧ lengthAt k s d < k.hdrSize ∧
      processOne k s d = .halt { readHeader k s d with rv := -1 } [] d) ∨
    (k.hdrSize ≤ d.length ∧ k.hdrSize ≤ lengthAt k s d ∧
      paddedSize k.hdrSize (lengthAt k s d) ≤ d.length ∧
      processOne k s d =
        processPkt k (readHeader k s d) (paddedSize k.hdrSize (lengthAt k s d)) d) ∨
    (k.hdrSize ≤ d.length ∧ k.hdrSize ≤ lengthAt k s d ∧
      d.length < paddedSize k.hdrSize (lengthAt k s d) ∧
      processOne k s d = .wait (readHeader k s d)) := by
  have hlen : pktLen (k.version (readHeader k s d).host) (readHeader k s d).pkt =
      lengthAt k s d := by
    rw [readHeader_host, lengthAt]
  by_cases hshort : d.length < k.hdrSize
  · exact Or.inl ⟨hshort, by rw [processOne, if_pos hshort]⟩
  · right
    have heq : processOne k s d =
        if lengthAt k s d < k.hdrSize then .halt { readHeader k s d with rv := -1 } [] d
        else if paddedSize k.hdrSize (lengthAt k s d) ≤ d.length then
          processPkt k (readHeader k s d) (paddedSize k.hdrSize (lengthAt k s d)) d
        else .wait (readHeader k s d) := by
      rw [processOne, if_neg hshort]
      dsimp only
      rw [hlen]
    rw [heq]
    rw [not_lt] at hshort
    split_ifs with hbad hfits
    · exact Or.inl ⟨hshort, hbad, rfl⟩
    · exact Or.inr (Or.inl ⟨hshort, not_lt.mp hbad, hfits, rfl⟩)
    · exact Or.inr (Or.inr ⟨hshort, not_lt.mp hbad, not_le.mp hfits, rfl⟩)

theorem lengthAt_append (k : Link σ H) (s : Session σ H) {d : List UInt8}
    (hd : k.hdrSize ≤ d.length) (e : List UInt8) : lengthAt k s (d ++ e) = lengthAt k s d := by
  rw [lengthAt, lengthAt, readHeader_append k s hd]

/-- The loop waits in a header or in a packet whose header it has read. -/
theorem wait_cases {k : Link σ H} {s s' : Session σ H} {d : List UInt8}
    (h : processOne k s d = .wait s') :
    (d.length < k.hdrSize ∧ s' = s) ∨
      (k.hdrSize ≤ d.length ∧ d.length < paddedSize k.hdrSize (lengthAt k s d) ∧
        s' = readHeader k s d) := by
  rcases processOne_cases k s d with
    ⟨hshort, heq⟩ | ⟨-, -, heq⟩ | ⟨-, -, -, heq⟩ | ⟨hd, -, hshort, heq⟩
  · rw [heq] at h
    cases h
    exact Or.inl ⟨hshort, rfl⟩
  · rw [heq] at h
    cases h
  · rw [heq, processPkt] at h
    dsimp only at h
    split_ifs at h
  · rw [heq] at h
    cases h
    exact Or.inr ⟨hd, hshort, rfl⟩

/-- The bytes of a packet are not the ones after it. -/
theorem processPkt_append (k : Link σ H) (s : Session σ H) {size : ℕ} {d : List UInt8}
    (hsize : size ≤ d.length) (e : List UInt8) :
    processPkt k s size (d ++ e) =
      let body := k.crypt s.ckey ((d.take size).drop k.hdrSize)
      let handled := k.handle s.host (s.pkt ++ body.2)
      let t := { s with ckey := body.1, hdrRead := false, host := handled.1, rv := handled.2 }
      if handled.2 = 0 then .emit t (s.pkt ++ body.2) (d.drop size ++ e)
      else .halt t [s.pkt ++ body.2] (d.drop size ++ e) := by
  rw [processPkt, List.take_append_of_le_length hsize, List.drop_append_of_le_length hsize]

theorem processOne_append_packet (k : Link σ H) (s : Session σ H) {d : List UInt8}
    (hd : k.hdrSize ≤ d.length) (hlen : k.hdrSize ≤ lengthAt k s d)
    (hfits : paddedSize k.hdrSize (lengthAt k s d) ≤ d.length) (e : List UInt8) :
    processOne k s (d ++ e) =
      processPkt k (readHeader k s d) (paddedSize k.hdrSize (lengthAt k s d)) (d ++ e) := by
  have hlong : d.length ≤ (d ++ e).length := by
    rw [List.length_append]
    omega
  rcases processOne_cases k s (d ++ e) with
    ⟨hshort, -⟩ | ⟨-, hlen', -⟩ | ⟨-, -, -, heq⟩ | ⟨-, -, hfits', -⟩
  · omega
  · rw [lengthAt_append k s hd] at hlen'
    omega
  · rw [heq, readHeader_append k s hd, lengthAt_append k s hd]
  · rw [lengthAt_append k s hd] at hfits'
    omega

/-- What the loop has done does not depend on what comes later. -/
theorem processOne_resumable (k : Link σ H) : Resumable (processOne k) where
  wait := by
    intro s s' d e h
    rcases wait_cases h with ⟨-, rfl⟩ | ⟨hd, -, rfl⟩
    · rfl
    · have hde : k.hdrSize ≤ (d ++ e).length := by
        rw [List.length_append]
        omega
      rw [processOne, processOne, readHeader_append k s hd, readHeader_again]
      simp only [not_lt.mpr hde, if_false]
  emit := by
    intro s s' d b rest e h
    rcases processOne_cases k s d with
      ⟨-, heq⟩ | ⟨-, -, heq⟩ | ⟨hd, hlen, hfits, heq⟩ | ⟨-, -, -, heq⟩
    · rw [heq] at h
      cases h
    · rw [heq] at h
      cases h
    · have hde := processOne_append_packet k s hd hlen hfits e
      rw [heq, processPkt] at h
      rw [hde, processPkt_append k _ hfits]
      dsimp only at h ⊢
      split_ifs at h ⊢
      cases h
      rfl
    · rw [heq] at h
      cases h
  halt := by
    intro s s' d bs rest e h
    rcases processOne_cases k s d with
      ⟨-, heq⟩ | ⟨hd, hlen, heq⟩ | ⟨hd, hlen, hfits, heq⟩ | ⟨-, -, -, heq⟩
    · rw [heq] at h
      cases h
    · rw [heq] at h
      cases h
      rcases processOne_cases k s (d ++ e) with
        ⟨hshort, -⟩ | ⟨-, -, heq'⟩ | ⟨-, hlen', -⟩ | ⟨-, hlen', -⟩
      · rw [List.length_append] at hshort
        omega
      · rw [heq', readHeader_append k s hd]
      · rw [lengthAt_append k s hd] at hlen'
        omega
      · rw [lengthAt_append k s hd] at hlen'
        omega
    · have hde := processOne_append_packet k s hd hlen hfits e
      rw [heq, processPkt] at h
      rw [hde, processPkt_append k _ hfits]
      dsimp only at h ⊢
      split_ifs at h ⊢
      cases h
      rfl
    · rw [heq] at h
      cases h

theorem Sized.append {k : Link σ H} {s : Session σ H} {d e : List UInt8} (h : Sized k s (d ++ e)) :
    Sized k s d := by
  intro t f hreach hf
  have hlong := h t (f ++ e) (hreach.append (processOne_resumable k) e)
    (by rw [List.length_append]; omega)
  rw [readHeader_append k t hf] at hlong
  exact hlong

theorem Sized.tail {k : Link σ H} {s s' : Session σ H} {d rest : List UInt8} {b : List UInt8}
    (h : Sized k s d) (taken : processOne k s d = .emit s' b rest) : Sized k s' rest := by
  intro t f hreach
  exact h t f (.emit taken hreach)

theorem Sized.resume {k : Link σ H} {s : Session σ H} {d e : List UInt8}
    {o : Outcome (Session σ H) UInt8 (List UInt8)} (h : Sized k s (d ++ e))
    (hpass : Pass (processOne k) s d o) (hgoes : o.halted = false) :
    Sized k o.state (o.rest ++ e) := by
  intro t f hreach hf
  rcases hreach.resume (processOne_resumable k) hpass hgoes with ⟨rfl, rfl⟩ | hthere
  · obtain ⟨t₀, f₀, hreach₀, ⟨-, htaken, hrest⟩ | ⟨hhalts, -⟩⟩ := hpass.last
    · have hsized := h t₀ (f₀ ++ e) (hreach₀.append (processOne_resumable k) e)
      rw [hrest] at hf ⊢
      rcases wait_cases htaken with ⟨-, hstate⟩ | ⟨hf₀, -, hstate⟩
      · rw [hstate]
        exact hsized hf
      · rw [hstate, readHeader_again, readHeader_host]
        rw [readHeader_append k t₀ hf₀] at hsized
        exact hsized hf
    · rw [hgoes] at hhalts
      cases hhalts
  · exact h t f hthere hf

/-- A packet takes at least its header. -/
theorem emit_cases {k : Link σ H} (hk : k.HdrSized) {s s' : Session σ H} {d rest b : List UInt8}
    (hsized : Sized k s d) (h : processOne k s d = .emit s' b rest) :
    ∃ size, k.hdrSize ≤ size ∧ size ≤ d.length ∧ k.hdrSize ∣ size ∧ rest = d.drop size ∧
      s'.hdrRead = false ∧ s'.rv = 0 ∧
      s'.ckey = (k.crypt (readHeader k s d).ckey ((d.take size).drop k.hdrSize)).1 ∧
      b = (readHeader k s d).pkt ++
        (k.crypt (readHeader k s d).ckey ((d.take size).drop k.hdrSize)).2 := by
  rcases processOne_cases k s d with
    ⟨-, heq⟩ | ⟨-, -, heq⟩ | ⟨hd, hlen, hfits, heq⟩ | ⟨-, -, -, heq⟩
  · rw [heq] at h
    cases h
  · rw [heq] at h
    cases h
  · have hsize : lengthAt k s d ≤ 65528 := (hsized s d (.here s d) hd).2
    obtain ⟨hle, -, hdvd⟩ := paddedSize_spec hk hsize
    refine ⟨paddedSize k.hdrSize (lengthAt k s d), hlen.trans hle, hfits, hdvd, ?_⟩
    rw [heq, processPkt] at h
    dsimp only at h
    split_ifs at h with hrv
    cases h
    exact ⟨rfl, rfl, hrv, rfl, rfl⟩
  · rw [heq] at h
    cases h

/-- A stream of good packets is processed within the turns that the loop is given here. -/
theorem pass_exists {k : Link σ H} (hk : k.HdrSized) {s : Session σ H} {d : List UInt8}
    (hsized : Sized k s d) {n : ℕ} (hn : d.length < n) :
    ∃ o, pass (processOne k) n s d = some o := by
  have hpos : 0 < k.hdrSize := by
    rcases hk with hk | hk <;> omega
  have hshort : ∀ t f, Reaches (processOne k) s d t f → ∀ t' b rest,
      processOne k t f = .emit t' b rest → rest.length < f.length := by
    intro t f hreach t' b rest htaken
    have hsized' : Sized k t f :=
      hreach.invariant (Sized k) hsized (fun _ _ _ _ _ h taken => h.tail taken)
    obtain ⟨size, hle, hfits, -, hrest, -⟩ := emit_cases hk hsized' htaken
    rw [hrest, List.length_drop]
    omega
  exact pass_total hshort hn

/-- The loop goes on only after good results. -/
theorem rv_of_goes {k : Link σ H} {s : Session σ H} {d : List UInt8}
    {o : Outcome (Session σ H) UInt8 (List UInt8)} (h : Pass (processOne k) s d o)
    (hs : s.rv = 0) (hgoes : o.halted = false) : o.state.rv = 0 := by
  induction h with
  | @wait s s' d taken =>
    rcases wait_cases taken with ⟨-, rfl⟩ | ⟨-, -, rfl⟩
    · exact hs
    · rw [readHeader_rv]
      exact hs
  | @emit s s' d rest b o taken _ ih =>
    apply ih _ hgoes
    rcases processOne_cases k s d with ⟨-, heq⟩ | ⟨-, -, heq⟩ | ⟨-, -, -, heq⟩ | ⟨-, -, -, heq⟩
    · rw [heq] at taken
      cases taken
    · rw [heq] at taken
      cases taken
    · rw [heq, processPkt] at taken
      dsimp only at taken
      split_ifs at taken with hrv
      cases taken
      exact hrv
    · rw [heq] at taken
      cases taken
  | halt _ => cases hgoes

/-- What is left when the loop waits is too short to be a packet. -/
theorem rest_lt {k : Link σ H} (hk : k.HdrSized) {s : Session σ H} {d : List UInt8}
    {o : Outcome (Session σ H) UInt8 (List UInt8)} (h : Pass (processOne k) s d o)
    (hsized : Sized k s d) (hgoes : o.halted = false) : o.rest.length < 65528 := by
  obtain ⟨t, f, hreach, ⟨-, htaken, hrest⟩ | ⟨hhalts, -⟩⟩ := h.last
  · rw [hrest]
    rcases wait_cases htaken with ⟨hshort, -⟩ | ⟨hf, hshort, -⟩
    · rcases hk with hk | hk <;> omega
    · obtain ⟨-, hmax, -⟩ := paddedSize_spec hk (hsized t f hreach hf).2
      change paddedSize k.hdrSize (lengthAt k t f) ≤ 65528 at hmax
      omega
  · rw [hgoes] at hhalts
    cases hhalts

/-- Of the bytes that have come, `consumed` are done with and decrypt to `plain`, and of those
left, the header is decrypted if `hdrRead` is set. -/
structure Deciphered (k : Link σ H) (key : σ) (consumed plain : List UInt8) (s : Session σ H)
    (d : List UInt8) : Prop where
  aligned : k.hdrSize ∣ consumed.length
  ready : s.hdrRead = true → k.hdrSize ≤ d.length
  text : k.crypt key (consumed ++ if s.hdrRead then d.take k.hdrSize else []) =
    (s.ckey, plain ++ if s.hdrRead then s.pkt else [])

theorem Deciphered.header {k : Link σ H} (hc : StreamCipher k.hdrSize k.crypt) {key : σ}
    {consumed plain d : List UInt8} {s : Session σ H}
    (h : Deciphered k key consumed plain s d) (hd : k.hdrSize ≤ d.length) :
    Deciphered k key consumed plain (readHeader k s d) d := by
  refine ⟨h.aligned, fun _ => hd, ?_⟩
  have htext := h.text
  rw [readHeader_hdrRead, if_pos rfl, if_pos rfl, readHeader]
  by_cases hread : s.hdrRead = true
  · rw [if_pos hread, if_pos hread] at htext
    rw [if_pos hread]
    exact htext
  · rw [if_neg hread, if_neg hread, List.append_nil, List.append_nil] at htext
    have hlen : (d.take k.hdrSize).length = k.hdrSize := List.length_take_of_le hd
    rw [if_neg hread, hc.append key consumed _ h.aligned (by rw [hlen]), htext]

theorem Deciphered.body {k : Link σ H} (hc : StreamCipher k.hdrSize k.crypt) {key : σ}
    {consumed plain d : List UInt8} {s t : Session σ H}
    (h : Deciphered k key consumed plain s d) (hread : s.hdrRead = true) {size : ℕ}
    (hhdr : k.hdrSize ≤ size) (hsize : size ≤ d.length) (hdvd : k.hdrSize ∣ size)
    (ht : t.hdrRead = false)
    (hkey : t.ckey = (k.crypt s.ckey ((d.take size).drop k.hdrSize)).1) :
    Deciphered k key (consumed ++ d.take size)
      (plain ++ (s.pkt ++ (k.crypt s.ckey ((d.take size).drop k.hdrSize)).2)) t
      (d.drop size) := by
  have htake : (d.take size).length = size := List.length_take_of_le hsize
  have hhead : (d.take size).take k.hdrSize = d.take k.hdrSize := by
    rw [List.take_take, Nat.min_eq_left hhdr]
  have hlen : (d.take k.hdrSize).length = k.hdrSize :=
    List.length_take_of_le (hhdr.trans hsize)
  have htext := h.text
  rw [if_pos hread, if_pos hread] at htext
  refine ⟨?_, ?_, ?_⟩
  · rw [List.length_append, htake]
    exact Nat.dvd_add h.aligned hdvd
  · intro hread'
    rw [ht] at hread'
    cases hread'
  · have hsplit : consumed ++ d.take size =
        (consumed ++ d.take k.hdrSize) ++ (d.take size).drop k.hdrSize := by
      rw [List.append_assoc, ← hhead, List.take_append_drop]
    have hdvd₁ : k.hdrSize ∣ (consumed ++ d.take k.hdrSize).length := by
      rw [List.length_append, hlen]
      exact Nat.dvd_add h.aligned (dvd_refl _)
    have hdvd₂ : k.hdrSize ∣ ((d.take size).drop k.hdrSize).length := by
      rw [List.length_drop, htake]
      exact Nat.dvd_sub hdvd (dvd_refl _)
    rw [ht, hsplit]
    simp only [Bool.false_eq_true, if_false, List.append_nil]
    rw [hc.append key _ _ hdvd₁ hdvd₂, htext, hkey, List.append_assoc]

/-- The loop decrypts each byte once, in order. -/
theorem Deciphered.pass {k : Link σ H} (hk : k.HdrSized) (hc : StreamCipher k.hdrSize k.crypt)
    {key : σ} {consumed plain d : List UInt8} {s : Session σ H}
    {o : Outcome (Session σ H) UInt8 (List UInt8)} (hpass : Pass (processOne k) s d o)
    (hsized : Sized k s d) (hgoes : o.halted = false)
    (h : Deciphered k key consumed plain s d) :
    ∃ more, d = more ++ o.rest ∧
      Deciphered k key (consumed ++ more) (plain ++ o.outs.flatten) o.state o.rest := by
  induction hpass generalizing consumed plain with
  | @wait s s' d taken =>
    refine ⟨[], rfl, ?_⟩
    simp only [List.append_nil, List.flatten_nil]
    rcases wait_cases taken with ⟨-, rfl⟩ | ⟨hd, -, rfl⟩
    · exact h
    · exact h.header hc hd
  | @emit s s' d rest b o taken _ ih =>
    obtain ⟨size, hle, hfits, hdvd, hrest, hread, -, hkey, hb⟩ := emit_cases hk hsized taken
    have hhdr := h.header hc (hle.trans hfits)
    have hbody := hhdr.body hc (readHeader_hdrRead k s d) hle hfits hdvd hread hkey
    rw [← hrest, ← hb] at hbody
    obtain ⟨more, hmore, hend⟩ := ih (hsized.tail taken) hgoes hbody
    refine ⟨d.take size ++ more, ?_, ?_⟩
    · change d = _ ++ o.rest
      rw [List.append_assoc, ← hmore, hrest, List.take_append_drop]
    · change Deciphered k key _ (plain ++ ([b] ++ o.outs).flatten) o.state o.rest
      rw [List.flatten_append, List.flatten_singleton, ← List.append_assoc, ← List.append_assoc]
      exact hend
  | halt _ => cases hgoes

/-- Where a client is: the calls have done what one pass over the whole stream does. -/
structure Framed (k : Link σ H) (c₀ : Client σ H) (p : Progress σ H)
    (o : Outcome (Session σ H) UInt8 (List UInt8)) : Prop where
  pass : Pass (processOne k) c₀.session p.stream o
  handed : p.handed = o.outs
  host : p.client.host = o.state.host
  goes : p.rv = 0 → o.halted = false ∧ p.client = o.state.client o.rest

theorem framed_start (k : Link σ H) {c₀ : Client σ H} (hk : k.HdrSized) (hfresh : c₀.Fresh) :
    Framed k c₀ (.start c₀) ⟨[], c₀.session, [], false⟩ := by
  have hshort : processOne k c₀.session [] = .wait c₀.session := by
    have hpos : ([] : List UInt8).length < k.hdrSize := by
      change 0 < k.hdrSize
      rcases hk with hk | hk <;> omega
    rw [processOne, if_pos hpos]
  refine ⟨.wait hshort, rfl, rfl, fun _ => ⟨rfl, ?_⟩⟩
  obtain ⟨ckey, pkt, hdrRead, host, recvbuf⟩ := c₀
  have hbuf : recvbuf = [] := hfresh.2
  rw [hbuf]
  rfl

theorem leftover_spec (r : Recv) (o : Outcome (Session σ H) UInt8 (List UInt8)) :
    (leftover r o).1 = o.outs ∧ (leftover r o).2.1.host = o.state.host ∧
      ((leftover r o).2.2 = 0 → o.halted = true ∧ o.state.rv = 0 ∨
        o.halted = false ∧ (leftover r o).2.1 = o.state.client o.rest) := by
  rw [leftover]
  split_ifs with hhalts hlost
  · exact ⟨rfl, rfl, fun hrv => Or.inl ⟨hhalts, hrv⟩⟩
  · exact ⟨rfl, rfl, fun hrv => absurd hrv (show ¬(-1 : Int) = 0 by decide)⟩
  · exact ⟨rfl, rfl, fun _ => Or.inr ⟨Bool.eq_false_iff.mpr hhalts, rfl⟩⟩

/-- A handler's error, or a bad header, is what the loop stops for. -/
theorem rv_of_halts {k : Link σ H} {s : Session σ H} {d : List UInt8}
    {o : Outcome (Session σ H) UInt8 (List UInt8)} (h : Pass (processOne k) s d o)
    (hhalts : o.halted = true) : o.state.rv ≠ 0 := by
  obtain ⟨t, f, -, ⟨hgoes, -⟩ | ⟨-, bs, htaken⟩⟩ := h.last
  · rw [hhalts] at hgoes
    cases hgoes
  · rcases processOne_cases k t f with
      ⟨-, heq⟩ | ⟨-, -, heq⟩ | ⟨-, -, -, heq⟩ | ⟨-, -, -, heq⟩
    · rw [heq] at htaken
      cases htaken
    · rw [heq] at htaken
      injection htaken with hstate
      rw [← hstate]
      exact show (-1 : Int) ≠ 0 by decide
    · rw [heq, processPkt] at htaken
      dsimp only at htaken
      split_ifs at htaken with hrv
      injection htaken with hstate
      rw [← hstate]
      exact hrv
    · rw [heq] at htaken
      cases htaken

theorem session_client (s : Session σ H) (d : List UInt8) :
    (s.client d).session = { s with rv := 0 } := rfl

/-- A call goes on where the one before has stopped. -/
theorem Framed.call {k : Link σ H} {c₀ : Client σ H} {p q : Progress σ H} {r : Recv}
    {o : Outcome (Session σ H) UInt8 (List UInt8)} (h : Framed k c₀ p o)
    (htaken : Receives k p r q) : ∃ o', Framed k c₀ q o' := by
  obtain ⟨hrv, -, ps, c, rv, hcall, rfl⟩ := htaken
  obtain ⟨hgoes, hclient⟩ := h.goes hrv
  rw [clientProcessPkt] at hcall
  split_ifs at hcall with hnothing
  · cases hcall
    have hnone : r.received = [] := by
      rw [Recv.received]
      rcases hnothing with hbuf | hchunk
      · rw [if_neg (by rw [hbuf]; decide)]
      · rw [hchunk, ite_self]
    refine ⟨o, ?_, ?_, h.host, fun hrv => absurd hrv (show ¬(-1 : Int) = 0 by decide)⟩
    · change Pass _ _ (p.stream ++ r.received) o
      rw [hnone, List.append_nil]
      exact h.pass
    · change p.handed ++ [] = o.outs
      rw [List.append_nil]
      exact h.handed
  · rw [not_or, Bool.not_eq_false] at hnothing
    have hall : r.received = r.chunk := by rw [Recv.received, if_pos hnothing.1]
    obtain ⟨o', ho', hleft⟩ := Option.map_eq_some_iff.mp hcall
    have hpass := pass_sound ho'
    have hstate : p.client.session = o.state := by
      rw [hclient, session_client, ← rv_of_goes h.pass rfl hgoes]
    have hbuf : p.client.recvbuf = o.rest := by rw [hclient]; rfl
    rw [hstate, hbuf] at hpass
    obtain ⟨houts, hhost, hgo⟩ := leftover_spec r o'
    rw [hleft] at houts hhost hgo
    refine ⟨o'.prepend o.outs, ?_, ?_, hhost, ?_⟩
    · change Pass _ _ (p.stream ++ r.received) _
      rw [hall]
      exact h.pass.resume (processOne_resumable k) hgoes hpass
    · change p.handed ++ ps = o.outs ++ o'.outs
      rw [h.handed, ← houts]
    · intro hzero
      rcases hgo hzero with ⟨hhalts, hzero'⟩ | hgo
      · exact absurd hzero' (rv_of_halts hpass hhalts)
      · exact hgo

theorem framed_run {k : Link σ H} (hk : k.HdrSized) {c₀ : Client σ H} (hfresh : c₀.Fresh)
    {rs : List Recv} {p : Progress σ H} (hrun : Run (Receives k) Always (.start c₀) rs p) :
    ∃ o, Framed k c₀ p o := by
  have hstep : ∀ s r t, (∃ o, Framed k c₀ s o) → Always s r → Receives k s r t →
      ∃ o, Framed k c₀ t o := by
    intro s r t hs _ htaken
    obtain ⟨o, ho⟩ := hs
    exact ho.call htaken
  exact hrun.invariant (fun p => ∃ o, Framed k c₀ p o) ⟨_, framed_start k hk hfresh⟩ hstep

/-- A keystream that depends on the position only. -/
def counterCrypt (n : ℕ) (bytes : List UInt8) : ℕ × List UInt8 :=
  (n + bytes.length, bytes.mapIdx (fun i b => b ^^^ UInt8.ofNat (7 * (n + i) + 3)))

theorem counterCrypt_streamCipher (block : ℕ) : StreamCipher block counterCrypt where
  nil := fun _ => rfl
  append := by
    intro n a b _ _
    simp only [counterCrypt, List.length_append, List.mapIdx_append, Nat.add_assoc,
      Nat.add_comm, Nat.add_left_comm]

/-- A Gamecube client whose handlers count the packets. -/
def countingLink : Link ℕ ℕ :=
  { crypt := counterCrypt, version := fun _ => .gc, handle := fun n _ => (n + 1, 0), hdrSize := 4 }

def countingClient : Client ℕ ℕ :=
  { ckey := 0, pkt := [], hdrRead := false, host := 0, recvbuf := [] }

end ShipServer.PacketFraming
