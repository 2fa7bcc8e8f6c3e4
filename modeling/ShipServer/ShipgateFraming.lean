import ShipServer.PacketFraming

set_option autoImplicit false

namespace ShipServer.ShipgateFraming

open IncrementalParsing LabelledRuns
open PacketFraming (paddedSize paddedSize_pow Recv)

variable {H : Type*}

/-- `handle_pkt`, which works on the rest of the ship. -/
abbrev Handler (H : Type*) := H → List UInt8 → H × Int

/-- The connection as the loop of `shipgate_process_pkt` works on it: `pkt` is the header of the
packet that is being received, if `hdrRead` is set. -/
structure Session (H : Type*) where
  pkt : List UInt8
  hdrRead : Bool
  host : H
  rv : Int

/-- The connection between the calls, with the bytes left over by the last one. -/
structure Conn (H : Type*) where
  pkt : List UInt8
  hdrRead : Bool
  host : H
  recvbuf : List UInt8

def Conn.session (c : Conn H) : Session H :=
  { pkt := c.pkt, hdrRead := c.hdrRead, host := c.host, rv := 0 }

def Session.conn (s : Session H) (recvbuf : List UInt8) : Conn H :=
  { pkt := s.pkt, hdrRead := s.hdrRead, host := s.host, recvbuf := recvbuf }

/-- `ntohs` of the first two bytes of a header. -/
def pktLen (pkt : List UInt8) : ℕ :=
  256 * (pkt.getD 0 0).toNat + (pkt.getD 1 0).toNat

def readHeader (s : Session H) (d : List UInt8) : Session H :=
  if s.hdrRead then s else { s with pkt := d.take 8, hdrRead := true }

/-- A whole packet is there, as far as its header tells. -/
def processPkt (handle : Handler H) (s : Session H) (size : ℕ) (d : List UInt8) :
    Turn (Session H) UInt8 (List UInt8) :=
  let b := s.pkt ++ (d.take size).drop 8
  let handled := handle s.host b
  if handled.2 = 0 then .emit { s with hdrRead := false, host := handled.1, rv := 0 } b (d.drop size)
  else .halt { s with host := handled.1, rv := handled.2 } [b] d

/-- One turn of the loop of `shipgate_process_pkt`. -/
def processOne (handle : Handler H) (s : Session H) (d : List UInt8) :
    Turn (Session H) UInt8 (List UInt8) :=
  if d.length < 8 then .wait s
  else
    let s := readHeader s d
    let size := paddedSize 8 (pktLen s.pkt)
    if size ≤ d.length then processPkt handle s size d else .wait s

/-- The end of the loop: what is left is kept for the next call. -/
def leftover (r : Recv) (o : Outcome (Session H) UInt8 (List UInt8)) :
    List (List UInt8) × Conn H × Int :=
  if o.halted then (o.outs, o.state.conn [], o.state.rv)
  else if o.rest ≠ [] ∧ r.allocated = false then (o.outs, o.state.conn [], -1)
  else (o.outs, o.state.conn o.rest, 0)

/-- The packets handed to `handle_pkt`, the connection and the result, if the loop ends within `n`
turns. -/
def shipgateProcessPkt (handle : Handler H) (n : ℕ) (c : Conn H) (r : Recv) :
    Option (List (List UInt8) × Conn H × Int) :=
  if r.chunk = [] then some ([], c, -1)
  else (pass (processOne handle) n c.session (c.recvbuf ++ r.chunk)).map (leftover r)

/-- What has come from the shipgate since the connection began, and what has become of it. -/
structure Progress (H : Type*) where
  stream : List UInt8
  handed : List (List UInt8)
  conn : Conn H
  rv : Int

def Progress.start (c : Conn H) : Progress H :=
  { stream := [], handed := [], conn := c, rv := 0 }

/-- The ship calls `shipgate_process_pkt` until a call fails; what is received has room in what
the buffer of 64 KiB does not hold yet. -/
def Receives (handle : Handler H) (p : Progress H) (r : Recv) (q : Progress H) : Prop :=
  p.rv = 0 ∧ r.chunk.length ≤ 65536 - p.conn.recvbuf.length ∧
    ∃ n ps c rv, shipgateProcessPkt handle n p.conn r = some (ps, c, rv) ∧
      q = { stream := p.stream ++ r.chunk, handed := p.handed ++ ps, conn := c, rv := rv }

/-- A connection that has just been made. -/
def Conn.Fresh (c : Conn H) : Prop :=
  c.hdrRead = false ∧ c.recvbuf = []

/-- The places in what it has at hand that the loop of a call comes to. -/
def ComesTo (handle : Handler H) (c : Conn H) (r : Recv) (t : Session H) (f : List UInt8) : Prop :=
  r.chunk ≠ [] ∧ Reaches (processOne handle) c.session (c.recvbuf ++ r.chunk) t f

/-- The parts of the buffer, from an offset to another, that a call reads or writes. -/
inductive Touches (handle : Handler H) (c : Conn H) (r : Recv) : ℕ → ℕ → Prop where
  | kept : Touches handle c r 0 c.recvbuf.length
  | recv : Touches handle c r c.recvbuf.length (c.recvbuf.length + (65536 - c.recvbuf.length))
  | header {t : Session H} {f : List UInt8} (comes : ComesTo handle c r t f) (long : 8 ≤ f.length)
      (offset : ℕ) (at_ : offset + f.length = (c.recvbuf ++ r.chunk).length) :
      Touches handle c r offset (offset + 8)
  | packet {t : Session H} {f : List UInt8}
      (comes : ComesTo handle c r t f) (long : 8 ≤ f.length)
      (fits : paddedSize 8 (pktLen (readHeader t f).pkt) ≤ f.length)
      (offset : ℕ) (at_ : offset + f.length = (c.recvbuf ++ r.chunk).length) :
      Touches handle c r offset (offset + paddedSize 8 (pktLen (readHeader t f).pkt))
  | rest {t t' : Session H} {f : List UInt8} (comes : ComesTo handle c r t f)
      (waits : processOne handle t f = .wait t')
      (offset : ℕ) (at_ : offset + f.length = (c.recvbuf ++ r.chunk).length) :
      Touches handle c r offset (offset + f.length)

/-- A call ends, takes at least a header for each packet, and stays within its buffer. -/
structure Orderly (handle : Handler H) (c : Conn H) (r : Recv) : Prop where
  ends : ∃ n out, shipgateProcessPkt handle n c r = some out
  takes : ∀ t f t' b rest, ComesTo handle c r t f → processOne handle t f = .emit t' b rest →
    rest.length + 8 ≤ f.length
  gotBuf : r.gotBuf = true
  within : ∀ i j, Touches handle c r i j → j ≤ 65536
  inside : ∀ t f, ComesTo handle c r t f → f <:+ c.recvbuf ++ r.chunk

/-- No packet that is handled without an error has the length zero in its header, or one so great
that it is rounded up to zero. -/
def Advancing (handle : Handler H) (c : Conn H) (r : Recv) : Prop :=
  ∀ t f, ComesTo handle c r t f → 8 ≤ f.length →
    pktLen (readHeader t f).pkt = 0 ∨ 65528 < pktLen (readHeader t f).pkt →
    (handle t.host (readHeader t f).pkt).2 ≠ 0

theorem pktLen_lt (pkt : List UInt8) : pktLen pkt < 65536 := by
  have hhigh := (pkt.getD 0 0).toNat_lt
  have hlow := (pkt.getD 1 0).toNat_lt
  unfold pktLen
  omega

theorem paddedSize_eight (len : ℕ) :
    paddedSize 8 len = if len % 8 = 0 then len else (len / 8 % 8192 * 8 + 8) % 0x10000 :=
  paddedSize_pow (n := 3) (by omega)

theorem paddedSize_spec {len : ℕ} (hlen : len < 65536) :
    paddedSize 8 len ≤ 65528 ∧ (paddedSize 8 len < 8 ↔ len = 0 ∨ 65528 < len) ∧
      (paddedSize 8 len < 8 → paddedSize 8 len = 0) := by
  rw [paddedSize_eight]
  split_ifs <;> omega

theorem readHeader_append (s : Session H) {d : List UInt8} (hd : 8 ≤ d.length) (e : List UInt8) :
    readHeader s (d ++ e) = readHeader s d := by
  rw [readHeader, readHeader, List.take_append_of_le_length hd]

theorem readHeader_hdrRead (s : Session H) (d : List UInt8) :
    (readHeader s d).hdrRead = true := by
  rw [readHeader]
  split_ifs with h
  · exact h
  · rfl

theorem readHeader_again (s : Session H) (d f : List UInt8) :
    readHeader (readHeader s d) f = readHeader s d := by
  rw [readHeader, if_pos (readHeader_hdrRead s d)]

theorem readHeader_host (s : Session H) (d : List UInt8) : (readHeader s d).host = s.host := by
  rw [readHeader]
  split_ifs <;> rfl

theorem readHeader_rv (s : Session H) (d : List UInt8) : (readHeader s d).rv = s.rv := by
  rw [readHeader]
  split_ifs <;> rfl

/-- The size of a packet that the header at hand tells. -/
def sizeAt (s : Session H) (d : List UInt8) : ℕ :=
  paddedSize 8 (pktLen (readHeader s d).pkt)

theorem sizeAt_append (s : Session H) {d : List UInt8} (hd : 8 ≤ d.length) (e : List UInt8) :
    sizeAt s (d ++ e) = sizeAt s d := by
  rw [sizeAt, sizeAt, readHeader_append s hd]

theorem sizeAt_le (s : Session H) (d : List UInt8) : sizeAt s d ≤ 65528 :=
  (paddedSize_spec (pktLen_lt _)).1

/-- All that one turn of the loop can do. -/
theorem processOne_cases (handle : Handler H) (s : Session H) (d : List UInt8) :
    (d.length < 8 ∧ processOne handle s d = .wait s) ∨
    (8 ≤ d.length ∧ sizeAt s d ≤ d.length ∧
      processOne handle s d = processPkt handle (readHeader s d) (sizeAt s d) d) ∨
    (8 ≤ d.length ∧ d.length < sizeAt s d ∧
      processOne handle s d = .wait (readHeader s d)) := by
  by_cases hshort : d.length < 8
  · exact Or.inl ⟨hshort, by rw [processOne, if_pos hshort]⟩
  · have heq : processOne handle s d =
        if sizeAt s d ≤ d.length then processPkt handle (readHeader s d) (sizeAt s d) d
        else .wait (readHeader s d) := by
      rw [processOne, if_neg hshort]
      rfl
    rw [heq]
    split_ifs with hfits
    · exact Or.inr (Or.inl ⟨not_lt.mp hshort, hfits, rfl⟩)
    · exact Or.inr (Or.inr ⟨not_lt.mp hshort, not_le.mp hfits, rfl⟩)

theorem wait_cases {handle : Handler H} {s s' : Session H} {d : List UInt8}
    (h : processOne handle s d = .wait s') :
    (d.length < 8 ∧ s' = s) ∨
      (8 ≤ d.length ∧ d.length < sizeAt s d ∧ s' = readHeader s d) := by
  rcases processOne_cases handle s d with ⟨hshort, heq⟩ | ⟨-, -, heq⟩ | ⟨hd, hshort, heq⟩
  · rw [heq] at h
    cases h
    exact Or.inl ⟨hshort, rfl⟩
  · rw [heq, processPkt] at h
    split_ifs at h
  · rw [heq] at h
    cases h
    exact Or.inr ⟨hd, hshort, rfl⟩

/-- The loop goes on after a packet that is handled without an error. -/
theorem emit_cases {handle : Handler H} {s s' : Session H} {d rest b : List UInt8}
    (h : processOne handle s d = .emit s' b rest) :
    8 ≤ d.length ∧ sizeAt s d ≤ d.length ∧ rest = d.drop (sizeAt s d) ∧ s'.rv = 0 ∧
      b = (readHeader s d).pkt ++ (d.take (sizeAt s d)).drop 8 ∧ (handle s.host b).2 = 0 := by
  rcases processOne_cases handle s d with ⟨-, heq⟩ | ⟨hd, hfits, heq⟩ | ⟨-, -, heq⟩
  · rw [heq] at h
    cases h
  · rw [heq, processPkt, readHeader_host] at h
    split_ifs at h with hrv
    cases h
    exact ⟨hd, hfits, rfl, rfl, rfl, hrv⟩
  · rw [heq] at h
    cases h

theorem halt_cases {handle : Handler H} {s s' : Session H} {d rest : List UInt8}
    {bs : List (List UInt8)} (h : processOne handle s d = .halt s' bs rest) :
    8 ≤ d.length ∧ sizeAt s d ≤ d.length ∧ rest = d ∧ s'.rv ≠ 0 := by
  rcases processOne_cases handle s d with ⟨-, heq⟩ | ⟨hd, hfits, heq⟩ | ⟨-, -, heq⟩
  · rw [heq] at h
    cases h
  · rw [heq, processPkt] at h
    split_ifs at h with hrv
    cases h
    exact ⟨hd, hfits, rfl, hrv⟩
  · rw [heq] at h
    cases h

theorem processOne_append_packet (handle : Handler H) (s : Session H) {d : List UInt8}
    (hd : 8 ≤ d.length) (hfits : sizeAt s d ≤ d.length) (e : List UInt8) :
    processOne handle s (d ++ e) =
      processPkt handle (readHeader s d) (sizeAt s d) (d ++ e) := by
  have hlong : d.length ≤ (d ++ e).length := by
    rw [List.length_append]
    omega
  rcases processOne_cases handle s (d ++ e) with ⟨hshort, -⟩ | ⟨-, -, heq⟩ | ⟨-, hshort, -⟩
  · omega
  · rw [heq, readHeader_append s hd, sizeAt_append s hd]
  · rw [sizeAt_append s hd] at hshort
    omega

/-- What the loop has done does not depend on what comes later. -/
theorem processOne_resumable (handle : Handler H) : Resumable (processOne handle) where
  wait := by
    intro s s' d e h
    rcases wait_cases h with ⟨-, rfl⟩ | ⟨hd, -, rfl⟩
    · rfl
    · have hde : ¬(d ++ e).length < 8 := by
        rw [List.length_append]
        omega
      rw [processOne, processOne, if_neg hde, if_neg hde, readHeader_append s hd,
        readHeader_again]
  emit := by
    intro s s' d b rest e h
    obtain ⟨hd, hfits, -⟩ := emit_cases h
    have hde := processOne_append_packet handle s hd hfits e
    have hd' := processOne_append_packet handle s hd hfits []
    rw [List.append_nil] at hd'
    rw [hd', processPkt] at h
    rw [hde, processPkt, List.take_append_of_le_length hfits, List.drop_append_of_le_length hfits]
    split_ifs at h ⊢
    cases h
    rfl
  halt := by
    intro s s' d bs rest e h
    obtain ⟨hd, hfits, -⟩ := halt_cases h
    have hde := processOne_append_packet handle s hd hfits e
    have hd' := processOne_append_packet handle s hd hfits []
    rw [List.append_nil] at hd'
    rw [hd', processPkt] at h
    rw [hde, processPkt, List.take_append_of_le_length hfits]
    split_ifs at h ⊢
    cases h
    rfl

theorem rv_of_goes {handle : Handler H} {s : Session H} {d : List UInt8}
    {o : Outcome (Session H) UInt8 (List UInt8)} (h : Pass (processOne handle) s d o)
    (hs : s.rv = 0) (hgoes : o.halted = false) : o.state.rv = 0 := by
  induction h with
  | wait taken =>
    rcases wait_cases taken with ⟨-, rfl⟩ | ⟨-, -, rfl⟩
    · exact hs
    · rw [readHeader_rv]
      exact hs
  | emit taken _ ih => exact ih (emit_cases taken).2.2.2.1 hgoes
  | halt _ => cases hgoes

theorem rv_of_halts {handle : Handler H} {s : Session H} {d : List UInt8}
    {o : Outcome (Session H) UInt8 (List UInt8)} (h : Pass (processOne handle) s d o)
    (hhalts : o.halted = true) : o.state.rv ≠ 0 := by
  obtain ⟨t, f, -, ⟨hgoes, -⟩ | ⟨-, bs, htaken⟩⟩ := h.last
  · rw [hhalts] at hgoes
    cases hgoes
  · exact (halt_cases htaken).2.2.2

/-- What is left when the loop waits is too short to be a packet. -/
theorem rest_lt {handle : Handler H} {s : Session H} {d : List UInt8}
    {o : Outcome (Session H) UInt8 (List UInt8)} (h : Pass (processOne handle) s d o)
    (hgoes : o.halted = false) : o.rest.length < 65528 := by
  obtain ⟨t, f, -, ⟨-, htaken, hrest⟩ | ⟨hhalts, -⟩⟩ := h.last
  · rw [hrest]
    have hsize := sizeAt_le t f
    rcases wait_cases htaken with ⟨hshort, -⟩ | ⟨-, hshort, -⟩ <;> omega
  · rw [hgoes] at hhalts
    cases hhalts

theorem leftover_spec (r : Recv) (o : Outcome (Session H) UInt8 (List UInt8)) :
    (leftover r o).1 = o.outs ∧
      ((leftover r o).2.2 = 0 → o.halted = true ∧ o.state.rv = 0 ∨
        o.halted = false ∧ (leftover r o).2.1 = o.state.conn o.rest) := by
  rw [leftover]
  split_ifs with hhalts hlost
  · exact ⟨rfl, fun hrv => Or.inl ⟨hhalts, hrv⟩⟩
  · exact ⟨rfl, fun hrv => absurd hrv (show ¬(-1 : Int) = 0 by decide)⟩
  · exact ⟨rfl, fun _ => Or.inr ⟨Bool.eq_false_iff.mpr hhalts, rfl⟩⟩

/-- Where a connection is: the calls have done what one pass over the whole stream does. -/
structure Framed (handle : Handler H) (c₀ : Conn H) (p : Progress H)
    (o : Outcome (Session H) UInt8 (List UInt8)) : Prop where
  pass : Pass (processOne handle) c₀.session p.stream o
  handed : p.handed = o.outs
  goes : p.rv = 0 → o.halted = false ∧ p.conn = o.state.conn o.rest

theorem framed_start (handle : Handler H) {c₀ : Conn H} (hfresh : c₀.Fresh) :
    Framed handle c₀ (.start c₀) ⟨[], c₀.session, [], false⟩ := by
  refine ⟨.wait rfl, rfl, fun _ => ⟨rfl, ?_⟩⟩
  obtain ⟨pkt, hdrRead, host, recvbuf⟩ := c₀
  have hbuf : recvbuf = [] := hfresh.2
  rw [hbuf]
  rfl

theorem Framed.session {handle : Handler H} {c₀ : Conn H} {p : Progress H}
    {o : Outcome (Session H) UInt8 (List UInt8)} (h : Framed handle c₀ p o) (hrv : p.rv = 0) :
    p.conn.session = o.state ∧ p.conn.recvbuf = o.rest := by
  obtain ⟨hgoes, hconn⟩ := h.goes hrv
  have hzero := rv_of_goes h.pass rfl hgoes
  rw [hconn]
  refine ⟨?_, rfl⟩
  change { o.state with rv := 0 } = o.state
  rw [← hzero]

/-- A call goes on where the one before has stopped. -/
theorem Framed.call {handle : Handler H} {c₀ : Conn H} {p q : Progress H} {r : Recv}
    {o : Outcome (Session H) UInt8 (List UInt8)} (h : Framed handle c₀ p o)
    (htaken : Receives handle p r q) : ∃ o', Framed handle c₀ q o' := by
  obtain ⟨hrv, -, n, ps, c, rv, hcall, rfl⟩ := htaken
  obtain ⟨hgoes, -⟩ := h.goes hrv
  obtain ⟨hsession, hbuf⟩ := h.session hrv
  rw [shipgateProcessPkt] at hcall
  split_ifs at hcall with hnothing
  · cases hcall
    refine ⟨o, ?_, ?_, fun hrv => absurd hrv (show ¬(-1 : Int) = 0 by decide)⟩
    · change Pass _ _ (p.stream ++ r.chunk) o
      rw [hnothing, List.append_nil]
      exact h.pass
    · change p.handed ++ [] = o.outs
      rw [List.append_nil]
      exact h.handed
  · obtain ⟨o', ho', hleft⟩ := Option.map_eq_some_iff.mp hcall
    have hpass := pass_sound ho'
    rw [hsession, hbuf] at hpass
    obtain ⟨houts, hgo⟩ := leftover_spec r o'
    rw [hleft] at houts hgo
    refine ⟨o'.prepend o.outs, ?_, ?_, ?_⟩
    · exact h.pass.resume (processOne_resumable handle) hgoes hpass
    · change p.handed ++ ps = o.outs ++ o'.outs
      rw [h.handed, ← houts]
    · intro hzero
      rcases hgo hzero with ⟨hhalts, hzero'⟩ | hgo
      · exact absurd hzero' (rv_of_halts hpass hhalts)
      · exact hgo

theorem framed_run {handle : Handler H} {c₀ : Conn H} (hfresh : c₀.Fresh) {rs : List Recv}
    {p : Progress H} (hrun : Run (Receives handle) Always (.start c₀) rs p) :
    ∃ o, Framed handle c₀ p o := by
  have hstep : ∀ s r t, (∃ o, Framed handle c₀ s o) → Always s r → Receives handle s r t →
      ∃ o, Framed handle c₀ t o := by
    intro s r t hs _ htaken
    obtain ⟨o, ho⟩ := hs
    exact ho.call htaken
  exact hrun.invariant (fun p => ∃ o, Framed handle c₀ p o) ⟨_, framed_start handle hfresh⟩ hstep

/-- A packet takes its header at least if and only if its size is not zero. -/
theorem takes_iff {f : List UInt8} (t : Session H)
    (hfits : sizeAt t f ≤ f.length) :
    (f.drop (sizeAt t f)).length + 8 ≤ f.length ↔
      ¬(pktLen (readHeader t f).pkt = 0 ∨ 65528 < pktLen (readHeader t f).pkt) := by
  obtain ⟨-, hiff, -⟩ := paddedSize_spec (pktLen_lt (readHeader t f).pkt)
  change (sizeAt t f < 8 ↔ _) at hiff
  rw [← hiff, List.length_drop]
  omega

theorem Advancing.takes {handle : Handler H} {c : Conn H} {r : Recv} (h : Advancing handle c r)
    {t t' : Session H} {f b rest : List UInt8} (hcomes : ComesTo handle c r t f)
    (htaken : processOne handle t f = .emit t' b rest) : rest.length + 8 ≤ f.length := by
  obtain ⟨hf, hfits, hrest, -, hb, hrv⟩ := emit_cases htaken
  rw [hrest]
  refine (takes_iff t hfits).mpr fun hempty => ?_
  have hsize : sizeAt t f = 0 := by
    obtain ⟨-, hiff, hzero⟩ := paddedSize_spec (pktLen_lt (readHeader t f).pkt)
    exact hzero (hiff.mpr hempty)
  rw [hb, hsize, List.take_zero, List.drop_nil, List.append_nil] at hrv
  exact h t f hcomes hf hempty hrv

theorem Advancing.ends {handle : Handler H} {c : Conn H} {r : Recv} (h : Advancing handle c r) :
    ∃ n out, shipgateProcessPkt handle n c r = some out := by
  by_cases hnothing : r.chunk = []
  · exact ⟨0, _, by rw [shipgateProcessPkt, if_pos hnothing]⟩
  · have hshort : ∀ t f, Reaches (processOne handle) c.session (c.recvbuf ++ r.chunk) t f →
        ∀ t' b rest, processOne handle t f = .emit t' b rest → rest.length < f.length := by
      intro t f hreach t' b rest htaken
      have htakes := h.takes ⟨hnothing, hreach⟩ htaken
      omega
    obtain ⟨o, ho⟩ := pass_total hshort (Nat.lt_succ_self _)
    refine ⟨(c.recvbuf ++ r.chunk).length + 1, leftover r o, ?_⟩
    rw [shipgateProcessPkt, if_neg hnothing, ho]
    rfl

/-- A packet that takes nothing is met with if and only if a call is not orderly. -/
theorem advancing_of_takes {handle : Handler H} {c : Conn H} {r : Recv}
    (h : ∀ t f t' b rest, ComesTo handle c r t f → processOne handle t f = .emit t' b rest →
      rest.length + 8 ≤ f.length) : Advancing handle c r := by
  intro t f hcomes hf hempty hrv
  obtain ⟨-, hiff, hzero⟩ := paddedSize_spec (pktLen_lt (readHeader t f).pkt)
  have hsize : sizeAt t f = 0 := hzero (hiff.mpr hempty)
  have hfits : sizeAt t f ≤ f.length := by omega
  rcases processOne_cases handle t f with ⟨hshort, -⟩ | ⟨-, -, heq⟩ | ⟨-, hlong, -⟩
  · omega
  · rw [processPkt, hsize, List.take_zero, List.drop_nil, List.append_nil, readHeader_host,
      if_pos hrv] at heq
    have htakes := h t f _ _ _ hcomes heq
    rw [List.drop_zero] at htakes
    omega
  · omega

/-- No part that a call touches is outside the buffer. -/
theorem Touches.within {handle : Handler H} {c : Conn H} {r : Recv} {i j : ℕ}
    (h : Touches handle c r i j) (hbuf : c.recvbuf.length ≤ 65536)
    (hroom : r.chunk.length ≤ 65536 - c.recvbuf.length) : j ≤ 65536 := by
  have hall : (c.recvbuf ++ r.chunk).length ≤ 65536 := by
    rw [List.length_append]
    omega
  cases h with
  | kept => exact hbuf
  | recv => omega
  | header comes long offset at_ => omega
  | packet comes long fits offset at_ => omega
  | rest comes waits offset at_ => omega

/-- Every place that a call comes to is an end of what is in the buffer. -/
theorem ComesTo.suffix {handle : Handler H} {c : Conn H} {r : Recv} {t : Session H}
    {f : List UInt8} (h : ComesTo handle c r t f) : f <:+ c.recvbuf ++ r.chunk := by
  refine h.2.invariant (fun _ f => f <:+ c.recvbuf ++ r.chunk) List.suffix_rfl ?_
  intro s d s' b rest hd htaken
  rw [(emit_cases htaken).2.2.1]
  exact (List.drop_suffix _ _).trans hd

/-- Whatever the chunks that a stream comes in, `shipgate_process_pkt` hands over the packets that
one pass over the stream yields. The next call ends, and takes a header at least for each packet,
if and only if no packet is handled whose length is zero or rounded up to zero. -/
theorem shipgate_framed {handle : Handler H} {c₀ : Conn H} (hfresh : c₀.Fresh) {rs : List Recv}
    {p : Progress H} (hrun : Run (Receives handle) Always (.start c₀) rs p) :
    (∃ n o, pass (processOne handle) n c₀.session p.stream = some o ∧ p.handed = o.outs ∧
      (p.rv = 0 → o.halted = false ∧ p.conn = o.state.conn o.rest ∧
        p.conn.recvbuf.length < 65528)) ∧
    (p.rv = 0 → ∀ r : Recv, r.chunk.length ≤ 65536 - p.conn.recvbuf.length →
      (Orderly handle p.conn r ↔ r.gotBuf = true ∧ Advancing handle p.conn r)) := by
  obtain ⟨o, ho⟩ := framed_run hfresh hrun
  have hkept : p.rv = 0 → p.conn.recvbuf.length < 65528 := by
    intro hrv
    rw [(ho.session hrv).2]
    exact rest_lt ho.pass (ho.goes hrv).1
  constructor
  · obtain ⟨n, hn⟩ := ho.pass.complete
    refine ⟨n, o, hn, ho.handed, fun hrv => ?_⟩
    obtain ⟨hgoes, hconn⟩ := ho.goes hrv
    exact ⟨hgoes, hconn, hkept hrv⟩
  · intro hrv r hroom
    have hbuf := hkept hrv
    constructor
    · intro horderly
      exact ⟨horderly.gotBuf, advancing_of_takes horderly.takes⟩
    · rintro ⟨hgot, hadvancing⟩
      constructor
      · exact hadvancing.ends
      · exact fun t f t' b rest hcomes htaken => hadvancing.takes hcomes htaken
      · exact hgot
      · exact fun i j htouches => htouches.within (by omega) hroom
      · exact fun t f hcomes => hcomes.suffix

/-- A ship that takes every packet. -/
def accepting : Handler Unit :=
  fun u _ => (u, 0)

def newConn : Conn Unit :=
  { pkt := [], hdrRead := false, host := (), recvbuf := [] }

/-- A packet that arrives in two chunks: eleven bytes, padded to sixteen. -/
theorem shipgate_framed_chunks :
    ∃ n o, pass (processOne accepting) n newConn.session
        ([0, 11, 0, 1, 0, 0] ++ [0, 0, 1, 2, 3, 0, 0, 0, 0, 0]) = some o ∧
      [[0, 11, 0, 1, 0, 0, 0, 0, 1, 2, 3, 0, 0, 0, 0, 0]] = o.outs := by
  have hrun : Run (Receives accepting) Always (.start newConn)
      [⟨true, [0, 11, 0, 1, 0, 0], true⟩, ⟨true, [0, 0, 1, 2, 3, 0, 0, 0, 0, 0], true⟩]
      { stream := [0, 11, 0, 1, 0, 0] ++ [0, 0, 1, 2, 3, 0, 0, 0, 0, 0]
        handed := [[0, 11, 0, 1, 0, 0, 0, 0, 1, 2, 3, 0, 0, 0, 0, 0]]
        conn := { pkt := [0, 11, 0, 1, 0, 0, 0, 0], hdrRead := false, host := (), recvbuf := [] }
        rv := 0 } :=
    .move trivial ⟨rfl, by decide, 1, _, _, _, rfl, rfl⟩
      (.move trivial ⟨rfl, by decide, 2, _, _, _, rfl, rfl⟩ (.stop _))
  have hfresh : newConn.Fresh := ⟨rfl, rfl⟩
  obtain ⟨⟨n, o, hpass, hhanded, -⟩, -⟩ := shipgate_framed hfresh hrun
  exact ⟨n, o, hpass, hhanded⟩

/-- A call that gets a header with the length zero does not end. -/
theorem shipgate_not_orderly :
    ¬ ∀ r : Recv, r.gotBuf = true → r.chunk.length ≤ 65536 - newConn.recvbuf.length →
      Orderly accepting newConn r := by
  intro h
  obtain ⟨n, out, hends⟩ := (h ⟨true, List.replicate 8 0, true⟩ rfl (by decide)).ends
  have hnever : ∀ n, pass (processOne accepting) n newConn.session (List.replicate 8 0) = none := by
    intro n
    have hloop : ∀ m, pass (processOne accepting) m ⟨List.replicate 8 0, false, (), 0⟩
        (List.replicate 8 0) = none :=
      pass_eq_none_of_loop rfl
    cases n with
    | zero => rfl
    | succ n => exact congrArg (Option.map (Outcome.prepend [List.replicate 8 0])) (hloop n)
  change (pass (processOne accepting) n newConn.session (List.replicate 8 0)).map _ = _ at hends
  rw [hnever n] at hends
  cases hends

end ShipServer.ShipgateFraming
