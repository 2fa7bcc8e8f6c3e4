import ShipServer.PacketFraming

set_option autoImplicit false

namespace ShipServer.ClientProgress

open IncrementalParsing LabelledRuns Versions PacketFraming

variable {σ H : Type*}

/-- The packets handed to the handlers, the client and the result of a call, if the loop ends
within `n` turns. -/
def processWithin (k : Link σ H) (n : ℕ) (c : Client σ H) (r : Recv) :
    Option (List (List UInt8) × Client σ H × Int) :=
  if r.gotBuf = false ∨ r.chunk = [] then some ([], c, -1)
  else (pass (processOne k) n c.session (c.recvbuf ++ r.chunk)).map (leftover r)

/-- The ship calls `client_process_pkt` until a call fails. -/
def Calls (k : Link σ H) (p : Client σ H × Int) (r : Recv) (q : Client σ H × Int) : Prop :=
  p.2 = 0 ∧ r.chunk.length ≤ 65536 - p.1.recvbuf.length ∧
    ∃ n ps, processWithin k n p.1 r = some (ps, q)

/-- The places in the received bytes that the loop of a call comes to. -/
def ComesTo (k : Link σ H) (c : Client σ H) (r : Recv) (t : Session σ H) (f : List UInt8) :
    Prop :=
  r.gotBuf = true ∧ r.chunk ≠ [] ∧
    Reaches (processOne k) c.session (c.recvbuf ++ r.chunk) t f

/-- What an iteration may do: wait for more, stop with an error, or take bytes that are there. -/
def Moves (k : Link σ H) (f : List UInt8) : Turn (Session σ H) UInt8 (List UInt8) → Prop
  | .wait _ => True
  | .emit _ _ rest =>
    ∃ size, k.hdrSize ≤ size ∧ size ≤ 65536 ∧ size ≤ f.length ∧ rest = f.drop size
  | .halt s _ _ => s.rv ≠ 0

/-- The offsets and lengths, as the code computes them, of what a call decrypts, copies or hands
to a handler. -/
inductive Uses (k : Link σ H) (c : Client σ H) (r : Recv) : ℕ → ℤ → Prop where
  | kept : Uses k c r 0 c.recvbuf.length
  | header {t : Session σ H} {f : List UInt8} (comes : ComesTo k c r t f)
      (long : k.hdrSize ≤ f.length) (offset : ℕ)
      (at_ : offset + f.length = (c.recvbuf ++ r.chunk).length) :
      Uses k c r offset k.hdrSize
  | body {t : Session σ H} {f : List UInt8} (comes : ComesTo k c r t f)
      (long : k.hdrSize ≤ f.length) (valid : k.hdrSize ≤ lengthAt k t f)
      (fits : paddedSize k.hdrSize (lengthAt k t f) ≤ f.length) (offset : ℕ)
      (at_ : offset + f.length = (c.recvbuf ++ r.chunk).length) :
      Uses k c r (offset + k.hdrSize) (paddedSize k.hdrSize (lengthAt k t f) - k.hdrSize)
  | packet {t : Session σ H} {f : List UInt8} (comes : ComesTo k c r t f)
      (long : k.hdrSize ≤ f.length) (valid : k.hdrSize ≤ lengthAt k t f)
      (fits : paddedSize k.hdrSize (lengthAt k t f) ≤ f.length) (offset : ℕ)
      (at_ : offset + f.length = (c.recvbuf ++ r.chunk).length) :
      Uses k c r offset (lengthAt k t f)
  | rest {t t' : Session σ H} {f : List UInt8} (comes : ComesTo k c r t f)
      (waits : processOne k t f = .wait t') (offset : ℕ)
      (at_ : offset + f.length = (c.recvbuf ++ r.chunk).length) :
      Uses k c r offset f.length

/-- A call ends, each of its iterations makes progress, and all that it uses is part of the bytes
that have been received, which the buffer of 64 KiB holds. -/
structure Orderly (k : Link σ H) (c : Client σ H) (r : Recv) : Prop where
  ends : ∃ n out, processWithin k n c r = some out
  moves : ∀ t f, ComesTo k c r t f → Moves k f (processOne k t f)
  inside : ∀ i n, Uses k c r i n → 0 ≤ n ∧ i + n ≤ (c.recvbuf ++ r.chunk).length
  holds : (c.recvbuf ++ r.chunk).length ≤ 65536

/-- No header that the loop comes to tells a length that is rounded up to 65536. -/
def Unwrapped (k : Link σ H) (c : Client σ H) (r : Recv) : Prop :=
  ∀ t f, ComesTo k c r t f → k.hdrSize ≤ f.length → lengthAt k t f ≤ 65536 - k.hdrSize

theorem pktLen_lt (v : ClientVersion) (pkt : List UInt8) : pktLen v pkt < 65536 := by
  have hle : ∀ i, le16 pkt i < 65536 := by
    intro i
    have hlow := (pkt.getD i 0).toNat_lt
    have hhigh := (pkt.getD (i + 1) 0).toNat_lt
    unfold le16
    omega
  cases v <;> exact hle _

/-- The rounding of a length: up to the next multiple, or to zero for the last few lengths. -/
theorem paddedSize_cases {k : Link σ H} (hk : k.HdrSized) {len : ℕ} (hlen : len < 65536) :
    (len ≤ 65536 - k.hdrSize ∧ len ≤ paddedSize k.hdrSize len ∧
        paddedSize k.hdrSize len < 65536) ∨
      (65536 - k.hdrSize < len ∧ paddedSize k.hdrSize len = 0) := by
  rcases hk with hk | hk
  · have h : paddedSize 4 len =
        if len % 4 = 0 then len else (len / 4 % 16384 * 4 + 4) % 0x10000 :=
      paddedSize_pow (n := 2) (by omega)
    rw [hk, h]
    split_ifs <;> omega
  · have h : paddedSize 8 len =
        if len % 8 = 0 then len else (len / 8 % 8192 * 8 + 8) % 0x10000 :=
      paddedSize_pow (n := 3) (by omega)
    rw [hk, h]
    split_ifs <;> omega

theorem sizeAt_cases {k : Link σ H} (hk : k.HdrSized) (t : Session σ H) (f : List UInt8) :
    (lengthAt k t f ≤ 65536 - k.hdrSize ∧ lengthAt k t f ≤ paddedSize k.hdrSize (lengthAt k t f) ∧
        paddedSize k.hdrSize (lengthAt k t f) < 65536) ∨
      (65536 - k.hdrSize < lengthAt k t f ∧ paddedSize k.hdrSize (lengthAt k t f) = 0) :=
  paddedSize_cases hk (pktLen_lt _ _)

/-- Whatever the length, an iteration goes on behind the bytes that it takes. -/
theorem emit_drop {k : Link σ H} {s s' : Session σ H} {d rest b : List UInt8}
    (h : processOne k s d = .emit s' b rest) :
    k.hdrSize ≤ d.length ∧ k.hdrSize ≤ lengthAt k s d ∧
      paddedSize k.hdrSize (lengthAt k s d) ≤ d.length ∧
      rest = d.drop (paddedSize k.hdrSize (lengthAt k s d)) := by
  rcases processOne_cases k s d with
    ⟨-, heq⟩ | ⟨-, -, heq⟩ | ⟨hd, hlen, hfits, heq⟩ | ⟨-, -, -, heq⟩
  · rw [heq] at h
    cases h
  · rw [heq] at h
    cases h
  · rw [heq, processPkt] at h
    dsimp only at h
    split_ifs at h
    cases h
    exact ⟨hd, hlen, hfits, rfl⟩
  · rw [heq] at h
    cases h

/-- The loop stops only with an error. -/
theorem halt_rv {k : Link σ H} {s s' : Session σ H} {d rest : List UInt8}
    {bs : List (List UInt8)} (h : processOne k s d = .halt s' bs rest) : s'.rv ≠ 0 := by
  rcases processOne_cases k s d with
    ⟨-, heq⟩ | ⟨-, -, heq⟩ | ⟨-, -, -, heq⟩ | ⟨-, -, -, heq⟩
  · rw [heq] at h
    cases h
  · rw [heq] at h
    cases h
    exact show (-1 : Int) ≠ 0 by decide
  · rw [heq, processPkt] at h
    dsimp only at h
    split_ifs at h with hrv
    cases h
    exact hrv
  · rw [heq] at h
    cases h

/-- Every place that a call comes to is an end of the received bytes. -/
theorem ComesTo.suffix {k : Link σ H} {c : Client σ H} {r : Recv} {t : Session σ H}
    {f : List UInt8} (h : ComesTo k c r t f) : f <:+ c.recvbuf ++ r.chunk := by
  refine h.2.2.invariant (fun _ f => f <:+ c.recvbuf ++ r.chunk) List.suffix_rfl ?_
  intro s d s' b rest hd htaken
  rw [(emit_drop htaken).2.2.2]
  exact (List.drop_suffix _ _).trans hd

theorem Unwrapped.moves {k : Link σ H} {c : Client σ H} {r : Recv} (hk : k.HdrSized)
    (h : Unwrapped k c r) {t : Session σ H} {f : List UInt8} (hcomes : ComesTo k c r t f) :
    Moves k f (processOne k t f) := by
  cases hturn : processOne k t f with
  | wait t' => trivial
  | emit t' b rest =>
    obtain ⟨hf, hlen, hfits, hrest⟩ := emit_drop hturn
    have hgood := h t f hcomes hf
    rcases sizeAt_cases hk t f with ⟨-, hle, hlt⟩ | ⟨hwraps, -⟩
    · exact ⟨_, hlen.trans hle, hlt.le, hfits, hrest⟩
    · omega
  | halt t' bs rest => exact halt_rv hturn

theorem Unwrapped.ends {k : Link σ H} {c : Client σ H} {r : Recv} (hk : k.HdrSized)
    (h : Unwrapped k c r) : ∃ n out, processWithin k n c r = some out := by
  by_cases hnothing : r.gotBuf = false ∨ r.chunk = []
  · exact ⟨0, _, by rw [processWithin, if_pos hnothing]⟩
  · have hcalled := hnothing
    rw [not_or, Bool.not_eq_false] at hcalled
    have hshort : ∀ t f, Reaches (processOne k) c.session (c.recvbuf ++ r.chunk) t f →
        ∀ t' b rest, processOne k t f = .emit t' b rest → rest.length < f.length := by
      intro t f hreach t' b rest htaken
      have hmoves := h.moves hk ⟨hcalled.1, hcalled.2, hreach⟩
      rw [htaken] at hmoves
      obtain ⟨size, hhdr, -, hsize, hrest⟩ := hmoves
      have hpos : 0 < k.hdrSize := by
        rcases hk with hk | hk <;> omega
      rw [hrest, List.length_drop]
      omega
    obtain ⟨o, ho⟩ := pass_total hshort (Nat.lt_succ_self _)
    refine ⟨(c.recvbuf ++ r.chunk).length + 1, leftover r o, ?_⟩
    rw [processWithin, if_neg hnothing, ho]
    rfl

theorem Unwrapped.inside {k : Link σ H} {c : Client σ H} {r : Recv} (hk : k.HdrSized)
    (h : Unwrapped k c r) {i : ℕ} {n : ℤ} (huses : Uses k c r i n) :
    0 ≤ n ∧ i + n ≤ (c.recvbuf ++ r.chunk).length := by
  cases huses with
  | kept =>
    rw [List.length_append]
    omega
  | header comes long offset at_ => omega
  | @body t f comes long valid fits offset at_ =>
    have hgood := h t f comes long
    rcases sizeAt_cases hk t f with ⟨-, hle, -⟩ | ⟨hwraps, -⟩
    · push_cast
      omega
    · omega
  | @packet t f comes long valid fits offset at_ =>
    have hgood := h t f comes long
    rcases sizeAt_cases hk t f with ⟨-, hle, -⟩ | ⟨hwraps, -⟩
    · omega
    · omega
  | rest comes waits offset at_ => omega

/-- A length that is rounded to zero makes the loop decrypt a negative number of bytes. -/
theorem unwrapped_of_inside {k : Link σ H} {c : Client σ H} {r : Recv} (hk : k.HdrSized)
    (h : ∀ i n, Uses k c r i n → 0 ≤ n ∧ i + n ≤ (c.recvbuf ++ r.chunk).length) :
    Unwrapped k c r := by
  intro t f hcomes hf
  rcases sizeAt_cases hk t f with ⟨hgood, -⟩ | ⟨hwraps, hzero⟩
  · exact hgood
  · have hlen : f.length ≤ (c.recvbuf ++ r.chunk).length := hcomes.suffix.length_le
    have hvalid : k.hdrSize ≤ lengthAt k t f := by
      rcases hk with hk | hk <;> omega
    have hneg := (h _ _ (.body hcomes hf hvalid (by omega)
      ((c.recvbuf ++ r.chunk).length - f.length) (by omega))).1
    rcases hk with hk | hk <;> omega

/-- What a call leaves for the next one is shorter than a packet can be. -/
theorem leftover_lt {k : Link σ H} (hk : k.HdrSized) {s : Session σ H} {d : List UInt8}
    {o : Outcome (Session σ H) UInt8 (List UInt8)} (h : Pass (processOne k) s d o) (r : Recv) :
    (leftover r o).2.1.recvbuf.length < 65536 := by
  rw [leftover]
  split_ifs with hhalts hlost
  · exact Nat.zero_lt_succ _
  · exact Nat.zero_lt_succ _
  · obtain ⟨t, f, -, ⟨-, htaken, hrest⟩ | ⟨hhalts', -⟩⟩ := h.last
    · change o.rest.length < 65536
      rw [hrest]
      rcases wait_cases htaken with ⟨hshort, -⟩ | ⟨-, hshort, -⟩
      · rcases hk with hk | hk <;> omega
      · rcases sizeAt_cases hk t f with ⟨-, -, hlt⟩ | ⟨-, hzero⟩ <;> omega
    · exact absurd hhalts' hhalts

theorem Calls.recvbuf_lt {k : Link σ H} (hk : k.HdrSized) {p q : Client σ H × Int} {r : Recv}
    (h : Calls k p r q) (hp : p.1.recvbuf.length < 65536) : q.1.recvbuf.length < 65536 := by
  obtain ⟨-, -, n, ps, hcall⟩ := h
  rw [processWithin] at hcall
  split_ifs at hcall with hnothing
  · cases hcall
    exact hp
  · obtain ⟨o, ho, hleft⟩ := Option.map_eq_some_iff.mp hcall
    have hlt := leftover_lt hk (pass_sound ho) r
    rw [hleft] at hlt
    exact hlt

/-- After any calls, the next call is orderly if and only if no header that it comes to tells a
length above the greatest multiple of the header size. -/
theorem client_progress {k : Link σ H} (hk : k.HdrSized) {c₀ : Client σ H} (hfresh : c₀.Fresh)
    {rs : List Recv} {p : Client σ H × Int} (hrun : Run (Calls k) Always (c₀, 0) rs p) (r : Recv)
    (hroom : r.chunk.length ≤ 65536 - p.1.recvbuf.length) :
    Orderly k p.1 r ↔ Unwrapped k p.1 r := by
  have hbuf : p.1.recvbuf.length < 65536 := by
    refine hrun.invariant (fun p => p.1.recvbuf.length < 65536) ?_ ?_
    · change c₀.recvbuf.length < 65536
      rw [hfresh.2]
      exact Nat.zero_lt_succ _
    · intro p r q hp _ htaken
      exact htaken.recvbuf_lt hk hp
  constructor
  · intro horderly
    exact unwrapped_of_inside hk horderly.inside
  · intro hunwrapped
    constructor
    · exact hunwrapped.ends hk
    · exact fun t f hcomes => hunwrapped.moves hk hcomes
    · exact fun i n huses => hunwrapped.inside hk huses
    · rw [List.length_append]
      omega

/-- A Dreamcast client on a line that is not encrypted. -/
def plainLink : Link Unit Unit :=
  { crypt := fun u bytes => (u, bytes)
    version := fun _ => .dcv2
    handle := fun u _ => (u, 0)
    hdrSize := 4 }

def plainClient : Client Unit Unit :=
  { ckey := (), pkt := [], hdrRead := false, host := (), recvbuf := [] }

/-- After a packet of eight bytes, a call that gets the first half of another one. -/
theorem client_progress_second :
    Orderly plainLink { plainClient with pkt := [0x60, 0, 8, 0] }
      ⟨true, [0x60, 0, 8, 0], true⟩ := by
  have hrun : Run (Calls plainLink) Always (plainClient, 0)
      [⟨true, [0x60, 0, 8, 0, 1, 2, 3, 4], true⟩]
      ({ plainClient with pkt := [0x60, 0, 8, 0] }, 0) :=
    .move trivial ⟨rfl, by decide, 2, _, rfl⟩ (.stop _)
  have hfresh : plainClient.Fresh := ⟨rfl, rfl⟩
  have hunwrapped : Unwrapped plainLink { plainClient with pkt := [0x60, 0, 8, 0] }
      ⟨true, [0x60, 0, 8, 0], true⟩ := by
    intro t f hcomes _
    obtain ⟨-, -, hreach⟩ := hcomes
    cases hreach with
    | here _ _ => decide
    | emit taken _ => cases taken
  exact (client_progress (Or.inl rfl) hfresh hrun ⟨true, [0x60, 0, 8, 0], true⟩
    (by decide)).mpr hunwrapped

/-- A call that gets a header with the length 65533 does not end, and decrypts less than nothing
on the way. -/
theorem client_no_progress :
    ¬ Orderly plainLink plainClient ⟨true, [0x60, 0, 0xFD, 0xFF], true⟩ ∧
      ∀ n, processWithin plainLink n plainClient ⟨true, [0x60, 0, 0xFD, 0xFF], true⟩ = none := by
  have hloop : ∀ n, pass (processOne plainLink) n ⟨(), [0x60, 0, 0xFD, 0xFF], false, (), 0⟩
      [0x60, 0, 0xFD, 0xFF] = none :=
    pass_eq_none_of_loop rfl
  have hnever : ∀ n,
      processWithin plainLink n plainClient ⟨true, [0x60, 0, 0xFD, 0xFF], true⟩ = none := by
    intro n
    cases n with
    | zero => rfl
    | succ n =>
      have hfirst : pass (processOne plainLink) (n + 1) plainClient.session [0x60, 0, 0xFD, 0xFF] =
          none :=
        congrArg (Option.map (Outcome.prepend [[0x60, 0, 0xFD, 0xFF]])) (hloop n)
      exact congrArg (Option.map (leftover _)) hfirst
  refine ⟨?_, hnever⟩
  intro horderly
  obtain ⟨n, out, hends⟩ := horderly.ends
  rw [hnever n] at hends
  cases hends

end ShipServer.ClientProgress
