import ShipServer.LabelledRuns

set_option autoImplicit false

/-! The loops of `block_thd` and `ship_thd` as far as they deal with clients: who is pinged, whose
connection is closed, and when. -/

namespace ShipServer.ConnectionLoops

open LabelledRuns

/-- `sendbuf_start` and `sendbuf_cur`. -/
structure SendBuffer where
  start : ℕ
  cur : ℕ
  deriving DecidableEq

/-- What the loops use of a `ship_client_t`. The clients are numbered in the order in which they
connect. -/
structure Client where
  number : ℕ
  lastMessage : ℕ
  lastSent : ℕ
  joinTime : ℕ
  disconnected : Bool
  gcProtect : Bool
  sendbuf : SendBuffer
  deriving DecidableEq

/-- Whose loop it is. -/
inductive Thread where
  | ship
  | block
  deriving DecidableEq

/-- The seconds after which a client that has not been heard from is dead. -/
def Thread.deadAfter : Thread → ℕ
  | .ship => 120
  | .block => 90

/-- The seconds after which it is pinged. -/
def Thread.pingAfter : Thread → ℕ
  | .ship => 60
  | .block => 30

/-- A client as the first pass over the clients leaves it, whether it was pinged, and whether its
socket goes into the sets for `select`. -/
structure Watched where
  client : Client
  pinged : Bool
  selected : Bool

def Client.disconnect (c : Client) : Client :=
  { c with disconnected := true }

/-- The check of `CLIENT_FLAG_GC_PROTECT`, which only `block_thd` makes. -/
def checkProtect (t : Thread) (now : ℕ) (c : Client) (pinged : Bool) : Watched :=
  if t = .block ∧ c.gcProtect = true ∧ c.joinTime + 60 < now then
    { client := c.disconnect, pinged := pinged, selected := false }
  else { client := c, pinged := pinged, selected := true }

/-- The first pass for one client. `ping` tells what sending it a ping leaves in its buffer, if it
works. -/
def watch (t : Thread) (now : ℕ) (ping : ℕ → Option SendBuffer) (c : Client) : Watched :=
  if c.lastMessage + t.deadAfter < now then
    { client := c.disconnect, pinged := false, selected := false }
  else if c.lastMessage + t.pingAfter < now ∧ c.lastSent + 10 < now then
    match ping c.number with
    | none => { client := c.disconnect, pinged := false, selected := false }
    | some b => checkProtect t now { c with lastSent := now, sendbuf := b } true
  else checkProtect t now c false

/-- What the handlers of packets, or other threads, do to the clients of a list. -/
structure Marks where
  disconnect : ℕ → Bool
  gcProtect : ℕ → Option Bool
  joinTime : ℕ → Option ℕ
  sendbuf : ℕ → Option SendBuffer

def Marks.apply (m : Marks) (c : Client) : Client :=
  { c with
    disconnected := c.disconnected || m.disconnect c.number
    gcProtect := (m.gcProtect c.number).getD c.gcProtect
    joinTime := (m.joinTime c.number).getD c.joinTime
    sendbuf := (m.sendbuf c.number).getD c.sendbuf }

/-- A call of `client_process_pkt`: when the last whole packet was read, if one was. -/
structure Handled where
  failed : Bool
  heard : Option ℕ
  marks : Marks

/-- What `send` returns: an error other than `EAGAIN`, `EAGAIN`, or how much was sent. -/
inductive Sent where
  | failed
  | again
  | bytes (n : ℕ)

/-- A connection that was accepted and got a client. -/
structure Arrival where
  time : ℕ
  sendbuf : SendBuffer

/-- What happens after a `select` that finds something. -/
structure Ready where
  arrivals : List Arrival
  readable : ℕ → Bool
  handled : ℕ → Handled
  writable : ℕ → Bool
  sent : ℕ → Sent

/-- The surroundings of one turn of a loop. `closing` tells whether `shutdown_time` is set. -/
structure Turn where
  now : ℕ
  ping : ℕ → Option SendBuffer
  closing : Bool
  ready : Option Ready

/-- `client_create_connection`, and what `ship_thd` does to the client if the ship goes down. -/
def arrive (t : Thread) (closing : Bool) (number : ℕ) (a : Arrival) : Client where
  number := number
  lastMessage := a.time
  lastSent := 0
  joinTime := 0
  disconnected := t = .ship && closing
  gcProtect := false
  sendbuf := a.sendbuf

/-- The clients of a list that is made longer. -/
def arriveAll (t : Thread) (closing : Bool) (next : ℕ) : List Arrival → List Client
  | [] => []
  | a :: as => arrive t closing next a :: arriveAll t closing (next + 1) as

/-- A part of the second pass that deals with one client, among all. -/
def only (n : ℕ) (f : Client → Client) (c : Client) : Client :=
  if c.number = n then f c else c

def hear (heard : Option ℕ) (c : Client) : Client :=
  { c with lastMessage := heard.getD c.lastMessage }

/-- The end of the second pass: what is in the buffer is sent. -/
def flush (sent : Sent) (c : Client) : Client :=
  if c.sendbuf.cur = 0 then c
  else match sent with
    | .failed => c.disconnect
    | .again => c
    | .bytes n =>
      if c.sendbuf.start + n = c.sendbuf.cur then { c with sendbuf := ⟨0, 0⟩ }
      else { c with sendbuf := { c.sendbuf with start := c.sendbuf.start + n } }

/-- What the second pass does to the clients when it comes to the one with the number `n`; its
socket is in the sets `reads` and `writes` if the first pass put it there. -/
def serve (r : Ready) (reads writes : ℕ → Bool) (n : ℕ) (c : Client) : Client :=
  let written := if writes n && r.writable n then only n (flush (r.sent n)) else id
  if reads n && r.readable n then
    let c := (r.handled n).marks.apply (only n (hear (r.handled n).heard) c)
    if (r.handled n).failed then only n Client.disconnect c else written c
  else written c

/-- A connection that was closed in a turn. -/
structure Closed where
  client : Client
  now : ℕ
  deriving DecidableEq

/-- A loop: `clients`, `num_clients` and `now`, the number for the next client, and what has been
pinged and closed. -/
structure Loop where
  clients : List Client
  next : ℕ
  numClients : ℤ
  now : ℕ
  pings : List (ℕ × ℕ)
  closed : List Closed

/-- The sockets that the first pass puts into a set. -/
def inSet (ws : List Watched) (p : Watched → Bool) (n : ℕ) : Bool :=
  ws.any fun w => w.client.number == n && p w

def Loop.reads (ws : List Watched) : ℕ → Bool :=
  inSet ws fun w => w.selected

def Loop.writes (ws : List Watched) : ℕ → Bool :=
  inSet ws fun w => w.selected && w.client.sendbuf.cur != 0

/-- The second pass, over the clients that were there and those that have come. -/
def secondPass (t : Thread) (next : ℕ) (e : Turn) (ws : List Watched) : List Client :=
  match e.ready with
  | none => ws.map Watched.client
  | some r =>
    let cs := ws.map Watched.client ++ arriveAll t e.closing next r.arrivals
    (cs.map Client.number).foldl (fun cs n => cs.map (serve r (Loop.reads ws) (Loop.writes ws) n))
      cs

/-- How many connections a turn accepts. -/
def Turn.arrived (e : Turn) : ℕ :=
  match e.ready with
  | none => 0
  | some r => r.arrivals.length

/-- One turn of the loop of `block_thd`, or of `ship_thd`. -/
def turn (t : Thread) (s : Loop) (e : Turn) : Loop :=
  let ws := s.clients.map (watch t e.now e.ping)
  let cs := secondPass t s.next e ws
  { clients := cs.filter fun c => !c.disconnected
    next := s.next + e.arrived
    numClients := s.numClients + e.arrived - (cs.filter Client.disconnected).length
    now := e.now
    pings := s.pings ++ (ws.filter Watched.pinged).map fun w => (w.client.number, e.now)
    closed := s.closed ++ (cs.filter Client.disconnected).map fun c => ⟨c, e.now⟩ }

/-- A turn of the loop, or what another thread does between two turns. -/
inductive Event where
  | turn (e : Turn)
  | elsewhere (m : Marks)

def next (t : Thread) (s : Loop) : Event → Loop
  | .turn e => turn t s e
  | .elsewhere m => { s with clients := s.clients.map m.apply }

/-- A thread that begins at the time `now`. -/
def started (now : ℕ) : Loop where
  clients := []
  next := 0
  numClients := 0
  now := now
  pings := []
  closed := []

/-- The clock does not go back during a turn. -/
structure Turn.Timely (e : Turn) : Prop where
  arrivals : ∀ r, e.ready = some r → ∀ a ∈ r.arrivals, e.now ≤ a.time
  heard : ∀ r, e.ready = some r → ∀ n h, (r.handled n).heard = some h → e.now ≤ h

/-- The clock does not go back. -/
def InOrder (s : Loop) : Event → Prop
  | .turn e => s.now ≤ e.now ∧ e.Timely
  | .elsewhere _ => True

/-- No two turns are farther apart than a client may be silent after the time for a ping. -/
def Frequent (t : Thread) (s : Loop) : Event → Prop
  | .turn e => e.now + t.pingAfter ≤ s.now + t.deadAfter
  | .elsewhere _ => True

/-- The packets from and to the client `n` can be handled and sent, and nobody wants it gone. -/
def Reliable (n : ℕ) : Event → Prop
  | .turn e => e.ping n ≠ none ∧ ∀ r, e.ready = some r →
      (r.handled n).failed = false ∧ r.sent n ≠ .failed ∧
      ∀ m, (r.handled m).marks.disconnect n = false ∧ (r.handled m).marks.gcProtect n ≠ some true
  | .elsewhere m => m.disconnect n = false ∧ m.gcProtect n ≠ some true

/-- The client `n` has been heard from in time. -/
def InTime (t : Thread) (n : ℕ) (s : Loop) : Event → Prop
  | .turn e => ∀ c ∈ s.clients, c.number = n → e.now ≤ c.lastMessage + t.deadAfter
  | .elsewhere _ => True

section Served

/-- What the second pass and other threads may do to a client. -/
structure Served (now : ℕ) (c d : Client) : Prop where
  number : d.number = c.number
  lastSent : d.lastSent = c.lastSent
  lastMessage : d.lastMessage = c.lastMessage ∨ now ≤ d.lastMessage
  disconnected : c.disconnected = true → d.disconnected = true

variable {now : ℕ} {c d : Client}

theorem Served.refl (now : ℕ) (c : Client) : Served now c c :=
  ⟨rfl, rfl, .inl rfl, id⟩

theorem Served.trans {b : Client} (h : Served now b c) (h' : Served now c d) : Served now b d where
  number := h'.number.trans h.number
  lastSent := h'.lastSent.trans h.lastSent
  lastMessage := by
    rcases h'.lastMessage with heq | hle
    · rw [heq]
      exact h.lastMessage
    · exact .inr hle
  disconnected := fun hb => h'.disconnected (h.disconnected hb)

theorem served_disconnect (now : ℕ) (c : Client) : Served now c c.disconnect :=
  ⟨rfl, rfl, .inl rfl, fun _ => rfl⟩

theorem served_apply (now : ℕ) (m : Marks) (c : Client) : Served now c (m.apply c) where
  number := rfl
  lastSent := rfl
  lastMessage := .inl rfl
  disconnected := fun hc => by simp [Marks.apply, hc]

theorem served_hear {heard : Option ℕ} (h : ∀ a, heard = some a → now ≤ a) (c : Client) :
    Served now c (hear heard c) where
  number := rfl
  lastSent := rfl
  lastMessage := by
    cases heard with
    | none => exact .inl rfl
    | some a => exact .inr (h a rfl)
  disconnected := id

theorem served_flush (now : ℕ) (sent : Sent) (c : Client) : Served now c (flush sent c) := by
  unfold flush
  split
  · exact .refl now c
  · split
    · exact served_disconnect now c
    · exact .refl now c
    · split <;> exact ⟨rfl, rfl, .inl rfl, id⟩

theorem served_only {f : Client → Client} (n : ℕ) (h : ∀ c, Served now c (f c)) (c : Client) :
    Served now c (only n f c) := by
  unfold only
  split
  · exact h c
  · exact .refl now c

theorem served_serve {r : Ready} (h : ∀ n a, (r.handled n).heard = some a → now ≤ a)
    (reads writes : ℕ → Bool) (n : ℕ) (c : Client) : Served now c (serve r reads writes n c) := by
  have hwritten : ∀ d, Served now d
      ((if writes n && r.writable n then only n (flush (r.sent n)) else id) d) := by
    intro d
    split
    · exact served_only n (served_flush now (r.sent n)) d
    · exact .refl now d
  have hheard := (served_only n (served_hear (h n)) c).trans
    (served_apply now (r.handled n).marks (only n (hear (r.handled n).heard) c))
  unfold serve
  dsimp only
  split
  · split
    · exact hheard.trans (served_only n (served_disconnect now) _)
    · exact hheard.trans (hwritten _)
  · exact hwritten c

theorem serve_number (r : Ready) (reads writes : ℕ → Bool) (n : ℕ) (c : Client) :
    (serve r reads writes n c).number = c.number :=
  (show Served 0 c _ from served_serve (fun _ _ _ => Nat.zero_le _) reads writes n c).number

end Served

section Turn

variable {t : Thread} {s : Loop} {e : Turn}

/-- Passes that do something to each of the clients do something to each of the clients. -/
theorem foldl_map_related {R : Client → Client → Prop} (hrefl : ∀ c, R c c)
    (htrans : ∀ b c d, R b c → R c d → R b d) {f : ℕ → Client → Client} (hf : ∀ n c, R c (f n c))
    (ns : List ℕ) (cs : List Client) :
    ∃ g : Client → Client, (∀ c, R c (g c)) ∧
      ns.foldl (fun cs n => cs.map (f n)) cs = cs.map g := by
  induction ns generalizing cs with
  | nil => exact ⟨id, hrefl, (List.map_id cs).symm⟩
  | cons n ns ih =>
    obtain ⟨g, hg, heq⟩ := ih (cs.map (f n))
    refine ⟨g ∘ f n, fun c => htrans _ _ _ (hf n c) (hg (f n c)), ?_⟩
    rw [List.foldl_cons, heq, List.map_map]

/-- The clients that a turn accepts. -/
def Turn.newcomers (t : Thread) (next : ℕ) (e : Turn) : List Client :=
  match e.ready with
  | none => []
  | some r => arriveAll t e.closing next r.arrivals

theorem secondPass_related {R : Client → Client → Prop} (hrefl : ∀ c, R c c)
    (htrans : ∀ b c d, R b c → R c d → R b d)
    (hserve : ∀ r, e.ready = some r → ∀ reads writes n c, R c (serve r reads writes n c))
    (next : ℕ) (ws : List Watched) :
    ∃ g : Client → Client, (∀ c, R c (g c)) ∧
      secondPass t next e ws = (ws.map Watched.client ++ e.newcomers t next).map g := by
  unfold secondPass Turn.newcomers
  cases hr : e.ready with
  | none => exact ⟨id, hrefl, by simp⟩
  | some r => exact foldl_map_related hrefl htrans (hserve r hr _ _) _ _

theorem secondPass_served (he : e.Timely) (next : ℕ) (ws : List Watched) :
    ∃ g : Client → Client, (∀ c, Served e.now c (g c)) ∧
      secondPass t next e ws = (ws.map Watched.client ++ e.newcomers t next).map g :=
  secondPass_related (Served.refl e.now) (fun _ _ _ => Served.trans)
    (fun r hr => served_serve (he.heard r hr)) next ws

theorem arriveAll_length (closing : Bool) (next : ℕ) (as : List Arrival) :
    (arriveAll t closing next as).length = as.length := by
  induction as generalizing next with
  | nil => rfl
  | cons a as ih => simp [arriveAll, ih]

theorem newcomers_length (next : ℕ) : (e.newcomers t next).length = e.arrived := by
  unfold Turn.newcomers Turn.arrived
  split
  · rfl
  · exact arriveAll_length _ _ _

/-- What is known of a client when it comes. -/
structure Newcomer (e : Turn) (next : ℕ) (c : Client) : Prop where
  first : next ≤ c.number
  last : c.number < next + e.arrived
  heard : e.now ≤ c.lastMessage
  unsent : c.lastSent = 0

theorem arriveAll_mem {closing : Bool} {next : ℕ} {as : List Arrival} {c : Client}
    (hc : c ∈ arriveAll t closing next as) :
    next ≤ c.number ∧ c.number < next + as.length ∧ c.lastSent = 0 ∧
      ∃ a ∈ as, c.lastMessage = a.time := by
  induction as generalizing next with
  | nil => cases hc
  | cons a as ih =>
    rcases List.mem_cons.mp hc with rfl | hc
    · exact ⟨le_rfl, by simp [arrive], rfl, a, List.mem_cons_self, rfl⟩
    · obtain ⟨hle, hlt, hsent, b, hb, hheard⟩ := ih hc
      rw [List.length_cons]
      exact ⟨by omega, by omega, hsent, b, List.mem_cons_of_mem a hb, hheard⟩

theorem newcomer_of_mem (he : e.Timely) {next : ℕ} {c : Client} (hc : c ∈ e.newcomers t next) :
    Newcomer e next c := by
  unfold Turn.newcomers at hc
  split at hc
  · cases hc
  · rename_i r hr
    obtain ⟨hle, hlt, hsent, a, ha, hheard⟩ := arriveAll_mem hc
    refine ⟨hle, ?_, ?_, hsent⟩
    · simpa [Turn.arrived, hr] using hlt
    · rw [hheard]
      exact he.arrivals r hr a ha

theorem arriveAll_numbers (closing : Bool) (next : ℕ) (as : List Arrival) :
    ((arriveAll t closing next as).map Client.number).Pairwise (· < ·) := by
  induction as generalizing next with
  | nil => exact .nil
  | cons a as ih =>
    refine List.pairwise_cons.mpr ⟨?_, ih (next + 1)⟩
    intro n hn
    obtain ⟨c, hc, rfl⟩ := List.mem_map.mp hn
    exact (arriveAll_mem hc).1

theorem newcomers_numbers (next : ℕ) :
    ((e.newcomers t next).map Client.number).Pairwise (· < ·) := by
  unfold Turn.newcomers
  split
  · exact .nil
  · exact arriveAll_numbers _ _ _

/-- What the first pass makes of a client. -/
structure Seen (t : Thread) (now : ℕ) (c : Client) (w : Watched) : Prop where
  number : w.client.number = c.number
  lastMessage : w.client.lastMessage = c.lastMessage
  dead : c.lastMessage + t.deadAfter < now → w.client.disconnected = true ∧ w.pinged = false
  due : c.lastMessage + t.pingAfter < now → now ≤ c.lastMessage + t.deadAfter →
    c.lastSent + 10 < now → w.pinged = true ∨ w.client.disconnected = true
  pinged : w.pinged = true → c.lastSent + 10 < now ∧ w.client.lastSent = now
  unpinged : w.pinged = false → w.client.lastSent = c.lastSent

theorem checkProtect_keeps (t : Thread) (now : ℕ) (c : Client) (pinged : Bool) :
    (checkProtect t now c pinged).pinged = pinged ∧
      (checkProtect t now c pinged).client.number = c.number ∧
      (checkProtect t now c pinged).client.lastMessage = c.lastMessage ∧
      (checkProtect t now c pinged).client.lastSent = c.lastSent := by
  unfold checkProtect
  split <;> exact ⟨rfl, rfl, rfl, rfl⟩

theorem watch_seen (t : Thread) (now : ℕ) (ping : ℕ → Option SendBuffer) (c : Client) :
    Seen t now c (watch t now ping c) := by
  unfold watch
  split
  next hdead => exact ⟨rfl, rfl, fun _ => ⟨rfl, rfl⟩, fun _ _ _ => .inr rfl, by simp, fun _ => rfl⟩
  next halive =>
    split
    next hdue =>
      split
      · exact ⟨rfl, rfl, fun h => absurd h halive, fun _ _ _ => .inr rfl, by simp, fun _ => rfl⟩
      · rename_i b _
        obtain ⟨hp, hnumber, hheard, hsent⟩ :=
          checkProtect_keeps t now { c with lastSent := now, sendbuf := b } true
        exact ⟨hnumber, hheard, fun h => absurd h halive, fun _ _ _ => .inl hp,
          fun _ => ⟨hdue.2, hsent⟩, fun h => absurd (hp.symm.trans h) (by decide)⟩
    next hquiet =>
      obtain ⟨hp, hnumber, hheard, hsent⟩ := checkProtect_keeps t now c false
      exact ⟨hnumber, hheard, fun h => absurd h halive, fun h _ h' => absurd ⟨h, h'⟩ hquiet,
        fun h => absurd (hp.symm.trans h) (by decide), fun _ => hsent⟩

/-- Where a client of the list after the second pass comes from. -/
inductive Origin (t : Thread) (s : Loop) (e : Turn) (d : Client) : Prop where
  | old (c : Client) (mem : c ∈ s.clients) (served : Served e.now (watch t e.now e.ping c).client d)
  | new (c : Client) (newcomer : Newcomer e s.next c) (served : Served e.now c d)

/-- The clients after the second pass of a turn. -/
def passed (t : Thread) (s : Loop) (e : Turn) : List Client :=
  secondPass t s.next e (s.clients.map (watch t e.now e.ping))

theorem passed_origin (he : e.Timely) {d : Client} (hd : d ∈ passed t s e) : Origin t s e d := by
  obtain ⟨g, hg, heq⟩ := secondPass_served (t := t) he s.next (s.clients.map (watch t e.now e.ping))
  rw [passed, heq] at hd
  obtain ⟨c, hc, rfl⟩ := List.mem_map.mp hd
  rcases List.mem_append.mp hc with hc | hc
  · obtain ⟨w, hw, rfl⟩ := List.mem_map.mp hc
    obtain ⟨b, hb, rfl⟩ := List.mem_map.mp hw
    exact .old b hb (hg _)
  · exact .new c (newcomer_of_mem he hc) (hg c)

theorem passed_numbers (he : e.Timely) :
    (passed t s e).map Client.number =
      s.clients.map Client.number ++ (e.newcomers t s.next).map Client.number := by
  obtain ⟨g, hg, heq⟩ := secondPass_served (t := t) he s.next (s.clients.map (watch t e.now e.ping))
  have hnumber : Client.number ∘ g = Client.number := funext fun c => (hg c).number
  have hwatch : (Client.number ∘ Watched.client) ∘ watch t e.now e.ping = Client.number :=
    funext fun c => (watch_seen t e.now e.ping c).number
  rw [passed, heq, List.map_map, hnumber, List.map_append, List.map_map, List.map_map, hwatch]

theorem passed_length (he : e.Timely) : (passed t s e).length = s.clients.length + e.arrived := by
  have h := congrArg List.length (passed_numbers (t := t) (s := s) he)
  rwa [List.length_map, List.length_append, List.length_map, List.length_map,
    newcomers_length] at h

/-- A client after the second pass has been heard from lately, or its connection will be closed, or
it is as the first pass has found it. -/
theorem passed_cases (he : e.Timely) {d : Client} (hd : d ∈ passed t s e) :
    e.now ≤ d.lastMessage ∨ ∃ c ∈ s.clients, d.number = c.number ∧ d.lastMessage = c.lastMessage ∧
      Served e.now (watch t e.now e.ping c).client d := by
  rcases passed_origin he hd with ⟨c, hc, hserved⟩ | ⟨c, hnew, hserved⟩
  · have hseen := watch_seen t e.now e.ping c
    rcases hserved.lastMessage with heq | hle
    · exact .inr ⟨c, hc, hserved.number.trans hseen.number, heq.trans hseen.lastMessage, hserved⟩
    · exact .inl hle
  · rcases hserved.lastMessage with heq | hle
    · rw [heq]
      exact .inl hnew.heard
    · exact .inl hle

/-- The clients are the ones that are counted, each has its number, and no client has been silent
for too long when a turn ends. -/
structure Orderly (t : Thread) (s : Loop) : Prop where
  numbered : (s.clients.map Client.number).Pairwise (· < ·)
  below : ∀ c ∈ s.clients, c.number < s.next
  counted : s.numClients = s.clients.length
  heard : ∀ c ∈ s.clients, s.now ≤ c.lastMessage + t.deadAfter

theorem filter_lengths (cs : List Client) :
    ((cs.filter fun c => !c.disconnected).length : ℤ) =
      cs.length - (cs.filter Client.disconnected).length := by
  induction cs with
  | nil => rfl
  | cons c cs ih => cases hc : c.disconnected <;> simp [hc] at ih ⊢ <;> omega

theorem passed_below (h : ∀ c ∈ s.clients, c.number < s.next) (he : e.Timely) {d : Client}
    (hd : d ∈ passed t s e) : d.number < s.next + e.arrived := by
  rcases passed_origin he hd with ⟨c, hc, hserved⟩ | ⟨c, hnew, hserved⟩
  · rw [hserved.number, (watch_seen t e.now e.ping c).number]
    exact Nat.lt_add_right _ (h c hc)
  · rw [hserved.number]
    exact hnew.last

theorem turn_orderly (h : Orderly t s) (he : e.Timely) : Orderly t (turn t s e) where
  numbered := by
    have hall : ((passed t s e).map Client.number).Pairwise (· < ·) := by
      rw [passed_numbers he]
      refine List.pairwise_append.mpr ⟨h.numbered, newcomers_numbers s.next, ?_⟩
      intro n hn m hm
      obtain ⟨c, hc, rfl⟩ := List.mem_map.mp hn
      obtain ⟨d, hd, rfl⟩ := List.mem_map.mp hm
      exact (h.below c hc).trans_le (newcomer_of_mem he hd).first
    exact hall.sublist (List.filter_sublist.map Client.number)
  below := fun d hd => passed_below h.below he (List.mem_of_mem_filter hd)
  counted := by
    have hlength := passed_length (t := t) (s := s) he
    have hfilter := filter_lengths (passed t s e)
    have hcounted := h.counted
    change s.numClients + (e.arrived : ℤ) - ((passed t s e).filter Client.disconnected).length =
      ((passed t s e).filter fun c => !c.disconnected).length
    omega
  heard := by
    intro d hd
    obtain ⟨hd, halive⟩ := List.mem_filter.mp hd
    rcases passed_cases he hd with hle | ⟨c, hc, -, hheard, hserved⟩
    · exact hle.trans (Nat.le_add_right _ _)
    · by_contra hdead
      have hlt : c.lastMessage + t.deadAfter < e.now := by
        rw [← hheard]
        exact not_le.mp hdead
      have hgone := hserved.disconnected ((watch_seen t e.now e.ping c).dead hlt).1
      rw [hgone] at halive
      cases halive

theorem elsewhere_orderly (h : Orderly t s) (m : Marks) : Orderly t (next t s (.elsewhere m)) where
  numbered := by
    rw [next, List.map_map]
    exact h.numbered
  below := by
    intro d hd
    obtain ⟨c, hc, rfl⟩ := List.mem_map.mp hd
    exact h.below c hc
  counted := by
    rw [next, List.length_map]
    exact h.counted
  heard := by
    intro d hd
    obtain ⟨c, hc, rfl⟩ := List.mem_map.mp hd
    exact h.heard c hc

theorem started_orderly (t : Thread) (now : ℕ) : Orderly t (started now) where
  numbered := .nil
  below := by simp [started]
  counted := rfl
  heard := by simp [started]

/-- The pings to a client are more than ten seconds apart, and whoever is quiet or was closed for
being silent has been pinged since it was last heard from. -/
structure Pinging (t : Thread) (s : Loop) : Prop where
  past : ∀ p ∈ s.pings, p.1 < s.next
  latest : ∀ c ∈ s.clients, ∀ p ∈ s.pings, p.1 = c.number → p.2 ≤ c.lastSent
  sent : ∀ c ∈ s.clients, c.lastSent = 0 ∨ (c.number, c.lastSent) ∈ s.pings
  spaced : s.pings.Pairwise fun p q => p.1 = q.1 → p.2 + 10 < q.2
  tried : ∀ c ∈ s.clients, s.now ≤ c.lastMessage + t.pingAfter ∨ c.lastMessage < c.lastSent
  silent : ∀ k ∈ s.closed, k.client.lastMessage + t.deadAfter < k.now →
    ∃ p ∈ s.pings, p.1 = k.client.number ∧ k.client.lastMessage < p.2

/-- The pings of a turn. -/
def pinged (t : Thread) (s : Loop) (e : Turn) : List (ℕ × ℕ) :=
  ((s.clients.map (watch t e.now e.ping)).filter Watched.pinged).map
    fun w => (w.client.number, e.now)

theorem mem_pinged {p : ℕ × ℕ} : p ∈ pinged t s e ↔
    ∃ c ∈ s.clients, (watch t e.now e.ping c).pinged = true ∧ p = (c.number, e.now) := by
  unfold pinged
  constructor
  · intro hp
    obtain ⟨w, hw, rfl⟩ := List.mem_map.mp hp
    obtain ⟨hw, hpinged⟩ := List.mem_filter.mp hw
    obtain ⟨c, hc, rfl⟩ := List.mem_map.mp hw
    exact ⟨c, hc, hpinged, by rw [(watch_seen t e.now e.ping c).number]⟩
  · rintro ⟨c, hc, hpinged, rfl⟩
    refine List.mem_map.mpr ⟨watch t e.now e.ping c, List.mem_filter.mpr ⟨?_, hpinged⟩, ?_⟩
    · exact List.mem_map.mpr ⟨c, hc, rfl⟩
    · rw [(watch_seen t e.now e.ping c).number]

theorem pinged_numbers (h : (s.clients.map Client.number).Pairwise (· < ·)) :
    (pinged t s e).Pairwise fun p q => p.1 < q.1 := by
  have hall : (s.clients.map (watch t e.now e.ping)).Pairwise
      fun v w => v.client.number < w.client.number := by
    refine List.pairwise_map.mpr ((List.pairwise_map.mp h).imp ?_)
    intro c d hlt
    rwa [(watch_seen t e.now e.ping c).number, (watch_seen t e.now e.ping d).number]
  exact List.pairwise_map.mpr (hall.sublist List.filter_sublist)

/-- The time at which a client was last pinged, as the turn leaves it. -/
theorem watch_lastSent (c : Client) :
    (watch t e.now e.ping c).client.lastSent =
      if (watch t e.now e.ping c).pinged then e.now else c.lastSent := by
  have hseen := watch_seen t e.now e.ping c
  cases hp : (watch t e.now e.ping c).pinged with
  | true => exact (hseen.pinged hp).2
  | false => exact hseen.unpinged hp

theorem eq_of_number (h : (s.clients.map Client.number).Pairwise (· < ·)) {c d : Client}
    (hc : c ∈ s.clients) (hd : d ∈ s.clients) (hnumber : c.number = d.number) : c = d :=
  List.inj_on_of_nodup_map (h.imp ne_of_lt) hc hd hnumber

theorem Pinging.turn_latest (h : Pinging t s) (ho : Orderly t s) (he : e.Timely) {d : Client}
    (hd : d ∈ passed t s e) {p : ℕ × ℕ} (hp : p ∈ s.pings ++ pinged t s e)
    (hnumber : p.1 = d.number) : p.2 ≤ d.lastSent := by
  rcases passed_origin he hd with ⟨c, hc, hserved⟩ | ⟨c, hnew, hserved⟩
  · have hseen := watch_seen t e.now e.ping c
    rw [hserved.number, hseen.number] at hnumber
    rw [hserved.lastSent, watch_lastSent]
    rcases List.mem_append.mp hp with hp | hp
    · have hle := h.latest c hc p hp hnumber
      split
      next hpinged =>
        have hspace := (hseen.pinged hpinged).1
        omega
      next => exact hle
    · obtain ⟨b, hb, hpinged, rfl⟩ := mem_pinged.mp hp
      obtain rfl := eq_of_number ho.numbered hb hc hnumber
      rw [if_pos hpinged]
  · rw [hserved.number] at hnumber
    have hlt : p.1 < s.next := by
      rcases List.mem_append.mp hp with hp | hp
      · exact h.past p hp
      · obtain ⟨b, hb, -, rfl⟩ := mem_pinged.mp hp
        exact ho.below b hb
    exact absurd (hnumber ▸ hlt) (not_lt.mpr hnew.first)

theorem Pinging.turn_sent (h : Pinging t s) (he : e.Timely) {d : Client}
    (hd : d ∈ passed t s e) :
    d.lastSent = 0 ∨ (d.number, d.lastSent) ∈ s.pings ++ pinged t s e := by
  rcases passed_origin he hd with ⟨c, hc, hserved⟩ | ⟨c, hnew, hserved⟩
  · rw [hserved.number, (watch_seen t e.now e.ping c).number, hserved.lastSent, watch_lastSent]
    split
    next hpinged => exact .inr (List.mem_append_right _ (mem_pinged.mpr ⟨c, hc, hpinged, rfl⟩))
    next => exact (h.sent c hc).imp_right (List.mem_append_left _)
  · rw [hserved.lastSent]
    exact .inl hnew.unsent

theorem Pinging.turn_spaced (h : Pinging t s) (ho : Orderly t s) :
    (s.pings ++ pinged t s e).Pairwise fun p q => p.1 = q.1 → p.2 + 10 < q.2 := by
  refine List.pairwise_append.mpr ⟨h.spaced, ?_, ?_⟩
  · exact (pinged_numbers ho.numbered).imp fun hlt heq => absurd heq (ne_of_lt hlt)
  · intro p hp q hq heq
    obtain ⟨c, hc, hpinged, rfl⟩ := mem_pinged.mp hq
    have hlatest := h.latest c hc p hp heq
    have hspace := ((watch_seen t e.now e.ping c).pinged hpinged).1
    change p.2 + 10 < e.now
    omega

/-- A client that is quiet for long enough is pinged in a turn, unless it has been pinged already or
is closed. -/
theorem watch_tried {c : Client} (hquiet : c.lastMessage + t.pingAfter < e.now)
    (halive : (watch t e.now e.ping c).client.disconnected ≠ true) :
    c.lastMessage < (watch t e.now e.ping c).client.lastSent := by
  have hseen := watch_seen t e.now e.ping c
  have hin : e.now ≤ c.lastMessage + t.deadAfter := by
    by_contra hdead
    exact halive (hseen.dead (not_le.mp hdead)).1
  have hten : 10 ≤ t.pingAfter := by cases t <;> decide
  rw [watch_lastSent]
  split
  next => omega
  next hp =>
    by_contra hle
    rcases hseen.due hquiet hin (by omega) with hpinged | hgone
    · exact hp hpinged
    · exact halive hgone

theorem Pinging.turn_tried (he : e.Timely) {d : Client} (hd : d ∈ passed t s e)
    (halive : d.disconnected ≠ true) :
    e.now ≤ d.lastMessage + t.pingAfter ∨ d.lastMessage < d.lastSent := by
  rcases passed_cases he hd with hle | ⟨c, hc, -, hheard, hserved⟩
  · exact .inl (hle.trans (Nat.le_add_right _ _))
  · by_cases hquiet : c.lastMessage + t.pingAfter < e.now
    · right
      rw [hheard, hserved.lastSent]
      exact watch_tried hquiet fun hgone => halive (hserved.disconnected hgone)
    · left
      rw [hheard]
      exact not_lt.mp hquiet

/-- Who is closed for being silent had a turn in which it was quiet and not yet dead. -/
theorem Pinging.turn_silent (h : Pinging t s) (he : e.Timely)
    (hfrequent : e.now + t.pingAfter ≤ s.now + t.deadAfter) {d : Client}
    (hd : d ∈ passed t s e) (hdead : d.lastMessage + t.deadAfter < e.now) :
    ∃ p ∈ s.pings, p.1 = d.number ∧ d.lastMessage < p.2 := by
  rcases passed_cases he hd with hle | ⟨c, hc, hnumber, hheard, -⟩
  · omega
  · rw [hheard] at hdead ⊢
    rw [hnumber]
    rcases h.tried c hc with hle | hlt
    · omega
    · rcases h.sent c hc with hzero | hmem
      · omega
      · exact ⟨_, hmem, rfl, hlt⟩

theorem turn_pinging (h : Pinging t s) (ho : Orderly t s) (he : e.Timely)
    (hfrequent : e.now + t.pingAfter ≤ s.now + t.deadAfter) : Pinging t (turn t s e) where
  past := by
    intro p hp
    rcases List.mem_append.mp hp with hp | hp
    · exact Nat.lt_add_right _ (h.past p hp)
    · obtain ⟨c, hc, -, rfl⟩ := mem_pinged.mp hp
      exact Nat.lt_add_right _ (ho.below c hc)
  latest := fun d hd p hp hnumber => h.turn_latest ho he (List.mem_of_mem_filter hd) hp hnumber
  sent := fun d hd => h.turn_sent he (List.mem_of_mem_filter hd)
  spaced := h.turn_spaced ho
  tried := by
    intro d hd
    obtain ⟨hd, halive⟩ := List.mem_filter.mp hd
    exact Pinging.turn_tried he hd (by simpa using halive)
  silent := by
    intro k hk hdead
    rcases List.mem_append.mp hk with hk | hk
    · obtain ⟨p, hp, hnumber, hlt⟩ := h.silent k hk hdead
      exact ⟨p, List.mem_append_left _ hp, hnumber, hlt⟩
    · obtain ⟨d, hd, rfl⟩ := List.mem_map.mp hk
      obtain ⟨p, hp, hnumber, hlt⟩ := h.turn_silent he hfrequent (List.mem_of_mem_filter hd) hdead
      exact ⟨p, List.mem_append_left _ hp, hnumber, hlt⟩

theorem elsewhere_pinging (h : Pinging t s) (m : Marks) :
    Pinging t (next t s (.elsewhere m)) where
  past := h.past
  latest := by
    intro d hd
    obtain ⟨c, hc, rfl⟩ := List.mem_map.mp hd
    exact h.latest c hc
  sent := by
    intro d hd
    obtain ⟨c, hc, rfl⟩ := List.mem_map.mp hd
    exact h.sent c hc
  spaced := h.spaced
  tried := by
    intro d hd
    obtain ⟨c, hc, rfl⟩ := List.mem_map.mp hd
    exact h.tried c hc
  silent := h.silent

theorem started_pinging (t : Thread) (now : ℕ) : Pinging t (started now) := by
  constructor <;> simp [started]

/-- The clock goes on, and the turns are frequent. -/
def Regular (t : Thread) (s : Loop) (e : Event) : Prop :=
  InOrder s e ∧ Frequent t s e

/-- A client whose connection nothing threatens. -/
structure Fine (c : Client) : Prop where
  connected : c.disconnected = false
  unprotected : c.gcProtect = false

variable {n : ℕ}

theorem fine_apply {m : Marks} {c : Client} (hdisconnect : m.disconnect c.number = false)
    (hprotect : m.gcProtect c.number ≠ some true) (hc : Fine c) : Fine (m.apply c) where
  connected := by simp [Marks.apply, hc.connected, hdisconnect]
  unprotected := by
    change (m.gcProtect c.number).getD c.gcProtect = false
    cases hp : m.gcProtect c.number with
    | none => exact hc.unprotected
    | some b =>
      cases b with
      | false => rfl
      | true => exact absurd hp hprotect

theorem fine_flush {sent : Sent} (h : sent ≠ .failed) {c : Client} (hc : Fine c) :
    Fine (flush sent c) := by
  unfold flush
  split
  · exact hc
  · split
    · exact absurd rfl h
    · exact hc
    · split <;> exact ⟨hc.connected, hc.unprotected⟩

theorem only_of_ne {f : Client → Client} {c : Client} {m : ℕ} (h : c.number ≠ m) :
    only m f c = c :=
  if_neg h

/-- The second pass keeps a reliable client. -/
theorem fine_serve {r : Ready} {c : Client} (hfailed : (r.handled c.number).failed = false)
    (hsent : r.sent c.number ≠ .failed)
    (hmarks : ∀ m, (r.handled m).marks.disconnect c.number = false ∧
      (r.handled m).marks.gcProtect c.number ≠ some true)
    (reads writes : ℕ → Bool) (m : ℕ) (hc : Fine c) : Fine (serve r reads writes m c) := by
  have hwritten : ∀ d : Client, d.number = c.number → Fine d →
      Fine ((if writes m && r.writable m then only m (flush (r.sent m)) else id) d) := by
    intro d hd hfine
    split
    · by_cases hm : d.number = m
      · rw [only, if_pos hm, ← hm, hd]
        exact fine_flush hsent hfine
      · rwa [only_of_ne hm]
    · exact hfine
  have hheard : ∀ heard,
      Fine (only m (hear heard) c) ∧ (only m (hear heard) c).number = c.number := by
    intro heard
    unfold only
    split
    · exact ⟨⟨hc.connected, hc.unprotected⟩, rfl⟩
    · exact ⟨hc, rfl⟩
  obtain ⟨hfine, hnumber⟩ := hheard (r.handled m).heard
  have hmark := hmarks m
  rw [← hnumber] at hmark
  have happly := fine_apply hmark.1 hmark.2 hfine
  unfold serve
  dsimp only
  split
  · split
    next hfail =>
      have hm : c.number ≠ m := by
        rintro rfl
        rw [hfailed] at hfail
        cases hfail
      rwa [only_of_ne (by simpa [Marks.apply, hnumber] using hm)]
    next => exact hwritten _ hnumber happly
  · exact hwritten c rfl hc

theorem fine_watch {now : ℕ} {ping : ℕ → Option SendBuffer} {c : Client}
    (hping : ping c.number ≠ none) (hin : now ≤ c.lastMessage + t.deadAfter) (hc : Fine c) :
    Fine (watch t now ping c).client := by
  have hcheck : ∀ (d : Client) (p : Bool), Fine d → Fine (checkProtect t now d p).client := by
    intro d p hd
    rw [checkProtect, if_neg (by simp [hd.unprotected])]
    exact hd
  unfold watch
  rw [if_neg (not_lt.mpr hin)]
  split
  · split
    · exact absurd ‹_› hping
    · exact hcheck _ _ ⟨hc.connected, hc.unprotected⟩
  · exact hcheck _ _ hc

/-- The client `n` has a connection, and nothing threatens it. -/
def Stays (n : ℕ) (s : Loop) : Prop :=
  ∃ c ∈ s.clients, c.number = n ∧ Fine c

theorem turn_stays (he : Reliable n (.turn e)) (hin : InTime t n s (.turn e)) (h : Stays n s) :
    Stays n (turn t s e) := by
  obtain ⟨c, hc, rfl, hfine⟩ := h
  obtain ⟨hping, hready⟩ := he
  obtain ⟨g, hg, heq⟩ := secondPass_related (t := t) (e := e)
    (R := fun a b => b.number = a.number ∧ (a.number = c.number → Fine a → Fine b))
    (fun a => ⟨rfl, fun _ ha => ha⟩)
    (fun a b d hab hbd => ⟨hbd.1.trans hab.1,
      fun ha hfine => hbd.2 (hab.1.trans ha) (hab.2 ha hfine)⟩)
    (fun r hr reads writes m a => ⟨serve_number r reads writes m a, fun ha hfine => by
        obtain ⟨hfailed, hsent, hmarks⟩ := hready r hr
        rw [← ha] at hfailed hsent hmarks
        exact fine_serve hfailed hsent hmarks reads writes m hfine⟩)
    s.next (s.clients.map (watch t e.now e.ping))
  have hseen := watch_seen t e.now e.ping c
  have hwatched := fine_watch (t := t) hping (hin c hc rfl) hfine
  obtain ⟨hnumber, hkeeps⟩ := hg (watch t e.now e.ping c).client
  have hkept := hkeeps hseen.number hwatched
  refine ⟨g (watch t e.now e.ping c).client, ?_, hnumber.trans hseen.number, hkept⟩
  refine List.mem_filter.mpr ⟨?_, by rw [hkept.connected]; rfl⟩
  rw [heq]
  refine List.mem_map_of_mem (List.mem_append_left _ ?_)
  exact List.mem_map_of_mem (List.mem_map_of_mem hc)

theorem elsewhere_stays {m : Marks} (he : Reliable n (.elsewhere m)) (h : Stays n s) :
    Stays n (next t s (.elsewhere m)) := by
  obtain ⟨c, hc, rfl, hfine⟩ := h
  exact ⟨m.apply c, List.mem_map_of_mem hc, rfl, fine_apply he.1 he.2 hfine⟩

end Turn

section Examples

def noMarks : Marks where
  disconnect _ := false
  gcProtect _ := none
  joinTime _ := none
  sendbuf _ := none

/-- A connection comes, and nothing else. -/
def oneArrival : Ready where
  arrivals := [⟨1000, ⟨0, 0⟩⟩]
  readable _ := false
  handled _ := ⟨false, none, noMarks⟩
  writable _ := false
  sent _ := .again

def idle (now : ℕ) (ready : Option Ready) : Turn where
  now := now
  ping _ := some ⟨0, 0⟩
  closing := false
  ready := ready

/-- A client that never says anything. -/
def silentTurns : List Event :=
  [.turn (idle 1000 (some oneArrival)), .turn (idle 1040 none), .turn (idle 1095 none)]

theorem idle_regular {s : Loop} {now : ℕ} (hle : s.now ≤ now) (hsoon : now + 30 ≤ s.now + 90) :
    Regular .block s (.turn (idle now none)) := by
  have htimely : (idle now none).Timely := by
    constructor
    all_goals
      intro r hr
      cases hr
  exact ⟨⟨hle, htimely⟩, hsoon⟩

theorem silentTurns_run : Run (StepOf (next .block)) (Regular .block) (started 1000) silentTurns
    (silentTurns.foldl (next .block) (started 1000)) := by
  refine .move ⟨⟨by decide, ?_, ?_⟩, show 1000 + 30 ≤ 1000 + 90 by decide⟩ rfl ?_
  · intro r hr a ha
    cases hr
    rw [List.mem_singleton.mp ha]
    exact le_rfl
  · intro r hr n h hh
    cases hr
    cases hh
  refine .move (idle_regular (by decide) (by decide)) rfl ?_
  exact .move (idle_regular (by decide) (by decide)) rfl (.stop _)

end Examples

end ShipServer.ConnectionLoops
