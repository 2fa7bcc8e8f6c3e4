import ShipServer.LabelledRuns
import ShipServer.DeferredPackets

set_option autoImplicit false

/-! What waits for a client that bursts into a game with a quest. -/

namespace ShipServer.BurstReplay

open LabelledRuns LobbyRooms LobbyState
open DeferredPackets hiding lobbyEnqueueBurst subcmdHandleOne lobbyResendBurst lobbyRemovePlayer

/-- A packet of the burst queue, with the number of the burst that it is for. -/
structure BurstPkt where
  src : ClientId
  pkt : GamePkt
  burst : ℕ
  deriving DecidableEq

/-- What the server knows of a client. `burst` counts the join that it came in with. -/
structure Joiner where
  disconnected : Bool
  bursting : Bool
  waitQping : Bool
  dcnte : Bool
  burst : ℕ

/-- A game. `produced` and `replayed` have what has been put on the burst queue and what has been
sent from it, with the burst of the client that it was sent to. -/
structure Game where
  bursting : Bool
  questing : Bool
  members : Finset ClientId
  joiners : ClientId → Joiner
  burstQueue : List BurstPkt
  joins : ℕ
  produced : List BurstPkt
  replayed : List (ℕ × BurstPkt)

/-- What a handler meets: whether there is a client in the slot that the packet names, whether
there is memory, and the return code of the sends and of the other handlers. -/
structure HandlerEnv where
  destPresent : Bool
  allocated : Bool
  result : ℤ

namespace Game

def modJoiner (g : Game) (c : ClientId) (f : Joiner → Joiner) : Game :=
  { g with joiners := Function.update g.joiners c (f (g.joiners c)) }

def hangUp (g : Game) (c : ClientId) : Game :=
  g.modJoiner c fun x => { x with disconnected := true }

/-- A client whose packet is in error is disconnected. -/
def settle (c : ClientId) (r : Game × ℤ) : Game :=
  if r.2 = 0 then r.1 else r.1.hangUp c

/-- The server still listens to a client of the game. -/
def Active (g : Game) (c : ClientId) : Prop :=
  c ∈ g.members ∧ (g.joiners c).disconnected = false

instance (g : Game) (c : ClientId) : Decidable (g.Active c) :=
  inferInstanceAs (Decidable (_ ∧ _))

def putBurst (g : Game) (x : BurstPkt) : Game :=
  { g with burstQueue := g.burstQueue ++ [x], produced := g.produced ++ [x] }

/-- `lobby_enqueue_burst`. The packet is for the client that has come in last. -/
def lobbyEnqueueBurst (g : Game) (allocated : Bool) (c : ClientId) (p : GamePkt) : Game × ℤ :=
  if g.bursting = false then (g, -1)
  else if p.pktType ≠ gameCommand0Type ∧ p.pktType ≠ gameCommand2Type ∧
      p.pktType ≠ gameCommandDType then (g, -2)
  else if allocated = false then (g, -3)
  else (g.putBurst { src := c, pkt := p, burst := g.joins }, 0)

/-- `subcmd_handle_one`. The packets of the trial edition are handled elsewhere. -/
def subcmdHandleOne (g : Game) (env : HandlerEnv) (c : ClientId) (p : GamePkt) : Game × ℤ :=
  if (g.joiners c).dcnte then (g, env.result)
  else if env.destPresent = false then (g, 0)
  else if g.bursting then
    if p.subcmd ∈ burst1To4 then
      if g.questing then
        let (g, rv) := g.lobbyEnqueueBurst env.allocated c p
        (g, orCode rv env.result)
      else (g, env.result)
    else (g, env.result)
  else (g, env.result)

end Game

/-- The loop of `lobby_resend_burst`: the packets that are sent to a client, and `rv`. After an
error the rest of the queue is freed. -/
def lobbyResendBurst (burst : ℕ) (sent : ℕ → Bool) : List BurstPkt → List (ℕ × BurstPkt) × ℤ
  | [] => ([], 0)
  | x :: queue =>
    if x.pkt.pktType = gameCommand2Type ∨ x.pkt.pktType = gameCommandDType then
      if sent 0 then
        let (log, rv) := lobbyResendBurst burst (fun k => sent (k + 1)) queue
        ((burst, x) :: log, rv)
      else ([], -1)
    else ([], -1)

namespace Game

/-- The flags that end a burst. -/
def endBurst (g : Game) (c : ClientId) : Game :=
  { g.modJoiner c (fun x => { x with bursting := false }) with bursting := false }

/-- `dc_process_done_burst`. -/
def dcProcessDoneBurst (g : Game) (gotChar : Bool) (result : ℤ) (c : ClientId) : Game × ℤ :=
  if gotChar = false then (g, -1)
  else if g.questing = false then (g.endBurst c, result)
  else (g.modJoiner c (fun x => { x with waitQping := true }), result)

/-- The end of the handler of a `PING`. The return code of the replay is not looked at. -/
def ping (g : Game) (sent : ℕ → Bool) (result : ℤ) (c : ClientId) : Game × ℤ :=
  let log := (lobbyResendBurst (g.joiners c).burst sent g.burstQueue).1
  let g := (g.endBurst c).modJoiner c fun x => { x with waitQping := false }
  ({ g with burstQueue := [], replayed := g.replayed ++ log }, result)

/-- A client has gone, and the game with the last one. -/
def leave (g : Game) (c : ClientId) : Game :=
  if g.members.erase c = ∅ then
    { g with members := ∅, bursting := false, questing := false, burstQueue := [] }
  else { g with members := g.members.erase c }

/-- `lobby_remove_player`. -/
def lobbyRemovePlayer (g : Game) (c : ClientId) : Game :=
  if (g.joiners c).bursting then { g with bursting := false }.leave c else g.leave c

/-- `lobby_change_lobby` into the game. The flags other than `bursting` come from elsewhere. -/
def join (g : Game) (c : ClientId) (waitQping dcnte : Bool) : Game :=
  { g with
    bursting := true
    members := insert c g.members
    joiners := Function.update g.joiners c
      { disconnected := false, bursting := true, waitQping := waitQping, dcnte := dcnte,
        burst := g.joins + 1 }
    joins := g.joins + 1 }

end Game

/-- The packets of the members, and the ways into the game and out of it. -/
inductive Event where
  | one (env : HandlerEnv) (c : ClientId) (p : GamePkt)
  | join (c : ClientId) (waitQping dcnte : Bool)
  | setupQuest
  | doneBurst (gotChar : Bool) (result : ℤ) (c : ClientId)
  | ping (sent : ℕ → Bool) (result : ℤ) (c : ClientId)
  | finishLoad (result : ℤ) (c : ClientId)
  | changeLobby (c : ClientId)
  | remove (c : ClientId)

open Game

def next (g : Game) : Event → Game
  | .one env c p =>
    if g.Active c ∧ (p.pktType = gameCommand2Type ∨ p.pktType = gameCommandDType) then
      settle c (g.subcmdHandleOne env c p)
    else g
  | .join c waitQping dcnte => if g.bursting then g else g.join c waitQping dcnte
  | .setupQuest => if g.bursting then g else { g with questing := true }
  | .doneBurst gotChar result c =>
    if g.Active c then settle c (g.dcProcessDoneBurst gotChar result c) else g
  | .ping sent result c =>
    if g.Active c ∧ (g.joiners c).waitQping = true then settle c (g.ping sent result c) else g
  | .finishLoad result c =>
    if g.Active c ∧ (g.joiners c).dcnte = true then settle c (g.endBurst c, result) else g
  | .changeLobby c => if c ∈ g.members then g.leave c else g
  | .remove c => if c ∈ g.members then g.lobbyRemovePlayer c else g

/-- A game that nobody is in yet. -/
def created : Game where
  bursting := false
  questing := false
  members := ∅
  joiners := fun _ =>
    { disconnected := false, bursting := false, waitQping := false, dcnte := false, burst := 0 }
  burstQueue := []
  joins := 0
  produced := []
  replayed := []

namespace Game

def receivedBy (g : Game) (k : ℕ) : List BurstPkt :=
  (g.replayed.filter fun x => x.1 = k).map Prod.snd

def queuedFor (g : Game) (k : ℕ) : List BurstPkt :=
  g.burstQueue.filter fun x => x.burst = k

def producedFor (g : Game) (k : ℕ) : List BurstPkt :=
  g.produced.filter fun x => x.burst = k

end Game

/-- A packet goes to the client that it was put on the queue for, once and in order, and waits for
nobody else. -/
structure Faithful (g : Game) : Prop where
  own : ∀ x ∈ g.replayed, x.1 = x.2.burst
  order : ∀ c ∈ g.members, g.receivedBy (g.joiners c).burst ++ g.queuedFor (g.joiners c).burst =
    g.producedFor (g.joiners c).burst
  waiting : ∀ x ∈ g.burstQueue, ∃ c ∈ g.members,
    (g.joiners c).bursting = true ∧ (g.joiners c).burst = x.burst

/-- A packet that `lobby_enqueue_burst` takes. -/
structure Accepted (g : Game) (env : HandlerEnv) (c : ClientId) (p : GamePkt) : Prop where
  active : g.Active c
  current : (g.joiners c).dcnte = false
  destPresent : env.destPresent = true
  bursting : g.bursting = true
  questing : g.questing = true
  allocated : env.allocated = true
  subcmd : p.subcmd ∈ burst1To4
  pktType : p.pktType = gameCommand2Type ∨ p.pktType = gameCommandDType

/-- What keeps an event clear of the defects: packets are queued while the client that came in
last is bursting, a ping meets packets of its own burst only and can send them, and no client for
which packets are queued is lost. -/
def Clear (g : Game) : Event → Prop
  | .one env c p => Accepted g env c p →
      ∃ d ∈ g.members, (g.joiners d).bursting = true ∧ (g.joiners d).burst = g.joins
  | .join c _ _ => g.bursting = false → c ∈ g.members → g.queuedFor (g.joiners c).burst = []
  | .ping sent _ c => g.Active c → (g.joiners c).waitQping = true →
      (∀ x ∈ g.burstQueue, x.burst = (g.joiners c).burst) ∧
        ∀ k < g.burstQueue.length, sent k = true
  | .finishLoad _ c => g.Active c → (g.joiners c).dcnte = true →
      g.queuedFor (g.joiners c).burst = []
  | .changeLobby c | .remove c => c ∈ g.members → g.members.erase c ≠ ∅ →
      g.queuedFor (g.joiners c).burst = []
  | _ => True

/-- The numbers of the bursts are those of the joins, and only a game with a quest has a queue. -/
structure Sound (g : Game) : Prop extends Faithful g where
  distinct : ∀ c ∈ g.members, ∀ d ∈ g.members, (g.joiners c).burst = (g.joiners d).burst → c = d
  counted : ∀ c ∈ g.members, (g.joiners c).burst ≤ g.joins
  produced : ∀ x ∈ g.produced, x.burst ≤ g.joins
  received : ∀ x ∈ g.replayed, x.1 ≤ g.joins
  quest : g.burstQueue ≠ [] → g.questing = true
  pktType : ∀ x ∈ g.burstQueue,
    x.pkt.pktType = gameCommand2Type ∨ x.pkt.pktType = gameCommandDType

variable {g g' : Game} {c : ClientId}

theorem created_sound : Sound created where
  own := fun _ hx => nomatch hx
  order := fun _ hc => nomatch hc
  waiting := fun _ hx => nomatch hx
  distinct := fun _ hc => nomatch hc
  counted := fun _ hc => nomatch hc
  produced := fun _ hx => nomatch hx
  received := fun _ hx => nomatch hx
  quest := fun hne => absurd rfl hne
  pktType := fun _ hx => nomatch hx

/-- Two games with the same queue, for the same bursts. -/
structure SameQueue (g g' : Game) : Prop where
  members : g'.members = g.members
  burst : ∀ c, (g'.joiners c).burst = (g.joiners c).burst
  burstQueue : g'.burstQueue = g.burstQueue
  joins : g'.joins = g.joins
  produced : g'.produced = g.produced
  replayed : g'.replayed = g.replayed
  questing : g.questing = true → g'.questing = true

theorem Sound.of_sameQueue (h : Sound g) (hsame : SameQueue g g')
    (hwaiting : ∀ x ∈ g.burstQueue, ∃ c ∈ g.members,
      (g'.joiners c).bursting = true ∧ (g.joiners c).burst = x.burst) : Sound g' where
  own := by
    rw [hsame.replayed]
    exact h.own
  order := by
    intro c hc
    rw [hsame.members] at hc
    rw [receivedBy, queuedFor, producedFor, hsame.burst, hsame.burstQueue, hsame.produced,
      hsame.replayed]
    exact h.order c hc
  waiting := by
    intro x hx
    rw [hsame.burstQueue] at hx
    obtain ⟨c, hc, hbursting, hburst⟩ := hwaiting x hx
    refine ⟨c, ?_, hbursting, ?_⟩
    · rw [hsame.members]
      exact hc
    · rw [hsame.burst]
      exact hburst
  distinct := by
    intro c hc d hd
    rw [hsame.members] at hc hd
    rw [hsame.burst, hsame.burst]
    exact h.distinct c hc d hd
  counted := by
    intro c hc
    rw [hsame.members] at hc
    rw [hsame.burst, hsame.joins]
    exact h.counted c hc
  produced := by
    rw [hsame.produced, hsame.joins]
    exact h.produced
  received := by
    rw [hsame.replayed, hsame.joins]
    exact h.received
  quest := by
    rw [hsame.burstQueue]
    exact fun hne => hsame.questing (h.quest hne)
  pktType := by
    rw [hsame.burstQueue]
    exact h.pktType

theorem burst_modJoiner {f : Joiner → Joiner} (hf : (f (g.joiners c)).burst = (g.joiners c).burst)
    (d : ClientId) : ((g.modJoiner c f).joiners d).burst = (g.joiners d).burst := by
  by_cases hd : d = c
  · rw [hd]
    exact (congrArg Joiner.burst (Function.update_self ..)).trans hf
  · exact congrArg Joiner.burst (Function.update_of_ne hd _ _)

theorem bursting_modJoiner {f : Joiner → Joiner}
    (hf : (f (g.joiners c)).bursting = (g.joiners c).bursting) (d : ClientId) :
    ((g.modJoiner c f).joiners d).bursting = (g.joiners d).bursting := by
  by_cases hd : d = c
  · rw [hd]
    exact (congrArg Joiner.bursting (Function.update_self ..)).trans hf
  · exact congrArg Joiner.bursting (Function.update_of_ne hd _ _)

theorem sameQueue_modJoiner {f : Joiner → Joiner}
    (hf : (f (g.joiners c)).burst = (g.joiners c).burst) : SameQueue g (g.modJoiner c f) where
  members := rfl
  burst := burst_modJoiner hf
  burstQueue := rfl
  joins := rfl
  produced := rfl
  replayed := rfl
  questing := id

/-- Flags other than `bursting` do not matter to the queue. -/
theorem Sound.modJoiner (h : Sound g) {f : Joiner → Joiner}
    (hburst : (f (g.joiners c)).burst = (g.joiners c).burst)
    (hbursting : (f (g.joiners c)).bursting = (g.joiners c).bursting) :
    Sound (g.modJoiner c f) := by
  refine h.of_sameQueue (sameQueue_modJoiner hburst) fun x hx => ?_
  obtain ⟨d, hd, hflag, hfor⟩ := h.waiting x hx
  refine ⟨d, hd, ?_, hfor⟩
  rw [bursting_modJoiner hbursting]
  exact hflag

theorem Faithful.of_hangUp (h : Faithful (g.hangUp c)) : Faithful g where
  own := h.own
  order := by
    intro d hd
    have horder := h.order d hd
    rw [hangUp, burst_modJoiner rfl] at horder
    exact horder
  waiting := by
    intro x hx
    obtain ⟨d, hd, hflag, hfor⟩ := h.waiting x hx
    rw [hangUp, bursting_modJoiner rfl] at hflag
    rw [hangUp, burst_modJoiner rfl] at hfor
    exact ⟨d, hd, hflag, hfor⟩

theorem settle_keeps {P : Prop} {r : Game × ℤ} (h : Keeps Sound Faithful r.1 P) :
    Keeps Sound Faithful (settle c r) P := by
  rw [Game.settle]
  split_ifs
  · exact h
  · exact ⟨fun hP => (h.1 hP).modJoiner rfl rfl, fun hfaithful => h.2 hfaithful.of_hangUp⟩

theorem mem_queuedFor {k : ℕ} {x : BurstPkt} :
    x ∈ g.queuedFor k ↔ x ∈ g.burstQueue ∧ x.burst = k := by
  rw [queuedFor, List.mem_filter, decide_eq_true_eq]

/-- Who a packet waits for, if it is not a client for which nothing is queued. -/
theorem Sound.waiting_ne (h : Sound g) (hnone : g.queuedFor (g.joiners c).burst = [])
    {x : BurstPkt} (hx : x ∈ g.burstQueue) : ∃ d ∈ g.members, d ≠ c ∧
      (g.joiners d).bursting = true ∧ (g.joiners d).burst = x.burst := by
  obtain ⟨d, hd, hflag, hfor⟩ := h.waiting x hx
  refine ⟨d, hd, ?_, hflag, hfor⟩
  rintro rfl
  have hmem := mem_queuedFor.mpr ⟨hx, hfor.symm⟩
  rw [hnone] at hmem
  cases hmem

/-- Nothing is queued for a client, if what is queued waits for others. -/
theorem Sound.queuedFor_eq_nil (h : Sound g) (hc : c ∈ g.members)
    (hothers : ∀ x ∈ g.burstQueue, ∃ d ∈ g.members, d ≠ c ∧ (g.joiners d).burst = x.burst) :
    g.queuedFor (g.joiners c).burst = [] := by
  rw [List.eq_nil_iff_forall_not_mem]
  intro x hx
  obtain ⟨hqueued, hfor⟩ := mem_queuedFor.mp hx
  obtain ⟨d, hd, hne, hburst⟩ := hothers x hqueued
  exact hne (h.distinct d hd c hc (hburst.trans hfor))

theorem endBurst_keeps (h : Sound g) (hc : c ∈ g.members) :
    Keeps Sound Faithful (g.endBurst c) (g.queuedFor (g.joiners c).burst = []) := by
  have hother : ∀ d, d ≠ c → (g.endBurst c).joiners d = g.joiners d :=
    fun d hd => Function.update_of_ne hd _ _
  have hburst : ∀ d, ((g.endBurst c).joiners d).burst = (g.joiners d).burst :=
    burst_modJoiner (f := fun x => { x with bursting := false }) rfl
  constructor
  · intro hnone
    refine h.of_sameQueue ⟨rfl, hburst, rfl, rfl, rfl, rfl, id⟩ fun x hx => ?_
    obtain ⟨d, hd, hne, hflag, hfor⟩ := h.waiting_ne hnone hx
    refine ⟨d, hd, ?_, hfor⟩
    rw [hother d hne]
    exact hflag
  · intro hfaithful
    refine h.queuedFor_eq_nil hc fun x hx => ?_
    obtain ⟨d, hd, hflag, hfor⟩ := hfaithful.waiting x hx
    refine ⟨d, hd, ?_, (hburst d).symm.trans hfor⟩
    rintro rfl
    have hself : (g.endBurst d).joiners d = { g.joiners d with bursting := false } :=
      Function.update_self ..
    rw [hself] at hflag
    cases hflag

theorem dcProcessDoneBurst_sound (h : Sound g) (hc : c ∈ g.members) (gotChar : Bool)
    (result : ℤ) : Sound (g.dcProcessDoneBurst gotChar result c).1 := by
  rw [dcProcessDoneBurst]
  split_ifs with hchar hquest
  · exact h
  · -- the queue of a game without a quest is empty
    have hempty : g.burstQueue = [] := by
      by_contra hne
      have hquesting := h.quest hne
      rw [hquest] at hquesting
      cases hquesting
    refine (endBurst_keeps h hc).1 ?_
    rw [queuedFor, hempty]
    rfl
  · exact h.modJoiner (f := fun x => { x with waitQping := true }) rfl rfl

theorem leave_keeps (h : Sound g) (hc : c ∈ g.members) :
    Keeps Sound Faithful (g.leave c)
      (g.members.erase c ≠ ∅ → g.queuedFor (g.joiners c).burst = []) := by
  rw [leave]
  split_ifs with hlast
  · refine keeps_of_invariant ?_ fun hne => absurd hlast hne
    exact
      { own := h.own
        order := fun _ hd => nomatch hd
        waiting := fun _ hx => nomatch hx
        distinct := fun _ hd => nomatch hd
        counted := fun _ hd => nomatch hd
        produced := h.produced
        received := h.received
        quest := fun hne => absurd rfl hne
        pktType := fun _ hx => nomatch hx }
  · constructor
    · intro hP
      exact
        { own := h.own
          order := fun d hd => h.order d (Finset.mem_of_mem_erase hd)
          waiting := by
            intro x hx
            obtain ⟨d, hd, hne, hflag, hfor⟩ := h.waiting_ne (hP hlast) hx
            exact ⟨d, Finset.mem_erase.mpr ⟨hne, hd⟩, hflag, hfor⟩
          distinct := fun d hd e he =>
            h.distinct d (Finset.mem_of_mem_erase hd) e (Finset.mem_of_mem_erase he)
          counted := fun d hd => h.counted d (Finset.mem_of_mem_erase hd)
          produced := h.produced
          received := h.received
          quest := h.quest
          pktType := h.pktType }
    · intro hfaithful _
      refine h.queuedFor_eq_nil hc fun x hx => ?_
      obtain ⟨d, hd, -, hfor⟩ := hfaithful.waiting x hx
      obtain ⟨hne, hmem⟩ := Finset.mem_erase.mp hd
      exact ⟨d, hmem, hne, hfor⟩

theorem lobbyRemovePlayer_keeps (h : Sound g) (hc : c ∈ g.members) :
    Keeps Sound Faithful (g.lobbyRemovePlayer c)
      (g.members.erase c ≠ ∅ → g.queuedFor (g.joiners c).burst = []) := by
  rw [lobbyRemovePlayer]
  split_ifs
  · have hopened : Sound { g with bursting := false } :=
      h.of_sameQueue ⟨rfl, fun _ => rfl, rfl, rfl, rfl, rfl, id⟩ h.waiting
    exact leave_keeps hopened hc
  · exact leave_keeps h hc

/-- Nothing is on record for a burst that has not begun. -/
theorem Sound.nothing_for (h : Sound g) {k : ℕ} (hk : g.joins < k) :
    g.receivedBy k = [] ∧ g.queuedFor k = [] ∧ g.producedFor k = [] := by
  refine ⟨?_, ?_, ?_⟩
  · rw [receivedBy, List.filter_eq_nil_iff.mpr, List.map_nil]
    intro x hx
    have hle := h.received x hx
    rw [decide_eq_true_eq]
    omega
  · refine List.filter_eq_nil_iff.mpr fun x hx => ?_
    obtain ⟨d, hd, -, hfor⟩ := h.waiting x hx
    have hle := h.counted d hd
    rw [decide_eq_true_eq]
    omega
  · refine List.filter_eq_nil_iff.mpr fun x hx => ?_
    have hle := h.produced x hx
    rw [decide_eq_true_eq]
    omega

theorem join_keeps (h : Sound g) (waitQping dcnte : Bool) :
    Keeps Sound Faithful (g.join c waitQping dcnte)
      (c ∈ g.members → g.queuedFor (g.joiners c).burst = []) := by
  have hother : ∀ d, d ≠ c → (g.join c waitQping dcnte).joiners d = g.joiners d :=
    fun d hd => Function.update_of_ne hd _ _
  have hself : ((g.join c waitQping dcnte).joiners c).burst = g.joins + 1 := by
    simp only [join, Function.update_self]
  have hmember : ∀ d ∈ (g.join c waitQping dcnte).members, d ≠ c → d ∈ g.members :=
    fun d hd hne => Finset.mem_of_mem_insert_of_ne hd hne
  constructor
  · intro hP
    refine
      { own := h.own
        order := fun d hd => ?_
        waiting := fun x hx => ?_
        distinct := fun d hd e he hburst => ?_
        counted := fun d hd => ?_
        produced := fun x hx => Nat.le_succ_of_le (h.produced x hx)
        received := fun x hx => Nat.le_succ_of_le (h.received x hx)
        quest := h.quest
        pktType := h.pktType }
    · by_cases hdc : d = c
      · rw [hdc, hself]
        obtain ⟨hreceived, hqueued, hproduced⟩ := h.nothing_for (Nat.lt_succ_self g.joins)
        change g.receivedBy _ ++ g.queuedFor _ = g.producedFor _
        rw [hreceived, hqueued, hproduced]
        rfl
      · rw [hother d hdc]
        exact h.order d (hmember d hd hdc)
    · obtain ⟨d, hd, hflag, hfor⟩ := h.waiting x hx
      have hne : d ≠ c := by
        rintro rfl
        have hmem : x ∈ g.queuedFor (g.joiners d).burst := mem_queuedFor.mpr ⟨hx, hfor.symm⟩
        rw [hP hd] at hmem
        cases hmem
      refine ⟨d, Finset.mem_insert_of_mem hd, ?_, ?_⟩
      · rw [hother d hne]
        exact hflag
      · rw [hother d hne]
        exact hfor
    · by_cases hdc : d = c
      · by_cases hec : e = c
        · rw [hdc, hec]
        · have hle := h.counted e (hmember e he hec)
          rw [hdc, hself, hother e hec] at hburst
          omega
      · have hle := h.counted d (hmember d hd hdc)
        by_cases hec : e = c
        · rw [hec, hself, hother d hdc] at hburst
          omega
        · rw [hother d hdc, hother e hec] at hburst
          exact h.distinct d (hmember d hd hdc) e (hmember e he hec) hburst
    · by_cases hdc : d = c
      · rw [hdc, hself]
        exact le_rfl
      · rw [hother d hdc]
        exact Nat.le_succ_of_le (h.counted d (hmember d hd hdc))
  · intro hfaithful hc
    refine h.queuedFor_eq_nil hc fun x hx => ?_
    obtain ⟨d, hd, -, hfor⟩ := hfaithful.waiting x hx
    have hne : d ≠ c := by
      rintro rfl
      rw [hself] at hfor
      obtain ⟨e, he, -, hburst⟩ := h.waiting x hx
      have hle := h.counted e he
      omega
    rw [hother d hne] at hfor
    exact ⟨d, hmember d hd hne, hne, hfor⟩

/-- The client to which a packet is sent, and the packet. -/
def sentTo (burst : ℕ) (queue : List BurstPkt) : List (ℕ × BurstPkt) :=
  queue.map fun x => (burst, x)

theorem lobbyResendBurst_prefix (burst : ℕ) (sent : ℕ → Bool) (queue : List BurstPkt) :
    ∃ front, front <+: queue ∧ (lobbyResendBurst burst sent queue).1 = sentTo burst front ∧
      (front.length = queue.length → ∀ k < queue.length, sent k = true) := by
  induction queue generalizing sent with
  | nil => exact ⟨[], List.nil_prefix, rfl, fun _ _ hk => nomatch hk⟩
  | cons x queue ih =>
    rw [lobbyResendBurst]
    split_ifs with htype hsent
    · obtain ⟨front, hprefix, hlog, hall⟩ := ih fun k => sent (k + 1)
      refine ⟨x :: front, List.cons_prefix_cons.mpr ⟨rfl, hprefix⟩, ?_, fun hlength k hk => ?_⟩
      · exact congrArg ((burst, x) :: ·) hlog
      · cases k with
        | zero => exact hsent
        | succ k => exact hall (Nat.succ.inj hlength) k (Nat.lt_of_succ_lt_succ hk)
    · exact ⟨[], List.nil_prefix, rfl, fun hlength => nomatch hlength⟩
    · exact ⟨[], List.nil_prefix, rfl, fun hlength => nomatch hlength⟩

theorem lobbyResendBurst_all (burst : ℕ) {sent : ℕ → Bool} {queue : List BurstPkt}
    (htype : ∀ x ∈ queue, x.pkt.pktType = gameCommand2Type ∨ x.pkt.pktType = gameCommandDType)
    (hsent : ∀ k < queue.length, sent k = true) :
    (lobbyResendBurst burst sent queue).1 = sentTo burst queue := by
  induction queue generalizing sent with
  | nil => rfl
  | cons x queue ih =>
    have hrest := ih (fun y hy => htype y (List.mem_cons_of_mem x hy))
      (fun k hk => hsent (k + 1) (Nat.succ_lt_succ hk))
    rw [lobbyResendBurst, if_pos (htype x List.mem_cons_self),
      if_pos (hsent 0 (Nat.succ_pos queue.length))]
    exact congrArg ((burst, x) :: ·) hrest

theorem map_filter_sentTo_self (burst : ℕ) (queue : List BurstPkt) :
    ((sentTo burst queue).filter fun x => x.1 = burst).map Prod.snd = queue := by
  rw [List.filter_eq_self.mpr]
  · rw [sentTo, List.map_map]
    exact List.map_id queue
  · intro x hx
    obtain ⟨y, -, rfl⟩ := List.mem_map.mp hx
    exact decide_eq_true rfl

theorem filter_sentTo_of_ne {burst k : ℕ} (hk : k ≠ burst) (queue : List BurstPkt) :
    ((sentTo burst queue).filter fun x => x.1 = k) = [] := by
  refine List.filter_eq_nil_iff.mpr fun x hx => ?_
  obtain ⟨y, -, rfl⟩ := List.mem_map.mp hx
  rw [decide_eq_true_eq]
  exact fun heq => hk heq.symm

theorem ping_joiners_of_ne {sent : ℕ → Bool} {result : ℤ} {d : ClientId} (hd : d ≠ c) :
    (g.ping sent result c).1.joiners d = g.joiners d := by
  change Function.update (Function.update g.joiners c _) c _ d = g.joiners d
  rw [Function.update_of_ne hd, Function.update_of_ne hd]

theorem ping_burst (sent : ℕ → Bool) (result : ℤ) (d : ClientId) :
    ((g.ping sent result c).1.joiners d).burst = (g.joiners d).burst := by
  by_cases hd : d = c
  · rw [hd]
    simp only [ping, endBurst, modJoiner, Function.update_self]
  · rw [ping_joiners_of_ne hd]

theorem ping_receivedBy {sent : ℕ → Bool} {result : ℤ} {front : List BurstPkt}
    (hlog : (lobbyResendBurst (g.joiners c).burst sent g.burstQueue).1 =
      sentTo (g.joiners c).burst front) (k : ℕ) :
    (g.ping sent result c).1.receivedBy k =
      g.receivedBy k ++ if k = (g.joiners c).burst then front else [] := by
  have hreplayed : (g.ping sent result c).1.replayed =
      g.replayed ++ sentTo (g.joiners c).burst front := by
    rw [← hlog]
    rfl
  rw [receivedBy, hreplayed, List.filter_append, List.map_append, ← receivedBy]
  split_ifs with hk
  · rw [hk, map_filter_sentTo_self]
  · rw [filter_sentTo_of_ne hk, List.map_nil]

theorem ping_keeps (h : Sound g) (hc : c ∈ g.members) (sent : ℕ → Bool) (result : ℤ) :
    Keeps Sound Faithful (g.ping sent result c).1
      ((∀ x ∈ g.burstQueue, x.burst = (g.joiners c).burst) ∧
        ∀ k < g.burstQueue.length, sent k = true) := by
  constructor
  · rintro ⟨hown, hsent⟩
    have hlog := lobbyResendBurst_all (g.joiners c).burst h.pktType hsent
    have hreplayed : (g.ping sent result c).1.replayed =
        g.replayed ++ sentTo (g.joiners c).burst g.burstQueue := by
      rw [← hlog]
      rfl
    refine
      { own := fun x hx => ?_
        order := fun d hd => ?_
        waiting := fun _ hx => nomatch hx
        distinct := fun d hd e he hburst => ?_
        counted := fun d hd => ?_
        produced := h.produced
        received := fun x hx => ?_
        quest := fun hne => absurd rfl hne
        pktType := fun _ hx => nomatch hx }
    · rw [hreplayed] at hx
      rcases List.mem_append.mp hx with hx | hx
      · exact h.own x hx
      · obtain ⟨y, hy, rfl⟩ := List.mem_map.mp hx
        exact (hown y hy).symm
    · have horder := h.order d hd
      rw [ping_burst, ping_receivedBy hlog]
      change _ ++ [] = g.producedFor _
      rw [List.append_nil, ← horder]
      congr 1
      split_ifs with hburst
      · rw [hburst]
        refine (List.filter_eq_self.mpr fun x hx => ?_).symm
        exact decide_eq_true (hown x hx)
      · refine (List.filter_eq_nil_iff.mpr fun x hx => ?_).symm
        rw [decide_eq_true_eq, hown x hx]
        exact fun heq => hburst heq.symm
    · rw [ping_burst, ping_burst] at hburst
      exact h.distinct d hd e he hburst
    · rw [ping_burst]
      exact h.counted d hd
    · rw [hreplayed] at hx
      rcases List.mem_append.mp hx with hx | hx
      · exact h.received x hx
      · obtain ⟨y, -, rfl⟩ := List.mem_map.mp hx
        exact h.counted c hc
  · intro hfaithful
    obtain ⟨front, hprefix, hlog, hall⟩ :=
      lobbyResendBurst_prefix (g.joiners c).burst sent g.burstQueue
    -- what is left of a burst has been sent, so that only packets for this client were queued
    have hgone : ∀ d ∈ g.members, g.queuedFor (g.joiners d).burst =
        if (g.joiners d).burst = (g.joiners c).burst then front else [] := by
      intro d hd
      have horder := hfaithful.order d hd
      rw [ping_burst, ping_receivedBy hlog] at horder
      change _ ++ [] = g.producedFor _ at horder
      rw [List.append_nil, ← h.order d hd] at horder
      exact (List.append_cancel_left horder).symm
    have hown : ∀ x ∈ g.burstQueue, x.burst = (g.joiners c).burst := by
      intro x hx
      obtain ⟨d, hd, -, hfor⟩ := h.waiting x hx
      by_contra hne
      have hqueued := hgone d hd
      rw [hfor, if_neg hne] at hqueued
      have hmem := mem_queuedFor.mpr ⟨hx, rfl⟩
      rw [hqueued] at hmem
      cases hmem
    refine ⟨hown, hall ?_⟩
    have hqueued := hgone c hc
    rw [if_pos rfl, queuedFor, List.filter_eq_self.mpr] at hqueued
    · rw [hqueued]
    · exact fun x hx => decide_eq_true (hown x hx)

theorem putBurst_keeps (h : Sound g) {x : BurstPkt} (hburst : x.burst = g.joins)
    (hquest : g.questing = true)
    (htype : x.pkt.pktType = gameCommand2Type ∨ x.pkt.pktType = gameCommandDType) :
    Keeps Sound Faithful (g.putBurst x)
      (∃ d ∈ g.members, (g.joiners d).bursting = true ∧ (g.joiners d).burst = g.joins) := by
  constructor
  · intro hjoiner
    refine
      { own := h.own
        order := fun d hd => ?_
        waiting := fun y hy => ?_
        distinct := h.distinct
        counted := h.counted
        produced := fun y hy => ?_
        received := h.received
        quest := fun _ => hquest
        pktType := fun y hy => ?_ }
    · have horder := h.order d hd
      change g.receivedBy _ ++ (g.burstQueue ++ [x]).filter _ = (g.produced ++ [x]).filter _
      rw [List.filter_append, List.filter_append, ← List.append_assoc]
      exact congrArg (· ++ _) horder
    · rcases List.mem_append.mp hy with hy | hy
      · exact h.waiting y hy
      · rw [List.mem_singleton.mp hy, hburst]
        exact hjoiner
    · rcases List.mem_append.mp hy with hy | hy
      · exact h.produced y hy
      · rw [List.mem_singleton.mp hy, hburst]
        exact le_rfl
    · rcases List.mem_append.mp hy with hy | hy
      · exact h.pktType y hy
      · rw [List.mem_singleton.mp hy]
        exact htype
  · intro hfaithful
    have hwaiting := hfaithful.waiting x (List.mem_append_right _ (List.mem_singleton_self x))
    rw [hburst] at hwaiting
    exact hwaiting

theorem subcmdHandleOne_keeps (h : Sound g) (env : HandlerEnv) {p : GamePkt}
    (hactive : g.Active c)
    (htype : p.pktType = gameCommand2Type ∨ p.pktType = gameCommandDType) :
    Keeps Sound Faithful (g.subcmdHandleOne env c p).1 (Accepted g env c p →
      ∃ d ∈ g.members, (g.joiners d).bursting = true ∧ (g.joiners d).burst = g.joins) := by
  have htypes : ¬(p.pktType ≠ gameCommand0Type ∧ p.pktType ≠ gameCommand2Type ∧
      p.pktType ≠ gameCommandDType) := by
    rintro ⟨-, htwo, hd⟩
    exact htype.elim htwo hd
  rw [subcmdHandleOne]
  split_ifs with hnte hdest hbursting hburst hquest
  · refine keeps_of_invariant h fun haccepted => ?_
    have hcurrent := haccepted.current
    rw [hnte] at hcurrent
    cases hcurrent
  · refine keeps_of_invariant h fun haccepted => ?_
    have hpresent := haccepted.destPresent
    rw [hdest] at hpresent
    cases hpresent
  · rw [lobbyEnqueueBurst, if_neg (by rw [hbursting]; decide), if_neg htypes]
    split_ifs with hallocated
    · refine keeps_of_invariant h fun haccepted => ?_
      have hmemory := haccepted.allocated
      rw [hallocated] at hmemory
      cases hmemory
    · rw [Bool.not_eq_false] at hdest hallocated
      rw [Bool.not_eq_true] at hnte
      have haccepted : Accepted g env c p :=
        ⟨hactive, hnte, hdest, hbursting, hquest, hallocated, hburst, htype⟩
      obtain ⟨hsound, hjoiner⟩ :=
        putBurst_keeps (x := { src := c, pkt := p, burst := g.joins }) h rfl hquest htype
      exact ⟨fun hP => hsound (hP haccepted), fun hfaithful _ => hjoiner hfaithful⟩
  · exact keeps_of_invariant h fun haccepted => absurd haccepted.questing hquest
  · exact keeps_of_invariant h fun haccepted => absurd haccepted.subcmd hburst
  · exact keeps_of_invariant h fun haccepted => absurd haccepted.bursting hbursting

theorem next_keeps (h : Sound g) (e : Event) : Keeps Sound Faithful (next g e) (Clear g e) := by
  cases e with
  | one env c p =>
    rw [next]
    split_ifs with hactive
    · exact settle_keeps (subcmdHandleOne_keeps h env hactive.1 hactive.2)
    · refine keeps_of_invariant h fun haccepted => ?_
      exact absurd ⟨haccepted.active, haccepted.pktType⟩ hactive
  | join c waitQping dcnte =>
    rw [next]
    split_ifs with hbursting
    · refine keeps_of_invariant h fun hcalm => ?_
      rw [hbursting] at hcalm
      cases hcalm
    · rw [Bool.not_eq_true] at hbursting
      obtain ⟨hsound, hqueued⟩ := join_keeps (c := c) h waitQping dcnte
      exact ⟨fun hP => hsound (hP hbursting), fun hfaithful _ => hqueued hfaithful⟩
  | setupQuest =>
    rw [next]
    split_ifs
    · exact keeps_of_invariant h trivial
    · refine keeps_of_invariant (h.of_sameQueue ?_ h.waiting) trivial
      exact ⟨rfl, fun _ => rfl, rfl, rfl, rfl, rfl, fun _ => rfl⟩
  | doneBurst gotChar result c =>
    rw [next]
    split_ifs with hactive
    · have hsound := dcProcessDoneBurst_sound h hactive.1 gotChar result
      exact settle_keeps (keeps_of_invariant hsound trivial)
    · exact keeps_of_invariant h trivial
  | ping sent result c =>
    rw [next]
    split_ifs with hactive
    · obtain ⟨hsound, hown⟩ := settle_keeps (c := c) (ping_keeps h hactive.1.1 sent result)
      exact ⟨fun hP => hsound (hP hactive.1 hactive.2), fun hfaithful _ _ => hown hfaithful⟩
    · exact keeps_of_invariant h fun hc hwait => absurd ⟨hc, hwait⟩ hactive
  | finishLoad result c =>
    rw [next]
    split_ifs with hactive
    · obtain ⟨hsound, hqueued⟩ :=
        settle_keeps (c := c) (r := (g.endBurst c, result)) (endBurst_keeps h hactive.1.1)
      exact ⟨fun hP => hsound (hP hactive.1 hactive.2), fun hfaithful _ _ => hqueued hfaithful⟩
    · exact keeps_of_invariant h fun hc hnte => absurd ⟨hc, hnte⟩ hactive
  | changeLobby c =>
    rw [next]
    split_ifs with hmember
    · obtain ⟨hsound, hqueued⟩ := leave_keeps h hmember
      exact ⟨fun hP => hsound (hP hmember), fun hfaithful _ => hqueued hfaithful⟩
    · exact keeps_of_invariant h fun hc => absurd hc hmember
  | remove c =>
    rw [next]
    split_ifs with hmember
    · obtain ⟨hsound, hqueued⟩ := lobbyRemovePlayer_keeps h hmember
      exact ⟨fun hP => hsound (hP hmember), fun hfaithful _ => hqueued hfaithful⟩
    · exact keeps_of_invariant h fun hc => absurd hc hmember

/-- Client 1 joins client 0 in a game with a quest, and disconnects while it is bursting. -/
def lostJoiner : List Event :=
  [.join 0 false false, .doneBurst true 0 0, .setupQuest, .join 1 false false,
    .one { destPresent := true, allocated := true, result := 0 } 0
      { pktType := gameCommand2Type, subcmd := 0x6D, dest := 1, body := [] },
    .remove 1]

end ShipServer.BurstReplay
