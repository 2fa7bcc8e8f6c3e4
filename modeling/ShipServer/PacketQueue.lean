import ShipServer.BlockInvariants

set_option autoImplicit false

namespace ShipServer.PacketQueue

open LabelledRuns LobbyRooms LobbyState LobbyFunctions DeferredPackets LobbyRefinement
open BlockPackets BlockEffects BlockInvariants

/-- Every source of a queued packet is in the lobby that queued it. -/
def Attended (r : Rooms) (m : Ledger) : Prop :=
  ∀ l, ∀ x ∈ m.pktQueue l, (r.presence x.1).curLobby = some l

/-- Every lobby has handed over what it queued, in that order and on behalf of members, but for
what still waits. -/
structure Deferred (r : Rooms) (m : Ledger) : Prop where
  history : ∀ l, m.accepted l = (m.handed l).map (fun x => (x.src, x.pkt)) ++ m.pktQueue l
  waiting : Attended r m
  members : ∀ l, ∀ x ∈ m.handed l, x.lobby = some l

/-- No handler of a queued packet returns an error, but perhaps the last one's. The handler of a
0x62 or 0x6D packet only runs if the slot that the packet is for is occupied. -/
def Drainable (env : Env) (m : Room) (queue : List (ClientId × GamePkt)) : Prop :=
  ∀ k x, queue[k]? = some x → k + 1 < queue.length →
    (x.2.pktType = gameCommand0Type ∨ destPresent env m x.2.dest = true) → env.result k = 0

/-- The events that drain the queue of a lobby. -/
inductive Drains (b : Block) (e : Event) (l : LobbyHandle) : Prop where
  | ended {c : ClientId} (ends : DoneBurst b e c l)
  | removed {c : ClientId} (leaves : Leaves b e c) (cur : (b.client c).curLobby = some l)
      (bursting : (b.client c).bursting = true)

/-- No handler fails in the middle of a queue, and no client leaves or moves while a packet of its
own waits, unless the queue is drained before it leaves. -/
structure Considerate (b : Block) (e : Event) : Prop where
  drains : ∀ l, Drains b e l → Drainable e.env (b.lobby l).toRoom (b.lobby l).pktQueue
  leaves : ∀ c l, Leaves b e c → (b.client c).curLobby = some l → (b.client c).bursting = false →
    ∀ x ∈ (b.lobby l).pktQueue, x.1 ≠ c
  moves : ∀ b₁ c l req, Granted b e b₁ c req → (b₁.rooms.room req).Spare → l ≠ req →
    (b.client c).curLobby = some l → ∀ x ∈ (b.lobby l).pktQueue, x.1 ≠ c

theorem Attended.pktQueue_nil {r : Rooms} {m : Ledger} (h : Attended r m) {l : LobbyHandle}
    (hnobody : ∀ d, (r.presence d).curLobby ≠ some l) : m.pktQueue l = [] := by
  refine List.eq_nil_iff_forall_not_mem.mpr ?_
  intro x hx
  exact hnobody x.1 (h l x hx)

/-- Throwing an empty queue away. -/
theorem clear_eq_self {m : Ledger} {l : LobbyHandle} (h : m.pktQueue l = []) : m.clear l = m := by
  rw [Ledger.clear, ← h, Function.update_eq_self]

theorem Deferred.mono {r r' : Rooms} {m : Ledger} (h : Deferred r m)
    (hcur : ∀ l, ∀ x ∈ m.pktQueue l, (r.presence x.1).curLobby = some l →
      (r'.presence x.1).curLobby = some l) : Deferred r' m :=
  ⟨h.history, fun l x hx => hcur l x hx (h.waiting l x hx), h.members⟩

theorem Deferred.submit {r : Rooms} {m : Ledger} (h : Deferred r m) (c : ClientId)
    (l : LobbyHandle) (passwd : List UInt8) : Deferred r (Ledger.submit m c l passwd) :=
  ⟨h.history, h.waiting, h.members⟩

theorem Deferred.accept {r : Rooms} {m : Ledger} (h : Deferred r m) {l : LobbyHandle}
    {x : ClientId × GamePkt} (hcur : (r.presence x.1).curLobby = some l) :
    Deferred r (m.accept l x) where
  history k := by
    by_cases hk : k = l
    · subst hk
      simp only [Ledger.accept, Function.update_self]
      rw [h.history k, List.append_assoc]
    · simp only [Ledger.accept, Function.update_of_ne hk]
      exact h.history k
  waiting k y hy := by
    by_cases hk : k = l
    · subst hk
      simp only [Ledger.accept, Function.update_self, List.mem_append, List.mem_singleton] at hy
      rcases hy with hy | rfl
      · exact h.waiting k y hy
      · exact hcur
    · simp only [Ledger.accept, Function.update_of_ne hk] at hy
      exact h.waiting k y hy
  members := h.members

/-- The ledger after a lobby has handed its whole queue over. -/
def dispatched (m : Ledger) (l : LobbyHandle) (queue : List (ClientId × GamePkt)) : Ledger :=
  { m with
    pktQueue := Function.update m.pktQueue l []
    handed := Function.update m.handed l
      (m.handed l ++ queue.map (fun x => ⟨x.1, x.2, some l⟩)) }

theorem Deferred.dispatch {r : Rooms} {m : Ledger} (h : Deferred r m) (l : LobbyHandle) :
    Deferred r (dispatched m l (m.pktQueue l)) where
  history k := by
    by_cases hk : k = l
    · subst hk
      simp only [dispatched, Function.update_self]
      rw [h.history k]
      simp [Function.comp_def]
    · simp only [dispatched, Function.update_of_ne hk]
      exact h.history k
  waiting k x hx := by
    by_cases hk : k = l
    · subst hk
      simp [dispatched] at hx
    · simp only [dispatched, Function.update_of_ne hk] at hx
      exact h.waiting k x hx
  members k x hx := by
    by_cases hk : k = l
    · subst hk
      simp only [dispatched, Function.update_self, List.mem_append, List.mem_map] at hx
      rcases hx with hx | ⟨y, -, rfl⟩
      · exact h.members k x hx
      · rfl
    · simp only [dispatched, Function.update_of_ne hk] at hx
      exact h.members k x hx

/-- The return code of the handler of a packet in a lobby that is not bursting. -/
def handlerResult (env : Env) (m : Room) (k : ℕ) (p : GamePkt) : Int :=
  if p.pktType = gameCommand0Type ∨ destPresent env m p.dest = true then env.result k else 0

theorem subcmdHandleBcast_calm {b : Block} (env : Env) (k : ℕ) {l : LobbyHandle} {c : ClientId}
    {p : GamePkt} (hcalm : (b.lobby l).bursting = false) (hcur : (b.client c).curLobby = some l)
    (hload : p.subcmd ≠ subcmdDcnteFinishLoad) :
    subcmdHandleBcast b env k c p = (b, env.result k) := by
  rw [subcmdHandleBcast, subcmdDcnteHandleBcast, hcur]
  split_ifs
  · simp [hload]
  · simp [hcalm]

theorem subcmdHandleOne_calm {b : Block} (env : Env) (k : ℕ) {l : LobbyHandle} {c : ClientId}
    (p : GamePkt) (hcalm : (b.lobby l).bursting = false)
    (hcur : (b.client c).curLobby = some l) :
    subcmdHandleOne b env k c p =
      (b, if destPresent env (b.lobby l).toRoom p.dest = true then env.result k else 0) := by
  rw [subcmdHandleOne, subcmdDcnteHandleOne, hcur]
  by_cases hnte : IsDcnte (b.client c)
  · rw [if_pos hnte]
  · rw [if_neg hnte]
    by_cases hdest : destPresent env (b.lobby l).toRoom p.dest = true
    · simp [hcalm, hdest]
    · simp [hdest]

/-- In a lobby that is not bursting, a queued packet of a member is handled, not queued again. -/
theorem redeliver_calm {b : Block} (env : Env) (k : ℕ) {l : LobbyHandle} {src : ClientId}
    {p : GamePkt} (hcalm : (b.lobby l).bursting = false)
    (hcur : (b.client src).curLobby = some l) (htype : Deferrable p) (hp : ¬ FinishLoad p) :
    redeliver b env k l src p =
      (noteHanded b l ⟨src, p, some l⟩, handlerResult env (b.lobby l).toRoom k p) := by
  rw [redeliver, handlerResult, hcur]
  by_cases hbcast : p.pktType = gameCommand0Type
  · simp only [hbcast, true_or, if_true]
    exact subcmdHandleBcast_calm env k hcalm hcur (fun hload => hp ⟨hbcast, hload⟩)
  · simp only [if_pos (htype.resolve_left hbcast), hbcast, false_or]
    exact subcmdHandleOne_calm env k p hcalm hcur

theorem drainOnce_cons {s : Block × Int × ℕ} (env : Env) {l : LobbyHandle} {src : ClientId}
    {p : GamePkt} {rest : List (ClientId × GamePkt)}
    (hqueue : (s.1.lobby l).pktQueue = (src, p) :: rest) (hrv : s.2.1 = 0) :
    drainOnce env l s =
      ((redeliver (popQueue s.1 l rest) env s.2.2 l src p).1,
        if (redeliver (popQueue s.1 l rest) env s.2.2 l src p).2 = 0 then 0 else -1,
        s.2.2 + 1) := by
  rw [drainOnce, hqueue]
  simp only [if_pos hrv]
  rfl

/-- What the loop of `lobby_handle_done_burst` needs: the lobby is open, the queue holds game
packets of members, and no handler but the last one's fails. -/
structure Ready (env : Env) (l : LobbyHandle) (b : Block) (k : ℕ)
    (queue : List (ClientId × GamePkt)) : Prop where
  queue_eq : (b.lobby l).pktQueue = queue
  calm : (b.lobby l).bursting = false
  sources : ∀ x ∈ queue, (b.client x.1).curLobby = some l
  plain : ∀ x ∈ queue, Deferrable x.2 ∧ ¬ FinishLoad x.2
  results : ∀ i x, queue[i]? = some x → i + 1 < queue.length →
    handlerResult env (b.lobby l).toRoom (k + i) x.2 = 0

/-- One turn of the loop hands the first packet over and leaves the rest ready. -/
theorem Ready.step {env : Env} {l : LobbyHandle} {b : Block} {k : ℕ} {src : ClientId}
    {p : GamePkt} {rest : List (ClientId × GamePkt)} (h : Ready env l b k ((src, p) :: rest)) :
    ∃ b₁ rv, drainOnce env l (b, 0, k) = (b₁, rv, k + 1) ∧
      b₁ = noteHanded (popQueue b l rest) l ⟨src, p, some l⟩ ∧
      (rest ≠ [] → rv = 0) ∧ Ready env l b₁ (k + 1) rest := by
  have hcalm : ((popQueue b l rest).lobby l).bursting = false := by
    rw [popQueue, Block.lobby_modLobby]
    exact h.calm
  have hroom : ((popQueue b l rest).lobby l).toRoom = (b.lobby l).toRoom := by
    rw [popQueue, Block.lobby_modLobby]
  have hcur : ((popQueue b l rest).client src).curLobby = some l := h.sources _ List.mem_cons_self
  obtain ⟨htype, hp⟩ := h.plain _ List.mem_cons_self
  have hredeliver := redeliver_calm env k hcalm hcur htype hp
  have hturn := drainOnce_cons (s := (b, 0, k)) env h.queue_eq rfl
  rw [hredeliver, hroom] at hturn
  refine ⟨_, _, hturn, rfl, ?_, ?_⟩
  · intro hrest
    have hlast : 0 + 1 < ((src, p) :: rest).length := by
      have hpos := List.length_pos_of_ne_nil hrest
      rw [List.length_cons]
      omega
    have hzero := h.results 0 (src, p) rfl hlast
    rw [Nat.add_zero] at hzero
    exact if_pos hzero
  · refine ⟨?_, hcalm, ?_, ?_, ?_⟩
    · change ((popQueue b l rest).lobby l).pktQueue = rest
      rw [popQueue, Block.lobby_modLobby]
    · intro x hx
      exact h.sources x (List.mem_cons_of_mem _ hx)
    · intro x hx
      exact h.plain x (List.mem_cons_of_mem _ hx)
    · intro i x hx hi
      have hresult := h.results (i + 1) x hx (by rw [List.length_cons]; omega)
      change handlerResult env ((popQueue b l rest).lobby l).toRoom (k + 1 + i) x.2 = 0
      rw [hroom, Nat.add_assoc, Nat.add_comm 1 i]
      exact hresult

/-- The loop hands the whole queue over, in order. -/
theorem Ready.drain {env : Env} {l : LobbyHandle} {b : Block} {k : ℕ}
    {queue : List (ClientId × GamePkt)} (h : Ready env l b k queue) :
    ((drainOnce env l)^[queue.length] (b, 0, k)).1.ledger = dispatched b.ledger l queue := by
  induction queue generalizing b k with
  | nil =>
    have hnil : b.ledger.pktQueue l = [] := h.queue_eq
    simp only [List.length_nil, Function.iterate_zero, id, dispatched, List.map_nil,
      List.append_nil, Function.update_eq_self]
    rw [← hnil, Function.update_eq_self]
  | cons x rest ih =>
    obtain ⟨src, p⟩ := x
    obtain ⟨b₁, rv, hturn, hb₁, hrv, hready⟩ := h.step
    have hstep : dispatched b₁.ledger l rest = dispatched b.ledger l ((src, p) :: rest) := by
      have hnote : b₁.ledger = (popQueue b l rest).ledger.handOver l ⟨src, p, some l⟩ := by
        rw [hb₁]
        rfl
      rw [hnote, popQueue, Block.ledger_modLobby]
      simp [dispatched, Ledger.handOver]
    rw [List.length_cons, Function.iterate_succ_apply, hturn, ← hstep]
    cases rest with
    | nil => exact ih hready
    | cons y rest =>
      rw [hrv (List.cons_ne_nil y rest)]
      exact ih hready

theorem lobbyHandleDoneBurst_dispatched {b : Block} {env : Env} {l : LobbyHandle}
    (hsane : Ledger.Sane b.ledger) (hwaiting : Attended b.rooms b.ledger)
    (hcalm : (b.lobby l).bursting = false)
    (hdrain : Drainable env (b.rooms.room l) (b.ledger.pktQueue l)) :
    (lobbyHandleDoneBurst b env l).1.ledger = dispatched b.ledger l (b.ledger.pktQueue l) := by
  have hready : Ready env l b 0 (b.lobby l).pktQueue := by
    refine ⟨rfl, hcalm, hwaiting l, hsane l, ?_⟩
    intro i x hx hi
    rw [Nat.zero_add, handlerResult]
    split_ifs with hcalled
    · exact hdrain i x hx hi hcalled
    · rfl
  exact hready.drain

/-- A packet that is handed over leaves the queue of an open lobby alone, whoever sent it. -/
theorem redeliver_pktQueue {b : Block} (env : Env) (k : ℕ) {l : LobbyHandle} (src : ClientId)
    (p : GamePkt) (hcalm : (b.lobby l).bursting = false) :
    ((redeliver b env k l src p).1.lobby l).pktQueue = (b.lobby l).pktQueue ∧
      ((redeliver b env k l src p).1.lobby l).bursting = false := by
  constructor
  · change (redeliver b env k l src p).1.ledger.pktQueue l = b.ledger.pktQueue l
    rcases redeliver_queued b env k l src p with hsame | hsame | ⟨h, -, hburst, -, hsame⟩
    · rw [hsame]
    · rw [hsame]
      rfl
    · have hne : l ≠ h := by
        rintro rfl
        have hcalm' : (b.rooms.room l).bursting = false := hcalm
        rw [hcalm'] at hburst
        cases hburst
      rw [hsame, Ledger.accept]
      exact Function.update_of_ne hne _ _
  · change ((redeliver b env k l src p).1.rooms.room l).bursting = false
    have hcalm' : (b.rooms.room l).bursting = false := hcalm
    rw [redeliver]
    split_ifs
    · rcases subcmdHandleBcast_rooms (noteHanded b l ⟨src, p, (b.client src).curLobby⟩) env k src p
        with hsame | ⟨h, -, -, -, -, hsame⟩
      · rw [hsame]
        exact hcalm'
      · rw [hsame]
        by_cases hl : l = h
        · rw [hl, Rooms.endBurst, Rooms.room_setRoom]
        · rw [Rooms.endBurst, Rooms.room_setRoom_ne _ hl]
          exact hcalm'
    · rw [subcmdHandleOne_rooms]
      exact hcalm'
    · exact hcalm'

/-- Each turn of the loop shortens the queue of an open lobby by one, whatever is in it. -/
theorem drainOnce_pktQueue (env : Env) {l : LobbyHandle} {s : Block × Int × ℕ}
    (hcalm : (s.1.lobby l).bursting = false) :
    ((drainOnce env l s).1.lobby l).pktQueue = (s.1.lobby l).pktQueue.tail ∧
      ((drainOnce env l s).1.lobby l).bursting = false := by
  rw [drainOnce]
  cases hqueue : (s.1.lobby l).pktQueue with
  | nil => exact ⟨hqueue, hcalm⟩
  | cons x rest =>
    obtain ⟨src, p⟩ := x
    have hpop : ((popQueue s.1 l rest).lobby l).pktQueue = rest ∧
        ((popQueue s.1 l rest).lobby l).bursting = false := by
      rw [popQueue, Block.lobby_modLobby]
      exact ⟨rfl, hcalm⟩
    dsimp only
    by_cases hrv : s.2.1 = 0
    · rw [if_pos hrv]
      obtain ⟨hsame, hcalm'⟩ := redeliver_pktQueue env s.2.2 src p hpop.2
      exact ⟨hsame.trans hpop.1, hcalm'⟩
    · rw [if_neg hrv]
      exact hpop

theorem lobbyHandleDoneBurst_pktQueue {b : Block} (env : Env) {l : LobbyHandle}
    (hcalm : (b.lobby l).bursting = false) :
    ((lobbyHandleDoneBurst b env l).1.lobby l).pktQueue = [] := by
  have hturns : ∀ n s, (s.1.lobby l).bursting = false →
      (((drainOnce env l)^[n] s).1.lobby l).pktQueue = (s.1.lobby l).pktQueue.drop n := by
    intro n
    induction n with
    | zero => exact fun s _ => rfl
    | succ n ih =>
      intro s hs
      obtain ⟨hqueue, hcalm'⟩ := drainOnce_pktQueue env hs
      rw [Function.iterate_succ_apply, ih _ hcalm', hqueue, List.drop_tail]
  rw [lobbyHandleDoneBurst]
  dsimp only
  rw [hturns _ (b, 0, 0) hcalm, List.drop_length]

theorem deferred_endOwnBurst {b : Block} (hb : BlockSound b) (h : Deferred b.rooms b.ledger)
    {env : Env} {c : ClientId} {l : LobbyHandle}
    (hdrain : (b.rooms.presence c).bursting = true →
      Drainable env (b.rooms.room l) (b.ledger.pktQueue l))
    (hquiet : (b.rooms.presence c).bursting = false → ∀ x ∈ b.ledger.pktQueue l, x.1 ≠ c) :
    Deferred b.rooms (endOwnBurst b env c l).ledger ∧
      ∀ x ∈ (endOwnBurst b env c l).ledger.pktQueue l, x.1 ≠ c := by
  rw [endOwnBurst]
  by_cases hburst : (b.client c).bursting = true
  · rw [if_pos hburst]
    have hdrainable := hdrain hburst
    generalize hopen : b.modLobby l (fun l => { l with bursting := false }) = b₀
    have hrooms : b₀.rooms = b.rooms.quieten l := by
      rw [← hopen]
      exact setBursting_rooms b l
    have hledger : b₀.ledger = b.ledger := by
      rw [← hopen]
      exact setBursting_ledger b l
    have hlobby : b₀.lobby l = { b.lobby l with bursting := false } := by
      rw [← hopen, Block.lobby_modLobby]
    have hcalm : (b₀.lobby l).bursting = false := by rw [hlobby]
    have hready : Drainable env (b₀.rooms.room l) (b₀.ledger.pktQueue l) := by
      rw [hrooms, hledger, Rooms.quieten, Rooms.room_setRoom]
      exact hdrainable
    have hdispatched := lobbyHandleDoneBurst_dispatched (hledger ▸ hb.sane)
      (by rw [hrooms, hledger]; exact h.waiting) hcalm hready
    rw [hdispatched, hledger]
    refine ⟨h.dispatch l, ?_⟩
    intro x hx
    simp [dispatched] at hx
  · rw [if_neg hburst]
    exact ⟨h, hquiet (Bool.eq_false_iff.mpr hburst)⟩

theorem deferred_remove {b : Block} (hb : BlockSound b) (h : Deferred b.rooms b.ledger)
    {env : Env} {c : ClientId}
    (hdrain : ∀ l, (b.rooms.presence c).curLobby = some l →
      (b.rooms.presence c).bursting = true →
      Drainable env (b.rooms.room l) (b.ledger.pktQueue l))
    (hquiet : ∀ l, (b.rooms.presence c).curLobby = some l →
      (b.rooms.presence c).bursting = false → ∀ x ∈ b.ledger.pktQueue l, x.1 ≠ c) :
    Deferred (lobbyRemovePlayer b env c).1.rooms (lobbyRemovePlayer b env c).1.ledger := by
  cases hcur : (b.rooms.presence c).curLobby with
  | none =>
    rw [lobbyRemovePlayer_absent env hcur]
    exact h
  | some l =>
    obtain ⟨hown, hothers⟩ := deferred_endOwnBurst hb h (hdrain l hcur) (hquiet l hcur)
    have hsound := endOwnBurst_sound hb env c l
    have hpresence := endOwnBurst_presence env c l hb.sane
    have hi : ((endOwnBurst b env c l).rooms.room l).clients (b.rooms.presence c).clientId =
        some c := by
      rw [← hpresence] at hcur ⊢
      exact hsound.rooms.clients_of_curLobby hcur
    obtain ⟨v, left, hv, hleft, hrooms, hledger⟩ := lobbyRemovePlayer_leave hb env hcur
    have hleftSound : left.Sound := by
      rw [hleft]
      exact hsound.rooms.leave hi hv
    have hgone : Deferred left (endOwnBurst b env c l).ledger := by
      refine hown.mono ?_
      intro k x hx hk
      have hne : x.1 ≠ c := by
        intro heq
        rw [heq, hcur] at hk
        cases hk
        exact hothers x hx heq
      rw [hleft, Rooms.leave, Rooms.presence_setPresence_ne _ hne, Rooms.presence_vacate,
        hpresence]
      exact hk
    have hclear : (if left.Deserted l then (endOwnBurst b env c l).ledger.clear l
        else (endOwnBurst b env c l).ledger) = (endOwnBurst b env c l).ledger := by
      split_ifs with hempty
      · exact clear_eq_self (hgone.waiting.pktQueue_nil (hleftSound.curLobby_ne_of_deserted hempty))
      · rfl
    rw [hrooms, hledger, hclear]
    refine hgone.mono ?_
    intro k x _ hk
    rwa [Rooms.presence_close]

theorem Deferred.lounged {r r' : Rooms} {m : Ledger} {c : ClientId} (h : Deferred r m)
    (hnowhere : (r.presence c).curLobby = none) (harrived : Lounged r c r') : Deferred r' m := by
  obtain ⟨l, i, rfl, -⟩ := harrived
  refine h.mono ?_
  intro k x _ hk
  rw [Rooms.curLobby_sit]
  split_ifs with hx
  · rw [hx, hnowhere] at hk
    cases hk
  · exact hk

theorem Deferred.enter {accepted : Prop} {r r' : Rooms} {m m' : Ledger} {c : ClientId}
    {req : LobbyHandle} {rv : Int} (h : Deferred r m) (hr : r.Sound)
    (hmoves : ∀ l, accepted → (r.room req).Spare → l ≠ req → (r.presence c).curLobby = some l →
      ∀ x ∈ m.pktQueue l, x.1 ≠ c)
    (henter : Enter accepted r m c req rv r' m') : Deferred r' m' := by
  cases henter with
  | refused _ => exact h
  | lounged nowhere arrived => exact h.lounged nowhere arrived
  | stayed _ _ _ =>
    refine h.mono ?_
    intro k x _ hk
    rwa [Rooms.curLobby_settle]
  | @moved l j v left ok cur other _ spare free below version gone =>
    have hothers := hmoves l ok spare other cur
    have hleft : left.Sound := by
      rw [gone]
      exact hr.move other (hr.clients_of_curLobby cur) free below version
    have hgone : Deferred left m := by
      refine h.mono ?_
      intro k x hx hk
      have hne : x.1 ≠ c := by
        intro heq
        rw [heq, cur] at hk
        cases hk
        exact hothers x hx heq
      rw [gone, Rooms.presence_vacate, Rooms.curLobby_sit, if_neg hne]
      exact hk
    have hclear : (if left.Deserted l then m.clear l else m) = m := by
      split_ifs with hempty
      · exact clear_eq_self (hgone.waiting.pktQueue_nil (hleft.curLobby_ne_of_deserted hempty))
      · rfl
    rw [hclear]
    refine hgone.mono ?_
    intro k x _ hk
    rwa [Rooms.curLobby_settle, Rooms.presence_close]

theorem Deferred.enterNew {accepted : Prop} {r r' : Rooms} {m m' : Ledger} {c : ClientId}
    {req : LobbyHandle} (h : Deferred r m) (hr : r.Sound)
    (hgame : (r.room req).type ≠ .lobby) (hnobody : ∀ d, (r.presence d).curLobby ≠ some req)
    (hmoves : ∀ l, accepted → (r.room req).Spare → l ≠ req → (r.presence c).curLobby = some l →
      ∀ x ∈ m.pktQueue l, x.1 ≠ c)
    (henter : EnterNew accepted r m c req r' m') : Deferred r' m' := by
  obtain ⟨rv, r₁, m₁, henter, rfl, rfl⟩ := henter
  have h₁ := h.enter hr hmoves henter
  split_ifs with hrv
  · exact h₁
  · rw [clear_eq_self (h₁.waiting.pktQueue_nil (nobody_of_enter henter hrv hgame hnobody))]
    exact h₁.mono (fun _ _ _ hk => hk)

/-- The queue of a lobby that does not exist yet is empty. -/
theorem deferred_made {b b₁ : Block} {c : ClientId} {m : Room} {listed : Bool}
    (hb : BlockSound b) (h : Deferred b.rooms b.ledger) (made : Made b c m listed b₁) :
    Deferred b₁.rooms b₁.ledger ∧ ∀ l, b₁.ledger.pktQueue l = b.ledger.pktQueue l := by
  have hpresence : b₁.rooms.presence = b.rooms.presence := by
    rw [made.rooms]
    split_ifs <;> rfl
  have hnil : b.ledger.pktQueue b.rooms.nextLobby = [] :=
    h.waiting.pktQueue_nil (fun d hcur => (curLobby_lt hb.rooms hcur).false)
  have hsubmit := h.submit c b.rooms.nextLobby m.passwd
  have hclear := clear_eq_self (m := Ledger.submit b.ledger c b.rooms.nextLobby m.passwd) hnil
  rw [made.ledger, hclear]
  refine ⟨hsubmit.mono ?_, fun _ => rfl⟩
  intro k x _ hk
  rw [hpresence]
  exact hk

theorem next_deferred {b : Block} (hb : Invariant b) (h : Deferred b.rooms b.ledger) {e : Event}
    (hcond : Considerate b e) : Deferred (next b e).rooms (next b e).ledger := by
  have heffect := next_effect hb.toBlockSound e
  generalize (next b e).rooms = r', (next b e).ledger = m' at heffect
  have hdrains : ∀ c, Leaves b e c → ∀ l, (b.rooms.presence c).curLobby = some l →
      (b.rooms.presence c).bursting = true →
      Drainable e.env (b.rooms.room l) (b.ledger.pktQueue l) :=
    fun c hleaves l hcur hburst => hcond.drains l (.removed hleaves hcur hburst)
  cases heffect with
  | quiet => exact h
  | repassworded _ _ _ => exact h.mono (fun _ _ _ hk => hk)
  | lounged nowhere arrived => exact h.lounged nowhere arrived
  | @removed c b₁ leaves same =>
    have hleave := hdrains c leaves
    have hquiet := fun l => hcond.leaves c l leaves
    have hb₁ := same.sound hb.toBlockSound
    refine deferred_remove hb₁ (by rw [same.1, same.2]; exact h) ?_ ?_
    · rw [same.1, same.2]
      exact hleave
    · rw [same.1, same.2]
      exact hquiet
  | @disconnected c m' leaves ledger =>
    have hgone := deferred_remove hb.toBlockSound h (hdrains c leaves)
      (fun l => hcond.leaves c l leaves)
    have horderly := orderly_remove hb.toBlockSound hb.orderly e.env c
    have hcur := lobbyRemovePlayer_curLobby hb.toBlockSound e.env c
    have hm' : m' = (lobbyRemovePlayer b e.env c).1.ledger := by
      rcases ledger with hsame | ⟨l, hpending, hclear⟩
      · exact hsame
      · rw [hclear]
        rw [← lobbyRemovePlayer_createLobby hb.toBlockSound e.env c c] at hpending
        obtain ⟨-, hunlisted, hgame, -⟩ := horderly.waiting c l hpending
        exact clear_eq_self (hgone.waiting.pktQueue_nil
          (fun d hd => hunlisted (horderly.inside d l hd hgame)))
    rw [hm']
    refine hgone.mono ?_
    intro k x _ hk
    have hne : x.1 ≠ c := by
      intro heq
      rw [heq, hcur] at hk
      cases hk
    rwa [Rooms.presence_setPresence_ne _ hne]
  | changed _ _ enter =>
    refine h.enter hb.rooms ?_ enter
    intro l hgranted hspare hne hcur
    exact hcond.moves b _ l _ hgranted hspare hne hcur
  | submitted passwd _ => exact h.submit _ _ passwd
  | @selected c l passwd rv r' m' _ _ enter =>
    refine (h.submit c l passwd).enter hb.rooms ?_ enter
    intro k hgranted hspare hne hcur
    exact hcond.moves (submit b c l passwd) c k l hgranted hspare hne hcur
  | @created c m b₁ r' m' made enter =>
    obtain ⟨hb₁, -, hroom, hnobody⟩ := listed_of_made made hb
    obtain ⟨hmade, hqueue⟩ := deferred_made hb.toBlockSound h made
    refine hmade.enterNew hb₁.rooms ?_ hnobody ?_ enter
    · rw [hroom]
      exact made.newRoom.isGame
    · intro k hgranted hspare hne hcur x hx
      have hpresence : b₁.rooms.presence = b.rooms.presence := by
        rw [made.rooms]
        split_ifs <;> rfl
      rw [hpresence] at hcur
      rw [hqueue] at hx
      exact hcond.moves b₁ c k _ hgranted hspare hne hcur x hx
  | @waiting c m b₁ made _ =>
    obtain ⟨hmade, -⟩ := deferred_made hb.toBlockSound h made
    refine hmade.mono ?_
    intro k x _ hk
    by_cases hd : x.1 = c
    · rw [hd, Rooms.presence_setPresence]
      rwa [hd] at hk
    · rwa [Rooms.presence_setPresence_ne _ hd]
  | @typed c l v b₁ r' m' pending _ rooms ledger enter =>
    obtain ⟨-, hsound, -, hgame, hnobody⟩ := orderly_typed hb.orderly hb.rooms pending rooms
    have hcurs : ∀ d, (b₁.rooms.presence d).curLobby = (b.rooms.presence d).curLobby := by
      intro d
      rw [rooms]
      by_cases hd : d = c
      · rw [hd, Rooms.presence_setPresence]
      · rw [Rooms.presence_setPresence_ne _ hd]
        rfl
    have hdeferred : Deferred b₁.rooms b₁.ledger := by
      rw [ledger]
      refine h.mono ?_
      intro k x _ hk
      rw [hcurs]
      exact hk
    refine hdeferred.enterNew hsound hgame hnobody ?_ enter
    intro k hgranted hspare hne hcur x hx
    rw [hcurs] at hcur
    rw [ledger] at hx
    exact hcond.moves b₁ c k l hgranted hspare hne hcur x hx
  | @burstEnded c l b₁ ends rooms ledger =>
    have hopen : Deferred b₁.rooms b₁.ledger := by
      rw [rooms, ledger]
      refine h.mono ?_
      intro k x _ hk
      rwa [Rooms.curLobby_endBurst]
    have hroom : b₁.rooms.room l = { b.rooms.room l with bursting := false } := by
      rw [rooms, Rooms.endBurst, Rooms.room_setRoom]
    have hcalm : (b₁.rooms.room l).bursting = false := by rw [hroom]
    have hdrain : Drainable e.env (b₁.rooms.room l) (b₁.ledger.pktQueue l) := by
      rw [hroom, ledger]
      exact hcond.drains l (.ended ends)
    have hsane : Ledger.Sane b₁.ledger := ledger ▸ hb.sane
    rw [lobbyHandleDoneBurst_rooms e.env l hsane,
      lobbyHandleDoneBurst_dispatched hsane hopen.waiting hcalm hdrain]
    exact hopen.dispatch l
  | loaded _ =>
    refine h.mono ?_
    intro k x _ hk
    rwa [Rooms.curLobby_endBurst]
  | sent _ queued =>
    rcases queued with rfl | ⟨l, hcur, -, -, rfl⟩
    · exact h
    · exact h.accept hcur

/-- A packet that is not handled during a burst. -/
def movement : GamePkt :=
  { pktType := gameCommand0Type, subcmd := 0x40, dest := 0, body := [] }

/-- Client 1 joins the game of client 0, which sends a packet. -/
def joinRun : List Event :=
  obliging [.charData 0 false newcomer, .gameCreate 0 (gameWith []), .doneBurst 0,
    .charData 1 false newcomer, .menuGame 1 0x20 [], .gamePkt 0 movement]

/-- A step that takes nobody off the block, and whose client has nothing in a queue if it asks for
another lobby. -/
theorem considerate_of_stay {b : Block} {a : Action} (hdisconnect : ∀ c, a ≠ .disconnect c)
    (hcharData : ∀ c pl, a ≠ .charData c true pl)
    (hmoves : ∀ b₁ c l req, changeRequest b ⟨obligingEnv, a⟩ = some (b₁, c, req) →
      (b.client c).curLobby = some l → ∀ x ∈ (b.lobby l).pktQueue, x.1 ≠ c) :
    Considerate b ⟨obligingEnv, a⟩ := by
  have hstay : ∀ c, ¬ Leaves b ⟨obligingEnv, a⟩ c := by
    rintro c (haction | ⟨haction, -⟩)
    · exact hdisconnect c haction
    · exact hcharData c _ haction
  refine ⟨fun l _ k x _ _ _ => rfl, ?_, ?_⟩
  · intro c l hleaves
    exact absurd hleaves (hstay c)
  · intro b₁ c l req hgranted _ _ hcur
    exact hmoves b₁ c l req hgranted.1 hcur

end ShipServer.PacketQueue
