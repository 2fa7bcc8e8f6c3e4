import ShipServer.LobbyRooms
import ShipServer.QuestSetup
import ShipServer.WriteLogs

set_option autoImplicit false

namespace ShipServer.SyncedRegisters

open LabelledRuns LobbyRooms TracedReads QuestFunctions QuestStack QuestSetup WriteLogs

/-- A packet that waits for the end of a burst. -/
inductive GamePacket where
  | syncReg (pkt : SyncReg)
  | other

/-- What the server knows of a client: whether it is in the game, and some of its flags. -/
structure Status where
  inGame : Bool
  disconnected : Bool
  bursting : Bool
  waitQping : Bool
  deriving DecidableEq

/-- A client, with the registers of the quest on its side. -/
structure Player extends Status where
  stack : QuestClient
  registers : BitVec 8 → BitVec 32

/-- A game with a quest. `lastSet` has what the clients have set the registers to, in the order in
which their packets have come in. -/
structure Game where
  regs : QuestRegs
  bursting : Bool
  pktQueue : List (ClientId × GamePacket)
  players : ClientId → Player
  lastSet : BitVec 8 → BitVec 32

/-- What the handler of a packet meets: the team that a quest function sees, and the return code
if the packet is no register sync. -/
structure HandlerEnv extends SyncEnv where
  team : QuestLobby
  result : ℤ

/-- What the handler of a `PING` meets: the handlers of the deferred packets, and whether its own
packets can be sent. -/
structure PingEnv where
  handler : ℕ → HandlerEnv
  pingSent : Bool
  regSent : ℕ → Bool

def Player.newcomer (stack : QuestClient) (waitQping : Bool) : Player where
  inGame := true
  disconnected := false
  bursting := true
  waitQping := waitQping
  stack := stack
  registers _ := 0

def Player.set (x : Player) (reg : BitVec 8) (value : BitVec 32) : Player :=
  { x with registers := Function.update x.registers reg value }

namespace Game

def modPlayer (g : Game) (c : ClientId) (f : Player → Player) : Game :=
  { g with players := Function.update g.players c (f (g.players c)) }

def hangUp (g : Game) (c : ClientId) : Game :=
  g.modPlayer c fun x => { x with disconnected := true }

/-- A client has set a register of its quest, and says so. -/
def clientSets (g : Game) (c : ClientId) : GamePacket → Game
  | .syncReg pkt =>
    { g.modPlayer c (fun x => x.set pkt.regNum pkt.value) with
      lastSet := Function.update g.lastSet pkt.regNum pkt.value }
  | .other => g

/-- `subcmd_send_lobby_dc`. -/
def forward (g : Game) (c : ClientId) (pkt : SyncReg) : Game :=
  { g with
    players := fun d =>
      if (g.players d).inGame = true ∧ d ≠ c then (g.players d).set pkt.regNum pkt.value
      else g.players d }

def syncEvent (g : Game) (env : HandlerEnv) (pkt : SyncReg) : StackEvent :=
  .syncReg env.toSyncEnv { env.team with toQuestRegs := g.regs } pkt

def syncResult (g : Game) (env : HandlerEnv) (c : ClientId) (pkt : SyncReg) : SyncResult :=
  QuestStack.handleSyncReg env.toSyncEnv { env.team with toQuestRegs := g.regs }
    (g.players c).stack pkt

/-- What a register sync changes for its sender and for the game. -/
def answer (g : Game) (c : ClientId) (r : SyncResult) : Game :=
  { g.modPlayer c (fun x => r.sent.foldl (fun x s => x.set s.1 s.2) { x with stack := r.client }) with
    regs := r.lobby.toQuestRegs }

def handleSyncReg (g : Game) (env : HandlerEnv) (c : ClientId) (pkt : SyncReg) : Game :=
  let r := g.syncResult env c pkt
  if r.forwarded then (g.answer c r).forward c pkt else g.answer c r

/-- `subcmd_handle_bcast` and `subcmd_handle_one` in a game that is not bursting. The packets of
clients that have left are ignored. -/
def handle (g : Game) (env : HandlerEnv) (c : ClientId) (p : GamePacket) : Game × ℤ :=
  if (g.players c).inGame then
    match p with
    | .syncReg pkt => (g.handleSyncReg env c pkt, 0)
    | .other => (g, env.result)
  else (g, 0)

/-- The deferred packets are handled until one of them is in error. -/
def drain (g : Game) (env : ℕ → HandlerEnv) : List (ClientId × GamePacket) → Game × ℤ
  | [] => (g, 0)
  | x :: queue =>
    let (g, rv) := g.handle (env 0) x.1 x.2
    if rv = 0 then g.drain (fun k => env (k + 1)) queue else (g, -1)

/-- The synced registers that are not zero are sent to a client. -/
def replay (g : Game) (c : ClientId) (sent : ℕ → Bool) : List (BitVec 8 × BitVec 32) → Game × ℤ
  | [] => (g, 0)
  | (reg, value) :: regs =>
    if value ≠ 0 then
      if sent 0 then
        (g.modPlayer c fun x => x.set reg value).replay c (fun k => sent (k + 1)) regs
      else (g, -1)
    else g.replay c (fun k => sent (k + 1)) regs

/-- `lobby_handle_done_burst`, the client being `none` if it is about to leave. -/
def lobbyHandleDoneBurst (g : Game) (handler : ℕ → HandlerEnv) (sent : ℕ → Bool)
    (c : Option ClientId) : Game × ℤ :=
  let (g, rv) := { g with pktQueue := [] }.drain handler g.pktQueue
  match c with
  | some c =>
    if g.regs.flagSync then
      let (g, rv') := g.replay c sent g.regs.syncregs
      (g, if rv' = 0 then rv else -1)
    else (g, rv)
  | none => (g, rv)

end Game

/-- The server still listens to a client of the game. -/
def Status.Active (x : Status) : Prop :=
  x.inGame = true ∧ x.disconnected = false

instance (x : Status) : Decidable x.Active :=
  inferInstanceAs (Decidable (_ ∧ _))

/-- Packets of the game, and the ways into and out of it. A client is in the game from `join` on,
gets the quest with `doneBurst`, and ends its burst with `ping`. -/
inductive Event where
  | packet (env : HandlerEnv) (allocated : Bool) (c : ClientId) (p : GamePacket)
  | join (c : ClientId) (stack : QuestClient) (clientId : ℕ) (waitQping : Bool)
  | doneBurst (c : ClientId)
  | ping (env : PingEnv) (c : ClientId)
  | changeLobby (c : ClientId)
  | remove (handler : ℕ → HandlerEnv) (c : ClientId)

namespace Game

/-- `subcmd_handle_bcast`. A packet that there is no memory for sets nothing. -/
def packet (g : Game) (env : HandlerEnv) (allocated : Bool) (c : ClientId) (p : GamePacket) :
    Game :=
  if g.bursting then
    if allocated then { g.clientSets c p with pktQueue := g.pktQueue ++ [(c, p)] } else g.hangUp c
  else
    let (g, rv) := (g.clientSets c p).handle env c p
    if rv = 0 then g else g.hangUp c

/-- The flags that the handler of a `PING` clears first. -/
def resume (g : Game) (c : ClientId) : Game :=
  { g.modPlayer c (fun x => { x with bursting := false, waitQping := false }) with
    bursting := false }

/-- `PING` from a client that has been sent the quest. -/
def ping (g : Game) (env : PingEnv) (c : ClientId) : Game :=
  let (g, rv) := (g.resume c).lobbyHandleDoneBurst env.handler env.regSent (some c)
  if env.pingSent = true ∧ rv = 0 then g else g.hangUp c

/-- A game that a bursting client is about to leave. -/
def abandon (g : Game) (handler : ℕ → HandlerEnv) (c : ClientId) : Game :=
  if (g.players c).bursting then
    ({ g with bursting := false }.lobbyHandleDoneBurst handler (fun _ => true) none).1
  else g

def dismiss (g : Game) (c : ClientId) : Game :=
  g.modPlayer c fun x => { x with inGame := false }

/-- `lobby_change_lobby` into the game, which begins a burst. -/
def join (g : Game) (c : ClientId) (stack : QuestClient) (clientId : ℕ) (waitQping : Bool) : Game :=
  { g.modPlayer c (fun _ => Player.newcomer (stack.joinGame clientId) waitQping) with
    bursting := true }

/-- `dc_process_done_burst`: the client is sent the quest, which it starts from the beginning. -/
def doneBurst (g : Game) (c : ClientId) : Game :=
  g.modPlayer c fun x => { x with waitQping := true, registers := fun _ => 0 }

end Game

def next (g : Game) : Event → Game
  | .packet env allocated c p =>
    if (g.players c).Active then g.packet env allocated c p else g
  | .join c stack clientId waitQping =>
    if g.bursting then g else g.join c stack clientId waitQping
  | .doneBurst c => if (g.players c).Active then g.doneBurst c else g
  | .ping env c =>
    if (g.players c).Active ∧ (g.players c).waitQping = true then g.ping env c else g
  | .changeLobby c => g.dismiss c
  | .remove handler c =>
    if (g.players c).inGame then (g.abandon handler c).dismiss c else g

@[simp]
theorem Game.modPlayer_self (g : Game) (c : ClientId) (f : Player → Player) :
    (g.modPlayer c f).players c = f (g.players c) :=
  Function.update_self _ _ _

theorem Game.modPlayer_of_ne (g : Game) {c d : ClientId} (f : Player → Player) (hd : d ≠ c) :
    (g.modPlayer c f).players d = g.players d :=
  Function.update_of_ne hd _ _

/-- A register that the server takes care of itself. -/
def ServerReg (q : QuestRegs) (reg : BitVec 8) : Prop :=
  q.flagShort = true ∧ reg = q.shortflagReg ∨
    q.flagData = true ∧ (reg = q.dataReg ∨ reg = q.ctlReg)

/-- The registers that a quest function sends to its caller are on record among its effects. -/
def Answers (env : SyncEnv) (l : QuestLobby) (c : QuestClient) (pkt : SyncReg)
    (reg : BitVec 8) : Prop :=
  ∃ x value, dispatched c (.syncReg env l pkt) = some x ∧
    Effect.sync reg value ∈
      ((questFunctionDispatch env.toQuestEnv l.toQuestTeam).result x.qStack).effects

theorem apply_foldl_regs (effects : List Effect) (r : SyncResult) :
    (effects.foldl SyncResult.apply r).lobby.toQuestRegs = r.lobby.toQuestRegs := by
  induction effects generalizing r with
  | nil => rfl
  | cons e effects ih =>
    rw [List.foldl_cons, ih]
    cases e <;> rfl

theorem apply_foldl_sent (effects : List Effect) (r : SyncResult) {s : BitVec 8 × BitVec 32}
    (hs : s ∈ (effects.foldl SyncResult.apply r).sent) :
    s ∈ r.sent ∨ Effect.sync s.1 s.2 ∈ effects := by
  induction effects generalizing r with
  | nil => exact Or.inl hs
  | cons e effects ih =>
    rcases ih _ hs with h | h
    · cases e with
      | sync reg value =>
        rcases List.mem_append.mp h with h | h
        · exact Or.inl h
        · rw [List.mem_singleton] at h
          subst h
          exact Or.inr List.mem_cons_self
      | call req => exact Or.inl h
      | posUpdates who reg => exact Or.inl h
      | countUpdates reg => exact Or.inl h
    · exact Or.inr (List.mem_cons_of_mem e h)

/-- What the handling of a special register leaves: the registers as they were, and a client that
has only been sent the register itself and the answers of the called function. -/
structure Special (env : SyncEnv) (l : QuestLobby) (pkt : SyncReg) (r : SyncResult) : Prop where
  regs : r.lobby.toQuestRegs = l.toQuestRegs
  sent : ∀ s ∈ r.sent, s.1 = pkt.regNum ∨ ∃ x, r.dispatched = some x ∧
    Effect.sync s.1 s.2 ∈
      ((questFunctionDispatch env.toQuestEnv l.toQuestTeam).result x.qStack).effects

theorem start_special (env : SyncEnv) (l : QuestLobby) (pkt : SyncReg) (c : QuestClient) :
    Special env l pkt (SyncResult.start l c) :=
  ⟨rfl, nofun⟩

theorem Special.send {env : SyncEnv} {l : QuestLobby} {pkt : SyncReg} {r : SyncResult}
    (h : Special env l pkt r) (value : BitVec 32) : Special env l pkt (r.send pkt.regNum value) where
  regs := h.regs
  sent := by
    intro s hs
    rcases List.mem_append.mp hs with hs | hs
    · exact h.sent s hs
    · rw [List.mem_singleton] at hs
      subst hs
      exact Or.inl rfl

theorem shortflagSync_special (env : SyncEnv) (l : QuestLobby) (pkt : SyncReg)
    (c : QuestClient) :
    Special env l pkt ((SyncResult.start l c).shortflagSync env.toQuestEnv pkt) := by
  have hstart := start_special env l pkt c
  unfold SyncResult.shortflagSync SyncResult.ask
  dsimp only
  split_ifs
  · exact hstart.send _
  · exact hstart.send _
  all_goals exact ⟨rfl, nofun⟩

theorem callFunction_special {env : SyncEnv} {l : QuestLobby} {pkt : SyncReg} {r : SyncResult}
    (hlobby : r.lobby = l) (hsent : r.sent = []) :
    Special env l pkt (r.callFunction env.toQuestEnv pkt) := by
  subst hlobby
  have hcall : Special env r.lobby pkt
      (((questFunctionDispatch env.toQuestEnv r.lobby.toQuestTeam).result
        r.client.qStack).effects.foldl SyncResult.apply { r with dispatched := some r.client }) := by
    constructor
    · exact apply_foldl_regs _ _
    · intro s hs
      have hsome := (apply_foldl_stack
        ((questFunctionDispatch env.toQuestEnv r.lobby.toQuestTeam).result r.client.qStack).effects
        { r with dispatched := some r.client }).2.2
      rcases apply_foldl_sent _ _ hs with hs | hs
      · change s ∈ r.sent at hs
        rw [hsent] at hs
        cases hs
      · exact Or.inr ⟨r.client, hsome, hs⟩
  unfold SyncResult.callFunction
  dsimp only
  split_ifs
  · have hanswer := hcall.send
      ((questFunctionDispatch env.toQuestEnv r.lobby.toQuestTeam).result r.client.qStack).ret
    exact ⟨hanswer.regs, hanswer.sent⟩
  · exact hcall

theorem dataSync_special (env : SyncEnv) (l : QuestLobby) (pkt : SyncReg) (c : QuestClient) :
    Special env l pkt ((SyncResult.start l c).dataSync env.toQuestEnv pkt) := by
  have hstart := start_special env l pkt c
  unfold SyncResult.dataSync SyncResult.completeCall
  split_ifs
  · exact callFunction_special rfl rfl
  · exact ⟨rfl, nofun⟩
  · exact hstart.send _
  · exact hstart.send _
  · exact hstart

theorem handleSpecial_special (env : SyncEnv) (l : QuestLobby) (c : QuestClient)
    (pkt : SyncReg) : Special env l pkt (handleSpecial env l c pkt).1 := by
  have hstart := start_special env l pkt c
  unfold handleSpecial
  dsimp only
  split_ifs
  · exact hstart
  · exact shortflagSync_special env l pkt c
  · exact dataSync_special env l pkt c
  · exact ⟨rfl, nofun⟩
  · exact hstart
  · exact hstart

/-- A register that is nothing special is only passed on. -/
theorem handleSpecial_plain {env : SyncEnv} {l : QuestLobby} {pkt : SyncReg}
    (hscript : env.scriptDone = false) (hreg : ¬ServerReg l.toQuestRegs pkt.regNum)
    (c : QuestClient) : handleSpecial env l c pkt = (SyncResult.start l c, false) := by
  unfold ServerReg at hreg
  unfold handleSpecial
  rw [hscript]
  dsimp only
  rw [if_neg Bool.false_ne_true, if_neg (fun h => hreg (Or.inl h))]
  by_cases hdata : l.flagData = true
  · rw [if_pos hdata, if_neg (fun h => hreg (Or.inr ⟨hdata, Or.inl h⟩)),
      if_neg (fun h => hreg (Or.inr ⟨hdata, Or.inr h⟩))]
  · rw [if_neg hdata]

/-- The remembered value of a register. -/
def valueIn (reg : BitVec 8) : List (BitVec 8 × BitVec 32) → BitVec 32
  | [] => 0
  | x :: regs => if x.1 = reg then x.2 else valueIn reg regs

/-- Of several entries for one register only the first is ever set. -/
def FirstOnly (regs : List (BitVec 8 × BitVec 32)) : Prop :=
  regs.Pairwise fun x y => x.1 = y.1 → y.2 = 0

theorem recordSync_keys (pkt : SyncReg) (regs : List (BitVec 8 × BitVec 32)) :
    (recordSync pkt regs).map Prod.fst = regs.map Prod.fst := by
  induction regs with
  | nil => rfl
  | cons x regs ih =>
    unfold recordSync
    split_ifs
    · rfl
    · rw [List.map_cons, List.map_cons, ih]

theorem valueIn_recordSync {reg : BitVec 8} (pkt : SyncReg)
    {regs : List (BitVec 8 × BitVec 32)} (hreg : reg ∈ regs.map Prod.fst) :
    valueIn reg (recordSync pkt regs) = if pkt.regNum = reg then pkt.value else valueIn reg regs := by
  induction regs with
  | nil => cases hreg
  | cons x regs ih =>
    rw [List.map_cons, List.mem_cons] at hreg
    unfold recordSync
    by_cases hx : x.1 = pkt.regNum
    · rw [if_pos hx, valueIn, valueIn, hx]
      dsimp only
      split_ifs <;> rfl
    · rw [if_neg hx, valueIn, valueIn]
      by_cases hhead : x.1 = reg
      · have hother : pkt.regNum ≠ reg := fun h => hx (hhead.trans h.symm)
        rw [if_pos hhead, if_pos hhead, if_neg hother]
      · rw [if_neg hhead, if_neg hhead]
        exact ih (hreg.resolve_left fun h => hhead h.symm)

theorem mem_recordSync {pkt : SyncReg} {regs : List (BitVec 8 × BitVec 32)}
    {x : BitVec 8 × BitVec 32} (hx : x ∈ recordSync pkt regs) :
    x ∈ regs ∨ x.1 = pkt.regNum := by
  induction regs with
  | nil => cases hx
  | cons y regs ih =>
    unfold recordSync at hx
    split_ifs at hx with hy
    · rcases List.mem_cons.mp hx with rfl | hx
      · exact Or.inr hy
      · exact Or.inl (List.mem_cons_of_mem y hx)
    · rcases List.mem_cons.mp hx with rfl | hx
      · exact Or.inl List.mem_cons_self
      · rcases ih hx with h | h
        · exact Or.inl (List.mem_cons_of_mem y h)
        · exact Or.inr h

theorem FirstOnly.recordSync {regs : List (BitVec 8 × BitVec 32)} (h : FirstOnly regs)
    (pkt : SyncReg) : FirstOnly (recordSync pkt regs) := by
  induction regs with
  | nil => exact h
  | cons x regs ih =>
    obtain ⟨hhead, hrest⟩ := List.pairwise_cons.mp h
    unfold QuestStack.recordSync
    by_cases hx : x.1 = pkt.regNum
    · rw [if_pos hx]
      exact List.pairwise_cons.mpr ⟨hhead, hrest⟩
    · rw [if_neg hx]
      refine List.pairwise_cons.mpr ⟨?_, ih hrest⟩
      intro y hy hxy
      rcases mem_recordSync hy with hy | hy
      · exact hhead y hy hxy
      · exact absurd (hxy.trans hy) hx

/-- A register of the quest's list. -/
def Synced (q : QuestRegs) (reg : BitVec 8) : Prop :=
  reg ∈ q.syncregs.map Prod.fst

namespace Game

/-- A register sync of a synced register is only passed on, and a called function answers in no
synced register. -/
structure Ordinary (g : Game) (env : HandlerEnv) (c : ClientId) (pkt : SyncReg) : Prop where
  shared : Synced g.regs pkt.regNum → env.scriptDone = false ∧ ¬ServerReg g.regs pkt.regNum
  answers : ∀ reg, Answers env.toSyncEnv { env.team with toQuestRegs := g.regs }
    (g.players c).stack pkt reg → ¬Synced g.regs reg

/-- The writes among the packets of a queue. -/
def asWrite : ClientId × GamePacket → Option (Write ClientId (BitVec 8) (BitVec 32))
  | (c, .syncReg pkt) => some ⟨c, pkt.regNum, pkt.value⟩
  | (_, .other) => none

def writes (queue : List (ClientId × GamePacket)) : List (Write ClientId (BitVec 8) (BitVec 32)) :=
  queue.filterMap asWrite

/-- A game in which the packets of some writes have been handled: the writes are on record, and
every client of the game has been told those of the others. -/
structure Delivered (log : List (Write ClientId (BitVec 8) (BitVec 32))) (g g' : Game) : Prop where
  status : ∀ d, (g'.players d).toStatus = (g.players d).toStatus
  bursting : g'.bursting = g.bursting
  pktQueue : g'.pktQueue = g.pktQueue
  lastSet : g'.lastSet = g.lastSet
  sync : g'.regs.flagSync = g.regs.flagSync
  keys : g'.regs.syncregs.map Prod.fst = g.regs.syncregs.map Prod.fst
  first : FirstOnly g.regs.syncregs → FirstOnly g'.regs.syncregs
  values : ∀ reg, Synced g.regs reg →
    valueIn reg g'.regs.syncregs = value reg (valueIn reg g.regs.syncregs) log
  registers : ∀ d, (g.players d).inGame = true → ∀ reg, Synced g.regs reg →
    (g'.players d).registers reg = valueByOthers d reg ((g.players d).registers reg) log

theorem Delivered.refl (g : Game) : Delivered [] g g :=
  ⟨fun _ => rfl, rfl, rfl, rfl, rfl, rfl, id, fun _ _ => rfl, fun _ _ _ _ => rfl⟩

theorem Delivered.synced_iff {log : List (Write ClientId (BitVec 8) (BitVec 32))} {g g' : Game}
    (h : Delivered log g g') (reg : BitVec 8) : Synced g'.regs reg ↔ Synced g.regs reg := by
  unfold Synced
  rw [h.keys]

theorem Delivered.trans {log log' : List (Write ClientId (BitVec 8) (BitVec 32))}
    {g g₁ g₂ : Game} (h : Delivered log g g₁) (h' : Delivered log' g₁ g₂) :
    Delivered (log ++ log') g g₂ where
  status d := (h'.status d).trans (h.status d)
  bursting := h'.bursting.trans h.bursting
  pktQueue := h'.pktQueue.trans h.pktQueue
  lastSet := h'.lastSet.trans h.lastSet
  sync := h'.sync.trans h.sync
  keys := h'.keys.trans h.keys
  first hfirst := h'.first (h.first hfirst)
  values reg hreg := by
    rw [h'.values reg ((h.synced_iff reg).mpr hreg), h.values reg hreg]
    exact (valueBy_append _ reg _ log log').symm
  registers d hd reg hreg := by
    have hd' : (g₁.players d).inGame = true := by
      rw [h.status d]
      exact hd
    rw [h'.registers d hd' reg ((h.synced_iff reg).mpr hreg), h.registers d hd reg hreg]
    exact (valueBy_append _ reg _ log log').symm

/-- Writes to other registers are no matter. -/
theorem Delivered.of_unsynced {log : List (Write ClientId (BitVec 8) (BitVec 32))} {g g' : Game}
    (h : Delivered [] g g') (hlog : ∀ x ∈ log, ¬Synced g.regs x.key) : Delivered log g g' where
  status := h.status
  bursting := h.bursting
  pktQueue := h.pktQueue
  lastSet := h.lastSet
  sync := h.sync
  keys := h.keys
  first := h.first
  values reg hreg := by
    have hne : ∀ x ∈ log, x.key ≠ reg := by
      rintro x hx rfl
      exact hlog x hx hreg
    rw [h.values reg hreg]
    exact (valueBy_of_forall_ne hne _).symm
  registers d hd reg hreg := by
    have hne : ∀ x ∈ log, x.key ≠ reg := by
      rintro x hx rfl
      exact hlog x hx hreg
    rw [h.registers d hd reg hreg]
    exact (valueBy_of_forall_ne hne _).symm

theorem foldl_set_status (sent : List (BitVec 8 × BitVec 32)) (x : Player) :
    (sent.foldl (fun x s => x.set s.1 s.2) x).toStatus = x.toStatus := by
  induction sent generalizing x with
  | nil => rfl
  | cons s sent ih => exact ih (x.set s.1 s.2)

theorem foldl_set_registers {sent : List (BitVec 8 × BitVec 32)} {reg : BitVec 8}
    (hsent : ∀ s ∈ sent, s.1 ≠ reg) (x : Player) :
    (sent.foldl (fun x s => x.set s.1 s.2) x).registers reg = x.registers reg := by
  induction sent generalizing x with
  | nil => rfl
  | cons s sent ih =>
    rw [List.foldl_cons, ih (fun s' hs' => hsent s' (List.mem_cons_of_mem s hs'))]
    exact Function.update_of_ne (hsent s List.mem_cons_self).symm _ _

/-- What an ordinary register sync does to the game. -/
structure Passed (g : Game) (pkt : SyncReg) (r : SyncResult) : Prop where
  regs : r.lobby.toQuestRegs = g.regs.record pkt
  sent : ∀ s ∈ r.sent, ¬Synced g.regs s.1
  forwarded : Synced g.regs pkt.regNum → r.forwarded = true

theorem Ordinary.passed {g : Game} {env : HandlerEnv} {c : ClientId} {pkt : SyncReg}
    (h : g.Ordinary env c pkt) : Passed g pkt (g.syncResult env c pkt) := by
  have hspecial := handleSpecial_special env.toSyncEnv { env.team with toQuestRegs := g.regs }
    (g.players c).stack pkt
  have hplain := fun hreg : Synced g.regs pkt.regNum =>
    handleSpecial_plain (l := { env.team with toQuestRegs := g.regs }) (h.shared hreg).1
      (h.shared hreg).2 (g.players c).stack
  refine ⟨congrArg (fun q => QuestRegs.record q pkt) hspecial.regs, ?_, ?_⟩
  · intro s hs hsynced
    change s ∈ (handleSpecial env.toSyncEnv { env.team with toQuestRegs := g.regs }
      (g.players c).stack pkt).1.sent at hs
    rcases hspecial.sent s hs with hreg | ⟨x, hcall, heffect⟩
    · rw [hreg] at hsynced
      rw [hplain hsynced] at hs
      cases hs
    · exact h.answers s.1 ⟨x, s.2, hcall, heffect⟩ hsynced
  · intro hsynced
    unfold syncResult QuestStack.handleSyncReg
    rw [hplain hsynced]
    rfl

theorem answer_status (g : Game) (c : ClientId) (r : SyncResult) (d : ClientId) :
    ((g.answer c r).players d).toStatus = (g.players d).toStatus := by
  unfold answer
  dsimp only
  by_cases hd : d = c
  · subst hd
    rw [modPlayer_self, foldl_set_status]
  · rw [modPlayer_of_ne _ _ hd]

theorem answer_registers {g : Game} {r : SyncResult} {reg : BitVec 8}
    (hsent : ∀ s ∈ r.sent, s.1 ≠ reg) (c d : ClientId) :
    ((g.answer c r).players d).registers reg = (g.players d).registers reg := by
  unfold answer
  dsimp only
  by_cases hd : d = c
  · subst hd
    rw [modPlayer_self, foldl_set_registers hsent]
  · rw [modPlayer_of_ne _ _ hd]

theorem forward_status (g : Game) (c : ClientId) (pkt : SyncReg) (d : ClientId) :
    ((g.forward c pkt).players d).toStatus = (g.players d).toStatus := by
  unfold forward
  dsimp only
  split_ifs <;> rfl

theorem forward_registers {g : Game} {d : ClientId} (hd : (g.players d).inGame = true)
    (c : ClientId) (pkt : SyncReg) (reg : BitVec 8) :
    ((g.forward c pkt).players d).registers reg =
      valueByOthers d reg ((g.players d).registers reg) [⟨c, pkt.regNum, pkt.value⟩] := by
  unfold forward valueByOthers valueBy valueBy
  dsimp only
  by_cases hdc : d = c
  · subst hdc
    simp
  · have hcd : c ≠ d := fun h => hdc h.symm
    rw [if_pos ⟨hd, hdc⟩]
    by_cases hreg : pkt.regNum = reg
    · subst hreg
      rw [if_pos ⟨rfl, decide_eq_true hcd⟩]
      exact Function.update_self _ _ _
    · rw [if_neg (fun h => hreg h.1)]
      exact Function.update_of_ne (fun h => hreg h.symm) _ _

theorem handleSyncReg_delivered {g : Game} {env : HandlerEnv} {c : ClientId} {pkt : SyncReg}
    (h : g.Ordinary env c pkt) (hsync : g.regs.flagSync = true) :
    Delivered [⟨c, pkt.regNum, pkt.value⟩] g (g.handleSyncReg env c pkt) := by
  have hpassed := h.passed
  have hregs : (g.handleSyncReg env c pkt).regs =
      { g.regs with syncregs := recordSync pkt g.regs.syncregs } := by
    have hsame : (g.handleSyncReg env c pkt).regs = (g.syncResult env c pkt).lobby.toQuestRegs := by
      unfold handleSyncReg
      dsimp only
      split_ifs <;> rfl
    rw [hsame, hpassed.regs, QuestRegs.record, if_pos hsync]
  constructor
  case status =>
    intro d
    unfold handleSyncReg
    dsimp only
    split_ifs
    · rw [forward_status, answer_status]
    · exact answer_status g c _ d
  case bursting =>
    unfold handleSyncReg
    dsimp only
    split_ifs <;> rfl
  case pktQueue =>
    unfold handleSyncReg
    dsimp only
    split_ifs <;> rfl
  case lastSet =>
    unfold handleSyncReg
    dsimp only
    split_ifs <;> rfl
  case sync => rw [hregs]
  case keys =>
    rw [hregs]
    exact recordSync_keys pkt g.regs.syncregs
  case first =>
    intro hfirst
    rw [hregs]
    exact hfirst.recordSync pkt
  case values =>
    intro reg hreg
    rw [hregs]
    refine (valueIn_recordSync pkt hreg).trans ?_
    unfold value valueBy valueBy
    simp
  case registers =>
    intro d hd reg hreg
    have hsent : ∀ s ∈ (g.syncResult env c pkt).sent, s.1 ≠ reg := by
      rintro s hs rfl
      exact hpassed.sent s hs hreg
    have hd' : ((g.answer c (g.syncResult env c pkt)).players d).inGame = true := by
      rw [answer_status]
      exact hd
    unfold handleSyncReg
    dsimp only
    split_ifs with hforward
    · rw [forward_registers hd', answer_registers hsent]
    · -- the register is another one, since a synced register is passed on
      have hne : pkt.regNum ≠ reg := by
        rintro rfl
        exact hforward (hpassed.forwarded hreg)
      rw [answer_registers hsent]
      unfold valueByOthers valueBy valueBy
      rw [if_neg (fun h => hne h.1)]

/-- Every deferred write to a synced register is an ordinary one of a client that is still in the
game, and no packet before it is in error. -/
def Drainable (env : ℕ → HandlerEnv) (g : Game) : List (ClientId × GamePacket) → Prop
  | [] => True
  | (c, .syncReg pkt) :: queue =>
    (Synced g.regs pkt.regNum → (g.players c).inGame = true) ∧
      ((g.players c).inGame = true → g.Ordinary (env 0) c pkt) ∧
      Drainable (fun k => env (k + 1)) (g.handle (env 0) c (.syncReg pkt)).1 queue
  | (c, .other) :: queue =>
    if (g.players c).inGame = true ∧ (env 0).result ≠ 0 then
      ∀ x ∈ writes queue, ¬Synced g.regs x.key
    else Drainable (fun k => env (k + 1)) g queue

theorem drain_delivered {env : ℕ → HandlerEnv} {g : Game} {queue : List (ClientId × GamePacket)}
    (h : Drainable env g queue) (hsync : g.regs.flagSync = true) :
    Delivered (writes queue) g (g.drain env queue).1 := by
  induction queue generalizing env g with
  | nil => exact Delivered.refl g
  | cons x queue ih =>
    obtain ⟨c, p⟩ := x
    unfold drain handle
    cases p with
    | syncReg pkt =>
      obtain ⟨hin, hordinary, hrest⟩ := h
      have hwrites : writes ((c, .syncReg pkt) :: queue) =
          [⟨c, pkt.regNum, pkt.value⟩] ++ writes queue := rfl
      unfold handle at hrest
      rw [hwrites]
      by_cases hc : (g.players c).inGame = true
      · rw [if_pos hc] at hrest ⊢
        have hone := handleSyncReg_delivered (hordinary hc) hsync
        exact hone.trans (ih hrest (hone.sync.trans hsync))
      · rw [if_neg hc] at hrest ⊢
        have hone : Delivered [⟨c, pkt.regNum, pkt.value⟩] g g := by
          refine (Delivered.refl g).of_unsynced ?_
          intro x hx hsynced
          rw [List.mem_singleton] at hx
          subst hx
          exact hc (hin hsynced)
        exact hone.trans (ih hrest hsync)
    | other =>
      have hwrites : writes ((c, GamePacket.other) :: queue) = writes queue := rfl
      unfold Drainable at h
      rw [hwrites]
      by_cases hc : (g.players c).inGame = true
      · rw [if_pos hc]
        dsimp only
        by_cases hresult : (env 0).result = 0
        · rw [if_neg (fun h => h.2 hresult)] at h
          rw [if_pos hresult]
          exact ih h hsync
        · rw [if_pos ⟨hc, hresult⟩] at h
          rw [if_neg hresult]
          exact (Delivered.refl g).of_unsynced h
      · rw [if_neg (fun h => hc h.1)] at h
        rw [if_neg hc]
        exact ih h hsync

theorem valueIn_eq_zero {reg : BitVec 8} {regs : List (BitVec 8 × BitVec 32)}
    (h : ∀ y ∈ regs, reg = y.1 → y.2 = 0) : valueIn reg regs = 0 := by
  induction regs with
  | nil => rfl
  | cons x regs ih =>
    unfold valueIn
    split_ifs with hx
    · exact h x List.mem_cons_self hx.symm
    · exact ih fun y hy => h y (List.mem_cons_of_mem x hy)

/-- Two games that differ in one client only. -/
structure Apart (c : ClientId) (g g' : Game) : Prop where
  others : ∀ d, d ≠ c → g'.players d = g.players d
  bursting : g'.bursting = g.bursting
  pktQueue : g'.pktQueue = g.pktQueue
  lastSet : g'.lastSet = g.lastSet
  regs : g'.regs = g.regs

theorem Apart.refl (c : ClientId) (g : Game) : Apart c g g :=
  ⟨fun _ _ => rfl, rfl, rfl, rfl, rfl⟩

theorem Apart.trans {c : ClientId} {g g₁ g₂ : Game} (h : Apart c g g₁) (h' : Apart c g₁ g₂) :
    Apart c g g₂ where
  others d hd := (h'.others d hd).trans (h.others d hd)
  bursting := h'.bursting.trans h.bursting
  pktQueue := h'.pktQueue.trans h.pktQueue
  lastSet := h'.lastSet.trans h.lastSet
  regs := h'.regs.trans h.regs

theorem modPlayer_apart (c : ClientId) (f : Player → Player) (g : Game) :
    Apart c g (g.modPlayer c f) :=
  ⟨fun _ hd => modPlayer_of_ne g f hd, rfl, rfl, rfl, rfl⟩

theorem replay_apart (c : ClientId) (sent : ℕ → Bool) (regs : List (BitVec 8 × BitVec 32))
    (g : Game) : Apart c g (g.replay c sent regs).1 := by
  induction regs generalizing g sent with
  | nil => exact Apart.refl c g
  | cons x regs ih =>
    unfold replay
    split_ifs
    · exact (modPlayer_apart c _ g).trans (ih _ _)
    · exact Apart.refl c g
    · exact ih _ g

theorem replay_status (c : ClientId) (sent : ℕ → Bool) (regs : List (BitVec 8 × BitVec 32))
    (g : Game) : ((g.replay c sent regs).1.players c).toStatus = (g.players c).toStatus := by
  induction regs generalizing g sent with
  | nil => rfl
  | cons x regs ih =>
    unfold replay
    split_ifs
    · rw [ih, modPlayer_self]
      rfl
    · rfl
    · exact ih _ g

/-- After a replay that does not fail the client has every value that is not zero. -/
theorem replay_registers {c : ClientId} {sent : ℕ → Bool} {regs : List (BitVec 8 × BitVec 32)}
    {g : Game} (hfirst : FirstOnly regs) (hrv : (g.replay c sent regs).2 = 0) (reg : BitVec 8) :
    ((g.replay c sent regs).1.players c).registers reg =
      if valueIn reg regs = 0 then (g.players c).registers reg else valueIn reg regs := by
  induction regs generalizing g sent with
  | nil => rfl
  | cons x regs ih =>
    obtain ⟨hhead, hrest⟩ := List.pairwise_cons.mp hfirst
    have hother : x.1 = reg → valueIn reg regs = 0 := by
      rintro rfl
      exact valueIn_eq_zero hhead
    unfold replay at hrv ⊢
    unfold valueIn
    by_cases hvalue : x.2 = 0
    · rw [if_neg (not_not.mpr hvalue)] at hrv ⊢
      rw [ih hrest hrv]
      by_cases hx : x.1 = reg
      · rw [if_pos (hother hx), if_pos hx, if_pos hvalue]
      · rw [if_neg hx]
    · rw [if_pos hvalue] at hrv ⊢
      by_cases hsent : sent 0 = true
      · rw [if_pos hsent] at hrv ⊢
        rw [ih hrest hrv, modPlayer_self]
        by_cases hx : x.1 = reg
        · rw [if_pos (hother hx), if_pos hx, if_neg hvalue, ← hx]
          exact Function.update_self _ _ _
        · rw [if_neg hx]
          have hset : ((g.players c).set x.1 x.2).registers reg = (g.players c).registers reg :=
            Function.update_of_ne (fun h => hx h.symm) _ _
          rw [hset]
      · rw [if_neg hsent] at hrv
        exact absurd hrv (show (-1 : ℤ) ≠ 0 by decide)

end Game

open Game

/-- A client that is still to be sent the registers. -/
def Status.Pending (x : Status) : Prop :=
  x.bursting = true ∨ x.waitQping = true

/-- A client of the game that has finished its burst. -/
def Status.Settled (x : Status) : Prop :=
  x.Active ∧ ¬x.Pending

/-- A client has the value of a register, or its quest has only just been loaded. -/
def Player.Holds (x : Player) (reg : BitVec 8) (value : BitVec 32) : Prop :=
  x.registers reg = value ∨ x.Pending ∧ x.registers reg = 0

/-- A game in which some writes have not been handled: the clients have only seen their own. -/
structure Sound (g : Game) (log : List (Write ClientId (BitVec 8) (BitVec 32))) : Prop where
  sync : g.regs.flagSync = true
  first : FirstOnly g.regs.syncregs
  lastSet : ∀ reg, Synced g.regs reg →
    g.lastSet reg = value reg (valueIn reg g.regs.syncregs) log
  registers : ∀ d, (g.players d).Active → ∀ reg, Synced g.regs reg →
    (g.players d).Holds reg (valueByOwn d reg (valueIn reg g.regs.syncregs) log)

/-- What is not handled yet is in the queue, and the queue is only used during a burst. -/
structure Invariant (g : Game) : Prop extends Sound g (writes g.pktQueue) where
  calm : g.bursting = false → g.pktQueue = []

/-- Nothing that the server has to do for the registers is in the way of the event: the queue can
be drained, and no client is given an older value instead of the last one, its own. A joiner may
be, if the last value is not zero, and so may a client that leaves. -/
def Considerate (g : Game) : Event → Prop
  | .packet env _ c (.syncReg pkt) =>
    (g.players c).Active → g.bursting = false → g.Ordinary env c pkt
  | .ping env c =>
    (g.players c).Active → (g.players c).waitQping = true →
      Drainable env.handler { g.resume c with pktQueue := [] } g.pktQueue ∧
        ∀ reg, Synced g.regs reg → ∀ d, (g.players d).Active →
          KeepsUp d reg (writes g.pktQueue) ∨ d = c ∧ g.lastSet reg ≠ 0
  | .remove handler c =>
    (g.players c).inGame = true → (g.players c).bursting = true →
      Drainable handler { g with bursting := false, pktQueue := [] } g.pktQueue ∧
        ∀ reg, Synced g.regs reg → ∀ d, (g.players d).Active → d ≠ c →
          KeepsUp d reg (writes g.pktQueue)
  | _ => True

theorem Sound.mono {g g' : Game} {log : List (Write ClientId (BitVec 8) (BitVec 32))}
    (h : Sound g log) (hregs : g'.regs = g.regs) (hlastSet : g'.lastSet = g.lastSet)
    (hplayers : ∀ d, g'.players d = g.players d ∨ ¬(g'.players d).Active ∨
      (g'.players d).Pending ∧ ∀ reg, (g'.players d).registers reg = 0) : Sound g' log where
  sync := by
    rw [hregs]
    exact h.sync
  first := by
    rw [hregs]
    exact h.first
  lastSet := by
    rw [hregs, hlastSet]
    exact h.lastSet
  registers := by
    rw [hregs]
    intro d hd reg hreg
    rcases hplayers d with hsame | hinactive | ⟨hpending, hzero⟩
    · rw [hsame] at hd ⊢
      exact h.registers d hd reg hreg
    · exact absurd hd hinactive
    · exact Or.inr ⟨hpending, hzero reg⟩

/-- A change of one client that ends its part in the game, or lets it begin anew. -/
theorem Sound.modPlayer {g : Game} {log : List (Write ClientId (BitVec 8) (BitVec 32))}
    (h : Sound g log) {c : ClientId} {f : Player → Player}
    (hf : ¬(f (g.players c)).Active ∨
      (f (g.players c)).Pending ∧ ∀ reg, (f (g.players c)).registers reg = 0) :
    Sound (g.modPlayer c f) log := by
  refine h.mono rfl rfl ?_
  intro d
  by_cases hd : d = c
  · subst hd
    rw [modPlayer_self]
    exact Or.inr hf
  · exact Or.inl (modPlayer_of_ne g f hd)

theorem Invariant.hangUp {g : Game} (h : Invariant g) (c : ClientId) : Invariant (g.hangUp c) :=
  ⟨h.toSound.modPlayer (Or.inl fun hactive => Bool.noConfusion hactive.2), h.calm⟩

theorem Invariant.dismiss {g : Game} (h : Invariant g) (c : ClientId) : Invariant (g.dismiss c) :=
  ⟨h.toSound.modPlayer (Or.inl fun hactive => Bool.noConfusion hactive.1), h.calm⟩

theorem Sound.clientSets {g : Game} {log : List (Write ClientId (BitVec 8) (BitVec 32))}
    (h : Sound g log) (c : ClientId) (p : GamePacket) :
    Sound (g.clientSets c p) (log ++ writes [(c, p)]) := by
  cases p with
  | other =>
    change Sound g (log ++ [])
    rw [List.append_nil]
    exact h
  | syncReg pkt =>
    change Sound (g.clientSets c (.syncReg pkt)) (log ++ [⟨c, pkt.regNum, pkt.value⟩])
    have hregs : (g.clientSets c (.syncReg pkt)).regs = g.regs := rfl
    refine ⟨h.sync, h.first, ?_, ?_⟩
    · intro reg hreg
      rw [hregs] at hreg ⊢
      change Function.update g.lastSet pkt.regNum pkt.value reg = _
      have hold := h.lastSet reg hreg
      unfold value at hold ⊢
      rw [valueBy_append, ← hold]
      by_cases hkey : pkt.regNum = reg
      · subst hkey
        simp [valueBy]
      · rw [Function.update_of_ne (fun h => hkey h.symm)]
        simp [valueBy, hkey]
    · intro d hd reg hreg
      rw [hregs] at hreg ⊢
      have hold := h.registers d
      unfold valueByOwn at hold ⊢
      rw [valueBy_append]
      by_cases hdc : d = c
      · subst hdc
        have hset : (g.clientSets d (.syncReg pkt)).players d =
            (g.players d).set pkt.regNum pkt.value := Function.update_self d _ _
        rw [hset] at hd ⊢
        by_cases hkey : pkt.regNum = reg
        · subst hkey
          left
          simp [valueBy, Player.set]
        · have hsame : ((g.players d).set pkt.regNum pkt.value).registers reg =
              (g.players d).registers reg := Function.update_of_ne (fun h => hkey h.symm) _ _
          rcases hold hd reg hreg with heq | ⟨hpending, hzero⟩
          · left
            rw [hsame, heq]
            simp [valueBy, hkey]
          · exact Or.inr ⟨hpending, hsame.trans hzero⟩
      · have hset : (g.clientSets c (.syncReg pkt)).players d = g.players d :=
          Function.update_of_ne hdc _ _
        have hcd : c ≠ d := fun h => hdc h.symm
        rw [hset] at hd ⊢
        simp only [valueBy, hcd, decide_false, Bool.false_eq_true, and_false, if_false]
        exact hold hd reg hreg

/-- After the packets of the writes have been handled, every client that is not given an older
value has the last one. -/
theorem Sound.delivered {g g' : Game} {log : List (Write ClientId (BitVec 8) (BitVec 32))}
    (h : Sound g log) {d : ClientId} {reg : BitVec 8} (hd : (g.players d).Active)
    (hreg : Synced g.regs reg) (hkeeps : KeepsUp d reg log)
    (hstatus : (g'.players d).toStatus = (g.players d).toStatus)
    (hothers : (g'.players d).registers reg =
      valueByOthers d reg ((g.players d).registers reg) log) :
    (g'.players d).Holds reg (g.lastSet reg) := by
  unfold Player.Holds
  rw [hstatus, hothers, h.lastSet reg hreg]
  exact hkeeps.value_or (h.registers d hd reg hreg)

/-- Nothing waits any more once the recorded values are the last ones, and the clients hold them. -/
theorem sound_nil {g : Game} (hsync : g.regs.flagSync = true) (hfirst : FirstOnly g.regs.syncregs)
    (hvalues : ∀ reg, Synced g.regs reg → valueIn reg g.regs.syncregs = g.lastSet reg)
    (hholds : ∀ d, (g.players d).Active → ∀ reg, Synced g.regs reg →
      (g.players d).Holds reg (g.lastSet reg)) : Sound g [] where
  sync := hsync
  first := hfirst
  lastSet reg hreg := (hvalues reg hreg).symm
  registers d hd reg hreg := by
    change (g.players d).Holds reg (valueIn reg g.regs.syncregs)
    rw [hvalues reg hreg]
    exact hholds d hd reg hreg

/-- The packets of the writes are handled, and every client keeps up. -/
theorem Sound.settle {g g' : Game} {log : List (Write ClientId (BitVec 8) (BitVec 32))}
    (h : Sound g log) (hg : Delivered log g g')
    (hkeeps : ∀ d, (g.players d).Active → ∀ reg, Synced g.regs reg → KeepsUp d reg log) :
    Sound g' [] := by
  refine sound_nil (hg.sync.trans h.sync) (hg.first h.first) ?_ ?_
  · intro reg hreg
    have hreg' := (hg.synced_iff reg).mp hreg
    rw [hg.values reg hreg', hg.lastSet, h.lastSet reg hreg']
  · intro d hd reg hreg
    have hreg' := (hg.synced_iff reg).mp hreg
    rw [hg.status d] at hd
    rw [hg.lastSet]
    exact h.delivered hd hreg' (hkeeps d hd reg hreg') (hg.status d)
      (hg.registers d hd.1 reg hreg')

theorem Invariant.packet {g : Game} (h : Invariant g) {env : HandlerEnv} {allocated : Bool}
    {c : ClientId} {p : GamePacket} (hc : (g.players c).Active)
    (hgood : Considerate g (.packet env allocated c p)) :
    Invariant (g.packet env allocated c p) := by
  unfold Game.packet
  cases hburst : g.bursting with
  | true =>
    rw [if_pos rfl]
    split_ifs
    · have hsets := h.toSound.clientSets c p
      have hwrites : writes (g.pktQueue ++ [(c, p)]) = writes g.pktQueue ++ writes [(c, p)] :=
        List.filterMap_append
      refine ⟨?_, ?_⟩
      · change Sound _ (writes (g.pktQueue ++ [(c, p)]))
        rw [hwrites]
        exact hsets.mono rfl rfl fun d => Or.inl rfl
      · intro hcalm
        cases p <;> exact Bool.noConfusion (hburst.symm.trans hcalm)
    · exact h.hangUp c
  | false =>
    rw [if_neg Bool.false_ne_true]
    have hqueue := h.calm hburst
    have hsets := h.toSound.clientSets c p
    rw [hqueue] at hsets
    cases p with
    | other =>
      have hhandle : (g.clientSets c .other).handle env c .other = (g, env.result) :=
        if_pos hc.1
      rw [hhandle]
      dsimp only
      split_ifs
      · exact h
      · exact h.hangUp c
    | syncReg pkt =>
      have hself : (g.clientSets c (.syncReg pkt)).players c =
          (g.players c).set pkt.regNum pkt.value := Function.update_self c _ _
      have hin : ((g.clientSets c (.syncReg pkt)).players c).inGame = true := by
        rw [hself]
        exact hc.1
      have hordinary : (g.clientSets c (.syncReg pkt)).Ordinary env c pkt := by
        have hone := hgood hc hburst
        refine ⟨hone.shared, ?_⟩
        rw [hself]
        exact hone.answers
      have hhandle : (g.clientSets c (.syncReg pkt)).handle env c (.syncReg pkt) =
          ((g.clientSets c (.syncReg pkt)).handleSyncReg env c pkt, 0) := if_pos hin
      rw [hhandle]
      dsimp only
      rw [if_pos rfl]
      have hdelivered := handleSyncReg_delivered hordinary hsets.sync
      have hsettled := hsets.settle hdelivered fun d _ reg _ =>
        keepsUp_of_length_le le_rfl d reg
      have hempty : ((g.clientSets c (.syncReg pkt)).handleSyncReg env c pkt).pktQueue = [] :=
        hdelivered.pktQueue.trans hqueue
      refine ⟨?_, fun _ => hempty⟩
      rw [hempty]
      exact hsettled

/-- A game at the end of a burst, before its queue is drained. -/
structure Resumed (c : ClientId) (g g₀ : Game) : Prop where
  others : ∀ d, d ≠ c → g₀.players d = g.players d
  bursting : g₀.bursting = false
  pktQueue : g₀.pktQueue = []
  lastSet : g₀.lastSet = g.lastSet
  regs : g₀.regs = g.regs

theorem resume_resumed (g : Game) (c : ClientId) :
    Resumed c g { g.resume c with pktQueue := [] } :=
  ⟨fun _ hd => Function.update_of_ne hd _ _, rfl, rfl, rfl, rfl⟩

theorem calm_resumed (g : Game) (c : ClientId) :
    Resumed c g { g with bursting := false, pktQueue := [] } :=
  ⟨fun _ _ => rfl, rfl, rfl, rfl, rfl⟩

/-- The end of a burst, when the queue has been drained and one client has been dealt with. -/
theorem Invariant.resumed {g g₀ g₁ g₂ : Game} {c : ClientId} (h : Invariant g)
    (hresumed : Resumed c g g₀) (hdelivered : Delivered (writes g.pktQueue) g₀ g₁)
    (hkeeps : ∀ reg, Synced g.regs reg → ∀ d, (g.players d).Active → d ≠ c →
      KeepsUp d reg (writes g.pktQueue))
    (hapart : Apart c g₁ g₂)
    (hc : (g₂.players c).Active → ∀ reg, Synced g.regs reg →
      (g₂.players c).Holds reg (g.lastSet reg)) : Invariant g₂ := by
  have hqueue : g₂.pktQueue = [] := (hapart.pktQueue.trans hdelivered.pktQueue).trans
    hresumed.pktQueue
  have hlast : g₂.lastSet = g.lastSet := (hapart.lastSet.trans hdelivered.lastSet).trans
    hresumed.lastSet
  have hsynced : ∀ reg, Synced g₂.regs reg → Synced g.regs reg := by
    intro reg hreg
    rw [hapart.regs, hdelivered.synced_iff, hresumed.regs] at hreg
    exact hreg
  refine ⟨?_, fun _ => hqueue⟩
  rw [hqueue]
  refine sound_nil ?_ ?_ ?_ ?_
  · rw [hapart.regs, hdelivered.sync, hresumed.regs]
    exact h.sync
  · rw [hapart.regs]
    refine hdelivered.first ?_
    rw [hresumed.regs]
    exact h.first
  · intro reg hreg
    have hvalues := hdelivered.values reg
    rw [hresumed.regs] at hvalues
    rw [hapart.regs, hvalues (hsynced reg hreg), hlast, h.lastSet reg (hsynced reg hreg)]
  · intro d hd reg hreg
    rw [hlast]
    by_cases hdc : d = c
    · subst hdc
      exact hc hd reg (hsynced reg hreg)
    · have hsame := hresumed.others d hdc
      have hstatus := hdelivered.status d
      have hothers := hdelivered.registers d
      rw [hsame] at hstatus hothers
      rw [hresumed.regs] at hothers
      rw [hapart.others d hdc] at hd ⊢
      rw [hstatus] at hd
      exact h.delivered hd (hsynced reg hreg) (hkeeps reg (hsynced reg hreg) d hd hdc) hstatus
        (hothers hd.1 reg (hsynced reg hreg))

/-- The joiner has every value after a replay that does not fail: one that is not zero is sent, and
zero it has already. -/
theorem Invariant.replayed {g g₁ : Game} {c : ClientId} (h : Invariant g) (env : PingEnv)
    (hc : (g.players c).Active)
    (hdelivered : Delivered (writes g.pktQueue) { g.resume c with pktQueue := [] } g₁)
    (hkeeps : ∀ reg, Synced g.regs reg → KeepsUp c reg (writes g.pktQueue) ∨ g.lastSet reg ≠ 0)
    (hrv : (g₁.replay c env.regSent g₁.regs.syncregs).2 = 0) {reg : BitVec 8}
    (hreg : Synced g.regs reg) :
    ((g₁.replay c env.regSent g₁.regs.syncregs).1.players c).registers reg = g.lastSet reg := by
  have hvalue : valueIn reg g₁.regs.syncregs = g.lastSet reg :=
    (hdelivered.values reg hreg).trans (h.lastSet reg hreg).symm
  rw [replay_registers (hdelivered.first h.first) hrv, hvalue]
  by_cases hzero : g.lastSet reg = 0
  · rw [if_pos hzero]
    have hself : ({ g.resume c with pktQueue := [] } : Game).players c =
        { g.players c with bursting := false, waitQping := false } := Function.update_self c _ _
    have hothers := hdelivered.registers c
    rw [hself] at hothers
    have hkeep := (hkeeps reg hreg).resolve_right (not_not.mpr hzero)
    have hlast := h.lastSet reg hreg
    rw [hothers hc.1 reg hreg]
    rcases hkeep.value_or (h.registers c hc reg hreg) with hv | ⟨-, hv⟩
    · rw [hlast]
      exact hv
    · rw [hzero]
      exact hv
  · rw [if_neg hzero]

/-- What the `PING` of a joiner leads to. -/
structure Finished (g : Game) (c : ClientId) (g' : Game) : Prop where
  invariant : Invariant g'
  pktQueue : g'.pktQueue = []
  settled : (g'.players c).disconnected = false → (g'.players c).Settled

theorem Invariant.ping {g : Game} (h : Invariant g) {env : PingEnv} {c : ClientId}
    (hc : (g.players c).Active) (hwait : (g.players c).waitQping = true)
    (hgood : Considerate g (.ping env c)) : Finished g c (g.ping env c) := by
  obtain ⟨hdrain, hkeeps⟩ := hgood hc hwait
  have hdelivered := drain_delivered hdrain h.sync
  have hsync := hdelivered.sync.trans h.sync
  unfold Game.ping lobbyHandleDoneBurst
  dsimp only
  have hqueue : (g.resume c).pktQueue = g.pktQueue := rfl
  rw [hqueue]
  generalize Game.drain { g.resume c with pktQueue := [] } env.handler g.pktQueue = out at *
  rw [if_pos hsync]
  have hapart := replay_apart c env.regSent out.1.regs.syncregs out.1
  have hstatus := replay_status c env.regSent out.1.regs.syncregs out.1
  have hreplayed := h.replayed env hc hdelivered
    fun reg hreg => (hkeeps reg hreg c hc).imp_right And.right
  have hself : ({ g.resume c with pktQueue := [] } : Game).players c =
      { g.players c with bursting := false, waitQping := false } := Function.update_self c _ _
  have hcleared := hstatus.trans (hdelivered.status c)
  rw [hself] at hcleared
  generalize out.1.replay c env.regSent out.1.regs.syncregs = out₂ at *
  have hothers : ∀ reg, Synced g.regs reg → ∀ d, (g.players d).Active → d ≠ c →
      KeepsUp d reg (writes g.pktQueue) :=
    fun reg hreg d hd hdc => (hkeeps reg hreg d hd).resolve_right fun h => hdc h.1
  by_cases hok : env.pingSent = true ∧ (if out₂.2 = 0 then out.2 else -1) = 0
  · rw [if_pos hok]
    have hrv : out₂.2 = 0 := by
      by_contra hne
      rw [if_neg hne] at hok
      exact absurd hok.2 (show (-1 : ℤ) ≠ 0 by decide)
    constructor
    · refine h.resumed (resume_resumed g c) hdelivered hothers hapart ?_
      intro _ reg hreg
      exact Or.inl (hreplayed hrv hreg)
    · exact hapart.pktQueue.trans hdelivered.pktQueue
    · intro _
      unfold Status.Settled Status.Active Status.Pending
      rw [hcleared]
      exact ⟨hc, by simp⟩
  · rw [if_neg hok]
    have hgone : ((out₂.1.hangUp c).players c).disconnected = true := by
      unfold Game.hangUp
      rw [modPlayer_self]
    constructor
    · refine h.resumed (resume_resumed g c) hdelivered hothers
        (hapart.trans (modPlayer_apart c _ _)) ?_
      intro hactive
      exact Bool.noConfusion (hgone.symm.trans hactive.2)
    · exact hapart.pktQueue.trans hdelivered.pktQueue
    · intro hconnected
      exact Bool.noConfusion (hgone.symm.trans hconnected)

theorem Invariant.remove {g : Game} (h : Invariant g) {handler : ℕ → HandlerEnv} {c : ClientId}
    (hc : (g.players c).inGame = true) (hgood : Considerate g (.remove handler c)) :
    Invariant ((g.abandon handler c).dismiss c) := by
  unfold abandon
  split_ifs with hburst
  · obtain ⟨hdrain, hkeeps⟩ := hgood hc hburst
    have hdelivered := drain_delivered hdrain h.sync
    have hgone : ∀ g' : Game, ((g'.dismiss c).players c).inGame = false := by
      intro g'
      unfold Game.dismiss
      rw [modPlayer_self]
    unfold lobbyHandleDoneBurst
    refine h.resumed (calm_resumed g c) hdelivered hkeeps (modPlayer_apart c _ _) ?_
    intro hactive
    exact Bool.noConfusion ((hgone _).symm.trans hactive.1)
  · exact h.dismiss c

theorem next_invariant {g : Game} (h : Invariant g) {e : Event} (hgood : Considerate g e) :
    Invariant (next g e) := by
  cases e with
  | packet env allocated c p =>
    change Invariant (if (g.players c).Active then g.packet env allocated c p else g)
    split_ifs with hc
    · exact h.packet hc hgood
    · exact h
  | join c stack clientId waitQping =>
    change Invariant (if g.bursting = true then g else g.join c stack clientId waitQping)
    split_ifs with hburst
    · exact h
    · have hjoined := h.toSound.modPlayer (c := c)
        (f := fun _ => Player.newcomer (stack.joinGame clientId) waitQping)
        (Or.inr ⟨Or.inl rfl, fun _ => rfl⟩)
      exact ⟨hjoined.mono rfl rfl fun d => Or.inl rfl, fun h => Bool.noConfusion h⟩
  | doneBurst c =>
    change Invariant (if (g.players c).Active then g.doneBurst c else g)
    split_ifs with hc
    · refine ⟨h.toSound.modPlayer ?_, h.calm⟩
      exact Or.inr ⟨Or.inr rfl, fun _ => rfl⟩
    · exact h
  | ping env c =>
    change Invariant
      (if (g.players c).Active ∧ (g.players c).waitQping = true then g.ping env c else g)
    split_ifs with hc
    · exact (h.ping hc.1 hc.2 hgood).invariant
    · exact h
  | changeLobby c => exact h.dismiss c
  | remove handler c =>
    change Invariant (if (g.players c).inGame = true then (g.abandon handler c).dismiss c else g)
    split_ifs with hc
    · exact h.remove hc hgood
    · exact h

/-- A client ends its burst, and stays. -/
def Finishes (g : Game) (e : Event) (c : ClientId) : Prop :=
  ∃ env, e = .ping env c ∧ (g.players c).Active ∧ (g.players c).waitQping = true ∧
    ((next g e).players c).disconnected = false

/-- A joiner that ends its burst has every synced register as it was last set, like everybody who
has ended theirs. -/
def RegistersSeen (g : Game) (e : Event) : Prop :=
  ∀ c, Finishes g e c → ∀ reg, Synced (next g e).regs reg →
    ((next g e).players c).registers reg = (next g e).lastSet reg ∧
      ∀ d, ((next g e).players d).Settled →
        ((next g e).players d).registers reg = ((next g e).players c).registers reg

theorem Invariant.settled {g : Game} (h : Invariant g) (hqueue : g.pktQueue = []) {d : ClientId}
    (hd : (g.players d).Settled) {reg : BitVec 8} (hreg : Synced g.regs reg) :
    (g.players d).registers reg = g.lastSet reg := by
  have hlast := h.lastSet reg hreg
  have hholds := h.registers d hd.1 reg hreg
  rw [hqueue] at hlast hholds
  rcases hholds with hv | ⟨hpending, -⟩
  · rw [hlast]
    exact hv
  · exact absurd hpending hd.2

theorem next_registersSeen {g : Game} (h : Invariant g) {e : Event} (hgood : Considerate g e) :
    RegistersSeen g e := by
  rintro c ⟨env, rfl, hc, hwait, hconnected⟩ reg hreg
  have hfinished := h.ping hc hwait hgood
  have hnext : next g (.ping env c) = g.ping env c := if_pos ⟨hc, hwait⟩
  rw [hnext] at hconnected hreg ⊢
  have hjoiner := hfinished.invariant.settled hfinished.pktQueue
    (hfinished.settled hconnected) hreg
  refine ⟨hjoiner, fun d hd => ?_⟩
  rw [hjoiner]
  exact hfinished.invariant.settled hfinished.pktQueue hd hreg

/-- A game in which a joinable quest with synced registers has just been loaded. -/
structure Fresh (g : Game) : Prop where
  join : g.regs.flagJoin = true
  sync : g.regs.flagSync = true
  zero : ∀ x ∈ g.regs.syncregs, x.2 = 0
  calm : g.bursting = false
  pktQueue : g.pktQueue = []
  registers : ∀ d, (g.players d).Active → ∀ reg, (g.players d).registers reg = 0
  lastSet : ∀ reg, g.lastSet reg = 0

theorem Fresh.invariant {g : Game} (h : Fresh g) : Invariant g := by
  have hzero : ∀ reg, valueIn reg g.regs.syncregs = 0 :=
    fun reg => valueIn_eq_zero fun y hy _ => h.zero y hy
  refine ⟨?_, fun _ => h.pktQueue⟩
  rw [h.pktQueue]
  refine sound_nil h.sync ?_ ?_ ?_
  · exact List.pairwise_of_forall_mem_list fun x _ y hy _ => h.zero y hy
  · intro reg _
    rw [hzero, h.lastSet]
  · intro d hd reg _
    rw [h.lastSet]
    exact Or.inl (h.registers d hd reg)

/-- The registers as `lobby_setup_quest` leaves them, without an allocation failing. -/
theorem recordQuest_fresh {env : SetupEnv} {q : Quest} (hjoin : q.joinable = true)
    (hsync : q.syncRegs = true) (hmemory : ¬(env.syncregsAllocated = false ∨
      env.regvalsAllocated = false)) (s : QuestRegs) :
    (recordQuest env q s).1.flagJoin = true ∧ (recordQuest env q s).1.flagSync = true ∧
      (recordQuest env q s).1.syncregs = q.syncedRegs.map fun r => (r, 0) := by
  unfold recordQuest setupSync
  dsimp only
  rw [if_pos hjoin, if_pos hsync, if_neg hmemory]
  exact ⟨rfl, rfl, rfl⟩

/-- The members of a game when its quest is loaded. -/
def Game.start (regs : QuestRegs) (members : List ClientId) : Game where
  regs := regs
  bursting := false
  pktQueue := []
  players c := {
    inGame := decide (c ∈ members), disconnected := false, bursting := false, waitQping := false
    stack := fresh fun _ => 0, registers := fun _ => 0 }
  lastSet _ := 0

theorem start_fresh {env : SetupEnv} {q : Quest} (hjoin : q.joinable = true)
    (hsync : q.syncRegs = true) (hmemory : ¬(env.syncregsAllocated = false ∨
      env.regvalsAllocated = false)) (s : QuestRegs) (members : List ClientId) :
    Fresh (Game.start (recordQuest env q s).1 members) := by
  obtain ⟨hj, hs, hregs⟩ := recordQuest_fresh hjoin hsync hmemory s
  refine ⟨hj, hs, ?_, rfl, rfl, fun _ _ _ => rfl, fun _ => rfl⟩
  intro x hx
  change x ∈ (recordQuest env q s).1.syncregs at hx
  rw [hregs] at hx
  obtain ⟨r, -, rfl⟩ := List.mem_map.mp hx
  rfl

/-- A quest that may be joined and syncs register 60. -/
def syncedQuest : Quest :=
  { plainQuest with joinable := true, syncRegs := true, syncedRegs := [60] }

def syncedGame : Game :=
  Game.start (recordQuest easyEnv syncedQuest LobbyQuest.blank.toQuestRegs).1 [0]

def plainHandler : HandlerEnv :=
  { plainEnv with team := callingTeam, result := 0 }

def calmPing : PingEnv where
  handler _ := plainHandler
  pingSent := true
  regSent _ := true

/-- Client 1 joins, and a packet of the member is deferred until it has loaded the quest. -/
def lateJoin : List Event :=
  [.join 1 (fresh fun _ => 0) 1 false, .packet plainHandler true 0 (.syncReg ⟨60, 5⟩),
    .doneBurst 1]

theorem syncedGame_fresh : Fresh syncedGame :=
  start_fresh rfl rfl (by decide) _ _

end ShipServer.SyncedRegisters
