import ShipServer.LobbyRooms
import ShipServer.QuestStack

set_option autoImplicit false

namespace ShipServer.QuestReplies

open LabelledRuns TracedReads Probe LobbyRooms QuestFunctions QuestStack

/-- The register in which a call wants its result: the first slot after the arguments. -/
def namedReg (m : ℤ → BitVec 32) : BitVec 8 :=
  (m (3 + (m 1).toNat)).setWidth 8

/-- The register that `quest_flag_reply` takes from the stack. -/
def replyReg (isSet : Bool) (m : ℤ → BitVec 32) : BitVec 8 :=
  if isSet then (m 5).setWidth 8 else (m 4).setWidth 8

/-- A quest function either makes no call to the shipgate, or one and nothing else. A call that is
no deletion takes its result where it will be looked for. -/
def CallsOnce (env : QuestEnv) (m : ℤ → BitVec 32) (out : Outcome) : Prop :=
  (∀ req, Effect.call req ∉ out.effects) ∨
    ∃ req, out = ⟨retNotYet, [.call req]⟩ ∧
      (replyReg req.isSet m = namedReg m ∨
        DeletesFlag m ∧ ¬255 < m 5 ∧ env.qflagSent = true ∧ req.isSet = true)

section Calls

variable {env : QuestEnv} {m : ℤ → BitVec 32}

theorem callsOnce_refuse (code : BitVec 32) : Returns m (CallsOnce env m) (refuse code) :=
  Or.inl fun _ => List.not_mem_nil

theorem callsOnce_guard {P : Prop} [Decidable P] {code : BitVec 32} {p : QuestFunction}
    (hp : ¬P → Returns m (CallsOnce env m) p) :
    Returns m (CallsOnce env m) (if P then refuse code else p) :=
  Returns.ite (fun _ => callsOnce_refuse code) hp

theorem callsOnce_finish {effects : List Effect} (h : ∀ req, Effect.call req ∉ effects) :
    Returns m (CallsOnce env m) (finish effects) :=
  Or.inl h

theorem noArguments_callsOnce (limit : BitVec 32) {answer : BitVec 32 → List Effect}
    (hanswer : ∀ r req, Effect.call req ∉ answer r) :
    Returns m (CallsOnce env m) (noArguments limit answer) := by
  unfold noArguments
  refine Returns.step (callsOnce_guard fun _ => Returns.step (callsOnce_guard fun _ => ?_))
  exact Returns.step (callsOnce_guard fun _ => callsOnce_finish (hanswer _))

theorem forPlayers_callsOnce (l : QuestTeam) {register : Fin 4 → BitVec 32 → List Effect}
    {answer : Option QuestMember → BitVec 32 → List Effect}
    (hregister : ∀ i r req, Effect.call req ∉ register i r)
    (hanswer : ∀ p r req, Effect.call req ∉ answer p r) :
    Returns m (CallsOnce env m) (forPlayers l register answer) := by
  unfold forPlayers
  refine Returns.step (callsOnce_guard fun _ => Returns.step (Returns.ite (fun _ => ?_) fun _ => ?_))
  · refine Returns.step (callsOnce_guard fun _ => Returns.bind (callsOnce_guard fun _ => ?_))
    refine Returns.step (Returns.step (Returns.step (Returns.step (callsOnce_finish ?_))))
    intro req
    simp [hregister, hanswer]
  · refine Returns.dite (fun h => ?_) fun _ => callsOnce_refuse _
    refine Returns.step (callsOnce_guard fun _ => Returns.step (callsOnce_guard fun _ => ?_))
    refine callsOnce_finish fun req => ?_
    simp [hregister, hanswer]

theorem getRandomInteger_callsOnce : Returns m (CallsOnce env m) (getRandomInteger env) := by
  unfold getRandomInteger
  refine Returns.step (callsOnce_guard fun _ => Returns.step (callsOnce_guard fun _ => ?_))
  refine Returns.step (callsOnce_guard fun _ => Returns.step (Returns.step ?_))
  refine callsOnce_guard fun _ => callsOnce_finish fun req => ?_
  simp [sync]

theorem wordCensorCheck_callsOnce (sr : Bool) :
    Returns m (CallsOnce env m) (wordCensorCheck env sr) := by
  unfold wordCensorCheck
  refine Returns.step (callsOnce_guard fun _ => Returns.step (callsOnce_guard fun _ => ?_))
  refine Returns.step (callsOnce_guard fun _ => Returns.bind ?_)
  cases (readString sr _).result m with
  | none => exact callsOnce_refuse _
  | some s =>
    refine callsOnce_finish fun req => ?_
    simp [sync]

theorem scriptExecuteQfunc_callsOnce (l : QuestTeam) :
    Returns m (CallsOnce env m) (scriptExecuteQfunc env l) := by
  unfold scriptExecuteQfunc
  refine callsOnce_guard fun _ => Returns.step ?_
  cases l.qfuncList.find? (fun f => f.funcId = m 0) with
  | none => exact callsOnce_refuse _
  | some f =>
    refine Returns.step (callsOnce_guard fun _ => Returns.step (callsOnce_guard fun _ => ?_))
    refine Returns.bind (callsOnce_guard fun _ => Returns.bind (Returns.bind ?_))
    refine Or.inl fun req => ?_
    simp

theorem request_callsOnce {req : QFlagRequest}
    (hreg : replyReg req.isSet m = namedReg m ∨ DeletesFlag m ∧ ¬255 < m 5 ∧ req.isSet = true) :
    Returns m (CallsOnce env m) (request env req) := by
  unfold request
  refine Returns.ite (fun hsent => Or.inr ⟨req, rfl, ?_⟩)
    fun _ => Or.inl fun _ => List.not_mem_nil
  rcases hreg with hreg | ⟨hdeletes, hfifth, hset⟩
  · exact Or.inl hreg
  · exact Or.inr ⟨hdeletes, hfifth, hsent, hset⟩

theorem getQuestFlag_callsOnce (l : QuestTeam) (ctl : BitVec 32) :
    Returns m (CallsOnce env m) (getQuestFlag env l ctl) := by
  unfold getQuestFlag
  refine Returns.step (callsOnce_guard fun h₁ => Returns.step (callsOnce_guard fun _ => ?_))
  refine Returns.step (callsOnce_guard fun _ => Returns.step (request_callsOnce (Or.inl ?_)))
  rw [namedReg, not_not.mp h₁]
  rfl

theorem setQuestFlag_callsOnce (l : QuestTeam) (long : Bool) (ctl : BitVec 32) :
    Returns m (CallsOnce env m) (setQuestFlag env l long ctl) := by
  unfold setQuestFlag
  refine Returns.step (callsOnce_guard fun h₁ => Returns.step (callsOnce_guard fun _ => ?_))
  refine Returns.step (callsOnce_guard fun _ => Returns.step (callsOnce_guard fun _ => ?_))
  refine Returns.step (request_callsOnce (Or.inl ?_))
  rw [namedReg, not_not.mp h₁]
  rfl

theorem delQuestFlag_callsOnce (hid : m 0 = 16 ∨ m 0 = 17) (l : QuestTeam) (ctl : BitVec 32) :
    Returns m (CallsOnce env m) (delQuestFlag env l ctl) := by
  unfold delQuestFlag
  refine Returns.step (callsOnce_guard fun h₁ => Returns.step (callsOnce_guard fun h₂ => ?_))
  refine Returns.step (callsOnce_guard fun h₃ => Returns.step (callsOnce_guard fun h₅ => ?_))
  refine Returns.step (request_callsOnce (Or.inr ⟨?_, h₅, rfl⟩))
  exact ⟨hid, not_not.mp h₁, not_not.mp h₂, h₃⟩

theorem sendValue_noCall (value : QuestMember → BitVec 32) (p : Option QuestMember)
    (r : BitVec 32) (req : QFlagRequest) : Effect.call req ∉ sendValue value p r := by
  simp [sendValue, sync]

theorem sendValues_noCall (values : List (QuestMember → BitVec 32)) (p : Option QuestMember)
    (r : BitVec 32) (req : QFlagRequest) : Effect.call req ∉ sendValues values p r := by
  simp [sendValues, sync, List.mem_mapIdx]

theorem questFunctionDispatch_callsOnce (l : QuestTeam) :
    Returns m (CallsOnce env m) (questFunctionDispatch env l) := by
  have hnone : ∀ (i : Fin 4) (r : BitVec 32) (req : QFlagRequest),
      Effect.call req ∉ (fun (_ : Fin 4) (_ : BitVec 32) => ([] : List Effect)) i r :=
    fun _ _ _ => List.not_mem_nil
  unfold questFunctionDispatch
  refine Returns.step (Returns.ite (fun _ => scriptExecuteQfunc_callsOnce l) fun _ => ?_)
  split
  case h_9 => exact forPlayers_callsOnce l hnone (sendValues_noCall _)
  case h_10 => exact getRandomInteger_callsOnce
  case h_13 => exact getQuestFlag_callsOnce l _
  case h_14 => exact setQuestFlag_callsOnce l _ _
  case h_15 => exact getQuestFlag_callsOnce l _
  case h_16 => exact setQuestFlag_callsOnce l _ _
  case h_17 heq => exact delQuestFlag_callsOnce (Or.inl (BitVec.eq_of_toNat_eq heq)) l _
  case h_18 heq => exact delQuestFlag_callsOnce (Or.inr (BitVec.eq_of_toNat_eq heq)) l _
  case h_19 => exact wordCensorCheck_callsOnce _
  case h_20 => exact wordCensorCheck_callsOnce _
  case h_22 =>
    refine forPlayers_callsOnce l (fun i r req => ?_) (sendValues_noCall _)
    simp
  case h_28 => exact callsOnce_refuse _
  all_goals first
    | exact forPlayers_callsOnce l hnone (sendValue_noCall _)
    | (refine noArguments_callsOnce _ fun r req => ?_
       simp [sync])

end Calls

/-- A call of a quest flag function: who made it, the register it named, and the game and the
quest it was made from. -/
structure Call where
  id : ℕ
  client : ClientId
  reg : BitVec 8
  lobby : LobbyHandle
  session : ℕ
  deriving DecidableEq

/-- A request on its way to the shipgate and back. A write to the short flag register leads to one
without a call. -/
structure Ticket where
  guildcard : BitVec 32
  request : QFlagRequest
  call : Option Call
  deriving DecidableEq

structure FlagClient extends QuestClient where
  guildcard : BitVec 32
  curLobby : Option LobbyHandle

/-- A block and its requests to the shipgate. `clients` is the list of the block, in its order.
`session` counts the quests that a lobby has loaded, and the calls are numbered: that is history,
as are the calls answered so far. -/
structure FlagBlock where
  clients : List ClientId
  client : ClientId → FlagClient
  isGame : LobbyHandle → Bool
  lobby : LobbyHandle → QuestLobby
  session : LobbyHandle → ℕ
  nextClient : ClientId
  inFlight : List Ticket
  nextCall : ℕ
  answered : List ℕ

/-- A register that is sent to a client. -/
abbrev Write := ClientId × BitVec 8 × BitVec 32

namespace FlagBlock

variable (b : FlagBlock)

def modClient (c : ClientId) (f : FlagClient → FlagClient) : FlagBlock :=
  { b with client := Function.update b.client c (f (b.client c)) }

theorem client_modClient (c : ClientId) (f : FlagClient → FlagClient) :
    (b.modClient c f).client c = f (b.client c) :=
  Function.update_self c _ _

theorem client_modClient_ne {c d : ClientId} (f : FlagClient → FlagClient) (hd : d ≠ c) :
    (b.modClient c f).client d = b.client d :=
  Function.update_of_ne hd _ _

/-- The calls that wait for an answer. -/
def calls : List Call :=
  b.inFlight.filterMap Ticket.call

/-- The lobby with the members it has when a packet arrives. -/
def teamAt (l : LobbyHandle) (team : QuestTeam) : QuestLobby :=
  { b.lobby l with toQuestTeam := { team with qid := (b.lobby l).qid } }

/-- The block after a packet: the client's stack, its lobby and the requests sent. -/
def afterSync (c : ClientId) (x : QuestClient) (l : LobbyHandle) (lobby : QuestLobby)
    (tickets : List Ticket) : FlagBlock :=
  { b.modClient c (fun y => { y with toQuestClient := x }) with
    lobby := Function.update b.lobby l lobby
    inFlight := b.inFlight ++ tickets
    nextCall := b.nextCall + 1 }

theorem client_afterSync (c : ClientId) (x : QuestClient) (l : LobbyHandle) (lobby : QuestLobby)
    (tickets : List Ticket) :
    (b.afterSync c x l lobby tickets).client c = { b.client c with toQuestClient := x } :=
  Function.update_self c _ _

theorem client_afterSync_ne {c d : ClientId} (hd : d ≠ c) (x : QuestClient) (l : LobbyHandle)
    (lobby : QuestLobby) (tickets : List Ticket) :
    (b.afterSync c x l lobby tickets).client d = b.client d :=
  Function.update_of_ne hd _ _

/-- A packet of a client. -/
def syncReg (env : SyncEnv) (team : QuestTeam) (c : ClientId) (pkt : SyncReg) : FlagBlock :=
  match (b.client c).curLobby with
  | none => b
  | some l =>
    let r := handleSyncReg env (b.teamAt l team) (b.client c).toQuestClient pkt
    let call := r.dispatched.map fun x =>
      { id := b.nextCall, client := c, reg := namedReg x.qStack, lobby := l
        session := b.session l }
    b.afterSync c r.client l r.lobby (r.requests.map fun req =>
      { guildcard := (b.client c).guildcard, request := req, call := call })

/-- The lobby loads a quest. -/
def setupQuest (l : LobbyHandle) (qid : BitVec 32) (regs : QuestRegs) : FlagBlock :=
  { b with
    lobby := Function.update b.lobby l { b.lobby l with qid := qid, toQuestRegs := regs }
    session := Function.update b.session l (b.session l + 1) }

/-- `lobby_change_lobby` lets the client in. Only on the way from a lobby into a game is the stack
reset, and never the lock. -/
def changeLobby (c : ClientId) (l : LobbyHandle) (slot : ℕ) : FlagBlock :=
  b.modClient c fun x =>
    if x.curLobby ≠ none ∧ b.isGame l = true then
      { x with toQuestClient := x.toQuestClient.joinGame slot, curLobby := some l }
    else { x with clientId := slot, curLobby := some l }

def removePlayer (c : ClientId) : FlagBlock :=
  b.modClient c fun x => { x with curLobby := none }

def connect (guildcard : BitVec 32) (qStack : ℤ → BitVec 32) : FlagBlock :=
  { b.modClient b.nextClient (fun _ =>
      { toQuestClient := fresh qStack, guildcard := guildcard, curLobby := none }) with
    clients := b.clients ++ [b.nextClient]
    nextClient := b.nextClient + 1 }

def disconnect (c : ClientId) : FlagBlock :=
  { b with clients := b.clients.erase c }

/-- The client that an answer is for: the first one on the block with the guild card. -/
def addressee (guildcard : BitVec 32) : Option ClientId :=
  b.clients.find? fun c => (b.client c).guildcard = guildcard

def questFlagReply (c : ClientId) (l : LobbyHandle) (isSet error : Bool) (value : BitVec 32) :
    FlagBlock × List Write :=
  let x := b.client c
  let value := if isSet ∧ error = false then 0 else value
  (b.modClient c (fun x => { x with top := 0, locked := false }),
    [(c, replyReg isSet x.qStack, value),
      (c, (b.lobby l).dataReg, if error then retRetvalError else retNoError)])

end FlagBlock

/-- The request is about a long flag. -/
def QFlagRequest.long (req : QFlagRequest) : Prop :=
  req.ctl &&& 0x80000000 ≠ 0

instance (req : QFlagRequest) : Decidable (QFlagRequest.long req) :=
  inferInstanceAs (Decidable (_ ≠ _))

/-- An answer of the shipgate: the flag's value, or an error code. -/
inductive Answer where
  | value (v : BitVec 32)
  | error (code : BitVec 32)

/-- An answer for a client whose stack is not locked is dropped if it cannot be about the short
flag register. -/
def Answer.Dropped (req : QFlagRequest) : Answer → Prop
  | .value _ => QFlagRequest.long req ∨ 255 < req.flag
  | .error _ => QFlagRequest.long req

instance (req : QFlagRequest) : (a : Answer) → Decidable (a.Dropped req)
  | .value _ => inferInstanceAs (Decidable (_ ∨ _))
  | .error _ => inferInstanceAs (Decidable (QFlagRequest.long req))

/-- The value for the short flag register. -/
def Answer.direct (req : QFlagRequest) : Answer → BitVec 32
  | .value v =>
    v &&& 0xFFFF ||| (if req.isSet then 0x60000000 else 0x40000000) ||| req.flag <<< 16
  | .error code => if code = 0x80000001 then 0x8000FFFF else code &&& 0xFFFF ||| 0x80000000

/-- The value for the register of a call. -/
def Answer.forCall : Answer → BitVec 32
  | .value v => v
  | .error code => if code = 2 then -1 else if code = 1 then -3 else -2

def Answer.isError : Answer → Bool
  | .value _ => false
  | .error _ => true

namespace FlagBlock

/-- `handle_qflag` and `handle_qflag_err`. -/
def handleQflag (b : FlagBlock) (t : Ticket) (a : Answer) : FlagBlock × List Write :=
  match b.addressee t.guildcard with
  | none => (b, [])
  | some c =>
    match (b.client c).curLobby with
    | none => (b, [])
    | some l =>
      if (b.client c).locked = false then
        if a.Dropped t.request then (b, [])
        else (b, [(c, (b.lobby l).shortflagReg, a.direct t.request)])
      else b.questFlagReply c l t.request.isSet a.isError a.forCall

/-- A request comes off the list. -/
def settle (b : FlagBlock) (t : Ticket) : FlagBlock :=
  { b with inFlight := b.inFlight.erase t }

/-- The shipgate answers a request. -/
def answer (b : FlagBlock) (t : Ticket) (a : Answer) : FlagBlock × List Write :=
  let (b, writes) := (b.settle t).handleQflag t a
  match t.call with
  | some k => if writes = [] then (b, writes) else ({ b with answered := b.answered ++ [k.id] }, writes)
  | none => (b, writes)

end FlagBlock

inductive FlagEvent where
  | syncReg (env : SyncEnv) (team : QuestTeam) (c : ClientId) (pkt : SyncReg)
  | setupQuest (l : LobbyHandle) (qid : BitVec 32) (regs : QuestRegs)
  | changeLobby (c : ClientId) (l : LobbyHandle) (slot : ℕ)
  | removePlayer (c : ClientId)
  | connect (guildcard : BitVec 32) (qStack : ℤ → BitVec 32)
  | disconnect (c : ClientId)
  | answer (t : Ticket) (a : Answer)

/-- Clients that are not on the block do nothing, and the shipgate only answers requests. -/
def next (b : FlagBlock) : FlagEvent → FlagBlock
  | .syncReg env team c pkt => if c ∈ b.clients then b.syncReg env team c pkt else b
  | .setupQuest l qid regs => b.setupQuest l qid regs
  | .changeLobby c l slot => if c ∈ b.clients then b.changeLobby c l slot else b
  | .removePlayer c => if c ∈ b.clients then b.removePlayer c else b
  | .connect guildcard qStack => b.connect guildcard qStack
  | .disconnect c => b.disconnect c
  | .answer t a => if t ∈ b.inFlight then (b.answer t a).1 else b

/-- The registers that an answer is written to. -/
def writes (b : FlagBlock) (t : Ticket) (a : Answer) : List Write :=
  if t ∈ b.inFlight then (b.answer t a).2 else []

/-- Without a call to the shipgate a quest function leaves the client alone. -/
theorem apply_foldl_noCall {effects : List Effect} (h : ∀ req, Effect.call req ∉ effects)
    (r : SyncResult) :
    (effects.foldl SyncResult.apply r).client = r.client ∧
      (effects.foldl SyncResult.apply r).requests = r.requests := by
  induction effects generalizing r with
  | nil => exact ⟨rfl, rfl⟩
  | cons e effects ih =>
    have hstep : (r.apply e).client = r.client ∧ (r.apply e).requests = r.requests := by
      cases e with
      | call req => exact absurd List.mem_cons_self (h req)
      | sync reg value => exact ⟨rfl, rfl⟩
      | posUpdates who reg => exact ⟨rfl, rfl⟩
      | countUpdates reg => exact ⟨rfl, rfl⟩
    have hrest : ∀ req, Effect.call req ∉ effects :=
      fun req hreq => h req (List.mem_cons_of_mem e hreq)
    rw [List.foldl_cons, (ih hrest _).1, (ih hrest _).2]
    exact hstep

/-- No call has been made by a packet of client `c`; what is asked of the shipgate is asked without
a call. -/
structure Callless (c : QuestClient) (r : SyncResult) : Prop where
  locked : r.client.locked = c.locked
  qStack : c.locked = true → r.client.qStack = c.qStack
  requests : r.dispatched = none ∨ r.requests = []

/-- A call has been made with stack `x`. -/
structure Called (env : QuestEnv) (x : QuestClient) (r : SyncResult) (req : QFlagRequest) :
    Prop where
  complete : x.Complete
  dispatched : r.dispatched = some x
  requests : r.requests = [req]
  locked : r.client.locked = true
  qStack : r.client.qStack = x.qStack
  named : replyReg req.isSet x.qStack = namedReg x.qStack ∨
    DeletesFlag x.qStack ∧ ¬255 < x.qStack 5 ∧ env.qflagSent = true ∧ req.isSet = true

theorem callFunction_calls (env : QuestEnv) (pkt : SyncReg) {r : SyncResult}
    (hr : r.requests = []) (hcomplete : r.client.Complete) :
    ((r.callFunction env pkt).client.locked = r.client.locked ∧
        (r.callFunction env pkt).requests = []) ∨
      ∃ req, Called env r.client (r.callFunction env pkt) req := by
  have honce : Returns r.client.qStack (CallsOnce env r.client.qStack)
      (questFunctionDispatch env r.lobby.toQuestTeam) := questFunctionDispatch_callsOnce _
  unfold SyncResult.callFunction
  dsimp only
  rcases honce with hno | ⟨req, hout, hnamed⟩
  · left
    obtain ⟨hclient, hrequests⟩ := apply_foldl_noCall hno { r with dispatched := some r.client }
    generalize (questFunctionDispatch env r.lobby.toQuestTeam).result r.client.qStack = out at *
    have hlocked := congrArg QuestClient.locked hclient
    split_ifs
    · exact ⟨hlocked, hrequests.trans hr⟩
    · exact ⟨hlocked, hrequests.trans hr⟩
  · right
    rw [hout, if_neg (not_not.mpr rfl)]
    refine ⟨req, hcomplete, rfl, ?_, rfl, rfl, hnamed⟩
    change r.requests ++ [req] = [req]
    rw [hr, List.nil_append]

theorem dataSync_calls (env : QuestEnv) (pkt : SyncReg) {r : SyncResult}
    (hr : r.requests = []) :
    Callless r.client (r.dataSync env pkt) ∨
      r.client.locked = false ∧ ∃ x req, Called env x (r.dataSync env pkt) req := by
  unfold SyncResult.dataSync
  by_cases htop : r.client.top < 32
  swap
  · rw [if_neg htop]
    left
    split_ifs <;> exact ⟨rfl, fun _ => rfl, Or.inr hr⟩
  rw [if_pos htop]
  by_cases hlocked : r.client.locked = false
  swap
  · rw [if_neg hlocked]
    exact Or.inl ⟨rfl, fun _ => rfl, Or.inr hr⟩
  rw [if_pos hlocked]
  have hfree : r.client.locked = true → ∀ {P : Prop}, P := by
    intro h
    rw [hlocked] at h
    cases h
  unfold SyncResult.completeCall
  split_ifs with hcomplete
  · have hcalls := callFunction_calls env pkt
      (r := { r with client := r.client.push pkt.value }) hr hcomplete
    rcases hcalls with ⟨hsame, hnone⟩ | ⟨req, hcalled⟩
    · exact Or.inl ⟨hsame, fun h => hfree h, Or.inr hnone⟩
    · exact Or.inr ⟨hlocked, _, req, hcalled⟩
  · exact Or.inl ⟨rfl, fun h => hfree h, Or.inr hr⟩

theorem handleSpecial_calls (env : SyncEnv) (l : QuestLobby) (c : QuestClient) (pkt : SyncReg) :
    Callless c (handleSpecial env l c pkt).1 ∨
      c.locked = false ∧ ∃ x req, Called env.toQuestEnv x (handleSpecial env l c pkt).1 req := by
  unfold handleSpecial
  dsimp only
  split_ifs
  · exact Or.inl ⟨rfl, fun _ => rfl, Or.inl rfl⟩
  · left
    unfold SyncResult.shortflagSync SyncResult.ask
    dsimp only
    split_ifs <;> exact ⟨rfl, fun _ => rfl, Or.inl rfl⟩
  · exact dataSync_calls env.toQuestEnv pkt (r := SyncResult.start l c) rfl
  · exact Or.inl ⟨rfl, fun _ => rfl, Or.inl rfl⟩
  · exact Or.inl ⟨rfl, fun _ => rfl, Or.inl rfl⟩
  · exact Or.inl ⟨rfl, fun _ => rfl, Or.inl rfl⟩

/-- A packet either makes one call, of the stack that it completes, or none. -/
theorem handleSyncReg_calls (env : SyncEnv) (l : QuestLobby) (c : QuestClient) (pkt : SyncReg) :
    Callless c (handleSyncReg env l c pkt) ∨
      c.locked = false ∧ ∃ x req, pushed c (.syncReg env l pkt) = some x ∧
        Called env.toQuestEnv x (handleSyncReg env l c pkt) req := by
  rcases handleSpecial_calls env l c pkt with hno | ⟨hfree, x, req, hcalled⟩
  · exact Or.inl ⟨hno.locked, hno.qStack, hno.requests⟩
  right
  refine ⟨hfree, x, req, ?_, hcalled.complete, hcalled.dispatched, hcalled.requests,
    hcalled.locked, hcalled.qStack, hcalled.named⟩
  have hcall := hcalled.dispatched
  rcases handleSpecial_cases env l c pkt with ⟨y, hpushed, -, -, hpush⟩ | ⟨-, hq⟩
  · rw [hpush.dispatched] at hcall
    split_ifs at hcall
    rw [hpushed]
    exact hcall
  · rw [hq.dispatched] at hcall
    cases hcall

/-- The client is still in the game that the call was made from, in the same quest. -/
def AtHome (b : FlagBlock) (k : Call) : Prop :=
  (b.client k.client).curLobby = some k.lobby ∧ b.session k.lobby = k.session

/-- The answer to a call goes to its register, with the result code in the data register of the
quest that the call was made from. -/
def Delivered (b : FlagBlock) (k : Call) (ws : List Write) : Prop :=
  AtHome b k ∧ ∃ value status, ws =
    [(k.client, k.reg, value), (k.client, (b.lobby k.lobby).dataReg, status)]

/-- The stack of a client can be used. -/
def Usable (x : FlagClient) : Prop :=
  x.locked = false ∧ x.top = 0

/-- An answer to a call is delivered, and frees the stack of the client that made it; if that
client has left the block then the answer is written nowhere. After the step a stack is locked only
for a call that waits, made from the game and the quest that the client is in. No call has been
answered twice. -/
structure Correct (b : FlagBlock) (e : FlagEvent) : Prop where
  delivered : ∀ t a k, e = .answer t a → t ∈ b.inFlight → t.call = some k →
    k.client ∈ b.clients →
      Delivered b k (writes b t a) ∧ Usable ((next b e).client k.client)
  nowhere : ∀ t a k, e = .answer t a → t ∈ b.inFlight → t.call = some k →
    k.client ∉ b.clients → writes b t a = []
  pending : ∀ c ∈ (next b e).clients, ((next b e).client c).locked = true →
    ∃ k ∈ (next b e).calls, k.client = c ∧ AtHome (next b e) k
  once : (next b e).answered.Nodup

/-- An answer finds the client that it is for: a call's the caller, if it is still there, and else
nobody who would take it; an answer without a call nobody whose stack is locked. -/
def Reaches (b : FlagBlock) (t : Ticket) (a : Answer) : Prop :=
  match t.call with
  | none => ∀ c, b.addressee t.guildcard = some c → (b.client c).curLobby ≠ none →
      (b.client c).locked = false
  | some k =>
    if k.client ∈ b.clients then b.addressee t.guildcard = some k.client
    else ∀ c, b.addressee t.guildcard = some c → (b.client c).curLobby = none ∨
      (b.client c).locked = false ∧ a.Dropped t.request

/-- The packet makes no call of a deletion that would look for its register in slot 5 while slot 4
names another. -/
def NoDeletion (b : FlagBlock) (env : SyncEnv) (team : QuestTeam) (c : ClientId)
    (pkt : SyncReg) : Prop :=
  ∀ l x, (b.client c).curLobby = some l →
    pushed (b.client c).toQuestClient (.syncReg env (b.teamAt l team) pkt) = some x →
    x.Complete → DeletesFlag x.qStack → ¬255 < x.qStack 5 → env.qflagSent = true →
    replyReg true x.qStack = namedReg x.qStack

/-- While a call waits, its client stays in the game and the quest. -/
def Kept (b : FlagBlock) : FlagEvent → Prop
  | .syncReg env team c pkt => NoDeletion b env team c pkt
  | .setupQuest l _ _ => ∀ c ∈ b.clients, (b.client c).curLobby = some l →
      (b.client c).locked = false
  | .changeLobby c _ _ | .removePlayer c => c ∈ b.clients → (b.client c).locked = false
  | .connect _ _ | .disconnect _ => True
  | .answer t a => Reaches b t a

/-- The stack is locked for this call, and holds its register where the answer will look. -/
structure Waiting (b : FlagBlock) (t : Ticket) (k : Call) : Prop where
  locked : (b.client k.client).locked = true
  reg : replyReg t.request.isSet (b.client k.client).qStack = k.reg
  home : AtHome b k

structure Sound (b : FlagBlock) : Prop where
  known : ∀ c ∈ b.clients, c < b.nextClient
  nodup : b.clients.Nodup
  issued : ∀ k ∈ b.calls, k.client < b.nextClient ∧ k.id < b.nextCall ∧ k.id ∉ b.answered
  distinct : b.calls.Pairwise fun k k' => k.client ≠ k'.client ∧ k.id ≠ k'.id
  waiting : ∀ t ∈ b.inFlight, ∀ k, t.call = some k → k.client ∈ b.clients → Waiting b t k
  locked : ∀ c ∈ b.clients, (b.client c).locked = true → ∃ k ∈ b.calls, k.client = c
  once : b.answered.Nodup
  past : ∀ i ∈ b.answered, i < b.nextCall

theorem mem_calls {b : FlagBlock} {k : Call} :
    k ∈ b.calls ↔ ∃ t ∈ b.inFlight, t.call = some k := by
  rw [FlagBlock.calls, List.mem_filterMap]

/-- What a sound block says about locked stacks. -/
theorem Sound.pending {b : FlagBlock} (hb : Sound b) {c : ClientId} (hc : c ∈ b.clients)
    (hlocked : (b.client c).locked = true) : ∃ k ∈ b.calls, k.client = c ∧ AtHome b k := by
  obtain ⟨k, hk, rfl⟩ := hb.locked c hc hlocked
  obtain ⟨t, ht, hcall⟩ := mem_calls.mp hk
  exact ⟨k, hk, rfl, (hb.waiting t ht k hcall hc).home⟩

/-- The stack of a client on the block is free while no call of it waits. -/
theorem Sound.no_call {b : FlagBlock} (hb : Sound b) {c : ClientId} (hc : c ∈ b.clients)
    (hfree : (b.client c).locked = false) : ∀ t ∈ b.inFlight, ∀ k, t.call = some k →
      k.client ≠ c := by
  rintro t ht k hcall rfl
  have hlocked := (hb.waiting t ht k hcall hc).locked
  rw [hfree] at hlocked
  cases hlocked

/-- A waiting call looks at the lock, the stack and the lobby of its client, and at the session of
its game. -/
theorem Waiting.frame {b b' : FlagBlock} {t : Ticket} {k : Call} (h : Waiting b t k)
    (hlocked : (b'.client k.client).locked = (b.client k.client).locked)
    (hstack : (b'.client k.client).qStack = (b.client k.client).qStack)
    (hcur : (b'.client k.client).curLobby = (b.client k.client).curLobby)
    (hsession : b'.session k.lobby = b.session k.lobby) : Waiting b' t k where
  locked := hlocked.trans h.locked
  reg := by
    rw [hstack]
    exact h.reg
  home := ⟨hcur.trans h.home.1, hsession.trans h.home.2⟩

theorem Waiting.frame_of_client {b b' : FlagBlock} {t : Ticket} {k : Call} (h : Waiting b t k)
    (hclient : b'.client k.client = b.client k.client)
    (hsession : b'.session k.lobby = b.session k.lobby) : Waiting b' t k := by
  refine h.frame ?_ ?_ ?_ hsession
  all_goals rw [hclient]

/-- A change to one client whose stack is free. -/
theorem Sound.modClient {b : FlagBlock} (hb : Sound b) {c : ClientId} (hc : c ∈ b.clients)
    (hfree : (b.client c).locked = false) {f : FlagClient → FlagClient}
    (hf : (f (b.client c)).locked = false) : Sound (b.modClient c f) := by
  have hsame : ∀ d, d ≠ c → (b.modClient c f).client d = b.client d :=
    fun d hd => b.client_modClient_ne f hd
  refine ⟨hb.known, hb.nodup, hb.issued, hb.distinct, ?_, ?_, hb.once, hb.past⟩
  · intro t ht k hcall hk
    have hd := hsame k.client (hb.no_call hc hfree t ht k hcall)
    exact (hb.waiting t ht k hcall hk).frame_of_client hd rfl
  · intro d hd hlocked
    by_cases hdc : d = c
    · rw [hdc, FlagBlock.client_modClient, hf] at hlocked
      cases hlocked
    · rw [hsame d hdc] at hlocked
      exact hb.locked d hd hlocked

theorem setupQuest_sound {b : FlagBlock} (hb : Sound b) {l : LobbyHandle}
    (hfree : ∀ c ∈ b.clients, (b.client c).curLobby = some l → (b.client c).locked = false)
    (qid : BitVec 32) (regs : QuestRegs) : Sound (b.setupQuest l qid regs) := by
  refine ⟨hb.known, hb.nodup, hb.issued, hb.distinct, ?_, hb.locked, hb.once, hb.past⟩
  intro t ht k hcall hk
  have hwaiting := hb.waiting t ht k hcall hk
  have hother : k.lobby ≠ l := by
    rintro rfl
    have hlocked := hwaiting.locked
    rw [hfree k.client hk hwaiting.home.1] at hlocked
    cases hlocked
  exact hwaiting.frame_of_client rfl (Function.update_of_ne hother _ _)

theorem connect_sound {b : FlagBlock} (hb : Sound b) (guildcard : BitVec 32)
    (qStack : ℤ → BitVec 32) : Sound (b.connect guildcard qStack) := by
  have hold : ∀ c, c < b.nextClient → (b.connect guildcard qStack).client c = b.client c :=
    fun c hc => Function.update_of_ne (ne_of_lt hc) _ _
  have hnew : b.nextClient ∉ b.clients := fun h => lt_irrefl _ (hb.known _ h)
  refine ⟨?_, ?_, ?_, hb.distinct, ?_, ?_, hb.once, hb.past⟩
  · intro c hc
    rcases List.mem_append.mp hc with hc | hc
    · exact Nat.lt_succ_of_lt (hb.known c hc)
    · rw [List.mem_singleton.mp hc]
      exact Nat.lt_succ_self _
  · refine List.Nodup.append hb.nodup (List.nodup_singleton _) ?_
    rwa [List.disjoint_singleton]
  · intro k hk
    obtain ⟨hclient, hid, hanswered⟩ := hb.issued k hk
    exact ⟨Nat.lt_succ_of_lt hclient, hid, hanswered⟩
  · intro t ht k hcall hk
    have hlt := (hb.issued k (mem_calls.mpr ⟨t, ht, hcall⟩)).1
    have hmem : k.client ∈ b.clients := by
      rcases List.mem_append.mp hk with hk | hk
      · exact hk
      · exact absurd (List.mem_singleton.mp hk) (ne_of_lt hlt)
    exact (hb.waiting t ht k hcall hmem).frame_of_client (hold _ hlt) rfl
  · intro c hc hlocked
    rcases List.mem_append.mp hc with hc | hc
    · rw [hold c (hb.known c hc)] at hlocked
      exact hb.locked c hc hlocked
    · rw [List.mem_singleton.mp hc, FlagBlock.connect, FlagBlock.modClient] at hlocked
      simp [fresh] at hlocked

theorem disconnect_sound {b : FlagBlock} (hb : Sound b) (c : ClientId) :
    Sound (b.disconnect c) := by
  have hmem : ∀ {d}, d ∈ (b.disconnect c).clients → d ∈ b.clients := List.mem_of_mem_erase
  refine ⟨fun d hd => hb.known d (hmem hd), hb.nodup.erase c, hb.issued, hb.distinct, ?_, ?_,
    hb.once, hb.past⟩
  · intro t ht k hcall hk
    exact (hb.waiting t ht k hcall (hmem hk)).frame_of_client rfl rfl
  · intro d hd hlocked
    exact hb.locked d (hmem hd) hlocked

theorem afterSync_calls (b : FlagBlock) (c : ClientId) (x : QuestClient) (l : LobbyHandle)
    (lobby : QuestLobby) (tickets : List Ticket) :
    (b.afterSync c x l lobby tickets).calls = b.calls ++ tickets.filterMap Ticket.call :=
  List.filterMap_append

/-- A packet that makes no call may ask the shipgate all the same. -/
theorem afterSync_sound {b : FlagBlock} (hb : Sound b) {c : ClientId} {x : QuestClient}
    (l : LobbyHandle) (lobby : QuestLobby) {tickets : List Ticket}
    (hlocked : x.locked = (b.client c).locked)
    (hstack : (b.client c).locked = true → x.qStack = (b.client c).qStack)
    (hnone : ∀ t ∈ tickets, t.call = none) : Sound (b.afterSync c x l lobby tickets) := by
  have hcalls : (b.afterSync c x l lobby tickets).calls = b.calls := by
    rw [afterSync_calls, List.filterMap_eq_nil_iff.mpr hnone, List.append_nil]
  have hself : (b.afterSync c x l lobby tickets).client c =
      { b.client c with toQuestClient := x } := b.client_afterSync c x l lobby tickets
  have hsame : ∀ d, d ≠ c → (b.afterSync c x l lobby tickets).client d = b.client d :=
    fun d hd => b.client_afterSync_ne hd x l lobby tickets
  have hlock : ∀ d, ((b.afterSync c x l lobby tickets).client d).locked =
      (b.client d).locked := by
    intro d
    by_cases hd : d = c
    · rw [hd, hself, hlocked]
    · rw [hsame d hd]
  refine ⟨hb.known, hb.nodup, ?_, ?_, ?_, ?_, hb.once, fun i hi => Nat.lt_succ_of_lt (hb.past i hi)⟩
  · rw [hcalls]
    intro k hk
    obtain ⟨hclient, hid, hnew⟩ := hb.issued k hk
    exact ⟨hclient, Nat.lt_succ_of_lt hid, hnew⟩
  · rw [hcalls]
    exact hb.distinct
  · intro t ht k hcall hk
    rcases List.mem_append.mp ht with ht | ht
    · have hwaiting := hb.waiting t ht k hcall hk
      by_cases hkc : k.client = c
      · have hlk := hwaiting.locked
        rw [hkc] at hlk
        refine hwaiting.frame (hlock _) ?_ ?_ rfl
        · rw [hkc, hself]
          exact hstack hlk
        · rw [hkc, hself]
      · exact hwaiting.frame_of_client (hsame _ hkc) rfl
    · rw [hnone t ht] at hcall
      cases hcall
  · rw [hcalls]
    intro d hd hdlocked
    rw [hlock] at hdlocked
    exact hb.locked d hd hdlocked

/-- A packet that makes a call. -/
theorem afterCall_sound {b : FlagBlock} (hb : Sound b) {c : ClientId} (hc : c ∈ b.clients)
    (hfree : (b.client c).locked = false) {l : LobbyHandle} (hcur : (b.client c).curLobby = some l)
    {x : QuestClient} (lobby : QuestLobby) (hlocked : x.locked = true) (guildcard : BitVec 32)
    {req : QFlagRequest} {reg : BitVec 8} (hreg : replyReg req.isSet x.qStack = reg) :
    Sound (b.afterSync c x l lobby [{ guildcard := guildcard, request := req
                                      call := some ⟨b.nextCall, c, reg, l, b.session l⟩ }]) := by
  set k₀ : Call := ⟨b.nextCall, c, reg, l, b.session l⟩ with hk₀
  set t₀ : Ticket := ⟨guildcard, req, some k₀⟩ with ht₀
  have hcalls : (b.afterSync c x l lobby [t₀]).calls = b.calls ++ [k₀] :=
    afterSync_calls b c x l lobby [t₀]
  have hself : (b.afterSync c x l lobby [t₀]).client c =
      { b.client c with toQuestClient := x } := b.client_afterSync c x l lobby [t₀]
  have hsame : ∀ d, d ≠ c → (b.afterSync c x l lobby [t₀]).client d = b.client d :=
    fun d hd => b.client_afterSync_ne hd x l lobby [t₀]
  refine ⟨hb.known, hb.nodup, ?_, ?_, ?_, ?_, hb.once, fun i hi => Nat.lt_succ_of_lt (hb.past i hi)⟩
  · rw [hcalls]
    intro k hk
    rcases List.mem_append.mp hk with hk | hk
    · obtain ⟨hclient, hid, hnew⟩ := hb.issued k hk
      exact ⟨hclient, Nat.lt_succ_of_lt hid, hnew⟩
    · rw [List.mem_singleton.mp hk]
      exact ⟨hb.known c hc, Nat.lt_succ_self _, fun h => lt_irrefl _ (hb.past _ h)⟩
  · rw [hcalls, List.pairwise_append]
    refine ⟨hb.distinct, List.pairwise_singleton _ _, ?_⟩
    intro k hk k' hk'
    rw [List.mem_singleton.mp hk']
    obtain ⟨t, ht, hcall⟩ := mem_calls.mp hk
    exact ⟨hb.no_call hc hfree t ht k hcall, ne_of_lt (hb.issued k hk).2.1⟩
  · intro t ht k hcall hk
    rcases List.mem_append.mp ht with ht | ht
    · exact (hb.waiting t ht k hcall hk).frame_of_client
        (hsame _ (hb.no_call hc hfree t ht k hcall)) rfl
    · rw [List.mem_singleton.mp ht, ht₀] at hcall ⊢
      cases hcall
      refine ⟨?_, ?_, ?_, rfl⟩
      · rw [hself]
        exact hlocked
      · rw [hself]
        exact hreg
      · rw [hself]
        exact hcur
  · rw [hcalls]
    intro d hd hdlocked
    by_cases hdc : d = c
    · exact ⟨k₀, List.mem_append_right _ (List.mem_singleton_self k₀), hdc.symm⟩
    · rw [hsame d hdc] at hdlocked
      obtain ⟨k, hk, hkd⟩ := hb.locked d hd hdlocked
      exact ⟨k, List.mem_append_left _ hk, hkd⟩

theorem syncReg_sound {b : FlagBlock} (hb : Sound b) {c : ClientId} (hc : c ∈ b.clients)
    {env : SyncEnv} {team : QuestTeam} {pkt : SyncReg} (hkept : NoDeletion b env team c pkt) :
    Sound (b.syncReg env team c pkt) := by
  unfold FlagBlock.syncReg
  cases hcur : (b.client c).curLobby with
  | none => exact hb
  | some l =>
  dsimp only
  have hcases := handleSyncReg_calls env (b.teamAt l team) (b.client c).toQuestClient pkt
  generalize handleSyncReg env (b.teamAt l team) (b.client c).toQuestClient pkt = r at *
  rcases hcases with hno | ⟨hfree, x, req, hpushed, hcalled⟩
  · refine afterSync_sound hb l r.lobby hno.locked hno.qStack ?_
    intro t ht
    obtain ⟨req, hreq, rfl⟩ := List.mem_map.mp ht
    rcases hno.requests with hnone | hnil
    · rw [hnone]
      rfl
    · rw [hnil] at hreq
      cases hreq
  · have hnamed : replyReg req.isSet r.client.qStack = namedReg x.qStack := by
      rw [hcalled.qStack]
      rcases hcalled.named with h | ⟨hdeletes, hfifth, hsent, hset⟩
      · exact h
      · rw [hset]
        exact hkept l x hcur hpushed hcalled.complete hdeletes hfifth hsent
    rw [hcalled.requests, hcalled.dispatched]
    exact afterCall_sound hb hc hfree hcur r.lobby hcalled.locked _ hnamed

theorem settle_calls {b : FlagBlock} {t : Ticket} (ht : t ∈ b.inFlight) :
    ∃ front back, b.calls = front ++ t.call.toList ++ back ∧
      (b.settle t).calls = front ++ back := by
  obtain ⟨front, back, -, hsplit, herase⟩ := List.exists_erase_eq ht
  refine ⟨front.filterMap Ticket.call, back.filterMap Ticket.call, ?_, ?_⟩
  · rw [FlagBlock.calls, hsplit, List.filterMap_append, List.filterMap_cons, List.append_assoc]
    cases t.call <;> rfl
  · rw [FlagBlock.calls, FlagBlock.settle, herase, List.filterMap_append]

/-- What is left on the list are other calls, of other clients. -/
theorem Sound.settled {b : FlagBlock} (hb : Sound b) {t : Ticket} (ht : t ∈ b.inFlight) :
    (b.settle t).calls.Pairwise (fun k k' => k.client ≠ k'.client ∧ k.id ≠ k'.id) ∧
      (∀ k ∈ (b.settle t).calls, k ∈ b.calls ∧
        ∀ k', t.call = some k' → k.client ≠ k'.client ∧ k.id ≠ k'.id) ∧
      ∀ k ∈ b.calls, t.call ≠ some k → k ∈ (b.settle t).calls := by
  obtain ⟨front, back, hcalls, hsettled⟩ := settle_calls ht
  have hdistinct := hb.distinct
  rw [hcalls] at hdistinct ⊢
  rw [hsettled]
  cases hcall : t.call with
  | none =>
    rw [hcall] at hdistinct
    simp only [Option.toList_none, List.append_nil] at hdistinct ⊢
    exact ⟨hdistinct, fun k hk => ⟨hk, fun k' h => by cases h⟩, fun k hk _ => hk⟩
  | some k₀ =>
    rw [hcall] at hdistinct
    simp only [Option.toList_some, List.append_assoc, List.cons_append, List.nil_append] at hdistinct ⊢
    obtain ⟨hfront, hrest, hacross⟩ := List.pairwise_append.mp hdistinct
    obtain ⟨hafter, hback⟩ := List.pairwise_cons.mp hrest
    refine ⟨?_, ?_, ?_⟩
    · refine List.pairwise_append.mpr ⟨hfront, hback, fun k hk k' hk' => ?_⟩
      exact hacross k hk k' (List.mem_cons_of_mem _ hk')
    · intro k hk
      refine ⟨?_, ?_⟩
      · rcases List.mem_append.mp hk with hk | hk
        · exact List.mem_append_left _ hk
        · exact List.mem_append_right _ (List.mem_cons_of_mem _ hk)
      · rintro k' h
        cases h
        rcases List.mem_append.mp hk with hk | hk
        · exact hacross k hk k₀ List.mem_cons_self
        · exact ⟨(hafter k hk).1.symm, (hafter k hk).2.symm⟩
    · intro k hk hne
      rcases List.mem_append.mp hk with hk | hk
      · exact List.mem_append_left _ hk
      · rcases List.mem_cons.mp hk with rfl | hk
        · exact absurd rfl hne
        · exact List.mem_append_right _ hk

/-- An answer to nobody. -/
theorem settle_sound {b : FlagBlock} (hb : Sound b) {t : Ticket} (ht : t ∈ b.inFlight)
    (hgone : ∀ k, t.call = some k → k.client ∉ b.clients) : Sound (b.settle t) := by
  obtain ⟨hdistinct, hleft, hkept⟩ := hb.settled ht
  refine ⟨hb.known, hb.nodup, fun k hk => hb.issued k (hleft k hk).1, hdistinct, ?_, ?_,
    hb.once, hb.past⟩
  · intro s hs k hcall hk
    exact (hb.waiting s (List.mem_of_mem_erase hs) k hcall hk).frame_of_client rfl rfl
  · intro c hc hlocked
    obtain ⟨k, hk, rfl⟩ := hb.locked c hc hlocked
    exact ⟨k, hkept k hk (fun hcall => hgone k hcall hc), rfl⟩

/-- The block after the answer to a call has been delivered. -/
def FlagBlock.deliver (b : FlagBlock) (t : Ticket) (k : Call) : FlagBlock :=
  { (b.settle t).modClient k.client (fun x => { x with top := 0, locked := false }) with
    answered := b.answered ++ [k.id] }

theorem client_deliver (b : FlagBlock) (t : Ticket) (k : Call) :
    (b.deliver t k).client k.client = { b.client k.client with top := 0, locked := false } :=
  Function.update_self k.client _ _

theorem deliver_sound {b : FlagBlock} (hb : Sound b) {t : Ticket} (ht : t ∈ b.inFlight) {k : Call}
    (hcall : t.call = some k) : Sound (b.deliver t k) := by
  obtain ⟨hdistinct, hleft, hkept⟩ := hb.settled ht
  have hk := hb.issued k (mem_calls.mpr ⟨t, ht, hcall⟩)
  have hsame : ∀ d, d ≠ k.client → (b.deliver t k).client d = b.client d :=
    fun d hd => Function.update_of_ne hd _ _
  have hself : ((b.deliver t k).client k.client).locked = false := by
    rw [client_deliver]
  refine ⟨hb.known, hb.nodup, ?_, hdistinct, ?_, ?_, ?_, ?_⟩
  · intro j hj
    obtain ⟨hmem, hother⟩ := hleft j hj
    obtain ⟨hclient, hid, hnew⟩ := hb.issued j hmem
    refine ⟨hclient, hid, fun hanswered => ?_⟩
    rcases List.mem_append.mp hanswered with h | h
    · exact hnew h
    · exact (hother k hcall).2 (List.mem_singleton.mp h)
  · intro s hs j hjcall hj
    have hother := ((hleft j (mem_calls.mpr ⟨s, hs, hjcall⟩)).2 k hcall).1
    exact (hb.waiting s (List.mem_of_mem_erase hs) j hjcall hj).frame_of_client
      (hsame _ hother) rfl
  · intro c hc hlocked
    by_cases hck : c = k.client
    · rw [hck, hself] at hlocked
      cases hlocked
    · rw [hsame c hck] at hlocked
      obtain ⟨j, hj, rfl⟩ := hb.locked c hc hlocked
      refine ⟨j, hkept j hj (fun h => hck ?_), rfl⟩
      rw [hcall, Option.some_inj] at h
      rw [h]
  · refine List.Nodup.append hb.once (List.nodup_singleton _) ?_
    rw [List.disjoint_singleton]
    exact hk.2.2
  · intro i hi
    rcases List.mem_append.mp hi with hi | hi
    · exact hb.past i hi
    · rw [List.mem_singleton.mp hi]
      exact hk.2.1

theorem handleQflag_nobody {b : FlagBlock} {t : Ticket} (a : Answer)
    (h : ∀ c, b.addressee t.guildcard = some c → (b.client c).curLobby = none) :
    b.handleQflag t a = (b, []) := by
  unfold FlagBlock.handleQflag
  cases hc : b.addressee t.guildcard with
  | none => rfl
  | some c =>
    dsimp only
    rw [h c hc]

theorem handleQflag_free {b : FlagBlock} {t : Ticket} (a : Answer) {c : ClientId}
    (hc : b.addressee t.guildcard = some c) (hfree : (b.client c).locked = false) :
    (b.handleQflag t a).1 = b ∧ (a.Dropped t.request → (b.handleQflag t a).2 = []) := by
  unfold FlagBlock.handleQflag
  rw [hc]
  dsimp only
  cases (b.client c).curLobby with
  | none => exact ⟨rfl, fun _ => rfl⟩
  | some l =>
    dsimp only
    rw [if_pos hfree]
    split_ifs with hdropped
    · exact ⟨rfl, fun _ => rfl⟩
    · exact ⟨rfl, fun h => absurd h hdropped⟩

theorem handleQflag_locked {b : FlagBlock} {t : Ticket} (a : Answer) {c : ClientId}
    {l : LobbyHandle} (hc : b.addressee t.guildcard = some c)
    (hcur : (b.client c).curLobby = some l) (hlocked : (b.client c).locked = true) :
    b.handleQflag t a = b.questFlagReply c l t.request.isSet a.isError a.forCall := by
  unfold FlagBlock.handleQflag
  rw [hc]
  dsimp only
  rw [hcur]
  dsimp only
  rw [hlocked]
  exact if_neg (by decide)

/-- An answer without a call changes nothing but the list. -/
theorem answer_of_none {b : FlagBlock} {t : Ticket} (a : Answer) (hcall : t.call = none)
    (hreaches : Reaches b t a) : (b.answer t a).1 = b.settle t := by
  rw [Reaches, hcall] at hreaches
  have hquiet : ((b.settle t).handleQflag t a).1 = b.settle t := by
    by_cases hnobody : ∀ c, b.addressee t.guildcard = some c → (b.client c).curLobby = none
    · rw [handleQflag_nobody (b := b.settle t) a hnobody]
    · simp only [not_forall] at hnobody
      obtain ⟨c, hc, hin⟩ := hnobody
      exact (handleQflag_free (b := b.settle t) a hc (hreaches c hc hin)).1
  unfold FlagBlock.answer
  rw [hcall]
  exact hquiet

/-- An answer to a call of a client that has left. -/
theorem answer_of_gone {b : FlagBlock} {t : Ticket} (a : Answer) {k : Call}
    (hcall : t.call = some k) (hgone : k.client ∉ b.clients) (hreaches : Reaches b t a) :
    b.answer t a = (b.settle t, []) := by
  rw [Reaches, hcall] at hreaches
  dsimp only at hreaches
  rw [if_neg hgone] at hreaches
  have hquiet : (b.settle t).handleQflag t a = (b.settle t, []) := by
    by_cases hnobody : ∀ c, b.addressee t.guildcard = some c → (b.client c).curLobby = none
    · exact handleQflag_nobody (b := b.settle t) a hnobody
    · simp only [not_forall] at hnobody
      obtain ⟨c, hc, hin⟩ := hnobody
      obtain ⟨hfree, hdropped⟩ := (hreaches c hc).resolve_left hin
      obtain ⟨hsame, hnone⟩ := handleQflag_free (b := b.settle t) a hc hfree
      exact Prod.ext hsame (hnone hdropped)
  unfold FlagBlock.answer
  rw [hquiet, hcall]
  exact if_pos rfl

/-- An answer to a call of a client that waits for it. -/
theorem answer_of_waiting {b : FlagBlock} {t : Ticket} (a : Answer) {k : Call}
    (hcall : t.call = some k) (hhere : k.client ∈ b.clients) (hreaches : Reaches b t a)
    (hwaiting : Waiting b t k) :
    (b.answer t a).1 = b.deliver t k ∧ ∃ value status, (b.answer t a).2 =
      [(k.client, k.reg, value), (k.client, (b.lobby k.lobby).dataReg, status)] := by
  rw [Reaches, hcall] at hreaches
  dsimp only at hreaches
  rw [if_pos hhere] at hreaches
  have hreply := handleQflag_locked (b := b.settle t) a hreaches hwaiting.home.1 hwaiting.locked
  unfold FlagBlock.answer
  rw [hreply, hcall, ← hwaiting.reg]
  exact ⟨rfl, _, _, rfl⟩

theorem next_sound {b : FlagBlock} (hb : Sound b) {e : FlagEvent} (hkept : Kept b e) :
    Sound (next b e) := by
  cases e with
  | syncReg env team c pkt =>
    unfold next
    by_cases hc : c ∈ b.clients
    · simp only [if_pos hc]
      exact syncReg_sound hb hc hkept
    · simp only [if_neg hc]
      exact hb
  | setupQuest l qid regs => exact setupQuest_sound hb hkept qid regs
  | changeLobby c l slot =>
    unfold next
    by_cases hc : c ∈ b.clients
    · simp only [if_pos hc]
      refine hb.modClient hc (hkept hc) ?_
      split_ifs <;> exact hkept hc
    · simp only [if_neg hc]
      exact hb
  | removePlayer c =>
    unfold next
    by_cases hc : c ∈ b.clients
    · simp only [if_pos hc]
      exact hb.modClient hc (hkept hc) (hkept hc)
    · simp only [if_neg hc]
      exact hb
  | connect guildcard qStack => exact connect_sound hb guildcard qStack
  | disconnect c => exact disconnect_sound hb c
  | answer t a =>
    unfold next
    by_cases ht : t ∈ b.inFlight
    · simp only [if_pos ht]
      cases hcall : t.call with
      | none =>
        rw [answer_of_none a hcall hkept]
        refine settle_sound hb ht fun k h => ?_
        rw [hcall] at h
        cases h
      | some k =>
        by_cases hhere : k.client ∈ b.clients
        · rw [(answer_of_waiting a hcall hhere hkept (hb.waiting t ht k hcall hhere)).1]
          exact deliver_sound hb ht hcall
        · rw [answer_of_gone a hcall hhere hkept]
          refine settle_sound hb ht fun j h => ?_
          rw [hcall, Option.some_inj] at h
          rw [← h]
          exact hhere
    · simp only [if_neg ht]
      exact hb

theorem next_correct {b : FlagBlock} (hb : Sound b) {e : FlagEvent} (hkept : Kept b e) :
    Correct b e := by
  have hnext := next_sound hb hkept
  refine ⟨?_, ?_, fun c hc hlocked => hnext.pending hc hlocked, hnext.once⟩
  · rintro t a k rfl ht hcall hhere
    have hwaiting := hb.waiting t ht k hcall hhere
    obtain ⟨hblock, hwrites⟩ := answer_of_waiting a hcall hhere hkept hwaiting
    have hstep : next b (.answer t a) = b.deliver t k := (if_pos ht).trans hblock
    have hsent : writes b t a = (b.answer t a).2 := if_pos ht
    rw [hstep, hsent, client_deliver]
    exact ⟨⟨hwaiting.home, hwrites⟩, rfl, rfl⟩
  · rintro t a k rfl ht hcall hgone
    have hsent : writes b t a = (b.answer t a).2 := if_pos ht
    rw [hsent, answer_of_gone a hcall hgone hkept]

/-- A block on which nobody is yet. -/
def FlagBlock.start (isGame : LobbyHandle → Bool) (lobby : LobbyHandle → QuestLobby) :
    FlagBlock where
  clients := []
  client _ := { toQuestClient := fresh fun _ => 0, guildcard := 0, curLobby := none }
  isGame := isGame
  lobby := lobby
  session _ := 0
  nextClient := 0
  inFlight := []
  nextCall := 0
  answered := []

theorem start_sound (isGame : LobbyHandle → Bool) (lobby : LobbyHandle → QuestLobby) :
    Sound (FlagBlock.start isGame lobby) where
  known _ h := nomatch h
  nodup := List.nodup_nil
  issued _ h := nomatch h
  distinct := List.Pairwise.nil
  waiting _ h := nomatch h
  locked _ h := nomatch h
  once := List.nodup_nil
  past _ h := nomatch h

/-- In a run in which clients stay in the game and the quest while a call of theirs waits, in which
no deletion names a register that will not be looked for, and in which every answer finds the
client that it is for, every step is correct. -/
theorem questReplies_correct {isGame : LobbyHandle → Bool} {lobby : LobbyHandle → QuestLobby}
    {es : List FlagEvent} {b : FlagBlock}
    (hrun : Run (StepOf next) Kept (FlagBlock.start isGame lobby) es b) :
    Run (StepOf next) Correct (FlagBlock.start isGame lobby) es b := by
  refine hrun.mono (start_sound isGame lobby) ?_ fun b e hb hkept => next_correct hb hkept
  rintro b e _ hb hkept rfl
  exact next_sound hb hkept

theorem noDeletion_of_slot {b : FlagBlock} {env : SyncEnv} {team : QuestTeam} {c : ClientId}
    {pkt : SyncReg} (h : ((b.client c).toQuestClient.push pkt.value).qStack 0 = 12) :
    NoDeletion b env team c pkt := by
  intro l x _ hpushed _ hdeletes
  have hx : (b.client c).toQuestClient.push pkt.value = x := by
    simp only [pushed] at hpushed
    split_ifs at hpushed
    exact Option.some_inj.mp hpushed
  rw [hx] at h
  rcases hdeletes.1 with h' | h'
  · rw [h] at h'
    exact absurd h' (by decide)
  · rw [h] at h'
    exact absurd h' (by decide)

theorem reaches_of_call {b : FlagBlock} {t : Ticket} {a : Answer} {k : Call}
    (hcall : t.call = some k) (hhere : k.client ∈ b.clients)
    (hfound : b.addressee t.guildcard = some k.client) : Reaches b t a := by
  rw [Reaches, hcall]
  dsimp only
  rw [if_pos hhere]
  exact hfound

/-- Lobby 0 is a default lobby, and all others are games. -/
def flagStart : FlagBlock :=
  FlagBlock.start (fun l => decide (l ≠ 0)) (fun _ => callingTeam)

def pushes (values : List (BitVec 32)) : List FlagEvent :=
  values.map fun value => .syncReg plainEnv callingTeam.toQuestTeam 0 ⟨0, value⟩

/-- A client comes into game 1, a quest is loaded, and it asks for flag 7, for register 10. -/
def flagCall : List FlagEvent :=
  [.connect 42 fun _ => 0, .changeLobby 0 0 0, .changeLobby 0 1 0,
    .setupQuest 1 5 callingTeam.toQuestRegs] ++ pushes [12, 1, 1, 7, 10]

/-- What the shipgate gets. -/
def flagTicket : Ticket where
  guildcard := 42
  request := { isSet := false, flag := 7, qid := 5, value := 0, ctl := 0 }
  call := some ⟨4, 0, 10, 1, 1⟩

theorem questReplies_correct_call :
    Run (StepOf next) Correct flagStart (flagCall ++ [FlagEvent.answer flagTicket (.value 1)])
      ((flagCall ++ [FlagEvent.answer flagTicket (.value 1)]).foldl next flagStart) := by
  have hrun : Run (StepOf next) Kept flagStart
      (flagCall ++ [FlagEvent.answer flagTicket (.value 1)])
      ((flagCall ++ [FlagEvent.answer flagTicket (.value 1)]).foldl next flagStart) := by
    refine .move trivial rfl (.move (fun _ => rfl) rfl (.move (fun _ => rfl) rfl ?_))
    have hfree : Kept ((flagCall.take 3).foldl next flagStart)
        (.setupQuest 1 5 callingTeam.toQuestRegs) := by
      intro c hc _
      rw [List.mem_singleton.mp hc]
      rfl
    refine .move hfree rfl (.move (noDeletion_of_slot rfl) rfl ?_)
    refine .move (noDeletion_of_slot rfl) rfl (.move (noDeletion_of_slot rfl) rfl ?_)
    refine .move (noDeletion_of_slot rfl) rfl (.move (noDeletion_of_slot rfl) rfl ?_)
    have hreaches : Reaches (flagCall.foldl next flagStart) flagTicket (.value 1) :=
      reaches_of_call (k := ⟨4, 0, 10, 1, 1⟩) rfl (by decide) (by decide)
    exact .move hreaches rfl (.stop _)
  exact questReplies_correct hrun

/-- The client moves to another game while the call waits, and stays locked there. -/
theorem questReplies_not_correct :
    ¬ ∀ (isGame : LobbyHandle → Bool) (lobby : LobbyHandle → QuestLobby) (es : List FlagEvent)
        (b : FlagBlock), Run (StepOf next) Always (FlagBlock.start isGame lobby) es b →
      Run (StepOf next) Correct (FlagBlock.start isGame lobby) es b := by
  intro hall
  have hrun := hall _ _ (flagCall ++ [.changeLobby 0 2 0]) _ (run_foldl next flagStart _)
  have hcorrect := hrun.good_at flagCall
  obtain ⟨k, hk, -, hhome, -⟩ := hcorrect.pending 0 (by decide) (by decide)
  have hlobby : ∀ k ∈ (next (flagCall.foldl next flagStart) (.changeLobby 0 2 0)).calls,
      k.lobby = 1 := by
    decide
  have hcaller : ∀ k ∈ (next (flagCall.foldl next flagStart) (.changeLobby 0 2 0)).calls,
      k.client = 0 := by
    decide
  rw [hlobby k hk, hcaller k hk] at hhome
  exact absurd hhome (by decide)

end ShipServer.QuestReplies
