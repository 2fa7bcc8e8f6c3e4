import ShipServer.LobbyFunctions

set_option autoImplicit false

namespace ShipServer.DeferredPackets

open Versions LobbyRooms LobbyState LobbyFunctions

def gameCommand0Type : ℕ := 0x60

def gameCommand2Type : ℕ := 0x62

def gameCommandDType : ℕ := 0x6D

def subcmdDcnteFinishLoad : ℕ := 0x1F

/-- The subcommands of 0x60 packets that are handled during a burst: `SUBCMD_LOAD_3B`,
`SUBCMD_BURST_DONE`, `SUBCMD_SET_AREA`, `SUBCMD_SET_POS_3F` and `SUBCMD_CMODE_GRAVE`. -/
def bcastDuringBurst : List ℕ :=
  [0x3B, 0x72, 0x1F, 0x3F, 0x7C]

/-- `SUBCMD_BURST1` to `SUBCMD_BURST4`. -/
def burst1To4 : List ℕ :=
  [0x6D, 0x6B, 0x6C, 0x6E]

/-- `SUBCMD_BURST5`, `SUBCMD_BURST6` and `SUBCMD_BURST_PLDATA`. -/
def burst5To7 : List ℕ :=
  [0x6F, 0x71, 0x70]

/-- `|` of two return codes, as far as the tests against zero can tell. -/
def orCode (rv rv' : Int) : Int :=
  if rv = 0 then rv' else rv

def IsDcnte (x : ShipClient) : Prop :=
  x.account.version = .dcv1 ∧ x.account.isNte = true

instance (x : ShipClient) : Decidable (IsDcnte x) :=
  inferInstanceAs (Decidable (_ ∧ _))

/-- The checks of `lobby_enqueue_pkt_ex`. -/
def enqueueRefusal (env : Env) (l : Lobby) (p : GamePkt) : Option Int :=
  if l.bursting = false then some (-1)
  else if p.pktType ≠ gameCommand0Type ∧ p.pktType ≠ gameCommand2Type ∧
      p.pktType ≠ gameCommandDType then some (-2)
  else if env.allocated = false then some (-3)
  else none

def noteAccepted (b : Block) (h : LobbyHandle) (x : ClientId × GamePkt) : Block :=
  { b with accepted := Function.update b.accepted h (b.accepted h ++ [x]) }

/-- A packet is put at the end of a lobby's queue, and on record. -/
def queuePkt (b : Block) (h : LobbyHandle) (x : ClientId × GamePkt) : Block :=
  noteAccepted (b.modLobby h (fun l => { l with pktQueue := l.pktQueue ++ [x] })) h x

def lobbyEnqueuePkt (b : Block) (env : Env) (h : LobbyHandle) (c : ClientId) (p : GamePkt) :
    Block × Int :=
  match enqueueRefusal env (b.lobby h) p with
  | some rv => (b, rv)
  | none => (queuePkt b h (c, p), 0)

def lobbyEnqueueBurst (b : Block) (env : Env) (h : LobbyHandle) (c : ClientId) (p : GamePkt) :
    Block × Int :=
  match enqueueRefusal env (b.lobby h) p with
  | some rv => (b, rv)
  | none => (b.modLobby h (fun l => { l with burstQueue := l.burstQueue ++ [(c, p)] }), 0)

/-- Whether the slot a packet is for holds a client. The source does not check the index. -/
def destPresent (env : Env) (m : Room) (dest : ℕ) : Bool :=
  if h : dest < 12 then (m.clients ⟨dest, h⟩).isSome else env.beyond

def subcmdDcnteHandleOne (b : Block) (env : Env) (k : ℕ) (c : ClientId) (p : GamePkt) :
    Block × Int :=
  match (b.client c).curLobby with
  | none => (b, 0)
  | some h => (b, if destPresent env (b.lobby h).toRoom p.dest then env.result k else 0)

def subcmdDcnteHandleBcast (b : Block) (env : Env) (k : ℕ) (c : ClientId) (p : GamePkt) :
    Block × Int :=
  match (b.client c).curLobby with
  | none => (b, 0)
  | some h =>
    if p.subcmd = subcmdDcnteFinishLoad ∧ (b.lobby h).type ≠ .lobby then
      ((b.modLobby h (fun l => { l with bursting := false })).modClient c
        (fun x => { x with bursting := false }), env.result k)
    else
      (b, env.result k)

/-- A 0x62 or 0x6D packet. -/
def subcmdHandleOne (b : Block) (env : Env) (k : ℕ) (c : ClientId) (p : GamePkt) : Block × Int :=
  if IsDcnte (b.client c) then
    subcmdDcnteHandleOne b env k c p
  else
    match (b.client c).curLobby with
    | none => (b, 0)
    | some h =>
      if destPresent env (b.lobby h).toRoom p.dest = false then
        (b, 0)
      else if (b.lobby h).bursting then
        if p.subcmd ∈ burst1To4 then
          if (b.lobby h).settings.questing then
            let (b, rv) := lobbyEnqueueBurst b env h c p
            (b, orCode rv (env.result k))
          else (b, env.result k)
        else if p.subcmd ∈ burst5To7 then (b, env.result k)
        else lobbyEnqueuePkt b env h c p
      else
        (b, env.result k)

/-- A 0x60 packet. -/
def subcmdHandleBcast (b : Block) (env : Env) (k : ℕ) (c : ClientId) (p : GamePkt) :
    Block × Int :=
  if IsDcnte (b.client c) then
    subcmdDcnteHandleBcast b env k c p
  else
    match (b.client c).curLobby with
    | none => (b, 0)
    | some h =>
      if (b.lobby h).bursting = true ∧ p.subcmd ∉ bcastDuringBurst then
        lobbyEnqueuePkt b env h c p
      else
        (b, env.result k)

def noteHanded (b : Block) (h : LobbyHandle) (x : Handing) : Block :=
  { b with handed := Function.update b.handed h (b.handed h ++ [x]) }

/-- A queued packet is handled on behalf of its source, wherever that is now. -/
def redeliver (b : Block) (env : Env) (k : ℕ) (h : LobbyHandle) (src : ClientId) (p : GamePkt) :
    Block × Int :=
  let handing : Handing := { src := src, pkt := p, lobby := (b.client src).curLobby }
  if p.pktType = gameCommand0Type then
    subcmdHandleBcast (noteHanded b h handing) env k src p
  else if p.pktType = gameCommand2Type ∨ p.pktType = gameCommandDType then
    subcmdHandleOne (noteHanded b h handing) env k src p
  else
    (b, -1)

/-- One turn of the loop of `lobby_handle_done_burst`: the state, `rv` and the number of calls
made so far. After an error the rest of the queue is freed unhandled. -/
def drainOnce (env : Env) (h : LobbyHandle) (s : Block × Int × ℕ) : Block × Int × ℕ :=
  match (s.1.lobby h).pktQueue with
  | [] => s
  | (src, p) :: rest =>
    let b := s.1.modLobby h (fun l => { l with pktQueue := rest })
    if s.2.1 = 0 then
      let (b, r) := redeliver b env s.2.2 h src p
      (b, if r = 0 then 0 else -1, s.2.2 + 1)
    else
      (b, s.2.1, s.2.2)

/-- The loop runs until the queue is empty, which takes a turn for each packet in it. -/
def lobbyHandleDoneBurst (b : Block) (env : Env) (h : LobbyHandle) : Block × Int :=
  let s := (drainOnce env h)^[(b.lobby h).pktQueue.length] (b, 0, 0)
  (s.1, s.2.1)

/-- The resends of `lobby_resend_burst` leave nothing in the burst queue. -/
def lobbyResendBurst (b : Block) (h : LobbyHandle) : Block :=
  b.modLobby h (fun l => { l with burstQueue := [] })

/-- A client that is bursting unlocks its lobby before it is removed. -/
def endOwnBurst (b : Block) (env : Env) (c : ClientId) (h : LobbyHandle) : Block :=
  if (b.client c).bursting then
    (lobbyHandleDoneBurst (b.modLobby h (fun l => { l with bursting := false })) env h).1
  else b

def lobbyRemovePlayer (b : Block) (env : Env) (c : ClientId) : Block × Int :=
  match (b.client c).curLobby with
  | none => (b, 0)
  | some h =>
    let b := endOwnBurst b env c h
    let (b, deleteLobby) := lobbyRemoveClientLocked b env.now c (b.client c).clientId h
    if deleteLobby < 0 then
      (b, -1)
    else
      let b := if deleteLobby = 0 then b else lobbyDestroyLocked b h
      (b.modClient c (fun x => { x with curLobby := none }), 0)

end ShipServer.DeferredPackets
