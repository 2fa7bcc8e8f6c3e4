import ShipServer.LabelledRuns
import ShipServer.QuestFunctions

set_option autoImplicit false

namespace ShipServer.QuestStack

open LabelledRuns TracedReads Probe QuestFunctions

/-- The registers of a lobby's quest that the server looks at, with the flags that say so.
`syncregs` has the remembered values beside the registers. -/
@[ext]
structure QuestRegs where
  flagShort : Bool
  flagData : Bool
  flagJoin : Bool
  flagSync : Bool
  shortflagReg : BitVec 8
  dataReg : BitVec 8
  ctlReg : BitVec 8
  syncregs : List (BitVec 8 × BitVec 32)
  deriving DecidableEq

structure QuestLobby extends QuestTeam, QuestRegs where
  qposRegs : Fin 4 → ℕ → BitVec 8
  qcountReg : ℕ → BitVec 8

/-- The call stack of a client. -/
structure QuestClient where
  qStack : ℤ → BitVec 32
  top : ℤ
  locked : Bool
  clientId : ℕ

structure SyncReg where
  regNum : BitVec 8
  value : BitVec 32

/-- `scriptDone` is the result of the register sync script. -/
structure SyncEnv extends QuestEnv where
  scriptDone : Bool

/-- What a register sync leads to. `dispatched` is the stack with which a quest function is
called, and `forwarded` says that the packet goes on to the team. -/
structure SyncResult where
  client : QuestClient
  lobby : QuestLobby
  sent : List (BitVec 8 × BitVec 32)
  requests : List QFlagRequest
  dispatched : Option QuestClient
  forwarded : Bool

namespace SyncResult

def start (l : QuestLobby) (c : QuestClient) : SyncResult where
  client := c
  lobby := l
  sent := []
  requests := []
  dispatched := none
  forwarded := false

/-- `send_sync_register` to the client. -/
def send (r : SyncResult) (reg : BitVec 8) (value : BitVec 32) : SyncResult :=
  { r with sent := r.sent ++ [(reg, value)] }

/-- `shipgate_send_qflag`, whose result is ignored. -/
def ask (r : SyncResult) (env : QuestEnv) (req : QFlagRequest) : SyncResult :=
  if env.qflagSent then { r with requests := r.requests ++ [req] } else r

def apply (r : SyncResult) : Effect → SyncResult
  | .sync reg value => r.send reg value
  | .call req =>
    { r with requests := r.requests ++ [req], client := { r.client with locked := true } }
  | .posUpdates who reg =>
    { r with lobby := { r.lobby with
        qposRegs := Function.update r.lobby.qposRegs who
          (Function.update (r.lobby.qposRegs who) r.client.clientId reg) } }
  | .countUpdates reg =>
    { r with lobby := { r.lobby with
        qcountReg := Function.update r.lobby.qcountReg r.client.clientId reg } }

/-- A write to the register of the short flags. -/
def shortflagSync (r : SyncResult) (env : QuestEnv) (pkt : SyncReg) : SyncResult :=
  let ctl := pkt.value >>> 29 &&& 0x07
  let flag := pkt.value >>> 16 &&& 0xFF
  if ctl &&& 0x06 ≠ 0 then r.send pkt.regNum 0x8000FFFE
  else if pkt.value &&& 0x17000000 ≠ 0 then r.send pkt.regNum 0x8000FFFE
  else if pkt.value &&& 0x08000000 ≠ 0 then
    r.ask env { isSet := true, flag := flag, qid := r.lobby.qid, value := 0
                ctl := qflagDeleteFlag }
  else
    r.ask env { isSet := ctl &&& 0x01 ≠ 0, flag := flag, qid := r.lobby.qid
                value := pkt.value &&& 0xFFFF, ctl := 0 }

end SyncResult

def QuestClient.push (c : QuestClient) (value : BitVec 32) : QuestClient :=
  { c with qStack := Function.update c.qStack c.top value, top := c.top + 1 }

/-- The test for a complete call, in 32 bits. -/
def QuestClient.Complete (c : QuestClient) : Prop :=
  3 ≤ c.top ∧ BitVec.ofInt 32 c.top = 3 + c.qStack 1 + c.qStack 2

instance (c : QuestClient) : Decidable c.Complete :=
  inferInstanceAs (Decidable (_ ∧ _))

/-- The requested function is called. Without an answer yet the stack stays. -/
def SyncResult.callFunction (r : SyncResult) (env : QuestEnv) (pkt : SyncReg) : SyncResult :=
  let out := (questFunctionDispatch env r.lobby.toQuestTeam).result r.client.qStack
  let r := out.effects.foldl SyncResult.apply { r with dispatched := some r.client }
  if out.ret ≠ retNotYet then
    let r := r.send pkt.regNum out.ret
    { r with client := { r.client with top := 0 } }
  else r

/-- Check if everything is there that was expected. -/
def SyncResult.completeCall (r : SyncResult) (env : QuestEnv) (pkt : SyncReg) : SyncResult :=
  if r.client.Complete then r.callFunction env pkt else r

/-- A write to the data register. -/
def SyncResult.dataSync (r : SyncResult) (env : QuestEnv) (pkt : SyncReg) : SyncResult :=
  if r.client.top < 32 then
    if r.client.locked = false then
      { r with client := r.client.push pkt.value }.completeCall env pkt
    else r.send pkt.regNum retStackLocked
  else if r.client.top = 32 then r.send pkt.regNum retStackOverflow
  else r

/-- The value of a synced register is remembered. -/
def recordSync (pkt : SyncReg) : List (BitVec 8 × BitVec 32) → List (BitVec 8 × BitVec 32)
  | [] => []
  | (reg, value) :: rest =>
    if reg = pkt.regNum then (reg, pkt.value) :: rest else (reg, value) :: recordSync pkt rest

def QuestRegs.record (q : QuestRegs) (pkt : SyncReg) : QuestRegs :=
  if q.flagSync then { q with syncregs := recordSync pkt q.syncregs } else q

/-- The part of `handle_sync_reg` that may take care of the packet, and whether it has. -/
def handleSpecial (env : SyncEnv) (l : QuestLobby) (c : QuestClient) (pkt : SyncReg) :
    SyncResult × Bool :=
  let r := SyncResult.start l c
  if env.scriptDone then (r, true)
  else if l.flagShort ∧ pkt.regNum = l.shortflagReg then (r.shortflagSync env.toQuestEnv pkt, true)
  else if l.flagData then
    if pkt.regNum = l.dataReg then (r.dataSync env.toQuestEnv pkt, true)
    else if pkt.regNum = l.ctlReg then ({ r with client := { c with top := 0 } }, true)
    else (r, false)
  else (r, false)

def handleSyncReg (env : SyncEnv) (l : QuestLobby) (c : QuestClient) (pkt : SyncReg) :
    SyncResult :=
  let (r, handled) := handleSpecial env l c pkt
  { r with
    lobby := { r.lobby with toQuestRegs := r.lobby.toQuestRegs.record pkt }
    forwarded := !handled }

section Reads

variable {m : ℤ → BitVec 32} {n : ℤ}

/-- The slots of a stack of `n` values. -/
def Below (n i : ℤ) : Prop :=
  0 ≤ i ∧ i < n

/-- The stack has as many values as its two counts declare, in unbounded arithmetic. -/
def Declares (m : ℤ → BitVec 32) (n : ℤ) : Prop :=
  n = 3 + (m 1).toNat + (m 2).toNat

/-- A deletion with one argument and one return value gets to the test of the register. -/
def DeletesFlag (m : ℤ → BitVec 32) : Prop :=
  (m 0 = 16 ∨ m 0 = 17) ∧ m 1 = 1 ∧ m 2 = 1 ∧ ¬255 < m 3

theorem within_guard {S : ℤ → Prop} {P : Prop} [Decidable P] {code : BitVec 32}
    {p : QuestFunction} (hp : ¬P → Within m S p) :
    Within m S (if P then refuse code else p) :=
  Within.ite (fun _ => within_pure _) hp

theorem badRegister_within {S : ℤ → Prop} {is : List ℤ} (h : ∀ i ∈ is, S i) :
    Within m S (badRegister is) := by
  induction is with
  | nil => exact within_pure false
  | cons i is ih =>
    refine Within.step (h i List.mem_cons_self) (Within.ite (fun _ => within_pure true) fun _ => ?_)
    exact ih fun j hj => h j (List.mem_cons_of_mem i hj)

theorem readSlots_within {S : ℤ → Prop} {is : List ℤ} (h : ∀ i ∈ is, S i) :
    Within m S (readSlots is) := by
  induction is with
  | nil => exact within_pure []
  | cons i is ih =>
    refine Within.step (h i List.mem_cons_self) (Within.bind ?_ (within_pure _))
    exact ih fun j hj => h j (List.mem_cons_of_mem i hj)

theorem readString_within {S : ℤ → Prop} {is : List ℤ} (sr : Bool) (h : ∀ i ∈ is, S i) :
    Within m S (readString sr is) := by
  induction is with
  | nil => exact within_pure (some [])
  | cons i is ih =>
    refine Within.step (h i List.mem_cons_self) (Within.ite (fun _ => within_pure none) fun _ => ?_)
    refine Within.ite (fun _ => within_pure (some [])) fun _ => Within.bind ?_ (within_pure _)
    exact ih fun j hj => h j (List.mem_cons_of_mem i hj)

theorem request_within {S : ℤ → Prop} (env : QuestEnv) (req : QFlagRequest) :
    Within m S (request env req) :=
  Within.ite (fun _ => within_pure _) fun _ => within_pure _

variable (hn : Declares m n)
include hn

theorem noArguments_within (limit : BitVec 32) (answer : BitVec 32 → List Effect) :
    Within m (Below n) (noArguments limit answer) := by
  unfold Declares at hn
  unfold noArguments
  refine Within.step ⟨by omega, by omega⟩ (within_guard fun _ => ?_)
  refine Within.step ⟨by omega, by omega⟩ (within_guard fun h₂ => ?_)
  have hrets : (m 2).toNat = 1 := by
    rw [not_not.mp h₂]
    rfl
  exact Within.step ⟨by omega, by omega⟩ (within_guard fun _ => within_pure _)

theorem forPlayers_within (l : QuestTeam) (register : Fin 4 → BitVec 32 → List Effect)
    (answer : Option QuestMember → BitVec 32 → List Effect) :
    Within m (Below n) (forPlayers l register answer) := by
  unfold Declares at hn
  unfold forPlayers
  refine Within.step ⟨by omega, by omega⟩ (within_guard fun h₁ => ?_)
  have hargs : (m 1).toNat = 1 := by
    rw [not_not.mp h₁]
    rfl
  refine Within.step ⟨by omega, by omega⟩ (Within.ite (fun _ => ?_) fun _ => ?_)
  · refine Within.step ⟨by omega, by omega⟩ (within_guard fun h₂ => ?_)
    have hrets : (m 2).toNat = 4 := by
      rw [not_not.mp h₂]
      rfl
    have hbelow : ∀ i : ℤ, 4 ≤ i → i ≤ 7 → Below n i := fun i h h' => ⟨by omega, by omega⟩
    refine Within.bind (badRegister_within (by simp [hbelow])) (within_guard fun _ => ?_)
    refine Within.step (hbelow 4 (by omega) (by omega)) ?_
    refine Within.step (hbelow 5 (by omega) (by omega)) ?_
    refine Within.step (hbelow 6 (by omega) (by omega)) ?_
    exact Within.step (hbelow 7 (by omega) (by omega)) (within_pure _)
  · refine Within.dite (fun _ => ?_) fun _ => within_pure _
    refine Within.step ⟨by omega, by omega⟩ (within_guard fun h₂ => ?_)
    have hrets : (m 2).toNat = 1 := by
      rw [not_not.mp h₂]
      rfl
    exact Within.step ⟨by omega, by omega⟩ (within_guard fun _ => within_pure _)

theorem getRandomInteger_within (env : QuestEnv) : Within m (Below n) (getRandomInteger env) := by
  unfold Declares at hn
  unfold getRandomInteger
  refine Within.step ⟨by omega, by omega⟩ (within_guard fun h₁ => ?_)
  refine Within.step ⟨by omega, by omega⟩ (within_guard fun h₂ => ?_)
  have hargs : (m 1).toNat = 2 := by
    rw [not_not.mp h₁]
    rfl
  have hrets : (m 2).toNat = 1 := by
    rw [not_not.mp h₂]
    rfl
  refine Within.step ⟨by omega, by omega⟩ (within_guard fun _ => ?_)
  refine Within.step ⟨by omega, by omega⟩ (Within.step ⟨by omega, by omega⟩ ?_)
  exact within_guard fun _ => within_pure _

theorem getQuestFlag_within (env : QuestEnv) (l : QuestTeam) (ctl : BitVec 32) :
    Within m (Below n) (getQuestFlag env l ctl) := by
  unfold Declares at hn
  unfold getQuestFlag
  refine Within.step ⟨by omega, by omega⟩ (within_guard fun h₁ => ?_)
  refine Within.step ⟨by omega, by omega⟩ (within_guard fun h₂ => ?_)
  have hargs : (m 1).toNat = 1 := by
    rw [not_not.mp h₁]
    rfl
  have hrets : (m 2).toNat = 1 := by
    rw [not_not.mp h₂]
    rfl
  refine Within.step ⟨by omega, by omega⟩ (within_guard fun _ => ?_)
  exact Within.step ⟨by omega, by omega⟩ (request_within env _)

theorem setQuestFlag_within (env : QuestEnv) (l : QuestTeam) (long : Bool) (ctl : BitVec 32) :
    Within m (Below n) (setQuestFlag env l long ctl) := by
  unfold Declares at hn
  unfold setQuestFlag
  refine Within.step ⟨by omega, by omega⟩ (within_guard fun h₁ => ?_)
  refine Within.step ⟨by omega, by omega⟩ (within_guard fun h₂ => ?_)
  have hargs : (m 1).toNat = 2 := by
    rw [not_not.mp h₁]
    rfl
  have hrets : (m 2).toNat = 1 := by
    rw [not_not.mp h₂]
    rfl
  refine Within.step ⟨by omega, by omega⟩ (within_guard fun _ => ?_)
  refine Within.step ⟨by omega, by omega⟩ (within_guard fun _ => ?_)
  exact Within.step ⟨by omega, by omega⟩ (request_within env _)

/-- Slot 5 is above the arguments and the return value of a deletion. -/
theorem delQuestFlag_within_iff (env : QuestEnv) (l : QuestTeam) (ctl : BitVec 32) :
    Within m (Below n) (delQuestFlag env l ctl) ↔ ¬(m 1 = 1 ∧ m 2 = 1 ∧ ¬255 < m 3) := by
  unfold Declares at hn
  by_cases h₁ : m 1 = 1
  swap
  · have hno : ¬(m 1 = 1 ∧ m 2 = 1 ∧ ¬255 < m 3) := fun h => h₁ h.1
    refine iff_of_true ?_ hno
    unfold delQuestFlag
    exact Within.step ⟨by omega, by omega⟩ (within_guard fun h => absurd h (fun h' => h' h₁))
  by_cases h₂ : m 2 = 1
  swap
  · have hno : ¬(m 1 = 1 ∧ m 2 = 1 ∧ ¬255 < m 3) := fun h => h₂ h.2.1
    refine iff_of_true ?_ hno
    unfold delQuestFlag
    refine Within.step ⟨by omega, by omega⟩ (within_guard fun _ => ?_)
    exact Within.step ⟨by omega, by omega⟩ (within_guard fun h => absurd h (fun h' => h' h₂))
  have hfive : n = 5 := by
    rw [hn, h₁, h₂]
    rfl
  unfold delQuestFlag
  rw [slot, within_step_iff, if_neg (not_not.mpr h₁), slot, within_step_iff,
    if_neg (not_not.mpr h₂), slot, within_step_iff]
  by_cases h₃ : 255 < m 3
  · rw [if_pos h₃]
    refine iff_of_true ?_ (fun h => h.2.2 h₃)
    exact ⟨⟨by omega, by omega⟩, ⟨by omega, by omega⟩, ⟨by omega, by omega⟩, within_pure _⟩
  · rw [if_neg h₃, slot, within_step_iff]
    refine iff_of_false ?_ (not_not.mpr ⟨h₁, h₂, h₃⟩)
    rintro ⟨-, -, -, hfifth, -⟩
    unfold Below at hfifth
    omega

theorem wordCensorCheck_within (env : QuestEnv) (sr : Bool) :
    Within m (Below n) (wordCensorCheck env sr) := by
  unfold Declares at hn
  unfold wordCensorCheck
  refine Within.step ⟨by omega, by omega⟩ (within_guard fun h₁ => ?_)
  refine Within.step ⟨by omega, by omega⟩ (within_guard fun h₂ => ?_)
  have hrets : (m 2).toNat = 1 := by
    rw [not_not.mp h₂]
    rfl
  have hargs : (m 1 + 3).toNat = (m 1).toNat + 3 := by
    bv_omega
  refine Within.step ?_ (within_guard fun _ => ?_)
  · rw [hargs]
    exact ⟨by omega, by omega⟩
  · refine Within.bind (readString_within sr ?_) ?_
    · intro i hi
      simp only [List.mem_map, List.mem_range] at hi
      obtain ⟨j, hj, rfl⟩ := hi
      exact ⟨by omega, by omega⟩
    · cases (readString sr _).result m with
      | none => exact within_pure _
      | some s => exact within_pure _

theorem scriptExecuteQfunc_within (hmax : n ≤ 32) (env : QuestEnv) (l : QuestTeam) :
    Within m (Below n) (scriptExecuteQfunc env l) := by
  unfold Declares at hn
  unfold scriptExecuteQfunc
  refine within_guard fun _ => ?_
  refine Within.step ⟨by omega, by omega⟩ ?_
  cases l.qfuncList.find? (fun f => f.funcId = m 0) with
  | none => exact within_pure _
  | some f =>
    refine Within.step ⟨by omega, by omega⟩ (within_guard fun h₁ => ?_)
    refine Within.step ⟨by omega, by omega⟩ (within_guard fun h₂ => ?_)
    have hargs : f.nargs.toInt = (m 1).toNat := by
      rw [← not_not.mp h₁]
      exact BitVec.toInt_eq_toNat_of_lt (by omega)
    have hrets : f.nretvals.toInt = (m 2).toNat := by
      rw [← not_not.mp h₂]
      exact BitVec.toInt_eq_toNat_of_lt (by omega)
    have harg : ∀ i ∈ f.argSlots, Below n i := by
      intro i hi
      simp only [QFunc.argSlots, hargs, List.mem_map, List.mem_range] at hi
      obtain ⟨j, hj, rfl⟩ := hi
      exact ⟨by omega, by omega⟩
    have hret : ∀ i ∈ f.retSlots, Below n i := by
      intro i hi
      simp only [QFunc.retSlots, hargs, hrets, List.mem_map, List.mem_range] at hi
      obtain ⟨j, hj, rfl⟩ := hi
      exact ⟨by omega, by omega⟩
    refine Within.bind (badRegister_within hret) (within_guard fun _ => ?_)
    refine Within.bind (readSlots_within harg) (Within.bind (readSlots_within hret) ?_)
    exact within_pure _

/-- Of all quest functions only the deletions read above the stack. -/
theorem questFunctionDispatch_within_iff (hmax : n ≤ 32) (env : QuestEnv) (l : QuestTeam) :
    Within m (Below n) (questFunctionDispatch env l) ↔ ¬DeletesFlag m := by
  unfold questFunctionDispatch DeletesFlag
  rw [slot, within_step_iff, and_iff_right ⟨le_rfl, by unfold Declares at hn; omega⟩]
  by_cases hscript : 0x80000000 < m 0
  · rw [if_pos hscript]
    refine iff_of_true (scriptExecuteQfunc_within hn hmax env l) ?_
    rintro ⟨h | h, -⟩
    · rw [h] at hscript
      exact absurd hscript (by decide)
    · rw [h] at hscript
      exact absurd hscript (by decide)
  rw [if_neg hscript]
  by_cases hdel : m 0 = 16 ∨ m 0 = 17
  · rcases hdel with h | h
    · simpa [h, delQuestSflag] using delQuestFlag_within_iff hn env l qflagDeleteFlag
    · simpa [h, delQuestLflag] using
        delQuestFlag_within_iff hn env l (qflagLongFlag ||| qflagDeleteFlag)
  · refine iff_of_true ?_ (fun h => hdel h.1)
    rw [not_or] at hdel
    have h16 : (m 0).toNat ≠ 16 := fun h => hdel.1 (BitVec.eq_of_toNat_eq h)
    have h17 : (m 0).toNat ≠ 17 := fun h => hdel.2 (BitVec.eq_of_toNat_eq h)
    split
    case h_17 heq => exact absurd heq h16
    case h_18 heq => exact absurd heq h17
    case h_10 => exact getRandomInteger_within hn env
    case h_13 => exact getQuestFlag_within hn env l _
    case h_14 => exact setQuestFlag_within hn env l _ _
    case h_15 => exact getQuestFlag_within hn env l _
    case h_16 => exact setQuestFlag_within hn env l _ _
    case h_19 => exact wordCensorCheck_within hn env _
    case h_20 => exact wordCensorCheck_within hn env _
    case h_28 => exact within_pure _
    all_goals first
      | exact forPlayers_within hn l _ _
      | exact noArguments_within hn _ _

end Reads

/-- What happens to the stack of a client: a packet, the entry into a game, or an answer of the
shipgate (`quest_flag_reply`). -/
inductive StackEvent where
  | syncReg (env : SyncEnv) (l : QuestLobby) (pkt : SyncReg)
  | joinGame (clientId : ℕ)
  | flagReply

/-- `lobby_change_lobby` on the way into a game. -/
def QuestClient.joinGame (c : QuestClient) (clientId : ℕ) : QuestClient :=
  { c with
    qStack := fun i => if 0 ≤ i ∧ i < 32 then 0 else c.qStack i
    top := 0
    clientId := clientId }

/-- `quest_flag_reply` resets the stack and releases the lock. -/
def QuestClient.flagReply (c : QuestClient) : QuestClient :=
  if c.locked then { c with top := 0, locked := false } else c

def next (c : QuestClient) : StackEvent → QuestClient
  | .syncReg env l pkt => (handleSyncReg env l c pkt).client
  | .joinGame clientId => c.joinGame clientId
  | .flagReply => c.flagReply

/-- A client before its first packet, whatever the memory of its stack holds. -/
def fresh (qStack : ℤ → BitVec 32) : QuestClient where
  qStack := qStack
  top := 0
  locked := false
  clientId := 0

/-- The stack with the value of a packet on it, if the packet is a push. -/
def pushed (c : QuestClient) : StackEvent → Option QuestClient
  | .syncReg env l pkt =>
    if env.scriptDone = false ∧ ¬(l.flagShort = true ∧ pkt.regNum = l.shortflagReg) ∧
        l.flagData = true ∧ pkt.regNum = l.dataReg ∧ c.top < 32 ∧ c.locked = false then
      some (c.push pkt.value)
    else none
  | _ => none

/-- The stack that a quest function is called with, if an event calls one. -/
def dispatched (c : QuestClient) : StackEvent → Option QuestClient
  | .syncReg env l pkt => (handleSyncReg env l c pkt).dispatched
  | _ => none

/-- The slots that the called quest function reads. -/
def slotsRead (x : QuestClient) : StackEvent → List ℤ
  | .syncReg env l _ => (questFunctionDispatch env.toQuestEnv l.toQuestTeam).reads x.qStack
  | _ => []

/-- A step keeps to the protocol of the call stack. -/
structure Orderly (c : QuestClient) (e : StackEvent) : Prop where
  bounded : (next c e).top ≤ 32
  inBounds : ∀ i, ¬(0 ≤ i ∧ i < 32) → (next c e).qStack i = c.qStack i
  complete : ∀ x, dispatched c e = some x ↔ pushed c e = some x ∧ Declares x.qStack x.top
  readsPushed : ∀ x, dispatched c e = some x → ∀ i ∈ slotsRead x e, 0 ≤ i ∧ i < x.top

/-- The counts of the pushed stack do not wrap onto its height, and it is no deletion. -/
def Regular (c : QuestClient) (e : StackEvent) : Prop :=
  ∀ x, pushed c e = some x →
    ¬(3 ≤ x.top ∧ x.top + 2 ^ 32 = 3 + (x.qStack 1).toNat + (x.qStack 2).toNat) ∧
    ¬(Declares x.qStack x.top ∧ DeletesFlag x.qStack)

def Bounded (c : QuestClient) : Prop :=
  0 ≤ c.top ∧ c.top ≤ 32

/-- The effects of a quest function leave the stack alone. -/
theorem apply_foldl_stack (effects : List Effect) (r : SyncResult) :
    (effects.foldl SyncResult.apply r).client.qStack = r.client.qStack ∧
      (effects.foldl SyncResult.apply r).client.top = r.client.top ∧
      (effects.foldl SyncResult.apply r).dispatched = r.dispatched := by
  induction effects generalizing r with
  | nil => exact ⟨rfl, rfl, rfl⟩
  | cons e effects ih =>
    have hstep : (r.apply e).client.qStack = r.client.qStack ∧
        (r.apply e).client.top = r.client.top ∧ (r.apply e).dispatched = r.dispatched := by
      cases e <;> exact ⟨rfl, rfl, rfl⟩
    rw [List.foldl_cons, (ih _).1, (ih _).2.1, (ih _).2.2]
    exact hstep

/-- A result in which no function has been called, with the stack as it was or reset. -/
structure Quiet (c : QuestClient) (r : SyncResult) : Prop where
  qStack : r.client.qStack = c.qStack
  top : r.client.top = c.top ∨ r.client.top = 0
  dispatched : r.dispatched = none

theorem shortflagSync_quiet (env : QuestEnv) (l : QuestLobby) (c : QuestClient) (pkt : SyncReg) :
    Quiet c ((SyncResult.start l c).shortflagSync env pkt) := by
  unfold SyncResult.shortflagSync SyncResult.ask
  dsimp only
  split_ifs <;> exact ⟨rfl, Or.inl rfl, rfl⟩

theorem callFunction_stack (env : QuestEnv) (pkt : SyncReg) (r : SyncResult) :
    (r.callFunction env pkt).client.qStack = r.client.qStack ∧
      ((r.callFunction env pkt).client.top = r.client.top ∨
        (r.callFunction env pkt).client.top = 0) ∧
      (r.callFunction env pkt).dispatched = some r.client := by
  unfold SyncResult.callFunction
  dsimp only
  obtain ⟨hstack, htop, hcall⟩ := apply_foldl_stack
    ((questFunctionDispatch env r.lobby.toQuestTeam).result r.client.qStack).effects
    { r with dispatched := some r.client }
  split_ifs
  · exact ⟨hstack, Or.inr rfl, hcall⟩
  · exact ⟨hstack, Or.inl htop, hcall⟩

/-- The stack after a push is `x`, and a function is called if the call is complete. -/
structure Pushes (x : QuestClient) (r : SyncResult) : Prop where
  qStack : r.client.qStack = x.qStack
  top : r.client.top = x.top ∨ r.client.top = 0
  dispatched : r.dispatched = if x.Complete then some x else none

theorem completeCall_pushes (env : QuestEnv) (pkt : SyncReg) {r : SyncResult}
    (hr : r.dispatched = none) : Pushes r.client (r.completeCall env pkt) := by
  unfold SyncResult.completeCall
  by_cases hcomplete : r.client.Complete
  · rw [if_pos hcomplete]
    obtain ⟨hstack, htop, hcall⟩ := callFunction_stack env pkt r
    refine ⟨hstack, htop, ?_⟩
    rw [hcall, if_pos hcomplete]
  · rw [if_neg hcomplete]
    refine ⟨rfl, Or.inl rfl, ?_⟩
    rw [hr, if_neg hcomplete]

theorem dataSync_cases (env : QuestEnv) (pkt : SyncReg) {r : SyncResult}
    (hr : r.dispatched = none) :
    (r.client.top < 32 ∧ r.client.locked = false) ∧
        Pushes (r.client.push pkt.value) (r.dataSync env pkt) ∨
      ¬(r.client.top < 32 ∧ r.client.locked = false) ∧ Quiet r.client (r.dataSync env pkt) := by
  unfold SyncResult.dataSync
  by_cases htop : r.client.top < 32
  · rw [if_pos htop]
    by_cases hlocked : r.client.locked = false
    · rw [if_pos hlocked]
      have hpush := completeCall_pushes env pkt
        (r := { r with client := r.client.push pkt.value }) hr
      exact Or.inl ⟨⟨htop, hlocked⟩, hpush⟩
    · rw [if_neg hlocked]
      exact Or.inr ⟨fun h => hlocked h.2, rfl, Or.inl rfl, hr⟩
  · rw [if_neg htop]
    refine Or.inr ⟨fun h => htop h.1, ?_⟩
    split_ifs <;> exact ⟨rfl, Or.inl rfl, hr⟩

theorem handleSpecial_cases (env : SyncEnv) (l : QuestLobby) (c : QuestClient) (pkt : SyncReg) :
    (∃ x, pushed c (.syncReg env l pkt) = some x ∧ x = c.push pkt.value ∧ c.top < 32 ∧
        Pushes x (handleSpecial env l c pkt).1) ∨
      pushed c (.syncReg env l pkt) = none ∧ Quiet c (handleSpecial env l c pkt).1 := by
  unfold handleSpecial
  simp only [pushed]
  cases hscript : env.scriptDone with
  | true => exact Or.inr ⟨rfl, rfl, Or.inl rfl, rfl⟩
  | false =>
  by_cases hshort : l.flagShort = true ∧ pkt.regNum = l.shortflagReg
  · simp only [Bool.false_eq_true, if_false, if_pos hshort]
    exact Or.inr ⟨if_neg (fun h => h.2.1 hshort), shortflagSync_quiet env.toQuestEnv l c pkt⟩
  simp only [Bool.false_eq_true, if_false, if_neg hshort]
  by_cases hdata : l.flagData = true
  swap
  · rw [if_neg hdata]
    exact Or.inr ⟨if_neg (fun h => hdata h.2.2.1), rfl, Or.inl rfl, rfl⟩
  rw [if_pos hdata]
  by_cases hreg : pkt.regNum = l.dataReg
  · rw [if_pos hreg]
    have hcases := dataSync_cases env.toQuestEnv pkt (r := SyncResult.start l c) rfl
    rcases hcases with ⟨⟨htop, hlocked⟩, hpush⟩ | ⟨hno, hquiet⟩
    · exact Or.inl ⟨_, if_pos ⟨trivial, hshort, hdata, hreg, htop, hlocked⟩, rfl, htop, hpush⟩
    · exact Or.inr ⟨if_neg (fun h => hno h.2.2.2.2), hquiet⟩
  · rw [if_neg hreg]
    refine Or.inr ⟨if_neg (fun h => hreg h.2.2.2.1), ?_⟩
    split_ifs
    · exact ⟨rfl, Or.inr rfl, rfl⟩
    · exact ⟨rfl, Or.inl rfl, rfl⟩

theorem complete_iff {c : QuestClient} (hc : Bounded c) :
    c.Complete ↔ Declares c.qStack c.top ∨
      3 ≤ c.top ∧ c.top + 2 ^ 32 = 3 + (c.qStack 1).toNat + (c.qStack 2).toNat := by
  unfold QuestClient.Complete Declares
  obtain ⟨hlow, hhigh⟩ := hc
  have h₁ := (c.qStack 1).isLt
  have h₂ := (c.qStack 2).isLt
  obtain ⟨n, hn⟩ := Int.eq_ofNat_of_zero_le hlow
  have hthree : (3 : BitVec 32).toNat = 3 := rfl
  have hheight : (BitVec.ofInt 32 c.top).toNat = n := by
    rw [hn, BitVec.ofInt_natCast, BitVec.toNat_ofNat]
    omega
  rw [← BitVec.toNat_inj, BitVec.toNat_add, BitVec.toNat_add, hthree, hheight]
  omega

theorem Bounded.push {c : QuestClient} (hc : Bounded c) (htop : c.top < 32) (value : BitVec 32) :
    Bounded (c.push value) := by
  unfold Bounded QuestClient.push at *
  dsimp only
  omega

theorem next_bounded {c : QuestClient} (hc : Bounded c) (e : StackEvent) : Bounded (next c e) := by
  have hzero : (0 : ℤ) ≤ 0 ∧ (0 : ℤ) ≤ 32 := by omega
  cases e with
  | syncReg env l pkt =>
    have hnext : next c (.syncReg env l pkt) = (handleSpecial env l c pkt).1.client := rfl
    unfold Bounded
    rw [hnext]
    rcases handleSpecial_cases env l c pkt with ⟨x, -, rfl, htop, hpush⟩ | ⟨-, hquiet⟩
    · rcases hpush.top with h | h
      · rw [h]
        exact hc.push htop pkt.value
      · rw [h]
        exact hzero
    · rcases hquiet.top with h | h
      · rw [h]
        exact hc
      · rw [h]
        exact hzero
  | joinGame clientId => exact hzero
  | flagReply =>
    unfold next QuestClient.flagReply
    split_ifs
    · exact hzero
    · exact hc

/-- No slot outside of the stack is written. -/
theorem next_inBounds {c : QuestClient} (hc : Bounded c) (e : StackEvent) {i : ℤ}
    (hi : ¬(0 ≤ i ∧ i < 32)) : (next c e).qStack i = c.qStack i := by
  cases e with
  | syncReg env l pkt =>
    have hnext : next c (.syncReg env l pkt) = (handleSpecial env l c pkt).1.client := rfl
    rw [hnext]
    rcases handleSpecial_cases env l c pkt with ⟨x, -, rfl, htop, hpush⟩ | ⟨-, hquiet⟩
    · rw [hpush.qStack]
      have hne : i ≠ c.top := by
        rintro rfl
        exact hi ⟨hc.1, htop⟩
      exact Function.update_of_ne hne _ _
    · rw [hquiet.qStack]
  | joinGame clientId => exact if_neg hi
  | flagReply =>
    unfold next QuestClient.flagReply
    split_ifs <;> rfl

theorem orderly_of_quiet {c : QuestClient} (hc : Bounded c) {e : StackEvent}
    (hpushed : pushed c e = none) (hcall : dispatched c e = none) : Orderly c e where
  bounded := (next_bounded hc e).2
  inBounds := fun _ hi => next_inBounds hc e hi
  complete := by
    intro x
    rw [hcall, hpushed]
    exact ⟨nofun, fun h => nomatch h.1⟩
  readsPushed := by
    intro x h
    rw [hcall] at h
    cases h

theorem orderly_iff {c : QuestClient} (hc : Bounded c) (e : StackEvent) :
    Orderly c e ↔ Regular c e := by
  have hquiet : pushed c e = none → dispatched c e = none → (Orderly c e ↔ Regular c e) := by
    intro hpushed hcall
    refine iff_of_true (orderly_of_quiet hc hpushed hcall) ?_
    intro x hx
    rw [hpushed] at hx
    cases hx
  cases e with
  | joinGame clientId => exact hquiet rfl rfl
  | flagReply => exact hquiet rfl rfl
  | syncReg env l pkt =>
  rcases handleSpecial_cases env l c pkt with ⟨x, hpushed, hx, htop, hpush⟩ | ⟨hnone, hq⟩
  swap
  · exact hquiet hnone hq.dispatched
  have hbounded : Bounded x := by
    rw [hx]
    exact hc.push htop pkt.value
  have hcall : dispatched c (.syncReg env l pkt) = if x.Complete then some x else none :=
    hpush.dispatched
  have hreads : Declares x.qStack x.top → ((∀ i ∈ slotsRead x (.syncReg env l pkt),
      0 ≤ i ∧ i < x.top) ↔ ¬DeletesFlag x.qStack) := fun hdeclares =>
    questFunctionDispatch_within_iff hdeclares hbounded.2 env.toQuestEnv l.toQuestTeam
  have hcomplete := complete_iff hbounded
  constructor
  · intro horderly y hy
    rw [hpushed, Option.some_inj] at hy
    subst hy
    have hdeclared := horderly.complete x
    constructor
    · intro hwraps
      rw [hcall, if_pos (hcomplete.mpr (Or.inr hwraps))] at hdeclared
      have hdeclares := (hdeclared.mp rfl).2
      unfold Declares at hdeclares
      omega
    · rintro ⟨hdeclares, hdeletes⟩
      refine (hreads hdeclares).mp ?_ hdeletes
      exact horderly.readsPushed x (hdeclared.mpr ⟨hpushed, hdeclares⟩)
  · intro hregular
    obtain ⟨hwraps, hdeletes⟩ := hregular x hpushed
    have hiff : x.Complete ↔ Declares x.qStack x.top := hcomplete.trans (or_iff_left hwraps)
    refine ⟨(next_bounded hc _).2, fun _ hi => next_inBounds hc _ hi, ?_, ?_⟩
    · intro y
      rw [hcall, hpushed, Option.some_inj]
      constructor
      · intro h
        split_ifs at h with hdone
        cases h
        exact ⟨rfl, hiff.mp hdone⟩
      · rintro ⟨rfl, hdeclares⟩
        exact if_pos (hiff.mpr hdeclares)
    · intro y h
      rw [hcall] at h
      split_ifs at h with hdone
      cases h
      have hdeclares := hiff.mp hdone
      exact (hreads hdeclares).mpr fun h => hdeletes ⟨hdeclares, h⟩

/-- The steps of a run from a fresh client keep to the protocol just if no push makes the counts
wrap onto the height of the stack and none completes a deletion that gets to its register. -/
theorem questStack_orderly (qStack : ℤ → BitVec 32) (es : List StackEvent) (c : QuestClient) :
    Run (StepOf next) Orderly (fresh qStack) es c ↔
      Run (StepOf next) Regular (fresh qStack) es c := by
  have hfresh : Bounded (fresh qStack) := ⟨le_rfl, show (0 : ℤ) ≤ 32 by decide⟩
  constructor
  · intro hrun
    refine hrun.mono hfresh ?_ fun c e hc h => (orderly_iff hc e).mp h
    rintro c e _ hc - rfl
    exact next_bounded hc e
  · intro hrun
    refine hrun.mono hfresh ?_ fun c e hc h => (orderly_iff hc e).mpr h
    rintro c e _ hc - rfl
    exact next_bounded hc e

/-- The first player of a team whose quest makes its calls through register 0. -/
def callingTeam : QuestLobby where
  clients _ := none
  numClients := 1
  randSeed := 0
  qid := 1
  qfuncList := []
  flagShort := false
  flagData := true
  flagJoin := false
  flagSync := false
  shortflagReg := 0
  dataReg := 0
  ctlReg := 1
  syncregs := []
  qposRegs _ _ := 0
  qcountReg _ := 0

/-- No scripts, and a shipgate that takes every request. -/
def plainEnv : SyncEnv where
  now := 0
  random := 0
  shipClients := 1
  blockClients := 1
  shipName := []
  checkString _ := 0
  qflagSent := true
  scriptsLoaded := false
  runScript _ _ _ := (0, [])
  scriptDone := false

/-- The pushes that delete short flag 7, with the result for register 10. -/
def deletion : List StackEvent :=
  [16, 1, 1, 7, 10].map fun value => .syncReg plainEnv callingTeam ⟨0, value⟩

/-- The deletion tests slot 5, which nothing has been pushed to. -/
theorem questStack_not_orderly :
    ¬ ∀ (qStack : ℤ → BitVec 32) (es : List StackEvent) (c : QuestClient),
      Run (StepOf next) Always (fresh qStack) es c →
        Run (StepOf next) Orderly (fresh qStack) es c := by
  intro hall
  have hrun := hall (fun _ => 0) deletion _ (run_foldl next _ deletion)
  have horderly := hrun.good_at (deletion.take 4)
  have hread := horderly.readsPushed _ rfl 5 (by decide)
  exact absurd hread.2 (by decide)

end ShipServer.QuestStack
