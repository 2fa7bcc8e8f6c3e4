import ShipServer.TracedReads

set_option autoImplicit false

namespace ShipServer.QuestFunctions

open TracedReads

/-- Another player of the team, as the quest functions see it; a position is cut to integers. -/
structure QuestMember where
  sectionId : BitVec 8
  chClass : BitVec 8
  level : BitVec 32
  curArea : BitVec 32
  x : BitVec 32
  y : BitVec 32
  z : BitVec 32

/-- A quest function that a script has defined; the two counts are of type `int`. -/
structure QFunc where
  funcId : BitVec 32
  nargs : BitVec 32
  nretvals : BitVec 32

/-- The fields of a lobby that the quest functions read. -/
structure QuestTeam where
  clients : Fin 4 → Option QuestMember
  numClients : BitVec 32
  randSeed : BitVec 32
  qid : BitVec 32
  qfuncList : List QFunc

/-- What the quest functions get from elsewhere. `runScript` is a Lua function: its result, and
the registers it sends. -/
structure QuestEnv where
  now : BitVec 32
  random : BitVec 32
  shipClients : BitVec 32
  blockClients : BitVec 32
  shipName : List (BitVec 8)
  checkString : List (BitVec 8) → BitVec 32
  qflagSent : Bool
  scriptsLoaded : Bool
  runScript : BitVec 32 → List (BitVec 32) → List (BitVec 32) →
    BitVec 32 × List (BitVec 8 × BitVec 32)

/-- A request for a quest flag, as `shipgate_send_qflag` gets it. -/
structure QFlagRequest where
  isSet : Bool
  flag : BitVec 32
  qid : BitVec 32
  value : BitVec 32
  ctl : BitVec 32
  deriving DecidableEq

/-- What a quest function does besides returning a code: it sends a register, asks the shipgate
and locks the stack, or asks to be kept informed. -/
inductive Effect where
  | sync (reg : BitVec 8) (value : BitVec 32)
  | call (request : QFlagRequest)
  | posUpdates (who : Fin 4) (reg : BitVec 8)
  | countUpdates (reg : BitVec 8)
  deriving DecidableEq

structure Outcome where
  ret : BitVec 32
  effects : List Effect
  deriving DecidableEq

def retNoError : BitVec 32 := 0
def retStackOverflow : BitVec 32 := 0x8000FFFF
def retInvalidFunc : BitVec 32 := 0x8000FFFE
def retBadArgCount : BitVec 32 := 0x8000FFFD
def retBadRetCount : BitVec 32 := 0x8000FFFC
def retInvalidArg : BitVec 32 := 0x8000FFFB
def retInvalidRegister : BitVec 32 := 0x8000FFFA
def retStackLocked : BitVec 32 := 0x8000FFF9
def retShipgateErr : BitVec 32 := 0x8000FFF8
def retRetvalError : BitVec 32 := 0x8000FFF7
def retNotYet : BitVec 32 := 0xDEADBEEF

def qflagLongFlag : BitVec 32 := 0x80000000
def qflagDeleteFlag : BitVec 32 := 0x40000000

/-- A quest function reads its arguments from `q_stack`. An index outside of 0 to 31 is memory
around the stack. -/
abbrev QuestFunction := Probe ℤ (BitVec 32) Outcome

def slot (i : ℤ) : Probe ℤ (BitVec 32) (BitVec 32) :=
  Probe.cell i

def refuse (code : BitVec 32) : QuestFunction :=
  pure ⟨code, []⟩

def finish (effects : List Effect) : QuestFunction :=
  pure ⟨retNoError, effects⟩

/-- `send_sync_register` takes the register number as a byte. -/
def sync (reg value : BitVec 32) : Effect :=
  .sync (reg.setWidth 8) value

/-- One of the slots holds no register number. -/
def badRegister : List ℤ → Probe ℤ (BitVec 32) Bool
  | [] => pure false
  | i :: is => do
    let r ← slot i
    if 255 < r then pure true else badRegister is

/-- The functions about one player or all four. -/
def forPlayers (l : QuestTeam) (register : Fin 4 → BitVec 32 → List Effect)
    (answer : Option QuestMember → BitVec 32 → List Effect) : QuestFunction := do
  let nargs ← slot 1
  if nargs ≠ 1 then refuse retBadArgCount else
  let who ← slot 3
  if who = 0xFFFFFFFF then
    let nrets ← slot 2
    if nrets ≠ 4 then refuse retBadRetCount else
    let bad ← badRegister [4, 5, 6, 7]
    if bad then refuse retInvalidRegister else
    let r₀ ← slot 4
    let r₁ ← slot 5
    let r₂ ← slot 6
    let r₃ ← slot 7
    finish (register 0 r₀ ++ register 1 r₁ ++ register 2 r₂ ++ register 3 r₃ ++
      answer (l.clients 0) r₀ ++ answer (l.clients 1) r₁ ++ answer (l.clients 2) r₂ ++
      answer (l.clients 3) r₃)
  else if h : who.toNat < 4 then
    let nrets ← slot 2
    if nrets ≠ 1 then refuse retBadRetCount else
    let r ← slot 4
    if 255 < r then refuse retInvalidRegister else
    finish (register ⟨who.toNat, h⟩ r ++ answer (l.clients ⟨who.toNat, h⟩) r)
  else
    refuse retInvalidArg

/-- One value for each player. -/
def sendValue (value : QuestMember → BitVec 32) (p : Option QuestMember) (r : BitVec 32) :
    List Effect :=
  [sync r ((p.map value).getD 0xFFFFFFFF)]

/-- The functions without arguments that return one value. -/
def noArguments (limit : BitVec 32) (answer : BitVec 32 → List Effect) : QuestFunction := do
  let nargs ← slot 1
  if nargs ≠ 0 then refuse retBadArgCount else
  let nrets ← slot 2
  if nrets ≠ 1 then refuse retBadRetCount else
  let r ← slot 3
  if limit < r then refuse retInvalidRegister else finish (answer r)

def getSectionId (l : QuestTeam) : QuestFunction :=
  forPlayers l (fun _ _ => []) (sendValue fun p => p.sectionId.setWidth 32)

def getTime (env : QuestEnv) : QuestFunction :=
  noArguments 255 fun r => [sync r env.now]

def getClientCount (env : QuestEnv) (l : QuestTeam) (which : ℕ) : QuestFunction :=
  noArguments 255 fun r =>
    if which = 0 then [sync r l.numClients]
    else if which = 1 then [sync r env.shipClients]
    else if which = 2 then [sync r env.blockClients]
    else []

def getCharClass (l : QuestTeam) : QuestFunction :=
  forPlayers l (fun _ _ => []) (sendValue fun p => p.chClass.setWidth 32)

def genders : List (BitVec 32) := [0, 1, 0, 0, 0, 1, 1, 0, 1, 1, 0, 1]
def races : List (BitVec 32) := [0, 1, 2, 0, 2, 2, 0, 1, 1, 2, 0, 0]
def jobs : List (BitVec 32) := [0, 0, 0, 1, 1, 1, 2, 2, 2, 0, 2, 1]

def attr (chClass : BitVec 8) (table : List (BitVec 32)) : BitVec 32 :=
  table[chClass.toNat]?.getD (-1)

def getCharGender (l : QuestTeam) : QuestFunction :=
  forPlayers l (fun _ _ => []) (sendValue fun p => attr p.chClass genders)

def getCharRace (l : QuestTeam) : QuestFunction :=
  forPlayers l (fun _ _ => []) (sendValue fun p => attr p.chClass races)

def getCharJob (l : QuestTeam) : QuestFunction :=
  forPlayers l (fun _ _ => []) (sendValue fun p => attr p.chClass jobs)

def getClientFloor (l : QuestTeam) : QuestFunction :=
  forPlayers l (fun _ _ => []) (sendValue QuestMember.curArea)

/-- Consecutive registers. -/
def sendValues (values : List (QuestMember → BitVec 32)) (p : Option QuestMember)
    (r : BitVec 32) : List Effect :=
  values.mapIdx fun i value => sync (r + BitVec.ofNat 32 i) ((p.map value).getD 0xFFFFFFFF)

def getClientPosition (l : QuestTeam) : QuestFunction :=
  forPlayers l (fun _ _ => []) (sendValues [QuestMember.x, QuestMember.y, QuestMember.z])

def getRandomInteger (env : QuestEnv) : QuestFunction := do
  let nargs ← slot 1
  if nargs ≠ 2 then refuse retBadArgCount else
  let nrets ← slot 2
  if nrets ≠ 1 then refuse retBadRetCount else
  let r ← slot 5
  if 255 < r then refuse retInvalidRegister else
  let min ← slot 3
  let max ← slot 4
  if max ≤ min then refuse retInvalidArg else
  finish [sync r (BitVec.ofNat 32 (env.random.toNat % ((max - min).toNat + 1) + min.toNat))]

/-- The request is sent, and the stack is locked until the answer. -/
def request (env : QuestEnv) (req : QFlagRequest) : QuestFunction :=
  if env.qflagSent then pure ⟨retNotYet, [.call req]⟩ else refuse retShipgateErr

/-- `get_quest_sflag` and `get_quest_lflag`. -/
def getQuestFlag (env : QuestEnv) (l : QuestTeam) (ctl : BitVec 32) : QuestFunction := do
  let nargs ← slot 1
  if nargs ≠ 1 then refuse retBadArgCount else
  let nrets ← slot 2
  if nrets ≠ 1 then refuse retBadRetCount else
  let r ← slot 4
  if 255 < r then refuse retInvalidRegister else
  let flag ← slot 3
  request env { isSet := false, flag := flag, qid := l.qid, value := 0, ctl := ctl }

def getQuestSflag (env : QuestEnv) (l : QuestTeam) : QuestFunction :=
  getQuestFlag env l 0

def getQuestLflag (env : QuestEnv) (l : QuestTeam) : QuestFunction :=
  getQuestFlag env l qflagLongFlag

/-- `set_quest_sflag` and `set_quest_lflag`; only a short flag is bounded. -/
def setQuestFlag (env : QuestEnv) (l : QuestTeam) (long : Bool) (ctl : BitVec 32) :
    QuestFunction := do
  let nargs ← slot 1
  if nargs ≠ 2 then refuse retBadArgCount else
  let nrets ← slot 2
  if nrets ≠ 1 then refuse retBadRetCount else
  let value ← slot 4
  if long = false ∧ value &&& 0xFFFF0000 ≠ 0 then refuse retInvalidArg else
  let r ← slot 5
  if 255 < r then refuse retInvalidRegister else
  let flag ← slot 3
  request env { isSet := true, flag := flag, qid := l.qid, value := value, ctl := ctl }

def setQuestSflag (env : QuestEnv) (l : QuestTeam) : QuestFunction :=
  setQuestFlag env l false 0

def setQuestLflag (env : QuestEnv) (l : QuestTeam) : QuestFunction :=
  setQuestFlag env l true qflagLongFlag

/-- `del_quest_sflag` and `del_quest_lflag`. With one argument the register is in slot 4, but
slot 5 is tested, and slot 4 is sent as the value. -/
def delQuestFlag (env : QuestEnv) (l : QuestTeam) (ctl : BitVec 32) : QuestFunction := do
  let nargs ← slot 1
  if nargs ≠ 1 then refuse retBadArgCount else
  let nrets ← slot 2
  if nrets ≠ 1 then refuse retBadRetCount else
  let flag ← slot 3
  if 255 < flag then refuse retInvalidArg else
  let r ← slot 5
  if 255 < r then refuse retInvalidRegister else
  let value ← slot 4
  request env { isSet := true, flag := flag, qid := l.qid, value := value, ctl := ctl }

def delQuestSflag (env : QuestEnv) (l : QuestTeam) : QuestFunction :=
  delQuestFlag env l qflagDeleteFlag

def delQuestLflag (env : QuestEnv) (l : QuestTeam) : QuestFunction :=
  delQuestFlag env l (qflagLongFlag ||| qflagDeleteFlag)

/-- The string that `word_censor_check` reads from the slots, if each of them is in range. With
`sr` letters are counted from 1, and 0 ends the string. -/
def readString (sr : Bool) : List ℤ → Probe ℤ (BitVec 32) (Option (List (BitVec 8)))
  | [] => pure (some [])
  | i :: is => do
    let v ← slot i
    if (if sr then 26 else 127) < v then pure none
    else if sr ∧ v = 0 then pure (some [])
    else
      let str ← readString sr is
      pure (str.map fun s => (if sr then v + 64 else v).setWidth 8 :: s)

def wordCensorCheck (env : QuestEnv) (sr : Bool) : QuestFunction := do
  let nargs ← slot 1
  if nargs < 1 ∨ 24 < nargs then refuse retBadArgCount else
  let nrets ← slot 2
  if nrets ≠ 1 then refuse retBadRetCount else
  let r ← slot (nargs + 3).toNat
  if 255 < r then refuse retInvalidRegister else
  let str ← readString sr ((List.range nargs.toNat).map fun (i : ℕ) => (i : ℤ) + 3)
  match str with
  | none => refuse retInvalidArg
  | some s => finish [sync r (env.checkString (s.takeWhile (· ≠ 0)))]

def getTeamSeed (l : QuestTeam) : QuestFunction :=
  noArguments 255 fun r => [sync r l.randSeed]

def getPosUpdates (l : QuestTeam) : QuestFunction :=
  forPlayers l (fun i r => [.posUpdates i (r.setWidth 8)])
    (sendValues [QuestMember.x, QuestMember.y, QuestMember.z, QuestMember.curArea])

def getLevel (l : QuestTeam) : QuestFunction :=
  forPlayers l (fun _ _ => []) (sendValue fun p => p.level + 1)

/-- Byte `i` of the ship's name, in a buffer of 12. -/
def nameByte (env : QuestEnv) (i : ℕ) : BitVec 32 :=
  (env.shipName[i]?.getD 0).setWidth 32

def getShipName (env : QuestEnv) : QuestFunction :=
  noArguments 253 fun r =>
    (List.range 3).map fun k => sync (r + BitVec.ofNat 32 k)
      (nameByte env (4 * k) ||| nameByte env (4 * k + 1) <<< 8 |||
        nameByte env (4 * k + 2) <<< 16 ||| nameByte env (4 * k + 3) <<< 24)

def getShipNameUtf16 (env : QuestEnv) : QuestFunction :=
  noArguments 250 fun r =>
    (List.range 6).map fun k => sync (r + BitVec.ofNat 32 k)
      (nameByte env (2 * k) ||| nameByte env (2 * k + 1) <<< 16)

def getMaxFunction : QuestFunction :=
  noArguments 255 fun r => [sync r 26]

def getClientCountUpdates (l : QuestTeam) : QuestFunction :=
  noArguments 255 fun r => [.countUpdates (r.setWidth 8), sync r l.numClients]

def QFunc.argSlots (f : QFunc) : List ℤ :=
  (List.range f.nargs.toInt.toNat).map fun (j : ℕ) => (j : ℤ) + 3

def QFunc.retSlots (f : QFunc) : List ℤ :=
  (List.range f.nretvals.toInt.toNat).map fun (j : ℕ) => (j : ℤ) + f.nargs.toInt + 3

def readSlots : List ℤ → Probe ℤ (BitVec 32) (List (BitVec 32))
  | [] => pure []
  | i :: is => do
    let v ← slot i
    let vs ← readSlots is
    pure (v :: vs)

def scriptExecuteQfunc (env : QuestEnv) (l : QuestTeam) : QuestFunction := do
  if env.scriptsLoaded = false then refuse retInvalidFunc else
  let id ← slot 0
  match l.qfuncList.find? (fun f => f.funcId = id) with
  | none => refuse retInvalidFunc
  | some f =>
    let nargs ← slot 1
    if nargs ≠ f.nargs then refuse retBadArgCount else
    let nrets ← slot 2
    if nrets ≠ f.nretvals then refuse retBadRetCount else
    let bad ← badRegister f.retSlots
    if bad then refuse retInvalidRegister else
    let args ← readSlots f.argSlots
    let rets ← readSlots f.retSlots
    pure ⟨(env.runScript id args rets).1,
      (env.runScript id args rets).2.map fun rv => .sync rv.1 rv.2⟩

def questFunctionDispatch (env : QuestEnv) (l : QuestTeam) : QuestFunction := do
  let id ← slot 0
  if 0x80000000 < id then scriptExecuteQfunc env l else
  match id.toNat with
  | 0 => getSectionId l
  | 1 => getTime env
  | 2 => getClientCount env l 0
  | 3 => getCharClass l
  | 4 => getCharGender l
  | 5 => getCharRace l
  | 6 => getCharJob l
  | 7 => getClientFloor l
  | 8 => getClientPosition l
  | 9 => getRandomInteger env
  | 10 => getClientCount env l 1
  | 11 => getClientCount env l 2
  | 12 => getQuestSflag env l
  | 13 => setQuestSflag env l
  | 14 => getQuestLflag env l
  | 15 => setQuestLflag env l
  | 16 => delQuestSflag env l
  | 17 => delQuestLflag env l
  | 18 => wordCensorCheck env false
  | 19 => wordCensorCheck env true
  | 20 => getTeamSeed l
  | 21 => getPosUpdates l
  | 22 => getLevel l
  | 23 => getShipName env
  | 24 => getShipNameUtf16 env
  | 25 => getMaxFunction
  | 26 => getClientCountUpdates l
  | _ => refuse retInvalidFunc

end ShipServer.QuestFunctions
