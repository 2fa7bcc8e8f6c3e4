import ShipServer.QuestStack
import ShipServer.Versions

set_option autoImplicit false

namespace ShipServer.QuestSetup

open Versions QuestStack

/-- An entry of a quest's list of enemies with a drop policy. -/
structure QEnemy where
  key : BitVec 32
  mask : BitVec 32
  value : BitVec 32
  deriving DecidableEq

/-- A quest in one version and language. The first four fields are its `SYLVERANT_QUEST_*` flags;
a script is named by a number. -/
structure Quest where
  flag16 : Bool
  dataFl : Bool
  joinable : Bool
  syncRegs : Bool
  serverFlag16Reg : BitVec 8
  serverDataReg : BitVec 8
  serverCtlReg : BitVec 8
  syncedRegs : List (BitVec 8)
  monsterTypes : List QEnemy
  monsterIds : List QEnemy
  onloadScript : Option ℕ
  beforeloadScript : Option ℕ

/-- The versions of a quest, in up to eight languages each. -/
abbrev QuestMapElem := ClientVersion → Vector (Option Quest) 8

/-- What the setup of a quest meets. `mapCache` says that the quest's map can be read and stored. -/
structure SetupEnv where
  configured : Bool
  beforeQuestLoad : ℤ
  executeFile : Option ℕ → ℤ
  questLookup : BitVec 32 → Option QuestMapElem
  mapCache : ClientVersion → BitVec 32 → Bool
  mtypesAllocated : Bool
  midsAllocated : Bool
  syncregsAllocated : Bool
  regvalsAllocated : Bool

/-- What a quest does not change about a lobby. -/
structure SetupLobby where
  version : ClientVersion
  challenge : Bool
  battle : Bool

/-- The fields of a lobby that a quest sets. -/
structure LobbyQuest extends QuestRegs where
  mids : List QEnemy
  mtypes : List QEnemy
  deriving DecidableEq

/-- The scripts to run before a quest is loaded: the first language that has one decides, and its
script may refuse the quest or name another one. -/
def beforeLoad (env : SetupEnv) (qid : BitVec 32) (e : QuestMapElem) :
    List (Option Quest) → Option (BitVec 32 × QuestMapElem)
  | [] => some (qid, e)
  | none :: qs => beforeLoad env qid e qs
  | some q :: qs =>
    if q.onloadScript.isSome ∧ q.beforeloadScript.isNone then some (qid, e)
    else if q.beforeloadScript.isSome then
      if env.executeFile q.onloadScript < 0 then none
      else if 0 < env.executeFile q.onloadScript then
        let qid := BitVec.ofInt 32 (env.executeFile q.onloadScript)
        (env.questLookup qid).map fun e => (qid, e)
      else some (qid, e)
    else beforeLoad env qid e qs

/-- The first part of `lobby_setup_quest`: the quest to load, if there is one. -/
def findQuest (env : SetupEnv) (l : SetupLobby) (qid : BitVec 32) :
    Option (BitVec 32 × QuestMapElem) :=
  if env.configured = false ∨ env.beforeQuestLoad < 0 then none
  else
    let qid := if 0 < env.beforeQuestLoad then BitVec.ofInt 32 env.beforeQuestLoad else qid
    match env.questLookup qid with
    | none => none
    | some e =>
      match beforeLoad env qid e (e l.version).toList with
      | none => none
      | some (qid, e) =>
        if ¬l.version < .gc ∧ (e l.version).toList.all Option.isNone then none else some (qid, e)

/-- The first language with a list of monsters. -/
def monsterList : List (Option Quest) → Option Quest
  | [] => none
  | none :: qs => monsterList qs
  | some q :: qs =>
    if q.monsterIds ≠ [] ∨ q.monsterTypes ≠ [] then some q else monsterList qs

/-- Maps are shared between PC and version 2. -/
def mapVersion (v : ClientVersion) : ClientVersion :=
  if v = .pc then .dcv2 else v

/-- `load_quest_enemies` up to the drop policy: the quest whose lists are to be copied. -/
def questMonsters (env : SetupEnv) (l : SetupLobby) (qid : BitVec 32) : Option Quest :=
  if l.challenge = true ∨ l.battle = true then none
  else if env.mapCache (mapVersion l.version) qid = false then none
  else (env.questLookup qid).bind fun el => monsterList (el (mapVersion l.version)).toList

def copyMonsters (env : SetupEnv) (q : Quest) (s : LobbyQuest) : LobbyQuest :=
  if env.mtypesAllocated = false then { s with mtypes := [] }
  else if env.midsAllocated = false then { s with mtypes := [], mids := [] }
  else { s with mtypes := q.monsterTypes, mids := q.monsterIds }

def loadQuestEnemies (env : SetupEnv) (l : SetupLobby) (qid : BitVec 32) (s : LobbyQuest) :
    LobbyQuest :=
  (questMonsters env l qid).elim s fun q => copyMonsters env q s

/-- The synced registers of a joinable quest, none of them set yet. -/
def setupSync (env : SetupEnv) (q : Quest) (s : QuestRegs) : QuestRegs :=
  if env.syncregsAllocated = false ∨ env.regvalsAllocated = false then
    { s with flagJoin := false, flagSync := false, syncregs := [] }
  else { s with flagSync := true, syncregs := q.syncedRegs.map fun r => (r, 0) }

/-- What the server needs to know of a quest's registers, and whether it needs to know any. -/
def recordQuest (env : SetupEnv) (q : Quest) (s : QuestRegs) : QuestRegs × Bool :=
  let s := if q.flag16 then { s with shortflagReg := q.serverFlag16Reg, flagShort := true } else s
  let s :=
    if q.dataFl then
      { s with dataReg := q.serverDataReg, ctlReg := q.serverCtlReg, flagData := true }
    else s
  let s :=
    if q.joinable then
      let s := { s with flagJoin := true }
      if q.syncRegs then setupSync env q s else s
    else s
  (s, q.flag16 || q.dataFl || q.joinable)

def recordQuests (env : SetupEnv) : List (Option Quest) → QuestRegs → QuestRegs
  | [], s => s
  | none :: qs, s => recordQuests env qs s
  | some q :: qs, s =>
    if (recordQuest env q s).2 then (recordQuest env q s).1
    else recordQuests env qs (recordQuest env q s).1

/-- `lobby_setup_quest`: the state of the lobby if the quest is loaded. -/
def lobbySetupQuest (env : SetupEnv) (l : SetupLobby) (qid : BitVec 32) (s : LobbyQuest) :
    Option LobbyQuest :=
  (findQuest env l qid).map fun found =>
    let s := loadQuestEnemies env l found.1 s
    { s with toQuestRegs := recordQuests env (found.2 l.version).toList s.toQuestRegs }

/-- A lobby that has not had a quest yet. -/
def LobbyQuest.blank : LobbyQuest where
  flagShort := false
  flagData := false
  flagJoin := false
  flagSync := false
  shortflagReg := 0
  dataReg := 0
  ctlReg := 0
  syncregs := []
  mids := []
  mtypes := []

/-- The first language with a register or with the join flag. -/
def speaker : List (Option Quest) → Option Quest
  | [] => none
  | none :: qs => speaker qs
  | some q :: qs => if q.flag16 ∨ q.dataFl ∨ q.joinable then some q else speaker qs

/-- What the quest does not set has not been set before. -/
structure Covered (env : SetupEnv) (l : SetupLobby) (qid : BitVec 32) (e : QuestMapElem)
    (s : LobbyQuest) : Prop where
  short : (speaker (e l.version).toList).any Quest.flag16 = true ∨
    s.flagShort = false ∧ s.shortflagReg = 0
  data : (speaker (e l.version).toList).any Quest.dataFl = true ∨
    s.flagData = false ∧ s.dataReg = 0 ∧ s.ctlReg = 0
  join : (speaker (e l.version).toList).any Quest.joinable = true ∨ s.flagJoin = false
  sync : (speaker (e l.version).toList).any (fun q => q.joinable && q.syncRegs) = true ∨
    s.flagSync = false ∧ s.syncregs = []
  mtypes : (questMonsters env l qid).isSome = true ∨ s.mtypes = []
  mids : (questMonsters env l qid).isSome = true ∧ env.mtypesAllocated = true ∨ s.mids = []

/-- Two lobbies come out of a quest alike in what it sets, and in what was alike before. -/
theorem recordQuest_eq_iff (env : SetupEnv) (q : Quest) (s s' : QuestRegs) :
    (recordQuest env q s).1 = (recordQuest env q s').1 ↔
      (q.flag16 = true ∨ s.flagShort = s'.flagShort ∧ s.shortflagReg = s'.shortflagReg) ∧
      (q.dataFl = true ∨ s.flagData = s'.flagData ∧ s.dataReg = s'.dataReg ∧
        s.ctlReg = s'.ctlReg) ∧
      (q.joinable = true ∨ s.flagJoin = s'.flagJoin) ∧
      ((q.joinable && q.syncRegs) = true ∨ s.flagSync = s'.flagSync ∧
        s.syncregs = s'.syncregs) := by
  rw [QuestRegs.ext_iff]
  unfold recordQuest setupSync
  -- sixteen kinds of quest, each of which sets some of the fields
  by_cases hfail : env.syncregsAllocated = false ∨ env.regvalsAllocated = false
  · cases h₁ : q.flag16 <;> cases h₂ : q.dataFl <;> cases h₃ : q.joinable <;>
      cases h₄ : q.syncRegs <;> simp [hfail] <;> tauto
  · cases h₁ : q.flag16 <;> cases h₂ : q.dataFl <;> cases h₃ : q.joinable <;>
      cases h₄ : q.syncRegs <;> simp [hfail] <;> tauto

/-- Of the languages only the first that has anything to say counts. -/
theorem recordQuests_eq (env : SetupEnv) (qs : List (Option Quest)) (s : QuestRegs) :
    recordQuests env qs s = (speaker qs).elim s fun q => (recordQuest env q s).1 := by
  induction qs with
  | nil => rfl
  | cons o qs ih =>
    cases o with
    | none => exact ih
    | some q =>
      rw [recordQuests, speaker]
      by_cases hspeaks : q.flag16 = true ∨ q.dataFl = true ∨ q.joinable = true
      · have hset : (recordQuest env q s).2 = true := by
          simpa [recordQuest, or_assoc] using hspeaks
        rw [if_pos hspeaks, if_pos hset]
        rfl
      · have hsilent : recordQuest env q s = (s, false) := by
          simp only [not_or, Bool.not_eq_true] at hspeaks
          simp [recordQuest, hspeaks.1, hspeaks.2.1, hspeaks.2.2]
        rw [if_neg hspeaks, hsilent, if_neg Bool.false_ne_true]
        exact ih

theorem recordQuests_eq_iff (env : SetupEnv) (qs : List (Option Quest)) (s s' : QuestRegs) :
    recordQuests env qs s = recordQuests env qs s' ↔
      ((speaker qs).any Quest.flag16 = true ∨
        s.flagShort = s'.flagShort ∧ s.shortflagReg = s'.shortflagReg) ∧
      ((speaker qs).any Quest.dataFl = true ∨
        s.flagData = s'.flagData ∧ s.dataReg = s'.dataReg ∧ s.ctlReg = s'.ctlReg) ∧
      ((speaker qs).any Quest.joinable = true ∨ s.flagJoin = s'.flagJoin) ∧
      ((speaker qs).any (fun q => q.joinable && q.syncRegs) = true ∨
        s.flagSync = s'.flagSync ∧ s.syncregs = s'.syncregs) := by
  rw [recordQuests_eq, recordQuests_eq]
  cases speaker qs with
  | none =>
    simp only [Option.elim_none, Option.any_none, Bool.false_eq_true, false_or]
    rw [QuestRegs.ext_iff]
    tauto
  | some q => exact recordQuest_eq_iff env q s s'

theorem loadQuestEnemies_regs (env : SetupEnv) (l : SetupLobby) (qid : BitVec 32)
    (s : LobbyQuest) : (loadQuestEnemies env l qid s).toQuestRegs = s.toQuestRegs := by
  unfold loadQuestEnemies
  cases questMonsters env l qid with
  | none => rfl
  | some q =>
    change (copyMonsters env q s).toQuestRegs = s.toQuestRegs
    unfold copyMonsters
    split_ifs <;> rfl

theorem lobbyQuest_eq_iff (s s' : LobbyQuest) :
    s = s' ↔ s.toQuestRegs = s'.toQuestRegs ∧ s.mids = s'.mids ∧ s.mtypes = s'.mtypes := by
  constructor
  · rintro rfl
    exact ⟨rfl, rfl, rfl⟩
  · obtain ⟨regs, mids, mtypes⟩ := s
    rintro ⟨rfl, rfl, rfl⟩
    rfl

/-- The lists of enemies are set if the quest has any, but without memory for the first list the
second stays as it was. -/
theorem loadQuestEnemies_lists_iff (env : SetupEnv) (l : SetupLobby) (qid : BitVec 32)
    (s s' : LobbyQuest) :
    ((loadQuestEnemies env l qid s).mids = (loadQuestEnemies env l qid s').mids ∧
        (loadQuestEnemies env l qid s).mtypes = (loadQuestEnemies env l qid s').mtypes) ↔
      ((questMonsters env l qid).isSome = true ∨ s.mtypes = s'.mtypes) ∧
      ((questMonsters env l qid).isSome = true ∧ env.mtypesAllocated = true ∨
        s.mids = s'.mids) := by
  unfold loadQuestEnemies
  cases questMonsters env l qid with
  | none =>
    simp only [Option.elim_none, Option.isSome_none, Bool.false_eq_true, false_and, false_or]
    exact and_comm
  | some q =>
    simp only [Option.elim_some, Option.isSome_some, true_or, true_and]
    unfold copyMonsters
    cases env.mtypesAllocated with
    | false => simp
    | true => cases env.midsAllocated <;> simp

/-- What a quest leaves in a lobby is what it leaves in one that has had no quest, just if the
earlier quests have left nothing in the fields that this one does not set. -/
theorem lobbySetupQuest_fresh_iff {env : SetupEnv} {l : SetupLobby} {qid qid' : BitVec 32}
    {e : QuestMapElem} (hfound : findQuest env l qid = some (qid', e)) (s : LobbyQuest) :
    lobbySetupQuest env l qid s = lobbySetupQuest env l qid LobbyQuest.blank ↔
      Covered env l qid' e s := by
  have hregs := recordQuests_eq_iff env (e l.version).toList s.toQuestRegs
    LobbyQuest.blank.toQuestRegs
  have hlists := loadQuestEnemies_lists_iff env l qid' s LobbyQuest.blank
  unfold lobbySetupQuest
  rw [hfound, Option.map_some, Option.map_some, Option.some_inj, lobbyQuest_eq_iff]
  dsimp only
  rw [loadQuestEnemies_regs, loadQuestEnemies_regs, hregs, hlists]
  constructor
  · rintro ⟨⟨hshort, hdata, hjoin, hsync⟩, hmtypes, hmids⟩
    exact ⟨hshort, hdata, hjoin, hsync, hmtypes, hmids⟩
  · intro h
    exact ⟨⟨h.short, h.data, h.join, h.sync⟩, h.mtypes, h.mids⟩

/-- A quest without registers or monsters. -/
def plainQuest : Quest where
  flag16 := false
  dataFl := false
  joinable := false
  syncRegs := false
  serverFlag16Reg := 0
  serverDataReg := 0
  serverCtlReg := 0
  syncedRegs := []
  monsterTypes := []
  monsterIds := []
  onloadScript := none
  beforeloadScript := none

/-- Quest 1 is plain, and quest 2 may be joined and syncs register 60. -/
def twoQuests (qid : BitVec 32) : Option QuestMapElem :=
  let inEnglish (q : Quest) : QuestMapElem :=
    fun _ => #v[none, some q, none, none, none, none, none, none]
  if qid = 1 then some (inEnglish plainQuest)
  else if qid = 2 then
    some (inEnglish { plainQuest with joinable := true, syncRegs := true, syncedRegs := [60] })
  else none

def easyEnv : SetupEnv where
  configured := true
  beforeQuestLoad := 0
  executeFile _ := 0
  questLookup := twoQuests
  mapCache _ _ := true
  mtypesAllocated := true
  midsAllocated := true
  syncregsAllocated := true
  regvalsAllocated := true

def v2Game : SetupLobby where
  version := .dcv2
  challenge := false
  battle := false

/-- A lobby that has loaded quest 2. -/
def afterJoinable : LobbyQuest :=
  (lobbySetupQuest easyEnv v2Game 2 LobbyQuest.blank).getD LobbyQuest.blank

theorem lobbySetupQuest_fresh_joinable : ∃ e, findQuest easyEnv v2Game 2 = some (2, e) ∧
    (lobbySetupQuest easyEnv v2Game 2 afterJoinable =
      lobbySetupQuest easyEnv v2Game 2 LobbyQuest.blank ↔
        Covered easyEnv v2Game 2 e afterJoinable) :=
  ⟨_, rfl, lobbySetupQuest_fresh_iff rfl afterJoinable⟩

/-- After quest 2 the plain quest can be joined, and syncs register 60. -/
theorem lobbySetupQuest_not_fresh :
    ¬ ∀ (env : SetupEnv) (l : SetupLobby) (qid : BitVec 32) (s : LobbyQuest),
      (findQuest env l qid).isSome = true →
        lobbySetupQuest env l qid s = lobbySetupQuest env l qid LobbyQuest.blank := by
  intro hall
  have hfresh := hall easyEnv v2Game 1 afterJoinable rfl
  exact absurd hfresh (by decide)

end ShipServer.QuestSetup
