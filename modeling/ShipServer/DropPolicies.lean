import ShipServer.SemiRares
import ShipServer.WeaponRolls

set_option autoImplicit false

namespace ShipServer.DropPolicies

open Versions DropItems DropGenerators MapDrops QuestSetup WeaponRolls

/-- `quest_search_enemy_list` for the entries with a mask. -/
def searchEnemyList (mask : BitVec 32) (id : ℕ) : List QEnemy → BitVec 32
  | [] => 0xFFFFFFFF
  | q :: rest =>
    if q.key = BitVec.ofNat 32 id ∧ q.mask &&& mask ≠ 0 then q.value &&& 0xFF
    else searchEnemyList mask id rest

theorem searchEnemyList_sdrops (env : DropEnv) (id : ℕ) (list : List QEnemy) :
    questSearchEnemyList env id list = searchEnemyList env.endropSdrops id list := by
  induction list with
  | nil => rfl
  | cons q rest ih => rw [questSearchEnemyList, searchEnemyList, ih]

/-- The `SYLVERANT_QUEST_ENDROP_*` masks and values that the ship is built with. -/
structure EndropValues where
  sdrops : BitVec 32
  cdrops : BitVec 32
  none : BitVec 32
  norare : BitVec 32
  partly : BitVec 32
  free : BitVec 32
  none_ne_free : none ≠ free
  none_lt : none < 0x100

/-- The lists of a quest, and an enemy of its map: its id and its index into the drop tables, which
is not that of the boxes. -/
structure QuestEnemy where
  mids : List QEnemy
  mtypes : List QEnemy
  mid : BitVec 16
  ptIndex : BitVec 8
  notBox : ptIndex ≠ 0x30

/-- What the quest says of the enemy to those who ask with a mask: ids before types. -/
def QuestEnemy.value (e : QuestEnemy) (mask : BitVec 32) : BitVec 32 :=
  if searchEnemyList mask e.mid.toNat e.mids = 0xFFFFFFFF then
    searchEnemyList mask e.ptIndex.toNat e.mtypes
  else searchEnemyList mask e.mid.toNat e.mids

/-- `handle_quest_itemreq`: whether the request goes on to the leader. -/
def handleQuestItemreq (vals : EndropValues) (version : ClientVersion) (mids mtypes : List QEnemy)
    (req : BitVec 16) (ptIndex : BitVec 8) : Bool :=
  let qdrop := if ptIndex ≠ 0x30 then searchEnemyList vals.cdrops req.toNat mids else 0xFFFFFFFF
  let qdrop :=
    if qdrop = 0xFFFFFFFF then searchEnemyList vals.cdrops ptIndex.toNat mtypes else qdrop
  if qdrop ≠ vals.free ∧ qdrop ≠ 0xFFFFFFFF then
    match version with
    | .dcv1 | .dcv2 | .pc => decide (qdrop ≠ vals.none)
    | .gc | .xbox => false
    | _ => true
  else true

/-- The ship's tables with its settings for quests. -/
def withSettings (vals : EndropValues) (rares srares : Bool) (tables : DropEnv) : DropEnv :=
  { tables with
    questRares := rares
    questSrares := srares
    endropSdrops := vals.sdrops
    endropNone := vals.none
    endropNorare := vals.norare
    endropPartial := vals.partly
    endropFree := vals.free }

/-- What a policy value makes of a server-side drop. The values are those of the quest's lists, and
everything else leaves the drop to the ship. -/
def effect (vals : EndropValues) (rares srares : Bool) (value : BitVec 32) : Option DropPolicy :=
  if value = vals.none then none
  else if value = vals.norare then some { doRare := false, csr := true }
  else if value = vals.partly then some { doRare := false, csr := false }
  else if value = vals.free then some { doRare := true, csr := false }
  else some { doRare := rares, csr := !srares }

/-- What a policy value makes of a request to the leader of a game. -/
def letsThrough (vals : EndropValues) (version : ClientVersion) (value : BitVec 32) : Bool :=
  decide (value = vals.free ∨ value = 0xFFFFFFFF) ||
    match version with
    | .gc | .xbox => false
    | _ => decide (value ≠ vals.none)

/-- A generator that a policy has been handed to. -/
def under (policy : Option DropPolicy) (G : Generation) : Generation :=
  { G with enemyPolicy := fun _ _ => policy }

/-- The drop of an enemy in a version, decided by a policy. -/
def enemyDropUnder (policy : Option DropPolicy) : Family → DropEnv → DropLobby → DropInput →
    GameMap → Rng → Attempt
  | .v2, env, l, r, map, rng =>
    if 0x33 < r.ptIndex then refuse (-1) map rng
    else
      match dropArea 1 r.curArea with
      | none => refuse (-1) map rng
      | some area => (under policy (v2Generation env l r)).enemyDrop area r map rng
  | .gc, env, l, r, map, rng =>
    match dropArea l.episode r.curArea with
    | none => refuse (-1) map rng
    | some area => (under policy (gcGeneration env l r)).enemyDrop area r map rng
  | .bb, env, l, r, map, rng =>
    if l.episode = 3 then refuse 0 map rng
    else
      match dropArea l.episode r.curArea with
      | none => refuse (-1) map rng
      | some area =>
        (under policy (bbGeneration env l r (l.episode - 1))).enemyDrop area r map rng

/-- A request for the enemy in a game with the quest. -/
structure Asks (e : QuestEnemy) (l : DropLobby) (r : DropInput) : Prop where
  quest : l.qid ≠ 0
  mids : l.mids = e.mids
  mtypes : l.mtypes = e.mtypes
  req : r.req = e.mid
  ptIndex : r.ptIndex = e.ptIndex

/-- The versions whose games have their drops from the leader. -/
def LeaderDrops (version : ClientVersion) : Prop :=
  version = .dcv1 ∨ version = .dcv2 ∨ version = .pc ∨ version = .gc ∨ version = .xbox

/-- The quest's policy for the enemy is what decides in every version, whatever the tables, the
rolls and the state of the map are, and an enemy that is set to drop nothing drops nothing. -/
structure Honoured (vals : EndropValues) (rares srares : Bool) (e : QuestEnemy) : Prop where
  server : ∀ family tables l r map rng, Asks e l r →
    dropfunc family (withSettings vals rares srares tables) l r map rng =
      enemyDropUnder (effect vals rares srares (e.value vals.sdrops)) family
        (withSettings vals rares srares tables) l r map rng
  client : ∀ version, LeaderDrops version →
    handleQuestItemreq vals version e.mids e.mtypes e.mid e.ptIndex =
      letsThrough vals version (e.value vals.cdrops)
  serverNothing : e.value vals.sdrops = vals.none → ∀ family tables l r map rng, Asks e l r →
    (dropfunc family (withSettings vals rares srares tables) l r map rng).chosen = none
  clientNothing : e.value vals.cdrops = vals.none → ∀ version, LeaderDrops version →
    handleQuestItemreq vals version e.mids e.mtypes e.mid e.ptIndex = false

section Settings

variable {vals : EndropValues} {rares srares : Bool} {tables : DropEnv} {e : QuestEnemy}
  {l : DropLobby} {r : DropInput}

theorem v2EnemyPolicy_eq (h : Asks e l r) :
    v2EnemyPolicy (withSettings vals rares srares tables) l r.req.toNat r.ptIndex.toNat =
      effect vals rares srares (e.value vals.sdrops) := by
  unfold v2EnemyPolicy
  rw [if_neg h.quest, h.mids, h.mtypes, h.req, h.ptIndex, searchEnemyList_sdrops,
    searchEnemyList_sdrops]
  rfl

theorem v3Policy_eq (h : Asks e l r) :
    v3Policy (withSettings vals rares srares tables) l = { doRare := rares, csr := !srares } := by
  unfold v3Policy
  rw [if_neg h.quest]
  rfl

theorem not_box (h : Asks e l r) : r.ptIndex ≠ 0x30 := by
  rw [h.ptIndex]
  exact e.notBox

/-- Only the policy for the requested enemy counts. -/
theorem enemyDrop_under {G : Generation} {policy : Option DropPolicy} {area : ℤ} {map : GameMap}
    {rng : Rng} (h : G.enemyPolicy r.req.toNat r.ptIndex.toNat = policy) :
    G.enemyDrop area r map rng = (under policy G).enemyDrop area r map rng := by
  have hitem : G.enemyItem area r.req.toNat r.ptIndex.toNat =
      (under policy G).enemyItem area r.req.toNat r.ptIndex.toNat := by
    unfold Generation.enemyItem
    rw [h]
    rfl
  unfold Generation.enemyDrop
  dsimp only
  rw [hitem]
  rfl

/-- The generator that a family uses takes the policy of `policyOf`. -/
theorem dropfunc_under (family : Family) (env : DropEnv) (h : r.ptIndex ≠ 0x30) (map : GameMap)
    (rng : Rng) :
    dropfunc family env l r map rng =
      enemyDropUnder (SemiRares.policyOf env l r family) family env l r map rng := by
  cases family with
  | v2 =>
    change ptGenerateV2Drop env l r map rng = _
    rw [ptGenerateV2Drop, enemyDropUnder, if_neg h, SemiRares.policyOf, if_neg h]
    cases dropArea 1 r.curArea with
    | none => rfl
    | some area =>
      dsimp only
      rw [enemyDrop_under (G := v2Generation env l r) rfl]
      rfl
  | gc =>
    change ptGenerateGcDrop env l r map rng = _
    rw [ptGenerateGcDrop, enemyDropUnder, if_neg h]
    cases dropArea l.episode r.curArea with
    | none => rfl
    | some area => exact enemyDrop_under rfl
  | bb =>
    change ptGenerateBbDrop env l r map rng = _
    rw [ptGenerateBbDrop, enemyDropUnder, if_neg h]
    cases dropArea l.episode r.curArea with
    | none => rfl
    | some area =>
      dsimp only
      rw [enemyDrop_under (G := bbGeneration env l r (l.episode - 1)) rfl]
      rfl

/-- What has been handed no drop gives none. -/
theorem under_none (G : Generation) (area : ℤ) (r : DropInput) (map : GameMap) (rng : Rng) :
    ((under none G).enemyDrop area r map rng).chosen = none := by
  rw [Option.eq_none_iff_forall_ne_some]
  intro it hit
  obtain ⟨policy, hpolicy, -⟩ := SemiRares.enemyDrop_sent hit
  cases hpolicy

theorem enemyDropUnder_none (family : Family) (env : DropEnv) (l : DropLobby) (r : DropInput)
    (map : GameMap) (rng : Rng) : (enemyDropUnder none family env l r map rng).chosen = none := by
  have harea (G : Generation) (place : Option ℤ) :
      (match place with
        | none => refuse (-1) map rng
        | some area => (under none G).enemyDrop area r map rng).chosen = none := by
    cases place with
    | none => rfl
    | some area => exact under_none G area r map rng
  cases family with
  | v2 =>
    rw [enemyDropUnder]
    split
    · rfl
    · exact harea _ _
  | gc => exact harea _ _
  | bb =>
    rw [enemyDropUnder]
    split
    · rfl
    · exact harea _ _

/-- The interception looks the enemy up under its own mask, and the value decides. -/
theorem handleQuestItemreq_eq (vals : EndropValues) (e : QuestEnemy) {version : ClientVersion}
    (hversion : LeaderDrops version) :
    handleQuestItemreq vals version e.mids e.mtypes e.mid e.ptIndex =
      letsThrough vals version (e.value vals.cdrops) := by
  have hvalue : (if searchEnemyList vals.cdrops e.mid.toNat e.mids = 0xFFFFFFFF then
      searchEnemyList vals.cdrops e.ptIndex.toNat e.mtypes
      else searchEnemyList vals.cdrops e.mid.toNat e.mids) = e.value vals.cdrops := rfl
  unfold handleQuestItemreq letsThrough
  rw [if_pos e.notBox]
  dsimp only
  rw [hvalue]
  by_cases h : e.value vals.cdrops = vals.free ∨ e.value vals.cdrops = 0xFFFFFFFF
  · rw [if_neg (fun h' => h.elim h'.1 h'.2), decide_eq_true h, Bool.true_or]
  · rw [if_pos (not_or.mp h), decide_eq_false h, Bool.false_or]
    rcases hversion with rfl | rfl | rfl | rfl | rfl <;> rfl

theorem letsThrough_none (vals : EndropValues) {version : ClientVersion}
    (hversion : LeaderDrops version) : letsThrough vals version vals.none = false := by
  have hfound : vals.none ≠ 0xFFFFFFFF := by
    intro h
    have := vals.none_lt
    rw [h] at this
    exact absurd this (by decide)
  have hclosed : ¬(vals.none = vals.free ∨ vals.none = 0xFFFFFFFF) :=
    not_or.mpr ⟨vals.none_ne_free, hfound⟩
  unfold letsThrough
  rw [decide_eq_false hclosed, Bool.false_or]
  rcases hversion with rfl | rfl | rfl | rfl | rfl
  · exact decide_eq_false (not_not.mpr rfl)
  · exact decide_eq_false (not_not.mpr rfl)
  · exact decide_eq_false (not_not.mpr rfl)
  · rfl
  · rfl

/-- What the families other than v2 go by: the settings of the ship. -/
def shipDrops (rares srares : Bool) : DropPolicy := { doRare := rares, csr := !srares }

theorem policyOf_eq (h : Asks e l r) (family : Family) :
    SemiRares.policyOf (withSettings vals rares srares tables) l r family =
      match family with
      | .v2 => effect vals rares srares (e.value vals.sdrops)
      | _ => some (shipDrops rares srares) := by
  cases family with
  | v2 =>
    rw [SemiRares.policyOf, if_neg (not_box h)]
    exact v2EnemyPolicy_eq h
  | gc => exact congrArg some (v3Policy_eq h)
  | bb => exact congrArg some (v3Policy_eq h)

end Settings

section Tables

/-- Enemies that always leave something: five meseta, or a Monomate where rares are rolled for and
there are tables of them. -/
def tellingTables (rt : Option RtSet) : DropEnv :=
  { mesetaOnly with
    rules := { mesetaOnly.rules with realBelow := fun _ _ => true }
    gcRt := rt.map fun set _ _ _ => set }

/-- Rares that are Monomates. -/
def monomates : RtSet where
  enemyRares _ := ⟨0, 0x00000003, 0⟩
  boxRares := []

/-- A Blue Burst game with the quest, and a request for the enemy. -/
def questGame (e : QuestEnemy) : DropLobby :=
  { forest with version := .bb, qid := 1, mids := e.mids, mtypes := e.mtypes }

def questRequest (e : QuestEnemy) : DropInput :=
  { forestRequest e.ptIndex with version := .bb, req := e.mid }

theorem asks_questGame (e : QuestEnemy) : Asks e (questGame e) (questRequest e) := by
  refine ⟨?_, rfl, rfl, rfl, rfl⟩
  change (1 : BitVec 32) ≠ 0
  decide

/-- A map with so many enemies, none of which has dropped anything. -/
def fullMap (e : QuestEnemy) : GameMap := ⟨List.replicate (e.mid.toNat + 1) ⟨false⟩, []⟩

def twos : Rng := fun _ => 2

theorem bb_decides (vals : EndropValues) (rares srares : Bool) (rt : Option RtSet)
    (policy : Option DropPolicy) (e : QuestEnemy) :
    let env := withSettings vals rares srares (tellingTables rt)
    let drop := enemyDropUnder policy .bb env (questGame e) (questRequest e) (fullMap e) twos
    let G := under policy (bbGeneration env (questGame e) (questRequest e) 0)
    drop.chosen = ((G.enemyItem 0 e.mid.toNat e.ptIndex.toNat) twos).1.map Prod.fst ∧
      drop.sent = ((G.enemyItem 0 e.mid.toNat e.ptIndex.toNat) twos).1.bind
        fun it => checkAndSendBb env it.1 it.2.csr := by
  intro env drop G
  have hdrop : drop = G.enemyDrop 0 (questRequest e) (fullMap e) twos := rfl
  have hlen : ¬(fullMap e).enemies.length < (questRequest e).req.toNat := by
    change ¬(List.replicate (e.mid.toNat + 1) (⟨false⟩ : GameEnemy)).length < e.mid.toNat
    rw [List.length_replicate]
    omega
  have hget : (((fullMap e).enemies[(questRequest e).req.toNat]?).getD
      (questRequest e).behindEnemies).dropDone = false := by
    change (((List.replicate (e.mid.toNat + 1) (⟨false⟩ : GameEnemy))[e.mid.toNat]?).getD
      ⟨false⟩).dropDone = false
    rw [List.getElem?_replicate, if_pos (Nat.lt_succ_self _)]
    rfl
  rw [hdrop]
  unfold Generation.enemyDrop
  dsimp only
  rw [if_neg hlen, hget]
  exact ⟨rfl, rfl⟩

/-- Without tables of rares there are five meseta, if there is anything. -/
theorem meseta_run (vals : EndropValues) (rares srares : Bool) (policy : Option DropPolicy)
    (e : QuestEnemy) :
    (((under policy (bbGeneration (withSettings vals rares srares (tellingTables none))
      (questGame e) (questRequest e) 0)).enemyItem 0 e.mid.toNat e.ptIndex.toNat) twos).1 =
      policy.map fun p => (⟨4, 0, 0, 5⟩, p) := by
  rcases policy with - | ⟨doRare, csr⟩
  · rfl
  · cases doRare <;> rfl

theorem rare_run (vals : EndropValues) (rares srares : Bool) (csr : Bool) (e : QuestEnemy) :
    (((under (some ⟨false, csr⟩)
      (bbGeneration (withSettings vals rares srares (tellingTables (some monomates)))
      (questGame e) (questRequest e) 0)).enemyItem 0 e.mid.toNat e.ptIndex.toNat) twos).1 =
      some (⟨4, 0, 0, 5⟩, ⟨false, csr⟩) := by
  rfl

/-- The index into the tables of rares may be out of range, and then nothing drops at all. -/
theorem monomates_run (rules : ItemRules) (hrules : ∀ rnd rt, rules.realBelow rnd rt = true)
    (i : ℕ) (rng : Rng) :
    (rtGenerateRare rules (some monomates) i 0 rng).1 = if 100 < i then -1 else 3 := by
  unfold rtGenerateRare
  dsimp only
  by_cases h : 100 < i
  · rw [if_pos h, if_pos (Or.inr (by omega))]
    rfl
  · rw [if_neg h, if_neg (by omega), if_pos (Int.natCast_nonneg i)]
    change ((if rules.realBelow (rng 0) 0 = true then (pure 3 : Gen (BitVec 32)) else pure 0)
      fun n => rng (n + 1)).1 = 3
    rw [if_pos (hrules _ _)]
    rfl

theorem monomate_run (vals : EndropValues) (rares srares : Bool) (csr : Bool) (e : QuestEnemy) :
    (((under (some ⟨true, csr⟩)
      (bbGeneration (withSettings vals rares srares (tellingTables (some monomates)))
      (questGame e) (questRequest e) 0)).enemyItem 0 e.mid.toNat e.ptIndex.toNat) twos).1.map
      Prod.fst ≠ some ⟨4, 0, 0, 5⟩ := by
  set G := under (some ⟨true, csr⟩)
    (bbGeneration (withSettings vals rares srares (tellingTables (some monomates)))
      (questGame e) (questRequest e) 0) with hG
  have hrare : (G.rare e.ptIndex.toNat 0 twos).1 = if 100 < e.ptIndex.toNat then -1 else 3 :=
    monomates_run _ (fun _ _ => rfl) _ _
  have hrun : (G.enemyItem 0 e.mid.toNat e.ptIndex.toNat twos).1.map Prod.fst =
      ((if (G.rare e.ptIndex.toNat 0 twos).1 ≠ 0 then
          G.rareItem 0 (G.rare e.ptIndex.toNat 0 twos).1
        else G.commonEnemy 0 e.ptIndex.toNat) (G.rare e.ptIndex.toNat 0 twos).2).1 := by
    change Option.map Prod.fst (Option.map (fun it => (it, (⟨true, csr⟩ : DropPolicy))) _) = _
    rw [Option.map_map]
    exact Option.map_id'
  rw [hrun, hrare]
  by_cases h : 100 < e.ptIndex.toNat
  · rw [if_pos h, if_pos (by decide)]
    intro h'
    cases h'
  · rw [if_neg h, if_pos (by decide)]
    intro h'
    cases h'

/-- In these tables two policies that decide alike are the same. -/
theorem policy_told {vals : EndropValues} {rares srares : Bool} {e : QuestEnemy}
    {policy : Option DropPolicy} {ship : DropPolicy}
    (h : ∀ rt, enemyDropUnder (some ship) .bb (withSettings vals rares srares (tellingTables rt))
        (questGame e) (questRequest e) (fullMap e) twos =
      enemyDropUnder policy .bb (withSettings vals rares srares (tellingTables rt))
        (questGame e) (questRequest e) (fullMap e) twos) : policy = some ship := by
  have hship := bb_decides vals rares srares none (some ship) e
  have hquest := bb_decides vals rares srares none policy e
  dsimp only at hship hquest
  rw [meseta_run] at hship hquest
  have hchosen := hship.1.symm.trans ((congrArg Attempt.chosen (h none)).trans hquest.1)
  have hsent := hship.2.symm.trans ((congrArg Attempt.sent (h none)).trans hquest.2)
  rcases policy with - | ⟨doRare, csr⟩
  · cases hchosen
  obtain ⟨doRare', csr'⟩ := ship
  have hcsr : csr = csr' := by
    cases csr with
    | false =>
      cases csr' with
      | false => rfl
      | true => exact nomatch (show none = some (⟨4, 0, 0, 5⟩ : ItemWords) from hsent)
    | true =>
      cases csr' with
      | false => exact nomatch (show some (⟨4, 0, 0, 5⟩ : ItemWords) = none from hsent)
      | true => rfl
  have hrare : doRare = doRare' := by
    have hship' := (bb_decides vals rares srares (some monomates) (some ⟨doRare', csr'⟩) e).1
    have hquest' := (bb_decides vals rares srares (some monomates) (some ⟨doRare, csr⟩) e).1
    have heq := hship'.symm.trans ((congrArg Attempt.chosen (h (some monomates))).trans hquest')
    cases doRare with
    | false =>
      cases doRare' with
      | false => rfl
      | true =>
        rw [rare_run] at heq
        exact absurd heq (monomate_run vals rares srares csr' e)
    | true =>
      cases doRare' with
      | false =>
        rw [rare_run] at heq
        exact absurd heq.symm (monomate_run vals rares srares csr e)
      | true => rfl
  rw [hrare, hcsr]

end Tables

/-- The policy of a quest for an enemy is honoured everywhere exactly when it is what the ship does
without one. -/
theorem honoured_iff (vals : EndropValues) (rares srares : Bool) (e : QuestEnemy) :
    Honoured vals rares srares e ↔
      effect vals rares srares (e.value vals.sdrops) = some (shipDrops rares srares) := by
  constructor
  · intro h
    refine @policy_told vals rares srares e _ _ fun rt => ?_
    have hasks := asks_questGame e
    rw [← h.server .bb (tellingTables rt) _ _ (fullMap e) twos hasks,
      dropfunc_under .bb _ (not_box hasks), policyOf_eq hasks]
  · intro h
    have hserver : ∀ family tables l r map rng, Asks e l r →
        dropfunc family (withSettings vals rares srares tables) l r map rng =
          enemyDropUnder (effect vals rares srares (e.value vals.sdrops)) family
            (withSettings vals rares srares tables) l r map rng := by
      intro family tables l r map rng hasks
      rw [dropfunc_under family _ (not_box hasks), policyOf_eq hasks, h]
      cases family <;> rfl
    refine ⟨hserver, fun version hversion => handleQuestItemreq_eq vals e hversion, ?_, ?_⟩
    · intro hnone family tables l r map rng hasks
      rw [hserver family tables l r map rng hasks, effect, if_pos hnone]
      exact enemyDropUnder_none _ _ _ _ _ _
    · intro hnone version hversion
      rw [handleQuestItemreq_eq vals e hversion, hnone]
      exact letsThrough_none vals hversion

/-- The values in the order of the list, and the two masks. -/
def plainValues : EndropValues where
  sdrops := 1
  cdrops := 2
  none := 0
  norare := 1
  partly := 2
  free := 3
  none_ne_free := by decide
  none_lt := by decide

/-- A quest in which the enemy with the id 0 is to drop nothing. -/
def barrenQuest : QuestEnemy where
  mids := [⟨0, 3, 0⟩]
  mtypes := []
  mid := 0
  ptIndex := 0
  notBox := by decide

/-- The enemy drops meseta in a GameCube game all the same. -/
theorem not_honoured : ¬∀ vals rares srares e, Honoured vals rares srares e := by
  intro h
  have hasks : Asks barrenQuest { forest with qid := 1, mids := [⟨0, 3, 0⟩] } (forestRequest 0) :=
    ⟨by decide, rfl, rfl, rfl, rfl⟩
  have hnothing := (h plainValues false false barrenQuest).serverNothing (by decide) .gc mesetaOnly
    _ _ ⟨[⟨false⟩], []⟩ (fun _ => 2) hasks
  exact absurd hnothing (by decide)

end ShipServer.DropPolicies
