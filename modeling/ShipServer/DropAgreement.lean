import ShipServer.CoupledRuns
import ShipServer.MapDrops

set_option autoImplicit false

namespace ShipServer.DropAgreement

open Versions CoupledRuns DropItems DropGenerators

/-- Two items, if any, that are the same up to the encoding of a mag. -/
def SameItem (gc bb : Option ItemWords) : Prop :=
  gc = bb ∨ gc = some gcMag ∧ bb = some bbMag

/-- What the functions of the two generations are to agree on: on the item they choose, and, where
the last checks let everything through, on the one they send. -/
structure Agree (unchecked : Prop) (gc bb : Attempt) : Prop where
  chosen : SameItem gc.chosen bb.chosen
  rng : gc.rng = bb.rng
  map : gc.map = bb.map
  sent : unchecked → SameItem gc.sent bb.sent

/-- Two games and two requests that differ in the generation only. -/
structure SameGiven (env : DropEnv) (gc bb : DropLobby) (rGc rBb : DropInput) : Prop where
  pt : env.gcPt = env.bbPt
  pmt : env.gcPmt = env.bbPmt
  episode : gc.episode = bb.episode
  difficulty : gc.difficulty = bb.difficulty
  sectionId : gc.v1Section = bb.bbSection
  qid : gc.qid = bb.qid
  curArea : rGc.curArea = rBb.curArea
  ptIndex : rGc.ptIndex = rBb.ptIndex
  req : rGc.req = rBb.req
  behindEnemies : rGc.behindEnemies = rBb.behindEnemies
  behindObjs : rGc.behindObjs = rBb.behindObjs

def enemyOf (map : GameMap) (r : DropInput) : GameEnemy :=
  (map.enemies[r.req.toNat]?).getD r.behindEnemies

def boxOf (map : GameMap) (r : DropInput) : GameObject :=
  (map.objs[r.req.toNat]?).getD r.behindObjs

/-- No item is too good to be sent. -/
def Unchecked (env : DropEnv) (gc : DropLobby) : Prop :=
  (v3Policy env gc).csr = false ∧ gc.limits = none

/-- The checks before anything is drawn let the request through. -/
def Accepted (episode : ℤ) (map : GameMap) (r : DropInput) : Prop :=
  dropArea episode r.curArea ≠ none ∧
    if r.ptIndex = 0x30 then
      r.req.toNat ≤ map.objs.length ∧ (boxOf map r).flags &&& 0x00000001 = 0
    else r.req.toNat ≤ map.enemies.length ∧ (enemyOf map r).dropDone = false

/-- The rares that a request may roll for. -/
def rollable (set : Option RtSet) (rtIndex : ℤ) (area : ℤ) : List RtData :=
  match set with
  | none => []
  | some set =>
    if rtIndex < -1 ∨ 100 < rtIndex then []
    else if 0 ≤ rtIndex then [set.enemyRares rtIndex.toNat]
    else set.boxRares.filter fun rt => rt.area = BitVec.ofInt 32 area

/-- The rares of a request in the set of a section ID. -/
def raresFor (env : DropEnv) (l : DropLobby) (r : DropInput) (v1Section : ℤ) : List RtData :=
  let set := env.gcRt.map fun t => t (l.episode - 1) l.difficulty v1Section
  if r.ptIndex = 0x30 then rollable set (-1) ((dropArea l.episode r.curArea).getD 0 + 1)
  else rollable set r.ptIndex.toNat 0

/-- A rare is rolled for: the policy allows it, and the box is not of a fixed type, or the enemy is
to drop anything at all. -/
def RollsRare (env : DropEnv) (l : DropLobby) (map : GameMap) (rng : Rng) (r : DropInput) : Prop :=
  (v3Policy env l).doRare = true ∧
    if r.ptIndex = 0x30 then Generation.fixedType (boxOf map r) = false
    else
      let ent := env.bbPt (l.episode - 1) l.difficulty l.bbSection
      rng 0 % 100 < (ent.enemyDar r.ptIndex.toNat).signExtend 32

def isUnit (item0 : BitVec 32) : Prop :=
  part item0 0 = 1 ∧ part item0 1 = 3

/-- What keeps a request that is let through from meeting a difference between the generations:
the fourth episode, the entry that boxes are given, the section ID of the rares, and the words of a
rare unit that are never set. -/
structure Undisturbed (env : DropEnv) (l : DropLobby) (map : GameMap) (rng : Rng)
    (rGc rBb : DropInput) : Prop where
  episode : l.episode ≠ 3
  entry : rBb.ptIndex = 0x30 → Generation.fullyFixed (boxOf map rBb) = false →
    env.bbPt l.episode l.difficulty l.bbSection = env.bbPt (l.episode - 1) l.difficulty l.bbSection
  rares : RollsRare env l map rng rBb →
    raresFor env l rBb l.bbSection = raresFor env l rBb l.v1Section
  units : RollsRare env l map rng rBb →
    (∃ rt ∈ raresFor env l rBb l.bbSection, isUnit rt.itemData) → rGc.unset = rBb.unset

section Rares

variable {rules : ItemRules} {area : BitVec 32}

/-- Box entries of other areas do not count. -/
theorem rollBoxes_filter (rts : List RtData) :
    rollBoxes rules area (rts.filter fun rt => rt.area = area) = rollBoxes rules area rts := by
  induction rts with
  | nil => rfl
  | cons rt rts ih =>
    by_cases harea : rt.area = area
    · rw [List.filter_cons_of_pos (by simpa using harea)]
      rw [rollBoxes, rollBoxes, if_pos harea, if_pos harea, ih]
    · rw [List.filter_cons_of_neg (by simpa using harea), ih, rollBoxes, if_neg harea]

/-- A rare is what one of the entries has, or nothing. -/
def RareOf (rts : List RtData) (item0 : BitVec 32) : Prop :=
  item0 = 0 ∨ item0 = -1 ∨ ∃ rt ∈ rts, item0 = rt.itemData

theorem rollBoxes_rareOf (rts : List RtData) (rng : Rng) :
    RareOf (rts.filter fun rt => rt.area = area) ((rollBoxes rules area rts).run rng).1 := by
  induction rts generalizing rng with
  | nil => exact Or.inl rfl
  | cons rt rts ih =>
    unfold rollBoxes
    by_cases harea : rt.area = area
    · rw [List.filter_cons_of_pos (by simpa using harea), if_pos harea]
      by_cases hroll : rules.realBelow (rng 0) rt.prob = true
      · refine Or.inr (Or.inr ⟨rt, List.mem_cons_self, ?_⟩)
        change ((if rules.realBelow (rng 0) rt.prob then pure rt.itemData
          else rollBoxes rules area rts : Gen (BitVec 32)).run _).1 = rt.itemData
        rw [if_pos hroll]
        rfl
      · change RareOf _ ((if rules.realBelow (rng 0) rt.prob then pure rt.itemData
          else rollBoxes rules area rts : Gen (BitVec 32)).run _).1
        rw [if_neg hroll]
        obtain hzero | hbad | ⟨found, hmem, hitem⟩ := ih fun n => rng (n + 1)
        · exact Or.inl hzero
        · exact Or.inr (Or.inl hbad)
        · exact Or.inr (Or.inr ⟨found, List.mem_cons_of_mem rt hmem, hitem⟩)
    · rw [List.filter_cons_of_neg (by simpa using harea), if_neg harea]
      exact ih rng

/-- Two sets with the same rares to roll for give the same rare. -/
theorem rtGenerateRare_congr {set set' : RtSet} {rtIndex a : ℤ}
    (h : rollable (some set) rtIndex a = rollable (some set') rtIndex a) :
    rtGenerateRare rules (some set) rtIndex a = rtGenerateRare rules (some set') rtIndex a := by
  unfold rtGenerateRare
  unfold rollable at h
  dsimp only at h ⊢
  by_cases hbad : rtIndex < -1 ∨ 100 < rtIndex
  · rw [if_pos hbad, if_pos hbad]
  · rw [if_neg hbad, if_neg hbad] at h
    rw [if_neg hbad, if_neg hbad]
    by_cases henemy : 0 ≤ rtIndex
    · rw [if_pos henemy, if_pos henemy] at h
      rw [if_pos henemy, if_pos henemy, List.head_eq_of_cons_eq h]
    · rw [if_neg henemy, if_neg henemy] at h
      rw [if_neg henemy, if_neg henemy, ← rollBoxes_filter, h, rollBoxes_filter]

theorem rtGenerateRare_map_congr {α : Type} {t : Option α} {f g : α → RtSet} {rtIndex a : ℤ}
    (h : rollable (t.map f) rtIndex a = rollable (t.map g) rtIndex a) :
    rtGenerateRare rules (t.map f) rtIndex a = rtGenerateRare rules (t.map g) rtIndex a := by
  cases t with
  | none => rfl
  | some t => exact rtGenerateRare_congr h

theorem rtGenerateRare_rareOf (set : Option RtSet) (rtIndex a : ℤ) (rng : Rng) :
    RareOf (rollable set rtIndex a) ((rtGenerateRare rules set rtIndex a).run rng).1 := by
  cases set with
  | none => exact Or.inl rfl
  | some set =>
    unfold rtGenerateRare rollable
    dsimp only
    by_cases hbad : rtIndex < -1 ∨ 100 < rtIndex
    · rw [if_pos hbad, if_pos hbad]
      exact Or.inr (Or.inl rfl)
    · rw [if_neg hbad, if_neg hbad]
      by_cases henemy : 0 ≤ rtIndex
      · rw [if_pos henemy, if_pos henemy]
        change RareOf _ ((if rules.realBelow (rng 0) (set.enemyRares rtIndex.toNat).prob then
          pure (set.enemyRares rtIndex.toNat).itemData else pure 0 : Gen (BitVec 32)).run _).1
        split_ifs
        · exact Or.inr (Or.inr ⟨_, List.mem_singleton_self _, rfl⟩)
        · exact Or.inl rfl
      · rw [if_neg henemy, if_neg henemy]
        exact rollBoxes_rareOf set.boxRares rng

theorem RareOf.isUnit {rts : List RtData} {item0 : BitVec 32} (h : RareOf rts item0)
    (hunit : isUnit item0) : ∃ rt ∈ rts, DropAgreement.isUnit rt.itemData := by
  obtain hzero | hbad | ⟨rt, hmem, hitem⟩ := h
  · subst hzero
    exact absurd hunit.1 (by decide)
  · subst hbad
    exact absurd hunit.1 (by decide)
  · subst hitem
    exact ⟨rt, hmem, hunit⟩

end Rares

theorem coupled_sameItem (rng : Rng) (x : Gen (Option ItemWords)) : CoupledAt rng SameItem x x :=
  (coupledAt_refl x).mono fun _ _ h => Or.inl h

/-- Two items with the policy that applies to both. -/
def SameDrop (policy : DropPolicy) (gc bb : Option (ItemWords × DropPolicy)) : Prop :=
  ∃ a b, SameItem a b ∧ gc = a.map (fun it => (it, policy)) ∧ bb = b.map fun it => (it, policy)

def withPolicy (policy : DropPolicy) (x : Gen (Option ItemWords)) :
    Gen (Option (ItemWords × DropPolicy)) := do
  let item ← x
  return item.map fun it => (it, policy)

theorem coupled_withPolicy {rng : Rng} {policy : DropPolicy} {x y : Gen (Option ItemWords)}
    (h : CoupledAt rng SameItem x y) :
    CoupledAt rng (SameDrop policy) (withPolicy policy x) (withPolicy policy y) :=
  h.bind fun a b hab => coupledAt_pure ⟨a, b, hab, rfl, rfl⟩

theorem boxItem_eq {G : Generation} {policy : DropPolicy} (h : G.boxPolicy = some policy)
    (area : ℤ) (obj : GameObject) :
    G.boxItem area obj = withPolicy policy (
      if Generation.fixedType obj then
        if Generation.fullyFixed obj then pure (some (G.fixedItem obj))
        else G.fixedTypeItem area obj
      else G.orRare area policy (-1) (area + 1) (G.commonBox area)) := by
  unfold Generation.boxItem
  rw [h]
  rfl

section Siblings

variable {env : DropEnv} {gc bb : DropLobby} {rGc rBb : DropInput} {ent : PtEntry} {pmt : Pmt}
variable {send send' : ItemWords → Bool → Option ItemWords} {rng : Rng} {area : ℤ}

theorem coupled_rareItem {item0 : BitVec 32} (hunit : isUnit item0 → rGc.unset = rBb.unset) :
    CoupledAt rng SameItem
      ((v3Generation env gc rGc ent pmt gcMag send).rareItem area item0)
      ((v3Generation env bb rBb ent pmt bbMag send').rareItem area item0) := by
  unfold Generation.rareItem
  split_ifs with hweapon hguard harmor hshield hkind hmag htool
  · exact coupled_sameItem rng _
  · exact coupled_sameItem rng _
  · exact coupled_sameItem rng _
  · have hsame : rareUnit rGc item0 = rareUnit rBb item0 := by
      unfold rareUnit
      rw [hunit ⟨hguard, hkind⟩]
    exact coupledAt_pure (Or.inl (congrArg some hsame))
  · exact coupled_sameItem rng _
  · exact coupledAt_pure (Or.inr ⟨rfl, rfl⟩)
  · exact coupled_sameItem rng _
  · exact coupled_sameItem rng _

/-- The rares that a generator of the later generations looks at. -/
def lookedAt (env : DropEnv) (l : DropLobby) (rtIndex a : ℤ) : List RtData :=
  rollable (env.gcRt.map fun t => t (l.episode - 1) l.difficulty l.v1Section) rtIndex a

theorem coupled_orRare {policy : DropPolicy} {rtIndex a : ℤ} {common : Gen (Option ItemWords)}
    (hrares : policy.doRare = true → lookedAt env gc rtIndex a = lookedAt env bb rtIndex a)
    (hunits : policy.doRare = true →
      (∃ rt ∈ lookedAt env gc rtIndex a, isUnit rt.itemData) → rGc.unset = rBb.unset) :
    CoupledAt rng SameItem
      ((v3Generation env gc rGc ent pmt gcMag send).orRare area policy rtIndex a common)
      ((v3Generation env bb rBb ent pmt bbMag send').orRare area policy rtIndex a common) := by
  unfold Generation.orRare
  refine CoupledAt.bind (R := fun x y => x = y ∧ (isUnit x → rGc.unset = rBb.unset)) ?_ ?_
  · by_cases hroll : policy.doRare = true
    · rw [if_pos hroll, if_pos hroll]
      change CoupledAt rng _ (rtGenerateRare _ _ _ _) (rtGenerateRare _ _ _ _)
      rw [← rtGenerateRare_map_congr (hrares hroll)]
      refine coupledAt_same (Q := fun x => isUnit x → rGc.unset = rBb.unset) ?_
      intro hunit
      exact hunits hroll ((rtGenerateRare_rareOf _ rtIndex a rng).isUnit hunit)
    · rw [if_neg hroll, if_neg hroll]
      refine coupledAt_pure ⟨rfl, ?_⟩
      intro hunit
      exact absurd hunit.1 (by decide)
  · rintro item0 _ ⟨rfl, hunit⟩
    by_cases hrare : item0 ≠ 0
    · rw [if_pos hrare, if_pos hrare]
      exact coupled_rareItem hunit
    · rw [if_neg hrare, if_neg hrare]
      exact coupled_sameItem _ common

theorem v3Policy_eq (hqid : gc.qid = bb.qid) : v3Policy env gc = v3Policy env bb := by
  unfold v3Policy
  rw [hqid]

theorem v3Generation_boxPolicy (hqid : gc.qid = bb.qid) :
    (v3Generation env gc rGc ent pmt gcMag send).boxPolicy = some (v3Policy env bb) :=
  congrArg some (v3Policy_eq hqid)

theorem coupled_enemyItem {mid i : ℕ} (hqid : gc.qid = bb.qid)
    (hrares : (v3Policy env bb).doRare = true →
      rng 0 % 100 < (ent.enemyDar i).signExtend 32 → lookedAt env gc i 0 = lookedAt env bb i 0)
    (hunits : (v3Policy env bb).doRare = true → rng 0 % 100 < (ent.enemyDar i).signExtend 32 →
      (∃ rt ∈ lookedAt env gc i 0, isUnit rt.itemData) → rGc.unset = rBb.unset) :
    CoupledAt rng (SameDrop (v3Policy env bb))
      ((v3Generation env gc rGc ent pmt gcMag send).enemyItem area mid i)
      ((v3Generation env bb rBb ent pmt bbMag send').enemyItem area mid i) := by
  unfold Generation.enemyItem
  refine (coupledAt_same (Q := fun rnd => rnd = rng 0) rfl).bind ?_
  rintro _ _ ⟨rfl, rfl⟩
  change CoupledAt _ _ (if ¬rng 0 % 100 < (ent.enemyDar i).signExtend 32 then _ else _)
    (if ¬rng 0 % 100 < (ent.enemyDar i).signExtend 32 then _ else _)
  by_cases hdar : rng 0 % 100 < (ent.enemyDar i).signExtend 32
  · rw [if_neg (not_not.mpr hdar), if_neg (not_not.mpr hdar)]
    change CoupledAt _ _
      (withPolicy (v3Policy env gc) (Generation.orRare _ area (v3Policy env gc) i 0 _)) _
    rw [v3Policy_eq hqid]
    exact coupled_withPolicy (coupled_orRare (fun h => hrares h hdar) (fun h => hunits h hdar))
  · rw [if_pos hdar, if_pos hdar]
    exact coupledAt_pure ⟨none, none, Or.inl rfl, rfl, rfl⟩

theorem coupled_boxItem {obj : GameObject} (hqid : gc.qid = bb.qid)
    (hrares : (v3Policy env bb).doRare = true → Generation.fixedType obj = false →
      lookedAt env gc (-1) (area + 1) = lookedAt env bb (-1) (area + 1))
    (hunits : (v3Policy env bb).doRare = true → Generation.fixedType obj = false →
      (∃ rt ∈ lookedAt env gc (-1) (area + 1), isUnit rt.itemData) → rGc.unset = rBb.unset) :
    CoupledAt rng (SameDrop (v3Policy env bb))
      ((v3Generation env gc rGc ent pmt gcMag send).boxItem area obj)
      ((v3Generation env bb rBb ent pmt bbMag send').boxItem area obj) := by
  rw [boxItem_eq (v3Generation_boxPolicy hqid) area obj, boxItem_eq rfl area obj]
  refine coupled_withPolicy ?_
  by_cases hfixed : Generation.fixedType obj = true
  · rw [if_pos hfixed, if_pos hfixed]
    exact coupled_sameItem rng _
  · have hrandom : Generation.fixedType obj = false := Bool.eq_false_iff.mpr hfixed
    rw [if_neg hfixed, if_neg hfixed]
    exact coupled_orRare (fun h => hrares h hrandom) (fun h => hunits h hrandom)

/-- A fully fixed box does not depend on the entry. -/
theorem coupled_boxItem_fixed {obj : GameObject} (ent' : PtEntry) (hqid : gc.qid = bb.qid)
    (hfull : Generation.fullyFixed obj = true) :
    CoupledAt rng (SameDrop (v3Policy env bb))
      ((v3Generation env gc rGc ent pmt gcMag send).boxItem area obj)
      ((v3Generation env bb rBb ent' pmt bbMag send').boxItem area obj) := by
  have hfixed : Generation.fixedType obj = true := by
    unfold Generation.fullyFixed at hfull
    exact (Bool.and_eq_true_iff.mp hfull).1
  rw [boxItem_eq (v3Generation_boxPolicy hqid) area obj, boxItem_eq rfl area obj,
    if_pos hfixed, if_pos hfixed, if_pos hfull, if_pos hfull]
  exact coupled_withPolicy (coupledAt_pure (Or.inl rfl))

end Siblings

theorem refuse_agree (unchecked : Prop) (ret ret' : ℤ) (map : GameMap) (rng : Rng) :
    Agree unchecked (refuse ret map rng) (refuse ret' map rng) :=
  ⟨Or.inl rfl, rfl, rfl, fun _ => Or.inl rfl⟩

/-- The last checks of both generations let every item through. -/
def LetThrough (policy : DropPolicy) (G B : Generation) : Prop :=
  policy.csr = false ∧ (∀ it, G.send it false = some it) ∧ ∀ it, B.send it false = some it

theorem decide_agree {unchecked : Prop} {G B : Generation} {map : GameMap} {rng : Rng}
    {x : MapEntry} {policy : DropPolicy} {item item' : Gen (Option (ItemWords × DropPolicy))}
    (h : CoupledAt rng (SameDrop policy) item item')
    (hsend : unchecked → LetThrough policy G B) :
    Agree unchecked (G.decide map rng x item) (B.decide map rng x item') := by
  obtain ⟨⟨a, b, hab, hgc, hbb⟩, hrng⟩ := h
  constructor
  · change SameItem ((item.run rng).1.map Prod.fst) ((item'.run rng).1.map Prod.fst)
    rw [hgc, hbb, Option.map_map, Option.map_map]
    change SameItem (a.map id) (b.map id)
    rw [Option.map_id]
    exact hab
  · exact hrng
  · rfl
  · intro hunchecked
    obtain ⟨hcsr, hG, hB⟩ := hsend hunchecked
    change SameItem ((item.run rng).1.bind fun it => G.send it.1 it.2.csr)
      ((item'.run rng).1.bind fun it => B.send it.1 it.2.csr)
    have hgcSent : ((item.run rng).1.bind fun it => G.send it.1 it.2.csr) = a := by
      rw [hgc]
      cases a with
      | none => rfl
      | some it => exact (congrArg (G.send it) hcsr).trans (hG it)
    have hbbSent : ((item'.run rng).1.bind fun it => B.send it.1 it.2.csr) = b := by
      rw [hbb]
      cases b with
      | none => rfl
      | some it => exact (congrArg (B.send it) hcsr).trans (hB it)
    rwa [hgcSent, hbbSent]

section Given

variable {env : DropEnv} {gc bb : DropLobby} {rGc rBb : DropInput} {map : GameMap} {rng : Rng}

theorem checkAndSend_letsThrough (hlimits : gc.limits = none) (version : ClientVersion)
    (it : ItemWords) : checkAndSend env gc version it false = some it := by
  unfold checkAndSend
  rw [hlimits]
  rfl

theorem SameGiven.letThrough (h : SameGiven env gc bb rGc rBb) (hunchecked : Unchecked env gc)
    (ent : PtEntry) :
    LetThrough (v3Policy env bb)
      (v3Generation env gc rGc ent env.bbPmt gcMag (checkAndSend env gc rGc.version))
      (v3Generation env bb rBb ent env.bbPmt bbMag (checkAndSendBb env)) := by
  obtain ⟨hcsr, hlimits⟩ := hunchecked
  refine ⟨?_, checkAndSend_letsThrough hlimits rGc.version, fun _ => rfl⟩
  rwa [v3Policy_eq h.qid] at hcsr

/-- The common part of the two, with the entry that boxes should have as well. -/
theorem SameGiven.gcGeneration_eq (h : SameGiven env gc bb rGc rBb) :
    gcGeneration env gc rGc =
      v3Generation env gc rGc (env.bbPt (bb.episode - 1) bb.difficulty bb.bbSection) env.bbPmt
        gcMag (checkAndSend env gc rGc.version) := by
  unfold gcGeneration
  rw [h.pt, h.pmt, h.episode, h.difficulty, h.sectionId]

theorem SameGiven.lookedAt_eq (h : SameGiven env gc bb rGc rBb) (rtIndex a : ℤ) :
    lookedAt env gc rtIndex a =
      rollable (env.gcRt.map fun t => t (bb.episode - 1) bb.difficulty bb.bbSection) rtIndex a := by
  unfold lookedAt
  rw [h.episode, h.difficulty, h.sectionId]

theorem enemyDrop_agree (h : SameGiven env gc bb rGc rBb) {area : ℤ}
    (henemy : ¬rBb.ptIndex = 0x30) (harea : dropArea bb.episode rBb.curArea = some area)
    (hcond : Accepted bb.episode map rBb → Undisturbed env bb map rng rGc rBb) :
    Agree (Unchecked env gc) ((gcGeneration env gc rGc).enemyDrop area rGc map rng)
      ((bbGeneration env bb rBb (bb.episode - 1)).enemyDrop area rBb map rng) := by
  rw [h.gcGeneration_eq]
  unfold bbGeneration Generation.enemyDrop
  rw [h.req, h.behindEnemies, h.ptIndex]
  dsimp only
  by_cases hcount : map.enemies.length < rBb.req.toNat
  · rw [if_pos hcount, if_pos hcount]
    exact refuse_agree _ _ _ map rng
  rw [if_neg hcount, if_neg hcount]
  by_cases hdone : ((map.enemies[rBb.req.toNat]?).getD rBb.behindEnemies).dropDone = true
  · rw [if_pos hdone, if_pos hdone]
    exact refuse_agree _ _ _ map rng
  rw [if_neg hdone, if_neg hdone]
  have haccepted : Accepted bb.episode map rBb := by
    unfold Accepted
    rw [if_neg henemy, harea]
    exact ⟨Option.some_ne_none area, not_lt.mp hcount, Bool.eq_false_iff.mpr hdone⟩
  have hok := hcond haccepted
  have hrolls : (v3Policy env bb).doRare = true →
      rng 0 % 100 < ((env.bbPt (bb.episode - 1) bb.difficulty bb.bbSection).enemyDar
        rBb.ptIndex.toNat).signExtend 32 → RollsRare env bb map rng rBb := by
    intro hroll hdar
    unfold RollsRare
    rw [if_neg henemy]
    exact ⟨hroll, hdar⟩
  refine decide_agree (coupled_enemyItem h.qid ?_ ?_) (fun hu => h.letThrough hu _)
  · intro hroll hdar
    have hrares := hok.rares (hrolls hroll hdar)
    unfold raresFor at hrares
    rw [if_neg henemy, if_neg henemy] at hrares
    rw [h.lookedAt_eq]
    exact hrares
  · intro hroll hdar
    have hunits := hok.units (hrolls hroll hdar)
    unfold raresFor at hunits
    rw [if_neg henemy] at hunits
    rw [h.lookedAt_eq]
    exact hunits

theorem boxDrop_agree (h : SameGiven env gc bb rGc rBb) (hbox : rBb.ptIndex = 0x30)
    (hcond : Accepted bb.episode map rBb → Undisturbed env bb map rng rGc rBb) :
    Agree (Unchecked env gc) ((gcGeneration env gc rGc).boxDrop gc.episode rGc map rng)
      ((bbGeneration env bb rBb bb.episode).boxDrop bb.episode rBb map rng) := by
  rw [h.gcGeneration_eq, h.episode]
  unfold bbGeneration Generation.boxDrop
  rw [h.req, h.behindObjs, h.curArea]
  dsimp only
  by_cases hcount : map.objs.length < rBb.req.toNat
  · rw [if_pos hcount, if_pos hcount]
    exact refuse_agree _ _ _ map rng
  rw [if_neg hcount, if_neg hcount]
  by_cases hopened : ((map.objs[rBb.req.toNat]?).getD rBb.behindObjs).flags &&& 0x00000001 ≠ 0
  · rw [if_pos hopened, if_pos hopened]
    exact refuse_agree _ _ _ map rng
  rw [if_neg hopened, if_neg hopened]
  cases harea : dropArea bb.episode rBb.curArea with
  | none => exact refuse_agree _ _ _ map rng
  | some area =>
    have haccepted : Accepted bb.episode map rBb := by
      unfold Accepted
      rw [if_pos hbox, harea]
      exact ⟨Option.some_ne_none area, not_lt.mp hcount, not_not.mp hopened⟩
    have hok := hcond haccepted
    by_cases hfull : Generation.fullyFixed (boxOf map rBb) = true
    · exact decide_agree (coupled_boxItem_fixed _ h.qid hfull) (fun hu => h.letThrough hu _)
    · rw [hok.entry hbox (Bool.eq_false_iff.mpr hfull)]
      have hrolls : (v3Policy env bb).doRare = true →
          Generation.fixedType (boxOf map rBb) = false → RollsRare env bb map rng rBb := by
        intro hroll hrandom
        unfold RollsRare
        rw [if_pos hbox]
        exact ⟨hroll, hrandom⟩
      refine decide_agree (coupled_boxItem h.qid ?_ ?_) (fun hu => h.letThrough hu _)
      · intro hroll hrandom
        have hrares := hok.rares (hrolls hroll hrandom)
        unfold raresFor at hrares
        rw [if_pos hbox, if_pos hbox, harea] at hrares
        rw [h.lookedAt_eq]
        exact hrares
      · intro hroll hrandom
        have hunits := hok.units (hrolls hroll hrandom)
        unfold raresFor at hunits
        rw [if_pos hbox, harea] at hunits
        rw [h.lookedAt_eq]
        exact hunits

theorem enemyDrop_refuses (G : Generation) {r : DropInput} {episode area : ℤ}
    (henemy : ¬r.ptIndex = 0x30) (harea : dropArea episode r.curArea = some area)
    (h : ¬Accepted episode map r) : ∃ ret, G.enemyDrop area r map rng = refuse ret map rng := by
  unfold Generation.enemyDrop
  dsimp only
  split_ifs with hcount hdone
  · exact ⟨_, rfl⟩
  · exact ⟨_, rfl⟩
  · refine absurd ?_ h
    unfold Accepted
    rw [if_neg henemy, harea]
    exact ⟨Option.some_ne_none area, not_lt.mp hcount, Bool.eq_false_iff.mpr hdone⟩

theorem boxDrop_refuses (G : Generation) {r : DropInput} {episode : ℤ} (hbox : r.ptIndex = 0x30)
    (h : ¬Accepted episode map r) : ∃ ret, G.boxDrop episode r map rng = refuse ret map rng := by
  unfold Generation.boxDrop
  dsimp only
  split_ifs with hcount hopened
  · exact ⟨_, rfl⟩
  · exact ⟨_, rfl⟩
  · cases harea : dropArea episode r.curArea with
    | none => exact ⟨_, rfl⟩
    | some area =>
      refine absurd ?_ h
      unfold Accepted
      rw [if_pos hbox, harea]
      exact ⟨Option.some_ne_none area, not_lt.mp hcount, not_not.mp hopened⟩

theorem SameGiven.accepted_iff (h : SameGiven env gc bb rGc rBb) :
    Accepted gc.episode map rGc ↔ Accepted bb.episode map rBb := by
  unfold Accepted boxOf enemyOf
  rw [h.episode, h.curArea, h.ptIndex, h.req, h.behindObjs, h.behindEnemies]

/-- In the fourth episode only requests that are turned down anyway are left. -/
theorem turnedDown (h : SameGiven env gc bb rGc rBb) (hepisode : bb.episode = 3)
    (hcond : Accepted bb.episode map rBb → Undisturbed env bb map rng rGc rBb) :
    ¬Accepted gc.episode map rGc :=
  fun haccepted => (hcond (h.accepted_iff.mp haccepted)).episode hepisode

theorem boxdrop_agree (h : SameGiven env gc bb rGc rBb)
    (hcond : Accepted bb.episode map rBb → Undisturbed env bb map rng rGc rBb) :
    Agree (Unchecked env gc) (ptGenerateGcBoxdrop env gc rGc map rng)
      (ptGenerateBbBoxdrop env bb rBb map rng) := by
  unfold ptGenerateGcBoxdrop ptGenerateBbBoxdrop
  rw [h.ptIndex]
  by_cases hbox : rBb.ptIndex = 0x30
  · rw [if_neg (not_not.mpr hbox), if_neg (not_not.mpr hbox)]
    by_cases hepisode : bb.episode = 3
    · rw [if_pos hepisode]
      obtain ⟨ret, hret⟩ :
          ∃ ret, (gcGeneration env gc rGc).boxDrop gc.episode rGc map rng = refuse ret map rng :=
        boxDrop_refuses _ (h.ptIndex.trans hbox) (turnedDown h hepisode hcond)
      rw [hret]
      exact refuse_agree _ _ _ map rng
    · rw [if_neg hepisode]
      exact boxDrop_agree h hbox hcond
  · rw [if_pos hbox, if_pos hbox]
    split_ifs <;> exact refuse_agree _ _ _ map rng

theorem drop_agree (h : SameGiven env gc bb rGc rBb)
    (hcond : Accepted bb.episode map rBb → Undisturbed env bb map rng rGc rBb) :
    Agree (Unchecked env gc) (ptGenerateGcDrop env gc rGc map rng)
      (ptGenerateBbDrop env bb rBb map rng) := by
  unfold ptGenerateGcDrop ptGenerateBbDrop
  rw [h.ptIndex, h.curArea, h.episode]
  by_cases hbox : rBb.ptIndex = 0x30
  · have hboxes := boxdrop_agree h hcond
    rw [if_pos hbox, if_pos hbox]
    by_cases hepisode : bb.episode = 3
    · rw [if_pos hepisode]
      unfold ptGenerateBbBoxdrop at hboxes
      rwa [if_pos hepisode] at hboxes
    · rwa [if_neg hepisode]
  · rw [if_neg hbox, if_neg hbox]
    cases harea : dropArea bb.episode rBb.curArea with
    | none => split_ifs <;> exact refuse_agree _ _ _ map rng
    | some area =>
      by_cases hepisode : bb.episode = 3
      · rw [if_pos hepisode]
        have henemy : ¬rGc.ptIndex = 0x30 := by rwa [h.ptIndex]
        have hgcArea : dropArea gc.episode rGc.curArea = some area := by
          rw [h.episode, h.curArea, harea]
        obtain ⟨ret, hret⟩ :
            ∃ ret, (gcGeneration env gc rGc).enemyDrop area rGc map rng = refuse ret map rng :=
          enemyDrop_refuses _ henemy hgcArea (turnedDown h hepisode hcond)
        change Agree _ ((gcGeneration env gc rGc).enemyDrop area rGc map rng) _
        rw [hret]
        exact refuse_agree _ _ _ map rng
      · rw [if_neg hepisode]
        exact enemyDrop_agree h hbox harea hcond

end Given

/-- A game of the last generation with the settings of the other. -/
def blueForest : DropLobby :=
  { MapDrops.forest with version := .bb }

theorem forest_sameGiven (env : DropEnv) (hpt : env.gcPt = env.bbPt) (hpmt : env.gcPmt = env.bbPmt)
    (ptIndex : BitVec 8) :
    SameGiven env MapDrops.forest blueForest (MapDrops.forestRequest ptIndex)
      (MapDrops.forestRequest ptIndex) :=
  ⟨hpt, hpmt, rfl, rfl, rfl, rfl, rfl, rfl, rfl, rfl, rfl⟩

/-- The boxes of the first episode hold five meseta, those of the second seven. -/
def mesetaBoxes : DropEnv :=
  let boxes (amount : BitVec 16) : PtEntry :=
    { MapDrops.mesetaEntry with
      boxMeseta := fun _ => (amount, amount)
      boxDrop := fun kind _ => if kind = 5 then 100 else 0 }
  let entry (episode _difficulty _section : ℤ) := boxes (if episode = 0 then 5 else 7)
  { MapDrops.mesetaOnly with gcPt := entry, bbPt := entry }

end ShipServer.DropAgreement
