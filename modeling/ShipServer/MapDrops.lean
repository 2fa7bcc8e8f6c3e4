import ShipServer.DropGenerators
import ShipServer.LabelledRuns

set_option autoImplicit false

namespace ShipServer.MapDrops

open Versions LabelledRuns DropItems DropGenerators

/-- The three generations of drops that the server makes. -/
inductive Family where
  | v2
  | gc
  | bb
  deriving DecidableEq

/-- The function that `dropfunc` of a lobby points to. -/
def dropfunc : Family → DropEnv → DropLobby → DropInput → GameMap → Rng → Attempt
  | .v2 => ptGenerateV2Drop
  | .gc => ptGenerateGcDrop
  | .bb => ptGenerateBbDrop

/-- The entry that a request asks for. -/
def requested (r : DropInput) : MapEntry :=
  if r.ptIndex = 0x30 then .box r.req.toNat else .enemy r.req.toNat

/-- The part of `handle_objhit_common` that changes the map. -/
def hitObject (bid : BitVec 16) (map : GameMap) : GameMap :=
  if bid &&& 0xF000 = 0x4000 then
    { map with
      objs := map.objs.modify (bid &&& 0x0FFF).toNat fun gobj =>
        { gobj with flags := gobj.flags ||| 0x80000000 } }
  else map

/-- A game with server drops. The two lists are kept since the map was loaded: the entries whose
drops have been decided, and the items that have been sent, with the entry that was asked for. -/
structure Game where
  map : GameMap
  decided : List MapEntry
  sent : List (MapEntry × ItemWords)

/-- Tables, settings, the leader and the random numbers may be others at each request. -/
inductive Event where
  | itemReq (env : DropEnv) (l : DropLobby) (r : DropInput) (rng : Rng)
  | objHit (bid : BitVec 16)
  | loadMap (map : GameMap)

def start (map : GameMap) : Game :=
  ⟨map, [], []⟩

/-- What a request leaves of the game. -/
def afterAttempt (s : Game) (x : MapEntry) (a : Attempt) : Game where
  map := a.map
  decided := a.decided.toList ++ s.decided
  sent := a.sent.toList.map (fun item => (x, item)) ++ s.sent

def next (family : Family) (s : Game) : Event → Game
  | .itemReq env l r rng => afterAttempt s (requested r) (dropfunc family env l r s.map rng)
  | .objHit bid => { s with map := hitObject bid s.map }
  | .loadMap map => start map

/-- The entry is one of those that the map counts. -/
def Has (map : GameMap) : MapEntry → Prop
  | .enemy mid => mid < map.enemies.length
  | .box objId => objId < map.objs.length

/-- The entry has the mark that keeps it from a second drop. -/
def Marked (map : GameMap) : MapEntry → Prop
  | .enemy mid => ∃ enemy, map.enemies[mid]? = some enemy ∧ enemy.dropDone = true
  | .box objId => ∃ gobj, map.objs[objId]? = some gobj ∧ gobj.flags &&& 0x00000001 ≠ 0

/-- No mark of a map is lost on the way to another, which has the same entries. -/
structure Keeps (map map' : GameMap) : Prop where
  has : ∀ x, Has map' x ↔ Has map x
  marked : ∀ x, Marked map x → Marked map' x

/-- What a request for an entry may come to: to nothing, or to the one decision about an entry
without a mark, which has the mark from then on. -/
inductive Outcome (x : MapEntry) (map : GameMap) (a : Attempt) : Prop where
  | nothing (hmap : a.map = map) (hdecided : a.decided = none) (hsent : a.sent = none)
  | decision (hdecided : a.decided = some x) (hnew : ¬Marked map x)
      (hmarked : Has map x → Marked a.map x) (hkeeps : Keeps map a.map)

section Marks

variable {α : Type} {p : α → Prop} {xs : List α} {j : ℕ}

theorem exists_getElem?_set (i : ℕ) {b : α} (hb : p b) (h : ∃ a, xs[j]? = some a ∧ p a) :
    ∃ a, (xs.set i b)[j]? = some a ∧ p a := by
  obtain ⟨a, ha, hp⟩ := h
  have hj : j < xs.length := (List.getElem?_eq_some_iff.mp ha).1
  by_cases hi : i = j
  · subst hi
    exact ⟨b, List.getElem?_set_self hj, hb⟩
  · exact ⟨a, by rw [List.getElem?_set_ne hi, ha], hp⟩

theorem exists_getElem?_modify (i : ℕ) {f : α → α} (hf : ∀ a, p a → p (f a))
    (h : ∃ a, xs[j]? = some a ∧ p a) : ∃ a, (xs.modify i f)[j]? = some a ∧ p a := by
  obtain ⟨a, ha, hp⟩ := h
  by_cases hi : i = j
  · exact ⟨f a, by simp [hi, ha], hf a hp⟩
  · exact ⟨a, by simp [hi, ha], hp⟩

end Marks

theorem opened_marked (flags : BitVec 32) : (flags ||| 0x00000001) &&& 0x00000001 ≠ 0 := by
  have hbit : ((flags ||| 0x00000001) &&& 0x00000001).getLsbD 0 = true := by simp
  intro hzero
  rw [hzero] at hbit
  exact absurd hbit (by decide)

theorem hit_mark (flags : BitVec 32) :
    (flags ||| 0x80000000) &&& 0x00000001 = flags &&& 0x00000001 := by
  have hmask : (0x80000000 : BitVec 32) &&& 0x00000001 = 0 := by decide
  rw [BitVec.and_or_distrib_right, hmask]
  exact BitVec.or_zero

theorem keeps_enemies (map : GameMap) (mid : ℕ) :
    Keeps map { map with enemies := map.enemies.set mid { dropDone := true } } where
  has x := by cases x <;> simp [Has]
  marked x hx := by
    cases x with
    | enemy id => exact exists_getElem?_set mid rfl hx
    | box id => exact hx

theorem keeps_objs (map : GameMap) (objId : ℕ) (gobj : GameObject) :
    Keeps map { map with
      objs := map.objs.set objId { gobj with flags := gobj.flags ||| 0x00000001 } } where
  has x := by cases x <;> simp [Has]
  marked x hx := by
    cases x with
    | enemy id => exact hx
    | box id => exact exists_getElem?_set objId (opened_marked gobj.flags) hx

theorem keeps_hitObject (bid : BitVec 16) (map : GameMap) : Keeps map (hitObject bid map) := by
  unfold hitObject
  split_ifs
  · constructor
    · intro x
      cases x <;> simp [Has]
    · intro x hx
      cases x with
      | enemy id => exact hx
      | box id =>
        refine exists_getElem?_modify _ ?_ hx
        intro gobj hgobj
        rwa [hit_mark]
  · exact ⟨fun _ => Iff.rfl, fun _ hx => hx⟩

/-- Once the mark is there, nothing of how the item is made matters. -/
theorem decide_outcome (G : Generation) {map map' : GameMap} (rng : Rng) {x : MapEntry}
    (item : Gen (Option (ItemWords × DropPolicy))) (hnew : ¬Marked map x)
    (hmarked : Has map x → Marked map' x) (hkeeps : Keeps map map') :
    Outcome x map (G.decide map' rng x item) :=
  .decision rfl hnew hmarked hkeeps

theorem enemyDrop_outcome (G : Generation) (area : ℤ) (r : DropInput) (map : GameMap)
    (rng : Rng) : Outcome (.enemy r.req.toNat) map (G.enemyDrop area r map rng) := by
  unfold Generation.enemyDrop
  dsimp only
  split_ifs with hcount hdone
  · exact .nothing rfl rfl rfl
  · exact .nothing rfl rfl rfl
  · refine decide_outcome G rng _ ?_ ?_ (keeps_enemies map _)
    · rintro ⟨enemy, henemy, hdropDone⟩
      rw [henemy] at hdone
      exact hdone hdropDone
    · intro hmid
      exact ⟨_, List.getElem?_set_self hmid, rfl⟩

theorem boxDrop_outcome (G : Generation) (episode : ℤ) (r : DropInput) (map : GameMap)
    (rng : Rng) : Outcome (.box r.req.toNat) map (G.boxDrop episode r map rng) := by
  unfold Generation.boxDrop
  dsimp only
  split_ifs with hcount hopened
  · exact .nothing rfl rfl rfl
  · exact .nothing rfl rfl rfl
  · cases dropArea episode r.curArea with
    | none => exact .nothing rfl rfl rfl
    | some area =>
      refine decide_outcome G rng _ ?_ ?_ (keeps_objs map _ _)
      · rintro ⟨gobj, hgobj, hflag⟩
        rw [hgobj] at hopened
        exact hopened hflag
      · intro hobj
        exact ⟨_, List.getElem?_set_self hobj, opened_marked _⟩

theorem requested_box {r : DropInput} (h : r.ptIndex = 0x30) : requested r = .box r.req.toNat :=
  if_pos h

theorem requested_enemy {r : DropInput} (h : ¬r.ptIndex = 0x30) :
    requested r = .enemy r.req.toNat :=
  if_neg h

theorem ptGenerateV2Drop_outcome (env : DropEnv) (l : DropLobby) (r : DropInput) (map : GameMap)
    (rng : Rng) : Outcome (requested r) map (ptGenerateV2Drop env l r map rng) := by
  unfold ptGenerateV2Drop
  split_ifs with hsane hbox
  · exact .nothing rfl rfl rfl
  · rw [requested_box hbox]
    unfold ptGenerateV2Boxdrop
    rw [if_neg (not_not.mpr hbox)]
    exact boxDrop_outcome _ _ r map rng
  · rw [requested_enemy hbox]
    cases dropArea 1 r.curArea with
    | none => exact .nothing rfl rfl rfl
    | some area => exact enemyDrop_outcome _ area r map rng

theorem ptGenerateGcDrop_outcome (env : DropEnv) (l : DropLobby) (r : DropInput) (map : GameMap)
    (rng : Rng) : Outcome (requested r) map (ptGenerateGcDrop env l r map rng) := by
  unfold ptGenerateGcDrop
  split_ifs with hbox
  · rw [requested_box hbox]
    unfold ptGenerateGcBoxdrop
    rw [if_neg (not_not.mpr hbox)]
    exact boxDrop_outcome _ _ r map rng
  · rw [requested_enemy hbox]
    cases dropArea l.episode r.curArea with
    | none => exact .nothing rfl rfl rfl
    | some area => exact enemyDrop_outcome _ area r map rng

theorem ptGenerateBbDrop_outcome (env : DropEnv) (l : DropLobby) (r : DropInput) (map : GameMap)
    (rng : Rng) : Outcome (requested r) map (ptGenerateBbDrop env l r map rng) := by
  unfold ptGenerateBbDrop
  split_ifs with hepisode hbox
  · exact .nothing rfl rfl rfl
  · rw [requested_box hbox]
    unfold ptGenerateBbBoxdrop
    rw [if_neg hepisode, if_neg (not_not.mpr hbox)]
    exact boxDrop_outcome _ _ r map rng
  · rw [requested_enemy hbox]
    cases dropArea l.episode r.curArea with
    | none => exact .nothing rfl rfl rfl
    | some area => exact enemyDrop_outcome _ area r map rng

/-- Whichever generation it is, a request is about the entry that it asks for. -/
theorem dropfunc_outcome (family : Family) (env : DropEnv) (l : DropLobby) (r : DropInput)
    (map : GameMap) (rng : Rng) :
    Outcome (requested r) map (dropfunc family env l r map rng) := by
  cases family with
  | v2 => exact ptGenerateV2Drop_outcome env l r map rng
  | gc => exact ptGenerateGcDrop_outcome env l r map rng
  | bb => exact ptGenerateBbDrop_outcome env l r map rng

/-- A decision leaves its mark, so that none is made twice, and an item comes from a decision. -/
structure Invariant (s : Game) : Prop where
  marked : ∀ x ∈ s.decided, Has s.map x → Marked s.map x
  once : ∀ x, Has s.map x → s.decided.count x ≤ 1
  sent : ∀ x, (s.sent.map Prod.fst).count x ≤ s.decided.count x

theorem invariant_start (map : GameMap) : Invariant (start map) where
  marked _ hx := absurd hx List.not_mem_nil
  once _ _ := Nat.zero_le 1
  sent _ := le_rfl

theorem invariant_objHit {s : Game} (hs : Invariant s) (bid : BitVec 16) :
    Invariant { s with map := hitObject bid s.map } := by
  have hkeeps := keeps_hitObject bid s.map
  constructor
  · intro x hx hhas
    exact hkeeps.marked x (hs.marked x hx ((hkeeps.has x).mp hhas))
  · intro x hhas
    exact hs.once x ((hkeeps.has x).mp hhas)
  · exact hs.sent

/-- An attempt sends at most one item, with the entry that was asked for. -/
theorem count_sent_le (x y : MapEntry) (item : Option ItemWords) :
    ((item.toList.map fun it => (y, it)).map Prod.fst).count x ≤ [y].count x := by
  cases item with
  | none => exact Nat.zero_le _
  | some it => exact le_rfl

theorem invariant_afterAttempt {s : Game} {x : MapEntry} {a : Attempt} (hs : Invariant s)
    (ha : Outcome x s.map a) : Invariant (afterAttempt s x a) := by
  cases ha with
  | nothing hmap hdecided hsent =>
    have hsame : afterAttempt s x a = s := by
      unfold afterAttempt
      rw [hmap, hdecided, hsent]
      rfl
    rwa [hsame]
  | decision hdecided hnew hmarked hkeeps =>
    have hlist : (afterAttempt s x a).decided = x :: s.decided := by
      unfold afterAttempt
      rw [hdecided]
      rfl
    constructor
    · intro y hy hhas
      rw [hlist] at hy
      have hbefore : Has s.map y := (hkeeps.has y).mp hhas
      cases List.mem_cons.mp hy with
      | inl hyx => subst hyx; exact hmarked hbefore
      | inr hys => exact hkeeps.marked y (hs.marked y hys hbefore)
    · intro y hhas
      have hbefore : Has s.map y := (hkeeps.has y).mp hhas
      rw [hlist]
      by_cases hyx : y = x
      · -- no decision about an entry without a mark came before this one
        subst hyx
        have hfirst : y ∉ s.decided := fun hy => hnew (hs.marked y hy hbefore)
        rw [List.count_cons_self, List.count_eq_zero_of_not_mem hfirst]
      · rw [List.count_cons_of_ne (Ne.symm hyx)]
        exact hs.once y hbefore
    · intro y
      have hnow := count_sent_le y x a.sent
      have hpast := hs.sent y
      rw [hlist, ← List.singleton_append, List.count_append]
      unfold afterAttempt
      rw [List.map_append, List.count_append]
      omega

theorem invariant_next (family : Family) {s : Game} (hs : Invariant s) (e : Event) :
    Invariant (next family s e) := by
  cases e with
  | itemReq env l r rng =>
    exact invariant_afterAttempt hs (dropfunc_outcome family env l r s.map rng)
  | objHit bid => exact invariant_objHit hs bid
  | loadMap map => exact invariant_start map

/-- Whatever is asked for, in whatever order, an enemy or a box of the map has its drop decided at
most once, and gives at most one item. -/
theorem entry_drops_once (family : Family) (map : GameMap) {es : List Event} {s : Game}
    (h : Run (StepOf (next family)) Always (start map) es s) {x : MapEntry} (hx : Has s.map x) :
    s.decided.count x ≤ 1 ∧ (s.sent.map Prod.fst).count x ≤ 1 := by
  have hs : Invariant s := by
    refine h.invariant Invariant (invariant_start map) ?_
    intro s e t hs _ htaken
    rw [htaken]
    exact invariant_next family hs e
  have honce := hs.once x hx
  exact ⟨honce, (hs.sent x).trans honce⟩

def noPmt : Pmt where
  haveData := false
  numWeaponTypes := 0
  numWeapons _ := 0
  weapons _ _ := 0
  weaponLowest := 0
  numGuardTypes := 0
  numGuards _ := 0
  guards _ _ := ⟨0, 0, 0⟩
  numUnits := 0
  units _ := 0
  starMax := 0
  starTable _ := 0
  unitsByStars _ := 0
  unitsWithStars _ := 0
  unitMaxStars := 0

def mesetaEntry : PtEntry where
  weaponRatio _ := 0
  weaponMinrank _ := 0
  weaponUpgfloor _ := 0
  powerPattern _ _ := 0
  percentPattern _ _ := 0
  areaPattern _ _ := 0
  percentAttachment _ _ := 0
  elementRanking _ := 0
  elementProbability _ := 0
  armorRanking _ := 0
  slotRanking _ := 0
  unitLevel _ := 0
  toolFrequency _ _ := 0
  techFrequency _ _ := 0
  techLevels _ _ := 0
  enemyDar _ := 100
  enemyMeseta _ := (5, 5)
  enemyDrop _ := 0
  boxMeseta _ := (5, 5)
  boxDrop _ _ := 0
  armorLevel := 0

/-- Tables with nothing in them but enemies that always leave five meseta. -/
def mesetaOnly : DropEnv where
  rules := { attrList := fun _ _ => 0, isStackable := fun _ => false, realBelow := fun _ _ => false }
  v2Pt _ _ := mesetaEntry
  gcPt _ _ _ := mesetaEntry
  bbPt _ _ _ := mesetaEntry
  v2Rt := none
  gcRt := none
  v2Pmt := noPmt
  gcPmt := noPmt
  bbPmt := noPmt
  questRares := false
  questSrares := false
  endropSdrops := 0
  endropNone := 0
  endropNorare := 0
  endropPartial := 0
  endropFree := 0

def forest : DropLobby where
  version := .gc
  episode := 1
  difficulty := 0
  v1Section := 0
  bbSection := 0
  qid := 0
  mids := []
  mtypes := []
  limits := none

def forestRequest (ptIndex : BitVec 8) : DropInput where
  version := .gc
  curArea := 1
  ptIndex := ptIndex
  req := 0
  behindEnemies := ⟨false⟩
  behindObjs := ⟨0, .replicate 4 0, 0⟩
  unset := (0, 0, 0)

/-- The first enemy is asked for twice, and has its five meseta once. -/
theorem first_enemy_drops_once :
    let ask := Event.itemReq mesetaOnly forest (forestRequest 0) fun _ => 2
    let s := [ask, ask].foldl (next .gc) (start ⟨[⟨false⟩], []⟩)
    s.sent = [(.enemy 0, ⟨4, 0, 0, 5⟩)] ∧
      s.decided.count (.enemy 0) ≤ 1 ∧ (s.sent.map Prod.fst).count (.enemy 0) ≤ 1 := by
  intro ask s
  have hfirst : Has s.map (.enemy 0) := by
    change 0 < s.map.enemies.length
    decide
  exact ⟨by decide, entry_drops_once .gc _ (run_foldl _ _ _) hfirst⟩

end ShipServer.MapDrops
