import ShipServer.LabelledRuns
import ShipServer.Teams

set_option autoImplicit false

namespace ShipServer.MonsterHits

open LabelledRuns Versions LobbyRooms LobbyFunctions Teams

structure GameEnemy where
  bpEntry : BitVec 32
  clientsHit : BitVec 8
  lastClient : ℕ

/-- A game with a map and its members' kill counters. The last three fields are history: who has
hit which enemy alive, whose counter an enemy was added to, and who was given its experience. -/
structure MonsterTeam extends Team where
  clientVersion : ClientId → ClientVersion
  mapEnemies : Option (List GameEnemy)
  challenge : Bool
  battle : Bool
  hasNpc : Bool
  serverDrops : Bool
  bbExp : BitVec 32 → BitVec 32
  enemyKills : ClientId → BitVec 32 → BitVec 32
  hits : List (ℕ × ClientId)
  counted : List (ℕ × ClientId)
  given : List (ℕ × ClientId × BitVec 32)

/-- A monster hit, or a request for experience, where `lastHitter` is read in place of `flags`. -/
structure MhitPkt where
  pktLen : ℕ
  size : ℕ
  enemyId : BitVec 16
  flags : BitVec 32

structure ReqExpPkt where
  pktLen : ℕ
  size : ℕ
  enemyId : BitVec 16
  lastHitter : Bool

def swap32 (v : BitVec 32) : BitVec 32 :=
  v >>> 24 ||| (v >>> 8 &&& 0xFF00) ||| (v <<< 8 &&& 0xFF0000) ||| v <<< 24

/-- `1 << c->client_id`. -/
def hitBit (i : Slot) : BitVec 8 :=
  1 <<< (i : ℕ)

def GameEnemy.isDead (en : GameEnemy) : Bool :=
  en.clientsHit &&& 0x80 ≠ 0

def GameEnemy.hit (en : GameEnemy) (i : Slot) : GameEnemy :=
  { en with clientsHit := en.clientsHit ||| hitBit i, lastClient := i }

def GameEnemy.kill (en : GameEnemy) : GameEnemy :=
  { en with clientsHit := en.clientsHit ||| 0x80 }

def GameEnemy.claim (en : GameEnemy) (i : Slot) : GameEnemy :=
  { en with clientsHit := en.clientsHit &&& ~~~hitBit i ||| 0x80 }

namespace MonsterTeam

def enemies (t : MonsterTeam) : List GameEnemy :=
  t.mapEnemies.getD []

def setEnemy (t : MonsterTeam) (mid : ℕ) (en : GameEnemy) : MonsterTeam :=
  { t with mapEnemies := t.mapEnemies.map fun es => es.set mid en }

/-- The enemy is added to the kill counter of a client. -/
def countKill (t : MonsterTeam) (c : ClientId) (mid : ℕ) (en : GameEnemy) : MonsterTeam :=
  if en.bpEntry < 0x60 ∧ t.hasNpc = false then
    { t with
      enemyKills := Function.update t.enemyKills c
        (Function.update (t.enemyKills c) en.bpEntry (t.enemyKills c en.bpEntry + 1))
      counted := t.counted ++ [(mid, c)] }
  else t

/-- "Save the hit, assuming the enemy isn't already dead." -/
def saveHit (t : MonsterTeam) (c : ClientId) (i : Slot) (mid : ℕ) (killed : Bool) : MonsterTeam :=
  match t.enemies[mid]? with
  | none => t
  | some en =>
    if en.isDead then t
    else
      let t := { t with hits := t.hits ++ [(mid, c)] }
      if killed then (t.setEnemy mid (en.hit i).kill).countKill c mid en
      else t.setEnemy mid (en.hit i)

/-- The id of the enemy may be one too large: the source then reads behind the array. -/
def handleMhit (t : MonsterTeam) (c : ClientId) (i : Slot) (pkt : MhitPkt) (sent : ℤ) :
    MonsterTeam × ℤ :=
  let flags := if t.clientVersion c = .gc then swap32 pkt.flags else pkt.flags
  let mid := pkt.enemyId.toNat
  if t.type = .lobby then (t, -1)
  else if pkt.pktLen ≠ 0x10 ∨ pkt.size ≠ 3 then (t, -1)
  else if t.mapEnemies.isNone ∨ t.challenge ∨ t.battle then (t, sent)
  else if t.enemies.length < mid then (t, if t.serverDrops then -1 else sent)
  else (t.saveHit c i mid (flags &&& 0x800 ≠ 0), sent)

def handleBbMhit (t : MonsterTeam) (c : ClientId) (i : Slot) (pkt : MhitPkt) (sent : ℤ) :
    MonsterTeam × ℤ :=
  let mid := pkt.enemyId.toNat
  if t.type = .lobby then (t, -1)
  else if pkt.pktLen ≠ 0x14 ∨ pkt.size ≠ 3 then (t, -1)
  else if t.enemies.length < mid then (t, -1)
  else (t.saveHit c i mid false, sent)

/-- `client_give_exp`, whose result is `sent`. -/
def giveExp (t : MonsterTeam) (c : ClientId) (mid : ℕ) (exp : BitVec 32) : MonsterTeam :=
  { t with given := t.given ++ [(mid, c, exp)] }

def claimExp (t : MonsterTeam) (c : ClientId) (i : Slot) (mid : ℕ) (lastHitter : Bool)
    (sent : ℤ) : MonsterTeam × ℤ :=
  match t.enemies[mid]? with
  | none => (t, 0)
  | some en =>
    if en.clientsHit &&& hitBit i = 0 then (t, 0)
    else
      let exp := t.bbExp en.bpEntry
      ((t.setEnemy mid (en.claim i)).giveExp c mid (if lastHitter then exp else exp * 80 / 100),
        sent)

def handleBbReqExp (t : MonsterTeam) (c : ClientId) (i : Slot) (pkt : ReqExpPkt) (sent : ℤ) :
    MonsterTeam × ℤ :=
  let mid := pkt.enemyId.toNat
  if t.type = .lobby then (t, -1)
  else if pkt.pktLen ≠ 0x14 ∨ pkt.size ≠ 3 then (t, -1)
  else if t.enemies.length < mid then (t, -1)
  else t.claimExp c i mid pkt.lastHitter sent

end MonsterTeam

inductive Event where
  | mhit (c : ClientId) (pkt : MhitPkt) (sent : ℤ)
  | bbMhit (c : ClientId) (pkt : MhitPkt) (sent : ℤ)
  | bbReqExp (c : ClientId) (pkt : ReqExpPkt) (sent : ℤ)
  | join (c : ClientId)
  | leave (c : ClientId) (lastPreGc : Bool)

def next (t : MonsterTeam) : Event → MonsterTeam
  | .mhit c pkt sent => ((t.place c).map fun i => (t.handleMhit c i pkt sent).1).getD t
  | .bbMhit c pkt sent => ((t.place c).map fun i => (t.handleBbMhit c i pkt sent).1).getD t
  | .bbReqExp c pkt sent => ((t.place c).map fun i => (t.handleBbReqExp c i pkt sent).1).getD t
  | .join c =>
    if t.place c = none then ((t.add c).map fun r => { t with toTeam := r.1 }).getD t else t
  | .leave c lastPreGc => ((t.remove c lastPreGc).map fun r => { t with toTeam := r.1 }).getD t

/-- The bits of an enemy's entry. -/
def MonsterTeam.bits (t : MonsterTeam) (mid : ℕ) : BitVec 8 :=
  (t.enemies[mid]?.map GameEnemy.clientsHit).getD 0

/-- The bit of a slot is set. -/
def MonsterTeam.Marked (t : MonsterTeam) (mid : ℕ) (i : Slot) : Prop :=
  (t.bits mid).getLsbD i = true

def MonsterTeam.Dead (t : MonsterTeam) (mid : ℕ) : Prop :=
  (t.bits mid).getLsbD 7 = true

/-- Everyone is paid once for what they did: an enemy is counted at most once, and its experience
goes at most once to each client that hit it alive. -/
structure Fair (t : MonsterTeam) : Prop where
  counted : (t.counted.map Prod.fst).Nodup
  once : (t.given.map fun x => (x.1, x.2.1)).Nodup
  earned : ∀ mid c exp, (mid, c, exp) ∈ t.given → (mid, c) ∈ t.hits

/-- The enemy is one of the map's. -/
def Targeted (t : MonsterTeam) : Event → Prop
  | .mhit _ pkt _ | .bbMhit _ pkt _ => pkt.enemyId.toNat < t.enemies.length
  | .bbReqExp _ pkt _ => pkt.enemyId.toNat < t.enemies.length
  | .join _ | .leave _ _ => True

/-- Besides, no newcomer gets a slot that is still marked on an enemy. -/
def Orderly (t : MonsterTeam) (e : Event) : Prop :=
  Targeted t e ∧ ∀ c m i, e = .join c → t.add c = some (m, i) → ∀ mid, ¬t.Marked mid i

/-- A game with a map on which nothing has happened. -/
structure Fresh (t : MonsterTeam) : Prop where
  sound : t.Sound
  loaded : t.mapEnemies.isSome
  unmarked : ∀ mid, t.bits mid = 0
  hits : t.hits = []
  counted : t.counted = []
  given : t.given = []

theorem isDead_iff (en : GameEnemy) : en.isDead = true ↔ en.clientsHit.getLsbD 7 = true := by
  have hbits : ∀ v : BitVec 8, decide (v &&& 0x80 ≠ 0) = true ↔ v.getLsbD 7 = true := by decide
  exact hbits en.clientsHit

theorem getLsbD_hitBit {i j : Slot} (hi : (i : ℕ) < 4) :
    (hitBit i).getLsbD j = true ↔ j = i := by
  revert i j
  decide

theorem getLsbD_hit (v : BitVec 8) {i j : Slot} (hi : (i : ℕ) < 4) :
    (v ||| hitBit i).getLsbD j = true ↔ v.getLsbD j = true ∨ j = i := by
  rw [BitVec.getLsbD_or, Bool.or_eq_true, getLsbD_hitBit hi]

theorem and_hitBit (v : BitVec 8) {i : Slot} (hi : (i : ℕ) < 4) :
    v &&& hitBit i ≠ 0 ↔ v.getLsbD i = true := by
  have hbits : ∀ i : Fin 4, ∀ v : BitVec 8,
      v &&& 1 <<< (i : ℕ) ≠ 0 ↔ v.getLsbD i = true := by decide
  exact hbits ⟨i, hi⟩ v

theorem getLsbD_kill (v : BitVec 8) {j : Slot} (hj : (j : ℕ) < 4) :
    (v ||| 0x80).getLsbD j = v.getLsbD j := by
  have hbits : ∀ j : Fin 4, ∀ v : BitVec 8, (v ||| 0x80).getLsbD j = v.getLsbD j := by decide
  exact hbits ⟨j, hj⟩ v

theorem getLsbD_kill_dead (v : BitVec 8) : (v ||| 0x80).getLsbD 7 = true := by
  revert v
  decide

theorem getLsbD_claim (v : BitVec 8) {i j : Slot} (hi : (i : ℕ) < 4) (hj : (j : ℕ) < 4)
    (h : (v &&& ~~~hitBit i ||| 0x80).getLsbD j = true) : v.getLsbD j = true ∧ j ≠ i := by
  rw [getLsbD_kill _ hj, BitVec.getLsbD_and, Bool.and_eq_true, BitVec.getLsbD_not,
    Bool.and_eq_true, Bool.not_eq_true'] at h
  refine ⟨h.1, fun hij => ?_⟩
  rw [(getLsbD_hitBit hi).mpr hij] at h
  exact absurd h.2.2 Bool.true_eq_false_eq_False

theorem bits_of_enemy {t : MonsterTeam} {mid : ℕ} {en : GameEnemy} (h : t.enemies[mid]? = some en) :
    t.bits mid = en.clientsHit := by
  unfold MonsterTeam.bits
  rw [h]
  rfl

theorem enemies_setEnemy (t : MonsterTeam) (mid : ℕ) (en : GameEnemy) :
    (t.setEnemy mid en).enemies = t.enemies.set mid en := by
  unfold MonsterTeam.enemies MonsterTeam.setEnemy
  cases t.mapEnemies with
  | none => rfl
  | some es => rfl

theorem bits_setEnemy {t : MonsterTeam} {mid : ℕ} {en : GameEnemy} (h : t.enemies[mid]? = some en)
    (en' : GameEnemy) (m : ℕ) :
    (t.setEnemy mid en').bits m = if m = mid then en'.clientsHit else t.bits m := by
  have hlt := (List.getElem?_eq_some_iff.mp h).1
  unfold MonsterTeam.bits
  rw [enemies_setEnemy, List.getElem?_set]
  by_cases hm : mid = m
  · subst hm
    rw [if_pos rfl, if_pos rfl, if_pos hlt]
    rfl
  · rw [if_neg hm, if_neg (Ne.symm hm)]

/-- What a hit that is saved does. -/
structure Hit (t : MonsterTeam) (c : ClientId) (i : Slot) (mid : ℕ) (t' : MonsterTeam) : Prop where
  team : t'.toTeam = t.toTeam
  hits : t'.hits = t.hits ++ [(mid, c)]
  given : t'.given = t.given
  others : ∀ m, m ≠ mid → t'.bits m = t.bits m
  alive : ¬t.Dead mid
  marks : ∀ j : Slot, (j : ℕ) < 4 → t'.Marked mid j → t.Marked mid j ∨ j = i
  counted : t'.counted = t.counted ∨ (t'.Dead mid ∧ t'.counted = t.counted ++ [(mid, c)])

theorem countKill_bits (t : MonsterTeam) (c : ClientId) (mid : ℕ) (en : GameEnemy) (m : ℕ) :
    (t.countKill c mid en).bits m = t.bits m := by
  unfold MonsterTeam.countKill
  split_ifs <;> rfl

theorem countKill_counted (t : MonsterTeam) (c : ClientId) (mid : ℕ) (en : GameEnemy) :
    (t.countKill c mid en).counted = t.counted ∨
      (t.countKill c mid en).counted = t.counted ++ [(mid, c)] := by
  unfold MonsterTeam.countKill
  split_ifs
  · exact Or.inr rfl
  · exact Or.inl rfl

theorem countKill_same (t : MonsterTeam) (c : ClientId) (mid : ℕ) (en : GameEnemy) :
    (t.countKill c mid en).toTeam = t.toTeam ∧ (t.countKill c mid en).hits = t.hits ∧
      (t.countKill c mid en).given = t.given := by
  unfold MonsterTeam.countKill
  split_ifs <;> exact ⟨rfl, rfl, rfl⟩

theorem saveHit_cases (t : MonsterTeam) (c : ClientId) {i : Slot} (hi : (i : ℕ) < 4) (mid : ℕ)
    (killed : Bool) : t.saveHit c i mid killed = t ∨ Hit t c i mid (t.saveHit c i mid killed) := by
  unfold MonsterTeam.saveHit
  cases hen : t.enemies[mid]? with
  | none => exact Or.inl rfl
  | some en =>
    dsimp only
    by_cases hdead : en.isDead = true
    · rw [if_pos hdead]
      exact Or.inl rfl
    · rw [if_neg hdead]
      right
      have halive : ¬t.Dead mid := by
        unfold MonsterTeam.Dead
        rw [bits_of_enemy hen, ← isDead_iff]
        exact hdead
      have hen' : ({ t with hits := t.hits ++ [(mid, c)] } : MonsterTeam).enemies[mid]? = some en := hen
      have hmarks : ∀ j : Slot, (en.clientsHit ||| hitBit i).getLsbD j = true →
          t.Marked mid j ∨ j = i := by
        intro j hj
        unfold MonsterTeam.Marked
        rw [bits_of_enemy hen]
        exact (getLsbD_hit _ hi).mp hj
      cases killed with
      | false =>
        simp only [Bool.false_eq_true, if_false]
        refine ⟨rfl, rfl, rfl, fun m hm => ?_, halive, fun j _ hj => ?_, Or.inl rfl⟩
        · rw [bits_setEnemy hen', if_neg hm]
          rfl
        · unfold MonsterTeam.Marked at hj
          rw [bits_setEnemy hen', if_pos rfl] at hj
          exact hmarks j hj
      | true =>
        simp only [if_true]
        obtain ⟨hteam, hhits, hgiven⟩ := countKill_same ({ t with hits := t.hits ++ [(mid, c)] }.setEnemy
          mid (en.hit i).kill) c mid en
        refine ⟨hteam, hhits, hgiven, fun m hm => ?_, halive, fun j hlt hj => ?_, ?_⟩
        · rw [countKill_bits, bits_setEnemy hen', if_neg hm]
          rfl
        · unfold MonsterTeam.Marked at hj
          rw [countKill_bits, bits_setEnemy hen', if_pos rfl] at hj
          rw [GameEnemy.kill, getLsbD_kill _ hlt] at hj
          exact hmarks j hj
        · have hkilled : (({ t with hits := t.hits ++ [(mid, c)] }.setEnemy mid
              (en.hit i).kill).countKill c mid en : MonsterTeam).Dead mid := by
            unfold MonsterTeam.Dead
            rw [countKill_bits, bits_setEnemy hen', if_pos rfl]
            exact getLsbD_kill_dead _
          rcases countKill_counted ({ t with hits := t.hits ++ [(mid, c)] }.setEnemy mid
            (en.hit i).kill) c mid en with hsame | hmore
          · exact Or.inl hsame
          · exact Or.inr ⟨hkilled, hmore⟩

/-- What a request that is granted does. -/
structure Claimed (t : MonsterTeam) (c : ClientId) (i : Slot) (mid : ℕ) (t' : MonsterTeam) :
    Prop where
  team : t'.toTeam = t.toTeam
  hits : t'.hits = t.hits
  counted : t'.counted = t.counted
  given : ∃ exp, t'.given = t.given ++ [(mid, c, exp)]
  others : ∀ m, m ≠ mid → t'.bits m = t.bits m
  marked : t.Marked mid i
  dead : t'.Dead mid
  marks : ∀ j : Slot, (j : ℕ) < 4 → t'.Marked mid j → t.Marked mid j ∧ j ≠ i

theorem claimExp_cases (t : MonsterTeam) (c : ClientId) {i : Slot} (hi : (i : ℕ) < 4) (mid : ℕ)
    (lastHitter : Bool) (sent : ℤ) : (t.claimExp c i mid lastHitter sent).1 = t ∨
      Claimed t c i mid (t.claimExp c i mid lastHitter sent).1 := by
  unfold MonsterTeam.claimExp
  cases hen : t.enemies[mid]? with
  | none => exact Or.inl rfl
  | some en =>
    dsimp only
    by_cases hbit : en.clientsHit &&& hitBit i = 0
    · rw [if_pos hbit]
      exact Or.inl rfl
    · rw [if_neg hbit]
      right
      have hbits : ∀ exp m, ((t.setEnemy mid (en.claim i)).giveExp c mid exp).bits m =
          if m = mid then (en.claim i).clientsHit else t.bits m :=
        fun _ m => bits_setEnemy hen _ m
      refine ⟨rfl, rfl, rfl, ⟨_, rfl⟩, fun m hm => ?_, ?_, ?_, fun j hj hmark => ?_⟩
      · rw [hbits, if_neg hm]
      · unfold MonsterTeam.Marked
        rw [bits_of_enemy hen]
        exact (and_hitBit _ hi).mp hbit
      · unfold MonsterTeam.Dead
        rw [hbits, if_pos rfl]
        exact getLsbD_kill_dead _
      · unfold MonsterTeam.Marked at hmark ⊢
        rw [hbits, if_pos rfl] at hmark
        rw [bits_of_enemy hen]
        exact getLsbD_claim _ hi hj hmark

structure Invariant (t : MonsterTeam) : Prop extends Fair t where
  sound : t.Sound
  countedDead : ∀ mid c, (mid, c) ∈ t.counted → t.Dead mid
  spent : ∀ mid c exp, (mid, c, exp) ∈ t.given →
    t.Dead mid ∧ ∀ i, t.clients i = some c → ¬t.Marked mid i
  credit : ∀ mid i c, t.clients i = some c → t.Marked mid i → (mid, c) ∈ t.hits

theorem Invariant.lt_four {t : MonsterTeam} (h : Invariant t) {i : Slot} {c : ClientId}
    (hi : t.clients i = some c) : (i : ℕ) < 4 :=
  h.sound.lt_four ((h.sound.seated i c).mp hi)

theorem Fresh.invariant {t : MonsterTeam} (h : Fresh t) : Invariant t where
  counted := by
    rw [h.counted]
    exact List.nodup_nil
  once := by
    rw [h.given]
    exact List.nodup_nil
  earned mid c exp hmem := by
    rw [h.given] at hmem
    cases hmem
  sound := h.sound
  countedDead mid c hmem := by
    rw [h.counted] at hmem
    cases hmem
  spent mid c exp hmem := by
    rw [h.given] at hmem
    cases hmem
  credit mid i c _ hmarked := by
    unfold MonsterTeam.Marked at hmarked
    rw [h.unmarked mid] at hmarked
    simp at hmarked

theorem Invariant.hit {t t' : MonsterTeam} (h : Invariant t) {c : ClientId} {i : Slot} {mid : ℕ}
    (hi : t.clients i = some c) (hhit : Hit t c i mid t') : Invariant t' := by
  have hdead : ∀ m, t.Dead m → t'.Dead m := by
    intro m hm
    have hne : m ≠ mid := by
      rintro rfl
      exact hhit.alive hm
    unfold MonsterTeam.Dead
    rw [hhit.others m hne]
    exact hm
  refine ⟨⟨?_, ?_, fun m d exp hmem => ?_⟩, ?_, fun m d hmem => ?_, fun m d exp hmem => ?_,
    fun m j d hj hmark => ?_⟩
  · rcases hhit.counted with hsame | ⟨-, hmore⟩
    · rw [hsame]
      exact h.counted
    · rw [hmore, List.map_append, List.nodup_append]
      refine ⟨h.counted, List.nodup_singleton _, fun x hx y hy => ?_⟩
      obtain ⟨⟨m, d⟩, hmem, rfl⟩ := List.mem_map.mp hx
      rw [List.mem_singleton.mp hy]
      rintro rfl
      exact hhit.alive (h.countedDead _ d hmem)
  · rw [hhit.given]
    exact h.once
  · rw [hhit.given] at hmem
    rw [hhit.hits]
    exact List.mem_append_left _ (h.earned m d exp hmem)
  · rw [hhit.team]
    exact h.sound
  · rcases hhit.counted with hsame | ⟨hkilled, hmore⟩
    · rw [hsame] at hmem
      exact hdead m (h.countedDead m d hmem)
    · rw [hmore] at hmem
      rcases List.mem_append.mp hmem with hold | hnew
      · exact hdead m (h.countedDead m d hold)
      · cases List.mem_singleton.mp hnew
        exact hkilled
  · rw [hhit.given] at hmem
    obtain ⟨hspent, hunmarked⟩ := h.spent m d exp hmem
    have hne : m ≠ mid := by
      rintro rfl
      exact hhit.alive hspent
    refine ⟨hdead m hspent, fun j hj => ?_⟩
    rw [hhit.team] at hj
    unfold MonsterTeam.Marked
    rw [hhit.others m hne]
    exact hunmarked j hj
  · rw [hhit.team] at hj
    rw [hhit.hits]
    by_cases hm : m = mid
    · subst hm
      rcases hhit.marks j (h.lt_four hj) hmark with hold | rfl
      · exact List.mem_append_left _ (h.credit m j d hj hold)
      · rw [hi] at hj
        cases hj
        exact List.mem_append_right _ (List.mem_singleton_self _)
    · unfold MonsterTeam.Marked at hmark
      rw [hhit.others m hm] at hmark
      exact List.mem_append_left _ (h.credit m j d hj hmark)

theorem Invariant.claimed {t t' : MonsterTeam} (h : Invariant t) {c : ClientId} {i : Slot}
    {mid : ℕ} (hi : t.clients i = some c) (hclaimed : Claimed t c i mid t') : Invariant t' := by
  obtain ⟨exp, hgiven⟩ := hclaimed.given
  have hdead : ∀ m, t.Dead m → t'.Dead m := by
    intro m hm
    by_cases hne : m = mid
    · rw [hne]
      exact hclaimed.dead
    · unfold MonsterTeam.Dead
      rw [hclaimed.others m hne]
      exact hm
  have hmarks : ∀ m (j : Slot), (j : ℕ) < 4 → t'.Marked m j →
      t.Marked m j ∧ (m = mid → j ≠ i) := by
    intro m j hj hmark
    by_cases hm : m = mid
    · subst hm
      obtain ⟨hold, hne⟩ := hclaimed.marks j hj hmark
      exact ⟨hold, fun _ => hne⟩
    · unfold MonsterTeam.Marked at hmark ⊢
      rw [hclaimed.others m hm] at hmark
      exact ⟨hmark, fun heq => absurd heq hm⟩
  have hnew : ∀ e, (mid, c, e) ∉ t.given :=
    fun e hmem => (h.spent mid c e hmem).2 i hi hclaimed.marked
  refine ⟨⟨?_, ?_, fun m d e hmem => ?_⟩, ?_, fun m d hmem => ?_, fun m d e hmem => ?_,
    fun m j d hj hmark => ?_⟩
  · rw [hclaimed.counted]
    exact h.counted
  · rw [hgiven, List.map_append, List.nodup_append]
    refine ⟨h.once, List.nodup_singleton _, fun x hx y hy => ?_⟩
    obtain ⟨⟨m, d, e⟩, hmem, rfl⟩ := List.mem_map.mp hx
    rw [List.mem_singleton.mp hy]
    intro heq
    cases heq
    exact hnew e hmem
  · rw [hclaimed.hits]
    rw [hgiven] at hmem
    rcases List.mem_append.mp hmem with hold | hlast
    · exact h.earned m d e hold
    · cases List.mem_singleton.mp hlast
      exact h.credit mid i c hi hclaimed.marked
  · rw [hclaimed.team]
    exact h.sound
  · rw [hclaimed.counted] at hmem
    exact hdead m (h.countedDead m d hmem)
  · rw [hclaimed.team]
    rw [hgiven] at hmem
    rcases List.mem_append.mp hmem with hold | hlast
    · obtain ⟨hspent, hunmarked⟩ := h.spent m d e hold
      exact ⟨hdead m hspent, fun j hj hmark => hunmarked j hj (hmarks m j (h.lt_four hj) hmark).1⟩
    · cases List.mem_singleton.mp hlast
      refine ⟨hclaimed.dead, fun j hj hmark => ?_⟩
      exact (hmarks mid j (h.lt_four hj) hmark).2 rfl (h.sound.seated.unique hj hi)
  · rw [hclaimed.team] at hj
    rw [hclaimed.hits]
    exact h.credit m j d hj (hmarks m j (h.lt_four hj) hmark).1

/-- A change of the members after which every member either was one before in the same slot or
has no mark. -/
theorem Invariant.reseat {t : MonsterTeam} (h : Invariant t) {m : Team} (hm : m.Sound)
    (hmembers : ∀ i c, m.clients i = some c → t.clients i = some c ∨ ∀ mid, ¬t.Marked mid i) :
    Invariant { t with toTeam := m } := by
  refine ⟨⟨h.counted, h.once, h.earned⟩, hm, h.countedDead, fun mid c exp hmem => ?_, fun mid i c hi hmark => ?_⟩
  · obtain ⟨hdead, hunmarked⟩ := h.spent mid c exp hmem
    refine ⟨hdead, fun i hi => ?_⟩
    rcases hmembers i c hi with hold | hclear
    · exact hunmarked i hold
    · exact hclear mid
  · rcases hmembers i c hi with hold | hclear
    · exact h.credit mid i c hold hmark
    · exact absurd hmark (hclear mid)

theorem Invariant.saveHit {t : MonsterTeam} (h : Invariant t) {c : ClientId} {i : Slot}
    (hi : t.clients i = some c) (mid : ℕ) (killed : Bool) :
    Invariant (t.saveHit c i mid killed) := by
  rcases saveHit_cases t c (h.lt_four hi) mid killed with hsame | hhit
  · rw [hsame]
    exact h
  · exact h.hit hi hhit

theorem Invariant.handleMhit {t : MonsterTeam} (h : Invariant t) {c : ClientId} {i : Slot}
    (hi : t.clients i = some c) (pkt : MhitPkt) (sent : ℤ) :
    Invariant (t.handleMhit c i pkt sent).1 := by
  unfold MonsterTeam.handleMhit
  dsimp only
  split_ifs
  · exact h
  · exact h
  · exact h
  · exact h
  · exact h
  · exact h.saveHit hi _ _
  · exact h.saveHit hi _ _

theorem Invariant.handleBbMhit {t : MonsterTeam} (h : Invariant t) {c : ClientId} {i : Slot}
    (hi : t.clients i = some c) (pkt : MhitPkt) (sent : ℤ) :
    Invariant (t.handleBbMhit c i pkt sent).1 := by
  unfold MonsterTeam.handleBbMhit
  dsimp only
  split_ifs
  · exact h
  · exact h
  · exact h
  · exact h.saveHit hi _ _

theorem Invariant.handleBbReqExp {t : MonsterTeam} (h : Invariant t) {c : ClientId} {i : Slot}
    (hi : t.clients i = some c) (pkt : ReqExpPkt) (sent : ℤ) :
    Invariant (t.handleBbReqExp c i pkt sent).1 := by
  unfold MonsterTeam.handleBbReqExp
  dsimp only
  split_ifs
  · exact h
  · exact h
  · exact h
  · rcases claimExp_cases t c (h.lt_four hi) pkt.enemyId.toNat pkt.lastHitter sent with
      hsame | hclaimed
    · rw [hsame]
      exact h
    · exact h.claimed hi hclaimed

/-- The sender of a packet is where it thinks it is. -/
theorem Invariant.packet {t : MonsterTeam} (h : Invariant t) (c : ClientId)
    {handler : Slot → MonsterTeam} (hhandler : ∀ i, t.clients i = some c → Invariant (handler i)) :
    Invariant (((t.place c).map handler).getD t) := by
  cases hplace : t.place c with
  | none => exact h
  | some i => exact hhandler i ((h.sound.seated i c).mpr hplace)

theorem next_invariant {t : MonsterTeam} (h : Invariant t) {e : Event} (hgood : Orderly t e) :
    Invariant (next t e) := by
  cases e with
  | mhit c pkt sent => exact h.packet c fun i hi => h.handleMhit hi pkt sent
  | bbMhit c pkt sent => exact h.packet c fun i hi => h.handleBbMhit hi pkt sent
  | bbReqExp c pkt sent => exact h.packet c fun i hi => h.handleBbReqExp hi pkt sent
  | join c =>
    simp only [next]
    split_ifs with hplace
    · cases hadd : t.add c with
      | none => exact h
      | some r =>
        obtain ⟨hsound, -⟩ := h.sound.add hplace hadd
        refine h.reseat hsound fun i d hi => ?_
        have hadded : t.add c = some (r.1, r.2) := hadd
        obtain ⟨-, heq⟩ := Team.add_eq_some hadded
        rw [heq] at hi
        by_cases hslot : i = r.2
        · rw [hslot]
          exact Or.inr (hgood.2 c r.1 r.2 rfl hadd)
        · left
          have hold : Function.update t.clients r.2 (some c) i = some d := hi
          rwa [Function.update_of_ne hslot] at hold
    · exact h
  | leave c lastPreGc =>
    simp only [next]
    cases hremove : t.remove c lastPreGc with
    | none => exact h
    | some r =>
      refine h.reseat (h.sound.remove hremove) fun i d hi => Or.inl ?_
      have hremoved : t.remove c lastPreGc = some (r.1, r.2) := hremove
      obtain ⟨-, -, heq⟩ := Team.remove_eq_some hremoved
      rw [heq] at hi
      have hold : Function.update t.clients r.2 none i = some d := hi
      by_cases hslot : i = r.2
      · rw [hslot, Function.update_self] at hold
        cases hold
      · rwa [Function.update_of_ne hslot] at hold

/-- Kills are counted once and experience goes once to those who have earned it, as long as no
newcomer gets a slot with hits of an earlier member. -/
theorem monsterHits_fair {t t' : MonsterTeam} {es : List Event} (hfresh : Fresh t)
    (hrun : Run (StepOf next) Orderly t es t') : Fair t' := by
  have hinv : Invariant t' := by
    refine hrun.invariant Invariant hfresh.invariant ?_
    rintro t₀ e t₁ h₀ hgood rfl
    exact next_invariant h₀ hgood
  exact hinv.toFair

/-- A Blue Burst game with one enemy, before anybody has joined. -/
def oneEnemy : MonsterTeam where
  type := .game
  version := .bb
  maxClients := 4
  numClients := 0
  clients _ := none
  bursting := false
  passwd := []
  place _ := none
  clientVersion _ := .bb
  mapEnemies := some [⟨0, 0, 0⟩]
  challenge := false
  battle := false
  hasNpc := false
  serverDrops := true
  bbExp _ := 10
  enemyKills _ _ := 0
  hits := []
  counted := []
  given := []

theorem oneEnemy_fresh : Fresh oneEnemy where
  sound :=
    { room := ⟨by decide, by decide, by decide⟩
      game := rfl
      size := le_rfl
      seated := by
        intro i c
        constructor <;> exact nofun }
  loaded := rfl
  unmarked mid := by
    cases mid <;> rfl
  hits := rfl
  counted := rfl
  given := rfl

def firstHit (c : ClientId) : Event :=
  .bbMhit c ⟨0x14, 3, 0, 0⟩ 0

def firstReqExp (c : ClientId) : Event :=
  .bbReqExp c ⟨0x14, 3, 0, true⟩ 0

/-- A player joins, hits the enemy and asks for its experience twice. -/
def hunting : List Event :=
  [.join 0, firstHit 0, firstReqExp 0, firstReqExp 0]

theorem monsterHits_fair_hunting :
    (hunting.foldl next oneEnemy).given = [(0, 0, 10)] ∧ Fair (hunting.foldl next oneEnemy) := by
  have hrun : Run (StepOf next) Orderly oneEnemy hunting (hunting.foldl next oneEnemy) := by
    have hpacket : ∀ t e, Targeted t e → (∀ c, e ≠ .join c) → Orderly t e :=
      fun t e htarget hjoin => ⟨htarget, fun c m i he => absurd he (hjoin c)⟩
    refine .move ⟨trivial, fun c m i _ _ mid hmark => ?_⟩ rfl ?_
    · unfold MonsterTeam.Marked at hmark
      rw [oneEnemy_fresh.unmarked mid] at hmark
      simp at hmark
    · refine .move (hpacket _ _ Nat.zero_lt_one nofun) rfl ?_
      refine .move (hpacket _ _ Nat.zero_lt_one nofun) rfl ?_
      exact .move (hpacket _ _ Nat.zero_lt_one nofun) rfl (.stop _)
  exact ⟨by decide, monsterHits_fair oneEnemy_fresh hrun⟩

/-- A player hits the enemy and leaves. The next one gets its slot, and the experience. -/
theorem monsterHits_not_fair :
    ¬∀ t t' es, Fresh t → Run (StepOf next) Targeted t es t' → Fair t' := by
  intro hall
  have hrun : Run (StepOf next) Targeted oneEnemy
      [.join 0, .join 1, firstHit 0, .leave 0 false, .join 2, firstReqExp 2]
      ([.join 0, .join 1, firstHit 0, .leave 0 false, .join 2, firstReqExp 2].foldl next
        oneEnemy) := by
    refine .move trivial rfl (.move trivial rfl ?_)
    refine .move Nat.zero_lt_one rfl (.move trivial rfl ?_)
    exact .move trivial rfl (.move Nat.zero_lt_one rfl (.stop _))
  have hearned := (hall _ _ _ oneEnemy_fresh hrun).earned 0 2 10 (by decide)
  exact absurd hearned (by decide)

end ShipServer.MonsterHits
